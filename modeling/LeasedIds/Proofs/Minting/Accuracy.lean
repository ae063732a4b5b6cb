import LeasedIds.Proofs.Minting.Registers

namespace LeasedIds

namespace Encoder

variable {encoder : Encoder} {position after : Position} {awaited? : Option Nat} {taken heard : List Nat}
  {outcome : Outcome}

section Units

variable {now units : Nat}

theorem timeUnit_pos (encoder : Encoder) : 0 < encoder.timeUnit :=
  Nat.lt_of_lt_of_le (by decide) encoder.lifetime.1

theorem start_le_of_le_unitAt (positive : 0 < units) (reached : units ≤ encoder.unitAt now) :
    encoder.epoch + units * encoder.timeUnit ≤ now := by
  have span : units * encoder.timeUnit ≤ now - encoder.epoch :=
    (Nat.le_div_iff_mul_le encoder.timeUnit_pos).1 reached
  have := Nat.mul_pos positive encoder.timeUnit_pos
  omega

theorem lt_end_of_unitAt_le (reached : encoder.unitAt now ≤ units) :
    now < encoder.epoch + units * encoder.timeUnit + encoder.timeUnit := by
  have span : now - encoder.epoch < (units + 1) * encoder.timeUnit :=
    (Nat.div_lt_iff_lt_mul encoder.timeUnit_pos).1 (Nat.lt_succ_of_le reached)
  rw [Nat.succ_mul] at span
  omega

end Units

theorem unitAt_of_elapsedUnits {now unit : Nat} (read : encoder.elapsedUnits now = .ok unit) :
    encoder.unitAt now = unit :=
  (encoder.elapsedUnits_eq_ok_iff.1 read).2.1

theorem toTime_idAt (fits : position.Fits encoder.layout) :
    encoder.toTime (encoder.idAt position) = encoder.epoch + position.lastElapsed * encoder.timeUnit := by
  rw [toTime_eq, elapsed_idAt fits]

inductive Dating (encoder : Encoder) (position : Position) : List Nat → Position → Prop where
  | later {first unit : Nat} (read : encoder.elapsedUnits first = .ok unit) (later : position.lastElapsed < unit) :
      Dating encoder position [first] ⟨unit, 0⟩
  | continued {first unit : Nat} (read : encoder.elapsedUnits first = .ok unit)
      (reached : unit ≤ position.lastElapsed) :
      Dating encoder position [first] ⟨position.lastElapsed, position.sequence + 1⟩
  | waited {first last unit shown : Nat} {between : List Nat} (read : encoder.elapsedUnits first = .ok unit)
      (reached : unit ≤ position.lastElapsed) (full : position.sequence = encoder.layout.maxSequence)
      (woken : encoder.elapsedUnits last = .ok shown) (begun : position.lastElapsed + 1 ≤ shown) :
      Dating encoder position (first :: (between ++ [last])) ⟨position.lastElapsed + 1, 0⟩

theorem shown_of_resume_minted {next now : Nat} {id : Id} (minted : encoder.resume next now = .minted id after) :
    ∃ shown, encoder.elapsedUnits now = .ok shown ∧ next ≤ shown ∧ after = ⟨next, 0⟩ := by
  unfold resume at minted
  split at minted
  · contradiction
  next shown read =>
    split at minted
    next reached => exact ⟨shown, read, reached, (Progress.minted.inj minted).2.symm⟩
    · contradiction

theorem Course.waited (course : encoder.Course position awaited? taken outcome after) {next : Nat} {id : Id}
    (awaits : awaited? = some next) (minted : outcome = .minted id) :
    ∃ between last shown, taken = between ++ [last] ∧ after = ⟨next, 0⟩ ∧ encoder.elapsedUnits last = .ok shown ∧
      next ≤ shown := by
  induction course with
  | @minted _ now _ _ ends =>
      subst awaits
      obtain ⟨shown, read, reached, rfl⟩ := shown_of_resume_minted ends
      exact ⟨[], now, shown, rfl, rfl, read, reached⟩
  | failed | starved => contradiction
  | @waiting _ now _ _ _ _ waits _ hypothesis =>
      subst awaits
      obtain ⟨between, last, shown, rfl, fields, read, reached⟩ :=
        hypothesis (congrArg some (resume_eq_waiting waits)) minted
      exact ⟨now :: between, last, shown, rfl, fields, read, reached⟩

theorem Course.dating (fits : position.Fits encoder.layout) {id : Id}
    (course : encoder.Course position none taken (.minted id) after) : encoder.Dating position taken after := by
  cases course with
  | @minted _ now _ _ ends =>
      have beginning := start_beginning fits now
      rw [carryOn] at ends
      rw [ends] at beginning
      generalize progress : Progress.minted id after = begun at beginning
      cases beginning with
      | later read later =>
          obtain ⟨_, rfl⟩ := Progress.minted.inj progress
          exact .later read later
      | continued read reached room =>
          obtain ⟨_, rfl⟩ := Progress.minted.inj progress
          exact .continued read reached
      | unread | waiting | exhausted => contradiction
  | @waiting _ now next _ _ _ waits rest =>
      have beginning := start_beginning fits now
      rw [carryOn] at waits
      rw [waits] at beginning
      obtain ⟨between, last, shown, rfl, rfl, woken, reached⟩ := rest.waited rfl rfl
      generalize progress : Progress.waiting next = begun at beginning
      cases beginning with
      | waiting read before full room =>
          obtain rfl := Progress.waiting.inj progress
          exact .waited read before full woken reached
      | unread | later | continued | exhausted => contradiction

theorem Dating.first_last (dating : encoder.Dating position taken after) :
    ∃ first last unit, taken.head? = some first ∧ taken.getLast? = some last ∧
      encoder.elapsedUnits first = .ok unit ∧ unit ≤ after.lastElapsed ∧
      (position.lastElapsed ≤ unit → after.lastElapsed ≤ encoder.unitAt last ∧
        (after.lastElapsed = unit ∨
          after.lastElapsed = unit + 1 ∧ position.lastElapsed = unit ∧
            position.sequence = encoder.layout.maxSequence)) := by
  cases dating with
  | @later first unit read later =>
      refine ⟨first, first, unit, rfl, rfl, read, Nat.le_refl _, fun _ => ⟨?_, .inl rfl⟩⟩
      exact Nat.le_of_eq (unitAt_of_elapsedUnits read).symm
  | @continued first unit read reached =>
      refine ⟨first, first, unit, rfl, rfl, read, reached, fun behind => ⟨?_, .inl (Nat.le_antisymm behind reached)⟩⟩
      rw [unitAt_of_elapsedUnits read]
      exact behind
  | @waited first last unit shown between read reached full woken begun =>
      have tail : (first :: (between ++ [last])).getLast? = some last := by simp [List.getLast?_cons]
      refine ⟨first, last, unit, rfl, tail, read, Nat.le_succ_of_le reached, fun behind => ⟨?_, ?_⟩⟩
      · rw [unitAt_of_elapsedUnits woken]
        exact begun
      · have current : position.lastElapsed = unit := Nat.le_antisymm behind reached
        exact .inr ⟨congrArg (· + 1) current, current, full⟩

/-- The position is not ahead of all that the encoder has read. -/
def Backed (encoder : Encoder) (heard : List Nat) (position : Position) : Prop :=
  position.lastElapsed = 0 ∨
    ∃ reading ∈ heard, ∃ shown, encoder.elapsedUnits reading = .ok shown ∧ position.lastElapsed ≤ shown

theorem Backed.append (backed : encoder.Backed heard position) (taken : List Nat) :
    encoder.Backed (heard ++ taken) position :=
  backed.imp_right fun ⟨reading, member, reached⟩ => ⟨reading, List.mem_append_left _ member, reached⟩

theorem Backed.mint (backed : encoder.Backed heard position) (dating : encoder.Dating position taken after) :
    encoder.Backed (heard ++ taken) after := by
  cases dating with
  | @later first unit read later => exact .inr ⟨first, by simp, unit, read, Nat.le_refl _⟩
  | continued read reached => exact backed.append _
  | @waited _ last _ shown _ read reached full woken begun => exact .inr ⟨last, by simp, shown, woken, begun⟩

theorem Backed.call (backed : encoder.Backed heard position) (fits : position.Fits encoder.layout)
    (course : encoder.Course position none taken outcome after) : encoder.Backed (heard ++ taken) after := by
  by_cases unminted : ∀ id, outcome ≠ .minted id
  · rw [course.position_eq unminted]
    exact backed.append taken
  · obtain ⟨id, minted⟩ := not_forall_not.1 unminted
    rw [minted] at course
    exact backed.mint (course.dating fits)

theorem Backed.started (backed : encoder.Backed heard position) (positive : 0 < position.lastElapsed) :
    ∃ reading ∈ heard, ∃ shown, encoder.elapsedUnits reading = .ok shown ∧ position.lastElapsed ≤ shown ∧
      encoder.epoch + position.lastElapsed * encoder.timeUnit ≤ reading := by
  obtain ⟨reading, member, shown, read, reached⟩ := backed.resolve_left (Nat.ne_of_gt positive)
  refine ⟨reading, member, shown, read, reached, ?_⟩
  rw [← unitAt_of_elapsedUnits read] at reached
  exact start_le_of_le_unitAt positive reached

theorem Backed.le_unitAt (backed : encoder.Backed heard position) {now : Nat}
    (latest : ∀ reading ∈ heard, reading ≤ now) : position.lastElapsed ≤ encoder.unitAt now := by
  rcases backed with zero | ⟨reading, member, shown, read, reached⟩
  · omega
  · rw [← unitAt_of_elapsedUnits read] at reached
    exact Nat.le_trans reached (encoder.unitAt_mono (latest reading member))

/-- No identifier of a unit is left: those with all of its sequences have been minted, or it is unit 0 and none has been
minted yet. -/
def UsedUp (layout : Layout) (ids : List Id) (unit : Nat) : Prop :=
  ids = [] ∧ unit = 0 ∨ (ofUnit layout unit ids).map layout.sequence = List.range (2 ^ layout.sequenceBits)

theorem Series.usedUp {ids : List Id} (series : encoder.Series ids position)
    (full : position.sequence = encoder.layout.maxSequence) : UsedUp encoder.layout ids position.lastElapsed := by
  cases ids with
  | nil =>
      rw [series.eq_initial]
      exact .inl ⟨rfl, rfl⟩
  | cons id ids =>
      have all := (series.current_unit (List.cons_ne_nil _ _)).2
      have positive := Nat.two_pow_pos encoder.layout.sequenceBits
      rw [full, Layout.maxSequence, Nat.sub_add_cancel positive] at all
      exact .inr all

end Encoder

namespace Minter
open Encoder

theorem backed_take (encoder : Encoder) (readings : Readings) (calls : Nat) :
    encoder.Backed ((ofEncoder encoder readings).heard calls) ((ofEncoder encoder readings).take calls).2.position := by
  induction calls with
  | zero => exact .inl rfl
  | succ calls hypothesis =>
      have fits := (valid_take encoder readings calls).toFits
      have same := encoder_take (ofEncoder encoder readings) calls
      rw [heard_succ, take_succ]
      generalize ((ofEncoder encoder readings).take calls).2 = minter at hypothesis fits same ⊢
      cases poisoned : minter.poisoned with
      | true =>
          rw [next_of_poisoned poisoned]
          exact hypothesis.append _
      | false =>
          have course := (course_next poisoned).2
          rw [same] at course
          exact hypothesis.call fits course

/-- An identifier is dated between the unit of its call's first reading and the latest unit read so far, so its instant
is neither a unit before the first reading nor after every reading. If the clock has not gone back, the identifier is
dated in the unit of the first reading; or else that unit is used up and the identifier is dated in the next one, which
has begun by the call's last reading. -/
theorem minted_ids_dated (encoder : Encoder) (readings : Readings) (calls : Nat) {id : Id}
    (minted : ((ofEncoder encoder readings).take calls).2.next.1 = .minted id) :
    let start := ofEncoder encoder readings
    let minter := (start.take calls).2
    let heard := start.heard (calls + 1)
    let time := encoder.layout.elapsed id
    ∃ first last unit, minter.taken.head? = some first ∧ minter.taken.getLast? = some last ∧
      encoder.elapsedUnits first = .ok unit ∧ unit ≤ time ∧ first < encoder.toTime id + encoder.timeUnit ∧
      (∃ reading ∈ heard, ∃ shown, encoder.elapsedUnits reading = .ok shown ∧ time ≤ shown ∧
        encoder.toTime id ≤ reading) ∧
      (heard.Pairwise (· ≤ ·) → encoder.toTime id ≤ last ∧
        (time = unit ∨
          time = unit + 1 ∧ UsedUp encoder.layout (mintedIds (start.take calls).1) unit ∧
            encoder.epoch + (unit + 1) * encoder.timeUnit ≤ last)) := by
  intro start minter heard time
  have valid : minter.position.Valid encoder.layout := valid_take encoder readings calls
  have same : minter.encoder = encoder := encoder_take start calls
  have backed : encoder.Backed (start.heard calls) minter.position := backed_take encoder readings calls
  have new : start.encoder.Series [] start.position := .fresh
  have series : encoder.Series (mintedIds (start.take calls).1) minter.position := series_take new calls
  have course := (course_next (working_of_minted minted)).2
  have mints := next_minted (same.symm ▸ valid.toFits) minted
  rw [same] at mints course
  rw [minted] at course
  obtain ⟨step, rfl⟩ : minter.position.Next encoder.layout minter.next.2.position ∧ id = _ := mints
  have positive := step.lastElapsed_pos valid
  have time_eq : time = minter.next.2.position.lastElapsed := elapsed_idAt (step.fits valid.toFits)
  have dating : encoder.Dating minter.position minter.taken minter.next.2.position := course.dating valid.toFits
  have split : heard = start.heard calls ++ minter.taken := start.heard_succ calls
  obtain ⟨first, last, unit, head, tail, read, from_first, unhurried⟩ := dating.first_last
  rw [toTime_idAt (step.fits valid.toFits), time_eq, split]
  refine ⟨first, last, unit, head, tail, read, from_first, ?_, (backed.mint dating).started positive, ?_⟩
  · rw [← unitAt_of_elapsedUnits read] at from_first
    exact lt_end_of_unitAt_le from_first
  · intro ordered
    -- What was read before the call is not later than its first reading, so the position is not ahead of that one.
    have latest (reading : Nat) (member : reading ∈ start.heard calls) : reading ≤ first :=
      (List.pairwise_append.1 ordered).2.2 reading member first (List.mem_of_mem_head? head)
    have behind := backed.le_unitAt latest
    rw [unitAt_of_elapsedUnits read] at behind
    obtain ⟨begun, dated⟩ := unhurried behind
    have reached := start_le_of_le_unitAt positive begun
    refine ⟨reached, dated.imp_right ?_⟩
    rintro ⟨next, rfl, full⟩
    rw [next] at reached
    exact ⟨next, series.usedUp full, reached⟩

theorem narrow_minted_ids_dated :
    let start := ofEncoder narrow [⟨1005 * Time.millisecond, 4⟩, ⟨1007 * Time.millisecond, 1⟩]
    (start.take 3).1 = [.minted ⟨22⟩, .minted ⟨23⟩, .minted ⟨26⟩] ∧ (start.heard 3).Pairwise (· ≤ ·) ∧
      (start.take 2).2.taken.getLast? = some (1007 * Time.millisecond) ∧
      narrow.toTime ⟨26⟩ ≤ 1007 * Time.millisecond ∧ UsedUp narrow.layout [⟨22⟩, ⟨23⟩] 5 := by
  intro start
  have minted : (start.take 2).2.next.1 = .minted ⟨26⟩ := by decide
  have ordered : (start.heard 3).Pairwise (· ≤ ·) := by decide
  have latest : (start.take 2).2.taken.getLast? = some (1007 * Time.millisecond) := by decide
  obtain ⟨first, last, unit, head, tail, read, _, _, _, dated⟩ := minted_ids_dated narrow _ 2 minted
  obtain rfl : 1007 * Time.millisecond = last := Option.some.inj (latest.symm.trans tail)
  obtain rfl : 1005 * Time.millisecond = first := Option.some.inj (Eq.trans (by decide) head)
  obtain rfl : 5 = unit := Except.ok.inj (Eq.trans (by decide) read)
  obtain ⟨instant, same | ⟨_, full, _⟩⟩ := dated ordered
  · exact absurd same (by decide)
  · exact ⟨by decide, ordered, latest, instant, full⟩

end Minter
end LeasedIds
