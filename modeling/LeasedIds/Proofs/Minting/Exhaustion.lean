import LeasedIds.Proofs.Minting.Waiting

namespace LeasedIds

namespace Layout

theorem maxElapsed_pos (layout : Layout) : 0 < layout.maxElapsed := by
  have wide : 1 ≤ layout.timeBits := by
    have := layout.widths_le
    unfold timeBits
    omega
  exact Nat.sub_pos_of_lt (Nat.one_lt_two_pow (Nat.one_le_iff_ne_zero.1 wide))

end Layout

namespace Encoder

variable (encoder : Encoder)

def lastPosition : Position := ⟨encoder.layout.maxElapsed, encoder.layout.maxSequence⟩

def refusal (now : Nat) : Error :=
  match encoder.elapsedUnits now with
  | .error error => error
  | .ok _ => .timeExhausted (encoder.layout.maxElapsed + 1) encoder.layout.maxElapsed

def Exhausted (ids : List Id) : Prop :=
  ∃ id ∈ ids, encoder.layout.elapsed id = encoder.layout.maxElapsed ∧
    encoder.layout.sequence id = encoder.layout.maxSequence

instance (ids : List Id) : Decidable (encoder.Exhausted ids) :=
  inferInstanceAs (Decidable (∃ id ∈ ids, _))

variable {encoder} {position after : Position} {ids : List Id} {now : Nat}

theorem lastPosition_fits (encoder : Encoder) : encoder.lastPosition.Fits encoder.layout :=
  ⟨Nat.le_refl _, Nat.le_refl _⟩

theorem refusal_eq (encoder : Encoder) (now : Nat) :
    encoder.refusal now = .clockBeforeEpoch ∨
      ∃ elapsed > encoder.layout.maxElapsed,
        encoder.refusal now = .timeExhausted elapsed encoder.layout.maxElapsed := by
  unfold refusal
  by_cases early : now < encoder.epoch
  · rw [elapsedUnits_of_lt early]
    exact .inl rfl
  · right
    have counted := Nat.le_of_not_lt early
    by_cases past : encoder.layout.maxElapsed < encoder.unitAt now
    · rw [elapsedUnits_of_past counted past]
      exact ⟨_, past, rfl⟩
    · rw [encoder.elapsedUnits_eq_ok_iff.2 ⟨counted, rfl, Nat.le_of_not_lt past⟩]
      exact ⟨_, Nat.lt_succ_self _, rfl⟩

theorem start_lastPosition (encoder : Encoder) (now : Nat) :
    encoder.start encoder.lastPosition now = .failed (encoder.refusal now) := by
  have beginning := start_beginning encoder.lastPosition_fits now
  generalize encoder.start encoder.lastPosition now = progress at beginning ⊢
  cases beginning with
  | unread refused => rw [refusal, refused]
  | later read later =>
      have fits := (encoder.elapsedUnits_eq_ok_iff.1 read).2.2
      exact absurd later (Nat.not_lt.2 fits)
  | continued read reached room => exact absurd room (Nat.lt_irrefl _)
  | waiting read reached full room => exact absurd room (Nat.lt_irrefl _)
  | exhausted read reached full last =>
      rw [refusal, read]
      rfl

theorem nextId_lastPosition (encoder : Encoder) (now : Nat) (readings : List Nat) :
    encoder.nextId encoder.lastPosition (now :: readings) =
      ⟨.failed (encoder.refusal now), encoder.lastPosition, readings⟩ := by
  rw [nextId, start_lastPosition]

theorem Position.Next.ne_lastPosition (next : position.Next encoder.layout after) :
    position ≠ encoder.lastPosition := by
  rintro rfl
  cases next with
  | sequence room => exact absurd room (Nat.lt_irrefl _)
  | unit later room => exact absurd room (Nat.not_le.2 later)

theorem idAt_eq_last_iff (fits : position.Fits encoder.layout) :
    encoder.layout.elapsed (encoder.idAt position) = encoder.layout.maxElapsed ∧
        encoder.layout.sequence (encoder.idAt position) = encoder.layout.maxSequence ↔
      position = encoder.lastPosition := by
  rw [elapsed_idAt fits, sequence_idAt fits, lastPosition, Position.mk.injEq]

theorem Series.exhausted_iff (series : encoder.Series ids position) :
    encoder.Exhausted ids ↔ position = encoder.lastPosition := by
  induction series with
  | fresh =>
      have before : encoder.initial ≠ encoder.lastPosition := by
        intro same
        exact absurd (congrArg Position.lastElapsed same) (Nat.ne_of_lt encoder.layout.maxElapsed_pos)
      simp [Exhausted, before]
  | @snoc ids position next series step hypothesis =>
      have unfinished : ¬ encoder.Exhausted ids := fun exhausted => step.ne_lastPosition (hypothesis.1 exhausted)
      rw [← idAt_eq_last_iff (step.fits series.fits)]
      constructor
      · rintro ⟨id, member, fields⟩
        rcases List.mem_append.1 member with earlier | new
        · exact absurd ⟨id, earlier, fields⟩ unfinished
        · obtain rfl := List.mem_singleton.1 new
          exact fields
      · intro fields
        exact ⟨_, List.mem_append_right _ List.mem_cons_self, fields⟩

theorem nextId_of_free (fits : position.Fits encoder.layout) {unit : Nat}
    (read : encoder.elapsedUnits now = .ok unit)
    (free : position.sequence = encoder.layout.maxSequence → position.lastElapsed < unit) (readings : List Nat) :
    ∃ after, position.Next encoder.layout after ∧
      encoder.nextId position (now :: readings) = ⟨.minted (encoder.idAt after), after, readings⟩ := by
  have beginning := start_beginning fits now
  rw [nextId]
  generalize encoder.start position now = progress at beginning ⊢
  have full_of (reached : unit ≤ position.lastElapsed) (full : position.sequence = encoder.layout.maxSequence) :
      False := absurd (free full) (Nat.not_lt.2 reached)
  have same {unit' : Nat} (read' : encoder.elapsedUnits now = .ok unit') : unit' = unit :=
    Except.ok.inj (read'.symm.trans read)
  cases beginning with
  | unread refused =>
      rw [read] at refused
      contradiction
  | later read' later =>
      exact ⟨_, .unit later (encoder.elapsedUnits_eq_ok_iff.1 read').2.2, rfl⟩
  | continued read' reached room => exact ⟨_, .sequence room, rfl⟩
  | waiting read' reached full room =>
      obtain rfl := same read'
      exact (full_of reached full).elim
  | exhausted read' reached full last =>
      obtain rfl := same read'
      exact (full_of reached full).elim

end Encoder

namespace Minter
open Encoder

variable {minter : Minter}

theorem working_take (working : minter.poisoned = false) {calls : Nat}
    (unbroken : Outcome.starved ∉ (minter.take calls).1) : (minter.take calls).2.poisoned = false := by
  induction calls with
  | zero => exact working
  | succ calls hypothesis =>
      rw [take_succ] at unbroken ⊢
      obtain ⟨earlier, last⟩ := not_or.1 (mt List.mem_append.2 unbroken)
      obtain ⟨outcome, _, _, _, poisons⟩ := next_of_working (hypothesis earlier) rfl
      rw [poisons, ← outcome, decide_eq_false_iff_not]
      exact fun starved => last (List.mem_singleton.2 starved.symm)

theorem next_of_exhausted (last : minter.position = minter.encoder.lastPosition) :
    minter.next.2.position = minter.encoder.lastPosition ∧ minter.next.1.id? = none ∧
      (minter.poisoned = false → ∀ now readings, minter.readings.toList = now :: readings →
        minter.next.1 = .failed (minter.encoder.refusal now) ∧ minter.taken = [now] ∧
          minter.next.2.readings.toList = readings ∧ minter.next.2.poisoned = false) := by
  cases poisoned : minter.poisoned with
  | true =>
      rw [next_of_poisoned poisoned]
      exact ⟨last, rfl, fun working => by contradiction⟩
  | false =>
      cases clock : minter.readings.toList with
      | nil =>
          obtain ⟨outcome, _, position, _, _⟩ := next_of_working poisoned rfl
          rw [clock, last] at outcome position
          rw [outcome, position]
          exact ⟨rfl, rfl, fun _ _ _ impossible => by contradiction⟩
      | cons now readings =>
          have call := minter.encoder.nextId_lastPosition now readings
          rw [← clock, ← last] at call
          obtain ⟨outcome, _, position, rest, poisons⟩ := next_of_working poisoned call
          refine ⟨position.trans last, by rw [outcome]; rfl, ?_⟩
          rintro - _ _ ⟨rfl, rfl⟩
          refine ⟨outcome, taken_eq ?_, rest, poisons.trans (by simp)⟩
          rw [clock, rest]
          rfl

theorem log_of_exhausted (last : minter.position = minter.encoder.lastPosition) (calls : Nat) :
    mintedIds (minter.take calls).1 = [] ∧
      (minter.poisoned = false → calls ≤ minter.readings.size →
        minter.log calls =
          (minter.readings.toList.take calls).map fun now => ⟨.failed (minter.encoder.refusal now), [now]⟩) := by
  induction calls generalizing minter with
  | zero => exact ⟨rfl, fun _ _ => rfl⟩
  | succ calls hypothesis =>
      obtain ⟨stays, unminted, fails⟩ := next_of_exhausted last
      rw [← minter.encoder_next] at stays
      obtain ⟨none, log⟩ := hypothesis stays
      refine ⟨?_, ?_⟩
      · rw [mintedIds] at none ⊢
        exact (List.filterMap_cons_none unminted).trans none
      · intro working enough
        rw [← minter.readings.length_toList] at enough
        cases clock : minter.readings.toList with
        | nil =>
            rw [clock] at enough
            contradiction
        | cons now readings =>
            obtain ⟨outcome, taken, rest, works⟩ := fails working now readings clock
            have remain : calls ≤ minter.next.2.readings.size := by
              rw [← Readings.length_toList, rest]
              rw [clock] at enough
              exact Nat.le_of_succ_le_succ enough
            rw [Minter.log, log works remain, outcome, taken, rest, minter.encoder_next]
            rfl

def onClock (minter : Minter) (readings : Readings) : Minter := { minter with readings }

/-- Whatever the clock goes on to show, no identifier is minted, and each call takes one reading and fails on it. -/
def Spent (minter : Minter) : Prop :=
  ∀ (further : Readings) (calls : Nat),
    mintedIds ((minter.onClock further).take calls).1 = [] ∧
      (calls ≤ further.size →
        (minter.onClock further).log calls =
          (further.toList.take calls).map fun now => ⟨.failed (minter.encoder.refusal now), [now]⟩)

/-- What the next call comes to while identifiers are left, whatever the clock goes on to show: on a reading in a unit of the
time field it mints, at once or, if the unit is used up, on the first reading in a later unit. -/
structure Ready (minter : Minter) : Prop where
  at_once : ∀ (further : Readings) (now unit : Nat) (rest : List Nat),
    further.toList = now :: rest → minter.encoder.elapsedUnits now = .ok unit →
      (minter.position.sequence = minter.encoder.layout.maxSequence → minter.position.lastElapsed < unit) →
        ∃ after, minter.position.Next minter.encoder.layout after ∧
          (minter.onClock further).next.1 = .minted (minter.encoder.idAt after) ∧
          (minter.onClock further).taken = [now]
  in_next_unit : ∀ (further : Readings) (now unit last shown : Nat) (between rest : List Nat),
    further.toList = now :: (between ++ last :: rest) → minter.encoder.elapsedUnits now = .ok unit →
      minter.position.sequence = minter.encoder.layout.maxSequence → unit ≤ minter.position.lastElapsed →
        (∀ reading ∈ between, ∃ unit ≤ minter.position.lastElapsed,
          minter.encoder.elapsedUnits reading = .ok unit) →
          minter.encoder.elapsedUnits last = .ok shown → minter.position.lastElapsed + 1 ≤ shown →
            (minter.onClock further).next.1 =
                .minted (minter.encoder.idAt ⟨minter.position.lastElapsed + 1, 0⟩) ∧
              (minter.onClock further).taken = now :: (between ++ [last])

theorem next_onClock {further : Readings} {taken rest : List Nat} {id : Id} {after : Position}
    (working : minter.poisoned = false) (split : further.toList = taken ++ rest)
    (call : minter.encoder.nextId minter.position further.toList = ⟨.minted id, after, rest⟩) :
    (minter.onClock further).next.1 = .minted id ∧ (minter.onClock further).taken = taken := by
  have works : (minter.onClock further).poisoned = false := working
  obtain ⟨outcome, _, _, left, _⟩ := next_of_working works call
  refine ⟨outcome, taken_eq ?_⟩
  rw [left]
  exact split

theorem ready_of_working (working : minter.poisoned = false)
    (fits : minter.position.Fits minter.encoder.layout) : minter.Ready where
  at_once further now unit rest clock read free := by
    obtain ⟨after, step, call⟩ := nextId_of_free fits read free rest
    rw [← clock] at call
    exact ⟨after, step, next_onClock working clock call⟩
  in_next_unit further now unit last shown between rest clock read full reached idle woken begun := by
    obtain ⟨counted, rfl, _⟩ := minter.encoder.elapsedUnits_eq_ok_iff.1 read
    obtain ⟨counted', rfl, inside⟩ := minter.encoder.elapsedUnits_eq_ok_iff.1 woken
    have room : minter.position.lastElapsed < minter.encoder.layout.maxElapsed :=
      Nat.lt_of_lt_of_le (Nat.lt_of_succ_le begun) inside
    have waits : minter.encoder.NeedsToWait minter.position now := ⟨full, room, counted, reached⟩
    have silent : ∀ reading ∈ between,
        ¬ minter.encoder.EndsWait (minter.position.lastElapsed + 1) reading := by
      intro reading member ends
      obtain ⟨unit, before, shows⟩ := idle reading member
      obtain ⟨counted, rfl, inside⟩ := minter.encoder.elapsedUnits_eq_ok_iff.1 shows
      rcases ends with early | past | reached
      · exact absurd early (Nat.not_lt.2 counted)
      · exact absurd past (Nat.not_lt.2 inside)
      · exact absurd reached (Nat.not_le.2 (Nat.lt_succ_of_le before))
    have call := waits.nextId_append silent (.inr (.inr begun)) rest
    rw [← clock, wokenAt, if_neg (Nat.not_lt.2 counted'), if_neg (Nat.not_lt.2 inside)] at call
    refine next_onClock working ?_ call
    simpa using clock

theorem Ready.not_spent (ready : minter.Ready) (fits : minter.position.Fits minter.encoder.layout)
    (unfinished : minter.position ≠ minter.encoder.lastPosition) : ¬ minter.Spent := by
  intro spent
  -- The start of the next unit, or of the last one.
  obtain ⟨unit, inside, free⟩ : ∃ unit ≤ minter.encoder.layout.maxElapsed,
      minter.position.sequence = minter.encoder.layout.maxSequence → minter.position.lastElapsed < unit := by
    refine ⟨min (minter.position.lastElapsed + 1) minter.encoder.layout.maxElapsed, Nat.min_le_right _ _, ?_⟩
    intro full
    have room : minter.position.lastElapsed ≠ minter.encoder.layout.maxElapsed := by
      intro last
      exact unfinished (by rw [lastPosition, ← last, ← full])
    have := fits.elapsed_le
    omega
  let now := minter.encoder.epoch + unit * minter.encoder.timeUnit
  have read : minter.encoder.elapsedUnits now = .ok unit := by
    refine minter.encoder.elapsedUnits_eq_ok_iff.2 ⟨Nat.le_add_right _ _, ?_, inside⟩
    rw [unitAt, Nat.add_sub_cancel_left]
    exact Nat.mul_div_cancel unit minter.encoder.timeUnit_pos
  obtain ⟨after, _, minted, _⟩ := ready.at_once [⟨now, 1⟩] now unit [] rfl read free
  have none := (spent [⟨now, 1⟩] 1).1
  simp [take, mintedIds, minted, Outcome.id?] at none

/-- Once the last identifier has been minted, and only then, no call will ever mint again: each fails on its first reading.
Before that, whatever has failed so far, a call mints on a reading in a unit of the time field, or on the first reading in
a later unit if that one is used up. -/
theorem spent_iff_exhausted (encoder : Encoder) (readings : Readings) (calls : Nat)
    (unbroken : Outcome.starved ∉ ((ofEncoder encoder readings).take calls).1) :
    let run := (ofEncoder encoder readings).take calls
    (run.2.Spent ↔ encoder.Exhausted (mintedIds run.1)) ∧
      (¬ encoder.Exhausted (mintedIds run.1) → run.2.Ready) ∧
      ∀ now, encoder.refusal now = .clockBeforeEpoch ∨
        ∃ elapsed > encoder.layout.maxElapsed,
          encoder.refusal now = .timeExhausted elapsed encoder.layout.maxElapsed := by
  intro run
  have working : run.2.poisoned = false := working_take rfl unbroken
  have same : run.2.encoder = encoder := encoder_take (ofEncoder encoder readings) calls
  have new : (ofEncoder encoder readings).encoder.Series [] (ofEncoder encoder readings).position := .fresh
  have series : encoder.Series (mintedIds run.1) run.2.position := series_take new calls
  have fits : run.2.position.Fits run.2.encoder.layout := same.symm ▸ series.fits
  have ready : run.2.Ready := ready_of_working working fits
  rw [series.exhausted_iff, ← same]
  refine ⟨⟨?_, ?_⟩, fun _ => ready, run.2.encoder.refusal_eq⟩
  · intro spent
    by_contra unfinished
    exact ready.not_spent fits unfinished spent
  · intro last further count
    have stays : (run.2.onClock further).position = (run.2.onClock further).encoder.lastPosition := last
    obtain ⟨none, log⟩ := log_of_exhausted stays count
    exact ⟨none, log working⟩

theorem narrow_spent_iff_exhausted :
    let start := ofEncoder narrow [⟨1005 * Time.millisecond, 1⟩, ⟨0, 1⟩,
      ⟨Time.second + (2 ^ 61 - 1) * Time.millisecond, 2⟩]
    (start.take 4).1 =
        [.minted ⟨22⟩, .failed .clockBeforeEpoch, .minted ⟨9223372036854775806⟩, .minted ⟨9223372036854775807⟩] ∧
      (start.take 2).2.Ready ∧ ¬ (start.take 2).2.Spent ∧ (start.take 4).2.Spent ∧
      ((start.take 4).2.onClock [⟨1005 * Time.millisecond, 1⟩, ⟨0, 1⟩, ⟨2 ^ 62 * Time.millisecond, 1⟩]).log 3 =
        [⟨.failed (.timeExhausted (2 ^ 61) (2 ^ 61 - 1)), [1005 * Time.millisecond]⟩,
          ⟨.failed .clockBeforeEpoch, [0]⟩,
          ⟨.failed (.timeExhausted (2 ^ 62 - 1000) (2 ^ 61 - 1)), [2 ^ 62 * Time.millisecond]⟩] := by
  intro start
  have begun : (start.take 2).1 = [.minted ⟨22⟩, .failed .clockBeforeEpoch] := by decide +kernel
  have ended : (start.take 4).1 =
      [.minted ⟨22⟩, .failed .clockBeforeEpoch, .minted ⟨9223372036854775806⟩, .minted ⟨9223372036854775807⟩] := by
    decide +kernel
  obtain ⟨early, ready, _⟩ := spent_iff_exhausted narrow _ 2 (show Outcome.starved ∉ (start.take 2).1 by
    rw [begun]; decide)
  obtain ⟨late, _, _⟩ := spent_iff_exhausted narrow _ 4 (show Outcome.starved ∉ (start.take 4).1 by
    rw [ended]; decide)
  have left : ¬ narrow.Exhausted (mintedIds (start.take 2).1) := by
    rw [begun]
    decide +kernel
  have spent : (start.take 4).2.Spent := by
    refine late.2 ?_
    rw [show ((ofEncoder narrow _).take 4).1 = _ from ended]
    decide +kernel
  refine ⟨ended, ready left, fun spent => left (early.1 spent), spent, ?_⟩
  rw [(spent _ 3).2 (by decide)]
  decide +kernel

end Minter
end LeasedIds
