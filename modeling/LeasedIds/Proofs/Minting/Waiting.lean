import LeasedIds.Proofs.Minting.Accuracy
import Mathlib.Data.Stream.Init

namespace LeasedIds.Encoder

variable (encoder : Encoder)

/-- The unit is used up and the clock has not left it, but another unit is to come. -/
structure NeedsToWait (position : Position) (now : Nat) : Prop where
  full : position.sequence = encoder.layout.maxSequence
  room : position.lastElapsed < encoder.layout.maxElapsed
  counted : encoder.epoch ≤ now
  reached : encoder.unitAt now ≤ position.lastElapsed

def EndsWait (next now : Nat) : Prop :=
  now < encoder.epoch ∨ encoder.layout.maxElapsed < encoder.unitAt now ∨ next ≤ encoder.unitAt now

instance (next now : Nat) : Decidable (encoder.EndsWait next now) := by
  unfold EndsWait
  infer_instance

def wokenAt (position : Position) (next now : Nat) : Outcome × Position :=
  if now < encoder.epoch then (.failed .clockBeforeEpoch, position)
  else if encoder.layout.maxElapsed < encoder.unitAt now then
    (.failed (.timeExhausted (encoder.unitAt now) encoder.layout.maxElapsed), position)
  else (.minted (encoder.idAt ⟨next, 0⟩), ⟨next, 0⟩)

variable {encoder} {position after : Position} {next now : Nat} {outcome : Outcome} {between readings : List Nat}

theorem elapsedUnits_of_lt (early : now < encoder.epoch) : encoder.elapsedUnits now = .error .clockBeforeEpoch :=
  if_pos early

theorem elapsedUnits_of_past (counted : encoder.epoch ≤ now) (past : encoder.layout.maxElapsed < encoder.unitAt now) :
    encoder.elapsedUnits now = .error (.timeExhausted (encoder.unitAt now) encoder.layout.maxElapsed) := by
  rw [elapsedUnits, if_neg (Nat.not_lt.2 counted)]
  exact if_neg (Nat.not_le.2 past)

theorem NeedsToWait.fits (waits : encoder.NeedsToWait position now) : position.Fits encoder.layout :=
  ⟨Nat.le_of_lt waits.room, Nat.le_of_eq waits.full⟩

theorem NeedsToWait.elapsedUnits_eq (waits : encoder.NeedsToWait position now) :
    encoder.elapsedUnits now = .ok (encoder.unitAt now) :=
  encoder.elapsedUnits_eq_ok_iff.2
    ⟨waits.counted, rfl, Nat.le_trans waits.reached (Nat.le_of_lt waits.room)⟩

theorem start_eq_waiting_iff (fits : position.Fits encoder.layout) :
    encoder.start position now = .waiting next ↔ encoder.NeedsToWait position now ∧ next = position.lastElapsed + 1 := by
  have beginning := start_beginning fits now
  generalize encoder.start position now = progress at beginning ⊢
  have other {progress : Progress} (done : ∀ unit, progress ≠ .waiting unit)
      (free : ¬ encoder.NeedsToWait position now) :
      progress = .waiting next ↔ encoder.NeedsToWait position now ∧ next = position.lastElapsed + 1 :=
    ⟨fun waiting => absurd waiting (done next), fun waits => absurd waits.1 free⟩
  cases beginning with
  | unread refused =>
      refine other (fun _ => Progress.noConfusion) fun waits => ?_
      rw [waits.elapsedUnits_eq] at refused
      contradiction
  | later read later =>
      refine other (fun _ => Progress.noConfusion) fun waits => ?_
      rw [← unitAt_of_elapsedUnits read] at later
      exact absurd waits.reached (Nat.not_le.2 later)
  | continued read reached room =>
      exact other (fun _ => Progress.noConfusion) fun waits => absurd waits.full (Nat.ne_of_lt room)
  | exhausted read reached full last =>
      exact other (fun _ => Progress.noConfusion) fun waits => absurd last (Nat.ne_of_lt waits.room)
  | waiting read reached full room =>
      obtain ⟨counted, rfl, _⟩ := encoder.elapsedUnits_eq_ok_iff.1 read
      constructor
      · intro same
        exact ⟨⟨full, room, counted, reached⟩, (Progress.waiting.inj same).symm⟩
      · rintro ⟨_, rfl⟩
        rfl

theorem awaitUnit_cons_of_endsWait (ends : encoder.EndsWait next now) (position : Position) (readings : List Nat) :
    encoder.awaitUnit position next (now :: readings) =
      ⟨(encoder.wokenAt position next now).1, (encoder.wokenAt position next now).2, readings⟩ := by
  rw [awaitUnit, resume, wokenAt]
  by_cases early : now < encoder.epoch
  · rw [elapsedUnits_of_lt early, if_pos early]
  · have counted := Nat.le_of_not_lt early
    rw [if_neg early]
    by_cases past : encoder.layout.maxElapsed < encoder.unitAt now
    · rw [elapsedUnits_of_past counted past, if_pos past]
    · have reached : next ≤ encoder.unitAt now := (ends.resolve_left early).resolve_left past
      have read : encoder.elapsedUnits now = .ok (encoder.unitAt now) :=
        encoder.elapsedUnits_eq_ok_iff.2 ⟨counted, rfl, Nat.le_of_not_lt past⟩
      rw [read, if_neg past]
      dsimp only
      rw [if_pos reached]
      rfl

theorem awaitUnit_cons_of_not_endsWait (waits : ¬ encoder.EndsWait next now) (position : Position)
    (readings : List Nat) :
    encoder.awaitUnit position next (now :: readings) = encoder.awaitUnit position next readings := by
  obtain ⟨counted, inside, before⟩ : encoder.epoch ≤ now ∧ encoder.unitAt now ≤ encoder.layout.maxElapsed ∧
      encoder.unitAt now < next := by
    simpa [EndsWait] using waits
  have read : encoder.elapsedUnits now = .ok (encoder.unitAt now) :=
    encoder.elapsedUnits_eq_ok_iff.2 ⟨counted, rfl, inside⟩
  rw [awaitUnit, resume, read]
  dsimp only
  rw [if_neg (Nat.not_le.2 before)]

theorem awaitUnit_append (waits : ∀ reading ∈ between, ¬ encoder.EndsWait next reading) (position : Position)
    (readings : List Nat) :
    encoder.awaitUnit position next (between ++ readings) = encoder.awaitUnit position next readings := by
  induction between with
  | nil => rfl
  | cons now between hypothesis =>
      rw [List.cons_append, awaitUnit_cons_of_not_endsWait (waits now List.mem_cons_self)]
      exact hypothesis fun reading member => waits reading (List.mem_cons_of_mem _ member)

theorem NeedsToWait.nextId_eq (waits : encoder.NeedsToWait position now) (readings : List Nat) :
    encoder.nextId position (now :: readings) = encoder.awaitUnit position (position.lastElapsed + 1) readings := by
  rw [nextId, (start_eq_waiting_iff waits.fits).2 ⟨waits, rfl⟩]

theorem NeedsToWait.nextId_append (waits : encoder.NeedsToWait position now)
    (idle : ∀ reading ∈ between, ¬ encoder.EndsWait (position.lastElapsed + 1) reading) {last : Nat}
    (ends : encoder.EndsWait (position.lastElapsed + 1) last) (readings : List Nat) :
    encoder.nextId position (now :: (between ++ last :: readings)) =
      ⟨(encoder.wokenAt position (position.lastElapsed + 1) last).1,
        (encoder.wokenAt position (position.lastElapsed + 1) last).2, readings⟩ := by
  rw [waits.nextId_eq, awaitUnit_append idle, awaitUnit_cons_of_endsWait ends]

theorem exists_nextId_cons (fits : position.Fits encoder.layout) (free : ¬ encoder.NeedsToWait position now) :
    ∃ outcome after, outcome ≠ .starved ∧
      ∀ readings, encoder.nextId position (now :: readings) = ⟨outcome, after, readings⟩ := by
  cases progress : encoder.start position now with
  | minted id after => exact ⟨.minted id, after, Outcome.noConfusion, fun _ => by rw [nextId, progress]⟩
  | failed error => exact ⟨.failed error, position, Outcome.noConfusion, fun _ => by rw [nextId, progress]⟩
  | waiting next => exact absurd ((start_eq_waiting_iff fits).1 progress).1 free

structure ReturnsAfter (encoder : Encoder) (position : Position) (clock : Stream' Nat) (count : Nat) (outcome : Outcome)
    (after : Position) : Prop where
  ending : encoder.nextId position (clock.take count) = ⟨outcome, after, []⟩
  returned : outcome ≠ .starved

def Hangs (encoder : Encoder) (position : Position) (clock : Stream' Nat) : Prop :=
  ∀ count, (encoder.nextId position (clock.take count)).outcome = .starved

variable {clock : Stream' Nat} {count count' : Nat} {outcome' : Outcome} {after' : Position}

theorem ReturnsAfter.nextId_append (returns : encoder.ReturnsAfter position clock count outcome after)
    (readings : List Nat) :
    encoder.nextId position (clock.take count ++ readings) = ⟨outcome, after, readings⟩ := by
  obtain ⟨taken, split, _, course⟩ := exists_course encoder position none (clock.take count)
  rw [finish, returns.ending, List.append_nil] at split
  rw [finish, returns.ending, ← split] at course
  exact course.finish_append fun starved => absurd starved returns.returned

theorem take_append_take_drop (clock : Stream' Nat) (count more : Nat) :
    clock.take count ++ (clock.drop count).take more = clock.take (count + more) := by
  induction count generalizing clock with
  | zero => rw [Nat.zero_add]; rfl
  | succ count hypothesis =>
      rw [Nat.succ_add, Stream'.take_succ, Stream'.take_succ, List.cons_append]
      exact congrArg (clock.head :: ·) (hypothesis clock.tail)

theorem ReturnsAfter.unique (returns : encoder.ReturnsAfter position clock count outcome after)
    (returns' : encoder.ReturnsAfter position clock count' outcome' after') :
    count' = count ∧ outcome' = outcome ∧ after' = after := by
  have earlier {count count' : Nat} {outcome outcome' : Outcome} {after after' : Position}
      (returns : encoder.ReturnsAfter position clock count outcome after)
      (returns' : encoder.ReturnsAfter position clock count' outcome' after') : count' ≤ count := by
    apply Nat.le_of_not_lt
    intro less
    have whole := returns.nextId_append ((clock.drop count).take (count' - count))
    rw [take_append_take_drop, Nat.add_sub_cancel' (Nat.le_of_lt less), returns'.ending] at whole
    have rest := congrArg List.length (congrArg Ending.readings whole)
    rw [Stream'.length_take, List.length_nil] at rest
    omega
  obtain rfl : count' = count := Nat.le_antisymm (earlier returns returns') (earlier returns' returns)
  have same := returns'.ending.symm.trans returns.ending
  exact ⟨rfl, congrArg Ending.outcome same, congrArg Ending.position same⟩

theorem wokenAt_ne_starved (encoder : Encoder) (position : Position) (next now : Nat) :
    (encoder.wokenAt position next now).1 ≠ .starved := by
  unfold wokenAt
  split
  · exact Outcome.noConfusion
  · split <;> exact Outcome.noConfusion

theorem mem_take_tail {reading : Nat} (member : reading ∈ clock.tail.take count) :
    ∃ index < count, clock.get (index + 1) = reading := by
  obtain ⟨index, inside, rfl⟩ := List.mem_iff_getElem.1 member
  rw [Stream'.length_take] at inside
  have found := Stream'.getElem?_take inside (s := clock.tail)
  rw [List.getElem?_eq_some_iff] at found
  exact ⟨index, inside, found.2.symm⟩

theorem NeedsToWait.returnsAfter (waits : encoder.NeedsToWait position clock.head)
    (first : ∀ earlier < count, ¬ encoder.EndsWait (position.lastElapsed + 1) (clock.get (earlier + 1)))
    (ends : encoder.EndsWait (position.lastElapsed + 1) (clock.get (count + 1))) :
    encoder.ReturnsAfter position clock (count + 2)
      (encoder.wokenAt position (position.lastElapsed + 1) (clock.get (count + 1))).1
      (encoder.wokenAt position (position.lastElapsed + 1) (clock.get (count + 1))).2 := by
  have idle : ∀ reading ∈ clock.tail.take count, ¬ encoder.EndsWait (position.lastElapsed + 1) reading := by
    intro reading member
    obtain ⟨index, before, rfl⟩ := mem_take_tail member
    exact first index before
  refine ⟨?_, encoder.wokenAt_ne_starved position _ _⟩
  rw [Stream'.take_succ, Stream'.take_succ', Stream'.get_tail]
  exact waits.nextId_append idle ends []

theorem NeedsToWait.hangs (waits : encoder.NeedsToWait position clock.head)
    (idle : ∀ index, ¬ encoder.EndsWait (position.lastElapsed + 1) (clock.get (index + 1))) :
    encoder.Hangs position clock := by
  intro count
  cases count with
  | zero => rfl
  | succ count =>
      have waiting : ∀ reading ∈ clock.tail.take count, ¬ encoder.EndsWait (position.lastElapsed + 1) reading := by
        intro reading member
        obtain ⟨index, _, rfl⟩ := mem_take_tail member
        exact idle index
      have ended := awaitUnit_append waiting position []
      rw [List.append_nil] at ended
      rw [Stream'.take_succ, waits.nextId_eq, ended, awaitUnit]

/-- A call that has to wait stops at the first further reading that is before the epoch, past the last unit, or in the next
unit or a later one. It has then taken the readings up to that one, and returns what that reading shows: a failure, or the
first identifier of the next unit, however far the clock has gone. If there is no such reading, the call does not return. A
call that does not have to wait takes one reading. -/
theorem wait_ends_at_first (fits : position.Fits encoder.layout) (clock : Stream' Nat) :
    let next := position.lastElapsed + 1
    (encoder.NeedsToWait position clock.head →
      (∀ index, encoder.EndsWait next (clock.get (index + 1)) →
        (∀ earlier < index, ¬ encoder.EndsWait next (clock.get (earlier + 1))) →
          ∀ count outcome after, encoder.ReturnsAfter position clock count outcome after ↔
            count = index + 2 ∧ (outcome, after) = encoder.wokenAt position next (clock.get (index + 1))) ∧
      ((∀ index, ¬ encoder.EndsWait next (clock.get (index + 1))) → encoder.Hangs position clock) ∧
      encoder.layout.elapsed (encoder.idAt ⟨next, 0⟩) = next ∧
      encoder.layout.sequence (encoder.idAt ⟨next, 0⟩) = 0) ∧
    (¬ encoder.NeedsToWait position clock.head →
      ∃ outcome after, encoder.ReturnsAfter position clock 1 outcome after ∧
        ∀ count outcome' after', encoder.ReturnsAfter position clock count outcome' after' →
          count = 1 ∧ outcome' = outcome ∧ after' = after) := by
  intro next
  refine ⟨fun waits => ⟨?_, waits.hangs, ?_, ?_⟩, fun free => ?_⟩
  · intro index ends first count outcome after
    have returns := waits.returnsAfter first ends
    constructor
    · intro returns'
      obtain ⟨same, rfl, rfl⟩ := returns.unique returns'
      exact ⟨same, rfl⟩
    · rintro ⟨rfl, woken⟩
      obtain ⟨rfl, rfl⟩ := Prod.mk.inj woken
      exact returns
  · exact elapsed_idAt ⟨waits.room, Nat.zero_le _⟩
  · exact sequence_idAt ⟨waits.room, Nat.zero_le _⟩
  · obtain ⟨outcome, after, returned, one⟩ := exists_nextId_cons fits free
    have returns : encoder.ReturnsAfter position clock 1 outcome after := ⟨one [], returned⟩
    exact ⟨outcome, after, returns, fun count outcome' after' => returns.unique⟩

def leapingClock : Stream' Nat :=
  [1005 * Time.millisecond, 1005 * Time.millisecond, 1003 * Time.millisecond, 1009 * Time.millisecond] ++ₛ
    Stream'.const 0

theorem narrow_wait_ends_at_first :
    Position.Fits narrow.layout ⟨5, 1⟩ ∧ narrow.NeedsToWait ⟨5, 1⟩ leapingClock.head ∧
      narrow.ReturnsAfter ⟨5, 1⟩ leapingClock 4 (.minted ⟨26⟩) ⟨6, 0⟩ ∧
      narrow.Hangs ⟨5, 1⟩ (Stream'.const (1005 * Time.millisecond)) ∧
      ∃ outcome after, narrow.ReturnsAfter ⟨5, 1⟩ (Stream'.const (1006 * Time.millisecond)) 1 outcome after := by
  have fits : Position.Fits narrow.layout ⟨5, 1⟩ := ⟨by decide, by decide⟩
  have waits : narrow.NeedsToWait ⟨5, 1⟩ (1005 * Time.millisecond) := ⟨by decide, by decide, by decide, by decide⟩
  have free : ¬ narrow.NeedsToWait ⟨5, 1⟩ (1006 * Time.millisecond) := fun waits => absurd waits.reached (by decide)
  obtain ⟨ends, _⟩ := (wait_ends_at_first fits leapingClock).1 waits
  obtain ⟨_, hangs, _⟩ := (wait_ends_at_first fits (Stream'.const (1005 * Time.millisecond))).1 waits
  obtain ⟨outcome, after, returns, _⟩ :=
    (wait_ends_at_first fits (Stream'.const (1006 * Time.millisecond))).2 free
  refine ⟨fits, waits, ?_, hangs fun _ => ?_, outcome, after, returns⟩
  · exact (ends 2 (by decide) (by decide) 4 (.minted ⟨26⟩) ⟨6, 0⟩).2 ⟨rfl, by decide⟩
  · rw [Stream'.get_const]
    decide

end LeasedIds.Encoder
