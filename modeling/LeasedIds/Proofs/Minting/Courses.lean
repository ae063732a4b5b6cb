import LeasedIds.Proofs.Minting.Threads

namespace LeasedIds

namespace Encoder

variable {encoder : Encoder} {position after : Position} {awaited? : Option Nat} {taken : List Nat} {outcome : Outcome}

inductive Beginning (encoder : Encoder) (position : Position) (now : Nat) : Progress → Prop where
  | unread {error : Error} (refused : encoder.elapsedUnits now = .error error) :
      Beginning encoder position now (.failed error)
  | later {unit : Nat} (read : encoder.elapsedUnits now = .ok unit) (later : position.lastElapsed < unit) :
      Beginning encoder position now (encoder.mint ⟨unit, 0⟩)
  | continued {unit : Nat} (read : encoder.elapsedUnits now = .ok unit) (reached : unit ≤ position.lastElapsed)
      (room : position.sequence < encoder.layout.maxSequence) :
      Beginning encoder position now (encoder.mint ⟨position.lastElapsed, position.sequence + 1⟩)
  | waiting {unit : Nat} (read : encoder.elapsedUnits now = .ok unit) (reached : unit ≤ position.lastElapsed)
      (full : position.sequence = encoder.layout.maxSequence)
      (room : position.lastElapsed < encoder.layout.maxElapsed) :
      Beginning encoder position now (.waiting (position.lastElapsed + 1))
  | exhausted {unit : Nat} (read : encoder.elapsedUnits now = .ok unit) (reached : unit ≤ position.lastElapsed)
      (full : position.sequence = encoder.layout.maxSequence)
      (last : position.lastElapsed = encoder.layout.maxElapsed) :
      Beginning encoder position now
        (.failed (.timeExhausted (position.lastElapsed + 1) encoder.layout.maxElapsed))

theorem start_beginning (fits : position.Fits encoder.layout) (now : Nat) :
    encoder.Beginning position now (encoder.start position now) := by
  have wraps := next_sequence_eq_zero_iff fits.sequence_le
  unfold start
  cases read : encoder.elapsedUnits now with
  | error error => exact .unread read
  | ok unit =>
      dsimp only
      by_cases later : position.lastElapsed < unit
      · rw [if_pos later]
        exact .later read later
      · have reached := Nat.le_of_not_lt later
        rw [if_neg later]
        by_cases room : position.sequence < encoder.layout.maxSequence
        · have kept : (position.sequence + 1) % 2 ^ encoder.layout.sequenceBits = position.sequence + 1 :=
            Layout.mod_two_pow_of_le room
          rw [if_neg fun zero => wraps.1 zero room, kept]
          exact .continued read reached room
        · have full : position.sequence = encoder.layout.maxSequence :=
            Nat.le_antisymm fits.sequence_le (Nat.le_of_not_lt room)
          rw [if_pos (wraps.2 room)]
          by_cases inside : position.lastElapsed + 1 ≤ encoder.layout.maxElapsed
          · rw [if_pos inside]
            exact .waiting read reached full inside
          · rw [if_neg inside]
            exact .exhausted read reached full (Nat.le_antisymm fits.elapsed_le (by omega))

/-- What the readings that a call takes come to, from its beginning or from within its wait for a unit, and the position
that it leaves. -/
inductive Course (encoder : Encoder) (position : Position) : Option Nat → List Nat → Outcome → Position → Prop where
  | minted {awaited? : Option Nat} {now : Nat} {id : Id} {after : Position}
      (ends : encoder.carryOn position awaited? now = .minted id after) :
      Course encoder position awaited? [now] (.minted id) after
  | failed {awaited? : Option Nat} {now : Nat} {error : Error}
      (ends : encoder.carryOn position awaited? now = .failed error) :
      Course encoder position awaited? [now] (.failed error) position
  | waiting {awaited? : Option Nat} {now next : Nat} {taken : List Nat} {outcome : Outcome} {after : Position}
      (waits : encoder.carryOn position awaited? now = .waiting next)
      (rest : Course encoder position (some next) taken outcome after) :
      Course encoder position awaited? (now :: taken) outcome after
  | starved {awaited? : Option Nat} : Course encoder position awaited? [] .starved position

theorem exists_course (encoder : Encoder) (position : Position) (awaited? : Option Nat) (readings : List Nat) :
    let ending := encoder.finish position awaited? readings
    ∃ taken, readings = taken ++ ending.readings ∧ (ending.outcome = .starved → ending.readings = []) ∧
      encoder.Course position awaited? taken ending.outcome ending.position := by
  induction readings generalizing awaited? with
  | nil =>
      rw [finish_nil]
      exact ⟨[], rfl, fun _ => rfl, .starved⟩
  | cons now readings hypothesis =>
      rw [finish_cons]
      cases progress : encoder.carryOn position awaited? now with
      | minted id after => exact ⟨[now], rfl, Outcome.noConfusion, .minted progress⟩
      | failed error => exact ⟨[now], rfl, Outcome.noConfusion, .failed progress⟩
      | waiting next =>
          obtain ⟨taken, split, exhausts, course⟩ := hypothesis (some next)
          exact ⟨now :: taken, congrArg (now :: ·) split, exhausts, .waiting progress course⟩

theorem Course.finish_append (course : encoder.Course position awaited? taken outcome after) {more : List Nat}
    (ended : outcome = .starved → more = []) :
    encoder.finish position awaited? (taken ++ more) = ⟨outcome, after, more⟩ := by
  induction course with
  | minted ends => rw [List.singleton_append, finish_cons, ends]
  | failed ends => rw [List.singleton_append, finish_cons, ends]
  | waiting waits rest hypothesis =>
      rw [List.cons_append, finish_cons, waits]
      exact hypothesis ended
  | starved => rw [ended rfl, List.append_nil, finish_nil]

theorem Course.position_eq (course : encoder.Course position awaited? taken outcome after)
    (unminted : ∀ id, outcome ≠ .minted id) : after = position := by
  induction course with
  | minted => exact absurd rfl (unminted _)
  | failed => rfl
  | waiting _ _ hypothesis => exact hypothesis unminted
  | starved => rfl

end Encoder

namespace Minter
open Encoder

def taken (minter : Minter) : List Nat :=
  minter.readings.toList.take (minter.readings.size - minter.next.2.readings.size)

structure Entry where
  outcome : Outcome
  taken : List Nat
deriving DecidableEq, Repr

def log (minter : Minter) : Nat → List Entry
  | 0 => []
  | calls + 1 => ⟨minter.next.1, minter.taken⟩ :: minter.next.2.log calls

def heard (minter : Minter) (calls : Nat) : List Nat := (minter.log calls).flatMap Entry.taken

variable {minter : Minter}

theorem taken_eq {taken : List Nat} (split : minter.readings.toList = taken ++ minter.next.2.readings.toList) :
    minter.taken = taken := by
  have length := congrArg List.length split
  rw [List.length_append, Readings.length_toList, Readings.length_toList] at length
  rw [Minter.taken, split]
  exact List.take_left' (by omega)

theorem course_next (working : minter.poisoned = false) :
    minter.readings.toList = minter.taken ++ minter.next.2.readings.toList ∧
      minter.encoder.Course minter.position none minter.taken minter.next.1 minter.next.2.position := by
  obtain ⟨outcome, _, position, readings, _⟩ := next_of_working working rfl
  obtain ⟨taken, split, _, course⟩ := exists_course minter.encoder minter.position none minter.readings.toList
  rw [finish, ← readings] at split
  rw [finish, ← outcome, ← position] at course
  rw [taken_eq split]
  exact ⟨split, course⟩

theorem readings_eq_nil_of_starved (starved : minter.next.1 = .starved) : minter.next.2.readings.toList = [] := by
  cases poisoned : minter.poisoned with
  | true =>
      rw [next_of_poisoned poisoned] at starved
      contradiction
  | false =>
      obtain ⟨outcome, _, _, readings, _⟩ := next_of_working poisoned rfl
      obtain ⟨_, _, exhausts, _⟩ := exists_course minter.encoder minter.position none minter.readings.toList
      rw [outcome] at starved
      rw [readings]
      exact exhausts starved

theorem readings_eq_taken_append (minter : Minter) :
    minter.readings.toList = minter.taken ++ minter.next.2.readings.toList := by
  cases poisoned : minter.poisoned with
  | false => exact (course_next poisoned).1
  | true =>
      have unread : minter.readings.toList = [] ++ minter.next.2.readings.toList := by
        rw [next_of_poisoned poisoned]
        rfl
      rw [taken_eq unread]
      exact unread

theorem encoder_next (minter : Minter) : minter.next.2.encoder = minter.encoder := by
  unfold next
  split <;> rfl

theorem encoder_take (minter : Minter) (calls : Nat) : (minter.take calls).2.encoder = minter.encoder := by
  induction calls generalizing minter with
  | zero => rfl
  | succ calls hypothesis => exact (hypothesis minter.next.2).trans minter.encoder_next

theorem map_outcome_log (minter : Minter) (calls : Nat) :
    (minter.log calls).map Entry.outcome = (minter.take calls).1 := by
  induction calls generalizing minter with
  | zero => rfl
  | succ calls hypothesis => exact congrArg (minter.next.1 :: ·) (hypothesis minter.next.2)

theorem heard_succ (minter : Minter) (calls : Nat) :
    minter.heard (calls + 1) = minter.heard calls ++ (minter.take calls).2.taken := by
  induction calls generalizing minter with
  | zero => simp [heard, log, take]
  | succ calls hypothesis =>
      have first (calls : Nat) : minter.heard (calls + 1) = minter.taken ++ minter.next.2.heard calls := rfl
      rw [first (calls + 1), hypothesis minter.next.2, first calls, List.append_assoc]
      rfl

theorem readings_eq_heard_append (minter : Minter) (calls : Nat) :
    minter.readings.toList = minter.heard calls ++ (minter.take calls).2.readings.toList := by
  induction calls with
  | zero => rfl
  | succ calls hypothesis =>
      rw [heard_succ, take_succ, List.append_assoc, ← readings_eq_taken_append]
      exact hypothesis

end Minter
end LeasedIds
