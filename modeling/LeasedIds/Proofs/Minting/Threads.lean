import LeasedIds.Proofs.Minting.Runs
import Mathlib.Tactic.ByContra

namespace LeasedIds

namespace Encoder

variable (encoder : Encoder)

-- A call that has read nothing yet waits for no unit.
def carryOn (position : Position) : Option Nat → Nat → Progress
  | none, now => encoder.start position now
  | some next, now => encoder.resume next now

def finish (position : Position) : Option Nat → List Nat → Ending (List Nat)
  | none, readings => encoder.nextId position readings
  | some next, readings => encoder.awaitUnit position next readings

theorem finish_nil (position : Position) (awaited? : Option Nat) :
    encoder.finish position awaited? [] = ⟨.starved, position, []⟩ := by
  cases awaited? <;> rfl

theorem finish_cons (position : Position) (awaited? : Option Nat) (now : Nat) (readings : List Nat) :
    encoder.finish position awaited? (now :: readings) =
      match encoder.carryOn position awaited? now with
      | .minted id minted => ⟨.minted id, minted, readings⟩
      | .failed error => ⟨.failed error, position, readings⟩
      | .waiting next => encoder.finish position (some next) readings := by
  cases awaited? with
  | none => rfl
  | some next =>
      rw [finish, awaitUnit, carryOn]
      cases progress : encoder.resume next now with
      | minted id minted => rfl
      | failed error => rfl
      | waiting unit =>
          obtain rfl := resume_eq_waiting progress
          rfl

end Encoder

namespace Minter
open Encoder

theorem next_of_working {minter : Minter} (working : minter.poisoned = false) {ending : Ending (List Nat)}
    (call : minter.encoder.nextId minter.position minter.readings.toList = ending) :
    minter.next.1 = ending.outcome ∧ minter.next.2.encoder = minter.encoder ∧
      minter.next.2.position = ending.position ∧ minter.next.2.readings.toList = ending.readings ∧
      minter.next.2.poisoned = decide (ending.outcome = .starved) := by
  rw [nextId_toList] at call
  subst call
  rw [next, if_neg (by simp [working])]
  exact ⟨rfl, rfl, rfl, rfl, rfl⟩

theorem next_of_poisoned {minter : Minter} (poisoned : minter.poisoned = true) :
    minter.next = (.failed .encoderPoisoned, minter) := by
  rw [next, if_pos poisoned]

theorem length_take (minter : Minter) (calls : Nat) : (minter.take calls).1.length = calls := by
  induction calls generalizing minter with
  | zero => rfl
  | succ calls hypothesis => simp [take, hypothesis]

theorem take_succ (minter : Minter) (calls : Nat) :
    minter.take (calls + 1) =
      ((minter.take calls).1 ++ [(minter.take calls).2.next.1], (minter.take calls).2.next.2) := by
  induction calls generalizing minter with
  | zero => rfl
  | succ calls hypothesis =>
      have first (calls : Nat) : minter.take (calls + 1) =
          (minter.next.1 :: (minter.next.2.take calls).1, (minter.next.2.take calls).2) := rfl
      rw [first (calls + 1), hypothesis minter.next.2, first calls]
      rfl

end Minter

inductive CallPhase where
  | idle
  | called
  | reading (awaited? : Option Nat)
  | committing (id : Id) (position : Encoder.Position)
  | leaving (outcome : Encoder.Outcome)
deriving DecidableEq, Repr

namespace CallPhase

def isInside : CallPhase → Bool
  | .idle | .called => false
  | .reading _ | .committing _ _ | .leaving _ => true

def ofProgress : Encoder.Progress → CallPhase
  | .minted id position => .committing id position
  | .failed error => .leaving (.failed error)
  | .waiting next => .reading (some next)

def outcome? : CallPhase → Option Encoder.Outcome
  | .leaving outcome => some outcome
  | .idle | .called | .reading _ | .committing _ _ => none

end CallPhase

structure Thread where
  phase : CallPhase := .idle
  outcomes : List Encoder.Outcome := []
deriving DecidableEq, Repr

/-- Threads with their encoder. A reading that is not there breaks the call down: its lock is given back poisoned. -/
structure Crew where
  encoder : Encoder
  position : Encoder.Position
  poisoned : Bool := false
  readings : List Nat
  reads : Nat := 0
  holder? : Option Nat := none
  threads : List Thread
deriving DecidableEq

namespace Crew
open Encoder

def start (encoder : Encoder) (readings : List Nat) (count : Nat) : Crew where
  encoder
  position := encoder.initial
  readings
  threads := List.replicate count {}

def histories (crew : Crew) : List (List Outcome) := crew.threads.map Thread.outcomes

def outcomes (crew : Crew) : List Outcome := crew.histories.flatten

def put (crew : Crew) (index : Nat) (thread : Thread) : Crew :=
  { crew with threads := crew.threads.set index thread }

def act (crew : Crew) (index : Nat) (thread : Thread) : Crew :=
  match thread.phase with
  | .idle => crew.put index { thread with phase := .called }
  | .called =>
    -- The thread waits until the lock is free.
    if crew.holder?.isSome then crew
    else
      let phase := if crew.poisoned then .leaving (.failed .encoderPoisoned) else .reading none
      { crew with holder? := some index }.put index { thread with phase }
  | .reading awaited? =>
    match crew.readings with
    | [] => { crew with reads := crew.reads + 1 }.put index { thread with phase := .leaving .starved }
    | now :: readings =>
      let phase := .ofProgress (crew.encoder.carryOn crew.position awaited? now)
      { crew with readings, reads := crew.reads + 1 }.put index { thread with phase }
  | .committing id position => { crew with position }.put index { thread with phase := .leaving (.minted id) }
  | .leaving outcome =>
    { crew with holder? := none, poisoned := crew.poisoned || decide (outcome = Outcome.starved) }.put index
      { phase := .idle, outcomes := thread.outcomes ++ [outcome] }

def step (crew : Crew) (index : Nat) : Crew := (crew.threads[index]?.map (crew.act index)).getD crew

def run (crew : Crew) (schedule : List Nat) : Crew := schedule.foldl step crew

def returned? (crew : Crew) (index : Nat) : Option Outcome := crew.threads[index]?.bind (·.phase.outcome?)

def returns (crew : Crew) : List Nat → List Outcome
  | [] => []
  | index :: schedule => (crew.returned? index).toList ++ (crew.step index).returns schedule

variable {crew : Crew} {minter : Minter} {index other : Nat} {thread changed found : Thread}

theorem step_eq (present : crew.threads[index]? = some thread) : crew.step index = crew.act index thread := by
  rw [step, present]
  rfl

theorem step_of_absent (absent : crew.threads[index]? = none) : crew.step index = crew := by
  rw [step, absent]
  rfl

theorem getElem?_set_cases (present : (crew.threads.set index changed)[other]? = some found) :
    other = index ∧ found = changed ∨ other ≠ index ∧ crew.threads[other]? = some found := by
  by_cases same : index = other
  · subst same
    obtain ⟨inside, rfl⟩ := List.getElem?_eq_some_iff.1 present
    exact .inl ⟨rfl, List.getElem_set_self inside⟩
  · rw [List.getElem?_set_ne same] at present
    exact .inr ⟨Ne.symm same, present⟩

structure Rests (crew : Crew) (minter : Minter) : Prop where
  position_eq : crew.position = minter.position
  readings_eq : crew.readings = minter.readings.toList
  poisoned_eq : crew.poisoned = minter.poisoned

def Performs (crew : Crew) (minter : Minter) : CallPhase → Prop
  | .idle | .called => False
  | .reading awaited? => minter.poisoned = false ∧ crew.poisoned = false ∧ crew.position = minter.position ∧
    minter.encoder.nextId minter.position minter.readings.toList =
      crew.encoder.finish crew.position awaited? crew.readings
  | .committing id position => minter.poisoned = false ∧ crew.poisoned = false ∧
    minter.encoder.nextId minter.position minter.readings.toList = ⟨.minted id, position, crew.readings⟩
  | .leaving outcome => minter.next.1 = outcome ∧ minter.next.2.encoder = minter.encoder ∧
    minter.next.2.position = crew.position ∧ minter.next.2.readings.toList = crew.readings ∧
    minter.next.2.poisoned = (crew.poisoned || decide (outcome = Outcome.starved))

/-- The crew has come as far as the calls in a row, and perhaps into the next one. -/
structure Follows (crew : Crew) (minter : Minter) : Prop where
  encoder_eq : crew.encoder = minter.encoder
  outside : ∀ index thread, crew.threads[index]? = some thread → crew.holder? ≠ some index →
    thread.phase.isInside = false
  resting : crew.holder? = none → crew.Rests minter
  performing : ∀ index thread, crew.threads[index]? = some thread → crew.holder? = some index →
    crew.Performs minter thread.phase

theorem Follows.start (encoder : Encoder) (readings : Readings) (count : Nat) :
    (start encoder readings.toList count).Follows (.ofEncoder encoder readings) := by
  refine ⟨rfl, ?_, fun _ => ⟨rfl, rfl, rfl⟩, fun _ _ _ impossible => by contradiction⟩
  intro index thread present _
  obtain ⟨_, rfl⟩ := List.mem_replicate.1 (List.mem_of_getElem? present)
  rfl

theorem Follows.inside (follows : crew.Follows minter) (present : crew.threads[index]? = some thread) {phase : CallPhase}
    (reached : thread.phase = phase) (inside : phase.isInside = true) :
    crew.holder? = some index ∧ crew.Performs minter phase := by
  subst reached
  have held : crew.holder? = some index := by
    by_contra other
    rw [follows.outside index thread present other] at inside
    contradiction
  exact ⟨held, follows.performing index thread present held⟩

theorem Follows.outside_of_ne (follows : crew.Follows minter) (held : crew.holder? = some index)
    (present : crew.threads[other]? = some found) (different : other ≠ index) : found.phase.isInside = false := by
  refine follows.outside other found present ?_
  rw [held]
  exact fun same => different (Option.some.inj same).symm

theorem Follows.hold (follows : crew.Follows minter) (free : crew.holder? = none ∨ crew.holder? = some index)
    {after : Crew} (encoder_eq : after.encoder = crew.encoder)
    (threads_eq : after.threads = crew.threads.set index changed) (held : after.holder? = some index)
    (performs : after.Performs minter changed.phase) : after.Follows minter := by
  refine ⟨encoder_eq.trans follows.encoder_eq, ?_, ?_, ?_⟩
  · intro other found present unheld
    rw [held] at unheld
    rw [threads_eq] at present
    obtain ⟨rfl, _⟩ | ⟨different, present⟩ := getElem?_set_cases present
    · exact absurd rfl unheld
    · rcases free with free | held
      · exact follows.outside other found present (by simp [free])
      · exact follows.outside_of_ne held present different
  · rw [held]
    intro impossible
    contradiction
  · intro other found present holds
    obtain rfl : index = other := Option.some.inj (held.symm.trans holds)
    rw [threads_eq] at present
    obtain ⟨_, rfl⟩ | ⟨different, _⟩ := getElem?_set_cases present
    · exact performs
    · exact absurd rfl different

theorem Follows.call (follows : crew.Follows minter) (present : crew.threads[index]? = some thread)
    (idle : thread.phase = .idle) : (crew.put index { thread with phase := .called }).Follows minter := by
  -- Nobody has the lock without being inside a call.
  have unheld : crew.holder? ≠ some index := by
    intro held
    have performs := follows.performing index thread present held
    rw [idle] at performs
    exact performs
  refine ⟨follows.encoder_eq, ?_, ?_, ?_⟩
  · intro other found present notHolder
    obtain ⟨_, rfl⟩ | ⟨_, present⟩ := getElem?_set_cases present
    · rfl
    · exact follows.outside other found present notHolder
  · intro free
    obtain ⟨position_eq, readings_eq, poisoned_eq⟩ := follows.resting free
    exact ⟨position_eq, readings_eq, poisoned_eq⟩
  · intro other found present held
    obtain ⟨rfl, _⟩ | ⟨_, present⟩ := getElem?_set_cases present
    · exact absurd held unheld
    · exact follows.performing other found present held

theorem performs_leaving {outcome : Outcome} (working : minter.poisoned = false) (unpoisoned : crew.poisoned = false)
    (call : minter.encoder.nextId minter.position minter.readings.toList = ⟨outcome, crew.position, crew.readings⟩) :
    crew.Performs minter (.leaving outcome) := by
  obtain ⟨returned, encoder_eq, position_eq, readings_eq, poisoned⟩ := Minter.next_of_working working call
  exact ⟨returned, encoder_eq, position_eq, readings_eq, by simp [poisoned, unpoisoned]⟩

theorem Follows.lock (follows : crew.Follows minter) (free : crew.holder? = none) :
    let phase := if crew.poisoned then .leaving (.failed .encoderPoisoned) else .reading none
    ({ crew with holder? := some index }.put index { thread with phase }).Follows minter := by
  refine follows.hold (.inl free) rfl rfl rfl ?_
  obtain ⟨position_eq, readings_eq, poisoned_eq⟩ := follows.resting free
  cases poisoned : crew.poisoned with
  | true =>
      have refused := Minter.next_of_poisoned (poisoned_eq.symm.trans poisoned)
      simp [Performs, refused, put, position_eq, readings_eq, ← poisoned_eq, poisoned]
  | false =>
      have start : minter.encoder.nextId minter.position minter.readings.toList =
          crew.encoder.finish crew.position none crew.readings := by
        rw [← position_eq, ← readings_eq, ← follows.encoder_eq]
        rfl
      exact ⟨poisoned_eq.symm.trans poisoned, rfl, position_eq, start⟩

theorem Follows.read (follows : crew.Follows minter) (present : crew.threads[index]? = some thread)
    {awaited? : Option Nat} (reading : thread.phase = .reading awaited?) {now : Nat} {readings : List Nat}
    (left : crew.readings = now :: readings) :
    let phase := .ofProgress (crew.encoder.carryOn crew.position awaited? now)
    ({ crew with readings, reads := crew.reads + 1 }.put index { thread with phase }).Follows minter := by
  obtain ⟨held, working, unpoisoned, unmoved, call⟩ := follows.inside present reading rfl
  rw [left, finish_cons] at call
  refine follows.hold (.inr held) rfl rfl held ?_
  cases progress : crew.encoder.carryOn crew.position awaited? now with
  | minted id position =>
      rw [progress] at call
      exact ⟨working, unpoisoned, call⟩
  | failed error =>
      rw [progress] at call
      exact performs_leaving working unpoisoned call
  | waiting next =>
      rw [progress] at call
      exact ⟨working, unpoisoned, unmoved, call⟩

theorem Follows.breakDown (follows : crew.Follows minter) (present : crew.threads[index]? = some thread)
    {awaited? : Option Nat} (reading : thread.phase = .reading awaited?) (left : crew.readings = []) :
    ({ crew with reads := crew.reads + 1 }.put index { thread with phase := .leaving .starved }).Follows minter := by
  obtain ⟨held, working, unpoisoned, _, call⟩ := follows.inside present reading rfl
  rw [left, finish_nil, ← left] at call
  exact follows.hold (.inr held) rfl rfl held (performs_leaving working unpoisoned call)

theorem Follows.commit (follows : crew.Follows minter) (present : crew.threads[index]? = some thread) {id : Id}
    {position : Position} (committing : thread.phase = .committing id position) :
    ({ crew with position }.put index { thread with phase := .leaving (.minted id) }).Follows minter := by
  obtain ⟨held, working, unpoisoned, call⟩ := follows.inside present committing rfl
  exact follows.hold (.inr held) rfl rfl held (performs_leaving working unpoisoned call)

theorem Follows.unlock (follows : crew.Follows minter) (present : crew.threads[index]? = some thread)
    {outcome : Outcome} (leaving : thread.phase = .leaving outcome) :
    minter.next.1 = outcome ∧ (crew.act index thread).Follows minter.next.2 := by
  obtain ⟨held, returned, encoder_eq, position_eq, readings_eq, poisoned_eq⟩ := follows.inside present leaving rfl
  rw [act, leaving]
  refine ⟨returned, follows.encoder_eq.trans encoder_eq.symm, ?_, ?_, fun _ _ _ impossible => by contradiction⟩
  · intro other found present _
    obtain ⟨_, rfl⟩ | ⟨different, present⟩ := getElem?_set_cases present
    · rfl
    · exact follows.outside_of_ne held present different
  · intro _
    exact ⟨position_eq.symm, readings_eq.symm, poisoned_eq.symm⟩

theorem getElem?_histories_iff {history : List Outcome} :
    crew.histories[index]? = some history ↔ ∃ thread, crew.threads[index]? = some thread ∧ thread.outcomes = history := by
  rw [histories, List.getElem?_map, Option.map_eq_some_iff]

theorem getElem?_histories (present : crew.threads[index]? = some thread) :
    crew.histories[index]? = some thread.outcomes := getElem?_histories_iff.2 ⟨thread, present, rfl⟩

theorem map_outcomes_set (present : crew.threads[index]? = some thread) (phase : CallPhase) :
    (crew.threads.set index { thread with phase }).map Thread.outcomes = crew.histories := by
  obtain ⟨inside, same⟩ := List.getElem?_eq_some_iff.1 (getElem?_histories present)
  rw [List.map_set]
  change crew.histories.set index thread.outcomes = crew.histories
  rw [← same]
  exact List.set_getElem_self inside

theorem Follows.step (follows : crew.Follows minter) (index : Nat) :
    crew.returned? index = none ∧ (crew.step index).Follows minter ∧ (crew.step index).histories = crew.histories ∨
      crew.returned? index = some minter.next.1 ∧ (crew.step index).Follows minter.next.2 ∧
        ∃ history, crew.histories[index]? = some history ∧
          (crew.step index).histories = crew.histories.set index (history ++ [minter.next.1]) := by
  cases present : crew.threads[index]? with
  | none =>
      rw [step_of_absent present]
      exact .inl ⟨by rw [returned?, present]; rfl, follows, rfl⟩
  | some thread =>
      have returned : crew.returned? index = thread.phase.outcome? := by
        rw [returned?, present]
        rfl
      rw [step_eq present, returned]
      cases phase : thread.phase with
      | idle =>
          rw [act, phase]
          exact .inl ⟨rfl, follows.call present phase, map_outcomes_set present _⟩
      | called =>
          rw [act, phase]
          cases holder : crew.holder? with
          | some _ => exact .inl ⟨rfl, follows, rfl⟩
          | none => exact .inl ⟨rfl, follows.lock holder, map_outcomes_set present _⟩
      | reading awaited? =>
          rw [act, phase]
          dsimp only
          split
          next left => exact .inl ⟨rfl, follows.breakDown present phase left, map_outcomes_set present _⟩
          next now readings left => exact .inl ⟨rfl, follows.read present phase left, map_outcomes_set present _⟩
      | committing id position =>
          rw [act, phase]
          exact .inl ⟨rfl, follows.commit present phase, map_outcomes_set present _⟩
      | leaving outcome =>
          -- Only here does a call return, and it is the next one in the row.
          obtain ⟨next, later⟩ := follows.unlock present phase
          refine .inr ⟨congrArg some next.symm, later, thread.outcomes, getElem?_histories present, ?_⟩
          rw [act, phase, next]
          exact List.map_set

theorem Follows.returns_eq (follows : crew.Follows minter) (schedule : List Nat) :
    crew.returns schedule = (minter.take (crew.returns schedule).length).1 := by
  induction schedule generalizing crew minter with
  | nil => rfl
  | cons index schedule hypothesis =>
      rw [returns]
      rcases follows.step index with ⟨none, further, _⟩ | ⟨some, ended, _⟩
      · rw [none]
        exact hypothesis further
      · rw [some]
        exact congrArg (minter.next.1 :: ·) (hypothesis ended)

structure Matches (crew : Crew) (row : List Outcome × Minter) : Prop where
  follows : crew.Follows row.2
  perm : crew.outcomes.Perm row.1
  sublist : ∀ history ∈ crew.histories, history.Sublist row.1

theorem flatten_set_perm {histories : List (List Outcome)} {history : List Outcome}
    (present : histories[index]? = some history) (outcome : Outcome) :
    (histories.set index (history ++ [outcome])).flatten.Perm (histories.flatten ++ [outcome]) := by
  obtain ⟨inside, rfl⟩ := List.getElem?_eq_some_iff.1 present
  obtain ⟨before, after, split, _, replaced⟩ := @List.exists_of_set _ index (histories[index] ++ [outcome]) histories inside
  rw [replaced]
  conv_rhs => rw [split]
  simp only [List.flatten_append, List.flatten_cons, List.append_assoc]
  have last : ([outcome] ++ after.flatten).Perm (after.flatten ++ [outcome]) := List.perm_append_comm
  exact (last.append_left _).append_left _

theorem Matches.step {start : Minter} {calls : Nat} (matched : crew.Matches (start.take calls)) (index : Nat) :
    (crew.step index).Matches (start.take calls) ∨ (crew.step index).Matches (start.take (calls + 1)) := by
  rcases matched.follows.step index with ⟨_, follows, same⟩ | ⟨_, follows, history, present, longer⟩
  · left
    refine ⟨follows, ?_, ?_⟩
    · rw [outcomes, same]
      exact matched.perm
    · rw [same]
      exact matched.sublist
  · right
    rw [Minter.take_succ]
    refine ⟨follows, ?_, ?_⟩
    · rw [outcomes, longer]
      exact (flatten_set_perm present _).trans (matched.perm.append_right _)
    · rw [longer]
      intro changed member
      rcases List.mem_or_eq_of_mem_set member with before | rfl
      · exact (matched.sublist changed before).trans (List.sublist_append_left _ _)
      · exact (matched.sublist history (List.mem_of_getElem? present)).append_right _

theorem matches_start (encoder : Encoder) (readings : Readings) (count : Nat) :
    (start encoder readings.toList count).Matches ((Minter.ofEncoder encoder readings).take 0) := by
  refine ⟨.start encoder readings count, ?_, ?_⟩
  · simp [start, outcomes, histories, Minter.take]
  · simp [start, histories, Minter.take]

theorem matches_run (encoder : Encoder) (readings : Readings) (count : Nat) (schedule : List Nat) :
    ∃ calls, ((start encoder readings.toList count).run schedule).Matches
      ((Minter.ofEncoder encoder readings).take calls) := by
  -- A later step adds at most one call at the end of the row, so the induction goes from the end of the schedule.
  induction schedule using List.reverseRecOn with
  | nil => exact ⟨0, matches_start encoder readings count⟩
  | append_singleton schedule index hypothesis =>
      obtain ⟨calls, matched⟩ := hypothesis
      rw [run, List.foldl_append]
      rcases matched.step index with same | longer
      · exact ⟨calls, same⟩
      · exact ⟨calls + 1, longer⟩

end Crew
end LeasedIds
