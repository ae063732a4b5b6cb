import LeasedIds.Encoder
import LeasedIds.Encoder.Readings

/-!
# Minting

A call takes one clock reading, and more of them only while it waits for the unit after an exhausted one. `start`
and `resume` say what one reading does; `nextId` runs a call over a list of readings; `nextIdOn` runs it over runs of
readings, with the same end (`nextId_toList`); `nextIdAt` runs it against a clock that stands still except while the call
sleeps.
-/

namespace LeasedIds.Encoder

structure Position where
  lastElapsed : Nat
  sequence : Nat
deriving DecidableEq, Repr

inductive Progress where
  | minted (id : Id) (position : Position)
  | failed (error : Error)
  | waiting (next : Nat)
deriving DecidableEq, Repr

variable (encoder : Encoder)

/-- Unit 0 with its sequence used up, so that the first identifier of a later unit has sequence 0. -/
def initial : Position := ⟨0, encoder.layout.maxSequence⟩

def mint (position : Position) : Progress :=
  .minted (encoder.layout.pack position.lastElapsed encoder.machineId position.sequence) position

/-- The first reading of a call. A reading in the last unit or before it continues that unit's sequence. -/
def start (position : Position) (now : Nat) : Progress :=
  match encoder.elapsedUnits now with
  | .error error => .failed error
  | .ok units =>
    if position.lastElapsed < units then encoder.mint ⟨units, 0⟩
    else
      let sequence := (position.sequence + 1) % 2 ^ encoder.layout.sequenceBits
      if sequence = 0 then
        let next := position.lastElapsed + 1
        if next ≤ encoder.layout.maxElapsed then .waiting next
        else .failed (.timeExhausted next encoder.layout.maxElapsed)
      else encoder.mint ⟨position.lastElapsed, sequence⟩

def resume (next : Nat) (now : Nat) : Progress :=
  match encoder.elapsedUnits now with
  | .error error => .failed error
  | .ok units => if next ≤ units then encoder.mint ⟨next, 0⟩ else .waiting next

inductive Outcome where
  | minted (id : Id)
  | failed (error : Error)
  /-- The call asked for a reading when none was left. -/
  | starved
deriving DecidableEq, Repr

structure Ending (α : Type) where
  outcome : Outcome
  position : Position
  readings : α
deriving DecidableEq, Repr

def Ending.map {α β : Type} (f : α → β) (ending : Ending α) : Ending β := { ending with readings := f ending.readings }

def awaitUnit (position : Position) (next : Nat) : List Nat → Ending (List Nat)
  | [] => ⟨.starved, position, []⟩
  | now :: readings =>
    match encoder.resume next now with
    | .minted id minted => ⟨.minted id, minted, readings⟩
    | .failed error => ⟨.failed error, position, readings⟩
    | .waiting _ => awaitUnit position next readings

def nextId (position : Position) : List Nat → Ending (List Nat)
  | [] => ⟨.starved, position, []⟩
  | now :: readings =>
    match encoder.start position now with
    | .minted id minted => ⟨.minted id, minted, readings⟩
    | .failed error => ⟨.failed error, position, readings⟩
    | .waiting next => encoder.awaitUnit position next readings

/-- The rest of a call that waits for the unit `next`. A reading that does not end the wait does not end it when it comes
again. -/
def awaitUnitOn (position : Position) (next : Nat) : Readings → Ending Readings
  | [] => ⟨.starved, position, []⟩
  | ⟨_, 0⟩ :: rest => awaitUnitOn position next rest
  | ⟨now, count + 1⟩ :: rest =>
    match encoder.resume next now with
    | .minted id minted => ⟨.minted id, minted, ⟨now, count⟩ :: rest⟩
    | .failed error => ⟨.failed error, position, ⟨now, count⟩ :: rest⟩
    | .waiting _ => awaitUnitOn position next rest

def nextIdOn (position : Position) (readings : Readings) : Ending Readings :=
  match readings.next? with
  | none => ⟨.starved, position, []⟩
  | some (now, rest) =>
    match encoder.start position now with
    | .minted id minted => ⟨.minted id, minted, rest⟩
    | .failed error => ⟨.failed error, position, rest⟩
    | .waiting next => encoder.awaitUnitOn position next rest

theorem awaitUnit_replicate {next now unit : Nat} (waits : encoder.resume next now = .waiting unit) (position : Position)
    (count : Nat) (readings : List Nat) :
    encoder.awaitUnit position next (List.replicate count now ++ readings) =
      encoder.awaitUnit position next readings := by
  induction count with
  | zero => rfl
  | succ count hypothesis => simpa [List.replicate_succ, awaitUnit, waits] using hypothesis

theorem awaitUnit_toList (position : Position) (next : Nat) (readings : Readings) :
    encoder.awaitUnit position next readings.toList =
      (encoder.awaitUnitOn position next readings).map Readings.toList := by
  fun_induction awaitUnitOn encoder position next readings with
  | case1 => rfl
  | case2 _ rest hypothesis => simpa [Readings.toList_cons] using hypothesis
  | case3 now count rest id minted ends =>
    simp [Readings.toList_cons, List.replicate_succ, awaitUnit, ends, Ending.map]
  | case4 now count rest error ends =>
    simp [Readings.toList_cons, List.replicate_succ, awaitUnit, ends, Ending.map]
  | case5 now count rest unit waits hypothesis =>
    rw [Readings.toList_cons, encoder.awaitUnit_replicate waits, hypothesis]

theorem nextId_toList (position : Position) (readings : Readings) :
    encoder.nextId position readings.toList = (encoder.nextIdOn position readings).map Readings.toList := by
  unfold nextIdOn
  split
  next ended =>
    rw [Readings.toList_eq_nil_of_next? ended]
    rfl
  next now rest found =>
    rw [Readings.toList_eq_of_next? found, nextId]
    cases encoder.start position now with
    | minted => rfl
    | failed => rfl
    | waiting next => exact encoder.awaitUnit_toList position next rest

def remaining (next : Nat) (now : Nat) : Nat := encoder.wakeTime next - now

/-- One call at `now` on a clock that moves only while the call sleeps, with the time at its end. -/
def nextIdAt (position : Position) (now : Nat) : Ending (List Nat) × Nat :=
  match encoder.start position now with
  | .waiting next =>
    let woken := now + encoder.remaining next now
    (encoder.nextId position [now, woken], woken)
  | _ => (encoder.nextId position [now], now)

structure Row where
  ids : List Id
  failure? : Option Error
  position : Position
  now : Nat
deriving DecidableEq, Repr

def mintRow (position : Position) (now : Nat) : Nat → Row
  | 0 => ⟨[], none, position, now⟩
  | count + 1 =>
    match encoder.nextIdAt position now with
    | (⟨.minted id, position, _⟩, later) =>
      let row := mintRow position later count
      { row with ids := id :: row.ids }
    | (⟨.failed error, position, _⟩, later) => ⟨[], some error, position, later⟩
    | (⟨.starved, position, _⟩, later) => ⟨[], none, position, later⟩

end LeasedIds.Encoder
