import LeasedIds.Encoder.Minting
import LeasedIds.Layout.Words

namespace LeasedIds

namespace Word

def ofNat? (number : Nat) : Option UInt64 := if number < 2 ^ 64 then some (.ofNat number) else none

def add? (left right : UInt64) : Option UInt64 :=
  if left.toNat + right.toNat < 2 ^ 64 then some (left + right) else none

end Word

namespace Layout
open Word

variable (layout : Layout)

def maxElapsedWord? : Option UInt64 := do
  mask? (← layout.timeWidth?)

def maxSequenceWord? : Option UInt64 := mask? layout.sequenceWidth

end Layout

namespace Encoder
open Word

/-- The fields of the last identifier in their words, and the clock readings still to come. -/
structure Registers where
  lastElapsed : UInt64
  sequence : UInt64
  readings : List Nat
deriving DecidableEq, Repr

inductive Fault where
  | failed (error : Error)
  | starved
  | overflowed
deriving DecidableEq, Repr

abbrev Work := EStateM Fault Registers

def within {α : Type} : Option α → Work α
  | some value => pure value
  | none => throw .overflowed

def readClock : Work Nat := do
  match (← get).readings with
  | [] => throw .starved
  | now :: readings =>
    modify fun registers => { registers with readings }
    return now

def writeElapsed (lastElapsed : UInt64) : Work Unit := modify fun registers => { registers with lastElapsed }

def writeSequence (sequence : UInt64) : Work Unit := modify fun registers => { registers with sequence }

variable (encoder : Encoder)

def readUnits : Work UInt64 := do
  match encoder.elapsedUnits (← readClock) with
  | .error error => throw (.failed error)
  | .ok units => within (ofNat? units)

def pollUnit (next : UInt64) : List Nat → Work Unit
  | [] => throw .starved
  | _ :: readings => do
    let units ← encoder.readUnits
    if next ≤ units then return () else pollUnit next readings

def awaitNext (lastElapsed : UInt64) : Work UInt64 := do
  let next ← within (add? lastElapsed 1)
  let last ← within encoder.layout.maxElapsedWord?
  if last < next then throw (.failed (.timeExhausted next.toNat last.toNat))
  else if 2 ^ 128 ≤ encoder.timeUnit * next.toNat then throw .overflowed
  else
    encoder.pollUnit next (← get).readings
    return next

def advance (current : UInt64) : Work Unit := do
  let last := (← get).lastElapsed
  if last < current then
    writeElapsed current
    writeSequence 0
  else
    let sequence := (← within (add? (← get).sequence 1)) &&& (← within encoder.layout.maxSequenceWord?)
    if sequence = 0 then
      writeElapsed (← encoder.awaitNext last)
      writeSequence sequence
    else writeSequence sequence

def nextInPlace : Work Id := do
  encoder.advance (← encoder.readUnits)
  let registers ← get
  within (encoder.layout.packWords? registers.lastElapsed (← within (ofNat? encoder.machineId)) registers.sequence)

end Encoder
end LeasedIds
