import LeasedIds.Layout

namespace LeasedIds

namespace Word

def shiftLeft? (word : UInt64) (count : UInt8) : Option UInt64 :=
  if count < 64 ∧ word.toNat * 2 ^ count.toNat < 2 ^ 64 then some (word <<< count.toUInt64) else none

def shiftRight? (word : UInt64) (count : UInt8) : Option UInt64 :=
  if count < 64 then some (word >>> count.toUInt64) else none

def sub? (left right : UInt64) : Option UInt64 := if right ≤ left then some (left - right) else none

def mask? (width : UInt8) : Option UInt64 := do
  sub? (← shiftLeft? 1 width) 1

def addWidths? (left right : UInt8) : Option UInt8 :=
  if left.toNat + right.toNat < 2 ^ 8 then some (left + right) else none

def subWidths? (left right : UInt8) : Option UInt8 := if right ≤ left then some (left - right) else none

def toId? (word : UInt64) : Option Id := do
  return ⟨word &&& (← shiftRight? 0xffffffffffffffff 1)⟩

end Word

namespace Layout
open Word

variable (layout : Layout)

def sequenceWidth : UInt8 := .ofNat layout.sequenceBits

def machineWidth : UInt8 := .ofNat layout.machineBits

def timeWidth? : Option UInt8 := do
  subWidths? (← subWidths? 63 layout.sequenceWidth) layout.machineWidth

def timeShift? : Option UInt8 := addWidths? layout.sequenceWidth layout.machineWidth

def packWords? (elapsed machineId sequence : UInt64) : Option Id := do
  let time ← shiftLeft? (elapsed &&& (← mask? (← layout.timeWidth?))) (← layout.timeShift?)
  let machine ← shiftLeft? (machineId &&& (← mask? layout.machineWidth)) layout.sequenceWidth
  let last := sequence &&& (← mask? layout.sequenceWidth)
  toId? (time ||| machine ||| last)

def elapsedWord? (id : Id) : Option UInt64 := do
  return (← shiftRight? id.raw (← layout.timeShift?)) &&& (← mask? (← layout.timeWidth?))

def machineIdWord? (id : Id) : Option UInt64 := do
  return (← shiftRight? id.raw layout.sequenceWidth) &&& (← mask? layout.machineWidth)

def sequenceWord? (id : Id) : Option UInt64 := do
  return id.raw &&& (← mask? layout.sequenceWidth)

def decomposeWords? (id : Id) : Option Parts := do
  return ⟨id, ← layout.elapsedWord? id, ← layout.machineIdWord? id, ← layout.sequenceWord? id⟩

end Layout
end LeasedIds
