import LeasedIds.Error

/-!
# Identifiers and their bit layout

An identifier is a 64-bit word with three fields below a reserved top bit: elapsed time units, machine ID
and sequence, from high to low. A `Layout` fixes the widths of the two lower fields; the time field takes the
rest of the 63 bits and is never narrower than 32.
-/

namespace LeasedIds

structure Id where
  raw : UInt64
deriving DecidableEq, Inhabited, Repr

namespace Id

def topBit : UInt64 := 0x8000000000000000

def ofRaw (raw : UInt64) : Id := ⟨raw % topBit⟩

def zero : Id := ⟨0⟩

def toInt (id : Id) : Int := id.raw.toInt64.toInt

instance : Ord Id := ⟨fun left right => compare left.raw right.raw⟩

instance : LT Id := ⟨fun left right => left.raw < right.raw⟩

instance : LE Id := ⟨fun left right => left.raw ≤ right.raw⟩

instance (left right : Id) : Decidable (left < right) := inferInstanceAs (Decidable (left.raw < right.raw))

instance (left right : Id) : Decidable (left ≤ right) := inferInstanceAs (Decidable (left.raw ≤ right.raw))

def text (id : Id) : String := toString id.raw.toNat

def debugText (id : Id) : String := "FlakeId(" ++ id.text ++ ")"

def jsonText (id : Id) : String := id.text

theorem lt_iff {left right : Id} : left < right ↔ left.raw.toNat < right.raw.toNat := UInt64.lt_iff_toNat_lt

theorem toNat_ofRaw (raw : UInt64) : (ofRaw raw).raw.toNat = raw.toNat % 2 ^ 63 := by
  simp [ofRaw, topBit]

end Id

structure Parts where
  id : Id
  time : UInt64
  machineId : UInt64
  sequence : UInt64
deriving DecidableEq, Repr

namespace Parts

def debugText (parts : Parts) : String :=
  "Decomposed \x7b id: " ++ parts.id.debugText ++ ", time: " ++ toString parts.time.toNat ++ ", machine_id: " ++
    toString parts.machineId.toNat ++ ", sequence: " ++ toString parts.sequence.toNat ++ " \x7d"

def jsonText (parts : Parts) : String :=
  "\x7b\"id\":" ++ parts.id.jsonText ++ ",\"time\":" ++ toString parts.time.toNat ++ ",\"machine_id\":" ++
    toString parts.machineId.toNat ++ ",\"sequence\":" ++ toString parts.sequence.toNat ++ "\x7d"

end Parts

structure Layout where
  sequenceBits : Nat
  machineBits : Nat
  one_le_sequenceBits : 1 ≤ sequenceBits := by decide
  one_le_machineBits : 1 ≤ machineBits := by decide
  widths_le : sequenceBits + machineBits ≤ 31 := by decide
deriving DecidableEq, Repr

namespace Layout

def standard : Layout where
  sequenceBits := 8
  machineBits := 16

instance : Inhabited Layout := ⟨standard⟩

/-- Both fields have 1 to 30 bits and leave at least 32 of the 63 bits for the time field. -/
def Fits (sequenceBits machineBits : Nat) : Prop :=
  (1 ≤ sequenceBits ∧ sequenceBits ≤ 30) ∧ (1 ≤ machineBits ∧ machineBits ≤ 30) ∧
    sequenceBits + machineBits ≤ 31

instance (sequenceBits machineBits : Nat) : Decidable (Fits sequenceBits machineBits) := by
  unfold Fits
  infer_instance

def ofWidths (sequenceBits machineBits : Nat) : Except Error Layout :=
  if fits : Fits sequenceBits machineBits then
    .ok ⟨sequenceBits, machineBits, fits.1.1, fits.2.1.1, fits.2.2⟩
  else
    .error (.badWidths sequenceBits machineBits)

variable (layout : Layout)

def timeBits : Nat := 63 - layout.sequenceBits - layout.machineBits

def maxElapsed : Nat := 2 ^ layout.timeBits - 1

def maxMachineId : Nat := 2 ^ layout.machineBits - 1

def maxSequence : Nat := 2 ^ layout.sequenceBits - 1

/-- The identifier with the three fields; a value wider than its field loses its high bits. -/
def pack (elapsed machineId sequence : Nat) : Id :=
  .ofRaw (.ofNat ((elapsed % 2 ^ layout.timeBits * 2 ^ layout.machineBits + machineId % 2 ^ layout.machineBits) *
    2 ^ layout.sequenceBits + sequence % 2 ^ layout.sequenceBits))

def elapsed (id : Id) : Nat :=
  id.raw.toNat / 2 ^ (layout.sequenceBits + layout.machineBits) % 2 ^ layout.timeBits

def machineId (id : Id) : Nat := id.raw.toNat / 2 ^ layout.sequenceBits % 2 ^ layout.machineBits

def sequence (id : Id) : Nat := id.raw.toNat % 2 ^ layout.sequenceBits

def decompose (id : Id) : Parts where
  id := id
  time := .ofNat (layout.elapsed id)
  machineId := .ofNat (layout.machineId id)
  sequence := .ofNat (layout.sequence id)

end Layout
end LeasedIds
