import LeasedIds.Layout.Words
import LeasedIds.Proofs.Packing

namespace LeasedIds

namespace Word

theorem shiftLeft?_eq {word : UInt64} {count : UInt8} {value shift : Nat} (word_eq : word.toNat = value)
    (count_eq : count.toNat = shift) (short : shift < 64) (fits : value * 2 ^ shift < 2 ^ 64) :
    ∃ shifted, shiftLeft? word count = some shifted ∧ shifted.toNat = value * 2 ^ shift := by
  subst word_eq count_eq
  refine ⟨word <<< count.toUInt64, if_pos ⟨UInt8.lt_iff_toNat_lt.2 short, fits⟩, ?_⟩
  rw [UInt64.toNat_shiftLeft, UInt8.toNat_toUInt64, Nat.mod_eq_of_lt short, Nat.shiftLeft_eq, Nat.mod_eq_of_lt fits]

theorem shiftRight?_eq {count : UInt8} {shift : Nat} (word : UInt64) (count_eq : count.toNat = shift)
    (short : shift < 64) :
    ∃ shifted, shiftRight? word count = some shifted ∧ shifted.toNat = word.toNat / 2 ^ shift := by
  subst count_eq
  refine ⟨word >>> count.toUInt64, if_pos (UInt8.lt_iff_toNat_lt.2 short), ?_⟩
  rw [UInt64.toNat_shiftRight, UInt8.toNat_toUInt64, Nat.mod_eq_of_lt short, Nat.shiftRight_eq_div_pow]

theorem mask?_eq {width : UInt8} {bits : Nat} (width_eq : width.toNat = bits) (short : bits < 64) :
    ∃ mask, mask? width = some mask ∧ mask.toNat = 2 ^ bits - 1 := by
  have small : 1 * 2 ^ bits < 2 ^ 64 := by
    rw [Nat.one_mul]
    exact Nat.pow_lt_pow_right (by decide) short
  obtain ⟨above, shifted, value⟩ := shiftLeft?_eq (show (1 : UInt64).toNat = 1 from rfl) width_eq short small
  rw [Nat.one_mul] at value
  have positive : (1 : UInt64) ≤ above := by
    rw [UInt64.le_iff_toNat_le, value]
    exact Nat.two_pow_pos bits
  refine ⟨above - 1, ?_, ?_⟩
  · rw [mask?, shifted]
    exact if_pos positive
  · rw [UInt64.toNat_sub_of_le _ _ positive, value]
    rfl

theorem toNat_and {mask : UInt64} {bits : Nat} (word : UInt64) (mask_eq : mask.toNat = 2 ^ bits - 1) :
    (word &&& mask).toNat = word.toNat % 2 ^ bits := by
  rw [UInt64.toNat_and, mask_eq, Nat.and_two_pow_sub_one_eq_mod]

theorem toNat_or {high low : UInt64} {value shift : Nat} (high_eq : high.toNat = value * 2 ^ shift)
    (low_lt : low.toNat < 2 ^ shift) : (high ||| low).toNat = value * 2 ^ shift + low.toNat := by
  rw [UInt64.toNat_or, high_eq, Nat.mul_comm, ← Nat.two_pow_add_eq_or_of_lt low_lt]

theorem toId?_eq (word : UInt64) : toId? word = some (.ofRaw word) := by
  obtain ⟨mask, found, value⟩ := shiftRight?_eq 0xffffffffffffffff (show (1 : UInt8).toNat = 1 from rfl) (by decide)
  have bits : mask.toNat = 2 ^ 63 - 1 := value
  rw [toId?, found]
  refine congrArg (some ∘ Id.mk) (UInt64.toNat_inj.1 ?_)
  rw [toNat_and word bits]
  exact (Id.toNat_ofRaw word).symm

end Word

namespace Layout
open Word

variable (layout : Layout)

theorem toNat_sequenceWidth : layout.sequenceWidth.toNat = layout.sequenceBits := by
  have := layout.widths_le
  exact UInt8.toNat_ofNat_of_lt' (by simp only [UInt8.size]; omega)

theorem toNat_machineWidth : layout.machineWidth.toNat = layout.machineBits := by
  have := layout.widths_le
  exact UInt8.toNat_ofNat_of_lt' (by simp only [UInt8.size]; omega)

theorem timeWidth?_eq : ∃ width, layout.timeWidth? = some width ∧ width.toNat = layout.timeBits := by
  have sequenceWidth := layout.toNat_sequenceWidth
  have machineWidth := layout.toNat_machineWidth
  have narrow := layout.widths_le
  have first : layout.sequenceWidth ≤ 63 := by
    rw [UInt8.le_iff_toNat_le, sequenceWidth]
    show _ ≤ 63
    omega
  have rest : (63 - layout.sequenceWidth).toNat = 63 - layout.sequenceBits := by
    rw [UInt8.toNat_sub_of_le _ _ first, sequenceWidth]
    rfl
  have second : layout.machineWidth ≤ 63 - layout.sequenceWidth := by
    rw [UInt8.le_iff_toNat_le, rest, machineWidth]
    omega
  refine ⟨63 - layout.sequenceWidth - layout.machineWidth, ?_, ?_⟩
  · simp [timeWidth?, subWidths?, first, second]
  · rw [UInt8.toNat_sub_of_le _ _ second, rest, machineWidth, timeBits]

theorem timeShift?_eq :
    ∃ shift, layout.timeShift? = some shift ∧ shift.toNat = layout.sequenceBits + layout.machineBits := by
  have narrow := layout.widths_le
  have sum : layout.sequenceWidth.toNat + layout.machineWidth.toNat = layout.sequenceBits + layout.machineBits := by
    rw [toNat_sequenceWidth, toNat_machineWidth]
  refine ⟨layout.sequenceWidth + layout.machineWidth, if_pos (by omega), ?_⟩
  rw [UInt8.toNat_add, sum]
  exact Nat.mod_eq_of_lt (by omega)

theorem sequenceMask?_eq :
    ∃ mask, mask? layout.sequenceWidth = some mask ∧ mask.toNat = 2 ^ layout.sequenceBits - 1 := by
  have := layout.widths_le
  exact mask?_eq layout.toNat_sequenceWidth (by omega)

theorem machineMask?_eq :
    ∃ mask, mask? layout.machineWidth = some mask ∧ mask.toNat = 2 ^ layout.machineBits - 1 := by
  have := layout.widths_le
  exact mask?_eq layout.toNat_machineWidth (by omega)

theorem timeMask?_eq : ∃ width mask, layout.timeWidth? = some width ∧ mask? width = some mask ∧
    mask.toNat = 2 ^ layout.timeBits - 1 := by
  have := layout.widths_add
  have := layout.one_le_sequenceBits
  obtain ⟨width, found, value⟩ := layout.timeWidth?_eq
  obtain ⟨mask, masked, bits⟩ := mask?_eq value (by omega)
  exact ⟨width, mask, found, masked, bits⟩

private theorem field_lt {value bits shift : Nat} (fits : value < 2 ^ bits) (within : bits + shift ≤ 64) :
    value * 2 ^ shift < 2 ^ 64 :=
  calc value * 2 ^ shift < 2 ^ bits * 2 ^ shift := Nat.mul_lt_mul_of_pos_right fits (Nat.two_pow_pos shift)
    _ = 2 ^ (bits + shift) := (Nat.pow_add 2 bits shift).symm
    _ ≤ 2 ^ 64 := Nat.pow_le_pow_right (by decide) within

theorem packWords?_eq (elapsed machineId sequence : UInt64) :
    layout.packWords? elapsed machineId sequence =
      some (layout.pack elapsed.toNat machineId.toNat sequence.toNat) := by
  have whole := layout.widths_add
  obtain ⟨width, timeMask, timeWidth, timeMasked, timeBits⟩ := layout.timeMask?_eq
  obtain ⟨machineMask, machineMasked, machineBits⟩ := layout.machineMask?_eq
  obtain ⟨sequenceMask, sequenceMasked, sequenceBits⟩ := layout.sequenceMask?_eq
  obtain ⟨shift, timeShift, shiftBits⟩ := layout.timeShift?_eq
  have timeLt := Nat.mod_lt elapsed.toNat (Nat.two_pow_pos layout.timeBits)
  have machineLt := Nat.mod_lt machineId.toNat (Nat.two_pow_pos layout.machineBits)
  have sequenceLt := Nat.mod_lt sequence.toNat (Nat.two_pow_pos layout.sequenceBits)
  obtain ⟨time, timeShifted, time_eq⟩ := shiftLeft?_eq (toNat_and elapsed timeBits) shiftBits
    (by have := layout.widths_le; omega) (field_lt timeLt (by omega))
  obtain ⟨machine, machineShifted, machine_eq⟩ := shiftLeft?_eq (toNat_and machineId machineBits)
    layout.toNat_sequenceWidth (by have := layout.widths_le; omega) (field_lt machineLt (by omega))
  -- The time field lies above the other two, and the machine ID above the sequence.
  have upper : (time ||| machine).toNat = (elapsed.toNat % 2 ^ layout.timeBits * 2 ^ layout.machineBits +
      machineId.toNat % 2 ^ layout.machineBits) * 2 ^ layout.sequenceBits := by
    have below : machine.toNat < 2 ^ (layout.sequenceBits + layout.machineBits) := by
      rw [machine_eq, Nat.add_comm, Nat.pow_add]
      exact Nat.mul_lt_mul_of_pos_right machineLt (Nat.two_pow_pos _)
    rw [toNat_or time_eq below, machine_eq, Nat.add_comm layout.sequenceBits, Nat.pow_add, ← Nat.mul_assoc,
      ← Nat.add_mul]
  have joined : (time ||| machine ||| sequence &&& sequenceMask).toNat =
      (elapsed.toNat % 2 ^ layout.timeBits * 2 ^ layout.machineBits + machineId.toNat % 2 ^ layout.machineBits) *
        2 ^ layout.sequenceBits + sequence.toNat % 2 ^ layout.sequenceBits := by
    rw [toNat_or upper, toNat_and sequence sequenceBits]
    rw [toNat_and sequence sequenceBits]
    exact sequenceLt
  have packed : layout.packWords? elapsed machineId sequence =
      some (.ofRaw (time ||| machine ||| sequence &&& sequenceMask)) := by
    simp [packWords?, timeWidth, timeMasked, timeShift, timeShifted, machineMasked, machineShifted, sequenceMasked,
      toId?_eq]
  rw [packed, pack, ← joined, UInt64.ofNat_toNat]

theorem elapsedWord?_eq (id : Id) : layout.elapsedWord? id = some (.ofNat (layout.elapsed id)) := by
  obtain ⟨width, mask, timeWidth, masked, bits⟩ := layout.timeMask?_eq
  obtain ⟨shift, timeShift, shiftBits⟩ := layout.timeShift?_eq
  obtain ⟨shifted, found, value⟩ := shiftRight?_eq id.raw shiftBits (by have := layout.widths_le; omega)
  have field : (shifted &&& mask).toNat = layout.elapsed id := by rw [toNat_and shifted bits, value, elapsed]
  simp [elapsedWord?, timeWidth, masked, timeShift, found, ← field]

theorem machineIdWord?_eq (id : Id) : layout.machineIdWord? id = some (.ofNat (layout.machineId id)) := by
  obtain ⟨mask, masked, bits⟩ := layout.machineMask?_eq
  obtain ⟨shifted, found, value⟩ := shiftRight?_eq id.raw layout.toNat_sequenceWidth
    (by have := layout.widths_le; omega)
  have field : (shifted &&& mask).toNat = layout.machineId id := by rw [toNat_and shifted bits, value, machineId]
  simp [machineIdWord?, masked, found, ← field]

theorem sequenceWord?_eq (id : Id) : layout.sequenceWord? id = some (.ofNat (layout.sequence id)) := by
  obtain ⟨mask, masked, bits⟩ := layout.sequenceMask?_eq
  have field : (id.raw &&& mask).toNat = layout.sequence id := by rw [toNat_and id.raw bits, sequence]
  simp [sequenceWord?, masked, ← field]

theorem decomposeWords?_eq (id : Id) : layout.decomposeWords? id = some (layout.decompose id) := by
  simp [decomposeWords?, elapsedWord?_eq, machineIdWord?_eq, sequenceWord?_eq, decompose]

theorem pack_fields {id : Id} (clear : id.raw.toNat < 2 ^ 63) :
    layout.pack (layout.elapsed id) (layout.machineId id) (layout.sequence id) = id := by
  have upper : id.raw.toNat / 2 ^ layout.sequenceBits / 2 ^ layout.machineBits < 2 ^ layout.timeBits := by
    rw [Nat.div_div_eq_div_mul, Nat.div_lt_iff_lt_mul (Nat.mul_pos (Nat.two_pow_pos _) (Nat.two_pow_pos _)),
      ← Nat.pow_add, ← Nat.pow_add, Nat.add_comm layout.sequenceBits, ← Nat.add_assoc, widths_add]
    exact clear
  have raw : (layout.pack (layout.elapsed id) (layout.machineId id) (layout.sequence id)).raw.toNat = id.raw.toNat := by
    rw [toNat_pack, elapsed, machineId, sequence, Nat.mod_mod, Nat.mod_mod, Nat.mod_mod, Nat.pow_add,
      ← Nat.div_div_eq_div_mul, Nat.mod_eq_of_lt upper, Nat.div_add_mod', Nat.div_add_mod']
  exact congrArg Id.mk (UInt64.toNat_inj.1 raw)

theorem pack_decompose {id : Id} (clear : id.raw.toNat < 2 ^ 63) :
    layout.pack (layout.decompose id).time.toNat (layout.decompose id).machineId.toNat
      (layout.decompose id).sequence.toNat = id := by
  rw [toNat_time_decompose, toNat_machineId_decompose, toNat_sequence_decompose]
  exact layout.pack_fields clear

theorem toNat_raw_pack_lt (elapsed machineId sequence : Nat) :
    (layout.pack elapsed machineId sequence).raw.toNat < 2 ^ 63 := by
  rw [pack, Id.toNat_ofRaw]
  exact Nat.mod_lt _ (by decide)

/-- An identifier keeps the lowest bits of each field that is packed into it, and packing the fields of any word gives
back all of the word but its top bit. In 64-bit words all of this is exact: no shift and no mask overflows. -/
theorem fields_tile_identifier (layout : Layout) :
    (∀ elapsed machineId sequence : UInt64,
      let id := layout.pack elapsed.toNat machineId.toNat sequence.toNat
      let parts := layout.decompose id
      layout.packWords? elapsed machineId sequence = some id ∧ layout.decomposeWords? id = some parts ∧
        id.raw.toNat < 2 ^ 63 ∧ parts.time.toNat = elapsed.toNat % 2 ^ layout.timeBits ∧
        parts.machineId.toNat = machineId.toNat % 2 ^ layout.machineBits ∧
        parts.sequence.toNat = sequence.toNat % 2 ^ layout.sequenceBits) ∧
    ∀ raw : UInt64,
      let id := Id.ofRaw raw
      let parts := layout.decompose id
      Word.toId? raw = some id ∧ layout.decomposeWords? id = some parts ∧ id.raw = raw &&& 0x7fffffffffffffff ∧
        layout.pack parts.time.toNat parts.machineId.toNat parts.sequence.toNat = id ∧
        layout.packWords? parts.time parts.machineId parts.sequence = some id := by
  constructor
  · intro elapsed machineId sequence id parts
    refine ⟨layout.packWords?_eq elapsed machineId sequence, layout.decomposeWords?_eq id,
      layout.toNat_raw_pack_lt _ _ _, ?_, ?_, ?_⟩
    · rw [toNat_time_decompose, elapsed_pack]
    · rw [toNat_machineId_decompose, machineId_pack]
    · rw [toNat_sequence_decompose, sequence_pack]
  · intro raw id parts
    have clear : id.raw.toNat < 2 ^ 63 := by
      rw [Id.toNat_ofRaw]
      exact Nat.mod_lt _ (by decide)
    have again := layout.pack_decompose clear
    refine ⟨Word.toId?_eq raw, layout.decomposeWords?_eq id, ?_, again, ?_⟩
    · apply UInt64.toNat_inj.1
      rw [Id.toNat_ofRaw]
      exact (Word.toNat_and raw (show (0x7fffffffffffffff : UInt64).toNat = 2 ^ 63 - 1 from rfl)).symm
    · rw [packWords?_eq, again]

end Layout
end LeasedIds
