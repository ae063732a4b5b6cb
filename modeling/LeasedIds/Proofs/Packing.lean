import LeasedIds.Layout

namespace LeasedIds.Layout

variable (layout : Layout)

theorem widths_add : layout.timeBits + layout.machineBits + layout.sequenceBits = 63 := by
  have := layout.widths_le
  unfold timeBits
  omega

theorem two_pow_widths :
    2 ^ layout.timeBits * 2 ^ layout.machineBits * 2 ^ layout.sequenceBits = 2 ^ 63 := by
  rw [← Nat.pow_add, ← Nat.pow_add, widths_add]

private theorem digits_lt {high middle low a b c : Nat} (highLt : high < a) (middleLt : middle < b) (lowLt : low < c) :
    (high * b + middle) * c + low < a * b * c := by
  have upper : high * b + middle < a * b := by
    calc high * b + middle < high * b + b := by omega
      _ = (high + 1) * b := (Nat.succ_mul high b).symm
      _ ≤ a * b := Nat.mul_le_mul_right b highLt
  calc (high * b + middle) * c + low < (high * b + middle) * c + c := by omega
    _ = (high * b + middle + 1) * c := (Nat.succ_mul (high * b + middle) c).symm
    _ ≤ a * b * c := Nat.mul_le_mul_right c upper

theorem toNat_pack (elapsed machineId sequence : Nat) :
    (layout.pack elapsed machineId sequence).raw.toNat =
      (elapsed % 2 ^ layout.timeBits * 2 ^ layout.machineBits + machineId % 2 ^ layout.machineBits) *
        2 ^ layout.sequenceBits + sequence % 2 ^ layout.sequenceBits := by
  have bound := digits_lt (Nat.mod_lt elapsed (Nat.two_pow_pos layout.timeBits))
    (Nat.mod_lt machineId (Nat.two_pow_pos layout.machineBits))
    (Nat.mod_lt sequence (Nat.two_pow_pos layout.sequenceBits))
  rw [two_pow_widths] at bound
  rw [pack, Id.toNat_ofRaw, UInt64.toNat_ofNat', Nat.mod_mod_of_dvd _ (by decide), Nat.mod_eq_of_lt bound]

theorem sequence_pack (elapsed machineId sequence : Nat) :
    layout.sequence (layout.pack elapsed machineId sequence) = sequence % 2 ^ layout.sequenceBits := by
  rw [Layout.sequence, toNat_pack, Nat.mul_add_mod_self_right, Nat.mod_mod]

theorem machineId_pack (elapsed machineId sequence : Nat) :
    layout.machineId (layout.pack elapsed machineId sequence) = machineId % 2 ^ layout.machineBits := by
  have low := Nat.mod_lt sequence (Nat.two_pow_pos layout.sequenceBits)
  rw [Layout.machineId, toNat_pack, Nat.mul_comm _ (2 ^ layout.sequenceBits),
    Nat.mul_add_div (Nat.two_pow_pos _), Nat.div_eq_of_lt low, Nat.add_zero, Nat.mul_add_mod_self_right, Nat.mod_mod]

theorem elapsed_pack (elapsed machineId sequence : Nat) :
    layout.elapsed (layout.pack elapsed machineId sequence) = elapsed % 2 ^ layout.timeBits := by
  have low := Nat.mod_lt sequence (Nat.two_pow_pos layout.sequenceBits)
  have middle := Nat.mod_lt machineId (Nat.two_pow_pos layout.machineBits)
  rw [Layout.elapsed, toNat_pack, Nat.pow_add, ← Nat.div_div_eq_div_mul, Nat.mul_comm _ (2 ^ layout.sequenceBits),
    Nat.mul_add_div (Nat.two_pow_pos _), Nat.div_eq_of_lt low, Nat.add_zero, Nat.mul_comm _ (2 ^ layout.machineBits),
    Nat.mul_add_div (Nat.two_pow_pos _), Nat.div_eq_of_lt middle, Nat.add_zero, Nat.mod_mod]

section Ranges

variable {layout : Layout} {elapsed machineId sequence : Nat}

theorem mod_two_pow_of_le {value width : Nat} (fits : value ≤ 2 ^ width - 1) : value % 2 ^ width = value := by
  have := Nat.two_pow_pos width
  exact Nat.mod_eq_of_lt (by omega)

theorem elapsed_pack_of_le (fits : elapsed ≤ layout.maxElapsed) :
    layout.elapsed (layout.pack elapsed machineId sequence) = elapsed := by
  rw [elapsed_pack, mod_two_pow_of_le fits]

theorem machineId_pack_of_le (fits : machineId ≤ layout.maxMachineId) :
    layout.machineId (layout.pack elapsed machineId sequence) = machineId := by
  rw [machineId_pack, mod_two_pow_of_le fits]

theorem sequence_pack_of_le (fits : sequence ≤ layout.maxSequence) :
    layout.sequence (layout.pack elapsed machineId sequence) = sequence := by
  rw [sequence_pack, mod_two_pow_of_le fits]

theorem pack_lt_pack_of_elapsed_lt {later : Nat} (lt : elapsed < later) (fits : later ≤ layout.maxElapsed)
    (machineId machineId' sequence sequence' : Nat) :
    layout.pack elapsed machineId sequence < layout.pack later machineId' sequence' := by
  have middle := Nat.mod_lt machineId (Nat.two_pow_pos layout.machineBits)
  have low := Nat.mod_lt sequence (Nat.two_pow_pos layout.sequenceBits)
  rw [Id.lt_iff, toNat_pack, toNat_pack, mod_two_pow_of_le fits,
    mod_two_pow_of_le (Nat.le_trans (Nat.le_of_lt lt) fits)]
  calc _ < (elapsed + 1) * 2 ^ layout.machineBits * 2 ^ layout.sequenceBits :=
        digits_lt (Nat.lt_succ_self elapsed) middle low
    _ ≤ later * 2 ^ layout.machineBits * 2 ^ layout.sequenceBits :=
        Nat.mul_le_mul_right _ (Nat.mul_le_mul_right _ lt)
    _ ≤ _ := by
        rw [Nat.add_mul]
        omega

theorem pack_lt_pack_of_sequence_lt {next : Nat} (lt : sequence < next) (fits : next ≤ layout.maxSequence)
    (elapsed machineId : Nat) : layout.pack elapsed machineId sequence < layout.pack elapsed machineId next := by
  rw [Id.lt_iff, toNat_pack, toNat_pack, mod_two_pow_of_le fits,
    mod_two_pow_of_le (Nat.le_trans (Nat.le_of_lt lt) fits)]
  omega

end Ranges

section Decomposition

variable (id : Id)

private theorem toNat_ofNat_field {value width : Nat} (narrow : width ≤ 63) (lt : value < 2 ^ width) :
    (UInt64.ofNat value).toNat = value := by
  rw [UInt64.toNat_ofNat']
  exact Nat.mod_eq_of_lt (Nat.lt_of_lt_of_le lt (Nat.pow_le_pow_right (by decide) (by omega)))

theorem toNat_time_decompose : (layout.decompose id).time.toNat = layout.elapsed id := by
  have := layout.widths_add
  exact toNat_ofNat_field (by omega) (Nat.mod_lt _ (Nat.two_pow_pos layout.timeBits))

theorem toNat_machineId_decompose : (layout.decompose id).machineId.toNat = layout.machineId id := by
  have := layout.widths_add
  exact toNat_ofNat_field (by omega) (Nat.mod_lt _ (Nat.two_pow_pos layout.machineBits))

theorem toNat_sequence_decompose : (layout.decompose id).sequence.toNat = layout.sequence id := by
  have := layout.widths_add
  exact toNat_ofNat_field (by omega) (Nat.mod_lt _ (Nat.two_pow_pos layout.sequenceBits))

end Decomposition
end LeasedIds.Layout
