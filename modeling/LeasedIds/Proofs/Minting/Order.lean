import LeasedIds.Proofs.Minting.Runs

namespace LeasedIds

namespace Layout

@[ext]
structure Fields (layout : Layout) where
  elapsed : Nat
  machineId : Nat
  sequence : Nat
  elapsed_le : elapsed ≤ layout.maxElapsed
  machineId_le : machineId ≤ layout.maxMachineId
  sequence_le : sequence ≤ layout.maxSequence

namespace Fields

variable {layout : Layout} (fields other : layout.Fields)

def id : Id := layout.pack fields.elapsed fields.machineId fields.sequence

def values : Nat × Nat × Nat := (fields.elapsed, fields.machineId, fields.sequence)

def Precedes : Prop := Prod.Lex (· < ·) (Prod.Lex (· < ·) (· < ·)) fields.values other.values

theorem precedes_iff :
    fields.Precedes other ↔ fields.elapsed < other.elapsed ∨ fields.elapsed = other.elapsed ∧
      (fields.machineId < other.machineId ∨
        fields.machineId = other.machineId ∧ fields.sequence < other.sequence) := by
  simp only [Precedes, values, Prod.lex_def]

theorem toNat_raw_id :
    fields.id.raw.toNat = (fields.elapsed * 2 ^ layout.machineBits + fields.machineId) * 2 ^ layout.sequenceBits +
      fields.sequence := by
  rw [id, toNat_pack, mod_two_pow_of_le fields.elapsed_le, mod_two_pow_of_le fields.machineId_le,
    mod_two_pow_of_le fields.sequence_le]

private theorem digits_lt_iff {high high' low low' radix : Nat} (low_lt : low < radix) (low_lt' : low' < radix) :
    high * radix + low < high' * radix + low' ↔ high < high' ∨ high = high' ∧ low < low' := by
  have step {smaller larger : Nat} (less : smaller < larger) : smaller * radix + radix ≤ larger * radix := by
    rw [← Nat.succ_mul]
    exact Nat.mul_le_mul_right radix less
  rcases Nat.lt_trichotomy high high' with less | rfl | more
  · have := step less
    omega
  · omega
  · have := step more
    omega

private theorem digits_eq_iff {high high' low low' radix : Nat} (low_lt : low < radix) (low_lt' : low' < radix) :
    high * radix + low = high' * radix + low' ↔ high = high' ∧ low = low' := by
  have below : high * radix + low < high' * radix + low' ↔ _ := digits_lt_iff low_lt low_lt'
  have above : high' * radix + low' < high * radix + low ↔ _ := digits_lt_iff low_lt' low_lt
  omega

private theorem lt_two_pow {value width : Nat} (fits : value ≤ 2 ^ width - 1) : value < 2 ^ width := by
  have := Nat.two_pow_pos width
  omega

theorem id_lt_id_iff : fields.id < other.id ↔ fields.Precedes other := by
  have machineId_lt := lt_two_pow fields.machineId_le
  have machineId_lt' := lt_two_pow other.machineId_le
  rw [Id.lt_iff, toNat_raw_id, toNat_raw_id,
    digits_lt_iff (lt_two_pow fields.sequence_le) (lt_two_pow other.sequence_le),
    digits_lt_iff machineId_lt machineId_lt', digits_eq_iff machineId_lt machineId_lt', precedes_iff]
  omega

theorem id_eq_id_iff : fields.id = other.id ↔ fields = other := by
  constructor
  · intro same
    have elapsed := congrArg layout.elapsed same
    have machineId := congrArg layout.machineId same
    have sequence := congrArg layout.sequence same
    rw [id, id, elapsed_pack_of_le fields.elapsed_le, elapsed_pack_of_le other.elapsed_le] at elapsed
    rw [id, id, machineId_pack_of_le fields.machineId_le, machineId_pack_of_le other.machineId_le] at machineId
    rw [id, id, sequence_pack_of_le fields.sequence_le, sequence_pack_of_le other.sequence_le] at sequence
    exact Fields.ext elapsed machineId sequence
  · rintro rfl
    rfl

end Fields
end Layout

namespace Minter
open Encoder

theorem machineId_of_mem_take {encoder : Encoder} {readings : Readings} {calls : Nat} {id : Id}
    (minted : id ∈ mintedIds ((ofEncoder encoder readings).take calls).1) :
    encoder.layout.machineId id = encoder.machineId := by
  have new : (ofEncoder encoder readings).encoder.Series [] (ofEncoder encoder readings).position := .fresh
  exact (series_take new calls).machineId_eq minted

/-- Identifiers come in the order of their fields, and identifiers with the same layout and different machine IDs are
different, whatever else their encoders do not have in common. -/
theorem ids_ordered_and_separate (layout : Layout) :
    (∀ fields other : layout.Fields,
      (fields.id < other.id ↔ fields.Precedes other) ∧ (fields.id = other.id ↔ fields = other)) ∧
    ∀ encoder other : Encoder, encoder.layout = layout → other.layout = layout →
      encoder.machineId ≠ other.machineId → ∀ (readings readings' : Readings) (calls calls' : Nat),
        (mintedIds ((ofEncoder encoder readings).take calls).1).Disjoint
          (mintedIds ((ofEncoder other readings').take calls').1) := by
  constructor
  · exact fun fields other => ⟨fields.id_lt_id_iff other, fields.id_eq_id_iff other⟩
  · intro encoder other shared shared' different readings readings' calls calls' id minted minted'
    have mine := machineId_of_mem_take minted
    have yours := machineId_of_mem_take minted'
    rw [shared] at mine
    rw [shared'] at yours
    exact different (mine.symm.trans yours)

def sibling : Encoder where
  machineId := 0
  epoch := 0
  timeUnit := 2 * Time.millisecond
  layout := narrow.layout
  lifetime := by decide
  machineId_le := by decide

theorem siblings_ordered_and_separate :
    let mine := mintedIds ((ofEncoder narrow [⟨1005 * Time.millisecond, 2⟩]).take 2).1
    let yours := mintedIds ((ofEncoder sibling [⟨10 * Time.millisecond, 2⟩]).take 2).1
    narrow.layout = sibling.layout ∧ narrow.machineId ≠ sibling.machineId ∧ mine = [⟨22⟩, ⟨23⟩] ∧
      yours = [⟨20⟩, ⟨21⟩] ∧ mine.Disjoint yours := by
  intro mine yours
  have different : narrow.machineId ≠ sibling.machineId := by decide
  exact ⟨rfl, different, by decide, by decide,
    (ids_ordered_and_separate narrow.layout).2 narrow sibling rfl rfl different _ _ 2 2⟩

end Minter
end LeasedIds
