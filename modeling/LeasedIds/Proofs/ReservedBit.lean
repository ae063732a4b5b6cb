import LeasedIds.Proofs.Json.Records
import LeasedIds.Proofs.Minting.Calls
import LeasedIds.Proofs.Packing.Words

namespace LeasedIds.Id
open Json

variable {id : Id}

structure Sound (id : Id) : Prop where
  clear : id.raw.toNat < 2 ^ 63
  not_negative : 0 ≤ id.toInt
  ofRaw_raw : ofRaw id.raw = id
  pack_decompose : ∀ layout : Layout, layout.pack (layout.decompose id).time.toNat
    (layout.decompose id).machineId.toNat (layout.decompose id).sequence.toNat = id

structure Unsound (id : Id) : Prop where
  set : 2 ^ 63 ≤ id.raw.toNat
  negative : id.toInt < 0
  ofRaw_raw_ne : ofRaw id.raw ≠ id
  pack_decompose_ne : ∀ layout : Layout, layout.pack (layout.decompose id).time.toNat
    (layout.decompose id).machineId.toNat (layout.decompose id).sequence.toNat ≠ id

theorem toInt_eq (id : Id) :
    id.toInt = if 2 * id.raw.toNat < 2 ^ 64 then (id.raw.toNat : Int) else id.raw.toNat - 2 ^ 64 :=
  BitVec.toInt_eq_toNat_cond id.raw.toBitVec

theorem toNat_ofRaw_lt (raw : UInt64) : (ofRaw raw).raw.toNat < 2 ^ 63 := by
  rw [toNat_ofRaw]
  exact Nat.mod_lt _ (by decide)

theorem sound_of_lt (clear : id.raw.toNat < 2 ^ 63) : Sound id where
  clear := clear
  not_negative := by
    rw [toInt_eq, if_pos (by omega)]
    exact Int.natCast_nonneg id.raw.toNat
  ofRaw_raw := by
    have raw : (ofRaw id.raw).raw.toNat = id.raw.toNat := by rw [toNat_ofRaw, Nat.mod_eq_of_lt clear]
    exact congrArg Id.mk (UInt64.toNat_inj.1 raw)
  pack_decompose := fun layout => layout.pack_decompose clear

theorem unsound_of_le (set : 2 ^ 63 ≤ id.raw.toNat) : Unsound id where
  set := set
  negative := by
    have := id.raw.toNat_lt
    rw [toInt_eq, if_neg (by omega)]
    omega
  ofRaw_raw_ne := fun same => by
    have := toNat_ofRaw_lt id.raw
    rw [same] at this
    omega
  pack_decompose_ne := fun layout same => by
    have := layout.toNat_raw_pack_lt (layout.decompose id).time.toNat (layout.decompose id).machineId.toNat
      (layout.decompose id).sequence.toNat
    rw [same] at this
    omega

/-- An identifier made from a word, from fields or by an encoder. -/
inductive Made : Id → Prop where
  | ofRaw (raw : UInt64) : Made (ofRaw raw)
  | zero : Made zero
  | pack (layout : Layout) (elapsed machineId sequence : Nat) : Made (layout.pack elapsed machineId sequence)
  | mint {encoder : Encoder} {position : Encoder.Position} {readings : List Nat} {id : Id}
    (call : (encoder.nextId position readings).outcome = .minted id) : Made id

theorem eq_idAt_of_start {encoder : Encoder} {position after : Encoder.Position} {now : Nat}
    (minted : encoder.start position now = .minted id after) : id = encoder.idAt after := by
  unfold Encoder.start at minted
  split at minted
  · contradiction
  next units read =>
    split at minted
    next later =>
      obtain ⟨rfl, rfl⟩ := Encoder.Progress.minted.inj minted
      rfl
    next reached =>
      dsimp only at minted
      split at minted
      · split at minted <;> contradiction
      next continues =>
        obtain ⟨rfl, rfl⟩ := Encoder.Progress.minted.inj minted
        rfl

theorem eq_idAt_of_nextId {encoder : Encoder} {position : Encoder.Position} {readings : List Nat}
    (call : (encoder.nextId position readings).outcome = .minted id) : ∃ after, id = encoder.idAt after := by
  unfold Encoder.nextId at call
  split at call
  · contradiction
  next now readings =>
    split at call
    next minted =>
      obtain rfl := Encoder.Outcome.minted.inj call
      exact ⟨_, eq_idAt_of_start minted⟩
    · contradiction
    next next waits =>
      rcases encoder.awaitUnit_outcome position next readings with ⟨minted, _⟩ | ⟨never, _⟩
      · exact ⟨_, Encoder.Outcome.minted.inj (call.symm.trans minted)⟩
      · exact absurd call (never id)

theorem Made.clear (made : Made id) : id.raw.toNat < 2 ^ 63 := by
  cases made with
  | ofRaw raw => exact toNat_ofRaw_lt raw
  | zero => decide
  | pack layout => exact layout.toNat_raw_pack_lt _ _ _
  | mint call =>
      obtain ⟨after, rfl⟩ := eq_idAt_of_nextId call
      exact Layout.toNat_raw_pack_lt _ _ _ _

/-- The sound identifiers are those that can be made. An identifier is read from exactly the texts that hold the digits
of its word, and its parts are read from theirs, whether it is sound or not; if it is not, its top bit is set. -/
theorem sound_iff_made (id : Id) :
    (Sound id ↔ Made id) ∧ (Sound id ↔ id.raw.toNat < 2 ^ 63) ∧ (Unsound id ↔ 2 ^ 63 ≤ id.raw.toNat) ∧
      (∀ text, readId text = .ok id ↔ ∃ before after, Blank before ∧ Blank after ∧
        text = before ++ Nat.toDigits 10 id.raw.toNat ++ after) ∧
      ∀ time machineId sequence,
        readParts (Parts.jsonText ⟨id, time, machineId, sequence⟩).toList = .ok ⟨id, time, machineId, sequence⟩ := by
  refine ⟨⟨?_, fun made => sound_of_lt made.clear⟩, ⟨Sound.clear, sound_of_lt⟩, ⟨Unsound.set, unsound_of_le⟩,
    fun _ => readId_eq_ok_iff, fun _ _ _ => readParts_jsonText _⟩
  intro sound
  rw [← sound.ofRaw_raw]
  exact .ofRaw id.raw

/-- The least word with the top bit, alone and as part of a record. -/
theorem read_unsound :
    readId "9223372036854775808".toList = .ok ⟨topBit⟩ ∧
      readParts "[9223372036854775808,0,0,0]".toList = .ok ⟨⟨topBit⟩, 0, 0, 0⟩ ∧ Unsound ⟨topBit⟩ :=
  ⟨by decide +kernel, by decide +kernel, unsound_of_le (by decide)⟩

end LeasedIds.Id
