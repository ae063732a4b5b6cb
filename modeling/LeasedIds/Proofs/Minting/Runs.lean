import LeasedIds.Proofs.Minting.Series

namespace LeasedIds

namespace Encoder

def Outcome.id? : Outcome → Option Id
  | .minted id => some id
  | .failed _ | .starved => none

def mintedIds (outcomes : List Outcome) : List Id := outcomes.filterMap Outcome.id?

theorem Outcome.id?_eq_none {outcome : Outcome} (fails : ∀ id, outcome ≠ .minted id) : outcome.id? = none := by
  cases outcome with
  | minted id => exact absurd rfl (fails id)
  | failed error => rfl
  | starved => rfl

theorem Series.nextIdOn {encoder : Encoder} {ids : List Id} {position : Position}
    (series : encoder.Series ids position) (readings : Readings) :
    encoder.Series (ids ++ (encoder.nextIdOn position readings).outcome.id?.toList)
      (encoder.nextIdOn position readings).position := by
  have same := encoder.nextId_toList position readings
  have outcome : (encoder.nextId position readings.toList).outcome = (encoder.nextIdOn position readings).outcome :=
    congrArg Ending.outcome same
  have moved : (encoder.nextId position readings.toList).position = (encoder.nextIdOn position readings).position :=
    congrArg Ending.position same
  rw [← outcome, ← moved]
  rcases nextId_outcome series.fits readings.toList with ⟨after, step, minted, position⟩ | ⟨fails, stays⟩
  · rw [minted, position]
    exact series.snoc step
  · rw [Outcome.id?_eq_none fails, stays]
    simpa using series

end Encoder

namespace Minter
open Encoder

theorem series_next {minter : Minter} {ids : List Id} (series : minter.encoder.Series ids minter.position) :
    minter.next.2.encoder = minter.encoder ∧
      minter.encoder.Series (ids ++ minter.next.1.id?.toList) minter.next.2.position := by
  unfold next
  split
  · exact ⟨rfl, by simpa [Outcome.id?] using series⟩
  · exact ⟨rfl, series.nextIdOn minter.readings⟩

theorem series_take {minter : Minter} {ids : List Id} (series : minter.encoder.Series ids minter.position)
    (calls : Nat) :
    minter.encoder.Series (ids ++ mintedIds (minter.take calls).1) (minter.take calls).2.position := by
  induction calls generalizing minter ids with
  | zero => simpa [take, mintedIds] using series
  | succ calls hypothesis =>
      obtain ⟨same, longer⟩ := series_next series
      rw [← same] at longer
      have whole := hypothesis longer
      rw [same, List.append_assoc] at whole
      have split : minter.next.1.id?.toList ++ mintedIds (minter.next.2.take calls).1 =
          mintedIds (minter.take (calls + 1)).1 := by
        rw [take, mintedIds, mintedIds]
        cases found : minter.next.1.id? <;> simp [found]
      rw [← split]
      exact whole

/-- The identifiers of a run increase, name the encoder's machine, and number the identifiers of each unit from zero,
without a gap and in one piece. -/
theorem minted_ids_gapless {machineId epoch timeUnit : Nat} {layout : Layout} {encoder : Encoder}
    (accepted : Encoder.create machineId epoch timeUnit layout = .ok encoder) (readings : Readings) (calls : Nat) :
    Gapless layout machineId (mintedIds ((ofEncoder encoder readings).take calls).1) := by
  obtain ⟨sameMachine, sameLayout⟩ : encoder.machineId = machineId ∧ encoder.layout = layout := by
    unfold Encoder.create at accepted
    split at accepted
    · split at accepted
      · cases accepted
        exact ⟨rfl, rfl⟩
      · contradiction
    · contradiction
  have new : (ofEncoder encoder readings).encoder.Series [] (ofEncoder encoder readings).position := .fresh
  have series := series_take new calls
  rw [← sameMachine, ← sameLayout]
  exact series.gapless

theorem narrow_minted_ids_gapless :
    let readings : Readings := [⟨1005 * Time.millisecond, 3⟩, ⟨999 * Time.millisecond, 1⟩,
      ⟨1005 * Time.millisecond, 2⟩, ⟨1009 * Time.millisecond, 1⟩, ⟨2 ^ 62 * Time.millisecond, 1⟩,
      ⟨1001 * Time.millisecond, 2⟩, ⟨1020 * Time.millisecond, 1⟩]
    Encoder.create 1 Time.second Time.millisecond narrow.layout = .ok narrow ∧
      ((ofEncoder narrow readings).take 8).1 =
        [.minted ⟨22⟩, .minted ⟨23⟩, .failed .clockBeforeEpoch, .minted ⟨26⟩,
          .failed (.timeExhausted (2 ^ 62 - 1000) (2 ^ 61 - 1)), .minted ⟨27⟩, .minted ⟨30⟩, .starved] ∧
      Gapless narrow.layout 1 (mintedIds ((ofEncoder narrow readings).take 8).1) := by
  intro readings
  have accepted : Encoder.create 1 Time.second Time.millisecond narrow.layout = .ok narrow := rfl
  exact ⟨accepted, by decide, minted_ids_gapless accepted readings 8⟩

end Minter
end LeasedIds
