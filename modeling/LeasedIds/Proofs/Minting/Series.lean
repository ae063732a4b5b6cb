import LeasedIds.Proofs.Minting.Calls
import Mathlib.Data.List.Induction

/-!
# Series of identifiers

The identifiers that an encoder has minted since it was created form a series: each of them belongs to a next position
of the one before. From that alone they increase, name one machine, and number the identifiers of a unit from zero.
-/

namespace LeasedIds.Encoder

/-- The identifiers minted so far and the position that they have led to. -/
inductive Series (encoder : Encoder) : List Id → Position → Prop where
  | fresh : Series encoder [] encoder.initial
  | snoc {ids : List Id} {position next : Position} (series : Series encoder ids position)
      (step : position.Next encoder.layout next) : Series encoder (ids ++ [encoder.idAt next]) next

variable {encoder : Encoder} {ids : List Id} {position next : Position}

theorem Series.fits (series : encoder.Series ids position) : position.Fits encoder.layout := by
  induction series with
  | fresh => exact encoder.initial_fits
  | snoc series step hypothesis => exact step.fits hypothesis

theorem Series.eq_initial (series : encoder.Series [] position) : position = encoder.initial := by
  generalize empty : ([] : List Id) = ids at series
  cases series with
  | fresh => rfl
  | snoc series step => simp at empty

theorem Series.of_append {later : List Id} (series : encoder.Series (ids ++ later) position) :
    ∃ earlier, encoder.Series ids earlier := by
  induction later using List.reverseRecOn generalizing position with
  | nil => exact ⟨position, by simpa using series⟩
  | append_singleton later id hypothesis =>
      rw [← List.append_assoc] at series
      generalize whole : ids ++ later ++ [id] = minted at series
      cases series with
      | fresh => simp at whole
      | snoc series step =>
          obtain ⟨rfl, _⟩ := List.append_inj' whole rfl
          exact hypothesis series

theorem elapsed_idAt (fits : position.Fits encoder.layout) :
    encoder.layout.elapsed (encoder.idAt position) = position.lastElapsed :=
  Layout.elapsed_pack_of_le fits.elapsed_le

theorem sequence_idAt (fits : position.Fits encoder.layout) :
    encoder.layout.sequence (encoder.idAt position) = position.sequence :=
  Layout.sequence_pack_of_le fits.sequence_le

theorem machineId_idAt : encoder.layout.machineId (encoder.idAt position) = encoder.machineId :=
  Layout.machineId_pack_of_le encoder.machineId_le

theorem idAt_lt_idAt (fits : next.Fits encoder.layout) (step : position.Next encoder.layout next) :
    encoder.idAt position < encoder.idAt next := by
  cases step with
  | sequence room => exact Layout.pack_lt_pack_of_sequence_lt (Nat.lt_succ_self _) fits.sequence_le _ _
  | unit later room => exact Layout.pack_lt_pack_of_elapsed_lt later room _ _ _ _

theorem Series.eq_idAt (series : encoder.Series ids position) {id : Id} (member : id ∈ ids) :
    id = encoder.idAt ⟨encoder.layout.elapsed id, encoder.layout.sequence id⟩ := by
  induction series with
  | fresh => contradiction
  | snoc series step hypothesis =>
      rcases List.mem_append.1 member with earlier | last
      · exact hypothesis earlier
      · obtain rfl := List.mem_singleton.1 last
        have fits := step.fits series.fits
        rw [elapsed_idAt fits, sequence_idAt fits]

theorem Series.machineId_eq (series : encoder.Series ids position) {id : Id} (member : id ∈ ids) :
    encoder.layout.machineId id = encoder.machineId := by
  rw [series.eq_idAt member]
  exact machineId_idAt

theorem Series.elapsed_le (series : encoder.Series ids position) {id : Id} (member : id ∈ ids) :
    encoder.layout.elapsed id ≤ position.lastElapsed := by
  induction series with
  | fresh => contradiction
  | snoc series step hypothesis =>
      rcases List.mem_append.1 member with earlier | last
      · have reached := hypothesis earlier
        cases step with
        | sequence room => exact reached
        | unit later room => exact Nat.le_trans reached (Nat.le_of_lt later)
      · obtain rfl := List.mem_singleton.1 last
        exact Nat.le_of_eq (elapsed_idAt (step.fits series.fits))

theorem Series.lt_idAt (series : encoder.Series ids position) (step : position.Next encoder.layout next) {id : Id}
    (member : id ∈ ids) : id < encoder.idAt next := by
  induction series generalizing next with
  | fresh => contradiction
  | snoc series previous hypothesis =>
      have advance := idAt_lt_idAt (step.fits (previous.fits series.fits)) step
      rcases List.mem_append.1 member with earlier | last
      · exact UInt64.lt_trans (hypothesis previous earlier) advance
      · exact List.mem_singleton.1 last ▸ advance

theorem Series.pairwise_lt (series : encoder.Series ids position) : ids.Pairwise (· < ·) := by
  induction series with
  | fresh => exact List.Pairwise.nil
  | snoc series step hypothesis =>
      rw [List.pairwise_append]
      refine ⟨hypothesis, List.pairwise_singleton _ _, ?_⟩
      intro id member last new
      rw [List.mem_singleton.1 new]
      exact series.lt_idAt step member

def ofUnit (layout : Layout) (unit : Nat) (ids : List Id) : List Id := ids.filter fun id => layout.elapsed id = unit

theorem ofUnit_append_idAt_self (fits : next.Fits encoder.layout) (ids : List Id) :
    ofUnit encoder.layout next.lastElapsed (ids ++ [encoder.idAt next]) =
      ofUnit encoder.layout next.lastElapsed ids ++ [encoder.idAt next] := by
  simp [ofUnit, elapsed_idAt fits]

theorem ofUnit_append_idAt_of_ne (fits : next.Fits encoder.layout) {unit : Nat} (other : next.lastElapsed ≠ unit)
    (ids : List Id) : ofUnit encoder.layout unit (ids ++ [encoder.idAt next]) = ofUnit encoder.layout unit ids := by
  simp [ofUnit, elapsed_idAt fits, other]

theorem Series.ofUnit_eq_nil (series : encoder.Series ids position) {unit : Nat} (later : position.lastElapsed < unit) :
    ofUnit encoder.layout unit ids = [] := by
  rw [ofUnit, List.filter_eq_nil_iff]
  intro id member
  have := series.elapsed_le member
  simp only [decide_eq_true_eq]
  omega

theorem Series.current_unit (series : encoder.Series ids position) (minted : ids ≠ []) :
    ofUnit encoder.layout position.lastElapsed ids <:+ ids ∧
      (ofUnit encoder.layout position.lastElapsed ids).map encoder.layout.sequence =
        List.range (position.sequence + 1) := by
  induction series with
  | fresh => contradiction
  | @snoc ids position next series step hypothesis =>
      have fits := step.fits series.fits
      rw [ofUnit_append_idAt_self fits, List.map_append, List.map_singleton, sequence_idAt fits]
      cases step with
      | sequence room =>
          have continued : ids ≠ [] := by
            rintro rfl
            rw [series.eq_initial] at room
            exact Nat.lt_irrefl _ room
          obtain ⟨⟨earlier, split⟩, sequences⟩ := hypothesis continued
          constructor
          · exact ⟨earlier, by rw [← List.append_assoc, split]⟩
          · rw [sequences]
            exact List.range_succ.symm
      | unit later room =>
          rw [series.ofUnit_eq_nil later]
          exact ⟨List.suffix_append ids _, rfl⟩

theorem Series.of_unit (series : encoder.Series ids position) (unit : Nat) :
    ofUnit encoder.layout unit ids <:+: ids ∧
      ∃ count ≤ 2 ^ encoder.layout.sequenceBits,
        (ofUnit encoder.layout unit ids).map encoder.layout.sequence = List.range count := by
  induction series with
  | fresh => exact ⟨List.infix_refl _, 0, Nat.zero_le _, rfl⟩
  | @snoc ids position next series step hypothesis =>
      have fits := step.fits series.fits
      by_cases current : next.lastElapsed = unit
      · obtain ⟨last, sequences⟩ := (Series.snoc series step).current_unit (by simp)
        have positive := Nat.two_pow_pos encoder.layout.sequenceBits
        have room : next.sequence ≤ 2 ^ encoder.layout.sequenceBits - 1 := fits.sequence_le
        rw [current] at last sequences
        exact ⟨last.isInfix, next.sequence + 1, by omega, sequences⟩
      · obtain ⟨together, count, bound, sequences⟩ := hypothesis
        rw [ofUnit_append_idAt_of_ne fits current]
        exact ⟨together.trans (List.prefix_append ids _).isInfix, count, bound, sequences⟩

/-- The shape of the identifiers that one machine mints: they increase, and those of a unit stand together and are
numbered from zero. -/
structure Gapless (layout : Layout) (machineId : Nat) (ids : List Id) : Prop where
  increasing : ids.Pairwise (· < ·)
  machineId_eq : ∀ id ∈ ids, (layout.decompose id).machineId.toNat = machineId
  units : ∀ unit : UInt64,
    let shared := ids.filter fun id => (layout.decompose id).time = unit
    shared <:+: ids ∧
      ∃ count ≤ 2 ^ layout.sequenceBits,
        shared.map (fun id => (layout.decompose id).sequence.toNat) = List.range count

theorem Series.gapless (series : encoder.Series ids position) : Gapless encoder.layout encoder.machineId ids := by
  refine ⟨series.pairwise_lt, ?_, ?_⟩
  · intro id member
    rw [Layout.toNat_machineId_decompose, series.machineId_eq member]
  · intro unit
    have shared : (ids.filter fun id => (encoder.layout.decompose id).time = unit) =
        ofUnit encoder.layout unit.toNat ids := by
      apply List.filter_congr
      intro id _
      simp only [← Layout.toNat_time_decompose, UInt64.toNat_inj]
    have sequences : (fun id => (encoder.layout.decompose id).sequence.toNat) = encoder.layout.sequence :=
      funext fun id => Layout.toNat_sequence_decompose encoder.layout id
    simp only [shared, sequences]
    exact series.of_unit unit.toNat

/-- Two machines with two identifiers a unit of a millisecond. -/
def narrow : Encoder where
  machineId := 1
  epoch := Time.second
  timeUnit := Time.millisecond
  layout := { sequenceBits := 1, machineBits := 1 }
  lifetime := by decide
  machineId_le := by decide

end LeasedIds.Encoder
