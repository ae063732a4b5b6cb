import LeasedIds.Encoder.Lifetime
import LeasedIds.Proofs.Packing

namespace LeasedIds

namespace Layout

variable (layout : Layout) {earlier later : Id}

theorem elapsed_le (id : Id) : layout.elapsed id ≤ layout.maxElapsed :=
  Nat.le_sub_one_of_lt (Nat.mod_lt _ (Nat.two_pow_pos layout.timeBits))

theorem elapsed_of_clear {id : Id} (clear : id.raw < Id.topBit) :
    layout.elapsed id = id.raw.toNat / 2 ^ (layout.sequenceBits + layout.machineBits) := by
  have whole : 2 ^ layout.timeBits * 2 ^ (layout.sequenceBits + layout.machineBits) = 2 ^ 63 := by
    rw [← Nat.pow_add, ← layout.widths_add]
    congr 1
    omega
  have below : id.raw.toNat < 2 ^ 63 := UInt64.lt_iff_toNat_lt.1 clear
  rw [← whole] at below
  exact Nat.mod_eq_of_lt (Nat.div_lt_of_lt_mul (Nat.mul_comm .. ▸ below))

theorem elapsed_le_elapsed (clear : earlier.raw < Id.topBit) (clear' : later.raw < Id.topBit) (le : earlier ≤ later) :
    layout.elapsed earlier ≤ layout.elapsed later := by
  rw [layout.elapsed_of_clear clear, layout.elapsed_of_clear clear']
  exact Nat.div_le_div_right (UInt64.le_iff_toNat_le.1 le)

end Layout

theorem Time.unitsSpan?_eq_some {unit count : Nat} (short : unit * count < instantLimit) :
    unitsSpan? unit count = some (unit * count) := by
  rw [unitsSpan?]
  generalize unit * count = length at short ⊢
  have product : length < 2 ^ 128 := Nat.lt_trans short (by decide)
  have seconds : length / second < 2 ^ 64 :=
    (Nat.div_lt_iff_lt_mul (by decide)).2 (Nat.lt_trans short (by decide))
  have fraction : length % second < 2 ^ 32 := Nat.lt_trans (Nat.mod_lt length (by decide)) (by decide)
  rw [if_pos ⟨product, seconds, fraction⟩, Nat.div_add_mod']

namespace Encoder

section Creation

variable {machineId epoch timeUnit : Nat} {layout : Layout}

theorem fields_of_create {encoder : Encoder} (created : create machineId epoch timeUnit layout = .ok encoder) :
    encoder.machineId = machineId ∧ encoder.epoch = epoch ∧ encoder.timeUnit = timeUnit ∧ encoder.layout = layout := by
  unfold create at created
  split at created
  · split at created
    · cases created
      exact ⟨rfl, rfl, rfl, rfl⟩
    · contradiction
  · contradiction

theorem create_eq_error_iff {error : Error} :
    create machineId epoch timeUnit layout = .error error ↔
      ¬ LifetimeRepresentable epoch timeUnit layout ∧ error = .badTimeUnit timeUnit ∨
        LifetimeRepresentable epoch timeUnit layout ∧ layout.maxMachineId < machineId ∧
          error = .machineIdTooLarge machineId layout.maxMachineId := by
  unfold create
  by_cases lifetime : LifetimeRepresentable epoch timeUnit layout
  · by_cases fits : machineId ≤ layout.maxMachineId
    · simp [lifetime, fits, Nat.not_lt.2 fits]
    · simp [lifetime, fits, Nat.lt_of_not_le fits, eq_comm]
  · simp [lifetime, eq_comm]

theorem fault?_eq_some_iff (bounded : timeUnit * layout.maxElapsed < 2 ^ 128) {error : Error} :
    fault? machineId epoch timeUnit layout = some error ↔ create machineId epoch timeUnit layout = .error error := by
  have lifetime (last : Nat) := @lifetimeEnd?_eq_some_iff epoch timeUnit last layout bounded
  rw [create_eq_error_iff, fault?]
  cases found : lifetimeEnd? epoch timeUnit layout with
  | none =>
      have unfit : ¬ LifetimeRepresentable epoch timeUnit layout := by
        intro fit
        have := (lifetime _).2 ⟨fit, rfl⟩
        rw [found] at this
        contradiction
      simp [unfit, eq_comm]
  | some last =>
      have fit := ((lifetime last).1 found).1
      by_cases fits : layout.maxMachineId < machineId
      · simp [fit, fits, eq_comm]
      · simp [fit, fits]

theorem not_lifetimeRepresentable_iff :
    ¬ LifetimeRepresentable epoch timeUnit layout ↔
      timeUnit < Time.millisecond ∨ 2 ^ 63 * Time.second ≤ epoch + timeUnit * layout.maxElapsed := by
  rw [LifetimeRepresentable, Decidable.not_and_iff_not_or_not, Nat.not_le, Nat.not_lt]
  rfl

theorem lifetimeEnd?_eq_none_iff (long : minTimeUnit ≤ timeUnit) (bounded : timeUnit * layout.maxElapsed < 2 ^ 128) :
    lifetimeEnd? epoch timeUnit layout = none ↔ Time.instantLimit ≤ epoch + timeUnit * layout.maxElapsed := by
  rw [Option.eq_none_iff_forall_ne_some]
  simp [lifetimeEnd?_eq_some_iff bounded, LifetimeRepresentable, long]

end Creation

variable (encoder : Encoder)

theorem start_lt_instantLimit {units : Nat} (fits : units ≤ encoder.layout.maxElapsed) :
    encoder.epoch + encoder.timeUnit * units < Time.instantLimit :=
  Nat.lt_of_le_of_lt (Nat.add_le_add_left (Nat.mul_le_mul_left _ fits) _) encoder.lifetime.2

theorem toTime_eq (id : Id) : encoder.toTime id = encoder.epoch + encoder.layout.elapsed id * encoder.timeUnit := by
  have start := encoder.start_lt_instantLimit (encoder.layout.elapsed_le id)
  have short : encoder.timeUnit * encoder.layout.elapsed id < 2 ^ 64 * Time.second := by
    have limit : Time.instantLimit ≤ 2 ^ 64 * Time.second := by decide
    omega
  rw [toTime, Time.clampSpan_of_lt short, Time.later?_eq_some_iff.2 ⟨start, rfl⟩, Option.getD_some, Nat.mul_comm]

theorem start_exact {units : Nat} (fits : units ≤ encoder.layout.maxElapsed) :
    Time.unitsSpan? encoder.timeUnit units = some (encoder.timeUnit * units) ∧
      Time.sum? encoder.epoch (encoder.timeUnit * units) = some (encoder.epoch + encoder.timeUnit * units) := by
  have start := encoder.start_lt_instantLimit fits
  have longest := instantLimit_le_longestSpan
  exact ⟨Time.unitsSpan?_eq_some (by omega), if_pos (by omega)⟩

theorem toTime?_eq (id : Id) : encoder.toTime? id = some (encoder.toTime id) := by
  have fits := encoder.layout.elapsed_le id
  have start := encoder.start_lt_instantLimit fits
  obtain ⟨span, sum⟩ := encoder.start_exact fits
  rw [toTime_eq, Nat.mul_comm (encoder.layout.elapsed id), toTime?, span, Option.bind_eq_bind, Option.bind_some, sum,
    Option.bind_some, Time.later?_eq_some_iff]
  exact ⟨by omega, Nat.zero_add _⟩

/-- An encoder cannot be created exactly if its time unit is below a millisecond or its last unit starts too late, or
else if its machine ID is too large; bounded numbers come to the same. The instant of an identifier is the start of its
unit, be the top bit set or not, with nothing cut on the way to it, and identifiers with a clear top bit come in the order
of their instants. -/
theorem create_and_toTime_exact {machineId epoch timeUnit : Nat} {layout : Layout}
    (bounded : timeUnit * layout.maxElapsed < 2 ^ 128) :
    let unfit := timeUnit < Time.millisecond ∨ 2 ^ 63 * Time.second ≤ epoch + timeUnit * layout.maxElapsed
    (∀ error, create machineId epoch timeUnit layout = .error error ↔
      unfit ∧ error = .badTimeUnit timeUnit ∨
        ¬ unfit ∧ layout.maxMachineId < machineId ∧ error = .machineIdTooLarge machineId layout.maxMachineId) ∧
    (∀ error, fault? machineId epoch timeUnit layout = some error ↔
      create machineId epoch timeUnit layout = .error error) ∧
    ∀ encoder, create machineId epoch timeUnit layout = .ok encoder →
      (∀ id, encoder.toTime id = epoch + layout.elapsed id * timeUnit ∧
        encoder.toTime? id = some (epoch + layout.elapsed id * timeUnit)) ∧
      ∀ earlier later : Id, earlier.raw < Id.topBit → later.raw < Id.topBit → earlier ≤ later →
        encoder.toTime earlier ≤ encoder.toTime later := by
  intro unfit
  have unfit_iff : ¬ LifetimeRepresentable epoch timeUnit layout ↔ unfit := not_lifetimeRepresentable_iff
  refine ⟨?_, fun error => fault?_eq_some_iff bounded, ?_⟩
  · intro error
    rw [create_eq_error_iff, ← unfit_iff, Decidable.not_not]
  · intro encoder created
    obtain ⟨_, rfl, rfl, rfl⟩ := fields_of_create created
    refine ⟨?_, ?_⟩
    · intro id
      rw [← toTime_eq]
      exact ⟨rfl, encoder.toTime?_eq id⟩
    · intro earlier later clear clear' le
      rw [toTime_eq, toTime_eq]
      have elapsed := encoder.layout.elapsed_le_elapsed clear clear' le
      exact Nat.add_le_add_left (Nat.mul_le_mul_right encoder.timeUnit elapsed) encoder.epoch

def brink : Encoder where
  machineId := 65535
  epoch := 2 ^ 24 * Time.second - 1
  timeUnit := 2 ^ 24 * Time.second
  layout := .standard
  lifetime := by decide
  machineId_le := by decide

theorem brink_create_and_toTime_exact :
    brink.timeUnit * brink.layout.maxElapsed < 2 ^ 128 ∧
      create 65535 (brink.epoch + 1) brink.timeUnit brink.layout = .error (.badTimeUnit brink.timeUnit) ∧
      create 65536 brink.epoch brink.timeUnit brink.layout = .error (.machineIdTooLarge 65536 65535) ∧
      create 65535 brink.epoch brink.timeUnit brink.layout = .ok brink ∧
      brink.toTime ⟨0xffffffffffffffff⟩ = 2 ^ 63 * Time.second - 1 := by
  have bounded : brink.timeUnit * brink.layout.maxElapsed < 2 ^ 128 := by decide
  obtain ⟨late, _⟩ := @create_and_toTime_exact 65535 (brink.epoch + 1) brink.timeUnit brink.layout bounded
  obtain ⟨large, _⟩ := @create_and_toTime_exact 65536 brink.epoch brink.timeUnit brink.layout bounded
  obtain ⟨_, _, exact⟩ := @create_and_toTime_exact 65535 brink.epoch brink.timeUnit brink.layout bounded
  have created : create 65535 brink.epoch brink.timeUnit brink.layout = .ok brink := by
    rw [create, dif_pos brink.lifetime]
    exact dif_pos brink.machineId_le
  refine ⟨bounded, ?_, ?_, created, ?_⟩
  · exact (late _).2 (.inl ⟨by decide, rfl⟩)
  · exact (large _).2 (.inr ⟨by decide, by decide, rfl⟩)
  · exact ((exact brink created).1 _).1.trans (by decide)

end Encoder
end LeasedIds
