import LeasedIds.Cli.Config
import LeasedIds.Proofs.Instants
import LeasedIds.Proofs.Precedence

namespace LeasedIds

namespace Time

variable {count other : UInt64}

theorem ofMillis_lt_iff : ofMillis count.toNat < ofMillis other.toNat ↔ count < other := by
  rw [UInt64.lt_iff_toNat_lt]
  exact Nat.mul_lt_mul_right (by decide)

theorem ofMillis_eq_zero_iff : ofMillis count.toNat = 0 ↔ count = 0 := by
  rw [← UInt64.toNat_inj, ofMillis, Nat.mul_eq_zero]
  exact or_iff_left (by decide)

theorem minTimeUnit_le_ofMillis_iff : minTimeUnit ≤ ofMillis count.toNat ↔ count ≠ 0 := by
  rw [ne_eq, ← ofMillis_eq_zero_iff]
  simp only [minTimeUnit, ofMillis, millisecond]
  omega

theorem ofMillis_lt_instantLimit (count : UInt64) : ofMillis count.toNat < instantLimit := by
  have small := count.toNat_lt
  simp only [ofMillis, millisecond, instantLimit, second]
  omega

end Time

namespace Cli

def Options.terms (options : Options) : Lease.Terms where
  ttl := Time.ofMillis options.leaseTtlMs.toNat
  renewalInterval := Time.ofMillis options.renewalIntervalMs.toNat
  storeTimeout := Time.ofMillis options.storeTimeoutMs.toNat

namespace Config
open Generator Lease

variable {options : Options} {config : Config}

theorem fault?_terms_eq_none_iff : options.terms.fault? = none ↔
    ¬ (options.leaseTtlMs = 0 ∨ options.renewalIntervalMs = 0 ∨ options.storeTimeoutMs = 0) ∧
      options.renewalIntervalMs < options.leaseTtlMs := by
  rw [Terms.fault?_eq_none_iff, ← Time.ofMillis_lt_iff, ← Time.ofMillis_eq_zero_iff, ← Time.ofMillis_eq_zero_iff,
    ← Time.ofMillis_eq_zero_iff]
  constructor
  · rintro ⟨interval, below, timeout⟩
    simp only [Options.terms] at interval below timeout
    exact ⟨by omega, below⟩
  · rintro ⟨present, below⟩
    constructor <;> simp only [Options.terms] <;> omega

/-- Where the start of the time field lies is no reason to refuse a command line. -/
theorem ofOptions_ne_startOutOfRange (startMs : Nat) : ofOptions options ≠ .error (.startOutOfRange startMs) := by
  have start := Nat.not_le.2 (Time.ofMillis_lt_instantLimit options.startTimeMs)
  rw [ofOptions, if_neg start]
  split
  · simp
  · split
    · simp
    · split
      · simp
      · split <;> simp

theorem ofOptions_eq_ok_iff : ofOptions options = .ok config ↔
    minTimeUnit ≤ Time.ofMillis options.timeUnitMs.toNat ∧ options.terms.fault? = none ∧
      Layout.ofWidths options.sequenceBits.toNat options.machineIdBits.toNat = .ok config.layout ∧
      config.epoch = Time.ofMillis options.startTimeMs.toNat ∧ config.timeUnit = Time.ofMillis options.timeUnitMs.toNat ∧
      config.terms = options.terms := by
  have start := Nat.not_le.2 (Time.ofMillis_lt_instantLimit options.startTimeMs)
  rw [Time.minTimeUnit_le_ofMillis_iff, fault?_terms_eq_none_iff, ofOptions, if_neg start]
  split
  next absent => simp [absent]
  next unit =>
    split
    next zero => simp [zero]
    next terms =>
      split
      next above => simp [UInt64.not_lt.2 above]
      next below =>
        cases widths : Layout.ofWidths options.sequenceBits.toNat options.machineIdBits.toNat with
        | error error => simp
        | ok layout =>
            obtain ⟨epoch, timeUnit, terms', layout'⟩ := config
            simp only [Except.ok.injEq, Config.mk.injEq]
            constructor
            · rintro ⟨rfl, rfl, rfl, rfl⟩
              exact ⟨unit, ⟨terms, UInt64.not_le.1 below⟩, rfl, rfl, rfl, rfl⟩
            · rintro ⟨_, _, rfl, rfl, rfl, rfl⟩
              exact ⟨rfl, rfl, rfl, rfl⟩

variable {reading : Nat}

structure Checked (config : Config) : Prop where
  unit : minTimeUnit ≤ config.timeUnit
  terms : config.terms.fault? = none

theorem checked_of_ofOptions (accepted : ofOptions options = .ok config) : config.Checked := by
  obtain ⟨unit, terms, _, _, unit_eq, terms_eq⟩ := ofOptions_eq_ok_iff.1 accepted
  exact ⟨unit_eq ▸ unit, terms_eq ▸ terms⟩

theorem ofWidths_layout (config : Config) :
    Layout.ofWidths config.settings.sequenceBits config.settings.machineBits = .ok config.layout :=
  Layout.ofWidths_eq_ok_iff.2 ⟨rfl, rfl⟩

theorem check_of_le (ahead : reading ≤ config.epoch) : config.settings.check reading = .error .startNotPast :=
  if_pos ahead

theorem check_of_lt (past : config.epoch < reading) :
    config.settings.check reading = config.settings.planFrom config.epoch := if_neg (Nat.not_le.2 past)

theorem Checked.check_of_late (checked : config.Checked) (past : config.epoch < reading)
    (late : Time.instantLimit ≤ config.epoch + config.timeUnit * config.layout.maxElapsed) :
    config.settings.check reading = .error (.badTimeUnit config.timeUnit) := by
  have unit : ¬ config.settings.timeUnit < minTimeUnit := Nat.not_lt.2 checked.unit
  have unfit : ¬ LifetimeRepresentable config.epoch config.timeUnit config.layout := fun fit =>
    absurd late (Nat.not_le.2 fit.2)
  rw [check_of_lt past, Settings.planFrom, if_neg unit]
  split
  next fault found => exact absurd (checked.terms.symm.trans found) (by simp)
  next =>
    rw [ofWidths_layout]
    exact dif_neg unfit

theorem Checked.exists_plan (checked : config.Checked) (past : config.epoch < reading)
    (soon : config.epoch + config.timeUnit * config.layout.maxElapsed < Time.instantLimit) :
    ∃ plan, config.settings.check reading = .ok plan ∧ plan.terms = config.terms := by
  have unit : minTimeUnit ≤ config.settings.timeUnit := checked.unit
  have terms : config.settings.terms.Valid := Terms.fault?_eq_none_iff.1 checked.terms
  obtain ⟨plan, planned⟩ := Settings.planFrom_eq_ok unit terms config.ofWidths_layout ⟨checked.unit, soon⟩
  have passed := (check_of_lt past).trans planned
  exact ⟨plan, passed, (Settings.plan_of_check passed).2⟩

/-- The command line accepts the settings that the library would accept, and takes them over as they are. A build from them
asks its store for a machine ID unless the clock has not passed the start or the lifetime ends too late, which may be found
in bounded numbers, and then it fails with the fault of the start or of the time unit. -/
theorem checks_agree {σ : Type} (send : Transport σ) (options : Options) :
    ((∃ config, ofOptions options = .ok config) ↔
      minTimeUnit ≤ Time.ofMillis options.timeUnitMs.toNat ∧ options.terms.fault? = none ∧
        ∃ layout, Layout.ofWidths options.sequenceBits.toNat options.machineIdBits.toNat = .ok layout) ∧
    (∀ startMs, ofOptions options ≠ .error (.startOutOfRange startMs)) ∧
    ∀ config, ofOptions options = .ok config →
      (config.epoch = options.startTimeMs.toNat * Time.millisecond ∧
        config.timeUnit = options.timeUnitMs.toNat * Time.millisecond ∧
        config.terms.ttl = options.leaseTtlMs.toNat * Time.millisecond ∧
        config.terms.renewalInterval = options.renewalIntervalMs.toNat * Time.millisecond ∧
        config.terms.storeTimeout = options.storeTimeoutMs.toNat * Time.millisecond ∧
        Layout.ofWidths options.sequenceBits.toNat options.machineIdBits.toNat = .ok config.layout) ∧
      (config.timeUnit * config.layout.maxElapsed < 2 ^ 128 →
        ∀ readings reading rest, readings.next? = some (reading, rest) → ∀ begunAt store spans,
          let late := Encoder.lifetimeEnd? config.epoch config.timeUnit config.layout = none
          let refused (error : Error) : Attempt σ := ⟨begunAt, store, .refused error, []⟩
          ∃ attempt, (Attempt.runOn send config.settings readings begunAt store spans).1 = some attempt ∧
            (late ↔ Time.instantLimit ≤ config.epoch + config.timeUnit * config.layout.maxElapsed) ∧
            (reading ≤ config.epoch → attempt = refused .startNotPast) ∧
            (config.epoch < reading → late → attempt = refused (.badTimeUnit config.timeUnit)) ∧
            (config.epoch < reading → ¬ late → .acquire config.terms.ttl ∈ attempt.requests)) := by
  refine ⟨?_, ofOptions_ne_startOutOfRange, fun config accepted => ⟨?_, ?_⟩⟩
  · constructor
    · rintro ⟨config, accepted⟩
      obtain ⟨unit, terms, widths, _⟩ := ofOptions_eq_ok_iff.1 accepted
      exact ⟨unit, terms, config.layout, widths⟩
    · rintro ⟨unit, terms, layout, widths⟩
      exact ⟨⟨_, _, options.terms, layout⟩, ofOptions_eq_ok_iff.2 ⟨unit, terms, widths, rfl, rfl, rfl⟩⟩
  · obtain ⟨_, _, widths, epoch, unit, terms⟩ := ofOptions_eq_ok_iff.1 accepted
    rw [terms]
    exact ⟨epoch, unit, rfl, rfl, rfl, widths⟩
  · intro bounded readings reading rest clock begunAt store spans late refused
    have checked := checked_of_ofOptions accepted
    have late_iff : late ↔ _ := Encoder.lifetimeEnd?_eq_none_iff checked.unit bounded
    refine ⟨_, Attempt.runOn_fst send config.settings clock begunAt store spans, late_iff, ?_, ?_, ?_⟩
    · intro ahead
      rw [check_of_le ahead]
      rfl
    · intro past ends
      rw [checked.check_of_late past (late_iff.1 ends)]
      rfl
    · intro past ends
      obtain ⟨plan, passed, terms⟩ := checked.exists_plan past (Nat.not_le.1 (mt late_iff.2 ends))
      rw [passed, ← terms]
      exact Attempt.acquire_mem_requests send begunAt store spans plan

end Config

def Options.plain (timeUnitMs : UInt64) : Options where
  startTimeMs := 1735689600000
  timeUnitMs := timeUnitMs
  leaseTtlMs := 30000
  renewalIntervalMs := 10000
  storeTimeoutMs := 5000
  sequenceBits := 8
  machineIdBits := 16

namespace Config
open Generator Lease

def plain (timeUnitMs : UInt64) : Config where
  epoch := Time.startOf2025
  timeUnit := Time.ofMillis timeUnitMs.toNat
  terms := {}
  layout := .standard

theorem plain_checks_agree :
    let run (timeUnitMs : UInt64) (reading : Nat) :=
      (Attempt.runOn Simulation.Script.send (plain timeUnitMs).settings [⟨reading, 1⟩] 0 { machineId := 7 } []).1
    let refused (error : Error) := some ⟨0, { machineId := 7 }, .refused error, []⟩
    ofOptions (.plain 10) = .ok (plain 10) ∧ ofOptions (.plain 31557600000000) = .ok (plain 31557600000000) ∧
      (∃ attempt, run 10 (Time.startOf2025 + Time.second) = some attempt ∧ .acquire (30 * Time.second) ∈ attempt.requests) ∧
      run 10 Time.startOf2025 = refused .startNotPast ∧
      run 31557600000000 (Time.startOf2025 + Time.second) = refused (.badTimeUnit (31557600000000 * Time.millisecond)) := by
  intro run refused
  have usual : ofOptions (.plain 10) = .ok (plain 10) := by decide +kernel
  have slow : ofOptions (.plain 31557600000000) = .ok (plain 31557600000000) := by decide +kernel
  obtain ⟨_, _, builds⟩ := checks_agree Simulation.Script.send (.plain 10)
  obtain ⟨_, _, builds'⟩ := checks_agree Simulation.Script.send (.plain 31557600000000)
  have build := (builds _ usual).2 (by decide)
  have build' := (builds' _ slow).2 (by decide)
  obtain ⟨attempt, ran, _, _, _, asks⟩ := build [⟨Time.startOf2025 + Time.second, 1⟩] _ _ rfl 0 { machineId := 7 } []
  obtain ⟨_, ran', _, ahead, _⟩ := build [⟨Time.startOf2025, 1⟩] _ _ rfl 0 { machineId := 7 } []
  obtain ⟨_, ran'', _, _, late, _⟩ := build' [⟨Time.startOf2025 + Time.second, 1⟩] _ _ rfl 0 { machineId := 7 } []
  rw [ahead (by decide)] at ran'
  rw [late (by decide) (by decide)] at ran''
  exact ⟨usual, slow, ⟨attempt, ran, asks (by decide) (by decide)⟩, ran', ran''⟩

end Config
end Cli
end LeasedIds
