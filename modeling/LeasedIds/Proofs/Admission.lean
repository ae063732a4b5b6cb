import LeasedIds.Encoder.Lifetime
import LeasedIds.Proofs.Building

namespace LeasedIds

def Error.isConfiguration : Error → Bool
  | .missingStore | .startNotPast | .badTimeUnit _ | .zeroTtl | .zeroRenewalInterval | .renewalNotBelowTtl _ _
  | .zeroStoreTimeout | .badWidths _ _ => true
  | .acquireFailed _ | .machineIdTooLarge _ _ | .releaseFailed _ _ | .clockBeforeEpoch | .timeExhausted _ _
  | .encoderPoisoned => false

namespace Layout

theorem ofWidths_eq_ok_iff {sequenceBits machineBits : Nat} {layout : Layout} :
    ofWidths sequenceBits machineBits = .ok layout ↔
      layout.sequenceBits = sequenceBits ∧ layout.machineBits = machineBits := by
  unfold ofWidths
  split
  next fits =>
    simp only [Except.ok.injEq]
    constructor
    · rintro rfl
      exact ⟨rfl, rfl⟩
    · rintro ⟨rfl, rfl⟩
      rfl
  next unfit =>
    simp only [reduceCtorEq, false_iff]
    rintro ⟨rfl, rfl⟩
    have := layout.one_le_sequenceBits
    have := layout.one_le_machineBits
    have := layout.widths_le
    exact unfit ⟨by omega, by omega, by omega⟩

theorem exists_ofWidths_iff {sequenceBits machineBits : Nat} :
    (∃ layout, ofWidths sequenceBits machineBits = .ok layout) ↔ Fits sequenceBits machineBits := by
  unfold ofWidths
  split
  next fits => exact ⟨fun _ => fits, fun _ => ⟨_, rfl⟩⟩
  next unfit =>
    constructor
    · rintro ⟨_, impossible⟩
      contradiction
    · exact fun fits => absurd fits unfit

theorem isConfiguration_of_ofWidths {sequenceBits machineBits : Nat} {error : Error}
    (refused : ofWidths sequenceBits machineBits = .error error) : error.isConfiguration = true := by
  unfold ofWidths at refused
  split at refused
  · contradiction
  · obtain rfl := Except.error.inj refused
    rfl

end Layout

namespace Lease.Terms

theorem isConfiguration_of_fault? {terms : Terms} {error : Error} (fault : terms.fault? = some error) :
    error.isConfiguration = true := by
  unfold fault? at fault
  repeat' split at fault
  all_goals
    first
    | obtain rfl := Option.some.inj fault
      rfl
    | contradiction

end Lease.Terms

namespace Generator
open Lease

namespace Settings

/-- The settings are fit for use when the clock reads `reading`. The last condition is about the start of the last unit
of the time field. -/
structure Admissible (settings : Settings) (reading : Nat) : Prop where
  hasStore : settings.hasStore = true
  startTime_nonneg : 0 ≤ settings.startTime
  startTime_lt : settings.startTime < reading
  timeUnit_ge : Time.millisecond ≤ settings.timeUnit
  renewalInterval_pos : 0 < settings.terms.renewalInterval
  renewalInterval_lt : settings.terms.renewalInterval < settings.terms.ttl
  storeTimeout_pos : 0 < settings.terms.storeTimeout
  sequenceBits : 1 ≤ settings.sequenceBits ∧ settings.sequenceBits ≤ 30
  machineBits : 1 ≤ settings.machineBits ∧ settings.machineBits ≤ 30
  widths_le : settings.sequenceBits + settings.machineBits ≤ 31
  lifetime : settings.startTime +
    settings.timeUnit * ((2 ^ (63 - settings.sequenceBits - settings.machineBits) - 1 : Nat) : Int) <
      2 ^ 63 * Time.second

variable {settings : Settings} {now : Nat}

theorem planFrom_eq_ok {epoch : Nat} {layout : Layout} (unit : minTimeUnit ≤ settings.timeUnit)
    (terms : settings.terms.Valid) (widths : Layout.ofWidths settings.sequenceBits settings.machineBits = .ok layout)
    (lifetime : LifetimeRepresentable epoch settings.timeUnit layout) : ∃ plan, settings.planFrom epoch = .ok plan := by
  rw [planFrom, if_neg (Nat.not_lt.2 unit)]
  split
  next fault found =>
    rw [Terms.fault?_eq_none_iff.2 terms] at found
    contradiction
  next =>
    rw [widths]
    dsimp only
    rw [dif_pos lifetime]
    exact ⟨_, rfl⟩

theorem exists_plan_iff : (∃ plan, settings.check now = .ok plan) ↔ settings.Admissible now := by
  constructor
  · rintro ⟨plan, passed⟩
    obtain ⟨fixes, terms⟩ := plan_of_check passed
    obtain ⟨sequenceBits, machineBits⟩ := Layout.ofWidths_eq_ok_iff.1 fixes.layout_eq
    obtain ⟨sequence, machine, sum⟩ := Layout.exists_ofWidths_iff.1 ⟨_, fixes.layout_eq⟩
    obtain ⟨unit, limit⟩ := plan.lifetime
    have valid := plan.valid
    rw [terms] at valid
    rw [← fixes.timeUnit_eq] at unit limit
    rw [Layout.maxElapsed, Layout.timeBits, sequenceBits, machineBits] at limit
    obtain ⟨hasStore, past⟩ : settings.hasStore = true ∧ plan.epoch < now := by
      -- The epoch of a plan is not before 1970, so the check has compared it with the reading.
      have start := fixes.epoch_eq
      unfold check at passed
      split at passed
      · contradiction
      next present =>
        rw [start] at passed
        dsimp only at passed
        split at passed
        · contradiction
        next past => exact ⟨by simpa using present, Nat.not_le.1 past⟩
    refine ⟨hasStore, ?_, ?_, unit, valid.renewalInterval_pos, valid.renewalInterval_lt, valid.storeTimeout_pos, sequence,
      machine, sum, ?_⟩
    · rw [fixes.epoch_eq]
      exact Int.natCast_nonneg _
    · rw [fixes.epoch_eq]
      exact Int.ofNat_lt.2 past
    · rw [fixes.epoch_eq]
      exact_mod_cast limit
  · intro admissible
    obtain ⟨epoch, start⟩ := Int.eq_ofNat_of_zero_le admissible.startTime_nonneg
    obtain ⟨layout, widths⟩ := Layout.exists_ofWidths_iff.2
      ⟨admissible.sequenceBits, admissible.machineBits, admissible.widths_le⟩
    have past := admissible.startTime_lt
    have limit := admissible.lifetime
    obtain ⟨sequenceBits, machineBits⟩ := Layout.ofWidths_eq_ok_iff.1 widths
    rw [start, ← sequenceBits, ← machineBits] at limit
    have lifetime : LifetimeRepresentable epoch settings.timeUnit layout :=
      ⟨admissible.timeUnit_ge, by exact_mod_cast limit⟩
    have valid : settings.terms.Valid :=
      ⟨admissible.renewalInterval_pos, admissible.renewalInterval_lt, admissible.storeTimeout_pos⟩
    obtain ⟨plan, planned⟩ := planFrom_eq_ok admissible.timeUnit_ge valid widths lifetime
    refine ⟨plan, ?_⟩
    rw [start] at past
    have later : ¬ now ≤ epoch := Nat.not_le.2 (Int.ofNat_lt.1 past)
    simp [check, admissible.hasStore, start, later, planned]

theorem isConfiguration_of_planFrom {epoch : Nat} {error : Error} (refused : settings.planFrom epoch = .error error) :
    error.isConfiguration = true := by
  unfold planFrom at refused
  split at refused
  · obtain rfl := Except.error.inj refused
    rfl
  · split at refused
    next fault found =>
      obtain rfl := Except.error.inj refused
      exact Terms.isConfiguration_of_fault? found
    · split at refused
      next fault unfit =>
        obtain rfl := Except.error.inj refused
        exact Layout.isConfiguration_of_ofWidths unfit
      · split at refused
        · contradiction
        · obtain rfl := Except.error.inj refused
          rfl

theorem isConfiguration_of_check {error : Error} (refused : settings.check now = .error error) :
    error.isConfiguration = true := by
  unfold check at refused
  split at refused
  · obtain rfl := Except.error.inj refused
    rfl
  · split at refused
    · obtain rfl := Except.error.inj refused
      rfl
    · split at refused
      · obtain rfl := Except.error.inj refused
        rfl
      · exact isConfiguration_of_planFrom refused

theorem not_admissible_of_not_readsClock (blind : settings.readsClock = false) : ¬ settings.Admissible now := by
  intro admissible
  simp [readsClock, admissible.hasStore, admissible.startTime_nonneg] at blind

end Settings

namespace Attempt

variable {σ : Type}

def ofVerdict (send : Transport σ) (now : Nat) (store : σ) (spans : List Nat) : Except Error Plan → Attempt σ
  | .error error => ⟨now, store, .refused error, []⟩
  | .ok plan => spans.foldl (look send plan) ((begin send plan now store).look send plan 0)

def runOn (send : Transport σ) (settings : Settings) (readings : Encoder.Readings) (now : Nat) (store : σ)
    (spans : List Nat) : Option (Attempt σ) × Encoder.Readings :=
  let (verdict?, left) := settings.checkOn readings
  (verdict?.map (ofVerdict send now store spans), left)

variable {send : Transport σ} {settings : Settings} {plan : Plan} {attempt : Attempt σ}

theorem requests_prefix_look (span : Nat) : attempt.requests <+: (attempt.look send plan span).requests := by
  rw [requests, requests, look, List.filterMap_append]
  exact List.prefix_append _ _

theorem requests_prefix_looks (spans : List Nat) :
    attempt.requests <+: (spans.foldl (look send plan) attempt).requests := by
  induction spans generalizing attempt with
  | nil => exact List.prefix_rfl
  | cons span spans hypothesis => exact (requests_prefix_look span).trans hypothesis

theorem acquire_mem_requests (send : Transport σ) (now : Nat) (store : σ) (spans : List Nat) (plan : Plan) :
    .acquire plan.terms.ttl ∈ (ofVerdict send now store spans (.ok plan)).requests := by
  have first : Request.acquire plan.terms.ttl ∈ (begin send plan now store).requests := List.mem_singleton_self _
  exact (requests_prefix_looks spans).subset ((requests_prefix_look 0).subset first)

theorem acquires_iff_of_check (send : Transport σ) (settings : Settings) (reading begunAt : Nat) (store : σ)
    (spans : List Nat) :
    let attempt := ofVerdict send begunAt store spans (settings.check reading)
    ((∃ ttl, .acquire ttl ∈ attempt.requests) ↔ settings.Admissible reading) ∧
      (¬ settings.Admissible reading →
        ∃ error, error.isConfiguration = true ∧ attempt = ⟨begunAt, store, .refused error, []⟩) := by
  cases check : settings.check reading with
  | ok plan =>
      have admissible := Settings.exists_plan_iff.1 ⟨plan, check⟩
      exact ⟨⟨fun _ => admissible, fun _ => ⟨_, acquire_mem_requests send begunAt store spans plan⟩⟩,
        fun unfit => absurd admissible unfit⟩
  | error error =>
      have unfit : ¬ settings.Admissible reading := by
        intro admissible
        obtain ⟨plan, passed⟩ := Settings.exists_plan_iff.2 admissible
        rw [check] at passed
        contradiction
      refine ⟨⟨?_, fun admissible => absurd admissible unfit⟩,
        fun _ => ⟨error, Settings.isConfiguration_of_check check, rfl⟩⟩
      rintro ⟨ttl, impossible⟩
      contradiction

/-- A build asks for a machine ID exactly if its settings are fit for use, and otherwise it fails with the fault of a setting
and has asked for nothing. It takes one clock reading if it has a store and a start that is not before 1970, and none
otherwise. Bounded numbers find the same end of the lifetime. -/
theorem acquires_iff_admissible (send : Transport σ) (settings : Settings) {readings rest : Encoder.Readings}
    {reading : Nat} (clock : readings.next? = some (reading, rest))
    (bounded : ∀ layout, Layout.ofWidths settings.sequenceBits settings.machineBits = .ok layout →
      settings.timeUnit * layout.maxElapsed < 2 ^ 128)
    (begunAt : Nat) (store : σ) (spans : List Nat) :
    readings.toList = reading :: rest.toList ∧
      (∃ attempt, runOn send settings readings begunAt store spans =
          (some attempt, if settings.hasStore = true ∧ 0 ≤ settings.startTime then rest else readings) ∧
        ((∃ ttl, .acquire ttl ∈ attempt.requests) ↔ settings.Admissible reading) ∧
        (¬ settings.Admissible reading →
          ∃ error, error.isConfiguration = true ∧ attempt = ⟨begunAt, store, .refused error, []⟩)) ∧
      ∀ layout epoch last, Layout.ofWidths settings.sequenceBits settings.machineBits = .ok layout →
        (Encoder.lifetimeEnd? epoch settings.timeUnit layout = some last ↔
          LifetimeRepresentable epoch settings.timeUnit layout ∧
            epoch + settings.timeUnit * layout.maxElapsed = last) := by
  refine ⟨Encoder.Readings.toList_eq_of_next? clock, ?_,
    fun layout epoch last widths => Encoder.lifetimeEnd?_eq_some_iff (bounded layout widths)⟩
  cases reads : settings.readsClock with
  | true =>
      have taken : settings.hasStore = true ∧ 0 ≤ settings.startTime := by simpa [Settings.readsClock] using reads
      refine ⟨_, ?_, acquires_iff_of_check send settings reading begunAt store spans⟩
      simp [runOn, Settings.checkOn, reads, clock, taken]
  | false =>
      have untaken : ¬ (settings.hasStore = true ∧ 0 ≤ settings.startTime) := by
        simpa [Settings.readsClock] using reads
      have unfit (now : Nat) : ¬ settings.Admissible now := Settings.not_admissible_of_not_readsClock reads
      obtain ⟨acquires, refused⟩ := acquires_iff_of_check send settings 0 begunAt store spans
      refine ⟨_, ?_, ?_, fun _ => refused (unfit 0)⟩
      · simp only [runOn, Settings.checkOn, reads, if_neg untaken]
        rfl
      · rw [acquires]
        exact iff_of_false (unfit 0) (unfit reading)

/-- With units of `2 ^ 24` seconds, the time field of the standard layout spans `2 ^ 63` seconds but for one unit. -/
def brink (startTime : Int) : Settings := { startTime, timeUnit := 2 ^ 24 * Time.second }

theorem brink_acquires_iff_admissible :
    let readings : Encoder.Readings := [⟨Time.startOf2025, 2⟩]
    let run (startTime : Int) := runOn Simulation.Script.send (brink startTime) readings 0 { machineId := 7 } []
    readings.next? = some (Time.startOf2025, [⟨Time.startOf2025, 1⟩]) ∧
      (brink (2 ^ 24 * Time.second - 1)).Admissible Time.startOf2025 ∧
      (∃ attempt ttl, run (2 ^ 24 * Time.second - 1) = (some attempt, [⟨Time.startOf2025, 1⟩]) ∧
        .acquire ttl ∈ attempt.requests) ∧
      ¬ (brink (2 ^ 24 * Time.second)).Admissible Time.startOf2025 ∧
      ∃ attempt error, run (2 ^ 24 * Time.second) = (some attempt, [⟨Time.startOf2025, 1⟩]) ∧
        attempt.build = .refused error ∧ error.isConfiguration = true ∧ attempt.requests = [] := by
  intro readings run
  have clock : readings.next? = some (Time.startOf2025, [⟨Time.startOf2025, 1⟩]) := rfl
  have bounded (startTime : Int) (layout : Layout)
      (widths : Layout.ofWidths (brink startTime).sequenceBits (brink startTime).machineBits = .ok layout) :
      (brink startTime).timeUnit * layout.maxElapsed < 2 ^ 128 := by
    obtain rfl : Layout.standard = layout := Except.ok.inj widths
    show 2 ^ 24 * Time.second * Layout.standard.maxElapsed < 2 ^ 128
    decide
  have admissible : (brink (2 ^ 24 * Time.second - 1)).Admissible Time.startOf2025 := by
    constructor <;> decide
  have unfit : ¬ (brink (2 ^ 24 * Time.second)).Admissible Time.startOf2025 := by
    intro admissible
    exact absurd admissible.lifetime (by decide)
  obtain ⟨_, ⟨attempt, ran, acquires, _⟩, _⟩ := acquires_iff_admissible Simulation.Script.send
    (brink (2 ^ 24 * Time.second - 1)) clock (bounded _) 0 { machineId := 7 } []
  obtain ⟨_, ⟨attempt', ran', _, refuses⟩, _⟩ := acquires_iff_admissible Simulation.Script.send
    (brink (2 ^ 24 * Time.second)) clock (bounded _) 0 { machineId := 7 } []
  obtain ⟨ttl, asked⟩ := acquires.2 admissible
  obtain ⟨error, configuration, refused⟩ := refuses unfit
  exact ⟨clock, admissible, ⟨attempt, ttl, ran, asked⟩, unfit, attempt', error, ran', by rw [refused], configuration,
    by rw [refused]; rfl⟩

end Attempt
end Generator
end LeasedIds
