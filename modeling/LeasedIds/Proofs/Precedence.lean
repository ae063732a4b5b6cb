import LeasedIds.Proofs.Admission

namespace LeasedIds

theorem Layout.ofWidths_eq_error_iff {sequenceBits machineBits : Nat} {error : Error} :
    ofWidths sequenceBits machineBits = .error error ↔
      ¬ Fits sequenceBits machineBits ∧ error = .badWidths sequenceBits machineBits := by
  unfold ofWidths
  split <;> simp_all [eq_comm]

namespace Generator
open Lease

inductive Check where
  | store
  | startTime
  | timeUnit
  | ttl
  | renewalInterval
  | renewalBelowTtl
  | widths
  | storeTimeout
  | lifetime
deriving DecidableEq, Repr

namespace Check

def specified : List Check :=
  [.store, .startTime, .timeUnit, .ttl, .renewalInterval, .renewalBelowTtl, .widths, .storeTimeout, .lifetime]

def ofTerms : List Check := [.ttl, .renewalInterval, .renewalBelowTtl, .storeTimeout]

def ofPlan : List Check := .timeUnit :: ofTerms ++ [.widths, .lifetime]

/-- The order in which the checks are made. -/
def performed : List Check := [.store, .startTime] ++ ofPlan

def Fails (settings : Settings) (reading : Nat) : Check → Prop
  | store => settings.hasStore = false
  | startTime => settings.startTime < 0 ∨ reading ≤ settings.startTime
  | timeUnit => settings.timeUnit < Time.millisecond
  | ttl => settings.terms.ttl = 0
  | renewalInterval => settings.terms.renewalInterval = 0
  | renewalBelowTtl => settings.terms.ttl ≤ settings.terms.renewalInterval
  | widths => ¬ Layout.Fits settings.sequenceBits settings.machineBits
  | storeTimeout => settings.terms.storeTimeout = 0
  | lifetime =>
    2 ^ 63 * Time.second ≤ settings.startTime +
      settings.timeUnit * ((2 ^ (63 - settings.sequenceBits - settings.machineBits) - 1 : Nat) : Int)

instance (settings : Settings) (reading : Nat) (check : Check) : Decidable (check.Fails settings reading) := by
  cases check <;> unfold Fails <;> infer_instance

def error (settings : Settings) : Check → Error
  | store => .missingStore
  | startTime => .startNotPast
  | timeUnit | lifetime => .badTimeUnit settings.timeUnit
  | ttl => .zeroTtl
  | renewalInterval => .zeroRenewalInterval
  | renewalBelowTtl => .renewalNotBelowTtl settings.terms.renewalInterval settings.terms.ttl
  | widths => .badWidths settings.sequenceBits settings.machineBits
  | storeTimeout => .zeroStoreTimeout

def first? (order : List Check) (settings : Settings) (reading : Nat) : Option Check :=
  order.find? fun check => check.Fails settings reading

variable {settings : Settings} {reading : Nat}

theorem first?_append (earlier later : List Check) :
    first? (earlier ++ later) settings reading =
      (first? earlier settings reading).or (first? later settings reading) := List.find?_append

theorem first?_cons (check : Check) (later : List Check) :
    first? (check :: later) settings reading =
      if check.Fails settings reading then some check else first? later settings reading := by
  simp only [first?, List.find?_cons]
  split <;> simp_all

theorem first?_eq_none_iff {order : List Check} :
    first? order settings reading = none ↔ ∀ check ∈ order, ¬ check.Fails settings reading := by
  simp [first?]

theorem first?_ofTerms (settings : Settings) (reading : Nat) :
    (first? ofTerms settings reading).map (error settings) = settings.terms.fault? := by
  simp only [ofTerms, first?_cons, Lease.Terms.fault?]
  split_ifs <;> simp_all [Fails, error, first?]

theorem admissible_iff : settings.Admissible reading ↔ ∀ check : Check, ¬ check.Fails settings reading := by
  constructor
  · rintro ⟨hasStore, nonneg, past, unit, interval, below, timeout, sequence, machine, sum, lifetime⟩ check
    cases check with
    | store => simp [Fails, hasStore]
    | widths => exact not_not.2 ⟨sequence, machine, sum⟩
    | startTime | timeUnit | ttl | renewalInterval | renewalBelowTtl | storeTimeout | lifetime => simp only [Fails]; omega
  · intro passes
    obtain ⟨sequence, machine, sum⟩ := not_not.1 (passes .widths)
    have start := not_or.1 (passes .startTime)
    exact ⟨by simpa [Fails] using passes .store, Int.not_lt.1 start.1, Int.not_le.1 start.2, not_lt.1 (passes .timeUnit),
      Nat.pos_of_ne_zero (passes .renewalInterval), not_le.1 (passes .renewalBelowTtl),
      Nat.pos_of_ne_zero (passes .storeTimeout), sequence, machine, sum, Int.not_le.1 (passes .lifetime)⟩

theorem lifetime_fails_iff {epoch : Nat} {layout : Layout} (reading : Nat) (start : settings.startTime = epoch)
    (fields : Layout.ofWidths settings.sequenceBits settings.machineBits = .ok layout)
    (long : minTimeUnit ≤ settings.timeUnit) :
    lifetime.Fails settings reading ↔ ¬ LifetimeRepresentable epoch settings.timeUnit layout := by
  obtain ⟨sequenceBits, machineBits⟩ := Layout.ofWidths_eq_ok_iff.1 fields
  rw [LifetimeRepresentable, not_and, Nat.not_lt, Layout.maxElapsed, Layout.timeBits, sequenceBits, machineBits, Fails,
    start]
  constructor
  · intro late _
    exact_mod_cast late
  · intro late
    exact_mod_cast late long

theorem first?_ofPlan {epoch : Nat} {refusal : Error} (start : settings.startTime = epoch)
    (refused : settings.planFrom epoch = .error refusal) :
    (first? ofPlan settings reading).map (error settings) = some refusal := by
  rw [ofPlan, List.cons_append, first?_cons, first?_append]
  unfold Settings.planFrom at refused
  split at refused
  next short =>
    obtain rfl := Except.error.inj refused
    rw [if_pos (show timeUnit.Fails settings reading from short)]
    rfl
  next long =>
    rw [if_neg (show ¬ timeUnit.Fails settings reading from long)]
    split at refused
    next fault found =>
      obtain rfl := Except.error.inj refused
      rw [← first?_ofTerms settings reading] at found
      obtain ⟨check, first, same⟩ := Option.map_eq_some_iff.1 found
      simp [first, same]
    next valid =>
      rw [← first?_ofTerms settings reading, Option.map_eq_none_iff] at valid
      rw [valid, Option.none_or, first?_cons]
      split at refused
      next fault unfit =>
        obtain rfl := Except.error.inj refused
        obtain ⟨wide, rfl⟩ := Layout.ofWidths_eq_error_iff.1 unfit
        rw [if_pos (show widths.Fails settings reading from wide)]
        rfl
      next layout fields =>
        have fit : ¬ widths.Fails settings reading := not_not.2 (Layout.exists_ofWidths_iff.1 ⟨layout, fields⟩)
        split at refused
        · contradiction
        next short =>
          obtain rfl := Except.error.inj refused
          have late := (lifetime_fails_iff reading start fields (Nat.not_lt.1 long)).2 short
          rw [if_neg fit, first?_cons, if_pos late]
          rfl

theorem first?_performed {refusal : Error} (refused : settings.check reading = .error refusal) :
    (first? performed settings reading).map (error settings) = some refusal := by
  rw [performed, List.cons_append, List.cons_append, List.nil_append, first?_cons, first?_cons]
  unfold Settings.check at refused
  split at refused
  next absent =>
    obtain rfl := Except.error.inj refused
    rw [if_pos (show store.Fails settings reading by simpa [Fails] using absent)]
    rfl
  next present =>
    rw [if_neg (show ¬ store.Fails settings reading by simpa [Fails] using present)]
    split at refused
    next before start =>
      obtain rfl := Except.error.inj refused
      rw [if_pos (show startTime.Fails settings reading from .inl (start ▸ Int.negSucc_lt_zero before))]
      rfl
    next epoch start =>
      split at refused
      next past =>
        obtain rfl := Except.error.inj refused
        rw [if_pos (show startTime.Fails settings reading from .inr (start ▸ Int.ofNat_le.2 past))]
        rfl
      next later =>
        have passes : ¬ startTime.Fails settings reading := by
          simp only [Fails, start, Int.ofNat_eq_natCast]
          omega
        rw [if_neg passes]
        exact first?_ofPlan start refused

theorem first?_performed_eq {check : Check} (first : first? specified settings reading = some check) :
    first? performed settings reading =
      some (if check = .widths ∧ storeTimeout.Fails settings reading then .storeTimeout else check) := by
  -- The two orders part after the first six checks.
  let early : List Check := [.store, .startTime, .timeUnit, .ttl, .renewalInterval, .renewalBelowTtl]
  rw [show specified = early ++ [.widths, .storeTimeout, .lifetime] from rfl, first?_append] at first
  rw [show performed = early ++ [.storeTimeout, .widths, .lifetime] from rfl, first?_append]
  cases found : first? early settings reading with
  | some other =>
      rw [found, Option.some_or, Option.some.injEq] at first
      subst first
      have member : other ∈ early := List.mem_of_find?_eq_some found
      have apart : other ≠ .widths := by
        rintro rfl
        revert member
        decide
      rw [Option.some_or, if_neg fun both => apart both.1]
  | none =>
      rw [found, Option.none_or, first?_cons, first?_cons] at first
      rw [Option.none_or, first?_cons, first?_cons]
      split_ifs at first ⊢ <;> simp_all

theorem check_eq_error {check : Check} (first : first? specified settings reading = some check) :
    settings.check reading =
      .error (error settings (if check = .widths ∧ storeTimeout.Fails settings reading then .storeTimeout else check)) := by
  cases verdict : settings.check reading with
  | ok plan =>
      have admissible := Settings.exists_plan_iff.1 ⟨plan, verdict⟩
      exact absurd (by simpa using List.find?_some first) (admissible_iff.1 admissible check)
  | error fault =>
      have reported := first?_performed verdict
      rw [first?_performed_eq first, Option.map_some, Option.some.injEq] at reported
      rw [reported]

theorem admissible_of_first?_eq_none (faultless : first? specified settings reading = none) : settings.Admissible reading := by
  rw [admissible_iff]
  intro check
  exact first?_eq_none_iff.1 faultless check (by cases check <;> decide)

end Check

namespace Settings

/-- The length of the lifetime in nanoseconds fits in 128 bits. -/
def BoundedLifetime (settings : Settings) : Prop :=
  ∀ layout, Layout.ofWidths settings.sequenceBits settings.machineBits = .ok layout →
    settings.timeUnit * layout.maxElapsed < 2 ^ 128

variable {settings : Settings}

theorem check_of_not_readsClock (blind : settings.readsClock = false) (now later : Nat) :
    settings.check now = settings.check later := by
  unfold check
  split
  · rfl
  next present =>
    split
    · rfl
    next epoch start => simp_all [readsClock]

end Settings

namespace Attempt

variable {σ : Type}

theorem runOn_fst (send : Transport σ) (settings : Settings) {readings rest : Encoder.Readings} {reading : Nat}
    (clock : readings.next? = some (reading, rest)) (begunAt : Nat) (store : σ) (spans : List Nat) :
    (runOn send settings readings begunAt store spans).1 =
      some (ofVerdict send begunAt store spans (settings.check reading)) := by
  unfold runOn Settings.checkOn
  cases reads : settings.readsClock with
  | true => simp [clock]
  | false => simp [Settings.check_of_not_readsClock reads 0 reading]

/-- However many settings are at fault, a build reports the first fault in the specified order and has asked its store for
nothing, except that it reports a missing store timeout where the first fault is in the widths of the fields. The end of the
lifetime is looked for in bounded numbers. -/
theorem first_fault_reported_iff (send : Transport σ) (settings : Settings) {readings rest : Encoder.Readings}
    {reading : Nat} (clock : readings.next? = some (reading, rest)) (begunAt : Nat) (store : σ) (spans : List Nat) :
    let attempt? := (runOn send settings readings begunAt store spans).1
    let refused (error : Error) : Option (Attempt σ) := some ⟨begunAt, store, .refused error, []⟩
    (∀ check, Check.first? Check.specified settings reading = some check →
        (check = .lifetime → settings.BoundedLifetime) →
        (attempt? = refused (check.error settings) ↔
          ¬ (check = .widths ∧ Check.storeTimeout.Fails settings reading)) ∧
        (check = .widths ∧ Check.storeTimeout.Fails settings reading → attempt? = refused .zeroStoreTimeout)) ∧
      (Check.first? Check.specified settings reading = none →
        ∃ attempt ttl, attempt? = some attempt ∧ .acquire ttl ∈ attempt.requests) ∧
      ∀ (epoch : Nat) layout, settings.startTime = epoch →
        Layout.ofWidths settings.sequenceBits settings.machineBits = .ok layout → minTimeUnit ≤ settings.timeUnit →
        settings.timeUnit * layout.maxElapsed < 2 ^ 128 →
          (Check.lifetime.Fails settings reading ↔ Encoder.lifetimeEnd? epoch settings.timeUnit layout = none) := by
  intro attempt? refused
  have outcome : attempt? = some (ofVerdict send begunAt store spans (settings.check reading)) :=
    runOn_fst send settings clock begunAt store spans
  refine ⟨?_, ?_, ?_⟩
  · intro check first _
    rw [Check.check_eq_error first] at outcome
    by_cases exchanged : check = .widths ∧ Check.storeTimeout.Fails settings reading
    · obtain ⟨rfl, missing⟩ := exchanged
      rw [if_pos ⟨rfl, missing⟩] at outcome
      refine ⟨iff_of_false ?_ (not_not.2 ⟨rfl, missing⟩), fun _ => outcome⟩
      rw [outcome]
      simp [refused, ofVerdict, Check.error]
    · rw [if_neg exchanged] at outcome
      exact ⟨iff_of_true outcome exchanged, fun both => absurd both exchanged⟩
  · intro faultless
    obtain ⟨plan, passed⟩ := Settings.exists_plan_iff.2 (Check.admissible_of_first?_eq_none faultless)
    rw [passed] at outcome
    exact ⟨_, _, outcome, acquire_mem_requests send begunAt store spans plan⟩
  · intro epoch layout start fields long bounded
    rw [Check.lifetime_fails_iff reading start fields long, Option.eq_none_iff_forall_ne_some]
    simp [Encoder.lifetimeEnd?_eq_some_iff bounded]

theorem faulty_first_fault_reported :
    let readings : Encoder.Readings := [⟨Time.startOf2025, 2⟩]
    let settings : Settings :=
      { startTime := Time.startOf2025 - 1, timeUnit := 5, terms := ⟨0, 0, 0⟩, sequenceBits := 31, machineBits := 0 }
    let run := runOn Simulation.Script.send settings readings 0 { machineId := 7 } []
    readings.next? = some (Time.startOf2025, [⟨Time.startOf2025, 1⟩]) ∧
      Check.specified.filter (·.Fails settings Time.startOf2025) =
        [.timeUnit, .ttl, .renewalInterval, .renewalBelowTtl, .widths, .storeTimeout] ∧
      run.1 = some ⟨0, { machineId := 7 }, .refused (.badTimeUnit 5), []⟩ := by
  intro readings settings run
  have clock : readings.next? = some (Time.startOf2025, [⟨Time.startOf2025, 1⟩]) := rfl
  obtain ⟨faults, _⟩ := first_fault_reported_iff Simulation.Script.send settings clock 0 { machineId := 7 } []
  obtain ⟨reported, _⟩ := faults .timeUnit (by decide) nofun
  exact ⟨clock, by decide, reported.2 (by decide)⟩

/-- Without a store timeout, the widths of the fields are not reported. -/
theorem missing_timeout_hides_widths :
    let readings : Encoder.Readings := [⟨Time.startOf2025 + Time.second, 4⟩]
    let settings : Settings := { terms := { storeTimeout := 0 }, sequenceBits := 0 }
    let run := runOn Simulation.Script.send settings readings 0 { machineId := 7 } []
    Check.first? Check.specified settings (Time.startOf2025 + Time.second) = some .widths ∧
      Check.widths.error settings = .badWidths 0 16 ∧
      run.1 = some ⟨0, { machineId := 7 }, .refused .zeroStoreTimeout, []⟩ := by
  exact ⟨by decide, rfl, rfl⟩

end Attempt
end Generator
end LeasedIds
