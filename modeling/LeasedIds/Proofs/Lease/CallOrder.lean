import LeasedIds.Proofs.Lease.Custody
import LeasedIds.Simulation.Stores

namespace LeasedIds.Lease

variable {σ : Type}

def Request.isRenewal : Request → Bool
  | .renew _ _ => true
  | .acquire _ | .release _ => false

def Request.isRelease : Request → Bool
  | .release _ => true
  | .acquire _ | .renew _ _ => false

def course (terms : Terms) (machineId renewals releases : Nat) : List Request :=
  .acquire terms.ttl ::
    (List.replicate renewals (.renew machineId terms.ttl) ++ List.replicate releases (.release machineId))

theorem Terms.valid_default : Valid {} := fault?_eq_none_iff.1 rfl

namespace Custody

structure Keeps (terms : Terms) (custody : Custody σ) (holder : Holder) : Prop where
  terms_eq : holder.terms = terms
  requests_eq : ∃ renewals, custody.requests = course terms holder.machineId renewals holder.shutdown.releases
  gone : holder.shutdown.releases = 1 → holder.Gone
  polled_iff : custody.polled = true ↔ holder.shutdown ≠ .idle
  cancelled_eq : holder.cancelled = (custody.polled || custody.dropped)
  returned : custody.returned ≠ [] → holder.stopOutcome?.isSome

def Regular (terms : Terms) (custody : Custody σ) : Prop :=
  match custody.lease with
  | .acquiring _ =>
    custody.requests = [.acquire terms.ttl] ∧ custody.polled = false ∧ custody.dropped = false ∧
      custody.returned = []
  | .leased holder => custody.Keeps terms holder
  | .handingBack _ _ | .refused _ | .crashed => True

theorem Regular.begin (send : Transport σ) (terms : Terms) (now : Nat) (store : σ) :
    Regular terms (Custody.begin send terms now store) :=
  ⟨rfl, rfl, rfl, rfl⟩

variable {terms : Terms} {custody : Custody σ} {send : Transport σ} {valid : terms.Valid} {maxMachineId : Nat}
  {holder : Holder} {next : Stepped Holder σ}

theorem isSome_of_returned_heard {outcome? : Option StopOutcome}
    (before : custody.returned ≠ [] → outcome?.isSome) {caller : Nat}
    (answered : (custody.heard caller outcome?).returned ≠ []) : outcome?.isSome := by
  cases outcome? with
  | some outcome => rfl
  | none => exact before (by simpa [heard] using answered)

theorem Keeps.releases_eq_zero (keeps : custody.Keeps terms holder) (active : ¬ holder.Gone) :
    holder.shutdown.releases = 0 := by
  have gone := mt keeps.gone active
  cases shutdown : holder.shutdown <;> simp_all [Shutdown.releases]

theorem Keeps.renewal (keeps : custody.Keeps terms holder)
    (step : holder.RenewalStep send custody.now custody.store next) :
    Keeps terms (custody.follow holder.renewer.calls (next.map .leased)) next.state := by
  obtain ⟨machineId, sameTerms, cancelled, shutdown⟩ := step.frame
  obtain ⟨begun?, makes, _, request⟩ := step.makes
  have unreleased := keeps.releases_eq_zero step.not_gone
  have outcome : next.state.stopOutcome? = holder.stopOutcome? := by
    rw [Holder.stopOutcome?, shutdown, Holder.stopOutcome?]
  refine ⟨?_, ?_, ?_, ?_, ?_, ?_⟩
  · rw [sameTerms]
    exact keeps.terms_eq
  · obtain ⟨renewals, requests⟩ := keeps.requests_eq
    rw [unreleased] at requests
    rw [requests_follow, (makes.map _).noted, requests, machineId, shutdown, unreleased]
    cases begun? with
    | none => exact ⟨renewals, List.append_nil _⟩
    | some call =>
        refine ⟨renewals + 1, ?_⟩
        obtain ⟨renew, _⟩ := request call rfl
        simp [course, List.replicate_succ', renew, keeps.terms_eq]
  · rw [shutdown, unreleased]
    intro released
    contradiction
  · rw [shutdown]
    exact keeps.polled_iff
  · rw [cancelled]
    exact keeps.cancelled_eq
  · rw [outcome]
    exact keeps.returned

theorem Keeps.shutdown (keeps : custody.Keeps terms holder)
    (step : holder.ShutdownStep send custody.now custody.store next) (caller : Nat) :
    Keeps terms ((custody.follow holder.shutdown.calls (next.map .leased)).heard caller next.state.stopOutcome?)
      next.state := by
  obtain ⟨machineId, sameTerms, renewer⟩ := step.frame
  obtain ⟨begun?, makes, _, request, released⟩ := step.makes
  obtain ⟨stopping, cancelled⟩ := step.cancelled
  refine ⟨?_, ?_, ?_, ?_, ?_, ?_⟩
  · rw [sameTerms]
    exact keeps.terms_eq
  · obtain ⟨renewals, requests⟩ := keeps.requests_eq
    refine ⟨renewals, ?_⟩
    show (custody.follow holder.shutdown.calls (next.map .leased)).requests = _
    rw [requests_follow, (makes.map _).noted, requests, machineId, course, course, List.cons_append,
      List.append_assoc, request]
  · intro once
    have gone : holder.Gone := (released once).elim keeps.gone id
    rwa [Holder.Gone, renewer]
  · simpa [heard] using stopping
  · rcases cancelled with ⟨_, cancelled⟩ | ⟨started, same⟩
    · rw [cancelled]
      rfl
    · rw [same, keeps.cancelled_eq, keeps.polled_iff.2 started]
      rfl
  · apply isSome_of_returned_heard
    intro before
    have ended := keeps.returned before
    rw [step.stopOutcome?_eq_none] at ended
    contradiction

theorem Keeps.heard (keeps : custody.Keeps terms holder) (started : holder.shutdown ≠ .idle) (caller : Nat) :
    Keeps terms (custody.heard caller holder.stopOutcome?) holder where
  terms_eq := keeps.terms_eq
  requests_eq := keeps.requests_eq
  gone := keeps.gone
  polled_iff := by simpa [Custody.heard] using started
  cancelled_eq := by
    rw [keeps.cancelled_eq, keeps.polled_iff.2 started]
    rfl
  returned := isSome_of_returned_heard keeps.returned

theorem Keeps.drop (keeps : custody.Keeps terms holder) :
    Keeps terms (custody.leave holder) holder.cancel where
  terms_eq := keeps.terms_eq
  requests_eq := by
    rw [requests_leave]
    exact keeps.requests_eq
  gone := keeps.gone
  polled_iff := keeps.polled_iff
  cancelled_eq := (Bool.or_true _).symm
  returned := keeps.returned

theorem Keeps.pass (keeps : custody.Keeps terms holder) (span : Nat) :
    Keeps terms { custody with now := custody.now + span } holder :=
  ⟨keeps.terms_eq, keeps.requests_eq, keeps.gone, keeps.polled_iff, keeps.cancelled_eq, keeps.returned⟩

theorem Regular.acquire (regular : custody.Regular terms) {next : Stepped Acquisition σ}
    (step : custody.lease.AcquisitionStep send terms valid maxMachineId custody.now custody.store next) :
    (custody.follow custody.lease.calls next).Regular terms := by
  obtain ⟨begun?, makes, _, alone⟩ := step.makes
  unfold Regular at regular
  generalize lease : custody.lease = acquisition at step regular makes
  cases step with
  | @leases call machineId finished fits =>
      obtain ⟨requests, unpolled, kept, unanswered⟩ := regular
      show Keeps terms _ (.create machineId terms valid custody.now)
      refine ⟨rfl, ⟨0, ?_⟩, ?_, ?_, ?_, ?_⟩
      · rw [requests_follow, makes.noted, alone _ rfl, requests]
        rfl
      · intro released
        contradiction
      · simp [follow, unpolled, Holder.create]
      · rw [follow, unpolled, kept]
        rfl
      · intro answered
        exact absurd unanswered answered
  | rejects finished large => trivial
  | fails finished => trivial
  | crashes finished => trivial
  | @handsBack machineId call reply finished => cases reply <;> trivial

theorem Regular.keeps (regular : custody.Regular terms) (lease : custody.lease = .leased holder) :
    custody.Keeps terms holder := by
  unfold Regular at regular
  rwa [lease] at regular

theorem Keeps.regular (keeps : custody.Keeps terms holder) (lease : custody.lease = .leased holder) :
    custody.Regular terms := by
  unfold Regular
  rwa [lease]

theorem Regular.pass (regular : custody.Regular terms) (span : Nat) :
    Regular terms { custody with now := custody.now + span } := by
  unfold Regular at regular ⊢
  cases lease : custody.lease with
  | acquiring call =>
      rw [lease] at regular
      exact regular
  | leased holder =>
      rw [lease] at regular
      have keeps : custody.Keeps terms holder := regular
      rw [← lease]
      exact (keeps.pass span).regular lease
  | _ => trivial

theorem Regular.step (regular : custody.Regular terms) {later : Custody σ}
    (moves : custody.Moves send terms valid maxMachineId later) : later.Regular terms := by
  cases moves with
  | passes span => exact regular.pass span
  | acquires step => exact regular.acquire step
  | renews lease step => exact ((regular.keeps lease).renewal step).regular rfl
  | shutsDown caller lease step => exact ((regular.keeps lease).shutdown step caller).regular rfl
  | hears caller lease waits =>
      exact ((regular.keeps lease).heard (Holder.shutdown_ne_idle_of_waits waits) caller).regular lease
  | drops lease => exact (regular.keeps lease).drop.regular rfl

theorem InTurn.renewal (inTurn : custody.InTurn terms) (keeps : custody.Keeps terms holder)
    (lease : custody.lease = .leased holder) (step : holder.RenewalStep send custody.now custody.store next) :
    (custody.follow holder.renewer.calls (next.map .leased)).InTurn terms := by
  have silent := Shutdown.calls_eq_nil (keeps.releases_eq_zero step.not_gone)
  have pending : custody.lease.calls = holder.renewer.calls := by
    rw [lease, Acquisition.calls, silent, List.append_nil]
  obtain ⟨begun?, makes, calls, _⟩ := step.makes
  rw [keeps.terms_eq, ← pending] at makes
  rw [← pending]
  apply inTurn.follow (makes.map _)
  show next.state.renewer.calls ++ next.state.shutdown.calls = _
  rw [calls, step.frame.2.2.2, silent, List.append_nil]

theorem InTurn.shutdown (inTurn : custody.InTurn terms) (keeps : custody.Keeps terms holder)
    (lease : custody.lease = .leased holder) (step : holder.ShutdownStep send custody.now custody.store next) :
    (custody.follow holder.shutdown.calls (next.map .leased)).InTurn terms := by
  rcases step.idle_or_released with ⟨idle, calls, notes⟩ | released
  · refine inTurn.of_same rfl ?_ ?_ ?_
    · simp [Custody.follow, idle, Shutdown.calls]
    · show next.state.renewer.calls ++ next.state.shutdown.calls = _
      rw [lease, Acquisition.calls, step.frame.2.2, calls, idle]
      rfl
    · rw [requests_follow]
      simp [Stepped.map, notes]
  · obtain ⟨begun?, makes, calls, _, before⟩ := step.makes
    have gone : holder.Gone := (before released).elim keeps.gone id
    have pending : custody.lease.calls = holder.shutdown.calls := by
      rw [lease, Acquisition.calls, gone.calls_eq_nil, List.nil_append]
    rw [keeps.terms_eq, ← pending] at makes
    rw [← pending]
    apply inTurn.follow (makes.map _)
    show next.state.renewer.calls ++ next.state.shutdown.calls = _
    rw [calls, step.frame.2.2, gone.calls_eq_nil, List.nil_append]

theorem InTurn.step (inTurn : custody.InTurn terms) (regular : custody.Regular terms) {later : Custody σ}
    (moves : custody.Moves send terms valid maxMachineId later) : later.InTurn terms := by
  cases moves with
  | passes span => exact inTurn.pass span
  | acquires step =>
      obtain ⟨begun?, makes, calls, _⟩ := step.makes
      exact inTurn.follow makes calls
  | renews lease step => exact inTurn.renewal (regular.keeps lease) lease step
  | shutsDown caller lease step =>
      have followed := inTurn.shutdown (regular.keeps lease) lease step
      exact followed.of_same rfl rfl rfl rfl
  | hears caller lease waits => exact inTurn.of_same rfl rfl rfl rfl
  | @drops holder lease =>
      have calls : Acquisition.calls (.leased holder.cancel) = custody.lease.calls := by
        rw [lease]
        rfl
      exact inTurn.of_same rfl rfl calls (requests_leave custody holder)

theorem inTurn_and_regular_run (send : Transport σ) (terms : Terms) (valid : terms.Valid) (maxMachineId now : Nat)
    (store : σ) (actions : List Action) :
    let custody := (Custody.begin send terms now store).run send terms valid maxMachineId actions
    custody.InTurn terms ∧ custody.Regular terms := by
  have kept (custody later : Custody σ) (holds : custody.InTurn terms ∧ custody.Regular terms)
      (moves : custody.Moves send terms valid maxMachineId later) : later.InTurn terms ∧ later.Regular terms :=
    ⟨holds.1.step holds.2 moves, holds.2.step moves⟩
  exact run_induction kept ⟨InTurn.begin send terms now store, Regular.begin send terms now store⟩ actions

def renewals (custody : Custody σ) : Nat := custody.requests.countP Request.isRenewal

def releases (custody : Custody σ) : Nat := custody.requests.countP Request.isRelease

theorem countP_isRelease_course (terms : Terms) (machineId renewals releases : Nat) :
    (course terms machineId renewals releases).countP Request.isRelease = releases := by
  simp [course, List.countP_replicate, Request.isRelease]

def busy : Simulation.Script where
  machineId := 7
  renew := [⟨Time.second, .failure "busy"⟩, ⟨Time.ofMillis 60000, .success⟩]
  release := [⟨2 * Time.second, .success⟩]

end Custody
end LeasedIds.Lease
