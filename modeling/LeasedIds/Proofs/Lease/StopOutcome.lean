import LeasedIds.Proofs.Lease.CallOrder
import LeasedIds.Proofs.Lease.Scripts

namespace LeasedIds.Lease

variable {σ : Type}

def Reply.stopOutcome (machineId : Nat) : Reply → StopOutcome
  | .ok _ => .finished none
  | .failed cause => .finished (some (.releaseFailed machineId cause))
  | .crashed => .crashed

def State.rank : State → Nat
  | .renewing => 0
  | .stopping => 1
  | .released => 2

structure Contact.Releases (machineId : Nat) (outcome : StopOutcome) (contact : Contact) : Prop where
  request_eq : contact.request = .release machineId
  ended : ∃ instant reply, contact.overAt? = some instant ∧ contact.call.result? instant = some reply ∧
    reply ≠ .crashed ∧ outcome = reply.stopOutcome machineId

namespace Holder

variable {send : Transport σ} {now : Nat} {holder later : Holder} {store : σ} {next : Stepped Holder σ}

theorem stopOutcome?_releaseEnded (holder : Holder) (reply : Reply) :
    (holder.releaseEnded reply).1.stopOutcome? = some (reply.stopOutcome holder.machineId) := by
  cases reply <;> rfl

theorem calls_of_stopOutcome? {outcome : StopOutcome} (closed : holder.stopOutcome? = some outcome) :
    holder.shutdown.calls = [] := by
  unfold stopOutcome? at closed
  split at closed
  next done => rw [done, Shutdown.calls]
  next crashed => rw [crashed, Shutdown.calls]
  next => contradiction

theorem releases_of_stopOutcome? {outcome : StopOutcome} (closed : holder.stopOutcome? = some outcome) :
    holder.shutdown.releases = 1 := by
  unfold stopOutcome? at closed
  split at closed
  next done => rw [done, Shutdown.releases]
  next crashed => rw [crashed, Shutdown.releases]
  next => contradiction

theorem shutdownStep?_of_stopOutcome? (send : Transport σ) (now : Nat) (store : σ) {outcome : StopOutcome}
    (closed : holder.stopOutcome? = some outcome) : holder.shutdownStep? send now store = none := by
  unfold stopOutcome? at closed
  unfold shutdownStep?
  split at closed
  next done => rw [done]
  next crashed => rw [crashed]
  next => contradiction

theorem state?_eq_released_iff :
    holder.state? = some .released ↔ ∃ failure, holder.stopOutcome? = some (.finished failure) := by
  unfold state? stopOutcome?
  cases holder.shutdown with
  | done failure => simp
  | crashed => simp
  | _ => cases holder.cancelled <;> simp

theorem state?_eq_none_iff : holder.state? = none ↔ holder.stopOutcome? = some .crashed := by
  unfold state? stopOutcome?
  cases holder.shutdown <;> simp

theorem state?_of_waits (waits : holder.stopOutcome? = none) :
    holder.state? = some (if holder.cancelled then .stopping else .renewing) := by
  unfold stopOutcome? at waits
  unfold state?
  cases shutdown : holder.shutdown <;> simp_all

theorem state?_eq_renewing_iff :
    holder.state? = some .renewing ↔ holder.stopOutcome? = none ∧ holder.cancelled = false := by
  unfold state? stopOutcome?
  cases holder.shutdown <;> simp

/-- What is not undone: a cancellation, the choice of the call that releases, and the end of the shutdown. -/
structure Evolves (holder later : Holder) : Prop where
  machineId_eq : later.machineId = holder.machineId
  cancelled : holder.cancelled = true → later.cancelled = true
  releasing : ∀ call, holder.shutdown = .releasing call → later.shutdown = .releasing call ∨
    ∃ instant reply, call.result? instant = some reply ∧
      later.stopOutcome? = some (reply.stopOutcome holder.machineId)
  closed : ∀ outcome, holder.stopOutcome? = some outcome → later.stopOutcome? = some outcome

theorem Evolves.of_same (machineId : later.machineId = holder.machineId)
    (cancelled : holder.cancelled = true → later.cancelled = true) (shutdown : later.shutdown = holder.shutdown) :
    holder.Evolves later where
  machineId_eq := machineId
  cancelled := cancelled
  releasing call same := .inl (shutdown.trans same)
  closed outcome := by
    rw [stopOutcome?, stopOutcome?, shutdown]
    exact id

theorem Evolves.trans {last : Holder} (first : holder.Evolves later) (second : later.Evolves last) :
    holder.Evolves last where
  machineId_eq := second.machineId_eq.trans first.machineId_eq
  cancelled before := second.cancelled (first.cancelled before)
  releasing call same := by
    rcases first.releasing call same with still | ⟨instant, reply, result, closed⟩
    · rw [← first.machineId_eq]
      exact second.releasing call still
    · exact .inr ⟨instant, reply, result, second.closed _ closed⟩
  closed outcome before := second.closed outcome (first.closed outcome before)

theorem RenewalStep.evolves (step : holder.RenewalStep send now store next) : holder.Evolves next.state := by
  obtain ⟨machineId, _, cancelled, shutdown⟩ := step.frame
  exact .of_same machineId cancelled.trans shutdown

theorem ShutdownStep.evolves (step : holder.ShutdownStep send now store next) : holder.Evolves next.state := by
  have machineId := step.frame.1
  have waits := step.stopOutcome?_eq_none
  have closed (outcome : StopOutcome) (before : holder.stopOutcome? = some outcome) :
      next.state.stopOutcome? = some outcome := by
    rw [waits] at before
    contradiction
  have cancelled (before : holder.cancelled = true) : next.state.cancelled = true := by
    rcases step.cancelled.2 with ⟨_, after⟩ | ⟨_, same⟩
    · exact after
    · exact same.trans before
  cases step with
  | cancels idle => exact ⟨machineId, cancelled, fun call same => by simp [idle] at same, closed⟩
  | releases joining gone => exact ⟨machineId, cancelled, fun call same => by simp [joining] at same, closed⟩
  | @ends call reply releasing finished =>
      refine ⟨machineId, cancelled, ?_, closed⟩
      intro call' same
      obtain rfl : call = call' := Shutdown.releasing.inj (releasing.symm.trans same)
      exact .inr ⟨now, reply, finished, holder.stopOutcome?_releaseEnded reply⟩

theorem Evolves.rank_le (evolves : holder.Evolves later) {state state' : State} (before : holder.state? = some state)
    (after : later.state? = some state') : state.rank ≤ state'.rank := by
  cases waits : holder.stopOutcome? with
  | some outcome =>
      have closed := evolves.closed outcome waits
      cases outcome with
      | finished failure =>
          rw [state?_eq_released_iff.2 ⟨failure, closed⟩] at after
          cases after
          cases state <;> decide
      | crashed =>
          rw [state?_eq_none_iff.2 waits] at before
          contradiction
  | none =>
      rw [state?_of_waits waits] at before
      cases waits' : later.stopOutcome? with
      | some outcome =>
          cases outcome with
          | finished failure =>
              rw [state?_eq_released_iff.2 ⟨failure, waits'⟩] at after
              cases after
              cases state <;> decide
          | crashed =>
              rw [state?_eq_none_iff.2 waits'] at after
              contradiction
      | none =>
          rw [state?_of_waits waits'] at after
          cases cancelled : holder.cancelled with
          | false =>
              rw [cancelled] at before
              cases before
              exact Nat.zero_le _
          | true =>
              rw [cancelled] at before
              rw [evolves.cancelled cancelled] at after
              cases before
              cases after
              exact Nat.le_refl _

end Holder

namespace Custody

variable {send : Transport σ} {terms : Terms} {valid : terms.Valid} {maxMachineId : Nat} {custody later : Custody σ}
  {holder : Holder} {next : Stepped Holder σ}

theorem evolves_run (lease : custody.lease = .leased holder) (actions : List Action) :
    ∃ later, (custody.run send terms valid maxMachineId actions).lease = .leased later ∧ holder.Evolves later := by
  have kept (first second : Custody σ) (before : ∃ later, first.lease = .leased later ∧ holder.Evolves later)
      (moves : first.Moves send terms valid maxMachineId second) :
      ∃ later, second.lease = .leased later ∧ holder.Evolves later := by
    obtain ⟨middle, leased, evolves⟩ := before
    have same {other : Holder} (lease : first.lease = .leased other) : middle = other :=
      Acquisition.leased.inj (leased.symm.trans lease)
    cases moves with
    | passes span => exact ⟨middle, leased, evolves⟩
    | acquires step =>
        rw [leased] at step
        cases step
    | renews lease step =>
        obtain rfl := same lease
        exact ⟨_, rfl, evolves.trans step.evolves⟩
    | shutsDown caller lease step =>
        obtain rfl := same lease
        exact ⟨_, rfl, evolves.trans step.evolves⟩
    | hears caller lease waits => exact ⟨middle, leased, evolves⟩
    | drops lease =>
        obtain rfl := same lease
        exact ⟨_, rfl, evolves.trans (.of_same rfl (fun _ => rfl) rfl)⟩
  exact run_induction kept ⟨holder, lease, .of_same rfl id rfl⟩ actions

structure Hears (custody : Custody σ) (holder : Holder) : Prop where
  pending : ∀ call ∈ holder.shutdown.calls, call.request = .release holder.machineId ∧ call.reply ≠ .crashed
  closed : ∀ outcome, holder.stopOutcome? = some outcome →
    custody.returned ≠ [] ∧ ∃ contact ∈ custody.past, contact.Releases holder.machineId outcome
  returned : ∀ answer ∈ custody.returned, holder.stopOutcome? = some answer.2

theorem Hears.of_same (hears : custody.Hears holder) {other : Holder} (machineId : other.machineId = holder.machineId)
    (shutdown : other.shutdown = holder.shutdown) (past : custody.past <+: later.past)
    (returned : later.returned = custody.returned) : later.Hears other := by
  have outcome : other.stopOutcome? = holder.stopOutcome? := by
    rw [Holder.stopOutcome?, shutdown, Holder.stopOutcome?]
  refine ⟨?_, ?_, ?_⟩
  · rw [shutdown, machineId]
    exact hears.pending
  · intro outcome' closed
    rw [outcome] at closed
    obtain ⟨answered, contact, member, releases⟩ := hears.closed outcome' closed
    rw [returned, machineId]
    exact ⟨answered, contact, past.subset member, releases⟩
  · rw [returned, outcome]
    exact hears.returned

theorem Hears.create (unanswered : custody.returned = []) (machineId : Nat) (now : Nat) :
    custody.Hears (.create machineId terms valid now) where
  pending call impossible := by contradiction
  closed outcome impossible := by contradiction
  returned answer member := by
    rw [unanswered] at member
    contradiction

theorem Hears.shutdown (hears : custody.Hears holder) (step : holder.ShutdownStep send custody.now custody.store next)
    (withstands : (send (.release holder.machineId) custody.store).1.reply ≠ .crashed) (caller : Nat) :
    ((custody.follow holder.shutdown.calls (next.map .leased)).heard caller next.state.stopOutcome?).Hears
      next.state := by
  have unanswered : custody.returned = [] := by
    rw [List.eq_nil_iff_forall_not_mem]
    intro answer member
    have closed := hears.returned answer member
    rw [step.stopOutcome?_eq_none] at closed
    contradiction
  cases step with
  | cancels idle =>
      refine ⟨?_, ?_, ?_⟩
      · intro call impossible
        contradiction
      · intro outcome impossible
        contradiction
      · intro answer member
        simp [heard, follow, unanswered, Holder.stopOutcome?] at member
  | releases joining gone =>
      refine ⟨?_, ?_, ?_⟩
      · intro call member
        obtain rfl := List.mem_singleton.1 member
        exact ⟨rfl, withstands⟩
      · intro outcome impossible
        contradiction
      · intro answer member
        simp [heard, follow, unanswered, Holder.stopOutcome?, Holder.beginRelease, Call.beginStep, Stepped.after] at member
  | @ends call reply releasing finished =>
      -- The call goes over to the past, and the caller whose poll has ended it is the first to return.
      have calls : holder.shutdown.calls = [call] := by rw [releasing, Shutdown.calls]
      obtain ⟨request, answers⟩ := hears.pending call (by simp [calls])
      have closed := holder.stopOutcome?_releaseEnded reply
      have machineId : (holder.releaseEnded reply).1.machineId = holder.machineId := by cases reply <;> rfl
      refine ⟨?_, ?_, ?_⟩
      · rw [Holder.calls_of_stopOutcome? closed]
        intro call impossible
        contradiction
      · intro outcome same
        obtain rfl := Option.some.inj (closed.symm.trans same)
        refine ⟨by simp [heard, closed], ⟨call, some custody.now⟩, ?_, ?_⟩
        · show _ ∈ custody.past ++ holder.shutdown.calls.map (⟨·, some custody.now⟩)
          simp [calls]
        · rw [machineId]
          refine ⟨request, custody.now, reply, rfl, finished, ?_, rfl⟩
          rintro rfl
          exact answers (Call.reply_of_result? finished)
      · intro answer member
        show (holder.releaseEnded reply).1.stopOutcome? = _
        simp only [heard, follow, unanswered, closed, Option.map_some, Option.toList_some, List.nil_append,
          List.mem_singleton] at member
        rw [member, closed]

theorem Hears.heard (hears : custody.Hears holder) (caller : Nat) :
    (custody.heard caller holder.stopOutcome?).Hears holder := by
  refine ⟨hears.pending, ?_, ?_⟩
  · intro outcome closed
    exact ⟨by simp [Custody.heard, closed], (hears.closed outcome closed).2⟩
  · intro answer member
    rcases List.mem_append.1 member with before | new
    · exact hears.returned answer before
    · obtain ⟨outcome, closed, rfl⟩ : ∃ outcome, holder.stopOutcome? = some outcome ∧ (caller, outcome) = answer := by
        simpa using new
      exact closed

structure Attended (send : Transport σ) (store : σ) (custody : Custody σ) : Prop where
  store_eq : custody.store = send.after store custody.requests
  hears : ∀ holder, custody.lease = .leased holder → custody.Hears holder

theorem Attended.begin (send : Transport σ) (terms : Terms) (now : Nat) (store : σ) :
    Attended send store (Custody.begin send terms now store) := by
  refine ⟨rfl, ?_⟩
  intro holder impossible
  contradiction

theorem store_eq_follow {store : σ} (same : custody.store = send.after store custody.requests) (ended : List Call)
    (next : Stepped Acquisition σ) (asks : next.Asks send custody.store) :
    (custody.follow ended next).store = send.after store (custody.follow ended next).requests := by
  rw [requests_follow, Transport.after_append, ← same]
  exact asks

theorem Attended.step {store : σ} (attended : custody.Attended send store)
    (withstands : send.Withstands store (·.isRelease)) (regular : custody.Regular terms)
    (moves : custody.Moves send terms valid maxMachineId later) : later.Attended send store := by
  -- The store has been asked nothing but the requests so far.
  have reply (machineId : Nat) : (send (.release machineId) custody.store).1.reply ≠ .crashed := by
    rw [attended.store_eq]
    exact withstands custody.requests (.release machineId) rfl
  cases moves with
  | passes span =>
      refine ⟨attended.store_eq, ?_⟩
      intro holder lease
      exact (attended.hears holder lease).of_same rfl rfl (List.prefix_refl _) rfl
  | acquires step =>
      refine ⟨store_eq_follow attended.store_eq custody.lease.calls _ step.asks, ?_⟩
      intro holder lease
      unfold Regular at regular
      generalize custody.lease = acquisition at step regular
      cases step with
      | leases finished fits =>
          obtain rfl := Acquisition.leased.inj lease
          refine .create ?_ _ _
          exact regular.2.2.2
      | @handsBack machineId call reply finished => cases reply <;> contradiction
      | _ => contradiction
  | @renews holder next leased step =>
      refine ⟨store_eq_follow attended.store_eq holder.renewer.calls (next.map .leased) step.asks, ?_⟩
      rintro _ ⟨⟩
      obtain ⟨machineId, _, _, shutdown⟩ := step.frame
      exact (attended.hears holder leased).of_same machineId shutdown (List.prefix_append _ _) rfl
  | @shutsDown holder next caller leased step =>
      refine ⟨store_eq_follow attended.store_eq holder.shutdown.calls (next.map .leased) step.asks, ?_⟩
      rintro _ ⟨⟩
      exact (attended.hears holder leased).shutdown step (reply holder.machineId) caller
  | @hears holder caller leased waits =>
      refine ⟨attended.store_eq, ?_⟩
      intro other lease
      obtain rfl := Acquisition.leased.inj (leased.symm.trans lease)
      exact (attended.hears holder leased).heard caller
  | @drops holder leased =>
      refine ⟨?_, ?_⟩
      · rw [requests_leave]
        exact attended.store_eq
      · rintro _ ⟨⟩
        exact (attended.hears holder leased).of_same rfl rfl (List.prefix_refl _) rfl

theorem Hears.stopOutcome?_ne_crashed (hears : custody.Hears holder) : holder.stopOutcome? ≠ some .crashed := by
  intro crashed
  obtain ⟨_, _, _, releases⟩ := hears.closed .crashed crashed
  obtain ⟨_, reply, _, _, answers, outcome⟩ := releases.ended
  cases reply with
  | crashed => exact answers rfl
  | ok _ | failed _ => contradiction

theorem Hears.state?_eq_released_iff (hears : custody.Hears holder) :
    holder.state? = some .released ↔ holder.stopOutcome?.isSome := by
  rw [Holder.state?_eq_released_iff]
  have answers := hears.stopOutcome?_ne_crashed
  cases outcome : holder.stopOutcome? with
  | none => simp
  | some outcome' =>
      cases outcome' with
      | finished failure => simp
      | crashed => exact absurd outcome answers

theorem Keeps.releases_eq (keeps : custody.Keeps terms holder) : custody.releases = holder.shutdown.releases := by
  obtain ⟨_, requests⟩ := keeps.requests_eq
  rw [releases, requests, countP_isRelease_course]

theorem countP_pos_of_release {contacts : List Contact} {contact : Contact} (member : contact ∈ contacts) {machineId : Nat}
    (release : contact.request = .release machineId) :
    0 < (contacts.map Contact.request).countP Request.isRelease :=
  List.countP_pos_iff.2 ⟨_, List.mem_map_of_mem member, by rw [release, Request.isRelease]⟩

theorem stopOutcome?_isSome_of_past (inTurn : custody.InTurn terms) (keeps : custody.Keeps terms holder)
    (hears : custody.Hears holder) (lease : custody.lease = .leased holder) {contact : Contact}
    (member : contact ∈ custody.past) {machineId : Nat} (release : contact.request = .release machineId) :
    holder.stopOutcome?.isSome := by
  have past := countP_pos_of_release member release
  have counted : (custody.contacts.map Contact.request).countP Request.isRelease = holder.shutdown.releases := by
    rw [← inTurn.requests_eq]
    exact keeps.releases_eq
  rw [contacts, List.map_append, List.countP_append] at counted
  cases shutdown : holder.shutdown with
  | idle | joining =>
      rw [shutdown, Shutdown.releases] at counted
      omega
  | releasing call =>
      -- The call that is under way would be a second release.
      have calls : call ∈ holder.shutdown.calls := by simp [shutdown, Shutdown.calls]
      have pending : ⟨call, none⟩ ∈ custody.lease.calls.map (Contact.mk · none) := by
        rw [lease]
        exact List.mem_map_of_mem (List.mem_append_right _ calls)
      have second := countP_pos_of_release pending (hears.pending call calls).1
      rw [shutdown, Shutdown.releases] at counted
      omega
  | done failure => simp [Holder.stopOutcome?, shutdown]
  | crashed => simp [Holder.stopOutcome?, shutdown]

theorem Hears.released_iff_seen (hears : custody.Hears holder) (inTurn : custody.InTurn terms)
    (keeps : custody.Keeps terms holder) (lease : custody.lease = .leased holder) :
    holder.state? = some .released ↔ ∃ contact ∈ custody.past, contact.request = .release holder.machineId := by
  rw [hears.state?_eq_released_iff]
  constructor
  · intro ended
    obtain ⟨outcome, same⟩ := Option.isSome_iff_exists.1 ended
    obtain ⟨_, contact, member, releases⟩ := hears.closed outcome same
    exact ⟨contact, member, releases.request_eq⟩
  · rintro ⟨contact, member, release⟩
    exact stopOutcome?_isSome_of_past inTurn keeps hears lease member release

theorem Keeps.polled_of_stopOutcome? (keeps : custody.Keeps terms holder) {outcome : StopOutcome}
    (ended : holder.stopOutcome? = some outcome) : custody.polled = true := by
  apply keeps.polled_iff.2
  intro idle
  rw [Holder.stopOutcome?, idle] at ended
  contradiction

theorem Keeps.state?_eq_renewing_iff (keeps : custody.Keeps terms holder) (inUse : custody.dropped = false) :
    holder.state? = some .renewing ↔ custody.polled = false := by
  have cancelled := keeps.cancelled_eq
  rw [inUse, Bool.or_false] at cancelled
  rw [Holder.state?_eq_renewing_iff, cancelled]
  refine ⟨And.right, fun unpolled => ⟨?_, unpolled⟩⟩
  cases ended : holder.stopOutcome? with
  | none => rfl
  | some outcome =>
      rw [keeps.polled_of_stopOutcome? ended] at unpolled
      contradiction

theorem Keeps.step_stop (keeps : custody.Keeps terms holder) (lease : custody.lease = .leased holder)
    {outcome : StopOutcome} (ended : holder.stopOutcome? = some outcome) (caller : Nat) :
    custody.step send terms valid maxMachineId (.stop caller) =
      { custody with returned := custody.returned ++ [(caller, outcome)] } := by
  have polled := keeps.polled_of_stopOutcome? ended
  have waits := Holder.shutdownStep?_of_stopOutcome? send custody.now custody.store ended
  simp [step, lease, waits, turn, stopOutcome?, ended, Custody.heard, polled]

variable (send valid maxMachineId) in
structure Unanimous (custody : Custody σ) (holder : Holder) : Prop where
  answers : ∀ answer ∈ custody.returned,
    custody.releases = 1 ∧ ∃ contact ∈ custody.past, contact.Releases holder.machineId answer.2
  agree : ∀ answer ∈ custody.returned, ∀ other ∈ custody.returned, answer.2 = other.2
  in_flight : ∀ call, holder.shutdown = .releasing call → ∀ actions,
    (custody.run send terms valid maxMachineId actions).releases = 1 ∧
      ∀ answer ∈ (custody.run send terms valid maxMachineId actions).returned,
        ∃ instant reply, call.result? instant = some reply ∧ answer.2 = reply.stopOutcome holder.machineId
  at_once : ∀ outcome, holder.stopOutcome? = some outcome → ∀ caller,
    custody.step send terms valid maxMachineId (.stop caller) =
      { custody with returned := custody.returned ++ [(caller, outcome)] }
  observable : holder.state?.isSome
  renewing_iff : custody.dropped = false → (holder.state? = some .renewing ↔ custody.polled = false)
  released_iff_seen : holder.state? = some .released ↔
    ∃ contact ∈ custody.past, contact.request = .release holder.machineId
  released_iff_returned : holder.state? = some .released ↔ custody.returned ≠ []
  forward : ∀ actions, ∃ later, (custody.run send terms valid maxMachineId actions).lease = .leased later ∧
    ∀ state state', holder.state? = some state → later.state? = some state' → state.rank ≤ state'.rank

theorem attended_run (send : Transport σ) (terms : Terms) (valid : terms.Valid) (maxMachineId now : Nat) (store : σ)
    (withstands : send.Withstands store (·.isRelease)) (actions : List Action) :
    ((Custody.begin send terms now store).run send terms valid maxMachineId actions).Attended send store := by
  have kept (custody later : Custody σ) (holds : custody.Regular terms ∧ custody.Attended send store)
      (moves : custody.Moves send terms valid maxMachineId later) :
      later.Regular terms ∧ later.Attended send store :=
    ⟨holds.1.step moves, holds.2.step withstands holds.1 moves⟩
  exact (run_induction kept ⟨Regular.begin send terms now store, .begin send terms now store⟩ actions).2

/-- If the store does not break down in a release, then all stops of a lease that return have heard the end of its only
release, whoever polls them and whoever gives up. The lease is renewed until a stop is polled, and it is released once
a stop has seen the end of the release. -/
theorem stops_unanimous (send : Transport σ) (terms : Terms) (valid : terms.Valid) (maxMachineId now : Nat) (store : σ)
    (withstands : send.Withstands store (·.isRelease)) (actions : List Action) {holder : Holder}
    (leased : ((begin send terms now store).run send terms valid maxMachineId actions).lease = .leased holder) :
    ((begin send terms now store).run send terms valid maxMachineId actions).Unanimous send valid maxMachineId
      holder := by
  have everywhere (later : List Action) :=
    And.intro (inTurn_and_regular_run send terms valid maxMachineId now store (actions ++ later))
      (attended_run send terms valid maxMachineId now store withstands (actions ++ later))
  simp only [run_append] at everywhere
  obtain ⟨⟨inTurn, regular⟩, attended⟩ := everywhere []
  generalize (begin send terms now store).run send terms valid maxMachineId actions = custody at *
  have keeps : custody.Keeps terms holder := regular.keeps leased
  have hears : custody.Hears holder := attended.hears holder leased
  refine ⟨?_, ?_, ?_, ?_, ?_, ?_, ?_, ?_, ?_⟩
  · intro answer member
    have outcome := hears.returned answer member
    refine ⟨?_, (hears.closed answer.2 outcome).2⟩
    rw [keeps.releases_eq]
    exact Holder.releases_of_stopOutcome? outcome
  · intro answer member other member'
    exact Option.some.inj ((hears.returned answer member).symm.trans (hears.returned other member'))
  · intro call releasing later
    obtain ⟨last, lease, evolves⟩ := evolves_run leased later
    obtain ⟨⟨_, regular'⟩, attended'⟩ := everywhere later
    have keeps' := regular'.keeps lease
    have hears' := attended'.hears last lease
    -- No later stop begins a call of its own: the one under way either is still or has ended the shutdown.
    rcases evolves.releasing call releasing with still | ⟨instant, reply, result, ended⟩
    · refine ⟨by rw [keeps'.releases_eq, still, Shutdown.releases], ?_⟩
      intro answer member
      have outcome := hears'.returned answer member
      rw [Holder.stopOutcome?, still] at outcome
      contradiction
    · refine ⟨?_, ?_⟩
      · rw [keeps'.releases_eq]
        exact Holder.releases_of_stopOutcome? ended
      · intro answer member
        exact ⟨instant, reply, result, Option.some.inj ((hears'.returned answer member).symm.trans ended)⟩
  · exact fun outcome ended => keeps.step_stop leased ended
  · rw [Option.isSome_iff_ne_none]
    exact mt Holder.state?_eq_none_iff.1 hears.stopOutcome?_ne_crashed
  · exact keeps.state?_eq_renewing_iff
  · exact hears.released_iff_seen inTurn keeps leased
  · rw [hears.state?_eq_released_iff]
    constructor
    · intro ended
      obtain ⟨outcome, same⟩ := Option.isSome_iff_exists.1 ended
      exact (hears.closed outcome same).1
    · exact keeps.returned
  · intro later
    obtain ⟨last, lease, evolves⟩ := evolves_run leased later
    exact ⟨last, lease, fun state state' before after => evolves.rank_le before after⟩

def reluctant : Simulation.Script where
  machineId := 7
  renew := [⟨Time.second, .crash⟩]
  release := [⟨2 * Time.second, .failure "gone"⟩, ⟨0, .success⟩]

/-- A stop waits for a renewal that breaks down and is abandoned when the release has begun. The two that follow it hear
the failure of that release, and so does one that comes later. -/
theorem abandoned_stop_unanimous :
    let actions : List Action :=
      [.acquire, .pass (10 * Time.second), .renew, .stop 0, .stop 0, .pass Time.second, .renew, .stop 0,
        .pass Time.second, .stop 1, .pass Time.second, .stop 2, .stop 1, .pass Time.second, .stop 3]
    let custody :=
      (begin Simulation.Script.send {} 0 reluctant).run Simulation.Script.send {} Terms.valid_default 100 actions
    Simulation.Script.send.Withstands reluctant (·.isRelease) ∧
      ∃ holder : Holder, custody.lease = .leased holder ∧
        custody.returned = [2, 1, 3].map (·, .finished (some (.releaseFailed 7 (.refused "gone")))) ∧
        custody.Unanimous Simulation.Script.send Terms.valid_default 100 holder := by
  intro actions custody
  have withstands : Simulation.Script.send.Withstands reluctant (·.isRelease) := by
    apply Simulation.Script.withstands
    intro request release
    cases request with
    | acquire _ | renew _ _ => contradiction
    | release machineId =>
        show ∀ behaviour ∈ reluctant.release, behaviour.ending ≠ .crash
        decide
  let holder : Holder :=
    ⟨7, {}, Terms.valid_default, true, .crashed, 0, 0, .done (some (.releaseFailed 7 (.refused "gone")))⟩
  have leased : custody.lease = .leased holder := by decide
  have unanimous := stops_unanimous Simulation.Script.send {} Terms.valid_default 100 0 reluctant withstands actions leased
  exact ⟨withstands, holder, leased, by decide, unanimous⟩

end Custody
end LeasedIds.Lease
