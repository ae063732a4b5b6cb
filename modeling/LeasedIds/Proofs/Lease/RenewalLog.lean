import LeasedIds.Proofs.Lease.CallOrder

namespace LeasedIds.Lease

structure Renewal where
  endedAt : Nat
  failure? : Option StoreError
deriving DecidableEq, Repr

namespace Renewal

def ofReply? (now : Nat) : Reply → Option Renewal
  | .ok _ => some ⟨now, none⟩
  | .failed cause => some ⟨now, some cause⟩
  | .crashed => none

def failures (history : List Renewal) : Nat := (history.takeWhile (·.failure?.isSome)).length

/-- When the last success was, or else when the renewals started. -/
def lastSuccess (start : Nat) (history : List Renewal) : Nat :=
  ((history.find? (·.failure?.isNone)).map endedAt).getD start

variable (machineId ttl start : Nat)

/-- What is logged when a renewal ends after others have. -/
def report (earlier : List Renewal) (renewal : Renewal) : List Event :=
  match renewal.failure? with
  | none =>
    if failures earlier = 0 then [.renewed machineId] else [.recovered machineId (failures earlier)]
  | some cause =>
    .renewalFailed machineId (failures earlier + 1) cause ::
      if lastSuccess start earlier + ttl ≤ renewal.endedAt then [.overdue machineId (failures earlier + 1)] else []

def log : List Renewal → List Event
  | [] => []
  | renewal :: earlier => log earlier ++ report machineId ttl start earlier renewal

end Renewal

def Event.isRenewal : Event → Bool
  | renewed _ | recovered _ _ | renewalFailed _ _ _ | overdue _ _ | renewalStopped _ => true
  | leased _ _ _ | tooLarge _ _ | handBackFailed _ _ | renewalCrashed _ | released _ | releaseFailed _ _
  | buildReleaseFailed _ _ | dropped _ => false

def Note.renewalEvent? : Note → Option Event
  | .event logged => if logged.isRenewal then some logged else none
  | .call _ _ => none

def Contact.renewal? (contact : Contact) : Option Renewal :=
  if contact.request.isRenewal then
    contact.overAt?.bind fun instant => (contact.call.result? instant).bind (Renewal.ofReply? instant)
  else none

namespace Custody

variable {σ : Type}

def history (custody : Custody σ) : List Renewal := (custody.past.filterMap Contact.renewal?).reverse

def renewalEvents (custody : Custody σ) : List Event := custody.notes.filterMap Note.renewalEvent?

def startedAt? (custody : Custody σ) : Option Nat := custody.past.head?.bind Contact.overAt?

end Custody

theorem filterMap_renewalEvent?_end (call : Call) (now : Nat) (events : List Event) :
    (call.endNotes now ++ events.map Note.event).filterMap Note.renewalEvent? = events.filter Event.isRenewal := by
  have silent : (call.endNotes now).filterMap Note.renewalEvent? = [] := by
    unfold Call.endNotes
    split <;> rfl
  have picks : Note.renewalEvent? ∘ Note.event = Option.guard (Event.isRenewal ·) := rfl
  rw [List.filterMap_append, silent, List.nil_append, List.filterMap_map, picks, List.filterMap_eq_filter]

namespace Holder

variable {send : Transport σ} {now : Nat} {holder : Holder} {store : σ} {next : Stepped Holder σ}
  {history : List Renewal} {start : Nat}

/-- What a holder knows of the renewals so far. -/
structure Recalls (start : Nat) (history : List Renewal) (holder : Holder) : Prop where
  failures_eq : holder.failures = Renewal.failures history
  lastRenewed_eq : holder.lastRenewed = Renewal.lastSuccess start history

theorem Recalls.create (machineId : Nat) (terms : Terms) (valid : terms.Valid) (now : Nat) :
    Recalls now [] (.create machineId terms valid now) :=
  ⟨rfl, rfl⟩

theorem Recalls.ended (recalls : holder.Recalls start history) (now due : Nat) (reply : Reply) :
    let ended := holder.renewalEnded now due reply
    let history' := (Renewal.ofReply? now reply).toList ++ history
    Recalls start history' ended.1 ∧ ended.2.filter Event.isRenewal = ended.2 ∧
      Renewal.log holder.machineId holder.terms.ttl start history' =
        Renewal.log holder.machineId holder.terms.ttl start history ++ ended.2 := by
  obtain ⟨failures, lastRenewed⟩ := recalls
  cases reply with
  | ok machineId =>
      refine ⟨⟨rfl, rfl⟩, ?_, ?_⟩
      · by_cases before : 0 < holder.failures <;> simp [renewalEnded, before, Event.isRenewal]
      · by_cases before : Renewal.failures history = 0 <;>
          simp [renewalEnded, Renewal.ofReply?, Renewal.log, Renewal.report, failures, before, Nat.pos_iff_ne_zero]
  | failed cause =>
      refine ⟨⟨?_, ?_⟩, ?_, ?_⟩
      · simp [renewalEnded, Renewal.ofReply?, Renewal.failures, failures]
      · simp [renewalEnded, Renewal.ofReply?, Renewal.lastSuccess, lastRenewed]
      · by_cases late : holder.lastRenewed + holder.terms.ttl ≤ now <;> simp [renewalEnded, late, Event.isRenewal]
      · simp [renewalEnded, Renewal.ofReply?, Renewal.log, Renewal.report, failures, lastRenewed]
  | crashed => exact ⟨⟨failures, lastRenewed⟩, rfl, (List.append_nil _).symm⟩

theorem ShutdownStep.leaves_renewals (step : holder.ShutdownStep send now store next) :
    next.state.failures = holder.failures ∧ next.state.lastRenewed = holder.lastRenewed ∧
      next.notes.filterMap Note.renewalEvent? = [] := by
  cases step with
  | cancels idle => exact ⟨rfl, rfl, rfl⟩
  | @releases notes joining gone =>
      refine ⟨rfl, rfl, ?_⟩
      rcases gone with ⟨_, rfl⟩ | ⟨_, rfl⟩ <;> rfl
  | @ends call reply releasing finished =>
      refine ⟨?_, ?_, (filterMap_renewalEvent?_end call now _).trans ?_⟩ <;> cases reply <;> rfl

end Holder

namespace Custody

variable {terms : Terms} {custody : Custody σ} {send : Transport σ} {valid : terms.Valid} {maxMachineId : Nat}
  {holder : Holder} {next : Stepped Holder σ} {start : Nat}

theorem renewalEvents_follow (custody : Custody σ) (ended : List Call) (next : Stepped Acquisition σ) :
    (custody.follow ended next).renewalEvents =
      custody.renewalEvents ++ next.notes.filterMap Note.renewalEvent? :=
  List.filterMap_append

theorem renewalEvents_leave (custody : Custody σ) (holder : Holder) :
    (custody.leave holder).renewalEvents = custody.renewalEvents := by
  rw [renewalEvents, leave, List.filterMap_append, renewalEvents]
  split <;> simp [Note.renewalEvent?, Event.isRenewal]

theorem history_follow_of_not_isRenewal (custody : Custody σ) {ended : List Call} (next : Stepped Acquisition σ)
    (others : ∀ call ∈ ended, call.request.isRenewal = false) :
    (custody.follow ended next).history = custody.history := by
  have none : (ended.map (⟨·, some custody.now⟩)).filterMap Contact.renewal? = [] := by
    rw [List.filterMap_eq_nil_iff]
    intro contact member
    obtain ⟨call, ended, rfl⟩ := List.mem_map.1 member
    simp [Contact.renewal?, Contact.request, others call ended]
  rw [history, follow, List.filterMap_append, none, List.append_nil, history]

theorem history_follow_of_isRenewal {call : Call} {reply : Reply} (next : Stepped Acquisition σ)
    (renews : call.request.isRenewal = true) (finished : call.result? custody.now = some reply) :
    (custody.follow [call] next).history = (Renewal.ofReply? custody.now reply).toList ++ custody.history := by
  have last : Contact.renewal? ⟨call, some custody.now⟩ = Renewal.ofReply? custody.now reply := by
    simp [Contact.renewal?, Contact.request, renews, finished]
  rw [history, follow, List.filterMap_append, List.reverse_append, history]
  cases end? : Renewal.ofReply? custody.now reply <;> simp [last, end?]

theorem startedAt?_follow (started : custody.startedAt? = some start) (ended : List Call)
    (next : Stepped Acquisition σ) : (custody.follow ended next).startedAt? = some start := by
  unfold startedAt? at started ⊢
  obtain ⟨first, head, seen⟩ := Option.bind_eq_some_iff.1 started
  rw [follow, List.head?_append, head]
  exact seen

structure Records (start : Nat) (custody : Custody σ) (holder : Holder) : Prop where
  started : custody.startedAt? = some start
  recalls : holder.Recalls start custody.history
  events_eq : custody.renewalEvents =
    Renewal.log holder.machineId holder.terms.ttl start custody.history ++
      if holder.renewer = .ended then [.renewalStopped holder.machineId] else []
  renewing : ∀ call ∈ holder.renewer.calls, call.request.isRenewal = true
  releasing : ∀ call ∈ holder.shutdown.calls, call.request.isRenewal = false
  cancelled : holder.renewer = .ended → holder.cancelled = true

theorem Records.renewal (records : custody.Records start holder)
    (step : holder.RenewalStep send custody.now custody.store next) :
    Records start (custody.follow holder.renewer.calls (next.map .leased)) next.state := by
  obtain ⟨machineId, sameTerms, cancelled, shutdown⟩ := step.frame
  obtain ⟨begun?, _, begun, request⟩ := step.makes
  have unended : holder.renewer ≠ .ended := fun ended => step.not_gone (.inl ended)
  have events := records.events_eq
  rw [if_neg unended, List.append_nil] at events
  refine ⟨startedAt?_follow records.started _ _, ?_, ?_, ?_, shutdown ▸ records.releasing, ?_⟩
  · cases step with
    | stops waits | begins waits | breaks waits =>
        rw [history_follow_of_not_isRenewal _ _ (by simp [waits, Renewer.calls])]
        exact ⟨records.recalls.failures_eq, records.recalls.lastRenewed_eq⟩
    | @ends call due reply calls finished =>
        have renews : call.request.isRenewal = true := records.renewing call (by simp [calls, Renewer.calls])
        rw [calls, Renewer.calls, history_follow_of_isRenewal _ renews finished]
        exact (records.recalls.ended custody.now due reply).1
  · rw [machineId, sameTerms, renewalEvents_follow, events]
    cases step with
    | stops waits =>
        rw [history_follow_of_not_isRenewal _ _ (by simp [waits, Renewer.calls])]
        rfl
    | begins waits | breaks waits =>
        rw [history_follow_of_not_isRenewal _ _ (by simp [waits, Renewer.calls])]
        rfl
    | @ends call due reply calls finished =>
        have renews : call.request.isRenewal = true := records.renewing call (by simp [calls, Renewer.calls])
        obtain ⟨_, logged, log⟩ := records.recalls.ended custody.now due reply
        have goes_on : (holder.renewalEnded custody.now due reply).1.renewer ≠ .ended := by
          cases reply <;> simp [Holder.renewalEnded]
        rw [calls, Renewer.calls, history_follow_of_isRenewal _ renews finished, log, if_neg goes_on,
          List.append_nil]
        congr 1
        exact (filterMap_renewalEvent?_end call custody.now _).trans logged
  · intro call member
    rw [begun, Option.mem_toList] at member
    rw [(request call member).1]
    rfl
  · intro ended
    rw [cancelled]
    cases step with
    | stops waits stopping => exact stopping
    | begins waits | breaks waits => contradiction
    | @ends call due reply calls finished => cases reply <;> contradiction

theorem Records.shutdown (records : custody.Records start holder)
    (step : holder.ShutdownStep send custody.now custody.store next) :
    Records start (custody.follow holder.shutdown.calls (next.map .leased)) next.state := by
  obtain ⟨machineId, sameTerms, renewer⟩ := step.frame
  obtain ⟨failures, lastRenewed, silent⟩ := step.leaves_renewals
  have history := history_follow_of_not_isRenewal custody (next.map .leased) records.releasing
  refine ⟨startedAt?_follow records.started _ _, ?_, ?_, renewer ▸ records.renewing, ?_, ?_⟩
  · rw [history]
    exact ⟨failures.trans records.recalls.failures_eq, lastRenewed.trans records.recalls.lastRenewed_eq⟩
  · have none : (next.map Acquisition.leased).notes.filterMap Note.renewalEvent? = [] := silent
    rw [renewalEvents_follow, none, List.append_nil, history, machineId, sameTerms, renewer]
    exact records.events_eq
  · obtain ⟨begun?, _, begun, requests, _⟩ := step.makes
    intro call member
    rw [begun] at member
    have release := requests ▸ List.mem_append_right _ (List.mem_map_of_mem member)
    rw [List.eq_of_mem_replicate release]
    rfl
  · intro ended
    rw [renewer] at ended
    rcases step.cancelled.2 with ⟨_, now⟩ | ⟨_, before⟩
    · exact now
    · exact before.trans (records.cancelled ended)

def Recorded (custody : Custody σ) : Prop :=
  match custody.lease with
  | .acquiring call => custody.past = [] ∧ custody.renewalEvents = [] ∧ call.request.isRenewal = false
  | .leased holder => ∃ start, custody.Records start holder
  | .handingBack _ _ | .refused _ | .crashed => True

theorem Recorded.begin (send : Transport σ) (terms : Terms) (now : Nat) (store : σ) :
    Recorded (Custody.begin send terms now store) :=
  ⟨rfl, rfl, rfl⟩

theorem Recorded.records (recorded : custody.Recorded) (lease : custody.lease = .leased holder) :
    ∃ start, custody.Records start holder := by
  unfold Recorded at recorded
  rwa [lease] at recorded

theorem Records.recorded (records : custody.Records start holder) (lease : custody.lease = .leased holder) :
    custody.Recorded := by
  unfold Recorded
  rw [lease]
  exact ⟨start, records⟩

theorem Records.of_same {later : Custody σ} (records : custody.Records start holder) (past : later.past = custody.past)
    (events : later.renewalEvents = custody.renewalEvents) : later.Records start holder where
  started := by
    rw [startedAt?, past]
    exact records.started
  recalls := by
    rw [history, past]
    exact records.recalls
  events_eq := by
    rw [events, history, past]
    exact records.events_eq
  renewing := records.renewing
  releasing := records.releasing
  cancelled := records.cancelled

theorem Recorded.of_same {later : Custody σ} (recorded : custody.Recorded) (lease : later.lease = custody.lease)
    (past : later.past = custody.past) (events : later.renewalEvents = custody.renewalEvents) : later.Recorded := by
  unfold Recorded at recorded ⊢
  rw [lease]
  split at recorded
  · rw [past, events]
    exact recorded
  · exact recorded.imp fun start records => records.of_same past events
  all_goals trivial

theorem Recorded.acquire (recorded : custody.Recorded) {next : Stepped Acquisition σ}
    (step : custody.lease.AcquisitionStep send terms valid maxMachineId custody.now custody.store next) :
    (custody.follow custody.lease.calls next).Recorded := by
  unfold Recorded at recorded
  generalize lease : custody.lease = acquisition at step recorded
  cases step with
  | @leases call machineId finished fits =>
      obtain ⟨past, events, other⟩ := recorded
      have silent := filterMap_renewalEvent?_end call custody.now
        [.leased machineId terms.ttl terms.renewalInterval]
      have history : (custody.follow [call] ⟨.leased (.create machineId terms valid custody.now), custody.store,
          call.endNotes custody.now ++ [.event (.leased machineId terms.ttl terms.renewalInterval)]⟩).history = [] := by
        rw [history_follow_of_not_isRenewal _ _ (by simpa using other), Custody.history, past]
        rfl
      have waits : (Holder.create machineId terms valid custody.now).renewer.calls = [] ∧
          (Holder.create machineId terms valid custody.now).renewer ≠ .ended := by
        rw [Holder.create]
        cases Time.later? custody.now terms.renewalInterval <;> exact ⟨rfl, by simp⟩
      refine ⟨custody.now, ?_, ?_, ?_, ?_, ?_, ?_⟩
      · simp [startedAt?, follow, past, Acquisition.calls]
      · rw [Acquisition.calls, history]
        exact .create machineId terms valid custody.now
      · rw [Acquisition.calls, renewalEvents_follow, events, history, if_neg waits.2]
        exact silent
      · simp [waits.1]
      · simp [Holder.create, Shutdown.calls]
      · exact fun ended => absurd ended waits.2
  | rejects finished large => trivial
  | fails finished => trivial
  | crashes finished => trivial
  | @handsBack machineId call reply finished => cases reply <;> trivial

theorem Records.drop (records : custody.Records start holder) : Records start (custody.leave holder) holder.cancel where
  started := records.started
  recalls := ⟨records.recalls.failures_eq, records.recalls.lastRenewed_eq⟩
  events_eq := by
    rw [renewalEvents_leave]
    exact records.events_eq
  renewing := records.renewing
  releasing := records.releasing
  cancelled _ := rfl

theorem Recorded.step (recorded : custody.Recorded) {later : Custody σ}
    (moves : custody.Moves send terms valid maxMachineId later) : later.Recorded := by
  cases moves with
  | passes span => exact recorded.of_same rfl rfl rfl
  | acquires step => exact recorded.acquire step
  | renews lease step =>
      obtain ⟨start, records⟩ := recorded.records lease
      exact (records.renewal step).recorded rfl
  | shutsDown caller lease step =>
      obtain ⟨start, records⟩ := recorded.records lease
      have recorded := (records.shutdown step).recorded rfl
      exact recorded.of_same rfl rfl rfl
  | hears caller lease waits => exact recorded.of_same rfl rfl rfl
  | drops lease =>
      obtain ⟨start, records⟩ := recorded.records lease
      exact records.drop.recorded rfl

/-- Whatever the store answers and whatever happens to a lease, the failures that it counts are the renewals that have
failed or timed out since the last success, and its log tells how each renewal has ended. The renewer ends when it has been
cancelled, and this is logged once. -/
theorem renewals_logged (send : Transport σ) (terms : Terms) (valid : terms.Valid) (maxMachineId now : Nat)
    (store : σ) (actions : List Action) {holder : Holder}
    (leased : ((begin send terms now store).run send terms valid maxMachineId actions).lease = .leased holder) :
    let custody := (begin send terms now store).run send terms valid maxMachineId actions
    ∃ start, custody.startedAt? = some start ∧ holder.failures = Renewal.failures custody.history ∧
      custody.renewalEvents = Renewal.log holder.machineId terms.ttl start custody.history ++
        (if holder.renewer = .ended then [.renewalStopped holder.machineId] else []) ∧
      (holder.renewer = .ended → custody.polled = true ∨ custody.dropped = true) := by
  intro custody
  have keeps := (inTurn_and_regular_run send terms valid maxMachineId now store actions).2.keeps leased
  have recorded : custody.Recorded :=
    run_induction (fun _ _ recorded moves => recorded.step moves) (Recorded.begin send terms now store) actions
  obtain ⟨start, records⟩ := recorded.records leased
  refine ⟨start, records.started, records.recalls.failures_eq, keeps.terms_eq ▸ records.events_eq, ?_⟩
  intro ended
  have cancelled := records.cancelled ended
  rwa [keeps.cancelled_eq, Bool.or_eq_true] at cancelled

def shaky : Simulation.Script where
  machineId := 7
  renew := [⟨Time.second, .failure "busy"⟩, ⟨Time.ofMillis 60000, .success⟩, ⟨Time.second, .failure "busy"⟩, {}]

theorem shaky_renewals_logged :
    let actions : List Action :=
      [.acquire, .pass (10 * Time.second), .renew, .pass Time.second, .renew, .pass (9 * Time.second), .renew,
        .pass (5 * Time.second), .renew, .pass (5 * Time.second), .renew, .pass Time.second, .renew,
        .pass (9 * Time.second), .renew, .renew, .pass (10 * Time.second), .renew, .renew, .stop 0, .renew, .stop 0, .stop 0]
    let custody :=
      (begin Simulation.Script.send {} 0 shaky).run Simulation.Script.send {} Terms.valid_default 100 actions
    custody.history =
        [⟨50 * Time.second, none⟩, ⟨40 * Time.second, none⟩, ⟨31 * Time.second, some (.refused "busy")⟩,
          ⟨25 * Time.second, some (.timedOut (5 * Time.second))⟩, ⟨11 * Time.second, some (.refused "busy")⟩] ∧
      custody.renewalEvents =
        [.renewalFailed 7 1 (.refused "busy"), .renewalFailed 7 2 (.timedOut (5 * Time.second)),
          .renewalFailed 7 3 (.refused "busy"), .overdue 7 3, .recovered 7 3, .renewed 7, .renewalStopped 7] := by
  intro actions custody
  have history : custody.history =
      [⟨50 * Time.second, none⟩, ⟨40 * Time.second, none⟩, ⟨31 * Time.second, some (.refused "busy")⟩,
        ⟨25 * Time.second, some (.timedOut (5 * Time.second))⟩, ⟨11 * Time.second, some (.refused "busy")⟩] := by
    decide
  let holder : Holder := ⟨7, {}, Terms.valid_default, true, .ended, 0, 50 * Time.second, .done none⟩
  have leased : custody.lease = .leased holder := by decide
  obtain ⟨start, started, _, events, _⟩ :=
    renewals_logged Simulation.Script.send {} Terms.valid_default 100 0 shaky actions leased
  obtain rfl : start = 0 := Option.some.inj (started.symm.trans (by decide))
  refine ⟨history, events.trans ?_⟩
  rw [show (Custody.run _ _ _ _ _ _).history = _ from history]
  decide

end Custody
end LeasedIds.Lease
