import LeasedIds.Lease.Acquisition

namespace LeasedIds.Lease

variable {σ : Type}

def Renewer.calls : Renewer → List Call
  | .calling call _ => [call]
  | .waiting _ | .ended | .crashed => []

def Shutdown.calls : Shutdown → List Call
  | .releasing call => [call]
  | .idle | .joining | .done _ | .crashed => []

def Acquisition.calls : Acquisition → List Call
  | .acquiring call | .handingBack _ call => [call]
  | .leased holder => holder.renewer.calls ++ holder.shutdown.calls
  | .refused _ | .crashed => []

def Note.begun? : Note → Option Request
  | .call request .begun => some request
  | .call _ _ | .event _ => none

theorem filterMap_begun?_end (call : Call) (now : Nat) (events : List Event) :
    (call.endNotes now ++ events.map Note.event).filterMap Note.begun? = [] := by
  rw [List.filterMap_eq_nil_iff]
  intro note member
  rcases List.mem_append.1 member with ending | event
  · unfold Call.endNotes at ending
    split at ending
    · obtain rfl := List.mem_singleton.1 ending
      cases call.reply <;> rfl
    · contradiction
  · obtain ⟨event, _, rfl⟩ := List.mem_map.1 event
    rfl

/-- A step that sees the calls `ended` to their end and begins the call `begun?`. -/
structure Stepped.Makes {α : Type} (terms : Terms) (now : Nat) (ended : List Call) (begun? : Option Call)
    (next : Stepped α σ) : Prop where
  finished : ∀ call ∈ ended, (call.result? now).isSome
  fresh : ∀ call ∈ begun?, call.begunAt = now ∧ call.deadline = Time.sleepEnd now terms.storeTimeout
  noted : next.notes.filterMap Note.begun? = begun?.toList.map Call.request

namespace Stepped.Makes

variable {α β : Type} {terms : Terms} {now : Nat} {ended : List Call} {begun? : Option Call} {next : Stepped α σ}

theorem map (makes : next.Makes terms now ended begun?) (f : α → β) : (next.map f).Makes terms now ended begun? :=
  ⟨makes.finished, makes.fresh, makes.noted⟩

theorem of_silent (finished : ∀ call ∈ ended, (call.result? now).isSome)
    (silent : next.notes.filterMap Note.begun? = []) : next.Makes terms now ended none :=
  ⟨finished, fun _ impossible => by contradiction, silent⟩

theorem of_beginStep (finished : ∀ call ∈ ended, (call.result? now).isSome) (send : Transport σ) (request : Request)
    (store : σ) (state : Call → α) :
    (Call.beginStep send terms.storeTimeout now request store state).Makes terms now ended
      (some (Call.begin send terms.storeTimeout now request store).1) := by
  refine ⟨finished, ?_, rfl⟩
  rintro _ ⟨⟩
  exact ⟨rfl, rfl⟩

theorem after (makes : next.Makes terms now ended begun?) {notes : List Note}
    (silent : notes.filterMap Note.begun? = []) : (next.after notes).Makes terms now ended begun? := by
  refine ⟨makes.finished, makes.fresh, ?_⟩
  rw [Stepped.after, List.filterMap_append, silent]
  exact makes.noted

end Stepped.Makes

namespace Holder

inductive RenewalStep (send : Transport σ) (now : Nat) (holder : Holder) (store : σ) : Stepped Holder σ → Prop where
  | stops {due : Nat} (waits : holder.renewer = .waiting due) (cancelled : holder.cancelled = true) :
      RenewalStep send now holder store
        ⟨{ holder with renewer := .ended }, store, [.event (.renewalStopped holder.machineId)]⟩
  | begins {due later : Nat} (waits : holder.renewer = .waiting due) (active : holder.cancelled = false)
      (reached : due ≤ now) (found : nextDue holder.terms.renewalInterval due now = some later) :
      RenewalStep send now holder store
        (Call.beginStep send holder.terms.storeTimeout now (.renew holder.machineId holder.terms.ttl) store
          fun call => { holder with renewer := .calling call later })
  | breaks {due : Nat} (waits : holder.renewer = .waiting due) (active : holder.cancelled = false)
      (reached : due ≤ now) (late : nextDue holder.terms.renewalInterval due now = none) :
      RenewalStep send now holder store ⟨{ holder with renewer := .crashed }, store, []⟩
  | ends {call : Call} {due : Nat} {reply : Reply} (calls : holder.renewer = .calling call due)
      (finished : call.result? now = some reply) :
      RenewalStep send now holder store
        ⟨(holder.renewalEnded now due reply).1, store,
          call.endNotes now ++ (holder.renewalEnded now due reply).2.map .event⟩

inductive ShutdownStep (send : Transport σ) (now : Nat) (holder : Holder) (store : σ) : Stepped Holder σ → Prop where
  | cancels (idle : holder.shutdown = .idle) :
      ShutdownStep send now holder store ⟨{ holder.cancel with shutdown := .joining }, store, []⟩
  | releases {notes : List Note} (joining : holder.shutdown = .joining)
      (gone : holder.renewer = .ended ∧ notes = [] ∨
        holder.renewer = .crashed ∧ notes = [.event (.renewalCrashed holder.machineId)]) :
      ShutdownStep send now holder store ((holder.beginRelease send now store).after notes)
  | ends {call : Call} {reply : Reply} (releasing : holder.shutdown = .releasing call)
      (finished : call.result? now = some reply) :
      ShutdownStep send now holder store
        ⟨(holder.releaseEnded reply).1, store,
          call.endNotes now ++ (holder.releaseEnded reply).2.map .event⟩

variable {send : Transport σ} {now : Nat} {holder : Holder} {store : σ} {next : Stepped Holder σ}

theorem renewalStep?_eq_some_iff :
    holder.renewalStep? send now store = some next ↔ RenewalStep send now holder store next := by
  constructor
  · intro step
    unfold renewalStep? at step
    split at step
    next due waits =>
      split at step
      next cancelled =>
        obtain rfl := Option.some.inj step
        exact .stops waits cancelled
      next active =>
        split at step
        next reached =>
          rw [Bool.not_eq_true] at active
          split at step
          next later found =>
            obtain rfl := Option.some.inj step
            exact .begins waits active reached found
          next late =>
            obtain rfl := Option.some.inj step
            exact .breaks waits active reached late
        next => contradiction
    next call due calls =>
      obtain ⟨reply, finished, rfl⟩ := Option.map_eq_some_iff.1 step
      exact .ends calls finished
    all_goals contradiction
  · intro step
    cases step with
    | stops waits cancelled => simp [renewalStep?, waits, cancelled]
    | begins waits active reached found => simp [renewalStep?, waits, active, reached, found]
    | breaks waits active reached late => simp [renewalStep?, waits, active, reached, late]
    | ends calls finished => simp [renewalStep?, calls, finished]

theorem shutdownStep?_eq_some_iff :
    holder.shutdownStep? send now store = some next ↔ ShutdownStep send now holder store next := by
  constructor
  · intro step
    unfold shutdownStep? at step
    split at step
    next idle =>
      obtain rfl := Option.some.inj step
      exact .cancels idle
    next joining =>
      split at step
      next ended =>
        obtain rfl := Option.some.inj step
        exact .releases joining (.inl ⟨ended, rfl⟩)
      next crashed =>
        obtain rfl := Option.some.inj step
        exact .releases joining (.inr ⟨crashed, rfl⟩)
      next => contradiction
    next call releasing =>
      obtain ⟨reply, finished, rfl⟩ := Option.map_eq_some_iff.1 step
      exact .ends releasing finished
    all_goals contradiction
  · intro step
    cases step with
    | cancels idle => simp [shutdownStep?, idle]
    | releases joining gone =>
        rcases gone with ⟨ended, rfl⟩ | ⟨crashed, rfl⟩
        · simp [shutdownStep?, joining, ended, Stepped.after]
        · simp [shutdownStep?, joining, crashed]
    | ends releasing finished => simp [shutdownStep?, releasing, finished]

end Holder

namespace Acquisition

inductive AcquisitionStep (send : Transport σ) (terms : Terms) (valid : terms.Valid) (maxMachineId now : Nat)
    (store : σ) : Acquisition → Stepped Acquisition σ → Prop where
  | leases {call : Call} {machineId : Nat} (finished : call.result? now = some (.ok machineId))
      (fits : machineId ≤ maxMachineId) :
      AcquisitionStep send terms valid maxMachineId now store (.acquiring call)
        ⟨.leased (.create machineId terms valid now), store,
          call.endNotes now ++ [.event (.leased machineId terms.ttl terms.renewalInterval)]⟩
  | rejects {call : Call} {machineId : Nat} (finished : call.result? now = some (.ok machineId))
      (large : maxMachineId < machineId) :
      AcquisitionStep send terms valid maxMachineId now store (.acquiring call)
        ((Call.beginStep send terms.storeTimeout now (.release machineId) store (.handingBack machineId)).after
          (call.endNotes now ++ [.event (.tooLarge machineId maxMachineId)]))
  | fails {call : Call} {cause : StoreError} (finished : call.result? now = some (.failed cause)) :
      AcquisitionStep send terms valid maxMachineId now store (.acquiring call)
        ⟨.refused (.acquireFailed cause), store, call.endNotes now⟩
  | crashes {call : Call} (finished : call.result? now = some .crashed) :
      AcquisitionStep send terms valid maxMachineId now store (.acquiring call) ⟨.crashed, store, call.endNotes now⟩
  | handsBack {machineId : Nat} {call : Call} {reply : Reply} (finished : call.result? now = some reply) :
      AcquisitionStep send terms valid maxMachineId now store (.handingBack machineId call)
        ⟨(handedBack maxMachineId machineId reply).1, store,
          call.endNotes now ++ (handedBack maxMachineId machineId reply).2.map .event⟩

variable {send : Transport σ} {terms : Terms} {valid : terms.Valid} {maxMachineId now : Nat} {store : σ}
  {acquisition : Acquisition} {next : Stepped Acquisition σ}

theorem step?_eq_some_iff :
    acquisition.step? send terms valid maxMachineId now store = some next ↔
      AcquisitionStep send terms valid maxMachineId now store acquisition next := by
  constructor
  · intro step
    unfold step? at step
    split at step
    next call =>
      obtain ⟨reply, finished, rfl⟩ := Option.map_eq_some_iff.1 step
      cases reply with
      | ok machineId =>
          rcases Nat.lt_or_ge maxMachineId machineId with large | fits
          · have rejected : AcquisitionStep send terms valid maxMachineId now store (.acquiring call) _ :=
              .rejects finished large
            simpa [acquired, Nat.not_le.2 large, Stepped.after] using rejected
          · simpa [acquired, fits, Stepped.after] using AcquisitionStep.leases finished fits
      | failed cause => simpa [acquired, Stepped.after] using AcquisitionStep.fails finished
      | crashed => simpa [acquired, Stepped.after] using AcquisitionStep.crashes finished
    next machineId call =>
      obtain ⟨reply, finished, rfl⟩ := Option.map_eq_some_iff.1 step
      exact .handsBack finished
    all_goals contradiction
  · intro step
    cases step with
    | leases finished fits => simp [step?, finished, acquired, fits, Stepped.after]
    | rejects finished large => simp [step?, finished, acquired, Nat.not_le.2 large, Stepped.after]
    | fails finished => simp [step?, finished, acquired, Stepped.after]
    | crashes finished => simp [step?, finished, acquired, Stepped.after]
    | handsBack finished => simp [step?, finished]

end Acquisition

theorem Call.reply_of_result? {call : Call} {now : Nat} (result : call.result? now = some .crashed) :
    call.reply = .crashed := by
  unfold result? at result
  split at result
  · exact Option.some.inj result
  · split at result <;> simp at result

def Transport.after (send : Transport σ) (store : σ) (requests : List Request) : σ :=
  requests.foldl (fun store request => (send request store).2) store

theorem Transport.after_append (send : Transport σ) (store : σ) (earlier later : List Request) :
    send.after store (earlier ++ later) = send.after (send.after store earlier) later :=
  List.foldl_append

/-- Whatever it has been asked before, the store does not break down in the calls of some kind. -/
def Transport.Withstands (send : Transport σ) (store : σ) (kind : Request → Prop) : Prop :=
  ∀ requests request, kind request → (send request (send.after store requests)).1.reply ≠ .crashed

def Transport.Brief (send : Transport σ) : Prop :=
  ∀ request store, (send request store).1.delay ≤ Time.longestSleep

/-- Whatever it has been asked before, the store answers after a whole number of milliseconds. -/
def Transport.Punctual (send : Transport σ) (store : σ) : Prop :=
  ∀ requests request, Time.millisecond ∣ (send request (send.after store requests)).1.delay

def Stepped.Asks {α : Type} (send : Transport σ) (store : σ) (next : Stepped α σ) : Prop :=
  next.store = send.after store (next.notes.filterMap Note.begun?)

theorem Stepped.Asks.of_silent {α : Type} {send : Transport σ} {next : Stepped α σ}
    (silent : next.notes.filterMap Note.begun? = []) : next.Asks send next.store := by
  rw [Asks, silent]
  rfl

theorem Stepped.Asks.of_beginStep {α : Type} (send : Transport σ) (limit now : Nat) (request : Request) (store : σ)
    (state : Call → α) : (Call.beginStep send limit now request store state).Asks send store :=
  rfl

theorem Stepped.Asks.after {α : Type} {send : Transport σ} {store : σ} {next : Stepped α σ} (asks : next.Asks send store)
    {notes : List Note} (silent : notes.filterMap Note.begun? = []) : (next.after notes).Asks send store := by
  rw [Asks, Stepped.after, List.filterMap_append, silent]
  exact asks

theorem Holder.RenewalStep.asks {send : Transport σ} {now : Nat} {holder : Holder} {store : σ}
    {next : Stepped Holder σ} (step : holder.RenewalStep send now store next) : next.Asks send store := by
  cases step with
  | stops waits cancelled => rfl
  | begins waits active reached found => exact .of_beginStep send _ now _ store _
  | breaks waits active reached late => rfl
  | ends calls finished => exact .of_silent (filterMap_begun?_end _ now _)

theorem Holder.ShutdownStep.asks {send : Transport σ} {now : Nat} {holder : Holder} {store : σ}
    {next : Stepped Holder σ} (step : holder.ShutdownStep send now store next) : next.Asks send store := by
  cases step with
  | cancels idle => rfl
  | @releases notes joining gone =>
      apply Stepped.Asks.after (.of_beginStep send _ now _ store _)
      rcases gone with ⟨_, rfl⟩ | ⟨_, rfl⟩ <;> rfl
  | ends releasing finished => exact .of_silent (filterMap_begun?_end _ now _)

theorem Acquisition.AcquisitionStep.asks {send : Transport σ} {terms : Terms} {valid : terms.Valid}
    {maxMachineId now : Nat} {store : σ} {acquisition : Acquisition} {next : Stepped Acquisition σ}
    (step : AcquisitionStep send terms valid maxMachineId now store acquisition next) : next.Asks send store := by
  cases step with
  | leases finished fits => exact .of_silent (filterMap_begun?_end _ now [_])
  | rejects finished large => exact .after (.of_beginStep send _ now _ store _) (filterMap_begun?_end _ now [_])
  | @fails call cause finished => exact .of_silent (by simpa using filterMap_begun?_end call now [])
  | @crashes call finished => exact .of_silent (by simpa using filterMap_begun?_end call now [])
  | handsBack finished => exact .of_silent (filterMap_begun?_end _ now _)

def Shutdown.releases : Shutdown → Nat
  | .idle | .joining => 0
  | .releasing _ | .done _ | .crashed => 1

theorem Shutdown.calls_eq_nil {shutdown : Shutdown} (none : shutdown.releases = 0) : shutdown.calls = [] := by
  cases shutdown <;> first | rfl | contradiction

namespace Holder

def Gone (holder : Holder) : Prop := holder.renewer = .ended ∨ holder.renewer = .crashed

theorem Gone.calls_eq_nil {holder : Holder} (gone : holder.Gone) : holder.renewer.calls = [] := by
  rcases gone with ended | crashed
  · rw [ended, Renewer.calls]
  · rw [crashed, Renewer.calls]

variable {send : Transport σ} {now : Nat} {holder : Holder} {store : σ} {next : Stepped Holder σ}

theorem RenewalStep.frame (step : holder.RenewalStep send now store next) :
    next.state.machineId = holder.machineId ∧ next.state.terms = holder.terms ∧
      next.state.cancelled = holder.cancelled ∧ next.state.shutdown = holder.shutdown := by
  cases step with
  | stops | begins | breaks => exact ⟨rfl, rfl, rfl, rfl⟩
  | @ends call due reply calls finished => cases reply <;> exact ⟨rfl, rfl, rfl, rfl⟩

theorem RenewalStep.not_gone (step : holder.RenewalStep send now store next) : ¬ holder.Gone := by
  rintro (ended | crashed) <;> cases step <;> simp_all

theorem RenewalStep.makes (step : holder.RenewalStep send now store next) :
    ∃ begun?, next.Makes holder.terms now holder.renewer.calls begun? ∧ next.state.renewer.calls = begun?.toList ∧
      ∀ call ∈ begun?, call.request = .renew holder.machineId holder.terms.ttl ∧ holder.cancelled = false := by
  cases step with
  | stops waits cancelled =>
      refine ⟨none, .of_silent ?_ rfl, rfl, ?_⟩
      · simp [waits, Renewer.calls]
      · simp
  | begins waits active reached found =>
      refine ⟨_, .of_beginStep ?_ send _ store _, rfl, ?_⟩
      · simp [waits, Renewer.calls]
      · rintro _ ⟨⟩
        exact ⟨rfl, active⟩
  | breaks waits active reached late =>
      refine ⟨none, .of_silent ?_ rfl, rfl, ?_⟩
      · simp [waits, Renewer.calls]
      · simp
  | @ends call due reply calls finished =>
      refine ⟨none, .of_silent ?_ (filterMap_begun?_end call now _), ?_, ?_⟩
      · simp [calls, Renewer.calls, finished]
      · cases reply <;> rfl
      · simp

theorem ShutdownStep.frame (step : holder.ShutdownStep send now store next) :
    next.state.machineId = holder.machineId ∧ next.state.terms = holder.terms ∧
      next.state.renewer = holder.renewer := by
  cases step with
  | cancels | releases => exact ⟨rfl, rfl, rfl⟩
  | @ends call reply releasing finished => cases reply <;> exact ⟨rfl, rfl, rfl⟩

theorem ShutdownStep.cancelled (step : holder.ShutdownStep send now store next) :
    next.state.shutdown ≠ .idle ∧ (holder.shutdown = .idle ∧ next.state.cancelled = true ∨
      holder.shutdown ≠ .idle ∧ next.state.cancelled = holder.cancelled) := by
  cases step with
  | cancels idle => simp [idle, cancel]
  | releases joining gone => simp [joining, beginRelease, Call.beginStep, Stepped.after]
  | @ends call reply releasing finished => cases reply <;> simp [releasing, releaseEnded]

theorem ShutdownStep.idle_or_released (step : holder.ShutdownStep send now store next) :
    (holder.shutdown = .idle ∧ next.state.shutdown.calls = [] ∧ next.notes = []) ∨
      next.state.shutdown.releases = 1 := by
  cases step with
  | cancels idle => exact .inl ⟨idle, rfl, rfl⟩
  | releases joining gone => exact .inr rfl
  | @ends call reply releasing finished =>
      right
      cases reply <;> rfl

theorem ShutdownStep.stopOutcome?_eq_none (step : holder.ShutdownStep send now store next) :
    holder.stopOutcome? = none := by
  cases step with
  | cancels idle => rw [stopOutcome?, idle]
  | releases joining gone => rw [stopOutcome?, joining]
  | ends releasing finished => rw [stopOutcome?, releasing]

theorem ShutdownStep.makes (step : holder.ShutdownStep send now store next) :
    ∃ begun?, next.Makes holder.terms now holder.shutdown.calls begun? ∧
      next.state.shutdown.calls = begun?.toList ∧
      List.replicate holder.shutdown.releases (Request.release holder.machineId) ++ begun?.toList.map Call.request =
        List.replicate next.state.shutdown.releases (.release holder.machineId) ∧
      (next.state.shutdown.releases = 1 → holder.shutdown.releases = 1 ∨ holder.Gone) := by
  cases step with
  | cancels idle =>
      refine ⟨none, .of_silent ?_ rfl, rfl, ?_, ?_⟩ <;> simp [idle, Shutdown.calls, Shutdown.releases]
  | @releases notes joining gone =>
      have silent : notes.filterMap Note.begun? = [] := by
        rcases gone with ⟨_, rfl⟩ | ⟨_, rfl⟩ <;> rfl
      refine ⟨_, .after (.of_beginStep ?_ send _ store _) silent, rfl, ?_, fun _ => .inr (gone.imp And.left And.left)⟩
      · simp [joining, Shutdown.calls]
      · rw [joining]
        rfl
  | @ends call reply releasing finished =>
      refine ⟨none, .of_silent ?_ (filterMap_begun?_end call now _), ?_, ?_,
        fun _ => .inl (by rw [releasing, Shutdown.releases])⟩
      · simp [releasing, Shutdown.calls, finished]
      · cases reply <;> rfl
      · cases reply <;> simp [releasing, releaseEnded, Shutdown.releases]

theorem shutdown_ne_idle_of_waits (waits : holder.shutdownStep? send now store = none) : holder.shutdown ≠ .idle := by
  intro idle
  simp [shutdownStep?, idle] at waits

end Holder

namespace Acquisition.AcquisitionStep

variable {send : Transport σ} {terms : Terms} {valid : terms.Valid} {maxMachineId now : Nat} {store : σ}
  {acquisition : Acquisition} {next : Stepped Acquisition σ}

theorem makes (step : AcquisitionStep send terms valid maxMachineId now store acquisition next) :
    ∃ begun?, next.Makes terms now acquisition.calls begun? ∧ next.state.calls = begun?.toList ∧
      ∀ holder, next.state = .leased holder → begun? = none := by
  cases step with
  | @leases call machineId finished fits =>
      refine ⟨none, .of_silent ?_ (filterMap_begun?_end call now [_]), ?_, fun _ _ => rfl⟩
      · simp [Acquisition.calls, finished]
      · rw [Acquisition.calls, Holder.create]
        cases Time.later? now terms.renewalInterval <;> rfl
  | @rejects call machineId finished large =>
      refine ⟨_, .after (.of_beginStep ?_ send _ store _) (filterMap_begun?_end call now [_]), rfl,
        fun _ impossible => by contradiction⟩
      simp [Acquisition.calls, finished]
  | @fails call cause finished =>
      refine ⟨none, .of_silent ?_ ?_, rfl, fun _ _ => rfl⟩
      · simp [Acquisition.calls, finished]
      · simpa using filterMap_begun?_end call now []
  | @crashes call finished =>
      refine ⟨none, .of_silent ?_ ?_, rfl, fun _ _ => rfl⟩
      · simp [Acquisition.calls, finished]
      · simpa using filterMap_begun?_end call now []
  | @handsBack machineId call reply finished =>
      refine ⟨none, .of_silent ?_ (filterMap_begun?_end call now _), ?_, fun _ _ => rfl⟩
      · simp [Acquisition.calls, finished]
      · cases reply <;> rfl

theorem shutdown_eq_idle {holder : Holder}
    (step : AcquisitionStep send terms valid maxMachineId now store acquisition next)
    (leased : next.state = .leased holder) : holder.shutdown = .idle := by
  cases step with
  | leases finished fits =>
      obtain rfl := Acquisition.leased.inj leased
      rfl
  | rejects finished large | fails finished | crashes finished => contradiction
  | @handsBack machineId call reply finished => cases reply <;> contradiction

end Acquisition.AcquisitionStep
end LeasedIds.Lease
