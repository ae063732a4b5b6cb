import LeasedIds.Proofs.Fleet
import LeasedIds.Proofs.Lease.Scripts

namespace LeasedIds

theorem Encoder.create_eq_ok {machineId epoch timeUnit : Nat} {layout : Layout}
    (lifetime : LifetimeRepresentable epoch timeUnit layout) (fits : machineId ≤ layout.maxMachineId) :
    Encoder.create machineId epoch timeUnit layout = .ok ⟨machineId, epoch, timeUnit, layout, lifetime, fits⟩ := by
  rw [Encoder.create, dif_pos lifetime, dif_pos fits]

namespace Lease.Acquisition

variable {σ : Type} {send : Transport σ} {terms : Terms} {valid : terms.Valid} {maxMachineId begunAt : Nat} {store : σ}

def firstCall (send : Transport σ) (terms : Terms) (begunAt : Nat) (store : σ) : Call :=
  (Call.begin send terms.storeTimeout begunAt (.acquire terms.ttl) store).1

variable (send terms valid maxMachineId begunAt store) in
inductive Stage : Acquisition → List Request → Prop where
  | acquiring : Stage (.acquiring (firstCall send terms begunAt store)) [.acquire terms.ttl]
  | handingBack {instant machineId : Nat} {call : Call}
      (granted : (firstCall send terms begunAt store).result? instant = some (.ok machineId))
      (large : maxMachineId < machineId) (survives : call.reply ≠ .crashed)
      (deadline : call.deadline = Time.sleepEnd call.begunAt terms.storeTimeout) :
      Stage (.handingBack machineId call) [.acquire terms.ttl, .release machineId]
  | leased {instant machineId : Nat}
      (granted : (firstCall send terms begunAt store).result? instant = some (.ok machineId))
      (fits : machineId ≤ maxMachineId) :
      Stage (.leased (.create machineId terms valid instant)) [.acquire terms.ttl]
  | failed {instant : Nat} {cause : StoreError}
      (failed : (firstCall send terms begunAt store).result? instant = some (.failed cause)) :
      Stage (.refused (.acquireFailed cause)) [.acquire terms.ttl]
  | rejected {instant machineId : Nat}
      (granted : (firstCall send terms begunAt store).result? instant = some (.ok machineId))
      (large : maxMachineId < machineId) :
      Stage (.refused (.machineIdTooLarge machineId maxMachineId)) [.acquire terms.ttl, .release machineId]

variable {acquisition : Acquisition} {requests : List Request} {now : Nat}

theorem calls_create (machineId : Nat) (terms : Terms) (valid : terms.Valid) (now : Nat) :
    Acquisition.calls (.leased (.create machineId terms valid now)) = [] := by
  rw [Acquisition.calls, Holder.create]
  cases Time.later? now terms.renewalInterval <;> rfl

theorem AcquisitionStep.begun_eq {next : Stepped Acquisition σ}
    (step : AcquisitionStep send terms valid maxMachineId now store acquisition next) :
    next.notes.filterMap Note.begun? = next.state.calls.map Call.request := by
  obtain ⟨begun?, makes, calls, _⟩ := step.makes
  rw [makes.noted, calls]

theorem Stage.step (stage : Stage send terms valid maxMachineId begunAt store acquisition requests)
    (withstands : send.Withstands store fun _ => True) {next : Stepped Acquisition σ}
    (step : AcquisitionStep send terms valid maxMachineId now (send.after store requests) acquisition next) :
    Stage send terms valid maxMachineId begunAt store next.state
      (requests ++ next.notes.filterMap Note.begun?) := by
  rw [step.begun_eq]
  cases stage with
  | acquiring =>
      cases step with
      | leases granted fits =>
          rw [calls_create]
          exact .leased granted fits
      | rejects granted large =>
          -- The store answers the release in the state that the acquire has left it in.
          exact .handingBack granted large (withstands [.acquire terms.ttl] (.release _) trivial) rfl
      | fails failed => exact .failed failed
      | crashes crashed => exact absurd (Call.reply_of_result? crashed) (withstands [] (.acquire terms.ttl) trivial)
  | @handingBack instant machineId call granted large survives deadline =>
      cases step with
      | @handsBack _ _ reply finished =>
          cases reply with
          | ok _ | failed _ => exact .rejected granted large
          | crashed => exact absurd (Call.reply_of_result? finished) survives
  | leased granted fits => cases step
  | failed failed => cases step
  | rejected granted large => cases step

theorem Stage.advance (stage : Stage send terms valid maxMachineId begunAt store acquisition requests)
    (withstands : send.Withstands store fun _ => True) (now : Nat) {held : σ}
    (same : held = send.after store requests) :
    let next := acquisition.advance send terms valid maxMachineId now held
    Stage send terms valid maxMachineId begunAt store next.state (requests ++ next.notes.filterMap Note.begun?) ∧
      next.store = send.after store (requests ++ next.notes.filterMap Note.begun?) := by
  fun_induction Acquisition.advance send terms valid maxMachineId now acquisition held generalizing requests with
  | case1 acquisition held waits => simpa using ⟨stage, same⟩
  | case2 acquisition held next taken lower hypothesis =>
      subst same
      have step := step?_eq_some_iff.1 taken
      have further := hypothesis (stage.step withstands step) (by rw [Transport.after_append]; exact step.asks)
      simpa only [Stepped.after, List.filterMap_append, List.append_assoc] using further

theorem step?_advance (held : σ) :
    let next := acquisition.advance send terms valid maxMachineId now held
    next.state.step? send terms valid maxMachineId now next.store = none := by
  fun_induction Acquisition.advance send terms valid maxMachineId now acquisition held with
  | case1 acquisition held waits => exact waits
  | case2 acquisition held next taken lower hypothesis => exact hypothesis

def awaited? : Acquisition → Option Call
  | .acquiring call | .handingBack _ call => some call
  | .leased _ | .refused _ | .crashed => none

theorem result?_of_step?_eq_none (waits : acquisition.step? send terms valid maxMachineId now store = none) :
    ∀ call ∈ acquisition.awaited?, call.result? now = none := by
  cases acquisition with
  | acquiring call | handingBack machineId call =>
      rintro _ ⟨⟩
      simpa [step?] using waits
  | leased _ | refused _ | crashed => exact fun _ impossible => by contradiction

end Lease.Acquisition

namespace Generator
open Lease

namespace Build

variable {σ : Type} {send : Transport σ} {plan : Plan} {begunAt : Nat} {store : σ} {acquisition : Acquisition}
  {requests : List Request}

theorem ofAcquisition_leased {holder : Holder} (fits : holder.machineId ≤ plan.layout.maxMachineId) :
    ofAcquisition plan (.leased holder) =
      .built holder ⟨holder.machineId, plan.epoch, plan.timeUnit, plan.layout, plan.lifetime, fits⟩ := by
  rw [ofAcquisition, Encoder.create_eq_ok plan.lifetime fits]

theorem ofAcquisition_ne_abandoning
    (stage : Acquisition.Stage send plan.terms plan.valid plan.layout.maxMachineId begunAt store acquisition requests)
    (holder : Holder) (error : Error) : ofAcquisition plan acquisition ≠ .abandoning holder error := by
  cases stage with
  | leased granted fits =>
      rw [ofAcquisition_leased fits]
      exact Build.noConfusion
  | acquiring | handingBack _ _ _ _ | failed _ | rejected _ _ => exact Build.noConfusion

theorem advance_leasing {now : Nat}
    (encoded : ∀ holder error, ofAcquisition plan
      (acquisition.advance send plan.terms plan.valid plan.layout.maxMachineId now store).state ≠
        .abandoning holder error) :
    (leasing acquisition).advance send plan now store =
      (acquisition.advance send plan.terms plan.valid plan.layout.maxMachineId now store).map
        (ofAcquisition plan) := by
  rw [advance]
  split
  next holder error abandons => exact absurd abandons (encoded holder error)
  next => rfl

theorem advance_over
    (stage : Acquisition.Stage send plan.terms plan.valid plan.layout.maxMachineId begunAt store acquisition requests)
    (closed : acquisition.awaited? = none) (now : Nat) (held : σ) :
    (ofAcquisition plan acquisition).advance send plan now held = ⟨ofAcquisition plan acquisition, held, []⟩ := by
  cases stage with
  | leased granted fits =>
      rw [ofAcquisition_leased fits]
      rfl
  | failed _ | rejected _ _ => rfl
  | acquiring | handingBack _ _ _ _ => contradiction

end Build

structure Attempt (σ : Type) where
  now : Nat
  store : σ
  build : Build
  notes : List Note

namespace Attempt

variable {σ : Type}

def requests (attempt : Attempt σ) : List Request := attempt.notes.filterMap Note.begun?

def look (send : Transport σ) (plan : Plan) (attempt : Attempt σ) (span : Nat) : Attempt σ :=
  let next := attempt.build.advance send plan (attempt.now + span) attempt.store
  ⟨attempt.now + span, next.store, next.state, attempt.notes ++ next.notes⟩

def begin (send : Transport σ) (plan : Plan) (now : Nat) (store : σ) : Attempt σ :=
  let begun := Build.begin send plan now store
  ⟨now, begun.store, begun.state, begun.notes⟩

def run (send : Transport σ) (settings : Settings) (reading now : Nat) (store : σ) (spans : List Nat) : Attempt σ :=
  match settings.check reading with
  | .error error => ⟨now, store, .refused error, []⟩
  | .ok plan => spans.foldl (look send plan) ((begin send plan now store).look send plan 0)

variable {send : Transport σ} {plan : Plan} {begunAt : Nat} {store : σ} {attempt : Attempt σ}

structure Follows (send : Transport σ) (plan : Plan) (begunAt : Nat) (store : σ) (attempt : Attempt σ)
    (acquisition : Acquisition) : Prop where
  stage : Acquisition.Stage send plan.terms plan.valid plan.layout.maxMachineId begunAt store acquisition
    attempt.requests
  store_eq : attempt.store = send.after store attempt.requests
  build_eq : attempt.build = .ofAcquisition plan acquisition

theorem Follows.begin (send : Transport σ) (plan : Plan) (now : Nat) (store : σ) :
    (Attempt.begin send plan now store).Follows send plan now store
      (.acquiring (Acquisition.firstCall send plan.terms now store)) :=
  ⟨.acquiring, rfl, rfl⟩

theorem Follows.look {acquisition : Acquisition} (follows : attempt.Follows send plan begunAt store acquisition)
    (withstands : send.Withstands store fun _ => True) (span : Nat) :
    ∃ later, (attempt.look send plan span).Follows send plan begunAt store later ∧
      ∀ call ∈ later.awaited?, call.result? (attempt.now + span) = none := by
  obtain ⟨stage, same, build⟩ := follows
  cases awaited : acquisition.awaited? with
  | none =>
      have closed := Build.advance_over stage awaited (attempt.now + span) attempt.store
      refine ⟨acquisition, ⟨?_, ?_, ?_⟩, by simp [awaited]⟩ <;> rw [Attempt.look, build, closed]
      · simpa [requests] using stage
      · simpa [requests] using same
  | some call =>
      have leasing : Build.ofAcquisition plan acquisition = .leasing acquisition := by
        cases acquisition <;> first | rfl | contradiction
      let next := acquisition.advance send plan.terms plan.valid plan.layout.maxMachineId (attempt.now + span)
        attempt.store
      obtain ⟨further, changed⟩ := stage.advance withstands (attempt.now + span) same
      have later : attempt.look send plan span =
          ⟨attempt.now + span, next.store, .ofAcquisition plan next.state, attempt.notes ++ next.notes⟩ := by
        rw [Attempt.look, build, leasing, Build.advance_leasing (Build.ofAcquisition_ne_abandoning further)]
        rfl
      have asked : (attempt.look send plan span).requests =
          attempt.requests ++ next.notes.filterMap Note.begun? := by
        rw [later]
        exact List.filterMap_append
      rw [← asked] at further changed
      refine ⟨next.state, ⟨further, ?_, ?_⟩, ?_⟩
      · rw [← changed, later]
      · rw [later]
      · exact Acquisition.result?_of_step?_eq_none (Acquisition.step?_advance attempt.store)

theorem follows_run (withstands : send.Withstands store fun _ => True) (spans : List Nat) {acquisition : Acquisition}
    (follows : attempt.Follows send plan begunAt store acquisition)
    (waits : ∀ call ∈ acquisition.awaited?, call.result? attempt.now = none) :
    ∃ last, (spans.foldl (Attempt.look send plan) attempt).Follows send plan begunAt store last ∧
      ∀ call ∈ last.awaited?, call.result? (spans.foldl (Attempt.look send plan) attempt).now = none := by
  induction spans generalizing attempt acquisition with
  | nil => exact ⟨acquisition, follows, waits⟩
  | cons span spans hypothesis =>
      obtain ⟨later, follows', waits'⟩ := follows.look withstands span
      exact hypothesis follows' waits'

variable (send : Transport σ) (settings : Settings) (reading begunAt : Nat) (store : σ) (attempt : Attempt σ)

structure Delivers (holder : Holder) (encoder : Encoder) : Prop where
  granted : ∃ instant, (Acquisition.firstCall send settings.terms begunAt store).result? instant =
    some (.ok holder.machineId)
  machineId_eq : encoder.machineId = holder.machineId
  fixes : settings.Fixes encoder.epoch encoder.timeUnit encoder.layout
  terms_eq : holder.terms = settings.terms
  renewing : holder.state? = some .renewing
  requests_eq : attempt.requests = [.acquire settings.terms.ttl]

inductive Fails (error : Error) : Prop where
  | invalid (check : settings.check reading = .error error) (requests : attempt.requests = [])
  | unanswered {cause : StoreError} {instant : Nat}
      (result : (Acquisition.firstCall send settings.terms begunAt store).result? instant = some (.failed cause))
      (error_eq : error = .acquireFailed cause) (requests : attempt.requests = [.acquire settings.terms.ttl])
  | tooLarge {layout : Layout} {machineId instant : Nat}
      (fields : Layout.ofWidths settings.sequenceBits settings.machineBits = .ok layout)
      (result : (Acquisition.firstCall send settings.terms begunAt store).result? instant = some (.ok machineId))
      (large : layout.maxMachineId < machineId) (error_eq : error = .machineIdTooLarge machineId layout.maxMachineId)
      (requests : attempt.requests = [.acquire settings.terms.ttl, .release machineId])

/-- A build has been delivered, has failed, or waits for a call that the store has not answered and that has not been cut
off yet. In particular it has never leased a machine ID without an encoder for it. -/
structure Accounted : Prop where
  built : ∀ holder encoder, attempt.build = .built holder encoder →
    attempt.Delivers send settings begunAt store holder encoder
  refused : ∀ error, attempt.build = .refused error → attempt.Fails send settings reading begunAt store error
  pending : (∀ holder encoder, attempt.build ≠ .built holder encoder) →
    (∀ error, attempt.build ≠ .refused error) → ∃ acquisition call, attempt.build = .leasing acquisition ∧
      acquisition.awaited? = some call ∧ call.result? attempt.now = none ∧
      call.deadline = Time.sleepEnd call.begunAt settings.terms.storeTimeout

section
variable {send settings reading begunAt store attempt}

theorem Accounted.of_built {holder : Holder} {encoder : Encoder} (build : attempt.build = .built holder encoder)
    (delivers : attempt.Delivers send settings begunAt store holder encoder) :
    attempt.Accounted send settings reading begunAt store := by
  refine ⟨?_, ?_, ?_⟩ <;> rw [build]
  · rintro _ _ ⟨⟩
    exact delivers
  · exact fun _ => Build.noConfusion
  · exact fun unbuilt _ => absurd rfl (unbuilt holder encoder)

theorem Accounted.of_refused {error : Error} (build : attempt.build = .refused error)
    (fails : attempt.Fails send settings reading begunAt store error) :
    attempt.Accounted send settings reading begunAt store := by
  refine ⟨?_, ?_, ?_⟩ <;> rw [build]
  · exact fun _ _ => Build.noConfusion
  · rintro _ ⟨⟩
    exact fails
  · exact fun _ accepted => absurd rfl (accepted error)

theorem Accounted.of_leasing {acquisition : Acquisition} {call : Call} (build : attempt.build = .leasing acquisition)
    (awaited : acquisition.awaited? = some call) (waits : call.result? attempt.now = none)
    (deadline : call.deadline = Time.sleepEnd call.begunAt settings.terms.storeTimeout) :
    attempt.Accounted send settings reading begunAt store := by
  refine ⟨?_, ?_, ?_⟩ <;> rw [build]
  · exact fun _ _ => Build.noConfusion
  · exact fun _ => Build.noConfusion
  · exact fun _ _ => ⟨acquisition, call, rfl, awaited, waits, deadline⟩

end

/-- However long its store takes to answer, a build that is carried on has the generator that the settings ask for, or
its store holds no lease of it. -/
theorem lease_accounted (withstands : send.Withstands store fun _ => True) (spans : List Nat) :
    (run send settings reading begunAt store spans).Accounted send settings reading begunAt store := by
  unfold run
  cases check : settings.check reading with
  | error error => exact .of_refused rfl (.invalid check rfl)
  | ok plan =>
      obtain ⟨fixes, same⟩ := Settings.plan_of_check check
      obtain ⟨first, looked, waits⟩ := (Follows.begin send plan begunAt store).look withstands 0
      obtain ⟨last, follows, waiting⟩ := follows_run withstands spans looked waits
      dsimp only
      generalize spans.foldl (look send plan) _ = attempt at follows waiting
      obtain ⟨stage, _, build⟩ := follows
      -- The plan is taken apart so that its terms are those of the settings by definition.
      clear check looked waits
      obtain ⟨epoch, timeUnit, terms, layout, valid, lifetime⟩ := plan
      subst same
      generalize asked : attempt.requests = requests at stage
      cases stage with
      | acquiring => exact .of_leasing build rfl (waiting _ rfl) rfl
      | handingBack granted large survives deadline => exact .of_leasing build rfl (waiting _ rfl) deadline
      | @leased instant machineId granted fits =>
          rw [Build.ofAcquisition_leased fits] at build
          exact .of_built build ⟨⟨instant, granted⟩, rfl, fixes, rfl, rfl, asked⟩
      | failed failed => exact .of_refused build (.unanswered failed rfl asked)
      | rejected granted large => exact .of_refused build (.tooLarge fixes.layout_eq granted large rfl asked)

def generous : Simulation.Script where
  machineId := 65536
  acquire := [⟨2 * Time.second, .success⟩]
  release := [⟨Time.second, .failure "gone"⟩]

theorem generous_lease_accounted :
    let attempt := run Simulation.Script.send {} (Time.startOf2025 + 1) 0 generous [2 * Time.second, Time.second]
    Simulation.Script.send.Withstands generous (fun _ => True) ∧
      attempt.build = .refused (.machineIdTooLarge 65536 65535) ∧
      attempt.requests = [.acquire (30 * Time.second), .release 65536] ∧
      attempt.Accounted Simulation.Script.send {} (Time.startOf2025 + 1) 0 generous := by
  intro attempt
  have withstands : Simulation.Script.send.Withstands generous fun _ => True := by
    apply Simulation.Script.withstands
    intro request _
    cases request with
    | acquire ttl =>
        show ∀ behaviour ∈ generous.acquire, behaviour.ending ≠ .crash
        decide
    | renew machineId ttl => exact fun _ impossible => by contradiction
    | release machineId =>
        show ∀ behaviour ∈ generous.release, behaviour.ending ≠ .crash
        decide
  refine ⟨withstands, ?_, ?_, lease_accounted Simulation.Script.send {} (Time.startOf2025 + 1) 0 generous withstands _⟩
  · decide +kernel
  · decide +kernel

end Attempt
end Generator
end LeasedIds
