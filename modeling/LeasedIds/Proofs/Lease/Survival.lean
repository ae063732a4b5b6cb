import LeasedIds.Proofs.Lease.Pacing
import LeasedIds.Proofs.Lease.RenewalLog
import LeasedIds.Proofs.Lease.StopOutcome
import Mathlib.Data.List.Induction

namespace LeasedIds.Lease

variable {σ : Type}

theorem nextDue_eq_none_iff {interval due now : Nat} :
    nextDue interval due now = none ↔ Time.instantLimit ≤ followUp interval due now :=
  Time.instant?_eq_none_iff

theorem nextDue_le {interval due now next : Nat} (reached : due ≤ now) (found : nextDue interval due now = some next) :
    next ≤ now + interval := by
  obtain ⟨_, rfl⟩ := Time.instant?_eq_some_iff.1 found
  exact (followUp_bounds reached interval).2

namespace Holder

/-- What a renewer is at: it waits for nothing that is far ahead, and it has broken down only near the end of the clock. -/
inductive Standing (terms : Terms) (now : Nat) : Renewer → Prop where
  | waiting {due : Nat} (near : due ≤ now + terms.renewalInterval) : Standing terms now (.waiting due)
  | calling {call : Call} {due : Nat} (survives : call.reply ≠ .crashed)
      (bounded : call.deadline ≤ now + terms.storeTimeout) (near : due ≤ now + terms.renewalInterval) :
      Standing terms now (.calling call due)
  | ended : Standing terms now .ended
  | crashed (beyond : Time.instantLimit ≤ now + terms.renewalInterval) : Standing terms now .crashed

/-- A renewal is due, and the clock ends before the one after it. -/
def Overruns (holder : Holder) (now : Nat) : Prop :=
  holder.cancelled = false ∧ ∃ due, holder.renewer = .waiting due ∧ due ≤ now ∧
    Time.instantLimit ≤ followUp holder.terms.renewalInterval due now

variable {send : Transport σ} {now : Nat} {terms : Terms} {holder : Holder} {store : σ} {next : Stepped Holder σ}

theorem Standing.create (machineId : Nat) (terms : Terms) (valid : terms.Valid) (now : Nat) :
    Standing terms now (Holder.create machineId terms valid now).renewer := by
  rw [Holder.create]
  cases due : Time.later? now terms.renewalInterval with
  | some due => exact .waiting (Nat.le_of_eq (Time.later?_eq_some_iff.1 due).2.symm)
  | none => exact .crashed (Time.later?_eq_none_iff.1 due)

theorem Standing.pass {renewer : Renewer} (standing : Standing terms now renewer) (span : Nat) :
    Standing terms (now + span) renewer := by
  cases standing with
  | waiting near => exact .waiting (by omega)
  | calling survives bounded near => exact .calling survives (by omega) (by omega)
  | ended => exact .ended
  | crashed beyond => exact .crashed (by omega)

theorem RenewalStep.standing (step : holder.RenewalStep send now store next)
    (standing : Standing terms now holder.renewer) (same : holder.terms = terms)
    (answers : (send (.renew holder.machineId holder.terms.ttl) store).1.reply ≠ .crashed) :
    Standing terms now next.state.renewer := by
  subst same
  cases step with
  | stops waits cancelled => exact .ended
  | begins waits active reached found =>
      refine .calling answers ?_ (nextDue_le reached found)
      exact Nat.add_le_add_left (Nat.min_le_left _ _) now
  | breaks waits active reached late =>
      exact .crashed (Nat.le_trans (nextDue_eq_none_iff.1 late) (followUp_bounds reached _).2)
  | @ends call due reply calls finished =>
      rw [calls] at standing
      cases standing with
      | calling survives bounded near =>
          cases reply with
          | ok _ | failed _ => exact .waiting near
          | crashed => exact absurd (Call.reply_of_result? finished) survives

theorem RenewalStep.crashed_iff (step : holder.RenewalStep send now store next)
    (standing : Standing terms now holder.renewer) : next.state.renewer = .crashed ↔ holder.Overruns now := by
  unfold Overruns
  cases step with
  | stops waits cancelled => simp [cancelled]
  | begins waits active reached found =>
      refine ⟨nofun, ?_⟩
      rintro ⟨_, due, waits', _, late⟩
      obtain rfl := Renewer.waiting.inj (waits.symm.trans waits')
      rw [nextDue_eq_none_iff.2 late] at found
      contradiction
  | breaks waits active reached late =>
      exact ⟨fun _ => ⟨active, _, waits, reached, nextDue_eq_none_iff.1 late⟩, fun _ => rfl⟩
  | @ends call due reply calls finished =>
      rw [calls] at standing ⊢
      cases standing with
      | calling survives bounded near =>
          cases reply with
          | ok _ | failed _ => simp [renewalEnded]
          | crashed => exact absurd (Call.reply_of_result? finished) survives

theorem not_overruns_of_waits (waits : holder.renewalStep? send now store = none) : ¬ holder.Overruns now := by
  rintro ⟨active, due, renewer, reached, late⟩
  have crashes : holder.RenewalStep send now store _ := .breaks renewer active reached (nextDue_eq_none_iff.2 late)
  rw [renewalStep?_eq_some_iff.2 crashes] at waits
  contradiction

end Holder

namespace Custody
open Holder

variable {send : Transport σ} {terms : Terms} {valid : terms.Valid} {maxMachineId : Nat} {custody later : Custody σ}
  {holder : Holder}

structure Tended (send : Transport σ) (terms : Terms) (custody : Custody σ) : Prop where
  withstands : send.Withstands custody.store (·.isRenewal)
  standing : ∀ holder, custody.lease = .leased holder → Standing terms custody.now holder.renewer

theorem Tended.begin {store : σ} (withstands : send.Withstands store (·.isRenewal)) (terms : Terms) (now : Nat) :
    Tended send terms (Custody.begin send terms now store) :=
  ⟨fun requests => withstands (.acquire terms.ttl :: requests), fun _ impossible => Acquisition.noConfusion impossible⟩

theorem Tended.step (tended : custody.Tended send terms) (regular : custody.Regular terms)
    (moves : custody.Moves send terms valid maxMachineId later) : later.Tended send terms := by
  cases moves with
  | passes span => exact ⟨tended.withstands, fun holder lease => (tended.standing holder lease).pass span⟩
  | acquires step =>
      refine ⟨tended.withstands.asks step.asks, fun holder lease => ?_⟩
      obtain ⟨machineId, rfl⟩ := step.leased_eq lease
      exact .create machineId terms valid custody.now
  | @renews holder next lease step =>
      refine ⟨tended.withstands.asks step.asks, ?_⟩
      rintro _ ⟨⟩
      exact step.standing (tended.standing holder lease) (regular.keeps lease).terms_eq (tended.withstands [] _ rfl)
  | @shutsDown holder next caller lease step =>
      refine ⟨tended.withstands.asks step.asks, ?_⟩
      rintro _ ⟨⟩
      rw [step.frame.2.2]
      exact tended.standing holder lease
  | hears caller lease waits => exact ⟨tended.withstands, tended.standing⟩
  | @drops holder lease =>
      refine ⟨tended.withstands, ?_⟩
      rintro _ ⟨⟩
      exact tended.standing holder lease

variable (valid maxMachineId) in
theorem tended_run {store : σ} (withstands : send.Withstands store (·.isRenewal)) (now : Nat) (actions : List Action) :
    let custody := (begin send terms now store).run send terms valid maxMachineId actions
    custody.Tended send terms ∧ custody.Regular terms ∧ custody.Recorded := by
  have kept (custody later : Custody σ)
      (holds : custody.Tended send terms ∧ custody.Regular terms ∧ custody.Recorded)
      (moves : custody.Moves send terms valid maxMachineId later) :
      later.Tended send terms ∧ later.Regular terms ∧ later.Recorded :=
    ⟨holds.1.step holds.2.1 moves, holds.2.1.step moves, holds.2.2.step moves⟩
  exact run_induction kept ⟨.begin withstands terms now, .begin send terms now store, .begin send terms now store⟩ actions

theorem startedAt?_step {start : Nat} (started : custody.startedAt? = some start) (action : Action) :
    (custody.step send terms valid maxMachineId action).startedAt? = some start := by
  rcases custody.step_cases action with same | moves
  · rw [same]
    exact started
  · generalize custody.step send terms valid maxMachineId action = later at moves ⊢
    cases moves with
    | passes span | hears caller lease waits | drops lease => exact started
    | acquires step | renews lease step => exact startedAt?_follow started _ _
    | @shutsDown holder next caller lease step => exact startedAt?_follow started _ (next.map .leased)

variable (valid maxMachineId) in
theorem crashed_step (tended : custody.Tended send terms) (lease : custody.lease = .leased holder) (action : Action) :
    ∃ later, (custody.step send terms valid maxMachineId action).lease = .leased later ∧
      (later.renewer = .crashed ↔ holder.renewer = .crashed ∨ action = .renew ∧ holder.Overruns custody.now) := by
  cases action with
  | pass span => exact ⟨holder, lease, by simp⟩
  | acquire => exact ⟨holder, by simp [step, lease, Acquisition.step?, turn], by simp⟩
  | renew =>
      have unchanged := tended.standing holder lease
      cases found : holder.renewalStep? send custody.now custody.store with
      | none => exact ⟨holder, by simp [step, lease, found, turn], by simp [not_overruns_of_waits found]⟩
      | some next =>
          have step := renewalStep?_eq_some_iff.1 found
          have working : holder.renewer ≠ .crashed := fun crashed => step.not_gone (.inr crashed)
          refine ⟨next.state, by simp [Custody.step, lease, found, turn, follow, Stepped.map], ?_⟩
          simpa [working] using step.crashed_iff unchanged
  | stop caller =>
      cases found : holder.shutdownStep? send custody.now custody.store with
      | none => exact ⟨holder, by simp [step, lease, found, turn, heard], by simp⟩
      | some next =>
          have step := shutdownStep?_eq_some_iff.1 found
          exact ⟨next.state, by simp [Custody.step, lease, found, turn, follow, heard, Stepped.map],
            by simp [step.frame.2.2]⟩
  | drop => exact ⟨holder.cancel, by simp [step, lease, leave], by simp [cancel]⟩

variable (send valid maxMachineId) in
def Overran (custody : Custody σ) (actions : List Action) : Prop :=
  ∃ earlier later, actions = earlier ++ .renew :: later ∧
    ∃ holder, (custody.run send terms valid maxMachineId earlier).lease = .leased holder ∧
      holder.Overruns (custody.run send terms valid maxMachineId earlier).now

theorem overran_concat {actions : List Action} {action : Action} :
    custody.Overran send valid maxMachineId (actions ++ [action]) ↔
      custody.Overran send valid maxMachineId actions ∨
        action = .renew ∧ ∃ holder, (custody.run send terms valid maxMachineId actions).lease = .leased holder ∧
          holder.Overruns (custody.run send terms valid maxMachineId actions).now := by
  constructor
  · rintro ⟨earlier, later, split, overruns⟩
    rcases List.eq_nil_or_concat later with rfl | ⟨between, last, rfl⟩
    · obtain ⟨rfl, same⟩ := List.append_inj' split rfl
      exact .inr ⟨List.singleton_inj.1 same, overruns⟩
    · rw [List.concat_eq_append, ← List.cons_append, ← List.append_assoc] at split
      exact .inl ⟨earlier, between, (List.append_inj' split rfl).1, overruns⟩
  · rintro (⟨earlier, later, rfl, overruns⟩ | ⟨rfl, overruns⟩)
    · exact ⟨earlier, later ++ [action], by simp, overruns⟩
    · exact ⟨actions, [], rfl, overruns⟩

theorem Overran.leased {actions : List Action} (overran : custody.Overran send valid maxMachineId actions) :
    ∃ holder, (custody.run send terms valid maxMachineId actions).lease = .leased holder := by
  obtain ⟨earlier, later, rfl, holder, lease, _⟩ := overran
  obtain ⟨last, lease, _⟩ := evolves_run lease (.renew :: later)
  exact ⟨last, run_append earlier (.renew :: later) ▸ lease⟩

theorem starts_of_moves (recorded : custody.Recorded) (unleased : ∀ holder, custody.lease ≠ .leased holder)
    (moves : custody.Moves send terms valid maxMachineId later) (lease : later.lease = .leased holder) :
    later.startedAt? = some custody.now ∧
      (holder.renewer = .crashed ↔ Time.instantLimit ≤ custody.now + terms.renewalInterval) := by
  cases moves with
  | passes span => exact absurd lease (unleased holder)
  | renews leased step | shutsDown caller leased step | hears caller leased waits | drops leased =>
      exact absurd leased (unleased _)
  | @acquires next step =>
      obtain ⟨machineId, rfl⟩ := step.leased_eq lease
      unfold Recorded at recorded
      generalize custody.lease = acquisition at step recorded
      cases step with
      | leases finished fits =>
          refine ⟨by simp [startedAt?, follow, recorded.1, Acquisition.calls], ?_⟩
          rw [Holder.create, ← Time.later?_eq_none_iff]
          cases Time.later? custody.now terms.renewalInterval <;> simp
      | rejects finished large | fails finished | crashes finished => contradiction
      | @handsBack machineId call reply finished => cases reply <;> contradiction

theorem crashed_iff_overran {store : σ} (withstands : send.Withstands store (·.isRenewal)) (now : Nat)
    (actions : List Action) (leased : ((begin send terms now store).run send terms valid maxMachineId actions).lease =
      .leased holder) :
    ∃ start, ((begin send terms now store).run send terms valid maxMachineId actions).startedAt? = some start ∧
      (holder.renewer = .crashed ↔ Time.instantLimit ≤ start + terms.renewalInterval ∨
        (begin send terms now store).Overran send valid maxMachineId actions) := by
  -- An overrun is told by the state before the last action, so the induction goes from the end.
  induction actions using List.reverseRecOn generalizing holder with
  | nil => contradiction
  | append_singleton actions action hypothesis =>
      obtain ⟨tended, _, recorded⟩ := tended_run valid maxMachineId withstands now actions
      have concat : (begin send terms now store).run send terms valid maxMachineId (actions ++ [action]) =
          ((begin send terms now store).run send terms valid maxMachineId actions).step send terms valid maxMachineId
            action := run_append actions [action]
      rw [concat] at leased ⊢
      rw [overran_concat]
      by_cases before : ∃ holder, ((begin send terms now store).run send terms valid maxMachineId actions).lease =
          .leased holder
      · obtain ⟨before, lease⟩ := before
        obtain ⟨start, started, crashed_iff⟩ := hypothesis lease
        obtain ⟨same, lease', step_iff⟩ := crashed_step valid maxMachineId tended lease action
        obtain rfl := Acquisition.leased.inj (lease'.symm.trans leased)
        refine ⟨start, startedAt?_step started action, ?_⟩
        rw [step_iff, crashed_iff, lease]
        simp [or_assoc]
      · have unstarted : ¬ (begin send terms now store).Overran send valid maxMachineId actions :=
          fun overran => before overran.leased
        generalize (begin send terms now store).run send terms valid maxMachineId actions = custody at *
        rcases custody.step_cases action with same | moves
        · rw [same] at leased
          exact absurd ⟨holder, leased⟩ before
        · obtain ⟨started, crashed_iff⟩ := starts_of_moves recorded (not_exists.1 before) moves leased
          refine ⟨_, started, crashed_iff.trans ?_⟩
          simp [unstarted, not_exists.1 before]

theorem renewals_follow (custody : Custody σ) (ended : List Call) (next : Stepped Acquisition σ) :
    (custody.follow ended next).renewals =
      custody.renewals + (next.notes.filterMap Note.begun?).countP Request.isRenewal := by
  rw [renewals, requests_follow, List.countP_append, renewals]

variable (send valid maxMachineId) in
theorem begins_of_due {due : Nat} (lease : custody.lease = .leased holder) (active : holder.cancelled = false)
    (waits : holder.renewer = .waiting due) (reached : due ≤ custody.now)
    (room : custody.now + holder.terms.renewalInterval < Time.instantLimit) :
    let later := custody.step send terms valid maxMachineId .renew
    later.renewals = custody.renewals + 1 ∧
      ∃ calling call next, later.lease = .leased calling ∧ calling.renewer = .calling call next := by
  cases found : nextDue holder.terms.renewalInterval due custody.now with
  | none =>
      have beyond := Nat.le_trans (nextDue_eq_none_iff.1 found) (followUp_bounds reached _).2
      exact absurd beyond (Nat.not_le.2 room)
  | some next =>
      have step : holder.RenewalStep send custody.now custody.store _ := .begins waits active reached found
      rw [Custody.step, lease]
      simp only [renewalStep?_eq_some_iff.2 step, Option.map_some, turn, Option.getD_some]
      exact ⟨renewals_follow _ _ _, _, _, _, rfl, rfl⟩

variable (send valid maxMachineId) in
theorem ends_of_calling {call : Call} {due : Nat} (lease : custody.lease = .leased holder)
    (calls : holder.renewer = .calling call due) :
    let later := custody.step send terms valid maxMachineId .renew
    later.renewals = custody.renewals ∧
      (call.reply ≠ .crashed → min call.endsAt call.deadline ≤ custody.now →
        ∃ waiting, later.lease = .leased waiting ∧ later.now = custody.now ∧ waiting.renewer = .waiting due ∧
          waiting.terms = holder.terms ∧ waiting.cancelled = holder.cancelled) := by
  rw [Custody.step, lease]
  cases result : call.result? custody.now with
  | none =>
      have waits : holder.renewalStep? send custody.now custody.store = none := by simp [renewalStep?, calls, result]
      simp only [waits, Option.map_none, turn, Option.getD_none, true_and]
      intro _ finished
      rw [Call.result?_eq_none_iff] at result
      omega
  | some reply =>
      have step : holder.RenewalStep send custody.now custody.store _ := .ends calls result
      simp only [renewalStep?_eq_some_iff.2 step, Option.map_some, turn, Option.getD_some]
      refine ⟨(renewals_follow _ _ _).trans ?_, fun survives _ => ⟨_, rfl, rfl, ?_⟩⟩
      · rw [Stepped.map, filterMap_begun?_end]
        rfl
      · cases reply with
        | ok _ | failed _ => exact ⟨rfl, rfl, rfl⟩
        | crashed => exact absurd (Call.reply_of_result? result) survives

theorem renews_again (tended : custody.Tended send terms) (same : holder.terms = terms)
    (lease : custody.lease = .leased holder) (active : holder.cancelled = false) (alive : ¬ holder.Gone) {span : Nat}
    (long : max terms.renewalInterval terms.storeTimeout ≤ span)
    (room : custody.now + span + terms.renewalInterval < Time.instantLimit) :
    (custody.run send terms valid maxMachineId [.pass span, .renew, .renew]).renewals = custody.renewals + 1 := by
  let passed : Custody σ := custody.step send terms valid maxMachineId (.pass span)
  let first : Custody σ := passed.step send terms valid maxMachineId .renew
  show (first.step send terms valid maxMachineId .renew).renewals = passed.renewals + 1
  subst same
  have standing := tended.standing holder lease
  generalize renewer : holder.renewer = renewer at standing
  cases standing with
  | @waiting due near =>
      -- The first turn begins the renewal, and the second leaves it alone.
      have reached : due ≤ passed.now := by
        show due ≤ custody.now + span
        omega
      obtain ⟨begun, calling, call, next, lease', calls⟩ :=
        begins_of_due send valid maxMachineId (show passed.lease = _ from lease) active renewer reached room
      rw [← begun]
      exact (ends_of_calling send valid maxMachineId lease' calls).1
  | @calling call due survives bounded near =>
      -- The first turn sees the renewal in flight to its end, and the second begins the next one.
      have finished : min call.endsAt call.deadline ≤ passed.now := by
        show _ ≤ custody.now + span
        omega
      have reached : due ≤ passed.now := by
        show due ≤ custody.now + span
        omega
      obtain ⟨quiet, ends⟩ := ends_of_calling send valid maxMachineId (show passed.lease = _ from lease) renewer
      obtain ⟨waiting, lease', now, waits, terms, cancelled⟩ := ends survives finished
      rw [← quiet]
      refine (begins_of_due send valid maxMachineId lease' (cancelled.trans active) waits ?_ ?_).1
      · rwa [now]
      · rw [now, terms]
        exact room
  | ended => exact absurd (.inl renewer) alive
  | crashed beyond => exact absurd (.inr renewer) alive

variable (valid maxMachineId) in
/-- The phase does not tell whether a lease is renewed. The renewer of a lease in use is alive unless the clock ended before
its first renewal or it has overrun, which cannot be while the clock goes on for another interval; and it attempts
another renewal as long as there is time for one. -/
theorem renewing_alive_iff {store : σ} (withstands : send.Withstands store (·.isRenewal)) (now : Nat)
    (actions : List Action) {holder : Holder}
    (leased : ((begin send terms now store).run send terms valid maxMachineId actions).lease = .leased holder)
    (renewing : holder.state? = some .renewing) :
    let custody := (begin send terms now store).run send terms valid maxMachineId actions
    (∃ start, custody.startedAt? = some start ∧
      (¬ holder.Gone ↔ start + terms.renewalInterval < Time.instantLimit ∧
        ¬ (begin send terms now store).Overran send valid maxMachineId actions)) ∧
    (custody.now + terms.renewalInterval < Time.instantLimit → ¬ holder.Gone) ∧
    ∀ span, max terms.renewalInterval terms.storeTimeout ≤ span →
      custody.now + span + terms.renewalInterval < Time.instantLimit →
      (custody.run send terms valid maxMachineId [.pass span, .renew, .renew]).renewals = custody.renewals + 1 := by
  intro custody
  obtain ⟨tended, regular, recorded⟩ := tended_run valid maxMachineId withstands now actions
  have active : holder.cancelled = false := (state?_eq_renewing_iff.1 renewing).2
  -- A renewer ends only if it has been cancelled.
  have gone_iff : holder.Gone ↔ holder.renewer = .crashed := by
    obtain ⟨_, records⟩ := recorded.records leased
    refine ⟨fun gone => gone.resolve_left fun ended => ?_, .inr⟩
    exact Bool.false_ne_true (active.symm.trans (records.cancelled ended))
  have alive (room : custody.now + terms.renewalInterval < Time.instantLimit) : ¬ holder.Gone := by
    rw [gone_iff]
    intro crashed
    have standing := tended.standing holder leased
    rw [crashed] at standing
    cases standing with
    | crashed beyond => exact Nat.not_le.2 room beyond
  obtain ⟨start, started, crashed_iff⟩ := crashed_iff_overran withstands now actions leased
  refine ⟨⟨start, started, ?_⟩, alive, fun span long room => ?_⟩
  · rw [gone_iff, crashed_iff, not_or, Nat.not_le]
  · exact renews_again tended (regular.keeps leased).terms_eq leased active (alive (by omega)) long room

theorem shaky_renews_again :
    let custody := (begin Simulation.Script.send {} 0 shaky).run Simulation.Script.send {} Terms.valid_default 100
      [.acquire, .pass (10 * Time.second), .renew, .pass Time.second, .renew]
    custody.history = [⟨11 * Time.second, some (.refused "busy")⟩] ∧
      (∃ holder, custody.lease = .leased holder ∧ holder.state? = some .renewing ∧ ¬ holder.Gone) ∧
      (custody.run Simulation.Script.send {} Terms.valid_default 100
        [.pass (10 * Time.second), .renew, .renew]).renewals = custody.renewals + 1 := by
  intro custody
  let holder : Holder := ⟨7, {}, Terms.valid_default, false, .waiting (20 * Time.second), 1, 0, .idle⟩
  have lasting : Simulation.Script.send.Withstands shaky (·.isRenewal) := by
    apply Simulation.Script.withstands
    intro request asked
    cases request with
    | renew machineId ttl => show ∀ behaviour ∈ shaky.renew, behaviour.ending ≠ .crash; decide
    | acquire _ | release _ => contradiction
  have leased : custody.lease = .leased holder := by decide +kernel
  obtain ⟨_, alive, again⟩ := renewing_alive_iff Terms.valid_default 100 lasting 0
    [.acquire, .pass (10 * Time.second), .renew, .pass Time.second, .renew] leased rfl
  exact ⟨by decide, ⟨holder, leased, rfl, alive (by decide)⟩, again (10 * Time.second) (by decide) (by decide)⟩

def longest : Terms where
  ttl := Time.longestSpan
  renewalInterval := Time.longestSpan - 1

/-- A lease with these terms is never renewed although its store is faultless, and the phase does not tell. -/
theorem longest_not_renewed :
    let custody := (begin Simulation.Script.send longest 0 { machineId := 5 }).run Simulation.Script.send longest
      (by decide) 100 [.acquire]
    Simulation.Script.send.Withstands { machineId := 5 } (fun _ => True) ∧
      ∃ holder, custody.lease = .leased holder ∧ holder.state? = some .renewing ∧ holder.Gone := by
  intro custody
  refine ⟨Simulation.Script.withstands fun request _ => ?_, ?_⟩
  · cases request <;> nofun
  · exact ⟨⟨5, longest, by decide, false, .crashed, 0, 0, .idle⟩, by decide +kernel, rfl, .inr rfl⟩

end Custody
end LeasedIds.Lease
