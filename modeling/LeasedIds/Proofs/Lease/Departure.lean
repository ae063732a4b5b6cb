import LeasedIds.Proofs.Lease.Pacing
import LeasedIds.Proofs.Lease.StopOutcome

namespace LeasedIds.Lease

variable {σ : Type}

/-! ## Calls on whole milliseconds -/

variable {send : Transport σ} {store : σ} {terms : Terms} {now : Nat}

theorem Transport.Punctual.asks {α : Type} {next : Stepped α σ} (punctual : send.Punctual store)
    (asks : next.Asks send store) : send.Punctual next.store := by
  intro requests request
  rw [asks, ← Transport.after_append]
  exact punctual _ request

namespace Call

def overAt (call : Call) : Nat := min call.endsAt call.deadline

structure Timed (terms : Terms) (now : Nat) (call : Call) : Prop where
  begun : call.begunAt ≤ now
  wholeEnd : Time.millisecond ∣ call.endsAt
  wholeDeadline : Time.millisecond ∣ call.deadline
  endsAt_le : call.endsAt ≤ call.begunAt + Time.longestSleep
  deadline_eq : call.deadline = Time.sleepEnd call.begunAt terms.storeTimeout

variable {call : Call}

theorem Timed.begin (brief : send.Brief) (punctual : send.Punctual store)
    (wholeTimeout : Time.millisecond ∣ terms.storeTimeout)
    (whole : Time.millisecond ∣ now) (request : Request) :
    (Call.begin send terms.storeTimeout now request store).1.Timed terms now := by
  refine ⟨Nat.le_refl now, Nat.dvd_add whole (punctual [] request), ?_, Nat.add_le_add_left (brief request store) now, rfl⟩
  exact Nat.dvd_add whole (Time.dvd_min wholeTimeout (by decide))

theorem Timed.pass (timed : call.Timed terms now) {later : Nat} (ahead : now ≤ later) : call.Timed terms later :=
  { timed with begun := Nat.le_trans timed.begun ahead }

theorem Timed.wake_eq (timed : call.Timed terms now) : call.wake = call.overAt := by
  rw [wake, Time.ceilMillis_of_dvd timed.wholeEnd, Time.ceilMillis_of_dvd timed.wholeDeadline, overAt]

theorem Timed.overAt_eq (timed : call.Timed terms now) :
    call.overAt = min call.endsAt (call.begunAt + terms.storeTimeout) := by
  have := timed.endsAt_le
  rw [overAt, timed.deadline_eq, Time.sleepEnd]
  omega

theorem Timed.overAt_le (timed : call.Timed terms now) :
    call.overAt ≤ call.begunAt + min terms.storeTimeout Time.longestSleep := by
  have := timed.endsAt_le
  rw [timed.overAt_eq]
  omega

theorem result?_isSome_iff : (call.result? now).isSome ↔ call.overAt ≤ now := by
  rw [← not_iff_not, Bool.not_eq_true, Option.isSome_eq_false_iff, Option.isNone_iff_eq_none, result?_eq_none_iff, overAt,
    Nat.not_le]

end Call

/-! ## The end of the renewer -/

/-- When the renewal in flight ends or is given up; now, if there is none. -/
def Renewer.endsBy (limit now : Nat) : Renewer → Nat
  | .calling call _ => min call.endsAt (call.begunAt + limit)
  | .waiting _ | .ended | .crashed => now

def Note.startsRelease (note : Note) : Bool := note.begun?.any Request.isRelease

theorem times_startsRelease_end (call : Call) (now : Nat) (events : List Event) :
    Note.times Note.startsRelease now (call.endNotes now ++ events.map .event) = [] := by
  rw [Note.times, List.map_eq_nil_iff, List.filter_eq_nil_iff]
  intro note member
  have silent := List.filterMap_eq_nil_iff.1 (filterMap_begun?_end call now events) note member
  simp [Note.startsRelease, silent]

namespace Holder

variable {holder : Holder} {credit : Nat} {next : Stepped Holder σ}

theorem RenewalStep.times_startsRelease (step : holder.RenewalStep send now store next) :
    Note.times Note.startsRelease now next.notes = [] := by
  cases step with
  | stops waits cancelled | begins waits active reached found | breaks waits active reached late => rfl
  | ends calls finished => exact times_startsRelease_end _ now _

theorem renew_of_waits (able : credit ≠ 0) (waits : holder.renewalStep? send now store = none) :
    holder.renew send now credit store = ⟨(holder, credit), store, []⟩ := by
  unfold renew
  rw [if_neg fun spent => able spent.1]
  split
  next => rfl
  next next found =>
    rw [waits] at found
    contradiction

theorem renew_of_step (able : credit ≠ 0) (step : holder.renewalStep? send now store = some next) :
    ∃ left, credit - 1 ≤ left ∧
      holder.renew send now credit store = (next.state.renew send now left next.store).after next.notes := by
  refine ⟨if holder.isAnswered then credit else credit - 1, ?_, ?_⟩
  · split <;> omega
  · conv => lhs; unfold renew
    rw [if_neg fun spent => able spent.1]
    split
    next waits =>
      rw [step] at waits
      contradiction
    next other found =>
      obtain rfl := Option.some.inj (found.symm.trans step)
      rfl

theorem Gone.awaitsRenewal_eq (gone : holder.Gone) : holder.awaitsRenewal = false := by
  rcases gone with ended | crashed
  · rw [awaitsRenewal, ended]
  · rw [awaitsRenewal, crashed]

theorem Gone.renewalWake?_eq (gone : holder.Gone) : holder.renewalWake? = none := by
  rcases gone with ended | crashed
  · rw [renewalWake?, ended]
  · rw [renewalWake?, crashed]

theorem Gone.renewalStep?_eq (gone : holder.Gone) : holder.renewalStep? send now store = none :=
  Option.eq_none_iff_forall_ne_some.2 fun _ step => (renewalStep?_eq_some_iff.1 step).not_gone gone

theorem renew_of_gone (gone : holder.Gone) (credit : Nat) : (holder.renew send now credit store).state.1 = holder := by
  have kept (stepped next : Stepped Holder σ) (same : stepped.state = holder)
      (step : stepped.state.RenewalStep send now stepped.store next) : (next.after stepped.notes).state = holder :=
    absurd gone (same ▸ step.not_gone)
  exact renew_induction kept rfl credit

structure InUse (terms : Terms) (now : Nat) (holder : Holder) : Prop where
  terms_eq : holder.terms = terms
  active : holder.cancelled = false
  idle : holder.shutdown = .idle
  timed : ∀ call ∈ holder.renewer.calls, call.Timed terms now

theorem InUse.create (machineId : Nat) (terms : Terms) (valid : terms.Valid) (now : Nat) :
    InUse terms now (.create machineId terms valid now) := by
  refine ⟨rfl, rfl, rfl, ?_⟩
  rw [Holder.create]
  cases Time.later? now terms.renewalInterval <;> exact List.forall_mem_nil _

theorem InUse.pass (inUse : holder.InUse terms now) {later : Nat} (ahead : now ≤ later) : holder.InUse terms later :=
  { inUse with timed := fun call member => (inUse.timed call member).pass ahead }

theorem InUse.step (inUse : holder.InUse terms now) (brief : send.Brief) (punctual : send.Punctual store)
    (wholeTimeout : Time.millisecond ∣ terms.storeTimeout) (whole : Time.millisecond ∣ now)
    (step : holder.RenewalStep send now store next) : next.state.InUse terms now := by
  obtain ⟨_, sameTerms, cancelled, shutdown⟩ := step.frame
  refine ⟨sameTerms.trans inUse.terms_eq, cancelled.trans inUse.active, shutdown.trans inUse.idle, ?_⟩
  cases step with
  | stops waits cancelled | breaks waits active reached late => exact List.forall_mem_nil _
  | begins waits active reached found =>
      refine List.forall_mem_singleton.2 ?_
      rw [inUse.terms_eq]
      exact .begin brief punctual wholeTimeout whole _
  | @ends call due reply calls finished => cases reply <;> exact List.forall_mem_nil _

theorem InUse.renew (inUse : holder.InUse terms now) (brief : send.Brief) (punctual : send.Punctual store)
    (wholeTimeout : Time.millisecond ∣ terms.storeTimeout) (whole : Time.millisecond ∣ now) (credit : Nat) :
    let left := holder.renew send now credit store
    left.state.1.InUse terms now ∧ send.Punctual left.store ∧
      Note.times Note.startsRelease now left.notes = [] := by
  have kept (stepped next : Stepped Holder σ)
      (holds : stepped.state.InUse terms now ∧ send.Punctual stepped.store ∧
        Note.times Note.startsRelease now stepped.notes = [])
      (step : stepped.state.RenewalStep send now stepped.store next) :
      next.state.InUse terms now ∧ send.Punctual next.store ∧
        Note.times Note.startsRelease now (stepped.notes ++ next.notes) = [] := by
    obtain ⟨inUse, punctual, silent⟩ := holds
    refine ⟨inUse.step brief punctual wholeTimeout whole step, punctual.asks step.asks, ?_⟩
    rw [Note.times_append, silent, step.times_startsRelease, List.nil_append]
  exact renew_induction kept ⟨inUse, punctual, rfl⟩ credit

structure Quits (now : Nat) (holder : Holder) (store : σ) (left : Stepped (Holder × Nat) σ) : Prop where
  machineId_eq : left.state.1.machineId = holder.machineId
  terms_eq : left.state.1.terms = holder.terms
  shutdown_eq : left.state.1.shutdown = holder.shutdown
  store_eq : left.store = store
  silent : Note.times Note.startsRelease now left.notes = []
  gone : left.state.1.Gone

theorem gone_of_waiting (cancelled : holder.cancelled = true) {due : Nat} (waits : holder.renewer = .waiting due)
    (able : credit ≠ 0) : (holder.renew send now credit store).state.1.Gone := by
  obtain ⟨left, _, same⟩ := renew_of_step able (renewalStep?_eq_some_iff.2 (.stops waits cancelled))
  rw [same]
  show ((Holder.renew send now left _ store).state.1).Gone
  rw [renew_of_gone (.inl rfl)]
  exact .inl rfl

/-- A cancelled renewer sees the renewal in flight to its end, and then ends in the same turn. -/
theorem gone_of_calling (cancelled : holder.cancelled = true) {call : Call} {due : Nat}
    (calls : holder.renewer = .calling call due) (finished : call.overAt ≤ now) (able : 2 ≤ credit) :
    (holder.renew send now credit store).state.1.Gone := by
  obtain ⟨reply, result⟩ := Option.isSome_iff_exists.1 (Call.result?_isSome_iff.2 finished)
  have solvent : credit ≠ 0 := by omega
  obtain ⟨left, remains, same⟩ := renew_of_step solvent (renewalStep?_eq_some_iff.2 (.ends calls result))
  rw [same]
  show ((Holder.renew send now left _ store).state.1).Gone
  cases reply with
  | ok _ | failed _ => exact gone_of_waiting cancelled rfl (by omega)
  | crashed =>
      rw [renew_of_gone (.inr rfl)]
      exact .inr rfl

theorem quits_of_cancelled (cancelled : holder.cancelled = true)
    (finished : ∀ call ∈ holder.renewer.calls, call.overAt ≤ now) (able : 2 ≤ credit) :
    holder.Quits now store (holder.renew send now credit store) := by
  -- A cancelled renewer begins no call, so that its steps leave the store alone.
  have kept (stepped next : Stepped Holder σ)
      (holds : (stepped.state.machineId = holder.machineId ∧ stepped.state.terms = holder.terms ∧
        stepped.state.cancelled = true ∧ stepped.state.shutdown = holder.shutdown) ∧ stepped.store = store ∧
        Note.times Note.startsRelease now stepped.notes = [])
      (step : stepped.state.RenewalStep send now stepped.store next) :
      (next.state.machineId = holder.machineId ∧ next.state.terms = holder.terms ∧
        next.state.cancelled = true ∧ next.state.shutdown = holder.shutdown) ∧ next.store = store ∧
        Note.times Note.startsRelease now (stepped.notes ++ next.notes) = [] := by
    obtain ⟨⟨machineId, terms, cancelled, shutdown⟩, held, silent⟩ := holds
    obtain ⟨machineId', terms', cancelled', shutdown'⟩ := step.frame
    refine ⟨⟨machineId'.trans machineId, terms'.trans terms, cancelled'.trans cancelled, shutdown'.trans shutdown⟩, ?_, ?_⟩
    · cases step with
      | begins waits active reached found =>
          rw [cancelled] at active
          contradiction
      | stops | breaks | ends => exact held
    · rw [Note.times_append, silent, step.times_startsRelease, List.nil_append]
  obtain ⟨⟨machineId, terms, _, shutdown⟩, held, silent⟩ :=
    renew_induction kept ⟨⟨rfl, rfl, cancelled, rfl⟩, rfl, rfl⟩ credit
  refine ⟨machineId, terms, shutdown, held, silent, ?_⟩
  cases renewer : holder.renewer with
  | waiting due => exact gone_of_waiting cancelled renewer (by omega)
  | calling call due => exact gone_of_calling cancelled renewer (finished call (by rw [renewer]; simp [Renewer.calls])) able
  | ended =>
      rw [renew_of_gone (.inl renewer)]
      exact .inl renewer
  | crashed =>
      rw [renew_of_gone (.inr renewer)]
      exact .inr renewer

/-! ## The shutdown -/

theorem shutDown_of_waits (waits : holder.shutdownStep? send now store = none) :
    holder.shutDown send now store = ⟨holder, store, []⟩ := by
  unfold shutDown
  split
  next => rfl
  next next found =>
    rw [waits] at found
    contradiction

theorem shutDown_of_step (step : holder.ShutdownStep send now store next) :
    holder.shutDown send now store = (next.state.shutDown send now next.store).after next.notes := by
  conv => lhs; unfold shutDown
  split
  next waits =>
    rw [shutdownStep?_eq_some_iff.2 step] at waits
    contradiction
  next other found =>
    obtain rfl := Option.some.inj (found.symm.trans (shutdownStep?_eq_some_iff.2 step))
    rfl

def joined (holder : Holder) : Holder := { holder.cancel with shutdown := .joining }

theorem shutDown_of_alive (pending : holder.shutdown = .idle ∨ holder.shutdown = .joining ∧ holder.cancelled = true)
    (alive : ¬ holder.Gone) : holder.shutDown send now store = ⟨holder.joined, store, []⟩ := by
  have waits : holder.joined.shutDown send now store = ⟨holder.joined, store, []⟩ := by
    apply shutDown_of_waits
    cases renewer : holder.renewer with
    | waiting _ | calling _ _ => simp [shutdownStep?, joined, cancel, renewer]
    | ended => exact absurd (.inl renewer) alive
    | crashed => exact absurd (.inr renewer) alive
  rcases pending with idle | ⟨joining, cancelled⟩
  · exact (shutDown_of_step (.cancels idle)).trans (congrArg (Stepped.after []) waits)
  · have same : holder.joined = holder := by
      rw [joined, cancel, ← joining, ← cancelled]
    rwa [same] at waits ⊢

structure Releasing (now : Nat) (holder : Holder) (release : Call) (last : Stepped Holder σ) : Prop where
  machineId_eq : last.state.machineId = holder.machineId
  renewer_eq : last.state.renewer = holder.renewer
  outcome : now < release.overAt ∧ last.state.shutdown = .releasing release ∨
    ∃ reply, release.result? now = some reply ∧ last.state.stopOutcome? = some (reply.stopOutcome holder.machineId)

variable (send store now) in
theorem shutDown_of_releasing {release : Call} (releasing : holder.shutdown = .releasing release) :
    let last := holder.shutDown send now store
    holder.Releasing now release last ∧ Note.times Note.startsRelease now last.notes = [] := by
  cases result : release.result? now with
  | none =>
      rw [shutDown_of_waits (by simp [shutdownStep?, releasing, result])]
      exact ⟨⟨rfl, rfl, .inl ⟨Call.result?_eq_none_iff.1 result, releasing⟩⟩, rfl⟩
  | some reply =>
      have closed := stopOutcome?_releaseEnded holder reply
      rw [shutDown_of_step (.ends releasing result), shutDown_of_waits (shutdownStep?_of_stopOutcome? send now store closed)]
      obtain ⟨machineId, _, renewer⟩ := (show holder.ShutdownStep send now store _ from .ends releasing result).frame
      refine ⟨⟨machineId, renewer, .inr ⟨reply, result, closed⟩⟩, ?_⟩
      exact (congrArg _ (List.append_nil _)).trans (times_startsRelease_end release now _)

def release (send : Transport σ) (now : Nat) (holder : Holder) (store : σ) : Call :=
  (Call.begin send holder.terms.storeTimeout now (.release holder.machineId) store).1

variable (send store now) in
theorem shutDown_of_joining_gone (joining : holder.shutdown = .joining) (gone : holder.Gone) :
    let last := holder.shutDown send now store
    holder.Releasing now (holder.release send now store) last ∧ Note.times Note.startsRelease now last.notes = [now] := by
  obtain ⟨notes, silent, step⟩ : ∃ notes, Note.times Note.startsRelease now notes = [] ∧
      holder.ShutdownStep send now store ((holder.beginRelease send now store).after notes) := by
    rcases gone with ended | crashed
    · exact ⟨[], rfl, .releases joining (.inl ⟨ended, rfl⟩)⟩
    · exact ⟨_, rfl, .releases joining (.inr ⟨crashed, rfl⟩)⟩
  let begun : Holder := { holder with shutdown := .releasing (holder.release send now store) }
  obtain ⟨⟨machineId, renewer, outcome⟩, quiet⟩ :=
    shutDown_of_releasing send (holder.beginRelease send now store).store now
      (show begun.shutdown = .releasing (holder.release send now store) from rfl)
  rw [shutDown_of_step step]
  refine ⟨⟨machineId, renewer, outcome⟩, ?_⟩
  show Note.times _ now ((notes ++ [_]) ++ (begun.shutDown send now _).notes) = [now]
  rw [Note.times_append, Note.times_append, silent]
  exact congrArg (now :: ·) quiet

theorem shutDown_of_gone (pending : holder.shutdown.releases = 0) (gone : holder.Gone) :
    let last := holder.shutDown send now store
    holder.Releasing now (holder.release send now store) last ∧ Note.times Note.startsRelease now last.notes = [now] := by
  cases shutdown : holder.shutdown with
  | idle =>
      rw [shutDown_of_step (.cancels shutdown)]
      obtain ⟨⟨machineId, renewer, outcome⟩, begun⟩ :=
        shutDown_of_joining_gone send store now (show holder.joined.shutdown = _ from rfl) gone
      exact ⟨⟨machineId, renewer, outcome⟩, begun⟩
  | joining => exact shutDown_of_joining_gone send store now shutdown gone
  | releasing _ | done _ | crashed => simp [shutdown, Shutdown.releases] at pending

theorem le_overAt_release (holder : Holder) (store : σ) : now ≤ (holder.release send now store).overAt :=
  Nat.le_min.2 ⟨Nat.le_add_right _ _, Nat.le_add_right _ _⟩

/-- A release is over when the store has answered or the time is up, and the answer wins a tie. -/
theorem release_overAt (brief : send.Brief) (holder : Holder) (now : Nat) (store : σ) :
    let answer := (send (.release holder.machineId) store).1
    let call := holder.release send now store
    call.overAt = now + min answer.delay holder.terms.storeTimeout ∧
      call.result? call.overAt = some (if answer.delay ≤ holder.terms.storeTimeout then answer.reply
        else .failed (.timedOut holder.terms.storeTimeout)) := by
  intro answer call
  have cut : answer.delay ≤ Time.longestSleep := brief _ store
  have overAt : call.overAt = now + min answer.delay holder.terms.storeTimeout := by
    show min (now + answer.delay) (now + min holder.terms.storeTimeout Time.longestSleep) = _
    omega
  refine ⟨overAt, ?_⟩
  rw [overAt, Call.result?]
  show (if now + answer.delay ≤ _ then _ else
    if now + min holder.terms.storeTimeout Time.longestSleep ≤ _ then _ else _) = _
  by_cases inTime : answer.delay ≤ holder.terms.storeTimeout
  · rw [if_pos (by omega), if_pos inTime]
    rfl
  · rw [if_neg (by omega), if_pos (by omega), if_neg inTime]
    rfl

end Holder
end LeasedIds.Lease
