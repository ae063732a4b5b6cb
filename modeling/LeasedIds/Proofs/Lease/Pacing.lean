import LeasedIds.Proofs.Lease.Cadence
import LeasedIds.Proofs.Lease.CallOrder

namespace LeasedIds

namespace Time

theorem dvd_ceilMillis (instant : Nat) : millisecond ∣ ceilMillis instant := Nat.dvd_mul_left _ _

theorem le_ceilMillis (instant : Nat) : instant ≤ ceilMillis instant := by
  unfold ceilMillis
  have := Nat.div_add_mod (instant + (millisecond - 1)) millisecond
  have := Nat.mod_lt (instant + (millisecond - 1)) (show millisecond > 0 by decide)
  have : millisecond = 1000000 := rfl
  rw [Nat.mul_comm]
  omega

theorem ceilMillis_of_dvd {instant : Nat} (whole : millisecond ∣ instant) : ceilMillis instant = instant := by
  obtain ⟨count, rfl⟩ := whole
  have fraction : millisecond - 1 < millisecond := by decide
  rw [ceilMillis, Nat.mul_add_div (by decide), Nat.div_eq_of_lt fraction, Nat.add_zero, Nat.mul_comm]

theorem dvd_min {first second : Nat} (whole : millisecond ∣ first) (whole' : millisecond ∣ second) :
    millisecond ∣ min first second :=
  min_ind (motive := (millisecond ∣ ·)) (fun _ => whole) fun _ => whole'

end Time

namespace Lease

structure Terms.Timely (terms : Terms) : Prop where
  wholeInterval : Time.millisecond ∣ terms.renewalInterval
  wholeTimeout : Time.millisecond ∣ terms.storeTimeout

theorem dvd_followUp {interval due start : Nat} (wholeInterval : Time.millisecond ∣ interval)
    (wholeDue : Time.millisecond ∣ due) (wholeStart : Time.millisecond ∣ start) :
    Time.millisecond ∣ followUp interval due start := by
  unfold followUp
  split
  · exact Nat.dvd_add wholeStart wholeInterval
  · exact Time.dvd_min (Nat.dvd_add wholeDue wholeInterval) (Nat.dvd_add wholeStart (by decide))

namespace Note

def startsRenewal (note : Note) : Bool := note.begun?.any Request.isRenewal

def endsRenewal : Note → Bool
  | .event (.renewed _) | .event (.recovered _ _) | .event (.renewalFailed _ _ _) => true
  | _ => false

def Silent (note : Note) : Prop := note.startsRenewal = false ∧ note.endsRenewal = false

def times (kind : Note → Bool) (now : Nat) (notes : List Note) : List Nat := (notes.filter kind).map fun _ => now

theorem times_append (kind : Note → Bool) (now : Nat) (earlier later : List Note) :
    times kind now (earlier ++ later) = times kind now earlier ++ times kind now later := by
  rw [times, List.filter_append, List.map_append, times, times]

end Note

theorem Transport.Withstands.asks {σ α : Type} {send : Transport σ} {store : σ} {kind : Request → Prop}
    {next : Stepped α σ} (withstands : send.Withstands store kind) (asks : next.Asks send store) :
    send.Withstands next.store kind := by
  intro requests request asked
  rw [asks, ← Transport.after_append]
  exact withstands _ request asked

theorem Call.dvd_wake (call : Call) : Time.millisecond ∣ call.wake :=
  Time.dvd_min (Time.dvd_ceilMillis _) (Time.dvd_ceilMillis _)

theorem Call.silent_endNotes (call : Call) (now : Nat) : ∀ note ∈ call.endNotes now, note.Silent := by
  unfold Call.endNotes
  split
  · rw [List.forall_mem_singleton]
    cases call.reply <;> exact ⟨rfl, rfl⟩
  · nofun

theorem Call.result?_eq_none_iff {call : Call} {now : Nat} :
    call.result? now = none ↔ now < min call.endsAt call.deadline := by
  unfold Call.result?
  split
  next answered => exact ⟨nofun, fun waits => by omega⟩
  next unanswered =>
    split
    next late => exact ⟨nofun, fun waits => by omega⟩
    next inTime => exact ⟨fun _ => by omega, fun _ => rfl⟩

theorem Call.lt_wake {call : Call} {now : Nat} (waits : call.result? now = none) : now < call.wake := by
  obtain ⟨unanswered, inTime⟩ := Nat.lt_min.1 (Call.result?_eq_none_iff.1 waits)
  exact Nat.lt_min.2 ⟨Nat.lt_of_lt_of_le unanswered (Time.le_ceilMillis _),
    Nat.lt_of_lt_of_le inTime (Time.le_ceilMillis _)⟩

theorem Call.wake_le {call : Call} {limit : Nat} (deadline : call.deadline = Time.sleepEnd call.begunAt limit)
    (wholeStart : Time.millisecond ∣ call.begunAt) (wholeLimit : Time.millisecond ∣ limit) :
    call.wake ≤ call.begunAt + min limit Time.longestSleep := by
  have whole : Time.millisecond ∣ call.deadline := by
    rw [deadline, Time.sleepEnd]
    exact Nat.dvd_add wholeStart (Time.dvd_min wholeLimit (by decide))
  calc
    call.wake ≤ Time.ceilMillis call.deadline := Nat.min_le_right _ _
    _ = call.begunAt + min limit Time.longestSleep := by rw [Time.ceilMillis_of_dvd whole, deadline, Time.sleepEnd]

namespace Holder

section

variable {σ : Type} {send : Transport σ} {now : Nat} {holder : Holder} {store : σ}

theorem renew_induction {Holds : Stepped Holder σ → Prop}
    (kept : ∀ stepped next, Holds stepped → stepped.state.RenewalStep send now stepped.store next →
      Holds (next.after stepped.notes)) (holds : Holds ⟨holder, store, []⟩) (credit : Nat) :
    Holds ((holder.renew send now credit store).map Prod.fst) := by
  suffices later : ∀ notes, Holds ⟨holder, store, notes⟩ →
      Holds (((holder.renew send now credit store).map Prod.fst).after notes) from later [] holds
  clear holds
  fun_induction Holder.renew send now credit holder store with
  | case1 credit holder store spent => exact fun notes holds => by simpa [Stepped.after, Stepped.map] using holds
  | case2 credit holder store left waits => exact fun notes holds => by simpa [Stepped.after, Stepped.map] using holds
  | case3 credit holder store left next found lower hypothesis =>
      intro notes holds
      have stepped := kept _ next holds (renewalStep?_eq_some_iff.1 found)
      have further := hypothesis _ stepped
      rwa [Stepped.after, List.append_assoc] at further

theorem renew_rests (credit : Nat) (holder : Holder) (store : σ) :
    let left := holder.renew send now credit store
    left.state.1.renewalRank now + credit ≤ holder.renewalRank now + left.state.2 ∧
      (left.state.2 = 0 ∨ left.state.1.renewalStep? send now left.store = none) := by
  fun_induction Holder.renew send now credit holder store with
  | case1 credit holder store spent => simp [spent.1]
  | case2 credit holder store left waits => simp [waits]
  | case3 credit holder store left next found lower hypothesis =>
      simp only [dite_eq_ite] at hypothesis
      obtain ⟨rank, rests⟩ := hypothesis
      have cost : credit ≤ (if holder.isAnswered then credit else credit - 1) + 1 := by
        split <;> omega
      have lowered := renewalStep?_rank send now found
      refine ⟨?_, rests⟩
      dsimp only [Stepped.after]
      omega

theorem lt_renewalWake (waits : holder.renewalStep? send now store = none) :
    ∀ wake ∈ holder.renewalWake?, now < wake := by
  unfold renewalStep? at waits
  unfold renewalWake?
  cases renewer : holder.renewer with
  | waiting due =>
      have early : ¬ due ≤ now := by
        intro reached
        cases cancelled : holder.cancelled <;>
          cases found : nextDue holder.terms.renewalInterval due now <;>
            simp [renewer, cancelled, reached, found] at waits
      rintro _ ⟨⟩
      exact Nat.lt_of_lt_of_le (Nat.lt_of_not_le early) (Time.le_ceilMillis due)
  | calling call due =>
      rw [renewer, Option.map_eq_none_iff] at waits
      rintro _ ⟨⟩
      exact Call.lt_wake waits
  | ended | crashed => simp

end

/-- What a renewer on the cadence is doing. It does not sleep beyond the instant at which it has something to do. -/
inductive Pacing (origin : Nat) (terms : Terms) (now : Nat) : Renewer → List Nat → List Nat → Prop where
  | waiting {starts ends : List Nat} (cadence : Cadence origin terms starts ends)
      (wholeDue : Time.millisecond ∣ dueAfter origin terms starts)
      (past : ends.getLastD origin ≤ now) (prompt : now ≤ nextStart origin terms starts ends) :
      Pacing origin terms now (.waiting (dueAfter origin terms starts)) starts ends
  | calling {starts ends : List Nat} {call : Call} (cadence : Cadence origin terms starts ends)
      (begun : call.begunAt = nextStart origin terms starts ends)
      (deadline : call.deadline = Time.sleepEnd call.begunAt terms.storeTimeout)
      (survives : call.reply ≠ .crashed) (wholeStart : Time.millisecond ∣ call.begunAt)
      (wholeDue : Time.millisecond ∣ dueAfter origin terms (starts ++ [call.begunAt]))
      (past : call.begunAt ≤ now) (prompt : now ≤ call.wake) :
      Pacing origin terms now (.calling call (dueAfter origin terms (starts ++ [call.begunAt])))
        (starts ++ [call.begunAt]) ends
  | crashed {starts ends : List Nat} (cadence : Cadence origin terms starts ends)
      (beyond : Time.instantLimit ≤
        followUp terms.renewalInterval (dueAfter origin terms starts) (nextStart origin terms starts ends)) :
      Pacing origin terms now .crashed starts ends

structure Paced (origin : Nat) (terms : Terms) (now : Nat) (holder : Holder) (starts ends : List Nat) : Prop where
  terms_eq : holder.terms = terms
  active : holder.cancelled = false
  pacing : Pacing origin terms now holder.renewer starts ends

variable {origin now : Nat} {terms : Terms} {holder : Holder} {starts ends : List Nat} {σ : Type} {send : Transport σ}
  {store : σ} {next : Stepped Holder σ}

theorem Paced.create (machineId : Nat) (valid : terms.Valid) (timely : terms.Timely)
    (wholeOrigin : Time.millisecond ∣ origin) :
    Paced origin terms origin (.create machineId terms valid origin) [] [] := by
  refine ⟨rfl, rfl, ?_⟩
  have first : nextStart origin terms [] [] = dueAfter origin terms [] := Nat.max_eq_left (Nat.le_add_right _ _)
  rw [Holder.create]
  cases due : Time.later? origin terms.renewalInterval with
  | some due' =>
      obtain ⟨_, rfl⟩ := Time.later?_eq_some_iff.1 due
      exact .waiting .new (Nat.dvd_add wholeOrigin timely.wholeInterval) (Nat.le_refl _)
        (first ▸ Nat.le_add_right _ _)
  | none =>
      refine .crashed .new ?_
      rw [first, followUp_self]
      exact Nat.le_trans (Time.later?_eq_none_iff.1 due) (Nat.le_add_right _ _)

theorem Pacing.now_eq {due : Nat} (pacing : Pacing origin terms now (.waiting due) starts ends) (reached : due ≤ now) :
    now = nextStart origin terms starts ends := by
  cases pacing with
  | waiting cadence wholeDue past prompt => exact Nat.le_antisymm prompt (Nat.max_le.2 ⟨reached, past⟩)

theorem Pacing.begins {due later : Nat} (pacing : Pacing origin terms now (.waiting due) starts ends)
    (timely : terms.Timely) (whole : Time.millisecond ∣ now) (reached : due ≤ now)
    (found : nextDue terms.renewalInterval due now = some later) {call : Call} (begun : call.begunAt = now)
    (deadline : call.deadline = Time.sleepEnd now terms.storeTimeout) (survives : call.reply ≠ .crashed)
    (lasts : now ≤ call.endsAt) : Pacing origin terms now (.calling call later) (starts ++ [now]) ends := by
  have start := pacing.now_eq reached
  cases pacing with
  | waiting cadence wholeDue past prompt =>
      obtain ⟨_, rfl⟩ := Time.instant?_eq_some_iff.1 found
      have wakes : now ≤ call.wake := by
        refine Nat.le_min.2 ⟨Nat.le_trans lasts (Time.le_ceilMillis _), Nat.le_trans ?_ (Time.le_ceilMillis _)⟩
        rw [deadline]
        exact Nat.le_add_right _ _
      have wholeNext : Time.millisecond ∣ dueAfter origin terms (starts ++ [now]) := by
        rw [dueAfter_snoc]
        exact dvd_followUp timely.wholeInterval wholeDue whole
      rw [← dueAfter_snoc]
      subst begun
      exact .calling cadence start deadline survives whole wholeNext (Nat.le_refl _) wakes

theorem Pacing.breaks {due : Nat} (pacing : Pacing origin terms now (.waiting due) starts ends) (reached : due ≤ now)
    (late : nextDue terms.renewalInterval due now = none) : Pacing origin terms now .crashed starts ends := by
  have start := pacing.now_eq reached
  cases pacing with
  | waiting cadence wholeDue past prompt =>
      refine .crashed cadence ?_
      rw [← start]
      exact Time.instant?_eq_none_iff.1 late

theorem Pacing.finishes {call : Call} {due : Nat} {reply : Reply}
    (pacing : Pacing origin terms now (.calling call due) starts ends) (timely : terms.Timely)
    (finished : call.result? now = some reply) :
    reply ≠ .crashed ∧ Pacing origin terms now (.waiting due) starts (ends ++ [now]) := by
  cases pacing with
  | @calling starts _ _ cadence begun deadline survives wholeStart wholeDue past prompt =>
      refine ⟨fun crashed => survives (Call.reply_of_result? (crashed ▸ finished)), ?_⟩
      -- The renewer has its turn no later than the timer of the call rings, and that is at the deadline.
      have bounded := Nat.le_trans prompt (Call.wake_le deadline wholeStart timely.wholeTimeout)
      have later : Cadence origin terms (starts ++ [call.begunAt]) (ends ++ [now]) := by
        rw [begun] at past bounded ⊢
        exact .snoc cadence past bounded
      refine .waiting later wholeDue ?_ ?_
      · rw [List.getLastD_concat]
      · rw [nextStart_snoc]
        exact Nat.le_max_right _ _

theorem Pacing.pass {renewer : Renewer} (pacing : Pacing origin terms now renewer starts ends) {later : Nat}
    (ahead : now ≤ later) (awake : ∀ due, renewer = .waiting due → later ≤ Time.ceilMillis due)
    (awake' : ∀ call due, renewer = .calling call due → later ≤ call.wake) :
    Pacing origin terms later renewer starts ends := by
  cases pacing with
  | waiting cadence wholeDue past prompt =>
      have due := awake _ rfl
      rw [Time.ceilMillis_of_dvd wholeDue] at due
      exact .waiting cadence wholeDue (Nat.le_trans past ahead) (Nat.le_trans due (dueAfter_le_nextStart ..))
  | calling cadence begun deadline survives wholeStart wholeDue past prompt =>
      exact .calling cadence begun deadline survives wholeStart wholeDue (Nat.le_trans past ahead) (awake' _ _ rfl)
  | crashed cadence beyond => exact .crashed cadence beyond

theorem times_startsRenewal_end (call : Call) (now : Nat) (events : List Event) :
    Note.times Note.startsRenewal now (call.endNotes now ++ events.map .event) = [] := by
  have silent := filterMap_begun?_end call now events
  rw [List.filterMap_eq_nil_iff] at silent
  rw [Note.times, List.map_eq_nil_iff, List.filter_eq_nil_iff]
  intro note member
  simp [Note.startsRenewal, silent note member]

theorem times_endsRenewal_end (holder : Holder) (call : Call) (now due : Nat) {reply : Reply}
    (survived : reply ≠ .crashed) :
    Note.times Note.endsRenewal now (call.endNotes now ++ (holder.renewalEnded now due reply).2.map .event) = [now] := by
  have silent : Note.times Note.endsRenewal now (call.endNotes now) = [] := by
    unfold Call.endNotes
    split <;> rfl
  rw [Note.times_append, silent, List.nil_append]
  cases reply with
  | ok machineId =>
      rw [renewalEnded]
      split <;> rfl
  | failed cause =>
      rw [renewalEnded]
      dsimp only
      split <;> rfl
  | crashed => contradiction

theorem Paced.step (paced : Paced origin terms now holder starts ends) (timely : terms.Timely)
    (whole : Time.millisecond ∣ now)
    (answers : (send (.renew holder.machineId holder.terms.ttl) store).1.reply ≠ .crashed)
    (step : holder.RenewalStep send now store next) :
    Paced origin terms now next.state (starts ++ Note.times Note.startsRenewal now next.notes)
      (ends ++ Note.times Note.endsRenewal now next.notes) := by
  obtain ⟨_, sameTerms, same, _⟩ := step.frame
  refine ⟨sameTerms.trans paced.terms_eq, same.trans paced.active, ?_⟩
  have pacing := paced.pacing
  cases step with
  | stops waits cancelled =>
      rw [paced.active] at cancelled
      contradiction
  | begins waits active reached found =>
      rw [waits] at pacing
      rw [paced.terms_eq] at found
      have deadline : Time.sleepEnd now holder.terms.storeTimeout = Time.sleepEnd now terms.storeTimeout := by
        rw [paced.terms_eq]
      show Pacing origin terms now _ (starts ++ [now]) (ends ++ [])
      rw [List.append_nil]
      exact pacing.begins timely whole reached found rfl deadline answers (Nat.le_add_right _ _)
  | breaks waits active reached late =>
      rw [waits] at pacing
      rw [paced.terms_eq] at late
      show Pacing origin terms now _ (starts ++ []) (ends ++ [])
      rw [List.append_nil, List.append_nil]
      exact pacing.breaks reached late
  | @ends call due reply calls finished =>
      rw [calls] at pacing
      obtain ⟨survived, ended⟩ := pacing.finishes timely finished
      rw [times_startsRenewal_end, times_endsRenewal_end holder call now due survived, List.append_nil]
      cases reply with
      | ok _ | failed _ => exact ended
      | crashed => contradiction

theorem Paced.pass (paced : Paced origin terms now holder starts ends) {later : Nat} (ahead : now ≤ later)
    (awake : ∀ wake ∈ holder.renewalWake?, later ≤ wake) : Paced origin terms later holder starts ends := by
  refine ⟨paced.terms_eq, paced.active, paced.pacing.pass ahead ?_ ?_⟩
  · intro due waits
    exact awake _ (by rw [renewalWake?, waits]; rfl)
  · intro call due calls
    exact awake _ (by rw [renewalWake?, calls]; rfl)

theorem dvd_renewalWake (holder : Holder) : ∀ wake ∈ holder.renewalWake?, Time.millisecond ∣ wake := by
  intro wake found
  unfold renewalWake? at found
  split at found
  next due _ =>
    obtain rfl := Option.some.inj found
    exact Time.dvd_ceilMillis due
  next call due _ =>
    obtain rfl := Option.some.inj found
    exact call.dvd_wake
  all_goals contradiction

theorem Paced.renew (paced : Paced origin terms now holder starts ends) (timely : terms.Timely)
    (whole : Time.millisecond ∣ now) (withstands : send.Withstands store (·.isRenewal)) (credit : Nat) :
    let left := holder.renew send now credit store
    Paced origin terms now left.state.1 (starts ++ Note.times Note.startsRenewal now left.notes)
        (ends ++ Note.times Note.endsRenewal now left.notes) ∧
      send.Withstands left.store (·.isRenewal) := by
  have kept (stepped next : Stepped Holder σ)
      (holds : Paced origin terms now stepped.state (starts ++ Note.times Note.startsRenewal now stepped.notes)
          (ends ++ Note.times Note.endsRenewal now stepped.notes) ∧
        send.Withstands stepped.store (·.isRenewal))
      (step : stepped.state.RenewalStep send now stepped.store next) :
      Paced origin terms now next.state (starts ++ Note.times Note.startsRenewal now (stepped.notes ++ next.notes))
          (ends ++ Note.times Note.endsRenewal now (stepped.notes ++ next.notes)) ∧
        send.Withstands next.store (·.isRenewal) := by
    obtain ⟨paced, withstands⟩ := holds
    rw [Note.times_append, Note.times_append, ← List.append_assoc, ← List.append_assoc]
    exact ⟨paced.step timely whole (withstands [] _ rfl) step, withstands.asks step.asks⟩
  have begun : Paced origin terms now holder (starts ++ []) (ends ++ []) := by
    rwa [List.append_nil, List.append_nil]
  exact renew_induction kept ⟨begun, withstands⟩ credit

end Holder

theorem Holder.Paced.keepsTime {origin now : Nat} {terms : Terms} {holder : Holder} {starts ends : List Nat}
    (paced : holder.Paced origin terms now starts ends) (timely : terms.Timely)
    (asleep : ∀ wake ∈ holder.renewalWake?, now < wake) : KeepsTime origin terms now starts ends := by
  have pacing := paced.pacing
  unfold Holder.renewalWake? at asleep
  generalize holder.renewer = renewer at asleep pacing
  cases pacing with
  | waiting cadence wholeDue past prompt =>
      have awaited := asleep _ rfl
      rw [Time.ceilMillis_of_dvd wholeDue] at awaited
      exact cadence.keepsTime_of_awaited (.inl awaited)
  | calling cadence begun deadline survives wholeStart wholeDue past prompt =>
      have running := Nat.lt_of_lt_of_le (asleep _ rfl) (Call.wake_le deadline wholeStart timely.wholeTimeout)
      rw [begun] at running ⊢
      exact cadence.keepsTime_of_started (Nat.lt_of_lt_of_le running (Nat.add_le_add_left (Nat.min_le_left _ _) _))
  | crashed cadence beyond => exact cadence.keepsTime_of_awaited (.inr beyond)

namespace Acquisition

variable {σ : Type} {send : Transport σ} {terms : Terms} {valid : terms.Valid} {maxMachineId now : Nat} {store : σ}
  {acquisition : Acquisition} {next : Stepped Acquisition σ}

theorem AcquisitionStep.silent (step : AcquisitionStep send terms valid maxMachineId now store acquisition next) :
    ∀ note ∈ next.notes, note.Silent := by
  cases step with
  | @leases call machineId finished fits =>
      exact List.forall_mem_append.2 ⟨call.silent_endNotes now, List.forall_mem_singleton.2 ⟨rfl, rfl⟩⟩
  | @rejects call machineId finished large =>
      refine List.forall_mem_append.2 ⟨List.forall_mem_append.2 ⟨call.silent_endNotes now, ?_⟩, ?_⟩ <;>
        exact List.forall_mem_singleton.2 ⟨rfl, rfl⟩
  | fails | crashes => exact Call.silent_endNotes _ now
  | @handsBack machineId call reply finished =>
      refine List.forall_mem_append.2 ⟨call.silent_endNotes now, ?_⟩
      cases reply with
      | failed cause => exact List.forall_mem_singleton.2 ⟨rfl, rfl⟩
      | ok _ | crashed => nofun

theorem AcquisitionStep.leased_eq (step : AcquisitionStep send terms valid maxMachineId now store acquisition next)
    {holder : Holder} (leased : next.state = .leased holder) :
    ∃ machineId, holder = .create machineId terms valid now := by
  cases step with
  | @leases call machineId finished fits => exact ⟨machineId, (Acquisition.leased.inj leased).symm⟩
  | rejects | fails | crashes => contradiction
  | @handsBack machineId call reply finished => cases reply <;> contradiction

variable (send valid maxMachineId now store) in
theorem advance_silent
    (taken : ∀ holder, acquisition = .leased holder → ∃ machineId, holder = .create machineId terms valid now) :
    let last := acquisition.advance send terms valid maxMachineId now store
    (∀ note ∈ last.notes, note.Silent) ∧
      ∀ holder, last.state = .leased holder → ∃ machineId, holder = .create machineId terms valid now := by
  fun_induction Acquisition.advance send terms valid maxMachineId now acquisition store with
  | case1 acquisition store waits => exact ⟨List.forall_mem_nil _, taken⟩
  | case2 acquisition store next found lower hypothesis =>
      have step := step?_eq_some_iff.1 found
      obtain ⟨silent, taken⟩ := hypothesis fun _ => step.leased_eq
      exact ⟨List.forall_mem_append.2 ⟨step.silent, silent⟩, taken⟩

end Acquisition
end Lease
end LeasedIds
