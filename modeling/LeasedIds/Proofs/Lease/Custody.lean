import LeasedIds.Proofs.Lease.Steps

namespace LeasedIds.Lease

/-- What may happen next to a lease. A stop that has been abandoned is not polled again. -/
inductive Action where
  | pass (span : Nat)
  | acquire
  | renew
  | stop (caller : Nat)
  | drop
deriving DecidableEq, Repr

structure Contact where
  call : Call
  overAt? : Option Nat
deriving DecidableEq, Repr

namespace Contact

def request (contact : Contact) : Request := contact.call.request

def Before (contact later : Contact) : Prop :=
  ∃ instant, contact.overAt? = some instant ∧ instant ≤ later.call.begunAt

/-- The store had answered or the time for the call had run out when it was seen over. -/
def Seen (now : Nat) (contact : Contact) : Prop :=
  ∃ instant, contact.overAt? = some instant ∧ contact.call.begunAt ≤ instant ∧ instant ≤ now ∧
    (contact.call.result? instant).isSome

def Bounded (terms : Terms) (contact : Contact) : Prop :=
  contact.call.deadline = Time.sleepEnd contact.call.begunAt terms.storeTimeout

end Contact

structure Custody (σ : Type) where
  now : Nat
  store : σ
  lease : Acquisition
  past : List Contact := []
  notes : List Note
  polled : Bool := false
  dropped : Bool := false
  returned : List (Nat × StopOutcome) := []

namespace Custody

variable {σ : Type}

def requests (custody : Custody σ) : List Request := custody.notes.filterMap Note.begun?

def contacts (custody : Custody σ) : List Contact := custody.past ++ custody.lease.calls.map (⟨·, none⟩)

def follow (custody : Custody σ) (ended : List Call) (next : Stepped Acquisition σ) : Custody σ :=
  { custody with
    store := next.store
    lease := next.state
    past := custody.past ++ ended.map (⟨·, some custody.now⟩)
    notes := custody.notes ++ next.notes }

def turn (custody : Custody σ) (ended : List Call) (next? : Option (Stepped Acquisition σ)) : Custody σ :=
  (next?.map (custody.follow ended)).getD custody

def heard (custody : Custody σ) (caller : Nat) (outcome? : Option StopOutcome) : Custody σ :=
  { custody with polled := true, returned := custody.returned ++ (outcome?.map (caller, ·)).toList }

def leave (custody : Custody σ) (holder : Holder) : Custody σ :=
  { custody with
    lease := .leased holder.cancel
    notes := custody.notes ++ if holder.stopOutcome?.isSome then [] else [.event (.dropped holder.machineId)]
    dropped := true }

def stopOutcome? (custody : Custody σ) : Option StopOutcome :=
  match custody.lease with
  | .leased holder => holder.stopOutcome?
  | _ => none

section

variable (send : Transport σ) (terms : Terms) (valid : terms.Valid) (maxMachineId : Nat)

def begin (now : Nat) (store : σ) : Custody σ :=
  let first := Acquisition.begin send terms now store
  { now, store := first.store, lease := first.state, notes := first.notes }

def step (custody : Custody σ) : Action → Custody σ
  | .pass span => { custody with now := custody.now + span }
  | .acquire =>
    custody.turn custody.lease.calls (custody.lease.step? send terms valid maxMachineId custody.now custody.store)
  | .renew =>
    match custody.lease with
    | .leased holder =>
      custody.turn holder.renewer.calls ((holder.renewalStep? send custody.now custody.store).map (·.map .leased))
    | _ => custody
  | .stop caller =>
    match custody.lease with
    | .leased holder =>
      let later := custody.turn holder.shutdown.calls
        ((holder.shutdownStep? send custody.now custody.store).map (·.map .leased))
      later.heard caller later.stopOutcome?
    | _ => custody
  | .drop =>
    match custody.lease with
    | .leased holder => custody.leave holder
    | _ => custody

def run (custody : Custody σ) (actions : List Action) : Custody σ :=
  actions.foldl (step send terms valid maxMachineId) custody

end

variable {send : Transport σ} {terms : Terms} {valid : terms.Valid} {maxMachineId : Nat} {custody : Custody σ}

inductive Moves (send : Transport σ) (terms : Terms) (valid : terms.Valid) (maxMachineId : Nat) (custody : Custody σ) :
    Custody σ → Prop where
  | passes (span : Nat) : Moves send terms valid maxMachineId custody { custody with now := custody.now + span }
  | acquires {next : Stepped Acquisition σ}
      (step : custody.lease.AcquisitionStep send terms valid maxMachineId custody.now custody.store next) :
      Moves send terms valid maxMachineId custody (custody.follow custody.lease.calls next)
  | renews {holder : Holder} {next : Stepped Holder σ} (lease : custody.lease = .leased holder)
      (step : holder.RenewalStep send custody.now custody.store next) :
      Moves send terms valid maxMachineId custody (custody.follow holder.renewer.calls (next.map .leased))
  | shutsDown {holder : Holder} {next : Stepped Holder σ} (caller : Nat) (lease : custody.lease = .leased holder)
      (step : holder.ShutdownStep send custody.now custody.store next) :
      Moves send terms valid maxMachineId custody
        ((custody.follow holder.shutdown.calls (next.map .leased)).heard caller next.state.stopOutcome?)
  | hears {holder : Holder} (caller : Nat) (lease : custody.lease = .leased holder)
      (waits : holder.shutdownStep? send custody.now custody.store = none) :
      Moves send terms valid maxMachineId custody (custody.heard caller holder.stopOutcome?)
  | drops {holder : Holder} (lease : custody.lease = .leased holder) :
      Moves send terms valid maxMachineId custody (custody.leave holder)

theorem step_cases (custody : Custody σ) (action : Action) :
    custody.step send terms valid maxMachineId action = custody ∨
      custody.Moves send terms valid maxMachineId (custody.step send terms valid maxMachineId action) := by
  cases action with
  | pass span => exact .inr (.passes span)
  | acquire =>
      unfold step turn
      cases found : custody.lease.step? send terms valid maxMachineId custody.now custody.store with
      | none => exact .inl rfl
      | some next => exact .inr (.acquires (Acquisition.step?_eq_some_iff.1 found))
  | renew =>
      unfold step
      cases lease : custody.lease with
      | leased holder =>
          cases found : holder.renewalStep? send custody.now custody.store with
          | none => exact .inl (by simp [turn, found])
          | some next =>
              have moves : custody.Moves send terms valid maxMachineId _ :=
                .renews lease (Holder.renewalStep?_eq_some_iff.1 found)
              exact .inr (by simpa [turn, found] using moves)
      | _ => exact .inl rfl
  | stop caller =>
      unfold step
      cases lease : custody.lease with
      | leased holder =>
          cases found : holder.shutdownStep? send custody.now custody.store with
          | none =>
              have moves : custody.Moves send terms valid maxMachineId _ := .hears caller lease found
              exact .inr (by simpa [turn, found, stopOutcome?, lease] using moves)
          | some next =>
              have moves : custody.Moves send terms valid maxMachineId _ :=
                .shutsDown caller lease (Holder.shutdownStep?_eq_some_iff.1 found)
              exact .inr (by simpa [turn, found, stopOutcome?, follow, Stepped.map] using moves)
      | _ => exact .inl rfl
  | drop =>
      unfold step
      cases lease : custody.lease with
      | leased holder => exact .inr (.drops lease)
      | _ => exact .inl rfl

theorem run_induction {Holds : Custody σ → Prop}
    (kept : ∀ custody later, Holds custody → custody.Moves send terms valid maxMachineId later → Holds later)
    (holds : Holds custody) (actions : List Action) : Holds (custody.run send terms valid maxMachineId actions) := by
  induction actions generalizing custody with
  | nil => exact holds
  | cons action actions hypothesis =>
      apply hypothesis
      rcases custody.step_cases action with same | moves
      · rw [same]
        exact holds
      · exact kept custody _ holds moves

theorem run_append (earlier later : List Action) :
    custody.run send terms valid maxMachineId (earlier ++ later) =
      (custody.run send terms valid maxMachineId earlier).run send terms valid maxMachineId later :=
  List.foldl_append

theorem requests_follow (custody : Custody σ) (ended : List Call) (next : Stepped Acquisition σ) :
    (custody.follow ended next).requests = custody.requests ++ next.notes.filterMap Note.begun? :=
  List.filterMap_append

theorem requests_leave (custody : Custody σ) (holder : Holder) :
    (custody.leave holder).requests = custody.requests := by
  rw [requests, leave, List.filterMap_append, requests]
  split <;> simp [Note.begun?]

/-- Without a lapse of time, an activity has been carried on as far as `stepped`. -/
structure Reaches (custody : Custody σ) (stepped : Stepped Acquisition σ) (later : Custody σ) : Prop where
  now_eq : later.now = custody.now
  store_eq : later.store = stepped.store
  lease_eq : later.lease = stepped.state
  notes_eq : later.notes = custody.notes ++ stepped.notes

theorem Reaches.refl {lease : Acquisition} {store : σ} (same : custody.lease = lease) (held : custody.store = store) :
    custody.Reaches ⟨lease, store, []⟩ custody :=
  ⟨rfl, held, same, (List.append_nil _).symm⟩

theorem Reaches.after {first second : Stepped Acquisition σ} {later last : Custody σ}
    (reaches : custody.Reaches first later) (further : later.Reaches second last) :
    custody.Reaches (second.after first.notes) last :=
  ⟨further.now_eq.trans reaches.now_eq, further.store_eq, further.lease_eq,
    by rw [further.notes_eq, reaches.notes_eq, List.append_assoc]; rfl⟩

theorem reaches_shutDown {holder : Holder} {now : Nat} {store : σ} (caller : Nat) (time : custody.now = now)
    (held : custody.store = store) (lease : custody.lease = .leased holder) :
    ∃ count, custody.Reaches ((holder.shutDown send now store).map .leased)
      (custody.run send terms valid maxMachineId (List.replicate count (.stop caller))) := by
  fun_induction Holder.shutDown send now holder store generalizing custody with
  | case1 holder store waits => exact ⟨0, .refl lease held⟩
  | case2 holder store next step lower hypothesis =>
      let first := custody.step send terms valid maxMachineId (.stop caller)
      have reaches : custody.Reaches (next.map .leased) first := by
        simp only [first, Custody.step, lease, time, held, step, turn]
        exact ⟨rfl, rfl, rfl, rfl⟩
      obtain ⟨count, further⟩ := hypothesis (reaches.now_eq.trans time) reaches.store_eq reaches.lease_eq
      exact ⟨count + 1, reaches.after further⟩

theorem reaches_renew {holder : Holder} {credit now : Nat} {store : σ} (time : custody.now = now)
    (held : custody.store = store) (lease : custody.lease = .leased holder) :
    ∃ count, custody.Reaches ((holder.renew send now credit store).map fun left => .leased left.1)
      (custody.run send terms valid maxMachineId (List.replicate count .renew)) := by
  fun_induction Holder.renew send now credit holder store generalizing custody with
  | case1 credit holder store spent => exact ⟨0, .refl lease held⟩
  | case2 credit holder store left waits => exact ⟨0, .refl lease held⟩
  | case3 credit holder store left next step lower hypothesis =>
      let first := custody.step send terms valid maxMachineId .renew
      have reaches : custody.Reaches (next.map .leased) first := by
        simp only [first, Custody.step, lease, time, held, step, turn]
        exact ⟨rfl, rfl, rfl, rfl⟩
      obtain ⟨count, further⟩ := hypothesis (reaches.now_eq.trans time) reaches.store_eq reaches.lease_eq
      exact ⟨count + 1, reaches.after further⟩

theorem reaches_advance {acquisition : Acquisition} {now : Nat} {store : σ} (time : custody.now = now)
    (held : custody.store = store) (lease : custody.lease = acquisition) :
    ∃ count, custody.Reaches (acquisition.advance send terms valid maxMachineId now store)
      (custody.run send terms valid maxMachineId (List.replicate count .acquire)) := by
  fun_induction Acquisition.advance send terms valid maxMachineId now acquisition store generalizing custody with
  | case1 acquisition store waits => exact ⟨0, .refl lease held⟩
  | case2 acquisition store next step lower hypothesis =>
      let first := custody.step send terms valid maxMachineId .acquire
      have reaches : custody.Reaches next first := by
        simp only [first, Custody.step, lease, time, held, step, turn]
        exact ⟨rfl, rfl, rfl, rfl⟩
      obtain ⟨count, further⟩ := hypothesis (reaches.now_eq.trans time) reaches.store_eq reaches.lease_eq
      exact ⟨count + 1, reaches.after further⟩

structure InTurn (terms : Terms) (custody : Custody σ) : Prop where
  requests_eq : custody.requests = custody.contacts.map Contact.request
  one_at_a_time : custody.contacts.Pairwise Contact.Before
  seen : ∀ contact ∈ custody.past, contact.Seen custody.now
  begun : ∀ call ∈ custody.lease.calls, call.begunAt ≤ custody.now
  bounded : ∀ contact ∈ custody.contacts, contact.Bounded terms

theorem InTurn.begin (send : Transport σ) (terms : Terms) (now : Nat) (store : σ) :
    InTurn terms (Custody.begin send terms now store) := by
  constructor <;>
    simp [Custody.begin, Acquisition.begin, Call.beginStep, Call.begin, requests, contacts, Acquisition.calls,
      Note.begun?, Contact.request, Contact.Bounded]

variable {terms : Terms} {custody later : Custody σ}

theorem InTurn.pass (inTurn : custody.InTurn terms) (span : Nat) :
    InTurn terms { custody with now := custody.now + span } where
  requests_eq := inTurn.requests_eq
  one_at_a_time := inTurn.one_at_a_time
  seen contact member := by
    obtain ⟨instant, seen, begun, past, result⟩ := inTurn.seen contact member
    exact ⟨instant, seen, begun, Nat.le_add_right_of_le past, result⟩
  begun call member := Nat.le_add_right_of_le (inTurn.begun call member)
  bounded := inTurn.bounded

theorem InTurn.of_same (inTurn : custody.InTurn terms) (now : later.now = custody.now)
    (past : later.past = custody.past) (calls : later.lease.calls = custody.lease.calls)
    (requests : later.requests = custody.requests) : InTurn terms later := by
  have contacts : later.contacts = custody.contacts := by rw [Custody.contacts, past, calls, Custody.contacts]
  refine ⟨?_, ?_, ?_, ?_, ?_⟩
  · rw [requests, contacts]
    exact inTurn.requests_eq
  · rw [contacts]
    exact inTurn.one_at_a_time
  · rw [past, now]
    exact inTurn.seen
  · rw [calls, now]
    exact inTurn.begun
  · rw [contacts]
    exact inTurn.bounded

theorem InTurn.follow (inTurn : custody.InTurn terms) {next : Stepped Acquisition σ} {begun? : Option Call}
    (makes : next.Makes terms custody.now custody.lease.calls begun?) (calls : next.state.calls = begun?.toList) :
    (custody.follow custody.lease.calls next).InTurn terms := by
  have sameRequests : (custody.follow custody.lease.calls next).contacts.map Contact.request =
      custody.contacts.map Contact.request ++ begun?.toList.map Call.request := by
    simp [Custody.follow, contacts, calls, Function.comp_def, Contact.request]
  have seen : ∀ contact ∈ (custody.follow custody.lease.calls next).past, contact.Seen custody.now := by
    intro contact member
    rcases List.mem_append.1 member with before | ended
    · exact inTurn.seen contact before
    · obtain ⟨call, open', rfl⟩ := List.mem_map.1 ended
      exact ⟨custody.now, rfl, inTurn.begun call open', Nat.le_refl _, makes.finished call open'⟩
  refine ⟨?_, ?_, seen, ?_, ?_⟩
  · rw [sameRequests, ← inTurn.requests_eq, ← makes.noted]
    exact List.filterMap_append
  · rw [contacts, List.pairwise_append]
    -- The contacts are those of before, now all over, and the call that begins.
    have old := inTurn.one_at_a_time
    rw [contacts, List.pairwise_append, List.pairwise_map] at old
    refine ⟨?_, ?_, ?_⟩
    · rw [Custody.follow, List.pairwise_append, List.pairwise_map]
      refine ⟨old.1, old.2.1.imp ?_, ?_⟩
      · rintro earlier call ⟨_, impossible, _⟩
        contradiction
      · intro contact before ended member
        obtain ⟨call, open', rfl⟩ := List.mem_map.1 member
        exact old.2.2 contact before ⟨call, none⟩ (List.mem_map.2 ⟨call, open', rfl⟩)
    · show (List.map _ next.state.calls).Pairwise _
      rw [calls]
      cases begun? <;> simp
    · intro contact before begun member
      obtain ⟨call, open', rfl⟩ := List.mem_map.1 member
      obtain ⟨instant, past, _, bound, _⟩ := seen contact before
      have begunNow := (makes.fresh call (Option.mem_toList.1 (calls ▸ open'))).1
      exact ⟨instant, past, Nat.le_trans bound (Nat.le_of_eq begunNow.symm)⟩
  · intro call open'
    exact Nat.le_of_eq (makes.fresh call (Option.mem_toList.1 (calls ▸ open'))).1
  · intro contact member
    have ended : ∀ call ∈ custody.lease.calls, call.deadline = Time.sleepEnd call.begunAt terms.storeTimeout := by
      intro call open'
      exact inTurn.bounded ⟨call, none⟩ (List.mem_append_right _ (List.mem_map.2 ⟨call, open', rfl⟩))
    rcases List.mem_append.1 member with past | begun
    · rcases List.mem_append.1 past with before | finished
      · exact inTurn.bounded contact (List.mem_append_left _ before)
      · obtain ⟨call, open', rfl⟩ := List.mem_map.1 finished
        exact ended call open'
    · obtain ⟨call, open', rfl⟩ := List.mem_map.1 begun
      obtain ⟨begunNow, deadline⟩ := makes.fresh call (Option.mem_toList.1 (calls ▸ open'))
      rw [Contact.Bounded, begunNow]
      exact deadline

end Custody
end LeasedIds.Lease
