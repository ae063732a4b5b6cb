import LeasedIds.Proofs.Lease.CallOrder
import LeasedIds.Proofs.Lease.Table

namespace LeasedIds.Lease

def Reply.machineId? : Reply → Option Nat
  | .ok machineId => some machineId
  | .failed _ | .crashed => none

def Holder.unreleased? (holder : Holder) : Option Nat :=
  if holder.shutdown.releases = 0 then some holder.machineId else none

def Acquisition.granted? : Acquisition → Option Nat
  | .acquiring call => call.reply.machineId?
  | .leased holder => holder.unreleased?
  | .handingBack _ _ | .refused _ | .crashed => none

def Table.Lists (table : Table) (owner : Nat) (machineId? : Option Nat) : Prop :=
  ∀ machineId, table.owner? machineId = some owner ↔ machineId? = some machineId

namespace MemoryStore

/-- What an owner does to a store, as far as the other owners are concerned. -/
structure Minds (owner : Nat) (store later : MemoryStore) : Prop where
  works : later.table.poisoned = false
  nextOwner_eq : later.nextOwner = store.nextOwner
  others : ∀ machineId other, other ≠ owner →
    (later.table.owner? machineId = some other ↔ store.table.owner? machineId = some other)

variable {store : MemoryStore} {owner now machineId ttl : Nat} {machineId? : Option Nat}

theorem Minds.refl (works : store.table.poisoned = false) : store.Minds owner store :=
  ⟨works, rfl, fun _ _ _ => Iff.rfl⟩

theorem Minds.lists {later : MemoryStore} (minds : store.Minds owner later) {other : Nat} (different : other ≠ owner)
    (lists : store.table.Lists other machineId?) : later.table.Lists other machineId? :=
  fun machineId => (minds.others machineId other different).trans (lists machineId)

theorem send_acquire (works : store.table.poisoned = false) (unexpired : store.table.Unexpired now)
    (representable : now + ttl < Time.instantLimit) (none : store.table.Lists owner none) :
    let answered := MemoryStore.send owner now (.acquire ttl) store
    store.Minds owner answered.2 ∧ answered.2.table.Lists owner answered.1.reply.machineId? := by
  intro answered
  have handles : store.table.Handles owner now (.acquire ttl) (answered.1.reply, answered.2.table) :=
    Table.handles works fun _ asked => Option.some.inj asked ▸ representable
  have working := handles.works.trans works
  rcases handles.owner?_acquire unexpired with ⟨machineId, granted, free, owners⟩ | ⟨⟨cause, failed⟩, same⟩
  · dsimp only at granted owners
    refine ⟨⟨working, rfl, ?_⟩, ?_⟩
    · intro another other different
      rw [owners]
      split
      next here => simp [← here, free, Ne.symm different]
      next => rfl
    · intro another
      rw [owners, granted, Reply.machineId?]
      split
      next here => simp [here]
      next elsewhere => simpa [elsewhere] using none another
  · dsimp only at failed same
    rw [failed, same]
    exact ⟨⟨working, rfl, fun another other _ => by rw [same]⟩, none⟩

theorem send_renew (works : store.table.poisoned = false) (representable : now + ttl < Time.instantLimit)
    (lists : store.table.Lists owner machineId?) :
    let answered := MemoryStore.send owner now (.renew machineId ttl) store
    store.Minds owner answered.2 ∧ answered.2.table.Lists owner machineId? := by
  intro answered
  have handles : store.table.Handles owner now (.renew machineId ttl) (answered.1.reply, answered.2.table) :=
    Table.handles works fun _ asked => Option.some.inj asked ▸ representable
  have owners := handles.owner?_renew
  refine ⟨⟨handles.works.trans works, rfl, fun another other _ => by rw [← owners]⟩, ?_⟩
  intro another
  rw [← lists another, ← owners another]

theorem table_send_release (now : Nat) (works : store.table.poisoned = false)
    (lists : store.table.Lists owner (some machineId)) :
    (MemoryStore.send owner now (.release machineId) store).2.table = store.table.drop machineId := by
  have handles : store.table.Handles owner now (.release machineId) (store.table.handle owner now (.release machineId)) :=
    Table.handles works fun _ asked => by contradiction
  exact handles.release_eq ((lists machineId).2 rfl)

theorem send_release (now : Nat) (works : store.table.poisoned = false)
    (lists : store.table.Lists owner (some machineId)) :
    let answered := MemoryStore.send owner now (.release machineId) store
    store.Minds owner answered.2 ∧ answered.2.table.Lists owner none := by
  intro answered
  have dropped : answered.2.table = store.table.drop machineId := table_send_release now works lists
  refine ⟨⟨?_, rfl, ?_⟩, ?_⟩
  · rw [dropped]
    exact works
  · intro another other different
    rw [dropped, Table.owner?_drop]
    split
    next here => simp [← here, (lists machineId).2 rfl, Ne.symm different]
    next => rfl
  · intro another
    rw [dropped, Table.owner?_drop]
    split
    next => simp
    next elsewhere => simpa [elsewhere] using lists another

end MemoryStore

structure Lodges (owner : Nat) (store later : MemoryStore) (lease : Acquisition) : Prop where
  minds : store.Minds owner later
  lists : later.table.Lists owner lease.granted?

variable {store : MemoryStore} {owner clock now maxMachineId : Nat} {terms : Terms} {valid : terms.Valid}

theorem Call.result?_of_endsAt_le {call : Call} (answered : call.endsAt ≤ now) : call.result? now = some call.reply := by
  rw [result?, if_pos answered]

theorem Acquisition.AcquisitionStep.lodges {acquisition : Acquisition} {next : Stepped Acquisition MemoryStore}
    (step : AcquisitionStep (MemoryStore.send owner clock) terms valid maxMachineId now store acquisition next)
    (works : store.table.poisoned = false) (lists : store.table.Lists owner acquisition.granted?)
    (answered : ∀ call, acquisition = .acquiring call → call.endsAt ≤ now) :
    Lodges owner store next.store next.state := by
  have replied {call : Call} {reply : Reply} (finished : call.result? now = some reply)
      (acquiring : acquisition = .acquiring call) : call.reply = reply :=
    Option.some.inj ((Call.result?_of_endsAt_le (answered call acquiring)).symm.trans finished)
  cases step with
  | leases finished fits =>
      rw [granted?, replied finished rfl] at lists
      exact ⟨.refl works, lists⟩
  | @rejects call machineId finished large =>
      rw [granted?, replied finished rfl] at lists
      obtain ⟨minds, none⟩ := MemoryStore.send_release clock works lists
      exact ⟨minds, none⟩
  | fails finished | crashes finished =>
      rw [granted?, replied finished rfl] at lists
      exact ⟨.refl works, lists⟩
  | @handsBack machineId call reply finished =>
      refine ⟨.refl works, ?_⟩
      cases reply <;> exact lists

theorem Holder.RenewalStep.lodges {holder : Holder} {next : Stepped Holder MemoryStore}
    (step : holder.RenewalStep (MemoryStore.send owner clock) now store next) (works : store.table.poisoned = false)
    (lists : store.table.Lists owner holder.unreleased?)
    (representable : clock + holder.terms.ttl < Time.instantLimit) :
    Lodges owner store next.store (.leased next.state) := by
  have same : next.state.unreleased? = holder.unreleased? := by
    rw [unreleased?, step.frame.1, step.frame.2.2.2, unreleased?]
  suffices store.Minds owner next.store ∧ next.store.table.Lists owner holder.unreleased? by
    refine ⟨this.1, ?_⟩
    rw [Acquisition.granted?, same]
    exact this.2
  cases step with
  | begins waits active reached found => exact MemoryStore.send_renew works representable lists
  | stops waits cancelled | breaks waits active reached late | ends calls finished => exact ⟨.refl works, lists⟩

theorem Holder.ShutdownStep.lodges {holder : Holder} {next : Stepped Holder MemoryStore}
    (step : holder.ShutdownStep (MemoryStore.send owner clock) now store next) (works : store.table.poisoned = false)
    (lists : store.table.Lists owner holder.unreleased?) : Lodges owner store next.store (.leased next.state) := by
  cases step with
  | cancels idle =>
      rw [unreleased?, idle] at lists
      exact ⟨.refl works, lists⟩
  | releases joining gone =>
      rw [unreleased?, joining] at lists
      obtain ⟨minds, none⟩ := MemoryStore.send_release clock works lists
      exact ⟨minds, none⟩
  | @ends call reply releasing finished =>
      rw [unreleased?, releasing] at lists
      refine ⟨.refl works, ?_⟩
      cases reply <;> exact lists

theorem Holder.ShutdownStep.drops {holder : Holder} {next : Stepped Holder MemoryStore}
    (step : holder.ShutdownStep (MemoryStore.send owner clock) now store next) (works : store.table.poisoned = false)
    (lists : store.table.Lists owner holder.unreleased?) :
    (next.state.unreleased? = holder.unreleased? ∧ next.store = store) ∨
      ∃ machineId, holder.unreleased? = some machineId ∧ next.state.unreleased? = none ∧
        next.store.table = store.table.drop machineId := by
  cases step with
  | cancels idle =>
      left
      rw [unreleased?, unreleased?, idle]
      exact ⟨rfl, rfl⟩
  | releases joining gone =>
      right
      have unreleased : holder.unreleased? = some holder.machineId := by
        rw [unreleased?, joining]
        rfl
      rw [unreleased] at lists
      exact ⟨holder.machineId, unreleased, rfl, MemoryStore.table_send_release clock works lists⟩
  | @ends call reply releasing finished =>
      left
      rw [unreleased?, unreleased?, releasing]
      cases reply <;> exact ⟨rfl, rfl⟩

def Acquisition.Suits (maxMachineId now : Nat) : Acquisition → Prop
  | .acquiring call => call.endsAt ≤ now
  | .leased holder => holder.machineId ≤ maxMachineId
  | .handingBack _ _ | .refused _ | .crashed => True

theorem Acquisition.Suits.later {lease : Acquisition} (suits : lease.Suits maxMachineId now) (span : Nat) :
    lease.Suits maxMachineId (now + span) := by
  cases lease with
  | acquiring call => exact Nat.le_add_right_of_le suits
  | leased holder => exact suits
  | handingBack _ _ | refused _ | crashed => trivial

theorem Custody.Moves.suits {σ : Type} {send : Transport σ} {custody later : Custody σ}
    (moves : custody.Moves send terms valid maxMachineId later) (suits : custody.lease.Suits maxMachineId custody.now) :
    later.lease.Suits maxMachineId later.now := by
  cases moves with
  | passes span => exact suits.later span
  | acquires step =>
      generalize custody.lease = lease at step
      cases step with
      | leases finished fits => exact fits
      | rejects finished large | fails finished | crashes finished => trivial
      | @handsBack machineId call reply finished => cases reply <;> trivial
  | renews lease step =>
      rw [lease] at suits
      show _ ≤ _
      rw [step.frame.1]
      exact suits
  | shutsDown caller lease step =>
      rw [lease] at suits
      show _ ≤ _
      rw [step.frame.1]
      exact suits
  | hears caller lease waits => exact suits
  | drops lease =>
      rw [lease] at suits
      exact suits

theorem Custody.Moves.lodges {custody later : Custody MemoryStore}
    (moves : custody.Moves (MemoryStore.send owner clock) terms valid maxMachineId later)
    (works : custody.store.table.poisoned = false) (lists : custody.store.table.Lists owner custody.lease.granted?)
    (suits : custody.lease.Suits maxMachineId custody.now) (regular : custody.Regular terms)
    (representable : clock + terms.ttl < Time.instantLimit) :
    Lodges owner custody.store later.store later.lease := by
  cases moves with
  | passes span => exact ⟨.refl works, lists⟩
  | acquires step =>
      refine step.lodges works lists ?_
      intro call acquiring
      rwa [acquiring] at suits
  | renews lease step =>
      rw [lease] at lists
      rw [← (regular.keeps lease).terms_eq] at representable
      exact step.lodges works lists representable
  | shutsDown caller lease step =>
      rw [lease] at lists
      exact step.lodges works lists
  | hears caller lease waits => exact ⟨.refl works, lists⟩
  | drops lease =>
      rw [lease] at lists
      exact ⟨.refl works, lists⟩

theorem Custody.Regular.of_store {σ : Type} {custody : Custody σ} (regular : custody.Regular terms) (store : σ) :
    Regular terms { custody with store } := by
  unfold Regular at regular ⊢
  cases lease : custody.lease with
  | leased holder =>
      rw [lease] at regular
      exact ⟨regular.terms_eq, regular.requests_eq, regular.gone, regular.polled_iff, regular.cancelled_eq,
        regular.returned⟩
  | acquiring call =>
      rw [lease] at regular
      exact regular
  | _ => trivial

theorem Custody.stop_cases {σ : Type} {send : Transport σ} (custody : Custody σ) {holder : Holder}
    (lease : custody.lease = .leased holder) (caller : Nat) :
    let later := custody.step send terms valid maxMachineId (.stop caller)
    (later.lease = .leased holder ∧ later.store = custody.store) ∨
      ∃ next, holder.ShutdownStep send custody.now custody.store next ∧ later.lease = .leased next.state ∧
        later.store = next.store := by
  intro later
  let turned := custody.turn holder.shutdown.calls
    ((holder.shutdownStep? send custody.now custody.store).map (·.map .leased))
  have stop : later = turned.heard caller turned.stopOutcome? := by
    simp only [later, step, lease]
    rfl
  rw [stop]
  cases found : holder.shutdownStep? send custody.now custody.store with
  | none =>
      left
      simp only [turned, found]
      exact ⟨lease, rfl⟩
  | some next =>
      right
      refine ⟨next, Holder.shutdownStep?_eq_some_iff.1 found, ?_⟩
      simp only [turned, found]
      exact ⟨rfl, rfl⟩

end LeasedIds.Lease
