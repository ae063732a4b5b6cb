import LeasedIds.Lease.Terms
import LeasedIds.Proofs.Lease.Allocation

namespace LeasedIds.Lease

def Reply.Ordinary : Reply → Prop
  | .ok _ | .failed (.exhausted _) | .failed (.notLeased _) => True
  | .failed .poisoned | .failed (.refused _) | .failed (.timedOut _) | .crashed => False

namespace Table

def Holds (table : Table) (owner machineId now : Nat) : Prop :=
  ∃ tenure, table.tenures[machineId]? = some tenure ∧ tenure.owner = owner ∧ now < tenure.expiresAt

def Grants (table : Table) (owner now : Nat) : Request → Prop
  | .acquire _ => ∃ machineId ≤ table.maxMachineId, ¬ table.Leases machineId now
  | .renew machineId _ => table.Holds owner machineId now
  | .release _ => False

/-- What is asked for is there to be had, but for longer than can be represented. -/
def Overreaches (table : Table) (owner now : Nat) (request : Request) : Prop :=
  table.Grants owner now request ∧ ¬ request.Representable now

variable {table : Table} {owner machineId now ttl : Nat} {request : Request}

theorem holds_iff_live? :
    table.Holds owner machineId now ↔ ∃ tenure, table.live? machineId now = some tenure ∧ tenure.owner = owner := by
  simp only [Holds, live?, Option.filter_eq_some_iff, decide_eq_true_eq, and_assoc, and_comm]

instance (table : Table) (owner machineId now : Nat) : Decidable (table.Holds owner machineId now) :=
  decidable_of_iff (∃ tenure ∈ table.live? machineId now, tenure.owner = owner) holds_iff_live?.symm

theorem grants_acquire_iff (owner : Nat) : table.Grants owner now (.acquire ttl) ↔ (table.lowestFree? now).isSome := by
  rw [← not_iff_not, Option.not_isSome_iff_eq_none, lowestFree?_eq_none_iff]
  simp [Grants]

instance (table : Table) (owner now : Nat) : (request : Request) → Decidable (table.Grants owner now request)
  | .acquire _ => decidable_of_iff _ (grants_acquire_iff owner).symm
  | .renew machineId _ => inferInstanceAs (Decidable (table.Holds owner machineId now))
  | .release _ => .isFalse id

instance (table : Table) (owner now : Nat) (request : Request) : Decidable (table.Overreaches owner now request) :=
  inferInstanceAs (Decidable (_ ∧ _))

theorem handle_of_poisoned (poisoned : table.poisoned = true) (owner now : Nat) (request : Request) :
    table.handle owner now request = (.failed .poisoned, table) := by
  cases request <;> simp [handle, acquire, renew, release, poisoned]

theorem le_of_not_representable (asks : request.ttl? = some ttl) (late : ¬ request.Representable now) :
    Time.instantLimit ≤ now + ttl := by
  simpa [Request.Representable, asks] using late

theorem grant_of_late (late : Time.instantLimit ≤ now + ttl) :
    table.grant owner machineId now ttl = (.crashed, { table with poisoned := true }) := by
  simp [grant, Time.later?_eq_none_iff.2 late]

theorem handle_of_overreaches (works : table.poisoned = false) (overreaches : table.Overreaches owner now request) :
    table.handle owner now request = (.crashed, { table with poisoned := true }) := by
  obtain ⟨grants, late⟩ := overreaches
  cases request with
  | acquire ttl =>
      obtain ⟨machineId, found⟩ := Option.isSome_iff_exists.1 ((grants_acquire_iff owner).1 grants)
      simp [handle, acquire, works, found, grant_of_late (le_of_not_representable rfl late)]
  | renew machineId ttl =>
      obtain ⟨tenure, live, own⟩ := holds_iff_live?.1 grants
      simp [handle, renew, works, live, own, grant_of_late (le_of_not_representable rfl late)]
  | release machineId => exact grants.elim

theorem handles_of_not_overreaches (works : table.poisoned = false) (within : ¬ table.Overreaches owner now request) :
    table.Handles owner now request (table.handle owner now request) := by
  by_cases representable : request.Representable now
  · exact handles works representable
  · have refused : ¬ table.Grants owner now request := fun grants => within ⟨grants, representable⟩
    cases request with
    | acquire ttl =>
        have none : table.lowestFree? now = none := by
          rwa [grants_acquire_iff, Option.not_isSome_iff_eq_none] at refused
        have answer : table.handle owner now (.acquire ttl) = (.failed (.exhausted table.maxMachineId), table) := by
          simp [handle, acquire, works, none]
        rw [answer]
        exact .exhausted none
    | renew machineId ttl =>
        have foreign : ∀ tenure ∈ table.live? machineId now, tenure.owner ≠ owner := by
          intro tenure live own
          exact refused (holds_iff_live?.2 ⟨tenure, live, own⟩)
        have answer : table.handle owner now (.renew machineId ttl) = (.failed (.notLeased machineId), table) := by
          cases found : table.live? machineId now with
          | none => simp [handle, renew, works, found]
          | some tenure => simp [handle, renew, works, found, foreign tenure found]
        rw [answer]
        exact .refuses foreign
    | release machineId => exact absurd (by simp [Request.Representable, Request.ttl?]) representable

theorem Handles.ordinary {result : Reply × Table} (handles : table.Handles owner now request result) :
    result.1.Ordinary := by
  cases handles <;> trivial

end Table

namespace MemoryStore

def replies (store : MemoryStore) : List Visit → List Reply
  | [] => []
  | visit :: visits =>
    let (reply, store) := store.handle visit.owner visit.readAt visit.request
    reply :: store.replies visits

def Overreached (store : MemoryStore) : List Visit → Prop
  | [] => False
  | visit :: visits =>
    store.table.Overreaches visit.owner visit.readAt visit.request ∨
      (store.handle visit.owner visit.readAt visit.request).2.Overreached visits

instance decidableOverreached (store : MemoryStore) : (visits : List Visit) → Decidable (store.Overreached visits)
  | [] => .isFalse id
  | visit :: visits =>
    have := decidableOverreached (store.handle visit.owner visit.readAt visit.request).2 visits
    inferInstanceAs (Decidable (_ ∨ _))

variable {store : MemoryStore} {owner now : Nat} {request : Request}

theorem replies_of_poisoned (poisoned : store.table.poisoned = true) (visits : List Visit) :
    ∀ reply ∈ store.replies visits, reply = .failed .poisoned := by
  induction visits generalizing store with
  | nil => simp [replies]
  | cons visit visits hypothesis =>
      have refused := Table.handle_of_poisoned poisoned visit.owner visit.readAt visit.request
      rw [replies, handle, refused, List.forall_mem_cons]
      exact ⟨rfl, hypothesis poisoned⟩

theorem replies_ordinary (works : store.table.poisoned = false) {visits : List Visit}
    (within : ¬ store.Overreached visits) : ∀ reply ∈ store.replies visits, reply.Ordinary := by
  induction visits generalizing store with
  | nil => simp [replies]
  | cons visit visits hypothesis =>
      obtain ⟨first, later⟩ := not_or.1 within
      have handles := Table.handles_of_not_overreaches works first
      rw [replies, List.forall_mem_cons]
      exact ⟨handles.ordinary, hypothesis (handles.works.trans works) later⟩

/-- A call to a store that works breaks it down if it is granted a lease whose end cannot be represented, and the store
refuses everybody from then on. Any other call succeeds or fails as usual, and so do those that follow it, up to the next one
of that kind. -/
theorem breaks_down_iff_overreaches (works : store.table.poisoned = false) (owner now : Nat) (request : Request) :
    let result := store.handle owner now request
    (¬ store.table.Overreaches owner now request →
      store.table.Handles owner now request (result.1, result.2.table) ∧ result.1.Ordinary ∧
        ∀ visits, ¬ result.2.Overreached visits → ∀ reply ∈ result.2.replies visits, reply.Ordinary) ∧
    (store.table.Overreaches owner now request →
      result.1 = .crashed ∧ result.2.table.tenures = store.table.tenures ∧
        ∀ visits, ∀ reply ∈ result.2.replies visits, reply = .failed .poisoned) := by
  intro result
  constructor
  · intro within
    have handles := Table.handles_of_not_overreaches works within
    exact ⟨handles, handles.ordinary, fun visits later => replies_ordinary (handles.works.trans works) later⟩
  · intro overreaches
    have broken := Table.handle_of_overreaches works overreaches
    have poisoned : result.2.table.poisoned = true := by simp [result, handle, broken]
    refine ⟨?_, ?_, replies_of_poisoned poisoned⟩ <;> simp [result, handle, broken]

theorem crowded_store_breaks_down :
    let store := (ofMax 1).serve [⟨0, .acquire 10, 0⟩, ⟨1, .acquire 20, 0⟩]
    let refused := store.handle 2 5 (.acquire Time.longestSpan)
    let broken := store.handle 1 5 (.renew 1 Time.longestSpan)
    let visits : List Visit := [⟨0, .renew 0 10, 6⟩, ⟨2, .release 1, 6⟩, ⟨2, .acquire 5, 16⟩]
    store.table.poisoned = false ∧ refused.1 = .failed (.exhausted 1) ∧
      (∀ reply ∈ refused.2.replies visits, reply.Ordinary) ∧ broken.1 = .crashed ∧ broken.2.table.leased 6 = [0, 1] ∧
      ∀ reply ∈ broken.2.replies visits, reply = .failed .poisoned := by
  intro store refused broken visits
  have works : store.table.poisoned = false := by decide +kernel
  obtain ⟨unharmed, _⟩ := breaks_down_iff_overreaches works 2 5 (.acquire Time.longestSpan)
  obtain ⟨_, harmed⟩ := breaks_down_iff_overreaches works 1 5 (.renew 1 Time.longestSpan)
  obtain ⟨_, _, later⟩ := unharmed (by decide +kernel)
  obtain ⟨crashed, _, everybody⟩ := harmed (by decide +kernel)
  exact ⟨works, by decide +kernel, later visits (by decide +kernel), crashed, by decide +kernel, everybody visits⟩

/-- Terms with the longest ttl are valid, and yet a client that leases by them shuts out the holder of another machine
ID. -/
theorem longest_ttl_breaks_down :
    let terms : Terms := { ttl := Time.longestSpan }
    let hour := 3600 * Time.second
    let store := (ofMax defaultMax).serve [⟨0, .acquire hour, Time.second⟩]
    let result := store.handle 1 Time.second (.acquire terms.ttl)
    terms.Valid ∧ store.table.poisoned = false ∧ (store.handle 0 Time.second (.renew 0 hour)).1 = .ok 0 ∧
      result.1 = .crashed ∧ ¬ result.1.Ordinary ∧
      result.2.replies [⟨0, .renew 0 hour, Time.second⟩, ⟨0, .release 0, Time.second⟩] =
        [.failed .poisoned, .failed .poisoned] := by
  intro terms hour store result
  have crashed : result.1 = .crashed := by decide +kernel
  exact ⟨by decide, by decide +kernel, by decide +kernel, crashed, crashed ▸ id, by decide +kernel⟩

end MemoryStore
end LeasedIds.Lease
