import LeasedIds.Proofs.Lease.Breakdown

namespace LeasedIds.Lease
namespace Table

structure Extends (table : Table) (owner machineId now ttl : Nat) (result : Reply × Table) : Prop where
  granted_iff : result.1 = .ok machineId ↔ table.Holds owner machineId now
  extended : ∀ tenure, table.tenures[machineId]? = some tenure → table.Holds owner machineId now →
    result.2 = table.put machineId { tenure with expiresAt := now + ttl }
  refused : ¬ table.Holds owner machineId now → result = (.failed (.notLeased machineId), table)

structure GivesUp (table : Table) (owner machineId : Nat) (result : Reply × Table) : Prop where
  succeeds : result.1 = .ok machineId
  dropped : table.owner? machineId = some owner → result.2 = table.drop machineId
  kept : table.owner? machineId ≠ some owner → result.2 = table
  idempotent : ∀ now, result.2.handle owner now (.release machineId) = result

variable {table : Table} {owner machineId now ttl : Nat} {request : Request} {tenure : Tenure}

theorem Handles.tenure_kept {result : Reply × Table} (handles : table.Handles owner now request result)
    (found : table.tenures[machineId]? = some tenure) (live : now < tenure.expiresAt) (foreign : tenure.owner ≠ owner) :
    result.2.tenures[machineId]? = some tenure := by
  cases handles with
  | @acquires _ granted free =>
      have elsewhere : granted ≠ machineId := by
        rintro rfl
        exact absurd (live?_eq_none_iff.1 (live?_eq_none_of_lowestFree? free) tenure found) (Nat.not_le.2 live)
      simpa [elsewhere] using found
  | @renews renewed _ _ held own =>
      have elsewhere : renewed ≠ machineId := by
        rintro rfl
        obtain rfl := Option.some.inj ((getElem?_of_live? held).1.symm.trans found)
        exact foreign own
      simpa [elsewhere] using found
  | @releases released _ held own =>
      have elsewhere : released ≠ machineId := by
        rintro rfl
        obtain rfl := Option.some.inj (held.symm.trans found)
        exact foreign own
      simpa [elsewhere] using found
  | exhausted none | refuses foreign | keeps foreign => exact found

theorem tenure_kept (found : table.tenures[machineId]? = some tenure) (live : now < tenure.expiresAt)
    (foreign : tenure.owner ≠ owner) (request : Request) :
    (table.handle owner now request).2.tenures[machineId]? = some tenure := by
  by_cases poisoned : table.poisoned = true
  · rwa [handle_of_poisoned poisoned]
  · have works : table.poisoned = false := by simpa using poisoned
    by_cases overreaches : table.Overreaches owner now request
    · rwa [handle_of_overreaches works overreaches]
    · exact (handles_of_not_overreaches works overreaches).tenure_kept found live foreign

theorem extends_renew (works : table.poisoned = false) (representable : now + ttl < Time.instantLimit) :
    table.Extends owner machineId now ttl (table.handle owner now (.renew machineId ttl)) := by
  have handles : table.Handles owner now (.renew machineId ttl) (table.handle owner now (.renew machineId ttl)) :=
    Table.handles works (by rintro _ ⟨⟩; exact representable)
  generalize table.handle owner now (.renew machineId ttl) = result at handles
  cases handles with
  | renews live own =>
      have holds := holds_iff_live?.2 ⟨_, live, own⟩
      refine ⟨iff_of_true rfl holds, ?_, fun refused => absurd holds refused⟩
      intro tenure found _
      obtain rfl := Option.some.inj ((getElem?_of_live? live).1.symm.trans found)
      rw [own]
  | refuses foreign =>
      have refused : ¬ table.Holds owner machineId now := by
        intro holds
        obtain ⟨tenure, live, own⟩ := holds_iff_live?.1 holds
        exact foreign tenure live own
      exact ⟨iff_of_false Reply.noConfusion refused, fun _ _ holds => absurd holds refused, fun _ => rfl⟩

theorem handles_release (works : table.poisoned = false) (owner machineId now : Nat) :
    table.Handles owner now (.release machineId) (table.handle owner now (.release machineId)) :=
  Table.handles works (by simp [Request.Representable, Request.ttl?])

theorem release_of_own (works : table.poisoned = false) (own : table.owner? machineId = some owner) (now : Nat) :
    table.handle owner now (.release machineId) = (.ok machineId, table.drop machineId) := by
  have handles := handles_release works owner machineId now
  generalize table.handle owner now (.release machineId) = result at handles ⊢
  cases handles with
  | releases held own' => rfl
  | keeps foreign =>
      obtain ⟨tenure, found, owned⟩ := owner?_eq_some_iff.1 own
      exact absurd owned (foreign tenure found)

theorem release_of_foreign (works : table.poisoned = false) (foreign : table.owner? machineId ≠ some owner) (now : Nat) :
    table.handle owner now (.release machineId) = (.ok machineId, table) := by
  have handles := handles_release works owner machineId now
  generalize table.handle owner now (.release machineId) = result at handles ⊢
  cases handles with
  | releases held own => exact absurd (owner?_eq_some_iff.2 ⟨_, held, own⟩) foreign
  | keeps _ => rfl

theorem givesUp_release (works : table.poisoned = false) (owner machineId now : Nat) :
    table.GivesUp owner machineId (table.handle owner now (.release machineId)) := by
  by_cases own : table.owner? machineId = some owner
  · rw [release_of_own works own]
    have working : (table.drop machineId).poisoned = false := works
    have gone : (table.drop machineId).owner? machineId ≠ some owner := by simp [owner?_drop]
    exact ⟨rfl, fun _ => rfl, fun foreign => absurd own foreign, release_of_foreign working gone⟩
  · rw [release_of_foreign works own]
    exact ⟨rfl, fun owned => absurd owned own, fun _ => rfl, release_of_foreign works own⟩

end Table

namespace MemoryStore

theorem tenure_kept_serve {store : MemoryStore} {machineId : Nat} {tenure : Tenure}
    (found : store.table.tenures[machineId]? = some tenure) {visits : List Visit}
    (foreign : ∀ visit ∈ visits, visit.owner ≠ tenure.owner ∧ visit.readAt < tenure.expiresAt) :
    (store.serve visits).table.tenures[machineId]? = some tenure := by
  induction visits generalizing store with
  | nil => exact found
  | cons visit visits hypothesis =>
      obtain ⟨⟨other, live⟩, later⟩ := List.forall_mem_cons.1 foreign
      exact hypothesis (Table.tenure_kept found live (Ne.symm other) visit.request) later

/-- Whatever its clients have done, a store keeps a live lease as it is, however often the others call. An owner renews
a machine ID exactly if the ID is its own at the time, and changes nothing but the end of that lease. A release takes away
the caller's own entry and no other, and a second one finds nothing to do. All of this needs a store that works; it does unless
a lease was asked for whose end cannot be represented. -/
theorem owners_respected (maxMachineId : Nat) (visits : List Visit) :
    let store := (ofMax maxMachineId).serve visits
    ((∀ visit ∈ visits, visit.request.Representable visit.readAt) → store.table.poisoned = false) ∧
      (∀ (machineId : Nat) (tenure : Tenure), store.table.tenures[machineId]? = some tenure → ∀ later : List Visit,
        (∀ visit ∈ later, visit.owner ≠ tenure.owner ∧ visit.readAt < tenure.expiresAt) →
          (store.serve later).table.tenures[machineId]? = some tenure) ∧
      (store.table.poisoned = false → ∀ owner machineId now,
        (∀ ttl, now + ttl < Time.instantLimit →
          store.table.Extends owner machineId now ttl (store.table.handle owner now (.renew machineId ttl))) ∧
        store.table.GivesUp owner machineId (store.table.handle owner now (.release machineId))) := by
  intro store
  refine ⟨fun representable => (proper_serve (proper_ofMax maxMachineId) representable).works, ?_, ?_⟩
  · intro machineId tenure found later foreign
    exact tenure_kept_serve found foreign
  · intro works owner machineId now
    exact ⟨fun ttl => Table.extends_renew works, Table.givesUp_release works owner machineId now⟩

theorem lapsed_owner_respected :
    let store := (ofMax 2).serve [⟨0, .acquire 10, 0⟩, ⟨1, .acquire 20, 0⟩]
    let later : List Visit := [⟨0, .renew 1 30, 9⟩, ⟨2, .release 1, 9⟩, ⟨0, .release 1, 12⟩, ⟨2, .acquire 40, 19⟩]
    let renewal := store.table.handle 0 10 (.renew 0 30)
    let release := store.table.handle 0 10 (.release 0)
    store.table.poisoned = false ∧ (store.serve later).table.tenures[1]? = some ⟨1, 20⟩ ∧
      ¬ store.table.Holds 0 0 10 ∧ renewal = (.failed (.notLeased 0), store.table) ∧
      (store.table.handle 0 9 (.renew 0 30)).1 = .ok 0 ∧ release = (.ok 0, store.table.drop 0) ∧
      release.2.handle 0 11 (.release 0) = release := by
  intro store later renewal release
  obtain ⟨usable, kept, own⟩ := owners_respected 2 [⟨0, .acquire 10, 0⟩, ⟨1, .acquire 20, 0⟩]
  have works : store.table.poisoned = false := usable (by decide)
  have lapsed : ¬ store.table.Holds 0 0 10 := by decide +kernel
  have releases := (own works 0 0 10).2
  have renews (now : Nat) (room : now + 30 < Time.instantLimit) := (own works 0 0 now).1 30 room
  exact ⟨works, kept 1 ⟨1, 20⟩ (by decide +kernel) later (by decide), lapsed, (renews 10 (by decide)).refused lapsed,
    (renews 9 (by decide)).granted_iff.2 (by decide +kernel), Prod.ext releases.succeeds (releases.dropped (by decide +kernel)),
    releases.idempotent 11⟩

end MemoryStore
end LeasedIds.Lease
