import LeasedIds.Proofs.Lease.Exclusion
import Mathlib.Data.List.Sort
import Mathlib.Data.Nat.Find

namespace LeasedIds.Lease
namespace Table

def Leases (table : Table) (machineId now : Nat) : Prop :=
  ∃ tenure, table.tenures[machineId]? = some tenure ∧ now < tenure.expiresAt

variable {table : Table} {machineId now : Nat}

theorem leases_iff_live? : table.Leases machineId now ↔ ∃ tenure, table.live? machineId now = some tenure := by
  simp [Leases, live?, Option.filter_eq_some_iff]

theorem not_leases_iff : ¬ table.Leases machineId now ↔ table.live? machineId now = none := by
  rw [leases_iff_live?, ← Option.isSome_iff_exists, Option.not_isSome_iff_eq_none]

theorem mem_leased_iff_leases : machineId ∈ table.leased now ↔ table.Leases machineId now := by
  rw [mem_leased_iff, leases_iff_live?]

theorem le_length_leased {count : Nat} (taken : ∀ lower < count, table.Leases lower now) :
    count ≤ (table.leased now).length := by
  have listed : List.range count ⊆ table.leased now := by
    intro lower member
    exact mem_leased_iff_leases.2 (taken lower (List.mem_range.1 member))
  simpa using List.nodup_range.length_le_of_subset listed

theorem length_leased_le (table : Table) (now : Nat) : (table.leased now).length ≤ table.tenures.size := by
  rw [leased, List.length_map, ← Std.TreeMap.length_toList]
  exact List.length_filter_le _ _

theorem lowestFree?_eq_some_iff :
    table.lowestFree? now = some machineId ↔
      machineId ≤ table.maxMachineId ∧ ¬ table.Leases machineId now ∧ ∀ lower < machineId, table.Leases lower now := by
  rw [lowestFree?, List.find?_range_eq_some, not_leases_iff, List.mem_range, Option.isNone_iff_eq_none]
  have taken_iff (lower : Nat) : (!(table.live? lower now).isNone) = true ↔ table.Leases lower now := by
    rw [leases_iff_live?, ← Option.isSome_iff_exists, Option.not_isNone]
  simp only [taken_iff]
  constructor
  · rintro ⟨free, inside, taken⟩
    exact ⟨Nat.le_trans (Nat.le_of_lt_succ inside) (Nat.min_le_left _ _), free, taken⟩
  · rintro ⟨fits, free, taken⟩
    -- The search is long enough: no more IDs are leased than the table has entries.
    have few : machineId ≤ table.tenures.size := Nat.le_trans (le_length_leased taken) (table.length_leased_le now)
    exact ⟨free, Nat.lt_succ_of_le (Nat.le_min.2 ⟨fits, few⟩), taken⟩

theorem lowestFree?_eq_none_iff :
    table.lowestFree? now = none ↔ ∀ machineId ≤ table.maxMachineId, table.Leases machineId now := by
  classical
  constructor
  · intro none machineId fits
    by_contra free
    have exists_free : ∃ machineId, ¬ table.Leases machineId now := ⟨machineId, free⟩
    have found : table.lowestFree? now = some (Nat.find exists_free) := by
      rw [lowestFree?_eq_some_iff]
      refine ⟨Nat.le_trans (Nat.find_min' exists_free free) fits, Nat.find_spec exists_free, ?_⟩
      intro lower before
      exact not_not.1 (Nat.find_min exists_free before)
    rw [none] at found
    contradiction
  · intro leased
    rw [Option.eq_none_iff_forall_ne_some]
    intro machineId found
    obtain ⟨fits, free, _⟩ := lowestFree?_eq_some_iff.1 found
    exact free (leased machineId fits)

structure Proper (table : Table) (maxMachineId : Nat) : Prop where
  works : table.poisoned = false
  maxMachineId_eq : table.maxMachineId = maxMachineId
  within : ∀ machineId tenure, table.tenures[machineId]? = some tenure → machineId ≤ maxMachineId

variable {maxMachineId : Nat}

theorem Proper.put (proper : table.Proper maxMachineId) (fits : machineId ≤ maxMachineId) (tenure : Tenure) :
    (table.put machineId tenure).Proper maxMachineId := by
  refine ⟨proper.works, proper.maxMachineId_eq, ?_⟩
  intro other held found
  rw [getElem?_put] at found
  split at found
  next same => exact same ▸ fits
  next => exact proper.within other held found

theorem Proper.drop (proper : table.Proper maxMachineId) (machineId : Nat) :
    (table.drop machineId).Proper maxMachineId := by
  refine ⟨proper.works, proper.maxMachineId_eq, ?_⟩
  intro other held found
  rw [getElem?_drop] at found
  split at found
  · contradiction
  · exact proper.within other held found

theorem Handles.proper {owner : Nat} {request : Request} {result : Reply × Table}
    (handles : table.Handles owner now request result) (proper : table.Proper maxMachineId) :
    result.2.Proper maxMachineId := by
  cases handles with
  | acquires found => exact proper.put (proper.maxMachineId_eq ▸ (lowestFree?_eq_some_iff.1 found).1) _
  | renews live own => exact proper.put (proper.within _ _ (getElem?_of_live? live).1) _
  | releases held own => exact proper.drop _
  | exhausted none | refuses foreign | keeps foreign => exact proper

end Table

namespace MemoryStore

def serve (store : MemoryStore) (visits : List Visit) : MemoryStore :=
  visits.foldl (fun store visit => (store.handle visit.owner visit.readAt visit.request).2) store

theorem proper_ofMax (maxMachineId : Nat) : (ofMax maxMachineId).table.Proper maxMachineId :=
  ⟨rfl, rfl, by simp [ofMax]⟩

theorem proper_serve {store : MemoryStore} {maxMachineId : Nat} (proper : store.table.Proper maxMachineId)
    {visits : List Visit} (representable : ∀ visit ∈ visits, visit.request.Representable visit.readAt) :
    (store.serve visits).table.Proper maxMachineId := by
  induction visits generalizing store with
  | nil => exact proper
  | cons visit visits hypothesis =>
      obtain ⟨first, later⟩ := List.forall_mem_cons.1 representable
      exact hypothesis ((Table.handles proper.works first).proper proper) later

structure Allocates (store : MemoryStore) (owner now ttl maxMachineId : Nat) (result : Reply × MemoryStore) : Prop where
  granted_iff : ∀ machineId, result.1 = .ok machineId ↔
    machineId ≤ maxMachineId ∧ ¬ store.table.Leases machineId now ∧ ∀ lower < machineId, store.table.Leases lower now
  exhausted_iff : result.1 = .failed (.exhausted maxMachineId) ↔
    ∀ machineId ≤ maxMachineId, store.table.Leases machineId now
  kept : result.1 = .failed (.exhausted maxMachineId) → result.2.table = store.table
  others_kept : ∀ machineId, result.1 = .ok machineId → ∀ other, other ≠ machineId →
    result.2.table.tenures[other]? = store.table.tenures[other]?
  le_leased : ∀ machineId, result.1 = .ok machineId → machineId ≤ (store.table.leased now).length
  leased_until : ∀ machineId, result.1 = .ok machineId → ∀ instant,
    result.2.table.live? machineId instant = if instant < now + ttl then some ⟨owner, now + ttl⟩ else none

structure Lists (store : MemoryStore) (now maxMachineId : Nat) : Prop where
  ascending : (store.table.leased now).Pairwise (· < ·)
  mem_iff : ∀ machineId, machineId ∈ store.table.leased now ↔ store.table.Leases machineId now
  within : ∀ machineId ∈ store.table.leased now, machineId ≤ maxMachineId

theorem allocates {store : MemoryStore} {maxMachineId owner now ttl : Nat} (proper : store.table.Proper maxMachineId)
    (representable : now + ttl < Time.instantLimit) :
    store.Allocates owner now ttl maxMachineId (store.handle owner now (.acquire ttl)) := by
  have handles : store.table.Handles owner now (.acquire ttl) (store.table.handle owner now (.acquire ttl)) :=
    Table.handles proper.works (by rintro _ ⟨⟩; exact representable)
  have same := proper.maxMachineId_eq
  rw [handle]
  generalize store.table.handle owner now (.acquire ttl) = result at handles
  cases handles with
  | @acquires _ machineId found =>
      have least := Table.lowestFree?_eq_some_iff.1 found
      rw [same] at least
      obtain ⟨fits, free, taken⟩ := least
      refine ⟨?_, ?_, ?_, ?_, ?_, ?_⟩
      · intro other
        rw [← same, ← Table.lowestFree?_eq_some_iff, found, Reply.ok.injEq, Option.some.injEq]
      · exact ⟨fun impossible => by contradiction, fun leased => absurd (leased machineId fits) free⟩
      · intro impossible
        contradiction
      · rintro _ ⟨⟩ other elsewhere
        simp [Ne.symm elsewhere]
      · rintro _ ⟨⟩
        exact Table.le_length_leased taken
      · rintro _ ⟨⟩ instant
        simp [Table.live?, Option.filter]
  | exhausted none =>
      have leased := Table.lowestFree?_eq_none_iff.1 none
      rw [same] at leased ⊢
      have refused (machineId : Nat) : Reply.failed (.exhausted maxMachineId) ≠ .ok machineId := Reply.noConfusion
      refine ⟨?_, ⟨fun _ => leased, fun _ => rfl⟩, fun _ => rfl, ?_, ?_, ?_⟩
      · intro machineId
        exact ⟨fun ok => absurd ok (refused machineId), fun least => absurd (leased machineId least.1) least.2.1⟩
      all_goals exact fun machineId ok => absurd ok (refused machineId)

theorem lists {store : MemoryStore} {maxMachineId : Nat} (proper : store.table.Proper maxMachineId) (now : Nat) :
    store.Lists now maxMachineId where
  ascending := store.table.leased_pairwise_lt now
  mem_iff _ := Table.mem_leased_iff_leases
  within machineId member := by
    obtain ⟨tenure, found, _⟩ := Table.mem_leased_iff_leases.1 member
    exact proper.within machineId tenure found

/-- Whatever its clients have done, a store gives the lowest machine ID that is free, or says that none is. At any time it
lists the machine IDs that are leased then. -/
theorem lowest_free_acquired (maxMachineId : Nat) {visits : List Visit}
    (representable : ∀ visit ∈ visits, visit.request.Representable visit.readAt) :
    let store := (ofMax maxMachineId).serve visits
    (∀ owner now ttl, now + ttl < Time.instantLimit →
      store.Allocates owner now ttl maxMachineId (store.handle owner now (.acquire ttl))) ∧
      ∀ now, store.Lists now maxMachineId := by
  intro store
  have proper : store.table.Proper maxMachineId := proper_serve (proper_ofMax maxMachineId) representable
  exact ⟨fun owner now ttl room => allocates proper room, fun now => lists proper now⟩

theorem expired_lowest_free_acquired :
    let visits : List Visit :=
      [⟨0, .acquire 10, 0⟩, ⟨1, .acquire 5, 1⟩, ⟨2, .acquire 20, 2⟩, ⟨0, .renew 0 10, 4⟩, ⟨2, .release 1, 5⟩,
        ⟨3, .acquire 9, 5⟩]
    let store := (ofMax 2).serve visits
    (∀ visit ∈ visits, visit.request.Representable visit.readAt) ∧ store.table.leased 5 = [0, 1, 2] ∧
      (store.handle 3 5 (.acquire 9)).1 = .failed (.exhausted 2) ∧ store.table.leased 6 = [0, 2] ∧
      (store.handle 3 6 (.acquire 9)).1 = .ok 1 ∧ store.Allocates 3 6 9 2 (store.handle 3 6 (.acquire 9)) ∧
      store.Lists 6 2 := by
  intro visits store
  have representable : ∀ visit ∈ visits, visit.request.Representable visit.readAt := by decide
  obtain ⟨allocates, lists⟩ := lowest_free_acquired 2 representable
  refine ⟨representable, by decide +kernel, by decide +kernel, by decide +kernel, by decide +kernel, ?_, lists 6⟩
  exact allocates 3 6 9 (by decide)

end MemoryStore
end LeasedIds.Lease
