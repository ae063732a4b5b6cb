import LeasedIds.Lease.Table
import Std.Data.TreeMap.Lemmas

namespace LeasedIds.Lease

def Request.ttl? : Request → Option Nat
  | .acquire ttl | .renew _ ttl => some ttl
  | .release _ => none

def Request.Representable (now : Nat) (request : Request) : Prop :=
  ∀ ttl ∈ request.ttl?, now + ttl < Time.instantLimit

instance (now : Nat) (request : Request) : Decidable (request.Representable now) :=
  inferInstanceAs (Decidable (∀ ttl ∈ request.ttl?, now + ttl < Time.instantLimit))

namespace Table

def put (table : Table) (machineId : Nat) (tenure : Tenure) : Table :=
  { table with tenures := table.tenures.insert machineId tenure }

def drop (table : Table) (machineId : Nat) : Table := { table with tenures := table.tenures.erase machineId }

inductive Handles (table : Table) (owner now : Nat) : Request → Reply × Table → Prop where
  | acquires {ttl machineId : Nat} (found : table.lowestFree? now = some machineId) :
      Handles table owner now (.acquire ttl) (.ok machineId, table.put machineId ⟨owner, now + ttl⟩)
  | exhausted {ttl : Nat} (none : table.lowestFree? now = none) :
      Handles table owner now (.acquire ttl) (.failed (.exhausted table.maxMachineId), table)
  | renews {machineId ttl : Nat} {tenure : Tenure} (live : table.live? machineId now = some tenure)
      (own : tenure.owner = owner) :
      Handles table owner now (.renew machineId ttl) (.ok machineId, table.put machineId ⟨owner, now + ttl⟩)
  | refuses {machineId ttl : Nat} (foreign : ∀ tenure ∈ table.live? machineId now, tenure.owner ≠ owner) :
      Handles table owner now (.renew machineId ttl) (.failed (.notLeased machineId), table)
  | releases {machineId : Nat} {tenure : Tenure} (held : table.tenures[machineId]? = some tenure)
      (own : tenure.owner = owner) :
      Handles table owner now (.release machineId) (.ok machineId, table.drop machineId)
  | keeps {machineId : Nat} (foreign : ∀ tenure ∈ table.tenures[machineId]?, tenure.owner ≠ owner) :
      Handles table owner now (.release machineId) (.ok machineId, table)

variable {table : Table} {owner machineId now ttl : Nat}

theorem grant_eq (representable : now + ttl < Time.instantLimit) :
    table.grant owner machineId now ttl = (.ok machineId, table.put machineId ⟨owner, now + ttl⟩) := by
  rw [grant, Time.later?_eq_some_iff.2 ⟨representable, rfl⟩]
  rfl

theorem live?_eq_none_of_lowestFree? (found : table.lowestFree? now = some machineId) :
    table.live? machineId now = none := by
  have free := List.find?_some found
  rwa [Option.isNone_iff_eq_none] at free

theorem handles (works : table.poisoned = false) {request : Request} (representable : request.Representable now) :
    table.Handles owner now request (table.handle owner now request) := by
  have working : ¬ table.poisoned = true := by simp [works]
  cases request with
  | acquire ttl =>
      rw [handle, acquire, if_neg working]
      cases found : table.lowestFree? now with
      | none => exact .exhausted found
      | some machineId =>
          have granted : table.Handles owner now (.acquire ttl) _ := .acquires found
          rwa [← grant_eq (representable ttl rfl)] at granted
  | renew machineId ttl =>
      rw [handle, renew, if_neg working]
      cases found : table.live? machineId now with
      | none => exact .refuses (by simp [found])
      | some tenure =>
          by_cases own : tenure.owner = owner
          · have granted : table.Handles owner now (.renew machineId ttl) _ := .renews found own
            rw [← grant_eq (representable ttl rfl)] at granted
            simpa only [own, if_true] using granted
          · simp only [own, if_false]
            exact .refuses (by simpa [found] using own)
  | release machineId =>
      rw [handle, release, if_neg working]
      cases found : table.tenures[machineId]? with
      | none => exact .keeps (by simp [found])
      | some tenure =>
          by_cases own : tenure.owner = owner
          · simp only [own, if_true]
            exact .releases found own
          · simp only [own, if_false]
            exact .keeps (by simpa [found] using own)

@[simp] theorem getElem?_put (table : Table) (machineId other : Nat) (tenure : Tenure) :
    (table.put machineId tenure).tenures[other]? =
      if machineId = other then some tenure else table.tenures[other]? := by
  simp [put, Std.TreeMap.getElem?_insert]

@[simp] theorem getElem?_drop (table : Table) (machineId other : Nat) :
    (table.drop machineId).tenures[other]? = if machineId = other then none else table.tenures[other]? := by
  simp [drop, Std.TreeMap.getElem?_erase]

theorem getElem?_of_live? {tenure : Tenure} (live : table.live? machineId now = some tenure) :
    table.tenures[machineId]? = some tenure ∧ now < tenure.expiresAt := by
  simpa [live?, Option.filter_eq_some_iff] using live

theorem live?_eq_none_iff :
    table.live? machineId now = none ↔ ∀ tenure ∈ table.tenures[machineId]?, tenure.expiresAt ≤ now := by
  simp [live?, Option.filter_eq_none_iff]

def owner? (table : Table) (machineId : Nat) : Option Nat := table.tenures[machineId]?.map Tenure.owner

theorem owner?_eq_some_iff :
    table.owner? machineId = some owner ↔ ∃ tenure, table.tenures[machineId]? = some tenure ∧ tenure.owner = owner := by
  rw [owner?, Option.map_eq_some_iff]

theorem owner?_put (table : Table) (machineId other : Nat) (tenure : Tenure) :
    (table.put machineId tenure).owner? other = if machineId = other then some tenure.owner else table.owner? other := by
  rw [owner?, getElem?_put]
  split <;> rfl

theorem owner?_drop (table : Table) (machineId other : Nat) :
    (table.drop machineId).owner? other = if machineId = other then none else table.owner? other := by
  rw [owner?, getElem?_drop]
  split <;> rfl

def Unexpired (table : Table) (now : Nat) : Prop := ∀ entry ∈ table.tenures.toList, now < entry.2.expiresAt

instance (table : Table) (now : Nat) : Decidable (table.Unexpired now) :=
  inferInstanceAs (Decidable (∀ entry ∈ table.tenures.toList, now < entry.2.expiresAt))

theorem Unexpired.lt (unexpired : table.Unexpired now) {tenure : Tenure}
    (found : table.tenures[machineId]? = some tenure) : now < tenure.expiresAt :=
  unexpired (machineId, tenure) (Std.TreeMap.mem_toList_iff_getElem?_eq_some.2 found)

theorem leased_pairwise_lt (table : Table) (now : Nat) : (table.leased now).Pairwise (· < ·) := by
  rw [leased, List.pairwise_map]
  have ordered : table.tenures.toList.Pairwise fun entry later => compare entry.1 later.1 = .lt :=
    Std.TreeMap.ordered_keys_toList
  exact (ordered.imp Nat.compare_eq_lt.1).filter _

theorem leased_nodup (table : Table) (now : Nat) : (table.leased now).Nodup :=
  (table.leased_pairwise_lt now).imp Nat.ne_of_lt

theorem mem_leased_iff : machineId ∈ table.leased now ↔ ∃ tenure, table.live? machineId now = some tenure := by
  simp only [leased, List.mem_map, List.mem_filter, live?, Option.filter_eq_some_iff]
  constructor
  · rintro ⟨⟨_, tenure⟩, ⟨member, live⟩, rfl⟩
    exact ⟨tenure, Std.TreeMap.mem_toList_iff_getElem?_eq_some.1 member, live⟩
  · rintro ⟨tenure, found, live⟩
    exact ⟨(machineId, tenure), ⟨Std.TreeMap.mem_toList_iff_getElem?_eq_some.2 found, live⟩, rfl⟩

theorem mem_leased_iff_of_unexpired (unexpired : table.Unexpired now) :
    machineId ∈ table.leased now ↔ ∃ owner, table.owner? machineId = some owner := by
  rw [mem_leased_iff]
  constructor
  · rintro ⟨tenure, live⟩
    exact ⟨tenure.owner, owner?_eq_some_iff.2 ⟨tenure, (getElem?_of_live? live).1, rfl⟩⟩
  · rintro ⟨_, listed⟩
    obtain ⟨tenure, found, _⟩ := owner?_eq_some_iff.1 listed
    exact ⟨tenure, by simp [live?, found, unexpired.lt found]⟩

theorem live?_drop (table : Table) (machineId other now : Nat) :
    (table.drop machineId).live? other now = if machineId = other then none else table.live? other now := by
  rw [live?, getElem?_drop]
  split <;> rfl

theorem leased_drop (table : Table) (machineId now : Nat) :
    (table.drop machineId).leased now = (table.leased now).erase machineId := by
  have same : ((table.drop machineId).leased now).Perm ((table.leased now).erase machineId) := by
    rw [List.perm_ext_iff_of_nodup (leased_nodup _ now) ((leased_nodup table now).erase machineId)]
    intro other
    rw [(leased_nodup table now).mem_erase_iff, mem_leased_iff, mem_leased_iff, live?_drop]
    split
    next here => simp [here]
    next elsewhere => simp [Ne.symm elsewhere]
  have ascending := (table.leased_pairwise_lt now).erase machineId
  exact same.eq_of_pairwise (fun _ _ _ _ less more => absurd less (Nat.lt_asymm more)) (leased_pairwise_lt _ now) ascending

namespace Handles

variable {request : Request} {result : Reply × Table}

theorem works (handles : table.Handles owner now request result) : result.2.poisoned = table.poisoned := by
  cases handles <;> rfl

theorem owner?_acquire (handles : table.Handles owner now (.acquire ttl) result) (unexpired : table.Unexpired now) :
    (∃ machineId, result.1 = .ok machineId ∧ table.owner? machineId = none ∧
        ∀ other, result.2.owner? other = if machineId = other then some owner else table.owner? other) ∨
      (∃ cause, result.1 = .failed cause) ∧ result.2 = table := by
  cases handles with
  | @acquires _ machineId found =>
      refine .inl ⟨machineId, rfl, ?_, fun other => owner?_put _ _ other _⟩
      have free := live?_eq_none_iff.1 (live?_eq_none_of_lowestFree? found)
      rw [owner?, Option.map_eq_none_iff, Option.eq_none_iff_forall_ne_some]
      intro tenure held
      exact Nat.not_le.2 (unexpired.lt held) (free tenure held)
  | exhausted none => exact .inr ⟨⟨_, rfl⟩, rfl⟩

theorem owner?_renew (handles : table.Handles owner now (.renew machineId ttl) result) (other : Nat) :
    result.2.owner? other = table.owner? other := by
  cases handles with
  | renews live own =>
      rw [owner?_put]
      split
      next same => rw [← same, owner?, (getElem?_of_live? live).1, Option.map_some, own]
      next => rfl
  | refuses foreign => rfl

theorem release_eq (handles : table.Handles owner now (.release machineId) result)
    (held : table.owner? machineId = some owner) : result.2 = table.drop machineId := by
  cases handles with
  | releases found own => rfl
  | keeps foreign =>
      obtain ⟨tenure, found, own⟩ := owner?_eq_some_iff.1 held
      exact absurd own (foreign tenure found)

end Handles
end Table
end LeasedIds.Lease
