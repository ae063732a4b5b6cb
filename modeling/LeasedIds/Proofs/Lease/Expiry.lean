import LeasedIds.Proofs.Lease.Allocation

namespace LeasedIds.Lease

inductive Query where
  | serve (owner : Nat) (request : Request)
  | list
deriving DecidableEq, Repr

def Query.Representable (now : Nat) : Query → Prop
  | .serve _ request => request.Representable now
  | .list => True

instance (now : Nat) : (query : Query) → Decidable (query.Representable now)
  | .serve _ request => inferInstanceAs (Decidable (request.Representable now))
  | .list => .isTrue trivial

namespace Table

def prune (now : Nat) (table : Table) : Table :=
  { table with tenures := table.tenures.filter fun _ tenure => now < tenure.expiresAt }

variable {table other : Table} {owner machineId now later ttl : Nat}

theorem live?_put (table : Table) (machineId : Nat) (tenure : Tenure) (other instant : Nat) :
    (table.put machineId tenure).live? other instant =
      if machineId = other then (some tenure).filter fun tenure => instant < tenure.expiresAt
      else table.live? other instant := by
  rw [live?, getElem?_put]
  split <;> rfl

theorem live?_prune (table : Table) (machineId : Nat) {instant : Nat} (reached : now ≤ instant) :
    (table.prune now).live? machineId instant = table.live? machineId instant := by
  rw [live?, prune, Std.TreeMap.getElem?_filter', Option.filter_filter, live?]
  congr 1
  funext tenure
  rw [Bool.eq_iff_iff, Bool.and_eq_true, decide_eq_true_eq, decide_eq_true_eq]
  omega

theorem Handles.live?_release {result : Reply × Table} (handles : table.Handles owner now (.release machineId) result)
    (other instant : Nat) :
    result.2.live? other instant =
      (table.live? other instant).filter fun tenure => ¬ (machineId = other ∧ tenure.owner = owner) := by
  cases live : table.live? other instant with
  | none =>
      cases handles with
      | releases held own =>
          rw [live?_drop, live]
          split <;> rfl
      | keeps foreign => exact live
  | some tenure =>
      have found := (getElem?_of_live? live).1
      cases handles with
      | @releases _ held' held own =>
          rw [live?_drop, live]
          split
          next same =>
            subst same
            obtain rfl := Option.some.inj (held.symm.trans found)
            rw [Option.filter_some, if_neg (by simp [own])]
          next elsewhere => rw [Option.filter_some, if_pos (by simp [elsewhere])]
      | keeps foreign =>
          have stays : ¬ (machineId = other ∧ tenure.owner = owner) := by
            rintro ⟨rfl, own⟩
            exact foreign tenure found own
          rw [live, Option.filter_some, if_pos (decide_eq_true stays)]

/-- Both tables work, and they have the same leases from `now` on. -/
structure Agrees (table other : Table) (now : Nat) : Prop where
  works : table.poisoned = false
  works' : other.poisoned = false
  maxMachineId_eq : other.maxMachineId = table.maxMachineId
  live?_eq : ∀ machineId instant, now ≤ instant → other.live? machineId instant = table.live? machineId instant

namespace Agrees

theorem prune (agrees : table.Agrees other now) (ahead : now ≤ later) : table.Agrees (other.prune later) later where
  works := agrees.works
  works' := agrees.works'
  maxMachineId_eq := agrees.maxMachineId_eq
  live?_eq machineId instant reached := by
    rw [live?_prune other machineId reached]
    exact agrees.live?_eq machineId instant (Nat.le_trans ahead reached)

theorem put (agrees : table.Agrees other now) (machineId : Nat) (tenure : Tenure) :
    (table.put machineId tenure).Agrees (other.put machineId tenure) now where
  works := agrees.works
  works' := agrees.works'
  maxMachineId_eq := agrees.maxMachineId_eq
  live?_eq other instant reached := by rw [live?_put, live?_put, agrees.live?_eq other instant reached]

theorem leases_iff (agrees : table.Agrees other now) (machineId : Nat) :
    other.Leases machineId now ↔ table.Leases machineId now := by
  rw [leases_iff_live?, leases_iff_live?, agrees.live?_eq machineId now (Nat.le_refl now)]

theorem leased_eq (agrees : table.Agrees other now) : other.leased now = table.leased now := by
  apply (other.leased_pairwise_lt now).eq_of_mem_iff (table.leased_pairwise_lt now)
  intro machineId
  rw [mem_leased_iff_leases, mem_leased_iff_leases, agrees.leases_iff]

theorem lowestFree?_eq (agrees : table.Agrees other now) : other.lowestFree? now = table.lowestFree? now := by
  ext machineId
  simp only [lowestFree?_eq_some_iff, agrees.maxMachineId_eq, agrees.leases_iff]

variable {result result' : Reply × Table}

theorem acquire (agrees : table.Agrees other now) (handles : table.Handles owner now (.acquire ttl) result)
    (handles' : other.Handles owner now (.acquire ttl) result') :
    result'.1 = result.1 ∧ result.2.Agrees result'.2 now := by
  have same := agrees.lowestFree?_eq
  cases handles with
  | acquires found =>
      cases handles' with
      | acquires found' =>
          obtain rfl := Option.some.inj (found'.symm.trans (same.trans found))
          exact ⟨rfl, agrees.put _ _⟩
      | exhausted none =>
          rw [same, found] at none
          contradiction
  | exhausted none =>
      cases handles' with
      | acquires found =>
          rw [same, none] at found
          contradiction
      | exhausted none' => exact ⟨by rw [agrees.maxMachineId_eq], agrees⟩

theorem renew (agrees : table.Agrees other now) (handles : table.Handles owner now (.renew machineId ttl) result)
    (handles' : other.Handles owner now (.renew machineId ttl) result') :
    result'.1 = result.1 ∧ result.2.Agrees result'.2 now := by
  have same := agrees.live?_eq machineId now (Nat.le_refl now)
  cases handles with
  | renews live own =>
      cases handles' with
      | renews live' own' => exact ⟨rfl, agrees.put _ _⟩
      | refuses foreign => exact absurd own (foreign _ (same.trans live))
  | refuses foreign =>
      cases handles' with
      | renews live own => exact absurd own (foreign _ (same.symm.trans live))
      | refuses foreign' => exact ⟨rfl, agrees⟩

theorem release (agrees : table.Agrees other now) (handles : table.Handles owner now (.release machineId) result)
    (handles' : other.Handles owner now (.release machineId) result') :
    result'.1 = result.1 ∧ result.2.Agrees result'.2 now := by
  refine ⟨?_, handles.works.trans agrees.works, handles'.works.trans agrees.works', ?_, ?_⟩
  · cases handles <;> cases handles' <;> rfl
  · cases handles <;> cases handles' <;> exact agrees.maxMachineId_eq
  · intro machineId instant reached
    rw [handles.live?_release, handles'.live?_release, agrees.live?_eq machineId instant reached]

theorem handle (agrees : table.Agrees other now) (owner : Nat) {request : Request}
    (representable : request.Representable now) :
    (other.handle owner now request).1 = (table.handle owner now request).1 ∧
      (table.handle owner now request).2.Agrees (other.handle owner now request).2 now := by
  have handles : table.Handles owner now request _ := Table.handles agrees.works representable
  have handles' : other.Handles owner now request _ := Table.handles agrees.works' representable
  cases request with
  | acquire ttl => exact agrees.acquire handles handles'
  | renew machineId ttl => exact agrees.renew handles handles'
  | release machineId => exact agrees.release handles handles'

end Agrees
end Table

namespace MemoryStore

def ask (store : MemoryStore) (now : Nat) : Query → (Reply ⊕ List Nat) × MemoryStore
  | .serve owner request =>
    let (reply, store) := store.handle owner now request
    (.inl reply, store)
  | .list => (.inr (store.table.leased now), store)

def answers (tidy : Nat → Table → Table) (store : MemoryStore) : List (Nat × Query) → List (Reply ⊕ List Nat)
  | [] => []
  | (now, query) :: later =>
    let asked := { store with table := tidy now store.table }.ask now query
    asked.1 :: asked.2.answers tidy later

variable {store other : MemoryStore} {start : Nat}

theorem ask_of_agrees {now : Nat} (agrees : store.table.Agrees other.table now) {query : Query}
    (representable : query.Representable now) :
    (other.ask now query).1 = (store.ask now query).1 ∧
      (store.ask now query).2.table.Agrees (other.ask now query).2.table now := by
  cases query with
  | serve owner request =>
      obtain ⟨reply, later⟩ := agrees.handle owner representable
      exact ⟨congrArg Sum.inl reply, later⟩
  | list => exact ⟨congrArg Sum.inr agrees.leased_eq, agrees⟩

theorem answers_of_agrees (agrees : store.table.Agrees other.table start) {queries : List (Nat × Query)}
    (ordered : (start :: queries.map Prod.fst).Pairwise (· ≤ ·))
    (representable : ∀ asked ∈ queries, asked.2.Representable asked.1) :
    other.answers Table.prune queries = store.answers (fun _ table => table) queries := by
  induction queries generalizing store other start with
  | nil => rfl
  | cons asked queries hypothesis =>
      obtain ⟨now, query⟩ := asked
      obtain ⟨past, ordered⟩ := List.pairwise_cons.1 ordered
      obtain ⟨first, representable⟩ := List.forall_mem_cons.1 representable
      let tidied : MemoryStore := { other with table := other.table.prune now }
      have tidy : store.table.Agrees tidied.table now := agrees.prune (past now List.mem_cons_self)
      obtain ⟨answer, later⟩ := ask_of_agrees tidy first
      exact congrArg₂ List.cons answer (hypothesis later ordered representable)

/-- As long as the clock does not run backwards, a store answers as one that deletes every expired entry before each
operation. -/
theorem expired_unobservable (maxMachineId : Nat) {queries : List (Nat × Query)}
    (ordered : (queries.map Prod.fst).Pairwise (· ≤ ·))
    (representable : ∀ asked ∈ queries, asked.2.Representable asked.1) :
    (ofMax maxMachineId).answers Table.prune queries = (ofMax maxMachineId).answers (fun _ table => table) queries := by
  have agrees : (ofMax maxMachineId).table.Agrees (ofMax maxMachineId).table 0 := ⟨rfl, rfl, rfl, fun _ _ _ => rfl⟩
  exact answers_of_agrees agrees (List.pairwise_cons.2 ⟨fun now _ => Nat.zero_le now, ordered⟩) representable

theorem lapsed_unobservable :
    let queries : List (Nat × Query) :=
      [(0, .serve 0 (.acquire 10)), (1, .serve 1 (.acquire 30)), (9, .list), (10, .list), (10, .serve 0 (.renew 0 10)),
        (10, .serve 0 (.release 1)), (11, .serve 2 (.acquire 5)), (12, .serve 0 (.release 0)), (12, .list),
        (16, .serve 2 (.release 0)), (16, .serve 3 (.acquire 10)), (16, .serve 0 (.acquire 10))]
    let answers := (ofMax 1).answers Table.prune queries
    answers = (ofMax 1).answers (fun _ table => table) queries ∧
      answers =
        [.inl (.ok 0), .inl (.ok 1), .inr [0, 1], .inr [1], .inl (.failed (.notLeased 0)), .inl (.ok 1), .inl (.ok 0),
          .inl (.ok 0), .inr [0, 1], .inl (.ok 0), .inl (.ok 0), .inl (.failed (.exhausted 1))] := by
  intro queries answers
  have same : answers = _ := expired_unobservable 1 (by decide) (by decide)
  exact ⟨same, by decide +kernel⟩

end MemoryStore
end LeasedIds.Lease
