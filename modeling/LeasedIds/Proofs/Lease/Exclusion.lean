import LeasedIds.Proofs.Lease.Table
import Mathlib.Data.List.Induction

/-!
# Mutual exclusion in an in-process store

A client reads the clock first and works on the table later, and in between other clients may do anything. A reading
that has grown old makes a client see leases as live that have expired, but never the other way round.
-/

namespace LeasedIds.Lease

/-- A call on its way to the table, with the clock reading that it has taken. -/
structure Visit where
  owner : Nat
  request : Request
  readAt : Nat
deriving DecidableEq, Repr

structure Deed where
  visit : Visit
  reply : Reply
deriving DecidableEq, Repr

namespace Deed

def grant? (deed : Deed) : Option (Nat × Tenure) :=
  match deed.visit.request, deed.reply with
  | .acquire ttl, .ok machineId | .renew machineId ttl, .ok _ =>
    some (machineId, ⟨deed.visit.owner, deed.visit.readAt + ttl⟩)
  | _, _ => none

def Acquires (owner machineId : Nat) (deed : Deed) : Prop :=
  deed.visit.owner = owner ∧ (∃ ttl, deed.visit.request = .acquire ttl) ∧ deed.reply = .ok machineId

def Releases (owner machineId : Nat) (deed : Deed) : Prop :=
  deed.visit.owner = owner ∧ deed.visit.request = .release machineId

end Deed

/-- The tenure is the last one that was granted for a machine ID, and its owner has not given it up since. -/
def LastGranted (machineId : Nat) (tenure : Tenure) (deeds : List Deed) : Prop :=
  ∃ earlier grant later, deeds = earlier ++ grant :: later ∧ grant.grant? = some (machineId, tenure) ∧
    ∀ deed ∈ later, (∀ next, deed.grant? ≠ some (machineId, next)) ∧ ¬ deed.Releases tenure.owner machineId

theorem LastGranted.of_append {machineId : Nat} {tenure : Tenure} {deeds : List Deed} {deed : Deed}
    (last : LastGranted machineId tenure (deeds ++ [deed])) :
    deed.grant? = some (machineId, tenure) ∨
      LastGranted machineId tenure deeds ∧ (∀ next, deed.grant? ≠ some (machineId, next)) ∧
        ¬ deed.Releases tenure.owner machineId := by
  obtain ⟨earlier, grant, later, split, grants, kept⟩ := last
  rcases List.eq_nil_or_concat later with rfl | ⟨between, final, rfl⟩
  · left
    obtain ⟨_, same⟩ := List.append_inj' split rfl
    rw [List.singleton_inj.1 same]
    exact grants
  · right
    rw [List.concat_eq_append, ← List.cons_append, ← List.append_assoc] at split
    obtain ⟨before, same⟩ := List.append_inj' split rfl
    obtain rfl := List.singleton_inj.1 same
    refine ⟨⟨earlier, grant, between, before, grants, ?_⟩, kept deed (by simp)⟩
    intro other member
    exact kept other (by simp [member])

namespace Table.Handles

variable {table : Table} {owner now machineId : Nat} {request : Request} {result : Reply × Table} {tenure : Tenure}

theorem grants (handles : table.Handles owner now request result)
    (granted : Deed.grant? ⟨⟨owner, request, now⟩, result.1⟩ = some (machineId, tenure)) :
    result.2.tenures[machineId]? = some tenure := by
  cases handles with
  | acquires found | renews live own =>
      obtain ⟨rfl, rfl⟩ := Prod.mk.inj (Option.some.inj granted)
      simp
  | exhausted none | refuses foreign | releases held own | keeps foreign => contradiction

theorem holds (handles : table.Handles owner now request result) (held : table.tenures[machineId]? = some tenure)
    (other : ∀ next, Deed.grant? ⟨⟨owner, request, now⟩, result.1⟩ ≠ some (machineId, next))
    (kept : ¬ Deed.Releases tenure.owner machineId ⟨⟨owner, request, now⟩, result.1⟩) :
    result.2.tenures[machineId]? = some tenure := by
  cases handles with
  | @acquires ttl granted found =>
      have elsewhere : granted ≠ machineId := by
        rintro rfl
        exact other _ rfl
      simpa [elsewhere] using held
  | @renews granted ttl _ live own =>
      have elsewhere : granted ≠ machineId := by
        rintro rfl
        exact other _ rfl
      simpa [elsewhere] using held
  | @releases released own' held' own =>
      have elsewhere : released ≠ machineId := by
        rintro rfl
        obtain rfl := Option.some.inj (held'.symm.trans held)
        exact kept ⟨own.symm, rfl⟩
      simpa [elsewhere] using held
  | exhausted none | refuses foreign | keeps foreign => exact held

theorem foreign {former : Nat} (handles : table.Handles owner now request result)
    (foreign : ∀ tenure ∈ table.tenures[machineId]?, tenure.owner ≠ former)
    (unacquired : ¬ Deed.Acquires former machineId ⟨⟨owner, request, now⟩, result.1⟩) :
    ∀ tenure ∈ result.2.tenures[machineId]?, tenure.owner ≠ former := by
  intro tenure member
  cases handles with
  | @acquires ttl granted found =>
      rw [getElem?_put] at member
      split at member
      next same =>
        obtain rfl := Option.some.inj member
        rintro rfl
        exact unacquired ⟨rfl, ⟨ttl, rfl⟩, congrArg Reply.ok same⟩
      next => exact foreign tenure member
  | @renews granted ttl before live own =>
      rw [getElem?_put] at member
      split at member
      next same =>
        obtain rfl := Option.some.inj member
        rw [← own]
        exact foreign before (same ▸ (getElem?_of_live? live).1)
      next => exact foreign tenure member
  | releases held own =>
      rw [getElem?_drop] at member
      split at member
      · contradiction
      · exact foreign tenure member
  | exhausted none | refuses _ | keeps _ => exact foreign tenure member

end Table.Handles

structure Shared where
  now : Nat
  store : MemoryStore
  visits : List Visit := []
  deeds : List Deed := []

inductive Turn where
  | pass (span : Nat)
  | read (owner : Nat) (request : Request)
  | arrive (index : Nat)
deriving DecidableEq, Repr

namespace Shared

def ofMax (maxMachineId now : Nat) : Shared where
  now
  store := .ofMax maxMachineId

def table (shared : Shared) : Table := shared.store.table

def carryOut (shared : Shared) (index : Nat) (visit : Visit) : Shared :=
  let (reply, store) := shared.store.handle visit.owner visit.readAt visit.request
  { shared with store, visits := shared.visits.eraseIdx index, deeds := shared.deeds ++ [⟨visit, reply⟩] }

def step (shared : Shared) : Turn → Shared
  | .pass span => { shared with now := shared.now + span }
  | .read owner request =>
    if request.Representable shared.now then
      { shared with visits := shared.visits ++ [⟨owner, request, shared.now⟩] }
    else shared
  | .arrive index => (shared.visits[index]?.map (shared.carryOut index)).getD shared

def run (shared : Shared) (turns : List Turn) : Shared := turns.foldl step shared

structure Sound (shared : Shared) : Prop where
  works : shared.table.poisoned = false
  read : ∀ visit ∈ shared.visits, visit.readAt ≤ shared.now ∧ visit.request.Representable visit.readAt
  held : ∀ machineId tenure, LastGranted machineId tenure shared.deeds →
    shared.table.tenures[machineId]? = some tenure

theorem Sound.ofMax (maxMachineId now : Nat) : Sound (ofMax maxMachineId now) where
  works := rfl
  read visit member := by contradiction
  held machineId tenure last := by
    obtain ⟨earlier, grant, later, empty, _⟩ := last
    simp [Shared.ofMax] at empty

variable {shared : Shared} {index : Nat} {visit : Visit}

theorem Sound.handles (sound : shared.Sound) (member : visit ∈ shared.visits) :
    shared.table.Handles visit.owner visit.readAt visit.request
      (shared.table.handle visit.owner visit.readAt visit.request) :=
  Table.handles sound.works (sound.read visit member).2

theorem Sound.carryOut (sound : shared.Sound) (index : Nat) (member : visit ∈ shared.visits) :
    (shared.carryOut index visit).Sound where
  works := (sound.handles member).works.trans sound.works
  read other remains := sound.read other (List.mem_of_mem_eraseIdx remains)
  held machineId tenure last := by
    rcases last.of_append with granted | ⟨before, other, kept⟩
    · exact (sound.handles member).grants granted
    · exact (sound.handles member).holds (sound.held machineId tenure before) other kept

theorem Sound.step (sound : shared.Sound) (turn : Turn) : (shared.step turn).Sound := by
  cases turn with
  | pass span =>
      refine ⟨sound.works, ?_, sound.held⟩
      intro visit member
      obtain ⟨past, representable⟩ := sound.read visit member
      exact ⟨Nat.le_add_right_of_le past, representable⟩
  | read owner request =>
      rw [Shared.step]
      split
      next representable =>
        refine ⟨sound.works, ?_, sound.held⟩
        intro visit member
        rcases List.mem_append.1 member with before | new
        · exact sound.read visit before
        · obtain rfl := List.mem_singleton.1 new
          exact ⟨Nat.le_refl _, representable⟩
      next => exact sound
  | arrive index =>
      rw [Shared.step]
      cases found : shared.visits[index]? with
      | none => exact sound
      | some visit => exact sound.carryOut index (List.mem_of_getElem? found)

theorem Sound.run (sound : shared.Sound) (turns : List Turn) : (shared.run turns).Sound := by
  induction turns generalizing shared with
  | nil => exact sound
  | cons turn turns hypothesis => exact hypothesis (sound.step turn)

def since (shared later : Shared) : List Deed := later.deeds.drop shared.deeds.length

theorem run_concat (shared : Shared) (turns : List Turn) (turn : Turn) :
    shared.run (turns ++ [turn]) = (shared.run turns).step turn := by
  simp [Shared.run, List.foldl_append]

theorem step_deeds (shared : Shared) (turn : Turn) :
    (shared.step turn).deeds = shared.deeds ∧ (shared.step turn).table = shared.table ∨
      ∃ index visit, shared.visits[index]? = some visit ∧ shared.step turn = shared.carryOut index visit := by
  cases turn with
  | pass span => exact .inl ⟨rfl, rfl⟩
  | read owner request =>
      rw [step]
      split <;> exact .inl ⟨rfl, rfl⟩
  | arrive index =>
      rw [step]
      cases found : shared.visits[index]? with
      | none => exact .inl ⟨rfl, rfl⟩
      | some visit => exact .inr ⟨index, visit, found, rfl⟩

theorem length_deeds_le (shared : Shared) (turns : List Turn) :
    shared.deeds.length ≤ (shared.run turns).deeds.length := by
  induction turns using List.reverseRecOn with
  | nil => exact Nat.le_refl _
  | append_singleton turns turn hypothesis =>
      rw [run_concat]
      rcases (shared.run turns).step_deeds turn with ⟨same, _⟩ | ⟨index, visit, _, done⟩
      · rw [same]
        exact hypothesis
      · rw [done, carryOut, List.length_append]
        omega

theorem foreign_run {former machineId : Nat} (sound : shared.Sound)
    (foreign : ∀ tenure ∈ shared.table.tenures[machineId]?, tenure.owner ≠ former) (turns : List Turn)
    (unacquired : ∀ deed ∈ shared.since (shared.run turns), ¬ deed.Acquires former machineId) :
    ∀ tenure ∈ (shared.run turns).table.tenures[machineId]?, tenure.owner ≠ former := by
  induction turns using List.reverseRecOn with
  | nil => exact foreign
  | append_singleton turns turn hypothesis =>
      rw [run_concat] at unacquired ⊢
      rcases (shared.run turns).step_deeds turn with ⟨same, table⟩ | ⟨index, visit, found, done⟩
      · rw [table]
        apply hypothesis
        rwa [since, ← same]
      · rw [done, since, carryOut, List.drop_append_of_le_length (shared.length_deeds_le turns)] at unacquired
        rw [done]
        have handles := (sound.run turns).handles (List.mem_of_getElem? found)
        apply handles.foreign
        · apply hypothesis
          intro deed member
          exact unacquired deed (List.mem_append_left _ member)
        · exact unacquired _ (List.mem_append_right _ (List.mem_singleton_self _))

/-- Until it acquires a machine ID again, an owner can neither renew it nor take it from another one. -/
def Bars (shared : Shared) (former machineId : Nat) : Prop :=
  ∀ turns, (∀ deed ∈ shared.since (shared.run turns), ¬ deed.Acquires former machineId) →
    ∀ index visit, (shared.run turns).visits[index]? = some visit → visit.owner = former →
      (∀ ttl, visit.request = .renew machineId ttl →
        ((shared.run turns).carryOut index visit).deeds =
          (shared.run turns).deeds ++ [⟨visit, .failed (.notLeased machineId)⟩]) ∧
      (visit.request = .release machineId →
        ((shared.run turns).carryOut index visit).table = (shared.run turns).table)

theorem Sound.bars (sound : shared.Sound) {former machineId : Nat}
    (foreign : ∀ tenure ∈ shared.table.tenures[machineId]?, tenure.owner ≠ former) : shared.Bars former machineId := by
  intro turns unacquired index visit found owner
  have still := foreign_run sound foreign turns unacquired
  have handles := (sound.run turns).handles (List.mem_of_getElem? found)
  constructor
  · intro ttl asks
    show (shared.run turns).deeds ++
      [⟨visit, ((shared.run turns).table.handle visit.owner visit.readAt visit.request).1⟩] = _
    rw [asks, owner] at handles ⊢
    generalize (shared.run turns).table.handle former visit.readAt (.renew machineId ttl) = result at handles ⊢
    cases handles with
    | refuses => rfl
    | renews live own => exact absurd own (still _ (Table.getElem?_of_live? live).1)
  · intro asks
    show ((shared.run turns).table.handle visit.owner visit.readAt visit.request).2 = _
    rw [asks, owner] at handles ⊢
    generalize (shared.run turns).table.handle former visit.readAt (.release machineId) = result at handles ⊢
    cases handles with
    | keeps => rfl
    | releases held own => exact absurd own (still _ held)

/-- A machine ID passes from one owner to another only after the last tenure has expired, and what is still on its way
to the table then does no harm. -/
theorem takeover_safe {maxMachineId start machineId ttl : Nat} {turns : List Turn} {former : Tenure}
    (reached : (ofMax maxMachineId start).run turns = shared) (arrives : shared.visits[index]? = some visit)
    (asks : visit.request = .acquire ttl)
    (granted : (shared.carryOut index visit).deeds = shared.deeds ++ [⟨visit, .ok machineId⟩])
    (last : LastGranted machineId former shared.deeds) (other : visit.owner ≠ former.owner) :
    former.expiresAt ≤ shared.now ∧
      (shared.carryOut index visit).table.tenures[machineId]? = some ⟨visit.owner, visit.readAt + ttl⟩ ∧
      (shared.carryOut index visit).Bars former.owner machineId := by
  have sound : shared.Sound := reached ▸ (Sound.ofMax maxMachineId start).run turns
  have member := List.mem_of_getElem? arrives
  have after := sound.carryOut index member
  have newest : LastGranted machineId ⟨visit.owner, visit.readAt + ttl⟩ (shared.carryOut index visit).deeds := by
    refine ⟨shared.deeds, ⟨visit, .ok machineId⟩, [], granted, ?_, ?_⟩
    · simp [Deed.grant?, asks]
    · intro deed empty
      contradiction
  have held := after.held machineId _ newest
  refine ⟨?_, held, after.bars ?_⟩
  · have reply : (shared.table.handle visit.owner visit.readAt visit.request).1 = .ok machineId :=
      congrArg Deed.reply (List.singleton_inj.1 (List.append_cancel_left granted))
    have handles := sound.handles member
    rw [asks] at handles reply
    generalize shared.table.handle visit.owner visit.readAt (.acquire ttl) = result at handles reply
    cases handles with
    | acquires found =>
        -- The ID was free at the reading, which the clock has reached since.
        obtain rfl := Reply.ok.inj reply
        have expired := Table.live?_eq_none_iff.1 (Table.live?_eq_none_of_lowestFree? found) former
          (sound.held _ former last)
        exact Nat.le_trans expired (sound.read visit member).1
    | exhausted none => contradiction
  · intro tenure present
    obtain rfl := Option.some.inj (held.symm.trans present)
    exact other

/-- A lease of ten ends at 14 after a renewal. Its owner asks for another renewal at 13, but a second client that has
read 15 comes first. -/
theorem late_renewal_takeover_safe :
    let turns : List Turn :=
      [.read 0 (.acquire 10), .arrive 0, .pass 4, .read 0 (.renew 0 10), .arrive 0, .pass 9, .read 0 (.renew 0 10),
        .pass 2, .read 1 (.acquire 10), .pass 1]
    let shared := (ofMax 0 0).run turns
    let visit : Visit := ⟨1, .acquire 10, 15⟩
    shared.visits = [⟨0, .renew 0 10, 13⟩, visit] ∧ 14 ≤ shared.now ∧
      (shared.carryOut 1 visit).table.tenures[0]? = some ⟨1, 25⟩ ∧ (shared.carryOut 1 visit).Bars 0 0 := by
  intro turns shared visit
  have last : LastGranted 0 ⟨0, 14⟩ shared.deeds := by
    refine ⟨[⟨⟨0, .acquire 10, 0⟩, .ok 0⟩], ⟨⟨0, .renew 0 10, 4⟩, .ok 0⟩, [], ?_, rfl, ?_⟩
    · decide +kernel
    · intro deed empty
      contradiction
  have granted : (shared.carryOut 1 visit).deeds = shared.deeds ++ [⟨visit, .ok 0⟩] := by decide +kernel
  have visits : shared.visits = [⟨0, .renew 0 10, 13⟩, visit] := by decide +kernel
  have arrives : shared.visits[1]? = some visit := by rw [visits]; rfl
  exact ⟨visits, takeover_safe rfl arrives rfl granted last (by decide)⟩

end Shared
end LeasedIds.Lease
