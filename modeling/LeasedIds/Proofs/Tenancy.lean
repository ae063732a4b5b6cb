import LeasedIds.Proofs.Building
import LeasedIds.Proofs.Lease.Lodging
import Mathlib.Data.List.Infix
import Mathlib.Data.List.Perm.Basic

namespace LeasedIds.Generator
open Lease

inductive Contract where
  | lease (terms : Terms) (valid : terms.Valid) (maxMachineId : Nat)
  | generator (plan : Plan)

namespace Contract

def terms : Contract → Terms
  | .lease terms _ _ => terms
  | .generator plan => plan.terms

theorem valid : (contract : Contract) → contract.terms.Valid
  | .lease _ valid _ => valid
  | .generator plan => plan.valid

def maxMachineId : Contract → Nat
  | .lease _ _ maxMachineId => maxMachineId
  | .generator plan => plan.layout.maxMachineId

def holder? : Contract → Acquisition → Option Holder
  | .lease _ _ _, .leased holder => some holder
  | .lease _ _ _, _ => none
  | .generator plan, acquisition =>
    match Build.ofAcquisition plan acquisition with
    | .built holder _ => some holder
    | _ => none

end Contract

structure Tenant where
  owner : Nat
  contract : Contract
  custody : Custody MemoryStore

namespace Tenant

def holder? (tenant : Tenant) : Option Holder := tenant.contract.holder? tenant.custody.lease

def held? (tenant : Tenant) : Option Nat := tenant.holder?.bind Holder.unreleased?

def pending? (tenant : Tenant) : Option Nat :=
  match tenant.custody.lease with
  | .acquiring call => call.reply.machineId?
  | _ => none

def isBuilding (tenant : Tenant) : Bool :=
  match tenant.custody.lease with
  | .acquiring _ | .handingBack _ _ => true
  | .leased _ | .refused _ | .crashed => false

end Tenant

structure House where
  clock : Nat
  store : MemoryStore
  tenants : List Tenant := []

inductive HouseAction where
  | wait (span : Nat)
  | lease (now : Nat) (terms : Terms) (maxMachineId : Nat)
  | generate (now : Nat) (settings : Settings) (reading : Nat)
  | act (index : Nat) (action : Action)
deriving DecidableEq, Repr

namespace House

def vacant (maxMachineId clock : Nat) : House where
  clock
  store := .ofMax maxMachineId

def takeIn (house : House) (now : Nat) (contract : Contract) : House :=
  let (owner, store) := house.store.newOwner
  let custody := Custody.begin (MemoryStore.send owner house.clock) contract.terms now store
  { house with store := custody.store, tenants := house.tenants ++ [⟨owner, contract, custody⟩] }

def act (house : House) (index : Nat) (action : Action) (tenant : Tenant) : House :=
  let custody := { tenant.custody with store := house.store }.step (MemoryStore.send tenant.owner house.clock)
    tenant.contract.terms tenant.contract.valid tenant.contract.maxMachineId action
  { house with store := custody.store, tenants := house.tenants.set index { tenant with custody } }

def step (house : House) : HouseAction → House
  | .wait span => { house with clock := house.clock + span }
  | .lease now terms maxMachineId =>
    if valid : terms.Valid then house.takeIn now (.lease terms valid maxMachineId)
    else house
  | .generate now settings reading =>
    match settings.check reading with
    | .ok plan => house.takeIn now (.generator plan)
    | .error _ => house
  | .act index action => (house.tenants[index]?.map (house.act index action)).getD house

def run (house : House) (actions : List HouseAction) : House := actions.foldl step house

def leased (house : House) : List Nat := house.store.table.leased house.clock

def held (house : House) : List Nat := house.tenants.filterMap Tenant.held?

def pending (house : House) : List Nat := house.tenants.filterMap Tenant.pending?

def owners (house : House) : List Nat := house.tenants.map Tenant.owner

/-- No lease has run out, and every lease ends at an instant that can be represented. -/
structure Lasting (house : House) : Prop where
  unexpired : house.store.table.Unexpired house.clock
  representable : ∀ tenant ∈ house.tenants, house.clock + tenant.contract.terms.ttl < Time.instantLimit

instance (house : House) : Decidable house.Lasting :=
  decidable_of_iff (house.store.table.Unexpired house.clock ∧
      ∀ tenant ∈ house.tenants, house.clock + tenant.contract.terms.ttl < Time.instantLimit)
    ⟨fun lasting => ⟨lasting.1, lasting.2⟩, fun lasting => ⟨lasting.unexpired, lasting.representable⟩⟩

end House

theorem Contract.holder?_leased {contract : Contract} {holder : Holder}
    (fits : holder.machineId ≤ contract.maxMachineId) : contract.holder? (.leased holder) = some holder := by
  cases contract with
  | lease terms valid maxMachineId => rfl
  | generator plan => rw [Contract.holder?, Build.ofAcquisition_leased fits]

theorem Contract.holder?_eq_none (contract : Contract) {acquisition : Acquisition}
    (unleased : ∀ holder, acquisition ≠ .leased holder) : contract.holder? acquisition = none := by
  cases acquisition with
  | leased holder => exact absurd rfl (unleased holder)
  | _ => cases contract <;> rfl

structure Tenant.Sound (table : Table) (tenant : Tenant) : Prop where
  lists : table.Lists tenant.owner tenant.custody.lease.granted?
  suits : tenant.custody.lease.Suits tenant.contract.maxMachineId tenant.custody.now
  regular : tenant.custody.Regular tenant.contract.terms

namespace Tenant

variable {table : Table} {tenant : Tenant}

theorem pending?_eq_none (closed : tenant.isBuilding = false) : tenant.pending? = none := by
  unfold isBuilding at closed
  unfold pending?
  cases lease : tenant.custody.lease <;> simp_all

theorem held?_leased {holder : Holder} (fits : holder.machineId ≤ tenant.contract.maxMachineId)
    (lease : tenant.custody.lease = .leased holder) : tenant.held? = holder.unreleased? := by
  rw [held?, holder?, lease, Contract.holder?_leased fits]
  rfl

theorem held?_eq_none (unleased : ∀ holder, tenant.custody.lease ≠ .leased holder) : tenant.held? = none := by
  rw [held?, holder?, tenant.contract.holder?_eq_none unleased]
  rfl

theorem Sound.fits (sound : tenant.Sound table) {holder : Holder} (lease : tenant.custody.lease = .leased holder) :
    holder.machineId ≤ tenant.contract.maxMachineId := by
  have suits := sound.suits
  rwa [lease] at suits

theorem Sound.parts (sound : tenant.Sound table) :
    tenant.held?.toList ++ tenant.pending?.toList = tenant.custody.lease.granted?.toList := by
  cases lease : tenant.custody.lease with
  | leased holder => simp [held?_leased (sound.fits lease) lease, pending?, lease, Acquisition.granted?]
  | _ => simp [held?_eq_none, pending?, lease, Acquisition.granted?]

theorem Sound.held?_of_returned (sound : tenant.Sound table) (returned : tenant.custody.returned ≠ []) :
    tenant.held? = none := by
  cases lease : tenant.custody.lease with
  | leased holder =>
      have answered := (sound.regular.keeps lease).returned returned
      rw [held?_leased (sound.fits lease) lease, Holder.unreleased?]
      cases shutdown : holder.shutdown <;> simp_all [Holder.stopOutcome?, Shutdown.releases]
  | _ => exact held?_eq_none (by simp [lease])

end Tenant

namespace House

inductive Moves (house : House) : House → Prop where
  | stays : Moves house house
  | waits (span : Nat) : Moves house { house with clock := house.clock + span }
  | takesIn (now : Nat) (contract : Contract) : Moves house (house.takeIn now contract)
  | acts {index : Nat} {tenant : Tenant} {action : Action} (present : house.tenants[index]? = some tenant) :
      Moves house (house.act index action tenant)

theorem step_cases (house : House) (action : HouseAction) : house.Moves (house.step action) := by
  cases action with
  | wait span => exact .waits span
  | lease now terms maxMachineId =>
      unfold step
      dsimp only
      split
      · exact .takesIn now _
      · exact .stays
  | generate now settings reading =>
      unfold step
      dsimp only
      split
      · exact .takesIn now _
      · exact .stays
  | act index action =>
      rw [step]
      cases present : house.tenants[index]? with
      | none => exact .stays
      | some tenant => exact .acts present

structure Sound (house : House) : Prop where
  works : house.store.table.poisoned = false
  owners_nodup : house.owners.Nodup
  owners_lt : ∀ owner ∈ house.owners, owner < house.store.nextOwner
  known : ∀ machineId owner, house.store.table.owner? machineId = some owner → owner ∈ house.owners
  tenants : ∀ tenant ∈ house.tenants, tenant.Sound house.store.table

variable {house : House} {index : Nat} {tenant : Tenant} {action : Action}

theorem Sound.vacant (maxMachineId clock : Nat) : (vacant maxMachineId clock).Sound where
  works := rfl
  owners_nodup := List.nodup_nil
  owners_lt _ impossible := by contradiction
  known machineId owner listed := by simp [House.vacant, MemoryStore.ofMax, Table.owner?] at listed
  tenants _ impossible := by contradiction

theorem Sound.takeIn (sound : house.Sound) (unexpired : house.store.table.Unexpired house.clock) (now : Nat)
    {contract : Contract} (representable : house.clock + contract.terms.ttl < Time.instantLimit) :
    (house.takeIn now contract).Sound := by
  have new : house.store.nextOwner ∉ house.owners := fun known => Nat.lt_irrefl _ (sound.owners_lt _ known)
  have unlisted : house.store.newOwner.2.table.Lists house.store.nextOwner none := by
    intro machineId
    refine ⟨fun listed => absurd (sound.known machineId _ listed) new, fun impossible => by contradiction⟩
  obtain ⟨minds, lists⟩ : house.store.newOwner.2.Minds house.store.nextOwner (house.takeIn now contract).store ∧ _ :=
    MemoryStore.send_acquire sound.works unexpired representable unlisted
  have owners : (house.takeIn now contract).owners = house.owners ++ [house.store.nextOwner] := by
    simp [House.owners, House.takeIn, MemoryStore.newOwner]
  refine ⟨minds.works, ?_, ?_, ?_, ?_⟩
  · rw [owners, List.nodup_append]
    refine ⟨sound.owners_nodup, List.pairwise_singleton _ _, ?_⟩
    rintro owner known _ last rfl
    exact new (List.mem_singleton.1 last ▸ known)
  · rw [owners]
    intro owner member
    have next : (house.takeIn now contract).store.nextOwner = house.store.nextOwner + 1 := minds.nextOwner_eq
    rw [next]
    rcases List.mem_append.1 member with known | last
    · exact Nat.lt_succ_of_lt (sound.owners_lt owner known)
    · exact List.mem_singleton.1 last ▸ Nat.lt_succ_self _
  · rw [owners]
    intro machineId owner listed
    by_cases same : owner = house.store.nextOwner
    · exact List.mem_append_right _ (List.mem_singleton.2 same)
    · exact List.mem_append_left _ (sound.known machineId owner ((minds.others machineId owner same).1 listed))
  · intro tenant member
    rcases List.mem_append.1 member with old | last
    · have before := sound.tenants tenant old
      have different : tenant.owner ≠ house.store.nextOwner := fun same => new (same ▸ List.mem_map_of_mem old)
      exact ⟨minds.lists different before.lists, before.suits, before.regular⟩
    · rw [List.mem_singleton.1 last]
      exact ⟨lists, Nat.le_refl _, .begin _ _ _ _⟩

theorem Sound.replace (sound : house.Sound) (present : house.tenants[index]? = some tenant)
    {later : Custody MemoryStore} (minds : house.store.Minds tenant.owner later.store)
    (fine : Tenant.Sound later.store.table { tenant with custody := later }) :
    Sound { house with
      store := later.store, tenants := house.tenants.set index { tenant with custody := later } } := by
  obtain ⟨inside, here⟩ := List.getElem?_eq_some_iff.1 present
  obtain ⟨earlier, rest, split, _, changed⟩ : ∃ earlier rest, house.tenants = earlier ++ house.tenants[index] :: rest ∧
      earlier.length = index ∧ house.tenants.set index { tenant with custody := later } =
        earlier ++ { tenant with custody := later } :: rest := List.exists_of_set inside
  rw [here] at split
  have owners : (earlier ++ { tenant with custody := later } :: rest).map Tenant.owner = house.owners := by
    rw [House.owners, split]
    simp
  -- No other tenant has the same owner, so its entry is another one.
  have alone : ∀ other ∈ earlier ++ rest, other.owner ≠ tenant.owner := by
    intro other member same
    have distinct := sound.owners_nodup
    rw [House.owners, split, (List.perm_middle.map Tenant.owner).nodup_iff, List.map_cons, List.nodup_cons] at distinct
    exact distinct.1 (List.mem_map.2 ⟨other, member, same⟩)
  rw [changed]
  refine ⟨minds.works, ?_, ?_, ?_, ?_⟩
  · show ((earlier ++ { tenant with custody := later } :: rest).map Tenant.owner).Nodup
    rw [owners]
    exact sound.owners_nodup
  · intro owner member
    exact minds.nextOwner_eq ▸ sound.owners_lt owner (owners ▸ member)
  · intro machineId owner listed
    show owner ∈ (earlier ++ { tenant with custody := later } :: rest).map Tenant.owner
    rw [owners]
    by_cases same : owner = tenant.owner
    · exact same ▸ List.mem_map_of_mem (List.mem_of_getElem? present)
    · exact sound.known machineId owner ((minds.others machineId owner same).1 listed)
  · intro other member
    rcases List.mem_cons.1 (List.perm_middle.mem_iff.1 member) with rfl | elsewhere
    · exact fine
    · have old : other ∈ house.tenants := by
        rw [split]
        exact List.perm_middle.mem_iff.2 (List.mem_cons_of_mem _ elsewhere)
      have before := sound.tenants other old
      exact ⟨minds.lists (alone other elsewhere) before.lists, before.suits, before.regular⟩

theorem Sound.act (sound : house.Sound) (present : house.tenants[index]? = some tenant)
    (representable : house.clock + tenant.contract.terms.ttl < Time.instantLimit) :
    (house.act index action tenant).Sound := by
  have before := sound.tenants tenant (List.mem_of_getElem? present)
  let shared : Custody MemoryStore := { tenant.custody with store := house.store }
  let send := MemoryStore.send tenant.owner house.clock
  let later := shared.step send tenant.contract.terms tenant.contract.valid tenant.contract.maxMachineId action
  have regular : shared.Regular tenant.contract.terms := before.regular.of_store house.store
  have moves : later = shared ∨
      shared.Moves send tenant.contract.terms tenant.contract.valid tenant.contract.maxMachineId later :=
    shared.step_cases action
  show Sound { house with
    store := later.store, tenants := house.tenants.set index { tenant with custody := later } }
  rcases moves with same | moves
  · rw [same]
    exact sound.replace present (.refl sound.works) ⟨before.lists, before.suits, regular⟩
  · have lodges := moves.lodges sound.works before.lists before.suits regular representable
    exact sound.replace present lodges.minds ⟨lodges.lists, moves.suits before.suits, regular.step moves⟩

theorem Sound.step (sound : house.Sound) {action : HouseAction} (lasting : house.Lasting)
    (still : (house.step action).Lasting) : (house.step action).Sound := by
  have moves := house.step_cases action
  generalize house.step action = later at still moves
  cases moves with
  | stays => exact sound
  | waits span => exact ⟨sound.works, sound.owners_nodup, sound.owners_lt, sound.known, sound.tenants⟩
  | takesIn now contract =>
      exact sound.takeIn lasting.unexpired now (still.representable _ List.mem_concat_self)
  | acts present => exact sound.act present (lasting.representable _ (List.mem_of_getElem? present))

theorem Sound.run (sound : house.Sound) {actions : List HouseAction}
    (lasting : ∀ done, done <+: actions → (house.run done).Lasting) : (house.run actions).Sound := by
  induction actions generalizing house with
  | nil => exact sound
  | cons action actions hypothesis =>
      apply hypothesis (sound.step (lasting [] List.nil_prefix) (lasting [action] ⟨actions, rfl⟩))
      intro done before
      exact lasting (action :: done) (List.cons_prefix_cons.2 ⟨rfl, before⟩)

theorem Sound.leased_perm (sound : house.Sound) (unexpired : house.store.table.Unexpired house.clock) :
    house.leased.Perm (house.held ++ house.pending) := by
  let granted := house.tenants.filterMap fun tenant => tenant.custody.lease.granted?
  have distinct : granted.Nodup := by
    refine List.pairwise_filterMap.2 ((List.pairwise_map.1 sound.owners_nodup).imp_of_mem ?_)
    rintro tenant other member member' different machineId mine _ theirs rfl
    have listed := ((sound.tenants tenant member).lists machineId).2 mine
    have listed' := ((sound.tenants other member').lists machineId).2 theirs
    exact different (Option.some.inj (listed.symm.trans listed'))
  -- Both lists are without repetition, so that it is enough to compare their members.
  have same : house.leased.Perm granted := by
    rw [House.leased, List.perm_ext_iff_of_nodup (Table.leased_nodup _ _) distinct]
    intro machineId
    rw [Table.mem_leased_iff_of_unexpired unexpired, List.mem_filterMap]
    constructor
    · rintro ⟨owner, listed⟩
      obtain ⟨tenant, member, rfl⟩ := List.mem_map.1 (sound.known machineId owner listed)
      exact ⟨tenant, member, ((sound.tenants tenant member).lists machineId).1 listed⟩
    · rintro ⟨tenant, member, mine⟩
      exact ⟨tenant.owner, ((sound.tenants tenant member).lists machineId).2 mine⟩
  have parts : (house.held ++ house.pending).Perm granted := by
    have flat : granted = house.tenants.flatMap fun tenant => tenant.custody.lease.granted?.toList :=
      List.filterMap_eq_flatMap_toList _ _
    rw [held, pending, List.filterMap_eq_flatMap_toList, List.filterMap_eq_flatMap_toList, flat]
    refine (List.flatMap_append_perm _ _ _).trans (.of_eq ?_)
    exact List.flatMap_congr fun tenant member => (sound.tenants tenant member).parts
  exact same.trans parts.symm

def StopsAlone (house : House) (index : Nat) (tenant : Tenant) (later : House) : Prop :=
  ∃ after, later.tenants[index]? = some after ∧
    (after.held? = tenant.held? ∧ later.leased = house.leased ∨
      ∃ machineId, tenant.held? = some machineId ∧ after.held? = none ∧ later.leased = house.leased.erase machineId)

theorem Sound.stop (sound : house.Sound) (present : house.tenants[index]? = some tenant) (caller : Nat) :
    house.StopsAlone index tenant (house.act index (.stop caller) tenant) := by
  have fine := sound.tenants tenant (List.mem_of_getElem? present)
  let shared : Custody MemoryStore := { tenant.custody with store := house.store }
  let send := MemoryStore.send tenant.owner house.clock
  let later := shared.step send tenant.contract.terms tenant.contract.valid tenant.contract.maxMachineId (.stop caller)
  refine ⟨{ tenant with custody := later }, List.getElem?_set_self (List.getElem?_eq_some_iff.1 present).1, ?_⟩
  show Tenant.held? { tenant with custody := later } = tenant.held? ∧ later.store.table.leased house.clock = _ ∨
    ∃ machineId, tenant.held? = some machineId ∧ Tenant.held? { tenant with custody := later } = none ∧
      later.store.table.leased house.clock = _
  by_cases leased : ∃ holder, tenant.custody.lease = .leased holder
  · obtain ⟨holder, lease⟩ := leased
    have held := Tenant.held?_leased (fine.fits lease) lease
    have taken : shared.lease = .leased holder := lease
    obtain ⟨same, store⟩ | ⟨next, step, state, store⟩ : (later.lease = .leased holder ∧ later.store = house.store) ∨
        ∃ next, holder.ShutdownStep send shared.now house.store next ∧ later.lease = .leased next.state ∧
          later.store = next.store := shared.stop_cases taken caller
    · left
      rw [store, held]
      exact ⟨Tenant.held?_leased (fine.fits lease) same, rfl⟩
    · have fits : next.state.machineId ≤ tenant.contract.maxMachineId := step.frame.1 ▸ fine.fits lease
      have lists := fine.lists
      rw [lease] at lists
      have after : Tenant.held? { tenant with custody := later } = next.state.unreleased? :=
        Tenant.held?_leased fits state
      rw [store, held, after]
      rcases step.drops sound.works lists with ⟨kept, same⟩ | ⟨machineId, mine, gone, dropped⟩
      · exact .inl ⟨kept, by rw [same]; rfl⟩
      · exact .inr ⟨machineId, mine, gone, by rw [dropped]; exact Table.leased_drop _ _ _⟩
  · left
    have same : later = shared := by
      simp only [later, Custody.step]
      split
      next holder lease => exact absurd ⟨holder, lease⟩ leased
      next => rfl
    rw [same]
    exact ⟨rfl, rfl⟩

/-- The store lists the IDs of the holders that have not given theirs back, and of builds under way. -/
structure Accounts (house : House) : Prop where
  leased_eq : house.leased = (house.held ++ house.pending).mergeSort
  distinct : (house.held ++ house.pending).Nodup
  settled : (∀ tenant ∈ house.tenants, tenant.isBuilding = false) → house.leased = house.held.mergeSort
  stopped : ∀ tenant ∈ house.tenants, tenant.custody.returned ≠ [] → tenant.held? = none
  stops : ∀ index tenant caller, house.tenants[index]? = some tenant →
    house.StopsAlone index tenant (house.step (.act index (.stop caller)))

/-- While no lease runs out, the store lists the machine IDs of the holders that have not given theirs back, whatever
happens to them and in whatever order. -/
theorem leases_accounted (maxMachineId clock : Nat) (actions : List HouseAction)
    (lasting : ∀ done, done <+: actions → ((vacant maxMachineId clock).run done).Lasting) :
    ((vacant maxMachineId clock).run actions).Accounts := by
  have sound := (Sound.vacant maxMachineId clock).run lasting
  have unexpired := (lasting actions List.prefix_rfl).unexpired
  generalize (vacant maxMachineId clock).run actions = house at *
  have perm := sound.leased_perm unexpired
  have ascending := (house.store.table.leased_pairwise_lt house.clock).imp Nat.le_of_lt
  have leased_eq : house.leased = (house.held ++ house.pending).mergeSort := by
    have sorted : (house.held ++ house.pending).mergeSort.Pairwise fun id later => decide (id ≤ later) = true :=
      List.pairwise_mergeSort (fun _ _ _ => by simpa using Nat.le_trans) (fun _ _ => by simpa using Nat.le_total _ _) _
    have sorted := sorted.imp of_decide_eq_true
    exact (perm.trans (List.mergeSort_perm _ _).symm).eq_of_pairwise (fun _ _ _ _ => Nat.le_antisymm) ascending sorted
  refine ⟨leased_eq, perm.nodup_iff.1 (Table.leased_nodup _ _), ?_, ?_, ?_⟩
  · intro closed
    have none : house.pending = [] := List.filterMap_eq_nil_iff.2 fun tenant member =>
      Tenant.pending?_eq_none (closed tenant member)
    rw [leased_eq, none, List.append_nil]
  · intro tenant member
    exact (sound.tenants tenant member).held?_of_returned
  · intro index tenant caller present
    rw [House.step, present]
    exact sound.stop present caller

/-- The third tenant gets an ID that is too large for it; the fourth, which renews, gets it next. The first is stopped and
its ID goes to the fifth; the second is dropped, and the sixth has not seen yet that it has got an ID. -/
theorem busy_leases_accounted :
    let reading := Time.startOf2025 + Time.second
    let actions : List HouseAction :=
      [.lease 0 {} 10, .act 0 .acquire, .generate 0 {} reading, .act 1 .acquire, .lease 0 {} 1, .act 2 .acquire,
        .act 2 .acquire, .lease 0 {} 10, .act 3 .acquire, .act 0 (.stop 0), .act 0 .renew, .act 0 (.stop 0),
        .act 0 (.stop 0), .generate 0 {} reading, .act 4 .acquire, .wait (10 * Time.second), .act 1 .drop,
        .act 3 (.pass (10 * Time.second)), .act 3 .renew, .act 3 .renew, .lease 0 {} 10]
    let house := (vacant 5 0).run actions
    (∀ done, done <+: actions → ((vacant 5 0).run done).Lasting) ∧ house.held = [1, 2, 0] ∧ house.pending = [3] ∧
      house.leased = [0, 1, 2, 3] ∧ house.Accounts := by
  intro reading actions house
  have lasting : ∀ done, done <+: actions → ((vacant 5 0).run done).Lasting := by
    have all : ∀ done ∈ actions.inits, ((vacant 5 0).run done).Lasting := by decide +kernel
    exact fun done before => all done ((List.mem_inits done actions).2 before)
  exact ⟨lasting, by decide +kernel, by decide +kernel, by decide +kernel, leases_accounted 5 0 actions lasting⟩

end House
end LeasedIds.Generator
