import LeasedIds.Generator.Build
import LeasedIds.Proofs.Lease.Steps
import LeasedIds.Proofs.Minting.Series

/-!
# Fleets of generators

Generators that share their settings, apart from the terms of their leases, and one store. They are built, mint and are
stopped in any order; every clock reads the same time, which does not run backwards.
-/

namespace LeasedIds.Generator
open Lease

/-- A generator in use. The identifiers that it mints before somebody stops it are kept apart from those of calls that
end later. -/
structure Member where
  client : Nat
  holder : Holder
  encoder : Encoder
  builtAt : Nat
  position : Encoder.Position
  awaited? : Option Nat := none
  ids : List Id := []
  lateIds : List Id := []

namespace Member

def isStopped (member : Member) : Bool := member.holder.shutdown ≠ .idle

def mint (member : Member) (id : Id) (position : Encoder.Position) : Member :=
  if member.isStopped then { member with position, awaited? := none, lateIds := member.lateIds ++ [id] }
  else { member with position, awaited? := none, ids := member.ids ++ [id] }

def progress (member : Member) (now : Nat) : Encoder.Progress :=
  match member.awaited? with
  | none => member.encoder.start member.position now
  | some next => member.encoder.resume next now

def read (member : Member) (now : Nat) : Member :=
  match member.progress now with
  | .minted id position => member.mint id position
  | .failed _ => { member with awaited? := none }
  | .waiting next => { member with awaited? := some next }

def called (member : Member) : Encoder.Ending (List Nat) → Member
  | ⟨.minted id, position, _⟩ => member.mint id position
  | ⟨.failed _, _, _⟩ | ⟨.starved, _, _⟩ => member

theorem exists_foldl_read_awaitUnit (member : Member) (next : Nat) (readings : List Nat)
    (ends : (member.encoder.awaitUnit member.position next readings).outcome ≠ .starved) :
    ∃ taken, readings = taken ++ (member.encoder.awaitUnit member.position next readings).readings ∧
      taken.foldl read { member with awaited? := some next } =
        { member with awaited? := none }.called (member.encoder.awaitUnit member.position next readings) := by
  induction readings with
  | nil => contradiction
  | cons now readings hypothesis =>
      rw [Encoder.awaitUnit] at ends ⊢
      cases progress : member.encoder.resume next now with
      | minted id position => exact ⟨[now], rfl, by simp [read, Member.progress, progress, called, mint, isStopped]⟩
      | failed error => exact ⟨[now], rfl, by simp [read, Member.progress, progress, called]⟩
      | waiting unit =>
          rw [progress] at ends
          obtain rfl := Encoder.resume_eq_waiting progress
          obtain ⟨taken, split, same⟩ := hypothesis ends
          refine ⟨now :: taken, congrArg (now :: ·) split, ?_⟩
          rw [← same, List.foldl_cons]
          simp [read, Member.progress, progress]

/-- Reading by reading a call does what it does as a whole. -/
theorem exists_foldl_read {member : Member} (idle : member.awaited? = none) (readings : List Nat)
    (ends : (member.encoder.nextId member.position readings).outcome ≠ .starved) :
    ∃ taken, readings = taken ++ (member.encoder.nextId member.position readings).readings ∧
      taken.foldl read member = member.called (member.encoder.nextId member.position readings) := by
  have same : { member with awaited? := none } = member := by rw [← idle]
  cases readings with
  | nil => contradiction
  | cons now readings =>
      rw [Encoder.nextId] at ends ⊢
      cases progress : member.encoder.start member.position now with
      | minted id position => exact ⟨[now], rfl, by simp [read, Member.progress, idle, progress, called]⟩
      | failed error => exact ⟨[now], rfl, by simp [read, Member.progress, idle, progress, called, same]⟩
      | waiting next =>
          rw [progress] at ends
          obtain ⟨taken, split, whole⟩ := member.exists_foldl_read_awaitUnit next readings ends
          refine ⟨now :: taken, congrArg (now :: ·) split, ?_⟩
          rw [same] at whole
          rw [← whole, List.foldl_cons]
          simp [read, Member.progress, idle, progress]

end Member

structure Order where
  client : Nat
  plan : Plan
  build : Build

structure Fleet (σ : Type) where
  now : Nat
  wall : Nat
  store : σ
  orders : List Order := []
  members : List Member := []

inductive FleetAction where
  | pass (span : Nat)
  | tick (span : Nat)
  | order (client : Nat) (terms : Terms)
  | build (index : Nat)
  | read (index : Nat)
  | renew (index : Nat)
  | stop (index : Nat)
deriving DecidableEq, Repr

namespace Fleet

variable {σ : Type}

def deliver (fleet : Fleet σ) (index : Nat) (order : Order) (next : Stepped Build σ) : Fleet σ :=
  match next.state with
  | .built holder encoder =>
    { fleet with
      store := next.store
      orders := fleet.orders.eraseIdx index
      members := fleet.members ++ [{
        client := order.client, holder, encoder, builtAt := fleet.wall, position := encoder.initial }] }
  | build => { fleet with store := next.store, orders := fleet.orders.set index { order with build } }

def replace (fleet : Fleet σ) (index : Nat) (member : Member) : Fleet σ :=
  { fleet with members := fleet.members.set index member }

def hold (fleet : Fleet σ) (index : Nat) (member : Member) (next : Stepped Holder σ) : Fleet σ :=
  { fleet with store := next.store }.replace index { member with holder := next.state }

section

variable (send : Nat → Transport σ) (settings : Settings)

def place (fleet : Fleet σ) (client : Nat) (terms : Terms) : Fleet σ :=
  match { settings with terms }.check fleet.wall with
  | .error _ => fleet
  | .ok plan =>
    let begun := Build.begin (send client) plan fleet.now fleet.store
    { fleet with store := begun.store, orders := fleet.orders ++ [⟨client, plan, begun.state⟩] }

def carryOn (fleet : Fleet σ) (index : Nat) (order : Order) : Fleet σ :=
  match order.build with
  | .leasing acquisition =>
    match acquisition.step? (send order.client) order.plan.terms order.plan.valid order.plan.layout.maxMachineId
      fleet.now fleet.store with
    | some next => fleet.deliver index order (next.map (.ofAcquisition order.plan))
    | none => fleet
  | .abandoning holder error =>
    let next := Build.abandon (send order.client) fleet.now holder error fleet.store
    { fleet with store := next.store, orders := fleet.orders.set index { order with build := next.state } }
  | .built _ _ | .refused _ | .crashed => fleet

def step (fleet : Fleet σ) : FleetAction → Fleet σ
  | .pass span => { fleet with now := fleet.now + span }
  | .tick span => { fleet with wall := fleet.wall + span }
  | .order client terms => fleet.place send settings client terms
  | .build index => (fleet.orders[index]?.map (fleet.carryOn send index)).getD fleet
  | .read index => (fleet.members[index]?.map fun member => fleet.replace index (member.read fleet.wall)).getD fleet
  | .renew index =>
    (fleet.members[index]?.bind fun member =>
      (member.holder.renewalStep? (send member.client) fleet.now fleet.store).map (fleet.hold index member)).getD fleet
  | .stop index =>
    (fleet.members[index]?.bind fun member =>
      (member.holder.shutdownStep? (send member.client) fleet.now fleet.store).map (fleet.hold index member)).getD fleet

def run (fleet : Fleet σ) (actions : List FleetAction) : Fleet σ := actions.foldl (step send settings) fleet

end

def Exclusive (fleet : Fleet σ) : Prop :=
  fleet.members.Pairwise fun earlier later =>
    earlier.isStopped = false → later.isStopped = false → earlier.encoder.machineId ≠ later.encoder.machineId

instance (fleet : Fleet σ) : Decidable fleet.Exclusive := by
  unfold Exclusive
  infer_instance

def ids (fleet : Fleet σ) : List Id := fleet.members.flatMap Member.ids

end Fleet

structure Settings.Fixes (settings : Settings) (epoch timeUnit : Nat) (layout : Layout) : Prop where
  epoch_eq : settings.startTime = epoch
  timeUnit_eq : settings.timeUnit = timeUnit
  layout_eq : Layout.ofWidths settings.sequenceBits settings.machineBits = .ok layout

theorem Settings.Fixes.unique {settings : Settings} {epoch epoch' timeUnit timeUnit' : Nat} {layout layout' : Layout}
    (fixes : settings.Fixes epoch timeUnit layout) (fixes' : settings.Fixes epoch' timeUnit' layout') :
    epoch = epoch' ∧ timeUnit = timeUnit' ∧ layout = layout' := by
  refine ⟨?_, ?_, ?_⟩
  · have same := fixes.epoch_eq.symm.trans fixes'.epoch_eq
    omega
  · exact fixes.timeUnit_eq.symm.trans fixes'.timeUnit_eq
  · exact Except.ok.inj (fixes.layout_eq.symm.trans fixes'.layout_eq)

theorem Settings.plan_of_check {settings : Settings} {now : Nat} {plan : Plan}
    (passed : settings.check now = .ok plan) :
    settings.Fixes plan.epoch plan.timeUnit plan.layout ∧ plan.terms = settings.terms := by
  unfold check at passed
  split at passed
  · contradiction
  · split at passed
    · contradiction
    next epoch start =>
      split at passed
      · contradiction
      · unfold planFrom at passed
        split at passed
        · contradiction
        · split at passed
          · contradiction
          · split at passed
            · contradiction
            next layout made =>
              split at passed
              · obtain rfl := Except.ok.inj passed
                exact ⟨⟨start, rfl, made⟩, rfl⟩
              · contradiction

structure Plan.Equips (plan : Plan) (holder : Holder) (encoder : Encoder) : Prop where
  machineId_eq : encoder.machineId = holder.machineId
  epoch_eq : encoder.epoch = plan.epoch
  timeUnit_eq : encoder.timeUnit = plan.timeUnit
  layout_eq : encoder.layout = plan.layout

theorem Build.ofAcquisition_eq_built {plan : Plan} {acquisition : Acquisition} {holder : Holder} {encoder : Encoder}
    (built : ofAcquisition plan acquisition = .built holder encoder) :
    acquisition = .leased holder ∧ plan.Equips holder encoder := by
  unfold ofAcquisition at built
  split at built
  next holder' =>
    split at built
    next encoder' made =>
      obtain ⟨rfl, rfl⟩ := Build.built.inj built
      unfold Encoder.create at made
      split at made
      · split at made
        · obtain rfl := Except.ok.inj made
          exact ⟨rfl, rfl, rfl, rfl, rfl⟩
        · contradiction
      · contradiction
    next => contradiction
  all_goals contradiction

namespace Member

theorem unitAt_eq {settings : Settings} {member other : Member}
    (fixes : settings.Fixes member.encoder.epoch member.encoder.timeUnit member.encoder.layout)
    (fixes' : settings.Fixes other.encoder.epoch other.encoder.timeUnit other.encoder.layout) (now : Nat) :
    member.encoder.unitAt now = other.encoder.unitAt now := by
  obtain ⟨epoch, timeUnit, _⟩ := fixes.unique fixes'
  rw [Encoder.unitAt, epoch, timeUnit, Encoder.unitAt]

structure Sound (settings : Settings) (wall : Nat) (member : Member) : Prop where
  fixes : settings.Fixes member.encoder.epoch member.encoder.timeUnit member.encoder.layout
  builtAt_le : member.builtAt ≤ wall
  series : member.encoder.Series (member.ids ++ member.lateIds) member.position
  reached : member.position.lastElapsed ≤ member.encoder.unitAt wall
  begun : ∀ id ∈ member.ids, member.encoder.unitAt member.builtAt ≤ member.encoder.layout.elapsed id
  awaited : ∀ next ∈ member.awaited?, next = member.position.lastElapsed + 1 ∧
    next ≤ member.encoder.layout.maxElapsed ∧ member.encoder.unitAt member.builtAt ≤ next
  early : member.isStopped = false → member.lateIds = []

variable {settings : Settings} {wall : Nat} {member : Member}

theorem Sound.later (sound : member.Sound settings wall) {later : Nat} (le : wall ≤ later) :
    member.Sound settings later where
  fixes := sound.fixes
  builtAt_le := Nat.le_trans sound.builtAt_le le
  series := sound.series
  reached := Nat.le_trans sound.reached (member.encoder.unitAt_mono le)
  begun := sound.begun
  awaited := sound.awaited
  early := sound.early

theorem Sound.await (sound : member.Sound settings wall) (awaited? : Option Nat)
    (awaited : ∀ next ∈ awaited?, next = member.position.lastElapsed + 1 ∧
      next ≤ member.encoder.layout.maxElapsed ∧ member.encoder.unitAt member.builtAt ≤ next) :
    { member with awaited? }.Sound settings wall :=
  ⟨sound.fixes, sound.builtAt_le, sound.series, sound.reached, sound.begun, awaited, sound.early⟩

theorem Sound.new {client : Nat} {holder : Holder} {encoder : Encoder}
    (fixes : settings.Fixes encoder.epoch encoder.timeUnit encoder.layout) :
    Sound settings wall { client, holder, encoder, builtAt := wall, position := encoder.initial } where
  fixes := fixes
  builtAt_le := Nat.le_refl _
  series := .fresh
  reached := Nat.zero_le _
  begun id minted := by contradiction
  awaited next waiting := by contradiction
  early _ := rfl

theorem Sound.mint (sound : member.Sound settings wall) {after : Encoder.Position}
    (step : member.position.Next member.encoder.layout after) (reached : after.lastElapsed ≤ member.encoder.unitAt wall)
    (begun : member.encoder.unitAt member.builtAt ≤ after.lastElapsed) :
    (member.mint (member.encoder.idAt after) after).Sound settings wall := by
  have longer := sound.series.snoc step
  unfold Member.mint
  split
  next stopped =>
    refine ⟨sound.fixes, sound.builtAt_le, ?_, reached, sound.begun, ?_, ?_⟩
    · rwa [List.append_assoc] at longer
    · intro next impossible
      contradiction
    · intro running
      exact absurd stopped (Bool.eq_false_iff.1 running)
  next running =>
    have none := sound.early (Bool.eq_false_iff.2 running)
    rw [none, List.append_nil] at longer
    refine ⟨sound.fixes, sound.builtAt_le, ?_, reached, ?_, ?_, fun _ => none⟩
    · show member.encoder.Series (member.ids ++ [_] ++ member.lateIds) after
      rwa [none, List.append_nil]
    · intro id member'
      rcases List.mem_append.1 member' with before | new
      · exact sound.begun id before
      · rw [List.mem_singleton.1 new, Encoder.elapsed_idAt (step.fits sound.series.fits)]
        exact begun
    · intro next impossible
      contradiction

theorem Sound.read (sound : member.Sound settings wall) : (member.read wall).Sound settings wall := by
  have built := member.encoder.unitAt_mono sound.builtAt_le
  unfold Member.read
  cases awaited : member.awaited? with
  | none =>
      cases progress : member.progress wall with
      | minted id after =>
          rw [Member.progress, awaited] at progress
          obtain ⟨step, rfl, low, high⟩ := Encoder.start_eq_minted sound.series.fits progress
          apply sound.mint step
          · exact Nat.le_trans high (Nat.max_le.2 ⟨sound.reached, Nat.le_refl _⟩)
          · exact Nat.le_trans built low
      | failed error => exact sound.await none fun _ impossible => by contradiction
      | waiting next =>
          rw [Member.progress, awaited] at progress
          obtain ⟨rfl, room, read⟩ := Encoder.start_eq_waiting progress
          apply sound.await
          rintro _ ⟨⟩
          exact ⟨rfl, room, Nat.le_trans built (Nat.le_succ_of_le read)⟩
  | some next =>
      obtain ⟨following, room, begun⟩ := sound.awaited next awaited
      cases progress : member.progress wall with
      | minted id after =>
          rw [Member.progress, awaited] at progress
          obtain ⟨rfl, rfl, reached⟩ := Encoder.resume_eq_minted progress
          exact sound.mint (.unit (following ▸ Nat.lt_succ_self _) room) reached begun
      | failed error => exact sound.await none fun _ impossible => by contradiction
      | waiting unit =>
          rw [Member.progress, awaited] at progress
          obtain rfl := Encoder.resume_eq_waiting progress
          apply sound.await
          rintro _ ⟨⟩
          exact ⟨following, room, begun⟩

structure Evolves (member later : Member) : Prop where
  encoder_eq : later.encoder = member.encoder
  builtAt_eq : later.builtAt = member.builtAt
  stopped : member.isStopped = true → later.isStopped = true ∧ later.ids = member.ids

theorem evolves_mint (id : Id) (position : Encoder.Position) : member.Evolves (member.mint id position) := by
  unfold mint
  split
  next stopped => exact ⟨rfl, rfl, fun _ => ⟨stopped, rfl⟩⟩
  next running => exact ⟨rfl, rfl, fun stopped => absurd stopped running⟩

theorem evolves_read (now : Nat) : member.Evolves (member.read now) := by
  unfold read
  cases member.progress now with
  | minted id position => exact evolves_mint id position
  | failed error => exact ⟨rfl, rfl, fun stopped => ⟨stopped, rfl⟩⟩
  | waiting next => exact ⟨rfl, rfl, fun stopped => ⟨stopped, rfl⟩⟩

theorem evolves_hold {holder : Holder} (started : member.holder.shutdown ≠ .idle → holder.shutdown ≠ .idle) :
    member.Evolves { member with holder } := by
  refine ⟨rfl, rfl, fun stopped => ⟨?_, rfl⟩⟩
  simp only [isStopped, decide_eq_true_eq] at stopped ⊢
  exact started stopped

theorem Sound.hold (sound : member.Sound settings wall) {holder : Holder}
    (started : member.holder.shutdown ≠ .idle → holder.shutdown ≠ .idle) :
    { member with holder }.Sound settings wall := by
  refine ⟨sound.fixes, sound.builtAt_le, sound.series, sound.reached, sound.begun, sound.awaited, ?_⟩
  intro running
  apply sound.early
  simp only [isStopped, decide_eq_false_iff_not, ne_eq, not_not] at running ⊢
  by_contra stopped
  exact started stopped running

/-- A generator with the machine ID of an earlier one has been built after the other was stopped, and not before the
last unit in which the other has minted. -/
def Follows (later earlier : Member) : Prop :=
  earlier.encoder.machineId = later.encoder.machineId →
    earlier.isStopped = true ∧
      ∀ id ∈ earlier.ids, earlier.encoder.layout.elapsed id ≤ later.encoder.unitAt later.builtAt

theorem Follows.evolve {later earlier later' earlier' : Member} (follows : later.Follows earlier)
    (evolves : later.Evolves later') (evolves' : earlier.Evolves earlier') : later'.Follows earlier' := by
  intro same
  rw [evolves.encoder_eq, evolves'.encoder_eq] at same
  obtain ⟨stopped, before⟩ := follows same
  obtain ⟨still, ids⟩ := evolves'.stopped stopped
  rw [ids, evolves.encoder_eq, evolves'.encoder_eq, evolves.builtAt_eq]
  exact ⟨still, before⟩

theorem Evolves.refl (member : Member) : member.Evolves member := ⟨rfl, rfl, fun stopped => ⟨stopped, rfl⟩⟩

end Member

namespace Fleet

variable {σ : Type} {send : Nat → Transport σ} {settings : Settings} {fleet : Fleet σ}

structure Sound (settings : Settings) (fleet : Fleet σ) : Prop where
  orders : ∀ order ∈ fleet.orders, settings.Fixes order.plan.epoch order.plan.timeUnit order.plan.layout
  members : ∀ member ∈ fleet.members, member.Sound settings fleet.wall
  follows : fleet.members.Pairwise fun earlier later => later.Follows earlier

theorem Sound.replace (sound : fleet.Sound settings) {index : Nat} {member later : Member}
    (found : fleet.members[index]? = some member) (evolves : member.Evolves later)
    (fine : later.Sound settings fleet.wall) : (fleet.replace index later).Sound settings := by
  obtain ⟨inside, rfl⟩ := List.getElem?_eq_some_iff.1 found
  obtain ⟨before, after, split, _, changed⟩ : ∃ before after, fleet.members = before ++ fleet.members[index] :: after ∧
      before.length = index ∧ fleet.members.set index later = before ++ later :: after := List.exists_of_set inside
  generalize fleet.members[index] = member at split evolves
  have follows := sound.follows
  rw [split, List.pairwise_append, List.pairwise_cons] at follows
  obtain ⟨earlier, ⟨followed, others⟩, across⟩ := follows
  refine ⟨sound.orders, ?_, ?_⟩
  · intro other present
    rcases List.mem_or_eq_of_mem_set present with kept | rfl
    · exact sound.members other kept
    · exact fine
  · show (fleet.members.set index later).Pairwise _
    rw [changed, List.pairwise_append, List.pairwise_cons]
    refine ⟨earlier, ⟨?_, others⟩, ?_⟩
    · intro other present
      exact (followed other present).evolve (.refl other) evolves
    · intro first member' last present
      rcases List.mem_cons.1 present with rfl | behind
      · exact (across first member' member List.mem_cons_self).evolve evolves (.refl first)
      · exact across first member' last (List.mem_cons_of_mem _ behind)

theorem Sound.join (sound : fleet.Sound settings) {new : Member} (fine : new.Sound settings fleet.wall)
    (running : new.isStopped = false) (built : new.builtAt = fleet.wall)
    (exclusive : ∀ member ∈ fleet.members, member.isStopped = false →
      member.encoder.machineId ≠ new.encoder.machineId) :
    { fleet with members := fleet.members ++ [new] }.Sound settings := by
  refine ⟨sound.orders, ?_, ?_⟩
  · intro member present
    rcases List.mem_append.1 present with old | last
    · exact sound.members member old
    · exact List.mem_singleton.1 last ▸ fine
  · show (fleet.members ++ [new]).Pairwise _
    rw [List.pairwise_append]
    refine ⟨sound.follows, List.pairwise_singleton _ _, ?_⟩
    intro member old last present same
    obtain rfl := List.mem_singleton.1 present
    have old' := sound.members member old
    constructor
    · by_contra still
      exact exclusive member old (Bool.eq_false_iff.2 still) same
    · intro id minted
      have reached := old'.series.elapsed_le (List.mem_append_left member.lateIds minted)
      rw [built, ← Member.unitAt_eq old'.fixes fine.fixes]
      exact Nat.le_trans reached old'.reached

theorem Sound.hold (sound : fleet.Sound settings) {index : Nat} {member : Member} {next : Stepped Holder σ}
    (found : fleet.members[index]? = some member)
    (started : member.holder.shutdown ≠ .idle → next.state.shutdown ≠ .idle) :
    (fleet.hold index member next).Sound settings := by
  have unchanged : { fleet with store := next.store }.Sound settings := ⟨sound.orders, sound.members, sound.follows⟩
  have fine := sound.members member (List.mem_of_getElem? found)
  exact unchanged.replace found (Member.evolves_hold started) (fine.hold started)

theorem deliver_cases (fleet : Fleet σ) (index : Nat) (order : Order) (next : Stepped Acquisition σ) :
    let later := fleet.deliver index order (next.map (.ofAcquisition order.plan))
    later.wall = fleet.wall ∧ (∀ order' ∈ later.orders, order'.plan = order.plan ∨ order' ∈ fleet.orders) ∧
      (later.members = fleet.members ∨
        ∃ holder encoder, next.state = .leased holder ∧ encoder.epoch = order.plan.epoch ∧
          encoder.timeUnit = order.plan.timeUnit ∧ encoder.layout = order.plan.layout ∧
          later.members = fleet.members ++ [{
            client := order.client, holder, encoder, builtAt := fleet.wall, position := encoder.initial }]) := by
  intro later
  unfold later deliver
  split
  next holder encoder built =>
    obtain ⟨leased, equips⟩ := Build.ofAcquisition_eq_built built
    refine ⟨rfl, ?_, .inr ⟨holder, encoder, leased, equips.epoch_eq, equips.timeUnit_eq, equips.layout_eq, rfl⟩⟩
    intro other present
    exact .inr (List.mem_of_mem_eraseIdx present)
  next build going =>
    refine ⟨rfl, ?_, .inl rfl⟩
    intro other present
    rcases List.mem_or_eq_of_mem_set present with old | rfl
    · exact .inr old
    · exact .inl rfl

theorem Sound.carryOn (sound : fleet.Sound settings) {index : Nat} {order : Order} (member : order ∈ fleet.orders)
    (exclusive : (fleet.carryOn send index order).Exclusive) : (fleet.carryOn send index order).Sound settings := by
  have fixes := sound.orders order member
  have orders {later : List Order} (same : ∀ other ∈ later, other.plan = order.plan ∨ other ∈ fleet.orders) :
      ∀ other ∈ later, settings.Fixes other.plan.epoch other.plan.timeUnit other.plan.layout := by
    intro other present
    rcases same other present with plan | old
    · rwa [plan]
    · exact sound.orders other old
  unfold Fleet.carryOn at exclusive ⊢
  generalize order.build = build at exclusive ⊢
  cases build with
  | leasing acquisition =>
      cases found : acquisition.step? (send order.client) order.plan.terms order.plan.valid
          order.plan.layout.maxMachineId fleet.now fleet.store with
      | none => simpa only [found] using sound
      | some next =>
          simp only [found] at exclusive ⊢
          obtain ⟨wall, plans, members⟩ := fleet.deliver_cases index order next
          generalize fleet.deliver index order (next.map (.ofAcquisition order.plan)) = later at *
          -- The step has put no generator in place, or a new one behind the others.
          rcases members with same | ⟨holder, encoder, leased, epoch, timeUnit, layout, joined⟩
          · refine ⟨orders plans, ?_, ?_⟩
            · rw [same, wall]
              exact sound.members
            · rw [same]
              exact sound.follows
          · have idle := (Acquisition.step?_eq_some_iff.1 found).shutdown_eq_idle leased
            have running : Member.isStopped ⟨order.client, holder, encoder, fleet.wall, encoder.initial, none, [], []⟩ =
                false := by simp [Member.isStopped, idle]
            rw [Exclusive, joined, List.pairwise_append] at exclusive
            have whole := sound.join (.new (by rwa [epoch, timeUnit, layout])) running rfl
              fun old present still => exclusive.2.2 old present _ (List.mem_singleton_self _) still running
            refine ⟨orders plans, ?_, ?_⟩
            · rw [joined, wall]
              exact whole.members
            · rw [joined]
              exact whole.follows
  | abandoning holder error =>
      refine ⟨orders ?_, sound.members, sound.follows⟩
      intro other present
      rcases List.mem_or_eq_of_mem_set present with old | rfl
      · exact .inr old
      · exact .inl rfl
  | built holder encoder => exact sound
  | refused error => exact sound
  | crashed => exact sound

theorem Sound.step (sound : fleet.Sound settings) {action : FleetAction}
    (exclusive : (fleet.step send settings action).Exclusive) : (fleet.step send settings action).Sound settings := by
  cases action with
  | pass span => exact ⟨sound.orders, sound.members, sound.follows⟩
  | tick span =>
      refine ⟨sound.orders, ?_, sound.follows⟩
      intro member present
      exact (sound.members member present).later (Nat.le_add_right _ _)
  | order client terms =>
      rw [Fleet.step, place]
      split
      next error refused => exact sound
      next plan passed =>
        refine ⟨?_, sound.members, sound.follows⟩
        intro order present
        rcases List.mem_append.1 present with old | new
        · exact sound.orders order old
        · rw [List.mem_singleton.1 new]
          have fixes := (Settings.plan_of_check passed).1
          exact ⟨fixes.epoch_eq, fixes.timeUnit_eq, fixes.layout_eq⟩
  | build index =>
      rw [Fleet.step] at exclusive ⊢
      cases found : fleet.orders[index]? with
      | none => exact sound
      | some order =>
          rw [found] at exclusive
          exact sound.carryOn (List.mem_of_getElem? found) exclusive
  | read index =>
      rw [Fleet.step]
      cases found : fleet.members[index]? with
      | none => exact sound
      | some member =>
          have fine := sound.members member (List.mem_of_getElem? found)
          exact sound.replace found (Member.evolves_read fleet.wall) fine.read
  | renew index =>
      rw [Fleet.step]
      cases found : fleet.members[index]? with
      | none => exact sound
      | some member =>
          rw [Option.bind_some]
          cases taken : member.holder.renewalStep? (send member.client) fleet.now fleet.store with
          | none => exact sound
          | some next =>
              have frame := (Holder.renewalStep?_eq_some_iff.1 taken).frame
              refine sound.hold found fun started => ?_
              rwa [frame.2.2.2]
  | stop index =>
      rw [Fleet.step]
      cases found : fleet.members[index]? with
      | none => exact sound
      | some member =>
          rw [Option.bind_some]
          cases taken : member.holder.shutdownStep? (send member.client) fleet.now fleet.store with
          | none => exact sound
          | some next =>
              have stopping := (Holder.shutdownStep?_eq_some_iff.1 taken).cancelled.1
              exact sound.hold found fun _ => stopping

theorem Sound.run (sound : fleet.Sound settings) {actions : List FleetAction}
    (exclusive : ∀ done, done <+: actions → (fleet.run send settings done).Exclusive) :
    (fleet.run send settings actions).Sound settings := by
  induction actions generalizing fleet with
  | nil => exact sound
  | cons action actions hypothesis =>
      apply hypothesis (sound.step (exclusive [action] ⟨actions, rfl⟩))
      intro done before
      exact exclusive (action :: done) (List.cons_prefix_cons.2 ⟨rfl, before⟩)

end Fleet
end LeasedIds.Generator
