import LeasedIds.Simulation.Operations

namespace LeasedIds.Simulation
open Lease Generator

namespace World

def minter? (world : World) (index : Nat) : Option Minter := world.slots[index]?.bind (·.minter?)

/-- Later, every minter is as it was, and so is the wall clock. -/
structure Spares (world later : World) : Prop where
  wall_eq : later.wall = world.wall
  minter?_eq : ∀ index minter, world.minter? index = some minter → later.minter? index = some minter

namespace Spares

variable {world later last : World}

theorem refl (world : World) : world.Spares world := ⟨rfl, fun _ _ => id⟩

theorem ite (holds : Prop) [Decidable holds] (spares : world.Spares later) (spares' : world.Spares last) :
    world.Spares (if holds then later else last) := by
  split <;> assumption

/-! ## Steps -/

theorem same (spares : world.Spares later) (wall : last.wall = later.wall) (slots : last.slots = later.slots) :
    world.Spares last := by
  refine ⟨wall.trans spares.wall_eq, fun index minter found => ?_⟩
  rw [minter?, slots]
  exact spares.minter?_eq index minter found

theorem absorb (spares : world.Spares later) {α : Type} (client : Nat) (step : Stepped α Stores) :
    world.Spares (later.absorb client step) := spares.same rfl rfl

theorem logEvent (spares : world.Spares later) (client : Nat) (event : Event) :
    world.Spares (later.logEvent client event) := spares.same rfl rfl

theorem setTimer (spares : world.Spares later) (timer : Timer) : world.Spares (later.setTimer timer) :=
  spares.same rfl rfl

theorem awakenStops (spares : world.Spares later) (index : Nat) : world.Spares (later.awakenStops index) :=
  spares.same rfl rfl

theorem awakenRenewer (spares : world.Spares later) (index : Nat) : world.Spares (later.awakenRenewer index) :=
  .ite _ (spares.same rfl rfl) spares

theorem setSlot (spares : world.Spares later) (changed : Slot) {index : Nat} {slot : Slot}
    (found : later.slots[index]? = some slot) (kept : changed.minter? = slot.minter?) :
    world.Spares { later with slots := later.slots.setIfInBounds index changed } := by
  refine ⟨spares.wall_eq, fun other minter present => ?_⟩
  rw [← spares.minter?_eq other minter present, minter?, minter?, Array.getElem?_setIfInBounds]
  split
  next same =>
    subst same
    obtain ⟨inside, _⟩ := Array.getElem?_eq_some_iff.1 found
    rw [if_pos inside, found]
    exact kept
  next => rfl

theorem setHolder (spares : world.Spares later) (index : Nat) (holder : Holder) :
    world.Spares (later.setHolder index holder) := by
  refine ⟨spares.wall_eq, fun other minter present => ?_⟩
  rw [← spares.minter?_eq other minter present, minter?, minter?, World.setHolder, Array.getElem?_modify]
  split
  · rw [Option.bind_map]
    rfl
  · rfl

theorem addSlot (spares : world.Spares later) (client : Nat) (holder : Holder) (minter? : Option Minter) :
    world.Spares (later.addSlot client holder minter?) := by
  refine ⟨spares.wall_eq, fun index minter present => ?_⟩
  have found := spares.minter?_eq index minter present
  obtain ⟨slot, place, _⟩ := Option.bind_eq_some_iff.1 found
  obtain ⟨inside, _⟩ := Array.getElem?_eq_some_iff.1 place
  rwa [World.minter?, World.addSlot, spawn, Array.getElem?_push_lt inside, ← Array.getElem?_eq_getElem inside]

theorem runShutdown (spares : world.Spares later) (index : Nat) : world.Spares (later.runShutdown index).1 := by
  unfold World.runShutdown
  split
  next => exact spares
  next slot found =>
    let step := slot.holder.shutDown (Stores.send slot.client) later.now later.stores
    have stepped := (spares.absorb slot.client step).setHolder index step.state
    have cancelled := Spares.ite (slot.holder.cancelled = true) stepped (stepped.awakenRenewer index)
    have timed := Spares.ite ((slot.holder.shutdownWake?.isNone && step.state.shutdownWake?.isSome) = true)
      (cancelled.setTimer (.release index)) cancelled
    dsimp only
    split
    · exact timed
    · exact .ite _ timed (timed.awakenStops index)

theorem runRenewer (spares : world.Spares later) (index : Nat) : world.Spares (later.runRenewer index) := by
  unfold World.runRenewer
  split
  next => exact spares
  next slot found =>
    let step := slot.holder.renew (Stores.send slot.client) later.now turnCredit later.stores
    have stepped := (spares.absorb slot.client step).setHolder index step.state.1
    exact .ite _ (stepped.awakenStops index) (.ite _ (stepped.same rfl rfl) (stepped.setTimer (.renewal index)))

theorem runJob (spares : world.Spares later) (index : Nat) : world.Spares (later.runJob index) := by
  unfold World.runJob
  split
  next => exact spares
  next job found => exact (spares.runShutdown job.holder).same rfl rfl

theorem runTask (spares : world.Spares later) (task : Task) : world.Spares (later.runTask task) := by
  cases task with
  | renewer holder => exact spares.runRenewer holder
  | stop job => exact spares.runJob job

theorem ring (spares : world.Spares later) (timer : Timer) : world.Spares (later.ring timer) := by
  cases timer <;> exact spares.same rfl rfl

theorem jump (spares : world.Spares later) (time : Nat) : world.Spares (later.jump time) := by
  unfold World.jump
  generalize later.timers.filter _ = due
  suffices rung : world.Spares (due.foldl World.ring later) from rung.same rfl rfl
  induction due generalizing later with
  | nil => exact spares
  | cons timer due hypothesis => exact hypothesis (spares.ring timer)

theorem runReady (spares : world.Spares later) (count : Nat) : world.Spares (later.runReady count) := by
  induction count generalizing later with
  | zero => exact spares
  | succ count hypothesis =>
      unfold World.runReady
      split
      next => exact spares
      next task rest ready =>
        have taken : world.Spares { later with ready := rest } := spares.same rfl rfl
        exact hypothesis (taken.runTask task)

theorem runBatch (spares : world.Spares later) : world.Spares later.runBatch :=
  (spares.runReady batchLength).same rfl rfl

theorem pause (spares : world.Spares later) : world.Spares later.pause.1 := by
  suffices drained : ∀ count, world.Spares (later.runBatches count) from (drained later.batchBound).same rfl rfl
  intro count
  induction count generalizing later with
  | zero => exact spares
  | succ count hypothesis =>
      unfold runBatches
      exact .ite _ spares (hypothesis spares.runBatch)

theorem poll (spares : world.Spares later) (activity : Activity) : world.Spares (later.poll activity).1 := by
  cases activity with
  | call client call =>
      rw [World.poll]
      split
      · exact spares.same rfl rfl
      · exact spares
  | build client plan build => exact spares.absorb client _
  | lease client terms valid maxMachineId acquisition => exact spares.absorb client _
  | stop holder giveUp? =>
      have shut := spares.runShutdown holder
      rw [World.poll]
      split
      next stopped outcome ends =>
        rw [ends] at shut
        exact shut
      next stopping waits =>
        rw [waits] at shut
        exact shut
  | join job =>
      rw [World.poll]
      split
      · exact spares
      · split <;> exact spares
  | sleep wake =>
      rw [World.poll]
      split <;> exact spares

end Spares

/-! ## The clock -/

theorem awakenRenewer_now (world : World) (index : Nat) : (world.awakenRenewer index).now = world.now := by
  unfold awakenRenewer
  split <;> rfl

theorem runShutdown_now (world : World) (index : Nat) : (world.runShutdown index).1.now = world.now := by
  unfold runShutdown
  split
  next => rfl
  next slot found =>
    let step := slot.holder.shutDown (Stores.send slot.client) world.now world.stores
    let placed := (world.absorb slot.client step).setHolder index step.state
    let called := if slot.holder.cancelled then placed else placed.awakenRenewer index
    have same : called.now = world.now := by
      simp only [called]
      split
      · rfl
      · exact awakenRenewer_now placed index
    have timed : (if slot.holder.shutdownWake?.isNone && step.state.shutdownWake?.isSome then
        called.setTimer (.release index) else called).now = world.now := by
      split <;> exact same
    dsimp only
    split
    · exact timed
    · split <;> exact timed

theorem runTask_now (world : World) (task : Task) : (world.runTask task).now = world.now := by
  cases task with
  | renewer holder =>
      rw [runTask, runRenewer]
      split
      · rfl
      · dsimp only
        split
        · rfl
        · split <;> rfl
  | stop job =>
      rw [runTask, runJob]
      split
      · rfl
      · exact runShutdown_now world _

theorem runReady_now (count : Nat) (world : World) : (world.runReady count).now = world.now := by
  induction count generalizing world with
  | zero => rfl
  | succ count hypothesis =>
      rw [runReady]
      split
      · rfl
      · exact (hypothesis _).trans (runTask_now _ _)

theorem runBatches_now (count : Nat) (world : World) : (world.runBatches count).now = world.now := by
  induction count generalizing world with
  | zero => rfl
  | succ count hypothesis =>
      rw [runBatches]
      split
      · rfl
      · exact (hypothesis _).trans (runReady_now batchLength world)

theorem settle_sleep {world : World} {wake : Nat} (ahead : world.now < wake) (turns : Nat) :
    World.settle turns world (.sleep wake) = (World.runBatches turns world, .inl (.sleep wake)) := by
  induction turns generalizing world with
  | zero => rfl
  | succ turns hypothesis =>
      have waits : world.poll (.sleep wake) = (world, .inl (.sleep wake)) := if_neg (Nat.not_le.2 ahead)
      rw [World.settle, waits, World.runBatches]
      dsimp only
      split
      · rfl
      · exact hypothesis ((runReady_now batchLength world).symm ▸ ahead)

/-! ## Activities -/

/-- What holds of every value holds of a certain one, about which the proof is then not told more. -/
@[elab_as_elim]
theorem forgetting {α : Type} {motive : α → Prop} (all : ∀ value, motive value) (value : α) : motive value := all value

section

variable (goes : World → Activity → Prop) (ends : World → Result → Prop)

def Meets : Polled → Prop
  | (world, .inl activity) => goes world activity
  | (world, .inr result) => ends world result

def Reaches : World × Option Result → Prop
  | (world, some result) => ends world result
  | (world, none) => ∃ activity, goes world activity

structure Keeps : Prop where
  poll : ∀ world activity, goes world activity → Meets goes ends (world.poll activity)
  batch : ∀ world activity, goes world activity → goes world.runBatch activity
  jump : ∀ world activity time, goes world activity → goes (world.jump time) activity

variable {goes : World → Activity → Prop} {ends : World → Result → Prop} {world : World} {activity : Activity}

theorem meets_settle {looks : World → Activity → Prop} {turns : Nat} (polled : Meets looks ends (world.poll activity))
    (goes_on : ∀ later going, looks later going → Meets goes ends
      (if later.ready.isEmpty then (later, .inl going) else settle turns later.runBatch going)) :
    Meets goes ends (settle (turns + 1) world activity) := by
  rw [World.settle]
  split
  next later result ended =>
    rw [ended] at polled
    exact polled
  next later going on =>
    rw [on] at polled
    exact goes_on later going polled

theorem Keeps.settle (keeps : Keeps goes ends) (started : goes world activity) (turns : Nat) :
    Meets goes ends (settle turns world activity) := by
  induction turns generalizing world activity with
  | zero => exact started
  | succ turns hypothesis =>
      refine meets_settle (keeps.poll world activity started) fun later going goes => ?_
      split
      · exact goes
      · exact hypothesis (keeps.batch later going goes)

theorem reaches_run (starts : World → Activity → Prop)
    (settles : ∀ world activity, starts world activity →
      Meets goes ends (World.settle (world.batchBound + 2) world activity))
    (jumps : ∀ world activity time, goes world activity → world.nextWake? activity = some time →
      starts (world.jump time) activity)
    (started : starts world activity) (horizon : Nat) : Reaches goes ends (world.run activity horizon) := by
  fun_induction World.run world activity horizon with
  | case1 world activity settled result ended =>
      have meets := settles world activity started
      rwa [ended] at meets
  | case2 world activity settled going on asleep =>
      have meets := settles world activity started
      rw [on] at meets
      exact ⟨going, meets⟩
  | case3 world activity settled going on time wakes ahead hypothesis =>
      have meets := settles world activity started
      rw [on] at meets
      exact hypothesis (jumps settled going time meets wakes)
  | case4 world activity settled going on time wakes late =>
      have meets := settles world activity started
      rw [on] at meets
      exact ⟨going, meets⟩

theorem ends_run {starts : World → Activity → Prop} {goes : Nat → World → Activity → Prop} {horizon : Nat}
    (settles : ∀ world activity, starts world activity →
      Meets (goes world.now) ends (World.settle (world.batchBound + 2) world activity))
    (jumps : ∀ now world activity, goes now world activity → ∃ wake, world.nextWake? activity = some wake ∧ now < wake ∧
      wake ≤ horizon ∧ starts (world.jump wake) activity)
    (started : starts world activity) :
    ∃ last result, world.run activity horizon = (last, some result) ∧ ends last result := by
  fun_induction World.run world activity horizon with
  | case1 world activity settled result ended =>
      have meets := settles world activity started
      rw [ended] at meets
      exact ⟨settled, result, rfl, meets⟩
  | case2 world activity settled going on asleep =>
      have meets := settles world activity started
      rw [on] at meets
      obtain ⟨wake, wakes, _⟩ := jumps _ _ _ meets
      rw [asleep] at wakes
      contradiction
  | case3 world activity settled going on time wakes ahead hypothesis =>
      have meets := settles world activity started
      rw [on] at meets
      obtain ⟨wake, wakes', _, _, resumed⟩ := jumps _ _ _ meets
      obtain rfl := Option.some.inj (wakes.symm.trans wakes')
      exact hypothesis resumed
  | case4 world activity settled going on time wakes late =>
      -- The next wake is ahead and within the horizon, so the run does not break off here.
      have meets := settles world activity started
      rw [on] at meets
      obtain ⟨wake, wakes', ahead, inTime, _⟩ := jumps _ _ _ meets
      obtain rfl := Option.some.inj (wakes.symm.trans wakes')
      exact absurd ⟨ahead, inTime⟩ late

theorem Keeps.run (keeps : Keeps goes ends) (started : goes world activity) (horizon : Nat) :
    Reaches goes ends (world.run activity horizon) :=
  reaches_run goes (fun world _ started => keeps.settle started (world.batchBound + 2))
    (fun world activity time going _ => keeps.jump world activity time going) started horizon

end

namespace Spares

variable {world later last : World}

theorem run (spares : world.Spares later) (activity : Activity) (horizon : Nat) :
    world.Spares (later.run activity horizon).1 := by
  have keeps : Keeps (fun later _ => world.Spares later) fun later _ => world.Spares later := by
    refine ⟨fun later activity spares => ?_, fun _ _ spares => spares.runBatch, fun _ _ time spares => spares.jump time⟩
    have polled := spares.poll activity
    rcases looked : later.poll activity with ⟨next, going | result⟩ <;> rw [looked] at polled <;> exact polled
  have reached : Reaches _ _ (later.run activity horizon) := keeps.run spares horizon
  rcases ran : later.run activity horizon with ⟨last, result | ended⟩
  · rw [ran] at reached
    obtain ⟨_, kept⟩ := reached
    exact kept
  · rw [ran] at reached
    exact reached

theorem of_run (spares : world.Spares later) {activity : Activity} {horizon : Nat} {result? : Option Result}
    (ran : later.run activity horizon = (last, result?)) : world.Spares last := by
  have kept := spares.run activity horizon
  rwa [ran] at kept

/-! ## Operations -/

-- Each operation is opened in its own place, and its cases are told apart for whatever function runs the world: to compare two
-- forms of what the operation returns, the kernel would start to run it.

theorem request (spares : world.Spares later) (client : Nat) (request : Request) :
    world.Spares (later.request client request).1 := by
  have runs := @of_run world
  revert runs
  conv in World.request => delta World.request
  refine forgetting (fun run runs => ?_) World.run
  dsimp only
  split
  next last reply ran => exact runs (spares.absorb client _) ran
  next last result? _ ran => exact runs (spares.absorb client _) ran

theorem buildPlan (spares : world.Spares later) (client : Nat) (plan : Plan) (readings : Encoder.Readings) :
    world.Spares (later.buildPlan client plan readings).1 := by
  have runs := @of_run world
  revert runs
  conv in World.buildPlan => delta World.buildPlan
  refine forgetting (fun run runs => ?_) World.run
  dsimp only
  split
  next last holder encoder ran => exact (runs (spares.absorb client _) ran).addSlot client holder _
  next last error ran => exact runs (spares.absorb client _) ran
  next last result? _ _ ran => exact runs (spares.absorb client _) ran

theorem build (spares : world.Spares later) (client? : Option Nat) (settings : Settings) (clock : Clock) :
    world.Spares (later.build client? settings clock).1 := by
  have plans := @buildPlan world later spares
  revert plans
  conv in World.build => delta World.build
  refine forgetting (fun buildPlan plans => ?_) World.buildPlan
  dsimp only
  split
  next plan client _ => exact plans client plan _
  next => exact spares
  next => exact spares

theorem lease (spares : world.Spares later) (client : Nat) (terms : Terms) (maxMachineId : Nat) :
    world.Spares (later.lease client terms maxMachineId).1 := by
  have runs := @of_run world
  revert runs
  conv in World.lease => delta World.lease
  refine forgetting (fun run runs => ?_) World.run
  split
  next => exact spares
  next =>
    dsimp only
    split
    next last holder ran => exact (runs (spares.absorb client _) ran).addSlot client holder none
    next last error ran => exact runs (spares.absorb client _) ran
    next last result? _ _ ran => exact runs (spares.absorb client _) ran

theorem stopUntil (spares : world.Spares later) (holder : Nat) (giveUp? : Option Nat) :
    world.Spares (later.stopUntil holder giveUp?).1 := by
  conv in World.stopUntil => delta World.stopUntil
  split <;> exact spares.of_run ‹_›

theorem stopInBackground (spares : world.Spares later) (holder : Nat) : world.Spares (later.stopInBackground holder) :=
  spares.same rfl rfl

theorem join (spares : world.Spares later) (job : Nat) : world.Spares (later.join job).1 := by
  conv in World.join => delta World.join
  split <;> exact spares.of_run ‹_›

theorem sleep (spares : world.Spares later) (span : Nat) : world.Spares (later.sleep span) := by
  conv in World.sleep => delta World.sleep
  exact spares.run _ _

theorem updateStores (spares : world.Spares later) (update : Stores → Stores) :
    world.Spares (later.updateStores update) := spares.same rfl rfl

theorem drop (spares : world.Spares later) {index : Nat} {dropped : World} (drops : later.drop index = some dropped) :
    world.Spares dropped := by
  unfold World.drop at drops
  split at drops
  next => contradiction
  next slot found =>
    have marked := spares.setSlot { slot with dropped := true } found rfl
    dsimp only at drops
    split at drops
    · obtain rfl := Option.some.inj drops
      exact marked
    · split at drops
      next => contradiction
      next =>
        obtain rfl := Option.some.inj drops
        exact marked
      next =>
        obtain rfl := Option.some.inj drops
        have logged := marked.logEvent slot.client (.dropped slot.holder.machineId)
        exact (logged.setHolder index slot.holder.cancel).awakenRenewer index

end Spares
end World
end LeasedIds.Simulation
