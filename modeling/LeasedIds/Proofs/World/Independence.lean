import LeasedIds.Proofs.Minting.Threads
import LeasedIds.Proofs.World.Creation

namespace LeasedIds

namespace Encoder.Readings

def ofList (times : List Nat) : Readings := times.map (⟨·, 1⟩)

theorem toList_ofList (times : List Nat) : (ofList times).toList = times := by
  induction times with
  | nil => rfl
  | cons time times hypothesis => exact congrArg (time :: ·) hypothesis

end Encoder.Readings

namespace Minter

def crew (minter : Minter) (holder? : Option Nat) (threads : List Thread) : Crew where
  encoder := minter.encoder
  position := minter.position
  poisoned := minter.poisoned
  readings := minter.readings.toList
  reads := minter.reads
  holder?
  threads

def ofCrew (crew : Crew) : Minter := ⟨crew.encoder, crew.position, crew.poisoned, .ofList crew.readings, crew.reads⟩

theorem crew_ofCrew (crew : Crew) : (ofCrew crew).crew crew.holder? crew.threads = crew := by
  simp [Minter.crew, ofCrew, Encoder.Readings.toList_ofList]

end Minter

namespace Simulation
open Lease Generator

/-- What can happen besides calls for identifiers: single steps of a lease, turns of the scheduler and whole operations. The
stores may be replaced at any time, so that they answer as they like. -/
inductive Happening where
  | renew (holder : Nat)
  | shutDown (holder : Nat)
  | turn (task : Task)
  | batch
  | poll (activity : Activity)
  | jump (time : Nat)
  | run (activity : Activity) (horizon : Nat)
  | updateStores (update : Stores → Stores)
  | request (client : Nat) (request : Request)
  | build (client? : Option Nat) (settings : Settings) (clock : Clock)
  | lease (client : Nat) (terms : Terms) (maxMachineId : Nat)
  | stop (holder : Nat) (giveUp? : Option Nat)
  | stopInBackground (holder : Nat)
  | join (job : Nat)
  | drop (holder : Nat)
  | sleep (span : Nat)
  | pause

namespace World

variable (world : World)

def left {α : Type} (result : World × α) : World := result.1

theorem spares_left {α : Type} {world : World} {result : World × α} (spares : world.Spares result.1) :
    world.Spares (left result) := spares

def stepHolder (index : Nat) (next? : Slot → Option (Stepped Holder Stores)) : World :=
  (world.slots[index]?.bind fun slot =>
    (next? slot).map fun next => (world.absorb slot.client next).setHolder index next.state).getD world

theorem spares_stepHolder (index : Nat) (next? : Slot → Option (Stepped Holder Stores)) :
    world.Spares (world.stepHolder index next?) := by
  unfold stepHolder
  cases world.slots[index]? with
  | none => exact .refl world
  | some slot =>
      cases found : next? slot with
      | none => simpa [found] using Spares.refl world
      | some next => simpa [found] using ((Spares.refl world).absorb slot.client next).setHolder index next.state

theorem minter?_setMinter {world : World} {index : Nat} {slot : Slot} (place : world.slots[index]? = some slot)
    (minter : Minter) : (world.setMinter index minter).minter? index = some minter := by
  simp [minter?, setMinter, Array.getElem?_modify, place]

end World

-- With a projection in place of `left`, the kernel would start to run the world to compare it with another.
def Happening.apply (world : World) : Happening → World
  | .renew index => world.stepHolder index fun slot =>
    slot.holder.renewalStep? (Stores.send slot.client) world.now world.stores
  | .shutDown index => world.stepHolder index fun slot =>
    slot.holder.shutdownStep? (Stores.send slot.client) world.now world.stores
  | .turn task => world.runTask task
  | .batch => world.runBatch
  | .poll activity => .left (world.poll activity)
  | .jump time => world.jump time
  | .run activity horizon => .left (world.run activity horizon)
  | .updateStores update => world.updateStores update
  | .request client asked => .left (world.request client asked)
  | .build client? settings clock => .left (world.build client? settings clock)
  | .lease client terms maxMachineId => .left (world.lease client terms maxMachineId)
  | .stop holder giveUp? => .left (world.stopUntil holder giveUp?)
  | .stopInBackground holder => world.stopInBackground holder
  | .join job => .left (world.join job)
  | .drop holder => (world.drop holder).getD world
  | .sleep span => world.sleep span
  | .pause => .left world.pause

theorem Happening.spares (world : World) (happening : Happening) : world.Spares (happening.apply world) := by
  have same := World.Spares.refl world
  cases happening with
  | renew index | shutDown index => exact world.spares_stepHolder index _
  | turn task => exact same.runTask task
  | batch => exact same.runBatch
  | poll activity => exact World.spares_left (same.poll activity)
  | jump time => exact same.jump time
  | run activity horizon => exact World.spares_left (same.run activity horizon)
  | updateStores update => exact same.updateStores update
  | request client asked => exact World.spares_left (same.request client asked)
  | build client? settings clock => exact World.spares_left (same.build client? settings clock)
  | lease client terms maxMachineId => exact World.spares_left (same.lease client terms maxMachineId)
  | stop holder giveUp? => exact World.spares_left (same.stopUntil holder giveUp?)
  | stopInBackground holder => exact same.stopInBackground holder
  | join job => exact World.spares_left (same.join job)
  | drop holder =>
      rw [apply]
      cases drops : world.drop holder with
      | none => exact same
      | some dropped => exact same.drop drops
  | sleep span => exact same.sleep span
  | pause => exact World.spares_left (same.pause)

/-- A world with threads that call one of its generators. -/
structure Scene where
  world : World
  lock? : Option Nat := none
  threads : List Thread
  results : List Encoder.Outcome := []

inductive SceneAction where
  | call (thread : Nat)
  | happen (happening : Happening)

namespace SceneAction

def thread? : SceneAction → Option Nat
  | call thread => some thread
  | happen _ => none

end SceneAction

def calls (actions : List SceneAction) : List Nat := actions.filterMap SceneAction.thread?

namespace Scene
open Encoder

def ofWorld (world : World) (count : Nat) : Scene := { world, threads := List.replicate count {} }

def crew? (scene : Scene) (index : Nat) : Option Crew := (scene.world.minter? index).map (·.crew scene.lock? scene.threads)

def call (scene : Scene) (index : Nat) (thread : Nat) : Scene :=
  match scene.crew? index with
  | none => scene
  | some crew =>
    let later := crew.step thread
    { world := scene.world.setMinter index (.ofCrew later)
      lock? := later.holder?
      threads := later.threads
      results := scene.results ++ (crew.returned? thread).toList }

def step (index : Nat) (scene : Scene) : SceneAction → Scene
  | .call thread => scene.call index thread
  | .happen happening => { scene with world := happening.apply scene.world }

def run (scene : Scene) (index : Nat) (actions : List SceneAction) : Scene := actions.foldl (step index) scene

variable {scene : Scene} {index : Nat} {crew : Crew}

theorem crew?_happen (shown : scene.crew? index = some crew) (happening : Happening) :
    (scene.step index (.happen happening)).crew? index = some crew := by
  obtain ⟨minter, found, same⟩ := Option.map_eq_some_iff.1 shown
  have kept := (happening.spares scene.world).minter?_eq index minter found
  rw [step, crew?, kept]
  exact congrArg some same

theorem call_eq (shown : scene.crew? index = some crew) (thread : Nat) :
    scene.call index thread =
      { world := scene.world.setMinter index (.ofCrew (crew.step thread))
        lock? := (crew.step thread).holder?
        threads := (crew.step thread).threads
        results := scene.results ++ (crew.returned? thread).toList } := by
  rw [call, shown]

theorem crew?_call (shown : scene.crew? index = some crew) (thread : Nat) :
    (scene.call index thread).crew? index = some (crew.step thread) := by
  obtain ⟨minter, found, _⟩ := Option.map_eq_some_iff.1 shown
  obtain ⟨slot, place, _⟩ := Option.bind_eq_some_iff.1 found
  rw [call_eq shown, crew?, World.minter?_setMinter place]
  exact congrArg some (Minter.crew_ofCrew (crew.step thread))

theorem run_eq (shown : scene.crew? index = some crew) (actions : List SceneAction) :
    (scene.run index actions).crew? index = some (crew.run (calls actions)) ∧
      (scene.run index actions).results = scene.results ++ crew.returns (calls actions) := by
  induction actions generalizing scene crew with
  | nil => exact ⟨shown, (List.append_nil _).symm⟩
  | cons action actions hypothesis =>
      cases action with
      | happen happening => exact hypothesis (crew?_happen shown happening)
      | call thread =>
          obtain ⟨crews, results⟩ := hypothesis (crew?_call shown thread)
          refine ⟨crews, results.trans ?_⟩
          rw [call_eq shown]
          exact List.append_assoc ..

theorem threads_eq (shown : scene.crew? index = some crew) : scene.threads = crew.threads := by
  obtain ⟨minter, _, rfl⟩ := Option.map_eq_some_iff.1 shown
  rfl

theorem run_ofWorld {world : World} {encoder : Encoder} {readings : Readings} {times : List Nat}
    (new : world.minter? index = some (.ofEncoder encoder readings)) (same : readings.toList = times) (count : Nat)
    (actions : List SceneAction) :
    ((ofWorld world count).run index actions).crew? index =
        some ((Crew.start encoder times count).run (calls actions)) ∧
      ((ofWorld world count).run index actions).results =
        (Crew.start encoder times count).returns (calls actions) := by
  subst same
  have shown : (ofWorld world count).crew? index = some (.start encoder readings.toList count) := by
    rw [crew?, ofWorld, new]
    rfl
  exact run_eq shown actions

/-- The calls of a generator return what calls of an encoder by itself return, with the epoch, the time unit and the layout of
the settings, the leased machine ID, and the clock readings but for the one that the build has taken; so they return the
same wherever the same machine ID has been leased, whatever the store does after that. -/
theorem generation_independent {world start : World} {client index reads : Nat} {settings : Settings}
    {readings : Readings}
    (built : world.build (some client) settings (.scripted readings) = (start, .created index, reads)) :
    reads = 1 ∧ ∃ encoder rest, start.Installed index settings readings encoder rest ∧
      (∀ count actions,
        let scene := (ofWorld start count).run index actions
        scene.crew? index = some ((Crew.start encoder rest.toList count).run (calls actions)) ∧
          scene.results = ((Minter.ofEncoder encoder rest).take scene.results.length).1) ∧
      ∀ {world' start' : World} {client' index' reads' : Nat},
        world'.build (some client') settings (.scripted readings) = (start', .created index', reads') →
        (start'.holder? index').map Holder.machineId = (start.holder? index).map Holder.machineId →
        ∀ count count' actions actions',
          let scene := (ofWorld start count).run index actions
          let scene' := (ofWorld start' count').run index' actions'
          (scene'.results.length = scene.results.length → scene'.results = scene.results) ∧
            (count' = count → calls actions' = calls actions →
              scene'.results = scene.results ∧ scene'.threads = scene.threads) := by
  obtain ⟨once, encoder, rest, installed⟩ := World.installed_of_build built
  have row (count : Nat) (schedule : List Nat) := (Crew.Follows.start encoder rest count).returns_eq schedule
  refine ⟨once, encoder, rest, installed, ?_, ?_⟩
  · intro count actions scene
    obtain ⟨crews, results⟩ := run_ofWorld installed.minter?_eq rfl count actions
    refine ⟨crews, ?_⟩
    rw [results]
    exact row count (calls actions)
  · intro world' start' client' index' reads' built' shared count count' actions actions' scene scene'
    obtain ⟨_, encoder', rest', installed'⟩ := World.installed_of_build built'
    -- The settings and the machine ID make one encoder, and both clocks have lost one reading.
    obtain rfl : encoder' = encoder := installed'.encoder_eq installed shared
    obtain ⟨crews, results⟩ := run_ofWorld installed.minter?_eq rfl count actions
    obtain ⟨crews', results'⟩ := run_ofWorld installed'.minter?_eq (installed'.rest_eq installed) count' actions'
    constructor
    · intro length
      rw [results, results'] at length
      rw [results, results', row count, row count', length]
    · rintro rfl schedule
      rw [schedule] at crews' results'
      exact ⟨results'.trans results.symm, (threads_eq crews').trans (threads_eq crews).symm⟩

def troubled : Script where
  machineId := 3
  renew := [{}, ⟨0, .failure "busy"⟩, ⟨Time.ofMillis 60000, .success⟩, ⟨0, .crash⟩]
  release := [⟨2 * Time.second, .failure "gone"⟩]

def turmoil : List SceneAction :=
  [.call 0, .call 1, .call 0, .happen (.sleep (15 * Time.second)), .call 1, .call 0, .call 0, .call 0,
    .happen (.sleep (17 * Time.second)), .call 1, .call 1, .happen (.sleep (6 * Time.second)), .call 1, .call 1,
    .call 0, .call 0, .call 0, .happen (.sleep (5 * Time.second)), .happen (.stop 0 (some 0)), .call 0,
    .happen (.stopInBackground 0), .call 0, .happen (.sleep Time.second), .call 0, .happen (.join 0),
    .call 1, .call 1, .call 1, .call 1]

theorem troubled_generation_independent :
    let readings : Readings := [⟨Time.startOf2025 + Time.second, 4⟩, ⟨Time.startOf2025 + 1010 * Time.millisecond, 1⟩]
    let built (script : Script) :=
      World.build { wall := 0, stores := Stores.addScript {} script } (some 0) { sequenceBits := 1 } (.scripted readings)
    let scene := (ofWorld (built troubled).1 2).run 0 turmoil
    let scene' := (ofWorld (built { machineId := 3 }).1 2).run 0 ((calls turmoil).map .call)
    built troubled = ((built troubled).1, .created 0, 1) ∧
      built { machineId := 3 } = ((built { machineId := 3 }).1, .created 0, 1) ∧
      (scene.world.holder? 0).map Holder.renewer = some .crashed ∧
      (scene.world.holder? 0).bind Holder.stopOutcome? = some (.finished (some (.releaseFailed 3 (.refused "gone")))) ∧
      scene.results = [.minted ⟨13107206⟩, .minted ⟨13107207⟩, .minted ⟨13238278⟩, .starved] ∧
      scene'.results = scene.results ∧ scene'.threads = scene.threads := by
  intro readings built scene scene'
  have built_eq : built troubled = ((built troubled).1, .created 0, 1) := Prod.ext rfl (by decide +kernel)
  have built_eq' : built { machineId := 3 } = ((built { machineId := 3 }).1, .created 0, 1) :=
    Prod.ext rfl (by decide +kernel)
  have schedule : calls ((calls turmoil).map .call) = calls turmoil := rfl
  have shared : ((built { machineId := 3 }).1.holder? 0).map Holder.machineId =
      ((built troubled).1.holder? 0).map Holder.machineId := by decide +kernel
  obtain ⟨_, _, _, _, _, runs⟩ := generation_independent built_eq
  obtain ⟨results, threads⟩ := (runs built_eq' shared 2 2 turmoil ((calls turmoil).map .call)).2 rfl schedule
  exact ⟨built_eq, built_eq', by decide +kernel, by decide +kernel, by decide +kernel, results, threads⟩

end Scene
end Simulation
end LeasedIds
