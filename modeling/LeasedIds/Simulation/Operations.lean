import LeasedIds.Simulation.Scheduler

namespace LeasedIds.Simulation

open Lease Generator

inductive Clock where
  | scripted (readings : Encoder.Readings)
  | wall
deriving DecidableEq, Repr

inductive Creation where
  | created (holder : Nat)
  | refused (error : Error)
  | crashed
  | starved

namespace World

variable (world : World)

/-- An instant by which two bounded calls made one after the other are over. -/
def horizon : Nat := world.now + 2 * (Time.longestSleep + Time.millisecond)

def updateStores (update : Stores → Stores) : World := { world with stores := update world.stores }

def request (client : Nat) (request : Request) : World × Reply :=
  let step := Call.beginStep (Stores.send client) 0 world.now request world.stores id
  let horizon := Time.ceilMillis step.state.endsAt
  match (world.absorb client step).run (.call client step.state) horizon with
  | (world, some (.replied reply)) => (world, reply)
  | (world, _) => (world, .crashed)

def buildPlan (client : Nat) (plan : Plan) (readings : Encoder.Readings) : World × Creation :=
  let step := Build.begin (Stores.send client) plan world.now world.stores
  match (world.absorb client step).run (.build client plan step.state) world.horizon with
  | (world, some (.built holder encoder)) =>
    (world.addSlot client holder (some (.ofEncoder encoder readings)), .created world.slots.size)
  | (world, some (.refused error)) => (world, .refused error)
  | (world, _) => (world, .crashed)

def build (client? : Option Nat) (settings : Settings) (clock : Clock) : World × Creation × Nat :=
  let settings := { settings with hasStore := client?.isSome }
  let readings := match clock with
    | .scripted readings => readings
    | .wall => [⟨world.wall, 1⟩]
  let (verdict?, later) := settings.checkOn readings
  let reads := match clock with
    | .scripted _ => readings.size - later.size
    | .wall => 0
  match verdict?, client? with
  | some (.ok plan), some client =>
    let (world, creation) := world.buildPlan client plan later
    (world, creation, reads)
  | some (.error error), _ => (world, .refused error, reads)
  | _, _ => (world, .starved, reads)

def lease (client : Nat) (terms : Terms) (maxMachineId : Nat) : World × Creation :=
  match fault : terms.fault? with
  | some error => (world, .refused error)
  | none =>
    let step := Acquisition.begin (Stores.send client) terms world.now world.stores
    let valid := Terms.fault?_eq_none_iff.1 fault
    let activity := Activity.lease client terms valid maxMachineId step.state
    match (world.absorb client step).run activity world.horizon with
    | (world, some (.leased holder)) => (world.addSlot client holder none, .created world.slots.size)
    | (world, some (.refused error)) => (world, .refused error)
    | (world, _) => (world, .crashed)

/-- Stops a holder; none if the wait is given up. -/
def stopUntil (holder : Nat) (giveUp? : Option Nat) : World × Option StopOutcome :=
  match world.run (.stop holder giveUp?) world.horizon with
  | (world, some (.stopped outcome)) => (world, some outcome)
  | (world, some .abandoned) => (world, none)
  | (world, _) => (world, some .crashed)

def stop (holder : Nat) : World × StopOutcome :=
  let (world, outcome?) := world.stopUntil holder none
  (world, outcome?.getD .crashed)

def stopTogether (holder count : Nat) : World × List StopOutcome :=
  if count = 0 then (world, [])
  else
    let (world, outcome) := world.stop holder
    (world, List.replicate count outcome)

def stopWithin (holder span : Nat) : World × Option StopOutcome :=
  world.stopUntil holder (some (Time.sleepEnd world.now span))

def stopInBackground (holder : Nat) : World :=
  { world with jobs := world.jobs.push { holder } }.spawn (.stop world.jobs.size)

def join (job : Nat) : World × StopOutcome :=
  match world.run (.join job) world.horizon with
  | (world, some (.stopped outcome)) => (world, outcome)
  | (world, _) => (world, .crashed)

def isStopping (holder : Nat) : Bool := world.jobs.any fun job => job.holder = holder && job.outcome?.isNone

/-- Gives a holder up; none if its release has broken down. A stop in the background keeps the holder alive. Otherwise
the renewer is cancelled, and a lease that has not been given back is left to lapse. -/
def drop (index : Nat) : Option World :=
  match world.slots[index]? with
  | none => none
  | some slot =>
    let dropped := { world with slots := world.slots.setIfInBounds index { slot with dropped := true } }
    if world.isStopping index then some dropped
    else match slot.holder.stopOutcome? with
      | some .crashed => none
      | some (.finished _) => some dropped
      | none =>
        let cancelled := (dropped.logEvent slot.client (.dropped slot.holder.machineId)).setHolder index slot.holder.cancel
        some (cancelled.awakenRenewer index)

def withdraw : World := { world with slots := world.slots.pop }

def sleep (span : Nat) : World :=
  let wake := Time.sleepEnd world.now span
  (world.run (.sleep wake) (Time.ceilMillis wake)).1

def encoder? (index : Nat) : Option Encoder := world.slots[index]?.bind fun slot => slot.minter?.map (·.encoder)

def mintOnWall (index count : Nat) : World × Encoder.Row :=
  match world.slots[index]?.bind (·.minter?) with
  | none => (world, ⟨[], none, ⟨0, 0⟩, world.wall⟩)
  | some minter =>
    let row := minter.encoder.mintRow minter.position world.wall count
    ({ world with wall := row.now }.setMinter index { minter with position := row.position }, row)

def pause : World × List Entry :=
  let settled := world.drain
  ({ settled with record := #[] }, settled.record.toList)

end World

def callsSeen (stores : Stores) (entries : List Entry) : List (Nat × Nat × Request × Phase) :=
  let calls := entries.filterMap fun entry =>
    match entry.note with
    | .call request phase => if stores.isScripted entry.client then some (entry.time, entry.client, request, phase) else none
    | .event _ => none
  calls.mergeSort fun left right => left.1 < right.1 || (left.1 = right.1 && left.2.1 ≤ right.2.1)

def eventsLogged (entries : List Entry) : List Event :=
  entries.filterMap fun entry =>
    match entry.note with
    | .event event => some event
    | .call _ _ => none

end LeasedIds.Simulation
