import LeasedIds.Encoder.Minter
import LeasedIds.Generator.Build
import LeasedIds.Simulation.Stores

/-!
# A simulated world of lease holders

Holders live on a virtual clock that only moves between whole milliseconds. Their renewers, and stops that run in the
background, are tasks. Ready tasks run first in, first out; the others wait for a timer or for another task. Timers that
are due at one instant ring in the order in which they were set. A renewer that has used up its credit yields: it is
made ready again after the tasks that are ready now, the last one to yield first.
-/

namespace LeasedIds.Simulation

open Lease Generator

inductive Task where
  | renewer (holder : Nat)
  | stop (job : Nat)
deriving DecidableEq, Repr

/-- A renewer sets a timer when it waits. A shutdown sets one when its release begins, whoever asked for it. -/
inductive Timer where
  | renewal (holder : Nat)
  | release (holder : Nat)
deriving DecidableEq, Repr

structure Slot where
  client : Nat
  holder : Holder
  minter? : Option Minter
  dropped : Bool := false

structure Job where
  holder : Nat
  outcome? : Option StopOutcome := none
deriving DecidableEq, Repr

structure Entry where
  time : Nat
  client : Nat
  note : Note
deriving DecidableEq, Repr

def origin : Nat := Time.second

structure World where
  wall : Nat
  now : Nat := origin
  stores : Stores := {}
  slots : Array Slot := #[]
  jobs : Array Job := #[]
  timers : List Timer := []
  ready : List Task := []
  yielded : List Task := []
  record : Array Entry := #[]

namespace World

variable (world : World)

def holder? (holder : Nat) : Option Holder := world.slots[holder]?.map (·.holder)

def setHolder (index : Nat) (holder : Holder) : World :=
  { world with slots := world.slots.modify index fun slot => { slot with holder } }

def setMinter (index : Nat) (minter : Minter) : World :=
  { world with slots := world.slots.modify index fun slot => { slot with minter? := some minter } }

def log (client : Nat) (notes : List Note) : World :=
  { world with record := world.record ++ (notes.map (Entry.mk world.now client)).toArray }

def logEvent (client : Nat) (event : Event) : World := world.log client [.event event]

def absorb {α : Type} (client : Nat) (step : Stepped α Stores) : World :=
  { world with stores := step.store }.log client step.notes

def spawn (task : Task) : World := { world with ready := world.ready ++ [task] }

def resumeYielded : World := { world with ready := world.ready ++ world.yielded, yielded := [] }

def setTimer (timer : Timer) : World := { world with timers := world.timers ++ [timer] }

/-- Makes a renewer ready that waits for its next renewal. One that is in the middle of a renewal goes on. -/
def awakenRenewer (holder : Nat) : World :=
  if .renewal holder ∈ world.timers ∧ (world.holder? holder).any (·.awaitsRenewal) then
    { world with timers := world.timers.erase (.renewal holder) }.spawn (.renewer holder)
  else world

def waitingStops (holder : Nat) : List Task :=
  ((List.range world.jobs.size).filter fun job =>
    (world.jobs[job]?.any fun entry => entry.holder = holder && entry.outcome?.isNone) && .stop job ∉ world.ready).map .stop

def awakenStops (holder : Nat) : World := { world with ready := world.ready ++ world.waitingStops holder }

def wake? : Timer → Option Nat
  | .renewal holder => (world.holder? holder).bind (·.renewalWake?)
  | .release holder => (world.holder? holder).bind (·.shutdownWake?)

def ring (timer : Timer) : World :=
  let world := { world with timers := world.timers.erase timer }
  match timer with
  | .renewal holder => world.spawn (.renewer holder)
  | .release holder => world.awakenStops holder

def runShutdown (index : Nat) : World × Option StopOutcome :=
  match world.slots[index]? with
  | none => (world, some .crashed)
  | some slot =>
    let step := slot.holder.shutDown (Stores.send slot.client) world.now world.stores
    let world := (world.absorb slot.client step).setHolder index step.state
    let world := if slot.holder.cancelled then world else world.awakenRenewer index
    let world := if slot.holder.shutdownWake?.isNone && step.state.shutdownWake?.isSome then world.setTimer (.release index)
      else world
    match step.state.stopOutcome? with
    | none => (world, none)
    | some outcome => (if slot.holder.stopOutcome?.isSome then world else world.awakenStops index, some outcome)

def runRenewer (index : Nat) : World :=
  match world.slots[index]? with
  | none => world
  | some slot =>
    let step := slot.holder.renew (Stores.send slot.client) world.now turnCredit world.stores
    let (holder, credit) := step.state
    let world := (world.absorb slot.client step).setHolder index holder
    if holder.renewalWake?.isNone then world.awakenStops index
    else if credit = 0 then { world with yielded := .renewer index :: world.yielded }
    else world.setTimer (.renewal index)

def runJob (index : Nat) : World :=
  match world.jobs[index]? with
  | none => world
  | some job =>
    let (world, outcome?) := world.runShutdown job.holder
    { world with jobs := world.jobs.setIfInBounds index { job with outcome? := job.outcome? <|> outcome? } }

def runTask : Task → World
  | .renewer holder => world.runRenewer holder
  | .stop job => world.runJob job

def addSlot (client : Nat) (holder : Holder) (minter? : Option Minter) : World :=
  { world with slots := world.slots.push { client, holder, minter? } }.spawn (.renewer world.slots.size)

end World
end LeasedIds.Simulation
