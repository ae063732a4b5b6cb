import LeasedIds.Simulation.World

/-!
# Running a simulated world

One activity at a time is carried out in the foreground; the world stands still until it waits. At each instant the
foreground looks first, then a batch of ready tasks runs in order, then the foreground looks again. When all wait, the
clock jumps to the next wake time.
-/

namespace LeasedIds.Simulation

open Lease Generator

inductive Activity where
  | call (client : Nat) (call : Call)
  | build (client : Nat) (plan : Plan) (build : Build)
  | lease (client : Nat) (terms : Terms) (valid : terms.Valid) (maxMachineId : Nat) (acquisition : Acquisition)
  | stop (holder : Nat) (giveUp? : Option Nat)
  | join (job : Nat)
  | sleep (wake : Nat)

inductive Result where
  | replied (reply : Reply)
  | built (holder : Holder) (encoder : Encoder)
  | leased (holder : Holder)
  | refused (error : Error)
  | stopped (outcome : StopOutcome)
  | abandoned
  | slept
  | crashed

abbrev Polled := World × (Activity ⊕ Result)

namespace World

variable (world : World)

def poll : Activity → Polled
  | .call client call =>
    if call.endsAt ≤ world.now then (world.log client (call.endNotes world.now), .inr (.replied call.reply))
    else (world, .inl (.call client call))
  | .build client plan build =>
    let step := build.advance (Stores.send client) plan world.now world.stores
    (world.absorb client step,
      match step.state with
      | .built holder encoder => .inr (.built holder encoder)
      | .refused error => .inr (.refused error)
      | .crashed => .inr .crashed
      | build => .inl (.build client plan build))
  | .lease client terms valid maxMachineId acquisition =>
    let step := acquisition.advance (Stores.send client) terms valid maxMachineId world.now world.stores
    (world.absorb client step,
      match step.state with
      | .leased holder => .inr (.leased holder)
      | .refused error => .inr (.refused error)
      | .crashed => .inr .crashed
      | acquisition => .inl (.lease client terms valid maxMachineId acquisition))
  | .stop holder giveUp? =>
    match world.runShutdown holder with
    | (world, some outcome) => (world, .inr (.stopped outcome))
    | (world, none) =>
      (world, if giveUp?.any (· ≤ world.now) then .inr .abandoned else .inl (.stop holder giveUp?))
  | .join job =>
    match world.jobs[job]? with
    | none => (world, .inr .crashed)
    | some entry =>
      match entry.outcome? with
      | some outcome => (world, .inr (.stopped outcome))
      | none => (world, .inl (.join job))
  | .sleep wake => if wake ≤ world.now then (world, .inr .slept) else (world, .inl (.sleep wake))

def activityWake? : Activity → Option Nat
  | .call _ call => some (Time.ceilMillis call.endsAt)
  | .build _ _ build => build.wake?
  | .lease _ _ _ _ acquisition => acquisition.wake?
  | .stop holder giveUp? =>
    ([(world.holder? holder).bind (·.shutdownWake?), giveUp?.map Time.ceilMillis].filterMap id).min?
  | .join _ => none
  | .sleep wake => some (Time.ceilMillis wake)

def runReady : Nat → World → World
  | 0, world => world
  | count + 1, world =>
    match world.ready with
    | [] => world
    | task :: rest => runReady count ({ world with ready := rest }.runTask task)

def batchLength : Nat := 61

/-- Runs a batch of ready tasks. Those that yield come after all others. -/
def runBatch : World := (runReady batchLength world).resumeYielded

/-- A bound on the batches at one instant. A renewer yields only after steps that lower its rank; it is awakened at most once
at an instant, and a stop by the end of its holder's renewer and by the end of the release. -/
def batchBound : Nat :=
  world.ready.length + 3 * world.jobs.size +
    (world.slots.toList.map fun slot => slot.holder.renewalRank world.now + 3).sum

/-- Lets the foreground and batches of ready tasks take turns until the foreground is over or all wait. -/
def settle : Nat → World → Activity → Polled
  | 0, world, activity => (world, .inl activity)
  | turns + 1, world, activity =>
    match world.poll activity with
    | (world, .inr result) => (world, .inr result)
    | (world, .inl activity) =>
      if world.ready.isEmpty then (world, .inl activity) else settle turns world.runBatch activity

def runBatches : Nat → World → World
  | 0, world => world
  | count + 1, world => if world.ready.isEmpty then world else runBatches count world.runBatch

def drain : World := runBatches world.batchBound world

def nextWake? (activity : Activity) : Option Nat :=
  ((world.activityWake? activity :: world.timers.map world.wake?).filterMap id).min?

def jump (time : Nat) : World :=
  { (world.timers.filter fun timer => (world.wake? timer).any (· ≤ time)).foldl ring world with now := time }

def run (world : World) (activity : Activity) (horizon : Nat) : World × Option Result :=
  match settle (world.batchBound + 2) world activity with
  | (settled, .inr result) => (settled, some result)
  | (settled, .inl activity) =>
    match settled.nextWake? activity with
    | none => (settled, none)
    | some time =>
      if world.now < time ∧ time ≤ horizon then run (settled.jump time) activity horizon
      else (settled, none)
termination_by horizon - world.now
decreasing_by
  simp only [jump]
  omega

end World
end LeasedIds.Simulation
