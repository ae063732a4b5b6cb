import LeasedIds.Lease.Event
import LeasedIds.Lease.Table

namespace LeasedIds.Simulation

open Lease

inductive Ending where
  | success
  | failure (text : String)
  | crash
deriving DecidableEq, Repr

structure Behaviour where
  delay : Nat := 0
  ending : Ending := .success
deriving DecidableEq, Repr

/-- What successive calls of each kind do. The last behaviour of a list repeats; without any, calls succeed at once. -/
structure Script where
  machineId : Nat
  acquire : List Behaviour := []
  renew : List Behaviour := []
  release : List Behaviour := []
deriving DecidableEq, Repr

def nextBehaviour : List Behaviour → Behaviour × List Behaviour
  | [] => ({}, [])
  | [last] => (last, [last])
  | behaviour :: rest => (behaviour, rest)

namespace Script

/-- The answer to a call; a call that succeeds names the machine ID. A delay is a sleep. -/
def answer (machineId : Nat) (behaviour : Behaviour) : Answer where
  delay := min behaviour.delay Time.longestSleep
  reply := match behaviour.ending with
    | .success => .ok machineId
    | .failure text => .failed (.refused text)
    | .crash => .crashed

def send : Transport Script
  | .acquire _, script =>
    let (behaviour, rest) := nextBehaviour script.acquire
    (answer script.machineId behaviour, { script with acquire := rest })
  | .renew _ _, script =>
    let (behaviour, rest) := nextBehaviour script.renew
    (answer script.machineId behaviour, { script with renew := rest })
  | .release _, script =>
    let (behaviour, rest) := nextBehaviour script.release
    (answer script.machineId behaviour, { script with release := rest })

end Script

inductive Client where
  | scripted (script : Script)
  | memory (store owner : Nat)
deriving DecidableEq, Repr

def Client.isScripted : Client → Bool
  | scripted _ => true
  | memory _ _ => false

structure Stores where
  memory : Array MemoryStore := #[]
  clients : Array Client := #[]
  now : Nat := Time.second

namespace Stores

def send (client : Nat) : Transport Stores := fun request stores =>
  match stores.clients[client]? with
  | some (.scripted script) =>
    let (answer, script) := Script.send request script
    (answer, { stores with clients := stores.clients.setIfInBounds client (.scripted script) })
  | some (.memory index owner) =>
    match stores.memory[index]? with
    | some store =>
      let (answer, store) := store.send owner stores.now request
      (answer, { stores with memory := stores.memory.setIfInBounds index store })
    | none => (⟨0, .crashed⟩, stores)
  | none => (⟨0, .crashed⟩, stores)

def isScripted (stores : Stores) (client : Nat) : Bool := (stores.clients[client]?.map Client.isScripted).getD false

def addScript (stores : Stores) (script : Script) : Stores :=
  { stores with clients := stores.clients.push (.scripted script) }

def addStore (stores : Stores) (maxMachineId : Nat) : Stores :=
  { stores with memory := stores.memory.push (.ofMax maxMachineId) }

def addClient (stores : Stores) (index : Nat) : Stores :=
  match stores.memory[index]? with
  | some store =>
    let (owner, store) := store.newOwner
    { stores with
      memory := stores.memory.setIfInBounds index store
      clients := stores.clients.push (.memory index owner) }
  | none => stores

def leased (stores : Stores) (index : Nat) : List Nat :=
  ((stores.memory[index]?).map fun store => store.table.leased stores.now).getD []

def counts (stores : Stores) (index : Nat) : CallCounts :=
  ((stores.memory[index]?).map (·.counts)).getD {}

def wait (stores : Stores) (span : Nat) : Stores := { stores with now := stores.now + span }

end Stores
end LeasedIds.Simulation
