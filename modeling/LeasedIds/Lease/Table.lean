import LeasedIds.Lease.Call
import Std.Data.TreeMap

/-!
# An in-process lease table

The table maps machine IDs to tenures. A tenure counts until it expires; an expired one stays in the table until
its ID is taken over or its owner releases it. Each operation takes the time its caller has read.
-/

namespace LeasedIds.Lease

structure Tenure where
  owner : Nat
  expiresAt : Nat
deriving DecidableEq, Repr

structure Table where
  maxMachineId : Nat
  tenures : Std.TreeMap Nat Tenure := ∅
  poisoned : Bool := false

namespace Table

variable (table : Table)

def live? (machineId : Nat) (now : Nat) : Option Tenure :=
  table.tenures[machineId]?.filter fun tenure => now < tenure.expiresAt

def leased (now : Nat) : List Nat :=
  (table.tenures.toList.filter fun entry => now < entry.2.expiresAt).map (·.1)

/-- The lowest ID that is free at `now`. Of the IDs from 0 to the number of tenures one has no tenure, so the search
ends there. -/
def lowestFree? (now : Nat) : Option Nat :=
  (List.range (min table.maxMachineId table.tenures.size + 1)).find? fun machineId =>
    (table.live? machineId now).isNone

/-- Writes a tenure that ends `ttl` after `now`. An end that cannot be represented breaks the table. -/
def grant (owner machineId : Nat) (now ttl : Nat) : Reply × Table :=
  match Time.later? now ttl with
  | some expiresAt => (.ok machineId, { table with tenures := table.tenures.insert machineId ⟨owner, expiresAt⟩ })
  | none => (.crashed, { table with poisoned := true })

def acquire (owner : Nat) (now ttl : Nat) : Reply × Table :=
  if table.poisoned then (.failed .poisoned, table)
  else match table.lowestFree? now with
    | some machineId => table.grant owner machineId now ttl
    | none => (.failed (.exhausted table.maxMachineId), table)

def renew (owner machineId : Nat) (now ttl : Nat) : Reply × Table :=
  if table.poisoned then (.failed .poisoned, table)
  else match table.live? machineId now with
    | some tenure =>
      if tenure.owner = owner then table.grant owner machineId now ttl
      else (.failed (.notLeased machineId), table)
    | none => (.failed (.notLeased machineId), table)

def release (owner machineId : Nat) : Reply × Table :=
  if table.poisoned then (.failed .poisoned, table)
  else match table.tenures[machineId]? with
    | some tenure =>
      if tenure.owner = owner then (.ok machineId, { table with tenures := table.tenures.erase machineId })
      else (.ok machineId, table)
    | none => (.ok machineId, table)

def handle (owner : Nat) (now : Nat) : Request → Reply × Table
  | .acquire ttl => table.acquire owner now ttl
  | .renew machineId ttl => table.renew owner machineId now ttl
  | .release machineId => table.release owner machineId

end Table

structure CallCounts where
  acquire : Nat := 0
  renew : Nat := 0
  release : Nat := 0
deriving DecidableEq, Repr

def CallCounts.add (counts : CallCounts) : Request → CallCounts
  | .acquire _ => { counts with acquire := counts.acquire + 1 }
  | .renew _ _ => { counts with renew := counts.renew + 1 }
  | .release _ => { counts with release := counts.release + 1 }

structure MemoryStore where
  table : Table
  counts : CallCounts := {}
  nextOwner : Nat := 0

namespace MemoryStore

def defaultMax : Nat := 65535

def ofMax (maxMachineId : Nat) : MemoryStore := { table := { maxMachineId } }

def newOwner (store : MemoryStore) : Nat × MemoryStore :=
  (store.nextOwner, { store with nextOwner := store.nextOwner + 1 })

def handle (store : MemoryStore) (owner : Nat) (now : Nat) (request : Request) : Reply × MemoryStore :=
  let (reply, table) := store.table.handle owner now request
  (reply, { store with table, counts := store.counts.add request })

def send (owner now : Nat) : Transport MemoryStore := fun request store =>
  let (reply, store) := store.handle owner now request
  (⟨0, reply⟩, store)

end MemoryStore
end LeasedIds.Lease
