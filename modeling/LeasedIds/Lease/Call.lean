import LeasedIds.Error

/-!
# Calls to a coordination store

A store is anything that answers requests. It answers when a call begins, and the answer says how long the caller
has to wait for it. A call is bounded by a deadline; an answer that is there when the caller looks wins over a deadline
that has passed.
-/

namespace LeasedIds.Lease

inductive Request where
  | acquire (ttl : Nat)
  | renew (machineId : Nat) (ttl : Nat)
  | release (machineId : Nat)
deriving DecidableEq, Repr

def Request.text : Request → String
  | acquire ttl => s!"acquire ttl={ttl}"
  | renew machineId ttl => s!"renew id={machineId} ttl={ttl}"
  | release machineId => s!"release id={machineId}"

inductive Reply where
  | ok (machineId : Nat)
  | failed (error : StoreError)
  | crashed
deriving DecidableEq, Repr

structure Answer where
  delay : Nat
  reply : Reply
deriving DecidableEq, Repr

/-- How a store of type `σ` answers. -/
abbrev Transport (σ : Type) := Request → σ → Answer × σ

structure Call where
  request : Request
  begunAt : Nat
  endsAt : Nat
  reply : Reply
  deadline : Nat
  limit : Nat
deriving DecidableEq, Repr

namespace Call

def begin {σ : Type} (send : Transport σ) (limit now : Nat) (request : Request) (store : σ) : Call × σ :=
  let (answer, store) := send request store
  ({ request, begunAt := now, endsAt := now + answer.delay, reply := answer.reply, deadline := Time.sleepEnd now limit, limit },
    store)

def result? (call : Call) (now : Nat) : Option Reply :=
  if call.endsAt ≤ now then some call.reply
  else if call.deadline ≤ now then some (.failed (.timedOut call.limit))
  else none

/-- Whether the store has answered without a delay. -/
def isImmediate (call : Call) : Bool := call.endsAt ≤ call.begunAt

def wake (call : Call) : Nat := min (Time.ceilMillis call.endsAt) (Time.ceilMillis call.deadline)

end Call
end LeasedIds.Lease
