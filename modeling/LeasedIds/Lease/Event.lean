import LeasedIds.Lease.Call

namespace LeasedIds.Lease

inductive Level where
  | trace
  | debug
  | info
  | warn
  | error
deriving DecidableEq, Repr

def Level.text : Level → String
  | trace => "TRACE"
  | debug => "DEBUG"
  | info => "INFO"
  | warn => "WARN"
  | error => "ERROR"

inductive Event where
  | leased (machineId : Nat) (ttl renewalInterval : Nat)
  | tooLarge (machineId max : Nat)
  | handBackFailed (machineId : Nat) (cause : StoreError)
  | renewed (machineId : Nat)
  | recovered (machineId failures : Nat)
  | renewalFailed (machineId failures : Nat) (cause : StoreError)
  | overdue (machineId failures : Nat)
  | renewalStopped (machineId : Nat)
  | renewalCrashed (machineId : Nat)
  | released (machineId : Nat)
  | releaseFailed (machineId : Nat) (cause : StoreError)
  | buildReleaseFailed (machineId : Nat) (error : Error)
  | dropped (machineId : Nat)
deriving DecidableEq, Repr

namespace Event

def level : Event → Level
  | leased .. | recovered .. | released .. => .info
  | tooLarge .. | overdue .. | releaseFailed .. => .error
  | handBackFailed .. | renewalFailed .. | renewalCrashed .. | buildReleaseFailed .. | dropped .. => .warn
  | renewed .. => .trace
  | renewalStopped .. => .debug

def message : Event → String
  | leased .. => "machine ID leased"
  | tooLarge .. => "leased machine ID does not fit, releasing it"
  | handBackFailed _ cause => "failed to release out-of-range machine ID: " ++ cause.message
  | renewed .. => "lease renewed"
  | recovered .. => "lease renewal recovered"
  | renewalFailed _ _ cause => "lease renewal failed: " ++ cause.message
  | overdue .. => "no successful renewal within the lease ttl, the lease has likely expired"
  | renewalStopped .. => "lease renewal stopped"
  | renewalCrashed .. => "renewal task ended abnormally"
  | released .. => "machine ID released"
  | releaseFailed _ cause => "failed to release machine ID: " ++ cause.message
  | buildReleaseFailed _ error => "failed to release machine ID after a failed build: " ++ error.message
  | dropped .. => "lease dropped without stop, it will lapse after its ttl"

def fields : Event → List (String × String)
  | leased machineId ttl renewalInterval =>
    [("machine_id", toString machineId), ("ttl", Time.spanText ttl),
      ("renewal_interval", Time.spanText renewalInterval)]
  | tooLarge machineId max => [("machine_id", toString machineId), ("max_machine_id", toString max)]
  | recovered machineId failures | renewalFailed machineId failures _ | overdue machineId failures =>
    [("machine_id", toString machineId), ("failures", toString failures)]
  | handBackFailed machineId _ | renewed machineId | renewalStopped machineId | renewalCrashed machineId
  | released machineId | releaseFailed machineId _ | buildReleaseFailed machineId _ | dropped machineId =>
    [("machine_id", toString machineId)]

end Event

/-- The stages of a call that its store sees. A call that is cut off is not seen to end. -/
inductive Phase where
  | begun
  | succeeded
  | failed
  | crashed
deriving DecidableEq, Repr

def Phase.text : Phase → String
  | begun => "start"
  | succeeded => "ok"
  | failed => "fail"
  | crashed => "panic"

def Phase.ofReply : Reply → Phase
  | .ok _ => succeeded
  | .failed _ => failed
  | .crashed => crashed

inductive Note where
  | call (request : Request) (phase : Phase)
  | event (event : Event)
deriving DecidableEq, Repr

def Call.endNotes (call : Call) (now : Nat) : List Note :=
  if call.endsAt ≤ now then [.call call.request (.ofReply call.reply)] else []

structure Stepped (α σ : Type) where
  state : α
  store : σ
  notes : List Note := []

namespace Stepped

variable {α β σ : Type}

def map (f : α → β) (stepped : Stepped α σ) : Stepped β σ := { stepped with state := f stepped.state }

def after (notes : List Note) (stepped : Stepped α σ) : Stepped α σ :=
  { stepped with notes := notes ++ stepped.notes }

end Stepped

def Call.beginStep {α σ : Type} (send : Transport σ) (limit now : Nat) (request : Request) (store : σ)
    (next : Call → α) : Stepped α σ :=
  let (call, store) := Call.begin send limit now request store
  ⟨next call, store, [.call request .begun]⟩

end LeasedIds.Lease
