import LeasedIds.Lease.Holder

namespace LeasedIds.Lease

inductive Acquisition where
  | acquiring (call : Call)
  | handingBack (machineId : Nat) (call : Call)
  | leased (holder : Holder)
  | refused (error : Error)
  | crashed
deriving DecidableEq

namespace Acquisition

variable {σ : Type} (send : Transport σ) (terms : Terms) (valid : terms.Valid) (maxMachineId now : Nat)

def begin (store : σ) : Stepped Acquisition σ :=
  Call.beginStep send terms.storeTimeout now (.acquire terms.ttl) store .acquiring

def acquired (store : σ) : Reply → Stepped Acquisition σ
  | .ok machineId =>
    if machineId ≤ maxMachineId then
      ⟨.leased (.create machineId terms valid now), store,
        [.event (.leased machineId terms.ttl terms.renewalInterval)]⟩
    else
      (Call.beginStep send terms.storeTimeout now (.release machineId) store (.handingBack machineId)).after
        [.event (.tooLarge machineId maxMachineId)]
  | .failed cause => ⟨.refused (.acquireFailed cause), store, []⟩
  | .crashed => ⟨.crashed, store, []⟩

def handedBack (machineId : Nat) : Reply → Acquisition × List Event
  | .ok _ => (.refused (.machineIdTooLarge machineId maxMachineId), [])
  | .failed cause =>
    (.refused (.machineIdTooLarge machineId maxMachineId), [.handBackFailed machineId cause])
  | .crashed => (.crashed, [])

def step? (acquisition : Acquisition) (store : σ) : Option (Stepped Acquisition σ) :=
  match acquisition with
  | .acquiring call =>
    (call.result? now).map fun reply =>
      (acquired send terms valid maxMachineId now store reply).after (call.endNotes now)
  | .handingBack machineId call =>
    (call.result? now).map fun reply =>
      let (ended, events) := handedBack maxMachineId machineId reply
      ⟨ended, store, call.endNotes now ++ events.map .event⟩
  | .leased _ | .refused _ | .crashed => none

def rank : Acquisition → Nat
  | .acquiring _ => 2
  | .handingBack _ _ => 1
  | .leased _ | .refused _ | .crashed => 0

theorem step?_rank {acquisition : Acquisition} {store : σ} {next : Stepped Acquisition σ}
    (step : acquisition.step? send terms valid maxMachineId now store = some next) :
    next.state.rank < acquisition.rank := by
  unfold step? at step
  split at step
  next call =>
    obtain ⟨reply, _, rfl⟩ := Option.map_eq_some_iff.1 step
    cases reply with
    | ok machineId =>
      by_cases fits : machineId ≤ maxMachineId <;>
        simp [acquired, fits, Call.beginStep, Stepped.after, rank]
    | failed cause => simp [acquired, Stepped.after, rank]
    | crashed => simp [acquired, Stepped.after, rank]
  next machineId call =>
    obtain ⟨reply, _, rfl⟩ := Option.map_eq_some_iff.1 step
    cases reply <;> simp [handedBack, rank]
  all_goals simp at step

def advance (acquisition : Acquisition) (store : σ) : Stepped Acquisition σ :=
  match step : acquisition.step? send terms valid maxMachineId now store with
  | none => ⟨acquisition, store, []⟩
  | some next =>
    have := step?_rank send terms valid maxMachineId now step
    (advance next.state next.store).after next.notes
termination_by acquisition.rank

def wake? : Acquisition → Option Nat
  | .acquiring call | .handingBack _ call => some call.wake
  | .leased _ | .refused _ | .crashed => none

end Acquisition
end LeasedIds.Lease
