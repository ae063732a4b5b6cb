import LeasedIds.Generator.Settings
import LeasedIds.Lease.Acquisition

namespace LeasedIds.Generator

open Lease

inductive Build where
  | leasing (acquisition : Acquisition)
  | abandoning (holder : Holder) (error : Error)
  | built (holder : Holder) (encoder : Encoder)
  | refused (error : Error)
  | crashed
deriving DecidableEq

namespace Build

variable {σ : Type} (send : Transport σ) (plan : Plan) (now : Nat)

def begin (store : σ) : Stepped Build σ :=
  (Acquisition.begin send plan.terms now store).map .leasing

def ofAcquisition : Acquisition → Build
  | .leased holder =>
    match Encoder.create holder.machineId plan.epoch plan.timeUnit plan.layout with
    | .ok encoder => .built holder encoder
    | .error error => .abandoning holder error
  | .refused error => .refused error
  | .crashed => .crashed
  | acquisition => .leasing acquisition

/-- Goes on giving back the lease of a failed build. The holder's renewer ends without a wait, since it has made no call
yet. -/
def abandon (holder : Holder) (error : Error) (store : σ) : Stepped Build σ :=
  let stopping := holder.shutDown send now store
  let renewed := ((stopping.state.renew send now turnCredit stopping.store).map Prod.fst).after stopping.notes
  let stopped := (renewed.state.shutDown send now renewed.store).after renewed.notes
  match stopped.state.stopOutcome? with
  | none => stopped.map (.abandoning · error)
  | some .crashed => stopped.map fun _ => .crashed
  | some (.finished failure) =>
    let events := (failure.map (Event.buildReleaseFailed holder.machineId)).toList
    ⟨.refused error, stopped.store, stopped.notes ++ events.map .event⟩

def advance (build : Build) (store : σ) : Stepped Build σ :=
  match build with
  | .leasing acquisition =>
    let leased := acquisition.advance send plan.terms plan.valid plan.layout.maxMachineId now store
    match ofAcquisition plan leased.state with
    | .abandoning holder error => (abandon send now holder error leased.store).after leased.notes
    | build => leased.map fun _ => build
  | .abandoning holder error => abandon send now holder error store
  | build => ⟨build, store, []⟩

def wake? : Build → Option Nat
  | .leasing acquisition => acquisition.wake?
  | .abandoning holder _ => holder.shutdownWake?
  | .built _ _ | .refused _ | .crashed => none

end Build
end LeasedIds.Generator
