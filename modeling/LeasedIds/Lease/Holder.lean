import LeasedIds.Lease.Event
import LeasedIds.Lease.Terms

/-!
# Lease holders

A holder renews its lease at a fixed cadence and gives it back once. Renewing and shutting down are two
activities on one state: each has a function for its next step at an instant, and a function that takes steps until
the activity has to wait. The shutdown cancels the renewer and waits until it has ended before it releases, so that no
renewal follows the release.
-/

namespace LeasedIds.Lease

/-- How many steps a renewer takes before others have their turn. -/
def turnCredit : Nat := 128

/-- A renewal that starts later than this after it was due moves the cadence. -/
def cadenceSlack : Nat := 5 * Time.millisecond

/-- When the renewal after one that is due at `due` and starts at `now` is due, on a clock without end. A late start moves
the cadence to `now`. After a start in time the wait is cut. -/
def followUp (interval due now : Nat) : Nat :=
  if due + cadenceSlack < now then now + interval else min (due + interval) (now + Time.longestSleep)

def nextDue (interval due now : Nat) : Option Nat := Time.instant? (followUp interval due now)

inductive Renewer where
  | waiting (due : Nat)
  | calling (call : Call) (due : Nat)
  | ended
  | crashed
deriving DecidableEq, Repr

inductive Shutdown where
  | idle
  | joining
  | releasing (call : Call)
  | done (failure : Option Error)
  | crashed
deriving DecidableEq, Repr

structure Holder where
  machineId : Nat
  terms : Terms
  valid : terms.Valid
  cancelled : Bool
  renewer : Renewer
  failures : Nat
  lastRenewed : Nat
  shutdown : Shutdown
deriving DecidableEq

inductive State where
  | renewing
  | stopping
  | released
deriving DecidableEq, Repr

def State.text : State → String
  | renewing => "Renewing"
  | stopping => "Stopping"
  | released => "Released"

inductive StopOutcome where
  | finished (failure : Option Error)
  | crashed
deriving DecidableEq, Repr

namespace Holder

def create (machineId : Nat) (terms : Terms) (valid : terms.Valid) (now : Nat) : Holder where
  machineId
  terms
  valid
  cancelled := false
  renewer := ((Time.later? now terms.renewalInterval).map .waiting).getD .crashed
  failures := 0
  lastRenewed := now
  shutdown := .idle

def state? (holder : Holder) : Option State :=
  match holder.shutdown with
  | .done _ => some .released
  | .crashed => none
  | _ => some (if holder.cancelled then .stopping else .renewing)

def debugText (holder : Holder) (state : State) : String :=
  "LeaseManager \x7b machine_id: " ++ toString holder.machineId ++ ", terms: " ++ holder.terms.debugText ++
    ", state: " ++ state.text ++ ", renewal_failures: " ++ toString holder.failures ++ ", .. \x7d"

def cancel (holder : Holder) : Holder := { holder with cancelled := true }

variable {σ : Type} (send : Transport σ) (now : Nat)

def renewalEnded (holder : Holder) (due : Nat) : Reply → Holder × List Event
  | .ok _ =>
    ({ holder with renewer := .waiting due, failures := 0, lastRenewed := now },
      [if 0 < holder.failures then .recovered holder.machineId holder.failures else .renewed holder.machineId])
  | .failed cause =>
    let failures := holder.failures + 1
    ({ holder with renewer := .waiting due, failures },
      .renewalFailed holder.machineId failures cause ::
        if holder.lastRenewed + holder.terms.ttl ≤ now then [.overdue holder.machineId failures] else [])
  | .crashed => ({ holder with renewer := .crashed }, [])

/-- The next step of the renewer, unless it waits. A cancellation is seen before a renewal that is due, and a
renewal in flight is seen to its end. -/
def renewalStep? (holder : Holder) (store : σ) : Option (Stepped Holder σ) :=
  match holder.renewer with
  | .waiting due =>
    if holder.cancelled then
      some ⟨{ holder with renewer := .ended }, store, [.event (.renewalStopped holder.machineId)]⟩
    else if due ≤ now then
      match nextDue holder.terms.renewalInterval due now with
      | some next => some (Call.beginStep send holder.terms.storeTimeout now
          (.renew holder.machineId holder.terms.ttl) store fun call => { holder with renewer := .calling call next })
      | none => some ⟨{ holder with renewer := .crashed }, store, []⟩
    else none
  | .calling call due =>
    (call.result? now).map fun reply =>
      let (ended, events) := holder.renewalEnded now due reply
      ⟨ended, store, call.endNotes now ++ events.map .event⟩
  | .ended | .crashed => none

def renewalRank (holder : Holder) : Nat :=
  match holder.renewer with
  | .waiting due => 2 * (now + 1 - due) + 1
  | .calling _ due => 2 * (now + 1 - due) + 2
  | .ended | .crashed => 0

theorem lt_followUp {interval due now : Nat} (positive : 0 < interval) (reached : due ≤ now) :
    due < followUp interval due now := by
  have : 0 < Time.longestSleep := by decide
  unfold followUp
  split <;> omega

theorem lt_nextDue {interval due now next : Nat} (positive : 0 < interval) (reached : due ≤ now)
    (found : nextDue interval due now = some next) : due < next := by
  obtain ⟨_, rfl⟩ := Time.instant?_eq_some_iff.1 found
  exact lt_followUp positive reached

theorem renewalStep?_rank {holder : Holder} {store : σ} {next : Stepped Holder σ}
    (step : holder.renewalStep? send now store = some next) :
    next.state.renewalRank now < holder.renewalRank now := by
  unfold renewalStep? at step
  split at step
  next due waiting =>
    split at step
    · obtain rfl := Option.some.inj step
      simp [renewalRank, waiting]
    split at step
    next reached =>
      split at step
      next later found =>
        obtain rfl := Option.some.inj step
        have := lt_nextDue holder.valid.renewalInterval_pos reached found
        simp only [renewalRank, waiting, Call.beginStep]
        omega
      next =>
        obtain rfl := Option.some.inj step
        simp [renewalRank, waiting]
    next => simp at step
  next call due calling =>
    obtain ⟨reply, _, rfl⟩ := Option.map_eq_some_iff.1 step
    cases reply <;> simp [renewalEnded, renewalRank, calling]
  all_goals simp at step

def isAnswered (holder : Holder) : Bool :=
  match holder.renewer with
  | .calling call _ => call.isImmediate
  | _ => false

/-- Takes the renewer's steps at `now` until it waits or has ended, and hands back what is left of `credit`. Every step
costs one, except that an immediate answer is free. A renewer without credit stops where it is. -/
def renew (credit : Nat) (holder : Holder) (store : σ) : Stepped (Holder × Nat) σ :=
  if credit = 0 ∧ !holder.isAnswered then ⟨(holder, 0), store, []⟩
  else match step : holder.renewalStep? send now store with
    | none => ⟨(holder, credit), store, []⟩
    | some next =>
      have := renewalStep?_rank send now step
      (renew (if holder.isAnswered then credit else credit - 1) next.state next.store).after next.notes
termination_by holder.renewalRank now

def awaitsRenewal (holder : Holder) : Bool :=
  match holder.renewer with
  | .waiting _ => true
  | _ => false

def renewalWake? (holder : Holder) : Option Nat :=
  match holder.renewer with
  | .waiting due => some (Time.ceilMillis due)
  | .calling call _ => some call.wake
  | .ended | .crashed => none

def beginRelease (holder : Holder) (store : σ) : Stepped Holder σ :=
  Call.beginStep send holder.terms.storeTimeout now (.release holder.machineId) store fun call =>
    { holder with shutdown := .releasing call }

def releaseEnded (holder : Holder) : Reply → Holder × List Event
  | .ok _ => ({ holder with shutdown := .done none }, [.released holder.machineId])
  | .failed cause =>
    ({ holder with shutdown := .done (some (.releaseFailed holder.machineId cause)) },
      [.releaseFailed holder.machineId cause])
  | .crashed => ({ holder with shutdown := .crashed }, [])

def shutdownStep? (holder : Holder) (store : σ) : Option (Stepped Holder σ) :=
  match holder.shutdown with
  | .idle => some ⟨{ holder.cancel with shutdown := .joining }, store, []⟩
  | .joining =>
    match holder.renewer with
    | .ended => some (holder.beginRelease send now store)
    | .crashed =>
      some ((holder.beginRelease send now store).after [.event (.renewalCrashed holder.machineId)])
    | _ => none
  | .releasing call =>
    (call.result? now).map fun reply =>
      let (ended, events) := holder.releaseEnded reply
      ⟨ended, store, call.endNotes now ++ events.map .event⟩
  | .done _ | .crashed => none

def shutdownRank (holder : Holder) : Nat :=
  match holder.shutdown with
  | .idle => 3
  | .joining => 2
  | .releasing _ => 1
  | .done _ | .crashed => 0

theorem shutdownStep?_rank {holder : Holder} {store : σ} {next : Stepped Holder σ}
    (step : holder.shutdownStep? send now store = some next) :
    next.state.shutdownRank < holder.shutdownRank := by
  unfold shutdownStep? at step
  split at step
  next idle =>
    obtain rfl := Option.some.inj step
    simp [shutdownRank, idle]
  next joining =>
    split at step
    · obtain rfl := Option.some.inj step
      simp [beginRelease, Call.beginStep, shutdownRank, joining]
    · obtain rfl := Option.some.inj step
      simp [beginRelease, Call.beginStep, Stepped.after, shutdownRank, joining]
    · simp at step
  next call releasing =>
    obtain ⟨reply, _, rfl⟩ := Option.map_eq_some_iff.1 step
    cases reply <;> simp [releaseEnded, shutdownRank, releasing]
  all_goals simp at step

def shutDown (holder : Holder) (store : σ) : Stepped Holder σ :=
  match step : holder.shutdownStep? send now store with
  | none => ⟨holder, store, []⟩
  | some next =>
    have := shutdownStep?_rank send now step
    (shutDown next.state next.store).after next.notes
termination_by holder.shutdownRank

def shutdownWake? (holder : Holder) : Option Nat :=
  match holder.shutdown with
  | .releasing call => some call.wake
  | _ => none

def stopOutcome? (holder : Holder) : Option StopOutcome :=
  match holder.shutdown with
  | .done failure => some (.finished failure)
  | .crashed => some .crashed
  | _ => none

end Holder
end LeasedIds.Lease
