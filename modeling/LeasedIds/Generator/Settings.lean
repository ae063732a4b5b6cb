import LeasedIds.Encoder
import LeasedIds.Encoder.Readings
import LeasedIds.Lease.Terms

namespace LeasedIds.Generator

structure Settings where
  hasStore : Bool := true
  startTime : Int := Time.startOf2025
  timeUnit : Nat := 10 * Time.millisecond
  terms : Lease.Terms := {}
  sequenceBits : Nat := 8
  machineBits : Nat := 16
deriving DecidableEq, Repr

structure Plan where
  epoch : Nat
  timeUnit : Nat
  terms : Lease.Terms
  layout : Layout
  valid : terms.Valid
  lifetime : LifetimeRepresentable epoch timeUnit layout

namespace Settings

variable (settings : Settings)

def readsClock : Bool := settings.hasStore && 0 ≤ settings.startTime

/-- The settings that remain to be checked when the epoch is known to be in the past. -/
def planFrom (epoch : Nat) : Except Error Plan :=
  if settings.timeUnit < minTimeUnit then .error (.badTimeUnit settings.timeUnit)
  else match terms : settings.terms.fault? with
    | some fault => .error fault
    | none =>
      match Layout.ofWidths settings.sequenceBits settings.machineBits with
      | .error fault => .error fault
      | .ok layout =>
        if lifetime : LifetimeRepresentable epoch settings.timeUnit layout then
          .ok ⟨epoch, settings.timeUnit, settings.terms, layout, Lease.Terms.fault?_eq_none_iff.1 terms, lifetime⟩
        else .error (.badTimeUnit settings.timeUnit)

def check (now : Nat) : Except Error Plan :=
  if !settings.hasStore then .error .missingStore
  else match settings.startTime with
    | .negSucc _ => .error .startNotPast
    | .ofNat epoch => if now ≤ epoch then .error .startNotPast else settings.planFrom epoch

/-- Checks the settings against a clock that yields the given readings, and leaves the readings it did not take. There is
no verdict if the check needs a reading and none is left. -/
def checkOn (readings : Encoder.Readings) : Option (Except Error Plan) × Encoder.Readings :=
  if settings.readsClock then
    match readings.next? with
    | none => (none, [])
    | some (now, later) => (some (settings.check now), later)
  else (some (settings.check 0), readings)

end Settings
end LeasedIds.Generator
