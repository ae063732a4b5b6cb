import LeasedIds.Layout

/-!
# Encoders

An encoder counts time in whole units since its epoch and packs the count with one machine ID. It exists only
if every instant its time field can name is representable, so the start of an identifier's unit is exact.
-/

namespace LeasedIds

def minTimeUnit : Nat := Time.millisecond

def LifetimeRepresentable (epoch timeUnit : Nat) (layout : Layout) : Prop :=
  minTimeUnit ≤ timeUnit ∧ epoch + timeUnit * layout.maxElapsed < Time.instantLimit

instance (epoch timeUnit : Nat) (layout : Layout) : Decidable (LifetimeRepresentable epoch timeUnit layout) := by
  unfold LifetimeRepresentable
  infer_instance

structure Encoder where
  machineId : Nat
  epoch : Nat
  timeUnit : Nat
  layout : Layout
  lifetime : LifetimeRepresentable epoch timeUnit layout
  machineId_le : machineId ≤ layout.maxMachineId
deriving DecidableEq

namespace Encoder

def create (machineId : Nat) (epoch timeUnit : Nat) (layout : Layout) : Except Error Encoder :=
  if lifetime : LifetimeRepresentable epoch timeUnit layout then
    if machineId_le : machineId ≤ layout.maxMachineId then
      .ok ⟨machineId, epoch, timeUnit, layout, lifetime, machineId_le⟩
    else
      .error (.machineIdTooLarge machineId layout.maxMachineId)
  else
    .error (.badTimeUnit timeUnit)

variable (encoder : Encoder)

def lifetimeEnd : Nat := encoder.epoch + encoder.timeUnit * encoder.layout.maxElapsed

def elapsedUnits (now : Nat) : Except Error Nat :=
  if now < encoder.epoch then .error .clockBeforeEpoch
  else
    let units := (now - encoder.epoch) / encoder.timeUnit
    if units ≤ encoder.layout.maxElapsed then .ok units
    else .error (.timeExhausted units encoder.layout.maxElapsed)

/-- The start of the unit an identifier was minted in. An instant that could not be represented would be moved
to the end of the lifetime. -/
def toTime (id : Id) : Nat :=
  (Time.later? encoder.epoch (Time.clampSpan (encoder.timeUnit * encoder.layout.elapsed id))).getD
    encoder.lifetimeEnd

def wakeTime (next : Nat) : Nat :=
  Time.addCapped encoder.epoch (Time.clampSpan (encoder.timeUnit * next))

def decompose (id : Id) : Parts := encoder.layout.decompose id

end Encoder
end LeasedIds
