import LeasedIds.Encoder.Lifetime
import LeasedIds.Encoder.Minting

namespace LeasedIds.Encoder

inductive Pause where
  | spin
  | sleep (span : Nat)
deriving DecidableEq, Repr

variable (encoder : Encoder)

def wakeTime? (next : Nat) : Option Nat := do
  Time.sum? encoder.epoch (← Time.unitsSpan? encoder.timeUnit next)

def pauseAt (next now : Nat) : Pause :=
  let remaining := encoder.remaining next now
  if remaining = 0 then .spin else .sleep remaining

def awaitPauses (next : Nat) : List Nat → List (Nat × Pause)
  | [] => []
  | now :: readings =>
    match encoder.resume next now with
    | .waiting _ => (now, encoder.pauseAt next now) :: awaitPauses next readings
    | _ => []

/-- The pauses of one call on a list of readings. Behind the first reading there is none. -/
def pauses (position : Position) : List Nat → List (Nat × Pause)
  | [] => []
  | now :: readings =>
    match encoder.start position now with
    | .waiting next => encoder.awaitPauses next readings
    | _ => []

end LeasedIds.Encoder
