import LeasedIds.Encoder.Minting

namespace LeasedIds

structure Minter where
  encoder : Encoder
  position : Encoder.Position
  poisoned : Bool
  readings : Encoder.Readings
  /-- How often the clock was asked, also in vain. -/
  reads : Nat

namespace Minter

def ofEncoder (encoder : Encoder) (readings : Encoder.Readings) : Minter := ⟨encoder, encoder.initial, false, readings, 0⟩

def addReadings (minter : Minter) (readings : Encoder.Readings) : Minter :=
  { minter with readings := minter.readings ++ readings }

def next (minter : Minter) : Encoder.Outcome × Minter :=
  if minter.poisoned then (.failed .encoderPoisoned, minter)
  else
    let ending := minter.encoder.nextIdOn minter.position minter.readings
    let starved := ending.outcome = .starved
    let taken := minter.readings.size - ending.readings.size
    (ending.outcome,
      { minter with
        position := ending.position
        poisoned := starved
        readings := ending.readings
        reads := minter.reads + taken + if starved then 1 else 0 })

def take (minter : Minter) : Nat → List Encoder.Outcome × Minter
  | 0 => ([], minter)
  | count + 1 =>
    let (outcome, minter) := minter.next
    let (outcomes, minter) := minter.take count
    (outcome :: outcomes, minter)

end Minter
end LeasedIds
