import Std.Time.DateTime.Timestamp

namespace LeasedIds

/-- The wall clock, or 1970 if it is set to an earlier time. -/
def wallNow : IO Nat := do
  let now ← Std.Time.Timestamp.now
  return now.toNanosecondsSinceUnixEpoch.val.toNat

structure AnchoredClock where
  anchor : Nat
  start : Nat

namespace AnchoredClock

def create : IO AnchoredClock := do
  let start ← IO.monoNanosNow
  return ⟨← wallNow, start⟩

def now (clock : AnchoredClock) : IO Nat := do
  let passed := (← IO.monoNanosNow) - clock.start
  return clock.anchor + passed

end AnchoredClock
end LeasedIds
