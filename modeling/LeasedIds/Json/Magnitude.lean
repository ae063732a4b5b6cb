import LeasedIds.Json.Scan

/-!
# The range of numbers

A number that is not a natural number of 64 bits still has to lie in the range of double precision: its digits are cut
to a 64-bit significand, the significand and the power of ten are rounded to 53 bits each, and their product must not
round to infinity.
-/

namespace LeasedIds.Json

/-- The nearest number of at most 53 significant bits; of two, the one whose last bit is 0. -/
def roundToDouble (value : Nat) : Nat :=
  let shift := value.log2 + 1 - 53
  let quotient := value / 2 ^ shift
  let twice := 2 * (value % 2 ^ shift)
  let up := 2 ^ shift < twice || (2 ^ shift = twice && quotient % 2 = 1)
  (if up then quotient + 1 else quotient) * 2 ^ shift

/-- The least natural number that rounds to infinity. -/
def doubleLimit : Nat := (2 ^ 54 - 1) * 2 ^ 970

def appendDigits (value : Nat) : List Nat → Nat × Nat
  | [] => (value, 0)
  | digit :: digits =>
    if value * 10 + digit < 2 ^ 64 then appendDigits (value * 10 + digit) digits
    else (value, digits.length + 1)

namespace Numeral

def scaled (numeral : Numeral) : Nat × Int :=
  let (whole, cut) := appendDigits 0 numeral.whole
  let (significand, unused) := appendDigits whole numeral.fraction
  let used : Int := numeral.fraction.length - unused
  (significand, cut - used + numeral.exponent?.getD 0)

def inRange (numeral : Numeral) : Bool :=
  match numeral.scaled with
  | (0, _) => true
  | (_, .negSucc _) => true
  | (significand, .ofNat power) =>
    power ≤ 308 && roundToDouble significand * roundToDouble (10 ^ power) < doubleLimit

def word? (numeral : Numeral) : Option UInt64 :=
  let value := ofDigits numeral.whole
  if !numeral.negative && numeral.fraction.isEmpty && numeral.exponent?.isNone && value < 2 ^ 64 then
    some (.ofNat value)
  else none

end Numeral
end LeasedIds.Json
