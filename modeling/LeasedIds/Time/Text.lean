import LeasedIds.Time

namespace LeasedIds.Time

def paddedDigits (width value : Nat) : List Char :=
  let digits := Nat.toDigits 10 value
  List.replicate (width - digits.length) '0' ++ digits

def fractionDigits (places part : Nat) : List Char :=
  ((paddedDigits places part).reverse.dropWhile (· == '0')).reverse

def decimalText (length : Nat) (places : Nat) (unit : String) : String :=
  let whole := toString (length / 10 ^ places)
  match fractionDigits places (length % 10 ^ places) with
  | [] => whole ++ unit
  | digits => whole ++ "." ++ String.ofList digits ++ unit

def spanText (length : Nat) : String :=
  if second ≤ length then decimalText length 9 "s"
  else if millisecond ≤ length then decimalText length 6 "ms"
  else if microsecond ≤ length then decimalText length 3 "µs"
  else decimalText length 0 "ns"

end LeasedIds.Time
