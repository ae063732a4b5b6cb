import LeasedIds.Basic

/-!
# The leaves of JSON texts

Readers take the characters that remain and give back a value with what remains after it. The first fault
ends the reading; `Fault` tells a text that breaks the grammar from one that is cut short and from one that is well
formed as far as it was read but holds an unsuitable value.
-/

namespace LeasedIds.Json

inductive Fault where
  | malformed
  | truncated
  | unsuitable
deriving DecidableEq, Repr

def isBlank (char : Char) : Bool := char = ' ' || char = '\n' || char = '\t' || char = '\r'

def skipBlank (text : List Char) : List Char := text.dropWhile isBlank

def expect : List Char → List Char → Except Fault (List Char)
  | [], text => .ok text
  | _ :: _, [] => .error .truncated
  | char :: word, next :: text => if char = next then expect word text else .error .malformed

def hexValue? (char : Char) : Option Nat :=
  if '0' ≤ char ∧ char ≤ '9' then some (char.toNat - '0'.toNat)
  else if 'a' ≤ char ∧ char ≤ 'f' then some (char.toNat - 'a'.toNat + 10)
  else if 'A' ≤ char ∧ char ≤ 'F' then some (char.toNat - 'A'.toNat + 10)
  else none

def byteCount (text : List Char) : Nat := (text.map Char.utf8Size).sum

/-- Reads four hexadecimal digits. A text with less than four bytes is cut short. -/
def readHex (text : List Char) : Except Fault (Nat × List Char) :=
  match text with
  | first :: second :: third :: fourth :: rest =>
    match hexValue? first, hexValue? second, hexValue? third, hexValue? fourth with
    | some a, some b, some c, some d => .ok (((a * 16 + b) * 16 + c) * 16 + d, rest)
    | _, _, _, _ => .error .malformed
  | rest => .error (if byteCount rest < 4 then .truncated else .malformed)

def shortEscape? : Char → Option Char
  | '"' => some '"'
  | '\\' => some '\\'
  | '/' => some '/'
  | 'b' => some '\x08'
  | 'f' => some '\x0c'
  | 'n' => some '\n'
  | 'r' => some '\r'
  | 't' => some '\t'
  | _ => none

def isHighSurrogate (unit : Nat) : Bool := 0xD800 ≤ unit && unit ≤ 0xDBFF

def isLowSurrogate (unit : Nat) : Bool := 0xDC00 ≤ unit && unit ≤ 0xDFFF

def readLowUnit (text : List Char) : Except Fault (Nat × List Char) :=
  match text with
  | [] | ['\\'] => .error .truncated
  | '\\' :: 'u' :: rest => do
    let (low, rest) ← readHex rest
    if isLowSurrogate low then .ok (low, rest) else .error .malformed
  | _ => .error .malformed

def readEscape (text : List Char) : Except Fault (Char × List Char) :=
  match text with
  | [] => .error .truncated
  | 'u' :: rest => do
    let (unit, rest) ← readHex rest
    if isHighSurrogate unit then
      let (low, rest) ← readLowUnit rest
      .ok (.ofNat (0x10000 + (unit - 0xD800) * 0x400 + (low - 0xDC00)), rest)
    else if isLowSurrogate unit then .error .malformed
    else .ok (.ofNat unit, rest)
  | char :: rest =>
    match shortEscape? char with
    | some escaped => .ok (escaped, rest)
    | none => .error .malformed

/-- Passes over an escape after its backslash; surrogates may stand alone. -/
def skipEscape (text : List Char) : Except Fault (List Char) :=
  match text with
  | [] => .error .truncated
  | 'u' :: rest => (·.2) <$> readHex rest
  | char :: rest => if (shortEscape? char).isSome then .ok rest else .error .malformed

theorem readHex_shorter {text rest : List Char} {unit : Nat} (found : readHex text = .ok (unit, rest)) :
    rest.length < text.length := by
  unfold readHex at found
  split at found
  · split at found <;> grind
  · simp at found

theorem readLowUnit_shorter {text rest : List Char} {unit : Nat} (found : readLowUnit text = .ok (unit, rest)) :
    rest.length < text.length := by
  unfold readLowUnit at found
  split at found
  · simp at found
  · simp at found
  next later =>
    cases low : readHex later with
    | error fault => simp [low, bind, Except.bind] at found
    | ok read =>
      have := readHex_shorter low
      simp only [low, bind, Except.bind] at found
      grind
  · simp at found

theorem readEscape_shorter {text rest : List Char} {char : Char} (found : readEscape text = .ok (char, rest)) :
    rest.length < text.length := by
  unfold readEscape at found
  split at found
  · simp at found
  next later =>
    cases high : readHex later with
    | error fault => simp [high, bind, Except.bind] at found
    | ok read =>
      have shorter := readHex_shorter high
      simp only [high, bind, Except.bind] at found
      split at found
      · cases low : readLowUnit read.2 with
        | error fault => simp [low] at found
        | ok second =>
          have := readLowUnit_shorter low
          simp only [low] at found
          grind
      · grind
  · split at found <;> grind

theorem skipEscape_shorter {text rest : List Char} (found : skipEscape text = .ok rest) :
    rest.length < text.length := by
  unfold skipEscape at found
  split at found
  · simp at found
  next later =>
    cases unit : readHex later with
    | error fault => simp [unit, Functor.map, Except.map] at found
    | ok read =>
      have := readHex_shorter unit
      simp only [unit, Functor.map, Except.map] at found
      grind
  · grind

def readString (text : List Char) : Except Fault (List Char × List Char) :=
  match text with
  | [] => .error .truncated
  | '"' :: rest => .ok ([], rest)
  | '\\' :: rest =>
    match escape : readEscape rest with
    | .error fault => .error fault
    | .ok (char, later) =>
      have := readEscape_shorter escape
      (fun (chars, rest) => (char :: chars, rest)) <$> readString later
  | char :: rest =>
    if char.toNat < 0x20 then .error .malformed
    else (fun (chars, rest) => (char :: chars, rest)) <$> readString rest
termination_by text.length
decreasing_by all_goals simp_all only [List.length_cons]; omega

def skipString (text : List Char) : Except Fault (List Char) :=
  match text with
  | [] => .error .truncated
  | '"' :: rest => .ok rest
  | '\\' :: rest =>
    match escape : skipEscape rest with
    | .error fault => .error fault
    | .ok later =>
      have := skipEscape_shorter escape
      skipString later
  | char :: rest => if char.toNat < 0x20 then .error .malformed else skipString rest
termination_by text.length
decreasing_by all_goals simp_all only [List.length_cons]; omega

structure Numeral where
  negative : Bool
  whole : List Nat
  fraction : List Nat := []
  exponent? : Option Int := none
deriving DecidableEq, Repr

def digitValue? (char : Char) : Option Nat :=
  if '0' ≤ char ∧ char ≤ '9' then some (char.toNat - '0'.toNat) else none

def readDigits : List Char → List Nat × List Char
  | [] => ([], [])
  | char :: rest =>
    match digitValue? char with
    | some digit =>
      let (digits, rest) := readDigits rest
      (digit :: digits, rest)
    | none => ([], char :: rest)

def ofDigits (digits : List Nat) : Nat := digits.foldl (fun value digit => value * 10 + digit) 0

/-- The fault of a text in which a digit is missing; `cut` is the fault if the text ends there. -/
def missingDigit (cut : Fault) (rest : List Char) : Fault := if rest.isEmpty then cut else .malformed

def readWhole (cut : Fault) (text : List Char) : Except Fault (List Nat × List Char) :=
  match readDigits text with
  | ([], rest) => .error (missingDigit cut rest)
  | (0 :: _ :: _, _) => .error .malformed
  | read => .ok read

def readFraction (cut : Fault) (text : List Char) : Except Fault (List Nat × List Char) :=
  match text with
  | '.' :: rest =>
    match readDigits rest with
    | ([], rest) => .error (missingDigit cut rest)
    | read => .ok read
  | rest => .ok ([], rest)

def readExponent (cut : Fault) (text : List Char) : Except Fault (Option Int × List Char) :=
  let power := fun (sign : Int) (rest : List Char) =>
    match readDigits rest with
    | ([], rest) => .error (missingDigit cut rest)
    | (digits, rest) => .ok (some (sign * ofDigits digits), rest)
  let signed := fun (rest : List Char) =>
    match rest with
    | '+' :: rest => power 1 rest
    | '-' :: rest => power (-1) rest
    | rest => power 1 rest
  match text with
  | 'e' :: rest => signed rest
  | 'E' :: rest => signed rest
  | rest => .ok (none, rest)

def readNumeral (cut : Fault) (negative : Bool) (text : List Char) : Except Fault (Numeral × List Char) := do
  let (whole, rest) ← readWhole cut text
  let (fraction, rest) ← readFraction cut rest
  let (exponent?, rest) ← readExponent cut rest
  return ({ negative, whole, fraction, exponent? }, rest)

end LeasedIds.Json
