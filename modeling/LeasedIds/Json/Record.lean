import LeasedIds.Json.Magnitude
import LeasedIds.Json.Skip
import LeasedIds.Layout

namespace LeasedIds.Json

def unwanted {α : Type} : Except Fault α → Fault
  | .error fault => fault
  | .ok _ => .unsuitable

def checkRange : Except Fault (Numeral × List Char) → Except Fault (Numeral × List Char)
  | .ok (numeral, rest) => if numeral.inRange then .ok (numeral, rest) else .error .malformed
  | .error fault => .error fault

def readNumber (text : List Char) : Except Fault (Numeral × List Char) :=
  match text with
  | '-' :: rest => checkRange (readNumeral .truncated true rest)
  | rest => checkRange (readNumeral .truncated false rest)

/-- The fault of a value of an unwanted kind. Of an array or an object only the first character is read. -/
def rejected (text : List Char) : Fault :=
  match text with
  | [] => .truncated
  | 'n' :: rest => unwanted (expect ['u', 'l', 'l'] rest)
  | 't' :: rest => unwanted (expect ['r', 'u', 'e'] rest)
  | 'f' :: rest => unwanted (expect ['a', 'l', 's', 'e'] rest)
  | '"' :: rest => unwanted (readString rest)
  | '[' :: _ => .unsuitable
  | '{' :: _ => .unsuitable
  | rest => unwanted (readNumber rest)

def startsNumber (text : List Char) : Bool :=
  match text with
  | '-' :: _ => true
  | char :: _ => (digitValue? char).isSome
  | [] => false

def readWord (text : List Char) : Except Fault (UInt64 × List Char) :=
  let text := skipBlank text
  if startsNumber text then do
    let (numeral, rest) ← readNumber text
    match numeral.word? with
    | some word => .ok (word, rest)
    | none => .error .unsuitable
  else .error (rejected text)

def finish {α : Type} (value : α) (rest : List Char) : Except Fault α :=
  if (skipBlank rest).isEmpty then .ok value else .error .malformed

def readId (text : List Char) : Except Fault Id := do
  let (word, rest) ← readWord text
  finish ⟨word⟩ rest

inductive Field where
  | id
  | time
  | machineId
  | sequence
deriving DecidableEq, Repr

def Field.name : Field → List Char
  | id => ['i', 'd']
  | time => ['t', 'i', 'm', 'e']
  | machineId => ['m', 'a', 'c', 'h', 'i', 'n', 'e', '_', 'i', 'd']
  | sequence => ['s', 'e', 'q', 'u', 'e', 'n', 'c', 'e']

def Field.all : List Field := [id, time, machineId, sequence]

def Field.ofName? (name : List Char) : Option Field := all.find? (·.name = name)

abbrev Found := Field → Option UInt64

def Found.insert (found : Found) (field : Field) (word : UInt64) : Found :=
  fun other => if other = field then some word else found other

def Found.parts? (found : Found) : Option Parts := do
  return ⟨⟨← found .id⟩, ← found .time, ← found .machineId, ← found .sequence⟩

inductive Next where
  | member (key : List Char)
  | closed (rest : List Char)
deriving DecidableEq, Repr

def openKey (text : List Char) : Except Fault Next :=
  match text with
  | '"' :: rest => .ok (.member rest)
  | [] => .error .truncated
  | _ => .error .malformed

/-- Finds the next member or the closing brace; `first` if no member has been read yet. -/
def nextMember (first : Bool) (text : List Char) : Except Fault Next :=
  match skipBlank text with
  | '}' :: rest => .ok (.closed rest)
  | ',' :: rest => if first then .error .malformed else openKey (skipBlank rest)
  | [] => .error .truncated
  | rest => if first then openKey rest else .error .malformed

/-- Reads the members of an object and its closing brace; `first` if none has been read yet. A member that is there twice
is refused before its second value is read. -/
def readMembers : Nat → Bool → Found → List Char → Except Fault (Found × List Char)
  | 0, _, _, _ => .error .malformed
  | fuel + 1, first, found, text => do
    match ← nextMember first text with
    | .closed rest => return (found, rest)
    | .member key =>
      let (name, rest) ← readString key
      match Field.ofName? name with
      | some field =>
        if (found field).isSome then .error .unsuitable
        let (word, rest) ← readWord (← skipColon rest)
        readMembers fuel false (found.insert field word) rest
      | none => readMembers fuel false found (← skipValue (← skipColon rest))

def readElement (first : Bool) (text : List Char) : Except Fault (UInt64 × List Char) :=
  match skipBlank text with
  | [] => .error .truncated
  | ']' :: _ => .error .unsuitable
  | ',' :: rest =>
    if first then .error .malformed
    else if (skipBlank rest).head? = some ']' then .error .malformed
    else readWord rest
  | rest => if first then readWord rest else .error .malformed

def readElements (text : List Char) : Except Fault (Parts × List Char) := do
  let (id, rest) ← readElement true text
  let (time, rest) ← readElement false rest
  let (machineId, rest) ← readElement false rest
  let (sequence, rest) ← readElement false rest
  match skipBlank rest with
  | [] => .error .truncated
  | ']' :: rest => return (⟨⟨id⟩, time, machineId, sequence⟩, rest)
  | _ => .error .malformed

def readParts (text : List Char) : Except Fault Parts := do
  match skipBlank text with
  | '[' :: rest =>
    let (parts, rest) ← readElements rest
    finish parts rest
  | '{' :: rest =>
    let (found, rest) ← readMembers (rest.length + 1) true (fun _ => none) rest
    match found.parts? with
    | some parts => finish parts rest
    | none => .error .unsuitable
  | rest => .error (rejected rest)

end LeasedIds.Json
