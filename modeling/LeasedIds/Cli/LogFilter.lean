import LeasedIds.Lease.Event
import LeasedIds.Text.Alphanumeric
import LeasedIds.Text.Space

/-!
# Log filters

A filter says which lines the program logs. Its text is a list of directives with commas between them, such as
`warn,leaseflake::lease=trace`. A directive gives a level, for all targets or for those that start with its own. Of the
directives that apply to a line the most specific one decides.
-/

namespace LeasedIds.Cli

structure LogLine where
  target : String
  level : Lease.Level
  fields : List String
deriving DecidableEq, Repr

abbrev Verbosity := Nat

namespace Verbosity

def everything : Verbosity := 5

def ofLevel : Lease.Level → Verbosity
  | .error => 1
  | .warn => 2
  | .info => 3
  | .debug => 4
  | .trace => 5

def names : List (String × Verbosity) :=
  [("", 1), ("off", 0), ("error", 1), ("warn", 2), ("info", 3), ("debug", 4), ("trace", 5)]

def ofDigits? (text : List Char) : Option Nat :=
  let digits := match text with
    | '+' :: digits => digits
    | digits => digits
  if !digits.isEmpty && digits.all Char.isDigit then
    some (digits.foldl (fun value digit => value * 10 + (digit.toNat - '0'.toNat)) 0)
  else none

def ofText? (text : List Char) : Option Verbosity :=
  match (ofDigits? text).filter (· ≤ everything) with
  | some verbosity => some verbosity
  | none => names.lookup (String.ofList (text.map Char.toLower))

end Verbosity

/-- A directive that is restricted to spans applies to no line outside of them. -/
structure Directive where
  target? : Option (List Char) := none
  inSpan : Bool := false
  field? : Option (List Char) := none
  hasValue : Bool := false
  verbosity : Verbosity := .everything
deriving DecidableEq, Repr

namespace Directive

inductive Stage where
  | start
  | head (start : Nat)
  | span (start : Nat)
  | field (start : Nat)
  | fieldEnd
  | spanEnd
  | level (start : Nat)
deriving DecidableEq, Repr

def piece (text : List Char) (start stop : Nat) : List Char := (text.take stop).drop start

def withField? (directive : Directive) (text : List Char) : Option Directive :=
  if text.isEmpty then none
  else some { directive with field? := some (text.takeWhile (· ≠ '=')), hasValue := text.contains '=' }

def withSpan (directive : Directive) (text : List Char) : Directive := { directive with inSpan := !text.isEmpty }

def step? (text : List Char) (directive : Directive) (stage : Stage) (position : Nat) (char : Char) :
    Option (Directive × Stage) :=
  match stage, char with
  | .start, '[' => some (directive, .span (position + 1))
  | .start, char =>
    if char = '-' || char = ':' || char = '_' || Text.isAlphanumeric char then some (directive, .head position) else none
  | .head start, '=' => some ({ directive with target? := some (piece text start position) }, .level (position + 1))
  | .head start, '[' => some ({ directive with target? := some (piece text start position) }, .span (position + 1))
  | .span start, ']' => some (directive.withSpan (piece text start position), .spanEnd)
  | .span start, '\x7b' => some (directive.withSpan (piece text start position), .field (position + 1))
  | .field start, '\x7d' => (directive.withField? (piece text start position)).map (·, .fieldEnd)
  | .fieldEnd, ']' => some (directive, .spanEnd)
  | .spanEnd, '=' => some (directive, .level (position + 1))
  | .fieldEnd, _ | .spanEnd, _ => none
  | stage, _ => some (directive, stage)

def scan? (text : List Char) (directive : Directive) (stage : Stage) (position : Nat) :
    List Char → Option (Directive × Stage)
  | [] => some (directive, stage)
  | char :: rest => do
    let (directive, stage) ← directive.step? text stage position char
    scan? text directive stage (position + 1) rest

def finish? (text : List Char) (directive : Directive) : Stage → Option Directive
  | .head start =>
    match Verbosity.ofText? (text.drop start) with
    | some verbosity => some { directive with verbosity }
    | none => some { directive with target? := some (text.drop start) }
  | .level start =>
    if (text.drop start).isEmpty then some directive
    else (Verbosity.ofText? (text.drop start)).map fun verbosity => { directive with verbosity }
  | .spanEnd => some directive
  | _ => none

/-- Reads a directive. Positions count from the first character that is not white space, but the pieces are cut out of
the whole text. -/
def ofText? (text : List Char) : Option Directive := do
  let (directive, stage) ← scan? text {} .start 0 (Text.trimStart (Text.trimEnd text))
  directive.finish? text stage

def isPlain (directive : Directive) : Bool := !directive.inSpan && !directive.hasValue

def isAboutSpans (directive : Directive) : Bool := directive.inSpan || directive.field?.isSome

def appliesTo (directive : Directive) (line : LogLine) : Bool :=
  directive.isPlain && directive.target?.all (·.isPrefixOf line.target.toList) &&
    directive.field?.all fun field => line.fields.contains (String.ofList field)

/-- The order of specificity among directives that apply to one line: a longer target comes before a shorter one, then a
field before none, then the later field in the order of characters. -/
def precedes (left right : Directive) : Bool :=
  let length := fun directive : Directive => (directive.target?.map (·.length + 1)).getD 0
  if length left = length right then
    match left.field?, right.field? with
    | some first, some second => second < first
    | some _, none => true
    | none, _ => false
  else length right < length left

end Directive

abbrev LogFilter := List Directive

namespace LogFilter

def parts : List Char → List (List Char)
  | [] => [[]]
  | char :: rest =>
    match parts rest with
    | [] => [[char]]
    | part :: later => if char = ',' then [] :: part :: later else (char :: part) :: later

def ofText? (text : List Char) : Option LogFilter := do
  let directives ← ((parts text).filter fun part => !part.isEmpty).mapM Directive.ofText?
  return if directives.isEmpty then [{ verbosity := .ofLevel .error }] else directives

def standard : LogFilter := [{ verbosity := .ofLevel .info }]

def variableName : String := "RUST_LOG"

def ofEnvironment (environment : String → Option String) : LogFilter :=
  ((environment variableName).bind fun text => ofText? text.toList).getD standard

def decisive? (filter : LogFilter) (line : LogLine) : Option Directive :=
  (filter.filter (·.appliesTo line)).foldl
    (fun best? directive => if best?.any (·.precedes directive) then best? else some directive) none

def lets (filter : LogFilter) (line : LogLine) : Bool :=
  (filter.decisive? line).any fun directive => Verbosity.ofLevel line.level ≤ directive.verbosity

end LogFilter
end LeasedIds.Cli
