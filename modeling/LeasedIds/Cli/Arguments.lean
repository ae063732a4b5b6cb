import LeasedIds.Cli.Flag

/-!
# Reading the command line

Flags are read in order, level by level. A value that stands apart from its flag is taken up when the next word is read
and checked when the next flag or the end of the level settles it; a value joined to its flag is checked at once. After
the words of a level come its environment variables, then what is required.
-/

namespace LeasedIds.Cli

inductive Usage where
  | badValue
  | missingValue
  | unknownArgument
  | unknownCommand
  | missingIds
  | repeatedFlag
  | unexpectedValue
  | emptyHelp
  | missingCommand
  | help
  | version
deriving DecidableEq, Repr

def Usage.message : Usage → String
  | badValue => "a value is not a number in its range"
  | missingValue => "a flag needs a value"
  | unknownArgument => "an argument is not known here"
  | unknownCommand => "a command is not known"
  | missingIds => "identifiers are required"
  | repeatedFlag => "a flag is given twice"
  | unexpectedValue => "a flag takes no value"
  | emptyHelp => "a command is required"
  | missingCommand => "a command is required"
  | help => ""
  | version => ""

def Usage.exitCode : Usage → Nat
  | help | version => 0
  | _ => 2

inductive Pending where
  | none
  | awaiting (flag : Flag)
  | value (flag : Flag) (text : List Char)
  | ids (texts : List (List Char))
deriving DecidableEq, Repr

structure Words where
  values : List (Flag × Nat) := []
  json : Bool := false
  ids : List Nat := []
  pending : Pending := .none
  trailing : Bool := false
deriving DecidableEq, Repr

inductive CommandWord where
  | command (level : Level)
  | help
deriving DecidableEq, Repr

def commandWord? (word : List Char) : Option CommandWord :=
  if word = "generate".toList then some (.command .generate)
  else if word = "decompose".toList then some (.command .decompose)
  else if word = "hold".toList then some (.command .hold)
  else if word = "help".toList then some .help
  else none

namespace Words

def value? (words : Words) (flag : Flag) : Option Nat := words.values.lookup flag

def accept (words : Words) (flag : Flag) (text : List Char) : Except Usage Words :=
  if (words.value? flag).isSome then .error .repeatedFlag
  else match flag.read text with
    | some value => .ok { words with values := words.values ++ [(flag, value)] }
    | none => .error .badValue

def settle (words : Words) : Except Usage Words :=
  let settled := { words with pending := .none }
  match words.pending with
  | .none => .ok settled
  | .awaiting _ => .error .missingValue
  | .value flag text => settled.accept flag text
  | .ids texts =>
    match texts.mapM (readNatural (2 ^ 64)) with
    | some ids => .ok { settled with ids := settled.ids ++ ids }
    | none => .error .badValue

def takeFlag (words : Words) (flag : Flag) (joined? : Option (List Char)) : Except Usage Words :=
  match joined?, flag.takesValue with
  | some text, true => do (← words.settle).accept flag text
  | some _, false => .error .unexpectedValue
  | none, true => do return { ← words.settle with pending := .awaiting flag }
  | none, false => do
    let words ← words.settle
    match flag with
    | .help => .error .help
    | .version => .error .version
    | _ => if words.json then .error .repeatedFlag else .ok { words with json := true }

def takeLong (level : Level) (words : Words) (body : List Char) : Except Usage Words :=
  let name := body.takeWhile (· ≠ '=')
  let joined? := match body.dropWhile (· ≠ '=') with
    | _ :: text => some text
    | [] => none
  match level.flagNamed? name with
  | some flag => words.takeFlag flag joined?
  | none => .error .unknownArgument

/-- A word that starts with a single dash. Flags without a value end the reading, so only the first letter counts. -/
def takeShort (level : Level) (words : Words) (letter : Char) (text : List Char) : Except Usage Words :=
  match level.flagLettered? letter with
  | none => .error .unknownArgument
  | some flag =>
    if flag.takesValue then
      words.takeFlag flag (match text with
        | [] => none
        | '=' :: text => some text
        | text => some text)
    else words.takeFlag flag none

def takePositional (level : Level) (words : Words) (word : List Char) : Except Usage Words :=
  match level with
  | .decompose =>
    match words.pending with
    | .ids texts => .ok { words with pending := .ids (texts ++ [word]) }
    | _ => do return { ← words.settle with pending := .ids [word] }
  | .root =>
    if words.trailing && (commandWord? word).isSome then .error .unknownArgument else .error .unknownCommand
  | .generate | .hold => .error .unknownArgument

def take (level : Level) (words : Words) (word : List Char) : Except Usage Words :=
  if words.trailing then words.takePositional level word
  else match word with
    | ['-', '-'] => .ok { words with trailing := true }
    | '-' :: '-' :: body => words.takeLong level body
    | '-' :: letter :: text => words.takeShort level letter text
    | word =>
      match words.pending with
      | .awaiting flag => .ok { words with pending := .value flag word }
      | _ => words.takePositional level word

def expectsCommand (words : Words) : Bool :=
  !words.trailing && !(words.pending matches .awaiting _)

def takeAll (level : Level) (words : Words) : List (List Char) → Except Usage Words
  | [] => .ok words
  | word :: rest => do (← words.take level word).takeAll level rest

def takeRoot (words : Words) : List (List Char) → Except Usage (Words × Option (CommandWord × List (List Char)))
  | [] => .ok (words, none)
  | word :: rest =>
    match if words.expectsCommand then commandWord? word else none with
    | some command => .ok (words, some (command, rest))
    | none => do (← words.take .root word).takeRoot rest

end Words

abbrev Environment := String → Option String

/-- What is pending at the end of a level is checked, then the variables of the settings that were not given. -/
def finishLevel (environment : Environment) (words : Words) : Except Usage Words := do
  let words ← words.settle
  let bad := fun (setting : Setting) =>
    (words.value? (.setting setting)).isNone &&
      (environment setting.variableName).any fun text => (setting.read text.toList).isNone
  if Setting.all.any bad then .error .badValue else return words

structure Options where
  startTimeMs : UInt64
  timeUnitMs : UInt64
  leaseTtlMs : UInt64
  renewalIntervalMs : UInt64
  storeTimeoutMs : UInt64
  sequenceBits : UInt8
  machineIdBits : UInt8
deriving DecidableEq, Repr

inductive Command where
  | generate (count : UInt64) (json : Bool)
  | decompose (ids : List UInt64) (json : Bool)
  | hold (everyMs : UInt64)
deriving DecidableEq, Repr

structure Invocation where
  options : Options
  command : Command
deriving DecidableEq, Repr

/-- A setting's value: a flag after the command wins over one before it, that over the environment, and that over the
default. -/
def settingValue (environment : Environment) (root inner : Words) (setting : Setting) : Nat :=
  (inner.value? (.setting setting)
    <|> root.value? (.setting setting)
    <|> (environment setting.variableName).bind fun text => setting.read text.toList).getD setting.default

def Options.ofWords (environment : Environment) (root inner : Words) : Options :=
  let value := settingValue environment root inner
  { startTimeMs := .ofNat (value .startTime)
    timeUnitMs := .ofNat (value .timeUnit)
    leaseTtlMs := .ofNat (value .leaseTtl)
    renewalIntervalMs := .ofNat (value .renewalInterval)
    storeTimeoutMs := .ofNat (value .storeTimeout)
    sequenceBits := .ofNat (value .sequenceBits)
    machineIdBits := .ofNat (value .machineIdBits) }

def Command.ofWords (words : Words) : Level → Except Usage Command
  | .generate => .ok (.generate (.ofNat ((words.value? .count).getD 10)) words.json)
  | .decompose =>
    if words.ids.isEmpty then .error .missingIds else .ok (.decompose (words.ids.map .ofNat) words.json)
  | .hold => .ok (.hold (.ofNat ((words.value? .everyMs).getD 1000)))
  | .root => .error .missingCommand

def helpOn : List (List Char) → Usage
  | [] => .help
  | [word] => if (commandWord? word).isSome then .help else .unknownCommand
  | _ => .unknownCommand

def withoutCommand (environment : Environment) (root : Words) : Usage :=
  if root.values.isEmpty && Setting.all.all fun setting => (environment setting.variableName).isNone then .emptyHelp
  else .missingCommand

def readArguments (environment : Environment) (arguments : List String) : Except Usage Invocation := do
  match ← Words.takeRoot {} (arguments.map String.toList) with
  | (_, some (.help, rest)) => .error (helpOn rest)
  | (root, some (.command level, rest)) =>
    let inner ← finishLevel environment (← Words.takeAll level {} rest)
    let command ← Command.ofWords inner level
    let root ← finishLevel environment root
    return ⟨.ofWords environment root inner, command⟩
  | (root, none) => .error (withoutCommand environment (← finishLevel environment root))

end LeasedIds.Cli
