import LeasedIds.Cli.Arguments
import LeasedIds.Text.Alphanumeric
import LeasedIds.Text.Space

namespace LeasedIds.Cli.EnvFile

open Text

def physicalLines : List Char → List (List Char)
  | [] => []
  | char :: rest =>
    if char = '\n' then [char] :: physicalLines rest
    else match physicalLines rest with
      | [] => [[char]]
      | line :: lines => (char :: line) :: lines

inductive Quoting where
  | plain
  | space
  | escape
  | strong
  | strongEscape
  | weak
  | weakEscape
deriving DecidableEq, Repr

def Quoting.next (quoting : Quoting) (char : Char) : Quoting :=
  let opened := match char with
    | '\\' => escape
    | '"' => weak
    | '\'' => strong
    | _ => plain
  match quoting with
  | plain => if isSpace char && char != '\n' && char != '\r' then space else opened
  | space => opened
  | escape => plain
  | strong => match char with
    | '\\' => strongEscape
    | '\'' => plain
    | _ => strong
  | strongEscape => strong
  | weak => match char with
    | '\\' => weakEscape
    | '"' => plain
    | _ => weak
  | weakEscape => weak

def scanLine (quoting : Quoting) : List Char → List Char ⊕ Quoting
  | [] => .inr quoting
  | char :: rest =>
    if quoting = .space && char = '#' then .inl []
    else match scanLine (quoting.next char) rest with
      | .inl kept => .inl (char :: kept)
      | .inr quoting => .inr quoting

def dropNewline (line : List Char) : List Char :=
  match line.reverse with
  | '\n' :: '\r' :: rest => rest.reverse
  | '\n' :: rest => rest.reverse
  | _ => line

/-- Joins lines while a quote is open; none stands for a line that the end of the file leaves open. -/
def logicalLines (started : List Char) (quoting : Quoting) : List (List Char) → List (Option (List Char))
  | [] => if quoting = .plain then [] else [none]
  | line :: rest =>
    let joined := started ++ line
    if (trimStart joined).head? = some '#' then some [] :: logicalLines [] .plain rest
    else match scanLine quoting line with
      | .inl kept => some (started ++ kept) :: logicalLines [] .plain rest
      | .inr .plain => some (dropNewline joined) :: logicalLines [] .plain rest
      | .inr quoting => logicalLines joined quoting rest

def isNameStart (char : Char) : Bool := char.isAlpha || char = '_'

def isNameChar (char : Char) : Bool := char.isAlphanum || char = '_' || char = '.'

def readName (text : List Char) : Option (List Char × List Char) :=
  if text.head?.any isNameStart then some (text.takeWhile isNameChar, trimStart (text.dropWhile isNameChar)) else none

/-- Where the reading of a value stands. `quoted` tells whether a double quote is open. -/
inductive Mode where
  | plain
  | strong
  | weak
  | escaped (quoted : Bool)
  | name (quoted : Bool) (read : List Char)
  | braced (quoted : Bool) (read : List Char)
  | ending
  | comment
deriving DecidableEq, Repr

def Mode.unquoted (quoted : Bool) : Mode := if quoted then weak else plain

def substitute (environment : Environment) (name : List Char) : List Char :=
  ((environment (String.ofList name)).getD "").toList

def Mode.next (environment : Environment) (mode : Mode) (char : Char) : Option (Mode × List Char) :=
  match mode with
  | plain => match char with
    | '$' => some (name false [], [])
    | '\'' => some (strong, [])
    | '"' => some (weak, [])
    | '\\' => some (escaped false, [])
    | ' ' => some (ending, [])
    | '\t' => some (ending, [])
    | char => some (plain, [char])
  | strong => if char = '\'' then some (plain, []) else some (strong, [char])
  | weak => match char with
    | '$' => some (name true [], [])
    | '"' => some (plain, [])
    | '\\' => some (escaped true, [])
    | char => some (weak, [char])
  | escaped quoted =>
    if char = '\\' || char = '\'' || char = '"' || char = '$' || char = ' ' then some (unquoted quoted, [char])
    else if char = 'n' then some (unquoted quoted, ['\n'])
    else none
  | name quoted read =>
    if isAlphanumeric char then some (name quoted (read ++ [char]), [])
    else if char = '\x7b' && read.isEmpty then some (braced quoted [], [])
    else
      let value := substitute environment read
      if char = '$' then some (name quoted [], value) else some (unquoted quoted, value ++ [char])
  | braced quoted read =>
    if char = '\x7d' then some (unquoted quoted, substitute environment read)
    else some (braced quoted (read ++ [char]), [])
  | ending =>
    if char = ' ' || char = '\t' then some (ending, [])
    else if char = '#' then some (comment, [])
    else none
  | comment => some (comment, [])

def Mode.finish (environment : Environment) : Mode → Option (List Char)
  | plain | ending | comment | escaped false => some []
  | name false read => some (substitute environment read)
  | strong | weak | escaped true | name true _ | braced _ _ => none

def readValue (environment : Environment) (mode : Mode) : List Char → Option (List Char)
  | [] => mode.finish environment
  | char :: rest => do
    let (mode, added) ← mode.next environment char
    return added ++ (← readValue environment mode rest)

def readAssignment (environment : Environment) (line : List Char) : Option (List Char × List Char) := do
  let (first, rest) ← readName line
  let (variableName, rest) ←
    if first = "export".toList && rest.head? ≠ some '=' then readName rest else some (first, rest)
  match rest with
  | '=' :: rest =>
    let text := trimStart rest
    if text.isEmpty || text.head? = some '#' then return (variableName, [])
    return (variableName, ← readValue environment .plain text)
  | _ => none

def assign (environment : Environment) (variableName value : String) : Environment := fun other =>
  match environment other with
  | some present => some present
  | none => if other = variableName then some value else none

def isStorable (value : List Char) : Bool := !value.contains '\x00'

/-- Applies lines up to the first that cannot be read. A value that no variable can have is fatal, unless the variable is
set already. -/
def applyLines (environment : Environment) : List (Option (List Char)) → Option Environment
  | [] => some environment
  | none :: _ => some environment
  | some line :: rest =>
    let line := trimStart (trimEnd line)
    if line.isEmpty || line.head? = some '#' then applyLines environment rest
    else match readAssignment environment line with
      | some (letters, value) =>
        let variableName := String.ofList letters
        if (environment variableName).isNone && !isStorable value then none
        else applyLines (assign environment variableName (String.ofList value)) rest
      | none => some environment

def runs (test : Char → Bool) : List Char → List (List Char)
  | [] => []
  | char :: rest =>
    if test char then
      match rest, runs test rest with
      | next :: _, run :: later => if test next then (char :: run) :: later else [char] :: run :: later
      | _, later => [char] :: later
    else runs test rest

def mentionedNames (text : String) : List String :=
  ((runs isNameChar text.toList) ++ runs isAlphanumeric text.toList).map String.ofList

def load (environment : Environment) (text : String) : Option Environment :=
  let chars := match text.toList with
    | '\ufeff' :: rest => rest
    | chars => chars
  applyLines environment (logicalLines [] .plain (physicalLines chars))

end LeasedIds.Cli.EnvFile
