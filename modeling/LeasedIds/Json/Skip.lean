import LeasedIds.Json.Scan

namespace LeasedIds.Json

def skipColon (text : List Char) : Except Fault (List Char) :=
  match skipBlank text with
  | [] => .error .truncated
  | ':' :: rest => .ok rest
  | _ => .error .malformed

mutual

def skipNested : Nat → List Char → Except Fault (List Char)
  | 0, _ => .error .malformed
  | fuel + 1, text =>
    match skipBlank text with
    | [] => .error .truncated
    | 'n' :: rest => expect ['u', 'l', 'l'] rest
    | 't' :: rest => expect ['r', 'u', 'e'] rest
    | 'f' :: rest => expect ['a', 'l', 's', 'e'] rest
    | '"' :: rest => skipString rest
    | '[' :: rest => skipElements fuel true rest
    | '{' :: rest => skipMembers fuel true rest
    | '-' :: rest => (·.2) <$> readNumeral .malformed true rest
    | rest => (·.2) <$> readNumeral .malformed false rest

def skipElements : Nat → Bool → List Char → Except Fault (List Char)
  | 0, _, _ => .error .malformed
  | fuel + 1, first, text =>
    match skipBlank text with
    | [] => .error .truncated
    | ']' :: rest => .ok rest
    | ',' :: rest => do
      if first then .error .malformed
      skipElements fuel false (← skipNested fuel rest)
    | rest => do
      if !first then .error .malformed
      skipElements fuel false (← skipNested fuel rest)

def skipMembers : Nat → Bool → List Char → Except Fault (List Char)
  | 0, _, _ => .error .malformed
  | fuel + 1, first, text => do
    let rest ← match skipBlank text with
      | '}' :: rest => return rest
      | ',' :: rest => if first then .error .malformed else .ok rest
      | [] => .error .truncated
      | rest => if first then .ok rest else .error .malformed
    match skipBlank rest with
    | [] => .error .truncated
    | '"' :: rest => do
      let rest ← skipColon (← skipString rest)
      skipMembers fuel false (← skipNested fuel rest)
    | _ => .error .malformed

end

/-- Passes over one value. Every two levels of the recursion use up a character. -/
def skipValue (text : List Char) : Except Fault (List Char) := skipNested (2 * text.length + 1) text

end LeasedIds.Json
