import LeasedIds.Proofs.Json.Records

namespace LeasedIds.Json

/-! ## Strings -/

inductive IsUnit : Nat → List Char → Prop where
  | digits {first second third fourth : Char} {a b c d : Nat} (first_eq : hexValue? first = some a)
      (second_eq : hexValue? second = some b) (third_eq : hexValue? third = some c)
      (fourth_eq : hexValue? fourth = some d) :
      IsUnit (((a * 16 + b) * 16 + c) * 16 + d) [first, second, third, fourth]

/-- What may stand between the quotes of a string. Surrogates may stand alone. -/
inductive IsBody : List Char → Prop where
  | nil : IsBody []
  | plain {char : Char} {body : List Char} (plain : Plain char) (rest : IsBody body) : IsBody (char :: body)
  | short {letter : Char} {body : List Char} (known : (shortEscape? letter).isSome) (rest : IsBody body) :
      IsBody ('\\' :: letter :: body)
  | unit {unit : Nat} {digits body : List Char} (isUnit : IsUnit unit digits) (rest : IsBody body) :
      IsBody ('\\' :: 'u' :: (digits ++ body))

/-- The characters that the text between two quotes stands for. Surrogates come in pairs. -/
inductive Spells : List Char → List Char → Prop where
  | nil : Spells [] []
  | plain {char : Char} {name body : List Char} (plain : Plain char) (rest : Spells name body) :
      Spells (char :: name) (char :: body)
  | short {letter char : Char} {name body : List Char} (known : shortEscape? letter = some char)
      (rest : Spells name body) : Spells (char :: name) ('\\' :: letter :: body)
  | unit {unit : Nat} {digits name body : List Char} (isUnit : IsUnit unit digits)
      (not_high : isHighSurrogate unit = false) (not_low : isLowSurrogate unit = false) (rest : Spells name body) :
      Spells (.ofNat unit :: name) ('\\' :: 'u' :: (digits ++ body))
  | pair {high low : Nat} {digits digits' name body : List Char} (first : IsUnit high digits)
      (second : IsUnit low digits') (is_high : isHighSurrogate high = true) (is_low : isLowSurrogate low = true)
      (rest : Spells name body) :
      Spells (.ofNat (0x10000 + (high - 0xD800) * 0x400 + (low - 0xDC00)) :: name)
        ('\\' :: 'u' :: (digits ++ '\\' :: 'u' :: (digits' ++ body)))

/-! ## Numbers -/

inductive IsExponent : Option Int → List Char → Prop where
  | absent : IsExponent none []
  | written {mark : Char} {factor : Int} {sign : List Char} {digits : List Nat} (marked : mark = 'e' ∨ mark = 'E')
      (signed : (factor, sign) ∈ [((1 : Int), []), (1, ['+']), (-1, ['-'])]) (ne_nil : digits ≠ [])
      (lt_ten : ∀ digit ∈ digits, digit < 10) :
      IsExponent (some (factor * ofDigits digits)) (mark :: (sign ++ digits.map Nat.digitChar))

def fractionText : List Nat → List Char
  | [] => []
  | digits => '.' :: digits.map Nat.digitChar

inductive IsMagnitude : Numeral → List Char → Prop where
  | digits {negative : Bool} {whole fraction : List Nat} {exponent? : Option Int} {power : List Char}
      (canonical : Canonical whole) (lt_ten : ∀ digit ∈ fraction, digit < 10) (exponent : IsExponent exponent? power) :
      IsMagnitude { negative, whole, fraction, exponent? } (whole.map Nat.digitChar ++ (fractionText fraction ++ power))

inductive IsNumber : Numeral → List Char → Prop where
  | unsigned {numeral : Numeral} {text : List Char} (plain : numeral.negative = false)
      (magnitude : IsMagnitude numeral text) : IsNumber numeral text
  | signed {numeral : Numeral} {text : List Char} (negative : numeral.negative = true)
      (magnitude : IsMagnitude numeral text) : IsNumber numeral ('-' :: text)

/-! ## Values -/

theorem blank_nil : Blank [] := List.forall_mem_nil _

structure Element where
  before : List Char := []
  value : List Char
  after : List Char := []
  blank_before : Blank before := by exact blank_nil
  blank_after : Blank after := by exact blank_nil

def Element.text (element : Element) : List Char := element.before ++ (element.value ++ element.after)

structure Member where
  before : List Char := []
  key : List Char
  gap : List Char := []
  element : Element
  blank_before : Blank before := by exact blank_nil
  blank_gap : Blank gap := by exact blank_nil

def Member.text (member : Member) : List Char :=
  member.before ++ '"' :: (member.key ++ '"' :: (member.gap ++ ':' :: member.element.text))

/-- Items with a comma before each but the first; `first` if none stands before them. -/
def row {α : Type} (text : α → List Char) : Bool → List α → List Char
  | _, [] => []
  | first, item :: items => (if first then [] else [',']) ++ (text item ++ row text false items)

inductive IsValue : List Char → Prop where
  | literal {word : List Char}
      (known : word ∈ [['n', 'u', 'l', 'l'], ['t', 'r', 'u', 'e'], ['f', 'a', 'l', 's', 'e']]) : IsValue word
  | number {numeral : Numeral} {text : List Char} (isNumber : IsNumber numeral text) : IsValue text
  | string {body : List Char} (isBody : IsBody body) : IsValue ('"' :: (body ++ ['"']))
  | array {pad : List Char} {elements : List Element} (blank : Blank pad)
      (values : ∀ element ∈ elements, IsValue element.value) :
      IsValue ('[' :: (pad ++ (row Element.text true elements ++ [']'])))
  | object {pad : List Char} {members : List Member} (blank : Blank pad)
      (keys : ∀ member ∈ members, IsBody member.key) (values : ∀ member ∈ members, IsValue member.element.value) :
      IsValue ('{' :: (pad ++ (row Member.text true members ++ ['}'])))

end LeasedIds.Json
