import LeasedIds.Proofs.Json.Grammar

namespace LeasedIds.Json

variable {text rest body digits power : List Char} {cut : Fault}

/-! ## Strings -/

theorem readHex_append {unit : Nat} (isUnit : IsUnit unit digits) : readHex (digits ++ rest) = .ok (unit, rest) := by
  cases isUnit with
  | digits first second third fourth => simp [readHex, first, second, third, fourth]

theorem ne_of_shortEscape? {letter : Char} (known : (shortEscape? letter).isSome) : letter ≠ 'u' := by
  rintro rfl
  contradiction

theorem skipEscape_short {letter : Char} (known : (shortEscape? letter).isSome) :
    skipEscape (letter :: rest) = .ok rest := by
  unfold skipEscape
  split
  · contradiction
  next unit => exact absurd (List.cons.inj unit).1 (ne_of_shortEscape? known)
  next found =>
    obtain ⟨rfl, rfl⟩ := List.cons.inj found
    rw [if_pos known]

theorem skipEscape_unit {unit : Nat} (isUnit : IsUnit unit digits) : skipEscape ('u' :: (digits ++ rest)) = .ok rest := by
  simp [skipEscape, readHex_append isUnit, Functor.map, Except.map]

theorem skipString_escape {later : List Char} (escape : skipEscape text = .ok later) :
    skipString ('\\' :: text) = skipString later := by
  rw [skipString]
  split
  next refused =>
    rw [escape] at refused
    contradiction
  next passed =>
    obtain rfl := Except.ok.inj (escape.symm.trans passed)
    rfl

theorem skipString_append (isBody : IsBody body) : skipString (body ++ '"' :: rest) = .ok rest := by
  induction isBody with
  | nil => simp [skipString]
  | plain plain _ hypothesis =>
      obtain ⟨quote, backslash, printable⟩ := plain
      rw [List.cons_append, skipString, if_neg (Nat.not_lt.2 printable), hypothesis]
      · exact quote
      · exact backslash
  | short known _ hypothesis => exact (skipString_escape (skipEscape_short known)).trans hypothesis
  | unit isUnit _ hypothesis =>
      rw [List.cons_append, List.cons_append, List.append_assoc, skipString_escape (skipEscape_unit isUnit), hypothesis]

/-! ## Numbers -/

theorem digitChar_ne_plus {digit : Nat} (small : digit < 10) : digit.digitChar ≠ '+' := by
  interval_cases digit <;> decide

theorem readExponent_append {exponent? : Option Int} (exponent : IsExponent exponent? power) (ends : Ends rest) :
    readExponent cut (power ++ rest) = .ok (exponent?, rest) := by
  obtain ⟨stops, _, lower, upper⟩ := ends_iff.1 ends
  cases exponent with
  | absent => exact readExponent_eq_none_iff.2 ⟨rfl, lower, upper⟩
  | @written mark factor sign values marked signed ne_nil lt_ten =>
      have read := readDigits_append lt_ten stops
      obtain ⟨first, others, rfl⟩ := List.exists_cons_of_ne_nil ne_nil
      have plus := digitChar_ne_plus (lt_ten first List.mem_cons_self)
      have minus := digitChar_ne_minus (lt_ten first List.mem_cons_self)
      simp only [List.map_cons, List.cons_append] at read
      simp only [List.mem_cons, Prod.mk.injEq, List.not_mem_nil, or_false] at signed
      obtain ⟨rfl, rfl⟩ | ⟨rfl, rfl⟩ | ⟨rfl, rfl⟩ := signed <;> obtain rfl | rfl := marked <;>
        simp [readExponent, read, plus, minus]

theorem readFraction_append {fraction : List Nat} (lt_ten : ∀ digit ∈ fraction, digit < 10)
    (stops : ∀ char ∈ rest.head?, digitValue? char = none) (point : '.' ∉ rest.head?) :
    readFraction cut (fractionText fraction ++ rest) = .ok (fraction, rest) := by
  cases fraction with
  | nil => exact readFraction_eq_nil_iff.2 ⟨rfl, point⟩
  | cons digit digits =>
      have read := readDigits_append lt_ten stops
      simp only [fractionText, List.cons_append, readFraction, read]

theorem IsExponent.stops {exponent? : Option Int} (exponent : IsExponent exponent? power) (ends : Ends rest) :
    (∀ char ∈ (power ++ rest).head?, digitValue? char = none) ∧ '.' ∉ (power ++ rest).head? := by
  cases exponent with
  | absent => exact ⟨(ends_iff.1 ends).1, (ends_iff.1 ends).2.1⟩
  | written marked => obtain rfl | rfl := marked <;> simp [digitValue?]

theorem fractionText_stops {fraction : List Nat} (stops : ∀ char ∈ rest.head?, digitValue? char = none) :
    ∀ char ∈ (fractionText fraction ++ rest).head?, digitValue? char = none := by
  cases fraction with
  | nil => exact stops
  | cons digit digits => simp [fractionText, digitValue?]

theorem readNumeral_append {numeral : Numeral} (magnitude : IsMagnitude numeral text) (ends : Ends rest) :
    readNumeral cut numeral.negative (text ++ rest) = .ok (numeral, rest) := by
  cases magnitude with
  | @digits negative whole fraction exponent? power canonical lt_ten exponent =>
      obtain ⟨stops, point⟩ := exponent.stops ends
      have wholeRead : readWhole cut (whole.map Nat.digitChar ++ (fractionText fraction ++ (power ++ rest))) = _ :=
        readWhole_eq_ok_iff.2 ⟨canonical, rfl, fractionText_stops stops⟩
      simp only [List.append_assoc, readNumeral, wholeRead, readFraction_append lt_ten stops point,
        readExponent_append exponent ends, bind, Except.bind, pure, Except.pure]

/-! ## Beginnings and ends -/

theorem Ends.append {pad : List Char} (blank : Blank pad) (ends : Ends rest) : Ends (pad ++ rest) := by
  cases pad with
  | nil => exact ends
  | cons char pad => exact fun first found => blank.ends first found

def Begins (char : Char) : Prop := isBlank char = false ∧ char ≠ ',' ∧ char ≠ ']' ∧ char ≠ '}'

theorem begins_digitChar {digit : Nat} (small : digit < 10) : Begins digit.digitChar := by
  interval_cases digit <;> simp [Begins, isBlank]

theorem IsMagnitude.exists_digit {numeral : Numeral} (magnitude : IsMagnitude numeral text) :
    ∃ digit later, digit < 10 ∧ text = digit.digitChar :: later := by
  cases magnitude with
  | digits canonical =>
      obtain ⟨digit, later, rfl⟩ := List.exists_cons_of_ne_nil canonical.ne_nil
      exact ⟨digit, _, canonical.lt_ten digit List.mem_cons_self, rfl⟩

theorem IsValue.begins (value : IsValue text) : ∃ char later, text = char :: later ∧ Begins char := by
  cases value with
  | literal known =>
      simp only [List.mem_cons, List.not_mem_nil, or_false] at known
      obtain rfl | rfl | rfl := known <;> exact ⟨_, _, rfl, by decide, by decide, by decide, by decide⟩
  | number isNumber =>
      cases isNumber with
      | unsigned plain magnitude =>
          obtain ⟨digit, later, small, rfl⟩ := magnitude.exists_digit
          exact ⟨_, _, rfl, begins_digitChar small⟩
      | signed => exact ⟨_, _, rfl, by decide, by decide, by decide, by decide⟩
  | string | array | object => exact ⟨_, _, rfl, by decide, by decide, by decide, by decide⟩

/-! ## Values -/

variable {pad : List Char} {char : Char} {fuel : Nat} {first : Bool}

theorem skipBlank_pad (blank : Blank pad) (text : List Char) : skipBlank (pad ++ text) = skipBlank text :=
  List.dropWhile_append_of_pos blank

theorem skipNested_pad (blank : Blank pad) : skipNested fuel (pad ++ text) = skipNested fuel text := by
  cases fuel <;> simp only [skipNested, skipBlank_pad blank]

theorem skipElements_pad (blank : Blank pad) : skipElements fuel first (pad ++ text) = skipElements fuel first text := by
  cases fuel <;> simp only [skipElements, skipBlank_pad blank]

theorem skipMembers_pad (blank : Blank pad) : skipMembers fuel first (pad ++ text) = skipMembers fuel first text := by
  cases fuel <;> simp only [skipMembers, skipBlank_pad blank]

theorem skipColon_pad (blank : Blank pad) : skipColon (pad ++ ':' :: rest) = .ok rest := by
  rw [skipColon, skipBlank_pad blank]
  rfl

def Skipped (text : List Char) : Prop :=
  ∀ {fuel : Nat} {rest : List Char}, 2 * text.length ≤ fuel + 1 → Ends rest →
    skipNested (fuel + 1) (text ++ rest) = .ok rest

theorem ends_row {α : Type} (write : α → List Char) (items : List α) (close : Ends rest) :
    Ends (row write false items ++ rest) := by
  cases items with
  | nil => exact close
  | cons item items => simp [row, Ends, digitValue?]

theorem ends_after {α : Type} (write : α → List Char) (items : List α) (blank : Blank pad) {close : Char}
    (closes : close = ']' ∨ close = '}') : Ends (pad ++ (row write false items ++ close :: rest)) := by
  refine Ends.append blank (ends_row write items ?_)
  obtain rfl | rfl := closes <;> simp [Ends, digitValue?]

theorem skipElements_first (begins : Begins char) :
    skipElements (fuel + 1) true (char :: rest) = skipNested fuel (char :: rest) >>= skipElements fuel false := by
  obtain ⟨visible, comma, bracket, _⟩ := begins
  have shown : skipBlank (char :: rest) = char :: rest := skipBlank_append blank_nil visible
  rw [skipElements, shown]
  split
  · contradiction
  next closes => exact absurd (List.cons.inj closes).1 bracket
  next separates => exact absurd (List.cons.inj separates).1 comma
  · rfl

theorem skipElements_element {element : Element} (value : IsValue element.value) :
    skipElements (fuel + 1) first ((if first then [] else [',']) ++ (element.text ++ rest)) =
      skipNested fuel (element.value ++ (element.after ++ rest)) >>= skipElements fuel false := by
  have text : element.text ++ rest = element.before ++ (element.value ++ (element.after ++ rest)) := by
    simp [Element.text]
  rw [text]
  cases first with
  | true =>
      obtain ⟨char, later, same, begins⟩ := value.begins
      rw [if_pos rfl, List.nil_append, skipElements_pad element.blank_before, same, List.cons_append,
        skipElements_first begins]
  | false =>
      rw [← skipNested_pad element.blank_before]
      rfl

theorem skipElements_row {elements : List Element} (values : ∀ element ∈ elements, IsValue element.value)
    (skipped : ∀ element ∈ elements, Skipped element.value)
    (long : 2 * (row Element.text first elements).length ≤ fuel) :
    skipElements (fuel + 1) first (row Element.text first elements ++ ']' :: rest) = .ok rest := by
  induction elements generalizing first fuel with
  | nil => rfl
  | cons element elements hypothesis =>
      obtain ⟨value, values⟩ := List.forall_mem_cons.1 values
      obtain ⟨skips, skipped⟩ := List.forall_mem_cons.1 skipped
      obtain ⟨char, later, same, _⟩ := value.begins
      have filled : 1 ≤ element.value.length := by simp [same]
      simp only [row, Element.text, List.length_append] at long
      obtain ⟨fuel, rfl⟩ := Nat.exists_eq_add_of_le' (show 1 ≤ fuel by omega)
      have ends : Ends (element.after ++ (row Element.text false elements ++ ']' :: rest)) :=
        ends_after _ _ element.blank_after (.inl rfl)
      rw [row, List.append_assoc, List.append_assoc, skipElements_element value, skips (by omega) ends]
      exact (skipElements_pad element.blank_after).trans (hypothesis values skipped (by omega))

theorem skipMembers_key :
    skipMembers (fuel + 1) true ('"' :: text) = (do
      let rest ← skipColon (← skipString text)
      skipMembers fuel false (← skipNested fuel rest)) := rfl

theorem skipMembers_next {later : List Char} (opens : skipBlank text = '"' :: later) :
    skipMembers (fuel + 1) false (',' :: text) = skipMembers (fuel + 1) true ('"' :: later) := by
  have comma : skipBlank (',' :: text) = ',' :: text := rfl
  rw [skipMembers_key, skipMembers, comma]
  simp only [Bool.false_eq_true, if_false, bind, Except.bind, opens]

theorem skipMembers_member {member : Member} (isBody : IsBody member.key) :
    skipMembers (fuel + 1) first ((if first then [] else [',']) ++ (member.text ++ rest)) =
      skipNested fuel (member.element.value ++ (member.element.after ++ rest)) >>= skipMembers fuel false := by
  let value := member.element.before ++ (member.element.value ++ (member.element.after ++ rest))
  let afterQuote := member.key ++ '"' :: (member.gap ++ ':' :: value)
  have text : member.text ++ rest = member.before ++ '"' :: afterQuote := by
    simp [Member.text, Element.text, afterQuote, value]
  have passed : skipString afterQuote = .ok (member.gap ++ ':' :: value) := skipString_append isBody
  have opened : skipMembers (fuel + 1) true ('"' :: afterQuote) = skipNested fuel value >>= skipMembers fuel false := by
    rw [skipMembers_key, passed]
    simp only [skipColon_pad member.blank_gap, bind, Except.bind]
  rw [text, ← skipNested_pad member.element.blank_before, ← opened]
  cases first with
  | true => exact skipMembers_pad member.blank_before
  | false => exact skipMembers_next (skipBlank_pad member.blank_before _)

theorem skipMembers_row {members : List Member} (keys : ∀ member ∈ members, IsBody member.key)
    (skipped : ∀ member ∈ members, Skipped member.element.value)
    (long : 2 * (row Member.text first members).length ≤ fuel) :
    skipMembers (fuel + 1) first (row Member.text first members ++ '}' :: rest) = .ok rest := by
  induction members generalizing first fuel with
  | nil => rfl
  | cons member members hypothesis =>
      obtain ⟨isBody, keys⟩ := List.forall_mem_cons.1 keys
      obtain ⟨skips, skipped⟩ := List.forall_mem_cons.1 skipped
      simp only [row, Member.text, Element.text, List.length_append, List.length_cons] at long
      obtain ⟨fuel, rfl⟩ := Nat.exists_eq_add_of_le' (show 1 ≤ fuel by omega)
      have ends : Ends (member.element.after ++ (row Member.text false members ++ '}' :: rest)) :=
        ends_after _ _ member.element.blank_after (.inr rfl)
      rw [row, List.append_assoc, List.append_assoc, skipMembers_member isBody, skips (by omega) ends]
      exact (skipMembers_pad member.element.blank_after).trans (hypothesis keys skipped (by omega))

theorem skipNested_digit {digit : Nat} (small : digit < 10) :
    skipNested (fuel + 1) (digit.digitChar :: rest) =
      (·.2) <$> readNumeral .malformed false (digit.digitChar :: rest) := by
  interval_cases digit <;> rfl

theorem skipped_number {numeral : Numeral} (isNumber : IsNumber numeral text) : Skipped text := by
  intro fuel rest _ ends
  cases isNumber with
  | unsigned plain magnitude =>
      have read : readNumeral .malformed numeral.negative _ = _ := readNumeral_append magnitude ends
      obtain ⟨digit, later, small, rfl⟩ := magnitude.exists_digit
      rw [plain, List.cons_append] at read
      rw [List.cons_append, skipNested_digit small, read]
      rfl
  | signed negative magnitude =>
      have read : readNumeral .malformed numeral.negative _ = _ := readNumeral_append magnitude ends
      rw [negative] at read
      exact congrArg (Functor.map Prod.snd) read

theorem IsValue.skipped (value : IsValue text) : Skipped text := by
  induction value with
  | number isNumber => exact skipped_number isNumber
  | literal known =>
      intro fuel rest _ _
      simp only [List.mem_cons, List.not_mem_nil, or_false] at known
      obtain rfl | rfl | rfl := known <;> rfl
  | @string body isBody =>
      intro fuel rest _ _
      rw [List.cons_append, List.append_assoc]
      exact skipString_append isBody
  | @array pad elements blank values hypothesis =>
      intro fuel rest long _
      simp only [List.length_cons, List.length_append] at long
      obtain ⟨fuel, rfl⟩ := Nat.exists_eq_add_of_le' (show 1 ≤ fuel by omega)
      rw [List.cons_append, List.append_assoc, List.append_assoc]
      exact (skipElements_pad blank).trans (skipElements_row values hypothesis (by omega))
  | @object pad members blank keys values hypothesis =>
      intro fuel rest long _
      simp only [List.length_cons, List.length_append] at long
      obtain ⟨fuel, rfl⟩ := Nat.exists_eq_add_of_le' (show 1 ≤ fuel by omega)
      rw [List.cons_append, List.append_assoc, List.append_assoc]
      exact (skipMembers_pad blank).trans (skipMembers_row keys hypothesis (by omega))

theorem skipValue_append (value : IsValue text) (blank : Blank pad) (ends : Ends rest) :
    skipValue (pad ++ (text ++ rest)) = .ok rest := by
  refine (skipNested_pad blank).trans (value.skipped ?_ ends)
  simp only [List.length_append]
  omega

end LeasedIds.Json
