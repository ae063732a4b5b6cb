import LeasedIds.Proofs.Json.Skipping

namespace LeasedIds.Json

variable {text rest pad name body digits : List Char}

theorem spells_self (plain : ∀ char ∈ name, Plain char) : Spells name name := by
  induction name with
  | nil => exact .nil
  | cons char name hypothesis =>
      obtain ⟨plain, later⟩ := List.forall_mem_cons.1 plain
      exact .plain plain (hypothesis later)

theorem readEscape_short {letter char : Char} (known : shortEscape? letter = some char) :
    readEscape (letter :: rest) = .ok (char, rest) := by
  unfold readEscape
  split
  · contradiction
  next unit => exact absurd (List.cons.inj unit).1 (ne_of_shortEscape? (by simp [known]))
  next found =>
    obtain ⟨rfl, rfl⟩ := List.cons.inj found
    rw [known]

theorem readEscape_unit {unit : Nat} (isUnit : IsUnit unit digits) (not_high : isHighSurrogate unit = false)
    (not_low : isLowSurrogate unit = false) : readEscape ('u' :: (digits ++ rest)) = .ok (.ofNat unit, rest) := by
  simp [readEscape, readHex_append isUnit, not_high, not_low, bind, Except.bind]

theorem readLowUnit_append {low : Nat} (isUnit : IsUnit low digits) (is_low : isLowSurrogate low = true) :
    readLowUnit ('\\' :: 'u' :: (digits ++ rest)) = .ok (low, rest) := by
  simp [readLowUnit, readHex_append isUnit, is_low, bind, Except.bind]

theorem readEscape_pair {high low : Nat} {digits' : List Char} (first : IsUnit high digits) (second : IsUnit low digits')
    (is_high : isHighSurrogate high = true) (is_low : isLowSurrogate low = true) :
    readEscape ('u' :: (digits ++ '\\' :: 'u' :: (digits' ++ rest))) =
      .ok (.ofNat (0x10000 + (high - 0xD800) * 0x400 + (low - 0xDC00)), rest) := by
  simp [readEscape, readHex_append first, is_high, readLowUnit_append second is_low, bind, Except.bind]

theorem readString_escape {char : Char} {later : List Char} (escape : readEscape text = .ok (char, later)) :
    readString ('\\' :: text) = (fun (chars, rest) => (char :: chars, rest)) <$> readString later := by
  rw [readString]
  split
  next refused =>
    rw [escape] at refused
    contradiction
  next found =>
    obtain ⟨rfl, rfl⟩ := Prod.mk.inj (Except.ok.inj (escape.symm.trans found))
    rfl

theorem readString_spelled (spells : Spells name body) : readString (body ++ '"' :: rest) = .ok (name, rest) := by
  induction spells with
  | nil => simp [readString]
  | plain plain _ hypothesis =>
      obtain ⟨quote, backslash, printable⟩ := plain
      rw [List.cons_append, readString, if_neg (Nat.not_lt.2 printable), hypothesis]
      · rfl
      · exact quote
      · exact backslash
  | short known _ hypothesis =>
      rw [List.cons_append, List.cons_append, readString_escape (readEscape_short known), hypothesis]
      rfl
  | unit isUnit not_high not_low _ hypothesis =>
      rw [List.cons_append, List.cons_append, List.append_assoc,
        readString_escape (readEscape_unit isUnit not_high not_low), hypothesis]
      rfl
  | pair first second is_high is_low _ hypothesis =>
      simp only [List.cons_append, List.append_assoc]
      rw [readString_escape (readEscape_pair first second is_high is_low), hypothesis]
      rfl

def wordText (word : UInt64) : List Char := Nat.toDigits 10 word.toNat

theorem wordText_inj {word word' : UInt64} (same : wordText word = wordText word') : word = word' := by
  have numbers := congrArg (Nat.ofDigitChars 10 · 0) same
  simp only [wordText, Nat.ofDigitChars_ten_toDigits] at numbers
  exact UInt64.toNat_inj.1 numbers

theorem isValue_wordText (word : UInt64) : IsValue (wordText word) := by
  obtain ⟨digits, canonical, value⟩ := exists_canonical word.toNat
  have magnitude : IsMagnitude { negative := false, whole := digits } (digits.map Nat.digitChar ++ (fractionText [] ++ [])) :=
    .digits canonical (List.forall_mem_nil _) .absent
  rw [wordText, ← value, toDigits_ofDigits canonical]
  exact .number (.unsigned rfl (by simpa [fractionText] using magnitude))

/-- The value can be read by itself: a number is in the range of double precision, and a string stands for characters. -/
structure Readable (value : List Char) : Prop where
  inRange : ∀ numeral, IsNumber numeral value → numeral.inRange = true
  spelled : ∀ body, value = '"' :: (body ++ ['"']) → ∃ name, Spells name body

theorem readWord_pad (blank : Blank pad) : readWord (pad ++ text) = readWord text := by
  simp only [readWord, skipBlank_pad blank]

theorem IsNumber.eq_wordText {numeral : Numeral} (isNumber : IsNumber numeral text) {word : UInt64}
    (found : numeral.word? = some word) : text = wordText word := by
  obtain ⟨plain, value⟩ := word?_eq_some_iff.1 found
  have positive : numeral.negative = false := by rw [plain]
  cases isNumber with
  | signed negative => simp [positive] at negative
  | unsigned _ magnitude =>
      cases magnitude with
      | @digits negative whole fraction exponent? power canonical lt_ten exponent =>
          obtain ⟨rfl, rfl, rfl⟩ : negative = false ∧ fraction = [] ∧ exponent? = none := by simpa using plain
          cases exponent
          rw [wordText, ← value, toDigits_ofDigits canonical]
          simp [fractionText]

theorem readNumber_append {numeral : Numeral} (isNumber : IsNumber numeral text) (ends : Ends rest) :
    readNumber (text ++ rest) = if numeral.inRange then .ok (numeral, rest) else .error .malformed := by
  cases isNumber with
  | signed negative magnitude =>
      have read : readNumeral .truncated numeral.negative _ = _ := readNumeral_append magnitude ends
      rw [negative] at read
      exact congrArg checkRange read
  | unsigned plain magnitude =>
      have read : readNumeral .truncated numeral.negative _ = _ := readNumeral_append magnitude ends
      obtain ⟨digit, later, small, rfl⟩ := magnitude.exists_digit
      rw [plain, List.cons_append] at read
      rw [List.cons_append, readNumber_of_ne (digitChar_ne_minus small), read]
      rfl

theorem startsNumber_append {numeral : Numeral} (isNumber : IsNumber numeral text) (rest : List Char) :
    skipBlank (text ++ rest) = text ++ rest ∧ startsNumber (text ++ rest) = true := by
  cases isNumber with
  | signed => exact ⟨rfl, rfl⟩
  | unsigned _ magnitude =>
      obtain ⟨digit, later, small, rfl⟩ := magnitude.exists_digit
      exact ⟨skipBlank_append blank_nil (isBlank_digitChar small), startsNumber_digitChar small⟩

theorem readWord_number {numeral : Numeral} (isNumber : IsNumber numeral text) (ends : Ends rest) :
    readWord (text ++ rest) =
      if numeral.inRange then
        match numeral.word? with
        | some word => .ok (word, rest)
        | none => .error .unsuitable
      else .error .malformed := by
  obtain ⟨shown, starts⟩ := startsNumber_append isNumber rest
  simp only [readWord, shown, starts, if_true, readNumber_append isNumber ends]
  split <;> rfl

theorem ends_nil : Ends [] := by
  simp [Ends]

theorem readable_wordText (word : UInt64) : Readable (wordText word) where
  inRange numeral isNumber := by
    have read : readWord (wordText word ++ []) = .ok (word, []) := readWord_toDigits ends_nil
    rw [readWord_number isNumber ends_nil] at read
    by_contra beyond
    simp [beyond] at read
  spelled body same := by
    obtain ⟨digit, later, small, digits⟩ := exists_digit_cons word.toNat
    rw [wordText, digits] at same
    interval_cases digit <;> simp at same

/-- The value is no word, and the reading blames its kind, if the value can be read by itself. -/
def Refused (value : List Char) (read : Except Fault (UInt64 × List Char)) : Prop :=
  (∀ word, value ≠ wordText word) ∧ ∃ fault, read = .error fault ∧ (Readable value → fault = .unsuitable)

theorem ne_wordText {fault : Fault} (ends : Ends rest) (refused : readWord (text ++ rest) = .error fault) (word : UInt64) :
    text ≠ wordText word := by
  rintro rfl
  rw [wordText, readWord_toDigits ends] at refused
  contradiction

theorem refused_of_error {fault : Fault} (ends : Ends rest) (refused : readWord (text ++ rest) = .error fault)
    (kind : Readable text → fault = .unsuitable) : Refused text (readWord (text ++ rest)) :=
  ⟨ne_wordText ends refused, fault, refused, kind⟩

theorem readWord_string (body rest : List Char) :
    readWord ('"' :: (body ++ '"' :: rest)) = .error (unwanted (readString (body ++ '"' :: rest))) := rfl

theorem readWord_value (value : IsValue text) (ends : Ends rest) :
    (∃ word, text = wordText word ∧ readWord (text ++ rest) = .ok (word, rest)) ∨
      Refused text (readWord (text ++ rest)) := by
  cases value with
  | @number numeral _ isNumber =>
      have read := readWord_number isNumber ends
      cases found : numeral.word? with
      | some word =>
          obtain rfl := isNumber.eq_wordText found
          exact .inl ⟨word, rfl, readWord_toDigits ends⟩
      | none =>
          simp only [found] at read
          refine .inr (refused_of_error ends (read.trans (apply_ite Except.error _ _ _).symm) fun readable => ?_)
          rw [if_pos (readable.inRange numeral isNumber)]
  | literal known =>
      simp only [List.mem_cons, List.not_mem_nil, or_false] at known
      obtain rfl | rfl | rfl := known <;> exact .inr (refused_of_error ends rfl fun _ => rfl)
  | @string body isBody =>
      have shape : '"' :: (body ++ ['"']) ++ rest = '"' :: (body ++ '"' :: rest) := by simp
      refine .inr (refused_of_error ends (by rw [shape, readWord_string]) fun readable => ?_)
      obtain ⟨name, spells⟩ := readable.spelled body rfl
      rw [readString_spelled spells]
      rfl
  | array | object => exact .inr (refused_of_error ends rfl fun _ => rfl)

end LeasedIds.Json
