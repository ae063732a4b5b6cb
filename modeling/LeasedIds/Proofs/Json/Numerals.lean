import LeasedIds.Json.Record
import Mathlib.Data.List.TakeWhile
import Mathlib.Tactic.IntervalCases

namespace LeasedIds.Json

structure Canonical (digits : List Nat) : Prop where
  ne_nil : digits ≠ []
  lt_ten : ∀ digit ∈ digits, digit < 10
  no_leading_zero : ∀ later, digits = 0 :: later → later = []

variable {digits : List Nat} {text rest : List Char} {cut : Fault}

theorem digitValue?_eq_some_iff {char : Char} {digit : Nat} :
    digitValue? char = some digit ↔ digit < 10 ∧ char = digit.digitChar := by
  constructor
  · intro found
    unfold digitValue? at found
    split at found
    next within =>
      obtain rfl := Option.some.inj found
      have low : 48 ≤ char.toNat := within.1
      have high : char.toNat ≤ 57 := within.2
      have small : char.toNat - '0'.toNat < 10 := by
        show char.toNat - 48 < 10
        omega
      refine ⟨small, Char.toNat_inj.1 ?_⟩
      rw [Nat.toNat_digitChar_of_lt_ten small]
      show char.toNat = 48 + (char.toNat - 48)
      omega
    next => contradiction
  · rintro ⟨small, rfl⟩
    interval_cases digit <;> rfl

theorem digitChar_ne_minus {digit : Nat} (small : digit < 10) : digit.digitChar ≠ '-' := by
  interval_cases digit <;> decide

theorem isBlank_digitChar {digit : Nat} (small : digit < 10) : isBlank digit.digitChar = false := by
  interval_cases digit <;> decide

theorem startsNumber_digitChar {digit : Nat} (small : digit < 10) : startsNumber (digit.digitChar :: text) = true := by
  interval_cases digit <;> rfl

theorem readDigits_spec (text : List Char) :
    text = (readDigits text).1.map Nat.digitChar ++ (readDigits text).2 ∧
      (∀ digit ∈ (readDigits text).1, digit < 10) ∧ ∀ char ∈ (readDigits text).2.head?, digitValue? char = none := by
  induction text with
  | nil => simp [readDigits]
  | cons char rest hypothesis =>
      rw [readDigits]
      cases found : digitValue? char with
      | none => simp [found]
      | some digit =>
          obtain ⟨small, rfl⟩ := digitValue?_eq_some_iff.1 found
          obtain ⟨same, all, ends⟩ := hypothesis
          exact ⟨congrArg (digit.digitChar :: ·) same, List.forall_mem_cons.2 ⟨small, all⟩, ends⟩

theorem readDigits_append (small : ∀ digit ∈ digits, digit < 10)
    (ends : ∀ char ∈ rest.head?, digitValue? char = none) :
    readDigits (digits.map Nat.digitChar ++ rest) = (digits, rest) := by
  induction digits with
  | nil =>
      cases rest with
      | nil => rfl
      | cons char rest => simp [readDigits, ends char rfl]
  | cons digit digits hypothesis =>
      obtain ⟨first, later⟩ := List.forall_mem_cons.1 small
      simp [readDigits, digitValue?_eq_some_iff.2 ⟨first, rfl⟩, hypothesis later]

theorem toDigits_append {value : Nat} (positive : 0 < value) (small : ∀ digit ∈ digits, digit < 10) :
    Nat.toDigits 10 value ++ digits.map Nat.digitChar =
      Nat.toDigits 10 (digits.foldl (fun value digit => value * 10 + digit) value) := by
  induction digits generalizing value with
  | nil => simp
  | cons digit digits hypothesis =>
      obtain ⟨first, later⟩ := List.forall_mem_cons.1 small
      have longer := Nat.toDigits_append_toDigits (b := 10) (by decide) positive first
      rw [Nat.toDigits_of_lt_base first, Nat.mul_comm] at longer
      rw [List.map_cons, List.append_cons, longer]
      exact hypothesis (by omega) later

theorem toDigits_ofDigits (canonical : Canonical digits) :
    Nat.toDigits 10 (ofDigits digits) = digits.map Nat.digitChar := by
  cases digits with
  | nil => exact absurd rfl canonical.ne_nil
  | cons digit later =>
      obtain ⟨small, all⟩ := List.forall_mem_cons.1 canonical.lt_ten
      by_cases zero : digit = 0
      · subst zero
        rw [canonical.no_leading_zero later rfl]
        rfl
      · have grown := toDigits_append (Nat.pos_of_ne_zero zero) all
        rw [Nat.toDigits_of_lt_base small] at grown
        simpa [ofDigits] using grown.symm

theorem exists_canonical (value : Nat) : ∃ digits, Canonical digits ∧ ofDigits digits = value := by
  induction value using Nat.strong_induction_on with
  | _ value hypothesis =>
      by_cases small : value < 10
      · exact ⟨[value], ⟨by simp, by simpa using small, by simp⟩, by simp [ofDigits]⟩
      · obtain ⟨digits, canonical, same⟩ := hypothesis (value / 10) (by omega)
        refine ⟨digits ++ [value % 10], ⟨by simp, ?_, ?_⟩, ?_⟩
        · simp only [List.mem_append, List.mem_singleton]
          rintro digit (before | rfl)
          · exact canonical.lt_ten digit before
          · omega
        · intro later leads
          obtain ⟨more, rfl, _⟩ := List.append_eq_cons_iff.1 leads |>.resolve_left fun empty => canonical.ne_nil empty.1
          rw [canonical.no_leading_zero more rfl] at same
          have : value / 10 = 0 := same.symm
          omega
        · rw [ofDigits, List.foldl_append, ← ofDigits, same]
          simp only [List.foldl_cons, List.foldl_nil]
          omega

/-! ## Numerals -/

/-- What follows does not go on with a number. -/
def Ends (rest : List Char) : Prop :=
  ∀ char ∈ rest.head?, digitValue? char = none ∧ char ≠ '.' ∧ char ≠ 'e' ∧ char ≠ 'E'

theorem readWhole_eq_ok_iff :
    readWhole cut text = .ok (digits, rest) ↔
      Canonical digits ∧ text = digits.map Nat.digitChar ++ rest ∧ ∀ char ∈ rest.head?, digitValue? char = none := by
  constructor
  · obtain ⟨same, small, ends⟩ := readDigits_spec text
    unfold readWhole
    generalize readDigits text = found at same small ends
    intro read
    split at read
    · contradiction
    · contradiction
    next filled single =>
      obtain rfl := Except.ok.inj read
      refine ⟨⟨?_, small, ?_⟩, same, ends⟩
      · rintro rfl
        exact filled rest rfl
      · rintro later rfl
        cases later with
        | nil => rfl
        | cons digit later => exact absurd rfl (single digit later rest)
  · rintro ⟨canonical, rfl, ends⟩
    unfold readWhole
    rw [readDigits_append canonical.lt_ten ends]
    split
    next empty => exact absurd (Prod.mk.inj empty).1 canonical.ne_nil
    next leads =>
      have impossible := canonical.no_leading_zero _ (Prod.mk.inj leads).1
      contradiction
    next => rfl

theorem not_mem_head?_iff {char : Char} : char ∉ text.head? ↔ ∀ later, text ≠ char :: later := by
  cases text <;> simp [eq_comm]

theorem readFraction_eq_nil_iff : readFraction cut text = .ok ([], rest) ↔ rest = text ∧ '.' ∉ text.head? := by
  unfold readFraction
  split
  next later =>
    split
    · simp
    next filled => simpa using fun read => filled rest (by simpa using read)
  next absent => simp [not_mem_head?_iff.2 absent, eq_comm]

theorem readExponent_eq_none_iff :
    readExponent cut text = .ok (none, rest) ↔ rest = text ∧ 'e' ∉ text.head? ∧ 'E' ∉ text.head? := by
  unfold readExponent
  dsimp only
  split
  · split <;> split <;> simp
  · split <;> split <;> simp
  next lower upper => simp [not_mem_head?_iff.2 lower, not_mem_head?_iff.2 upper, eq_comm]

theorem ends_iff : Ends rest ↔
    (∀ char ∈ rest.head?, digitValue? char = none) ∧ '.' ∉ rest.head? ∧ 'e' ∉ rest.head? ∧ 'E' ∉ rest.head? := by
  cases rest <;> simp [Ends, eq_comm]

theorem bind_eq_ok {α β : Type} {read : Except Fault α} {next : α → Except Fault β} {result : β} :
    (read >>= next) = .ok result ↔ ∃ value, read = .ok value ∧ next value = .ok result := by
  cases read <;> simp [bind, Except.bind]

theorem readNumeral_eq_ok_iff {negative : Bool} :
    readNumeral cut negative text = .ok ({ negative, whole := digits }, rest) ↔
      Canonical digits ∧ text = digits.map Nat.digitChar ++ rest ∧ Ends rest := by
  simp only [readNumeral, bind_eq_ok, Prod.exists, pure, Except.pure, Except.ok.injEq, Prod.mk.injEq, Numeral.mk.injEq,
    true_and]
  constructor
  · rintro ⟨_, afterWhole, whole, _, afterFraction, fraction, _, _, exponent, ⟨rfl, rfl, rfl⟩, rfl⟩
    obtain ⟨rfl, lower, upper⟩ := readExponent_eq_none_iff.1 exponent
    obtain ⟨rfl, point⟩ := readFraction_eq_nil_iff.1 fraction
    obtain ⟨canonical, same, ends⟩ := readWhole_eq_ok_iff.1 whole
    exact ⟨canonical, same, ends_iff.2 ⟨ends, point, lower, upper⟩⟩
  · rintro ⟨canonical, same, ends⟩
    obtain ⟨ends, point, lower, upper⟩ := ends_iff.1 ends
    exact ⟨digits, rest, readWhole_eq_ok_iff.2 ⟨canonical, same, ends⟩, [], rest,
      readFraction_eq_nil_iff.2 ⟨rfl, point⟩, none, rest, readExponent_eq_none_iff.2 ⟨rfl, lower, upper⟩, ⟨rfl, rfl, rfl⟩, rfl⟩

theorem le_foldl_digits (value : Nat) (digits : List Nat) :
    value ≤ digits.foldl (fun value digit => value * 10 + digit) value := by
  induction digits generalizing value with
  | nil => exact Nat.le_refl value
  | cons digit digits hypothesis => exact Nat.le_trans (by omega) (hypothesis (value * 10 + digit))

theorem appendDigits_eq {value : Nat} (fits : digits.foldl (fun value digit => value * 10 + digit) value < 2 ^ 64) :
    appendDigits value digits = (digits.foldl (fun value digit => value * 10 + digit) value, 0) := by
  induction digits generalizing value with
  | nil => rfl
  | cons digit digits hypothesis =>
      have small := Nat.lt_of_le_of_lt (le_foldl_digits (value * 10 + digit) digits) fits
      rw [appendDigits, if_pos small]
      exact hypothesis fits

theorem roundToDouble_lt {value : Nat} (fits : value < 2 ^ 64) : roundToDouble value < 2 ^ 65 := by
  have short : value.log2 < 64 := by
    by_cases zero : value = 0
    · simp [zero]
    · exact (Nat.log2_lt zero).2 fits
  unfold roundToDouble
  generalize shift_eq : value.log2 + 1 - 53 = shift
  have narrow : 2 ^ shift ≤ 2 ^ 11 := Nat.pow_le_pow_right (by decide) (by omega)
  have whole : value / 2 ^ shift * 2 ^ shift ≤ value := Nat.div_mul_le_self value (2 ^ shift)
  have up : (value / 2 ^ shift + 1) * 2 ^ shift ≤ value + 2 ^ 11 := by
    rw [Nat.add_mul, Nat.one_mul]
    omega
  dsimp only
  split <;> omega

theorem two_pow_le_doubleLimit {power : Nat} (small : power ≤ 970) : 2 ^ power ≤ doubleLimit := by
  unfold doubleLimit
  generalize 970 = exponent at *
  have least : 2 ^ power ≤ 2 ^ exponent := Nat.pow_le_pow_right Nat.zero_lt_two small
  exact Nat.le_trans least (Nat.le_mul_of_pos_left (2 ^ exponent) (by decide))

theorem inRange_of_lt {negative : Bool} (fits : ofDigits digits < 2 ^ 64) :
    Numeral.inRange { negative, whole := digits } = true := by
  have scaled : Numeral.scaled { negative, whole := digits } = (ofDigits digits, 0) := by
    simp [Numeral.scaled, appendDigits_eq (show digits.foldl _ 0 < _ from fits), appendDigits, ofDigits]
  rw [Numeral.inRange, scaled]
  split
  · rfl
  · rfl
  next significand power _ same =>
    obtain ⟨rfl, none⟩ := Prod.mk.inj same
    obtain rfl : 0 = power := Int.ofNat.inj none
    have rounded := roundToDouble_lt fits
    have limit : 2 ^ 65 ≤ doubleLimit := two_pow_le_doubleLimit (by omega)
    have one : roundToDouble (10 ^ 0) = 1 := by decide
    rw [one, Nat.mul_one]
    simp only [Nat.zero_le, decide_true, Bool.true_and, decide_eq_true_eq]
    omega

theorem word?_eq_some_iff {numeral : Numeral} {word : UInt64} :
    numeral.word? = some word ↔
      numeral = { negative := false, whole := numeral.whole } ∧ ofDigits numeral.whole = word.toNat := by
  obtain ⟨negative, whole, fraction, exponent?⟩ := numeral
  simp only [Numeral.word?, Option.ite_none_right_eq_some, Bool.and_eq_true, Bool.not_eq_true', List.isEmpty_iff,
    Option.isNone_iff_eq_none, decide_eq_true_eq, Option.some.injEq, Numeral.mk.injEq, true_and]
  constructor
  · rintro ⟨⟨⟨⟨rfl, rfl⟩, rfl⟩, fits⟩, rfl⟩
    exact ⟨⟨rfl, rfl, rfl⟩, (UInt64.toNat_ofNat_of_lt' fits).symm⟩
  · rintro ⟨⟨rfl, rfl, rfl⟩, same⟩
    rw [same]
    exact ⟨⟨⟨⟨rfl, rfl⟩, rfl⟩, word.toNat_lt⟩, UInt64.ofNat_toNat⟩

theorem checkRange_eq_ok_iff {read : Except Fault (Numeral × List Char)} {numeral : Numeral} :
    checkRange read = .ok (numeral, rest) ↔ read = .ok (numeral, rest) ∧ numeral.inRange = true := by
  cases read with
  | error fault => simp [checkRange]
  | ok found =>
      obtain ⟨found, after⟩ := found
      simp only [checkRange]
      split
      next inside => grind
      next outside => grind

theorem exists_digit_cons (value : Nat) : ∃ digit later, digit < 10 ∧ Nat.toDigits 10 value = digit.digitChar :: later := by
  obtain ⟨digits, canonical, rfl⟩ := exists_canonical value
  rw [toDigits_ofDigits canonical]
  cases digits with
  | nil => exact absurd rfl canonical.ne_nil
  | cons digit later => exact ⟨digit, later.map Nat.digitChar, canonical.lt_ten digit (by simp), rfl⟩

theorem negative_of_readNumeral {negative : Bool} {numeral : Numeral}
    (read : readNumeral cut negative text = .ok (numeral, rest)) : numeral.negative = negative := by
  simp only [readNumeral, bind_eq_ok, Prod.exists, pure, Except.pure, Except.ok.injEq, Prod.mk.injEq] at read
  obtain ⟨_, _, _, _, _, _, _, _, _, rfl, _⟩ := read
  rfl

theorem readNumber_of_ne {char : Char} (unsigned : char ≠ '-') :
    readNumber (char :: text) = checkRange (readNumeral .truncated false (char :: text)) := by
  unfold readNumber
  split
  next leads => exact absurd (List.cons.inj leads).1 unsigned
  next => rfl

theorem readNumber_word?_iff {word : UInt64} :
    (∃ numeral, readNumber text = .ok (numeral, rest) ∧ numeral.word? = some word) ↔
      text = Nat.toDigits 10 word.toNat ++ rest ∧ Ends rest := by
  constructor
  · rintro ⟨numeral, read, found⟩
    obtain ⟨plain, value⟩ := word?_eq_some_iff.1 found
    rw [plain] at read
    unfold readNumber at read
    split at read
    · have := negative_of_readNumeral (checkRange_eq_ok_iff.1 read).1
      contradiction
    · obtain ⟨read, _⟩ := checkRange_eq_ok_iff.1 read
      obtain ⟨canonical, rfl, ends⟩ := readNumeral_eq_ok_iff.1 read
      rw [← value, toDigits_ofDigits canonical]
      exact ⟨rfl, ends⟩
  · rintro ⟨rfl, ends⟩
    obtain ⟨digits, canonical, value⟩ := exists_canonical word.toNat
    have fits : ofDigits digits < 2 ^ 64 := value ▸ word.toNat_lt
    have read : readNumeral .truncated false (digits.map Nat.digitChar ++ rest) = _ :=
      readNumeral_eq_ok_iff.2 ⟨canonical, rfl, ends⟩
    refine ⟨{ negative := false, whole := digits }, ?_, word?_eq_some_iff.2 ⟨rfl, value⟩⟩
    rw [← toDigits_ofDigits canonical, value] at read
    obtain ⟨digit, later, small, same⟩ := exists_digit_cons word.toNat
    rw [same] at read ⊢
    rw [List.cons_append, readNumber_of_ne (digitChar_ne_minus small)]
    exact checkRange_eq_ok_iff.2 ⟨read, inRange_of_lt fits⟩

/-! ## Words -/

def Blank (text : List Char) : Prop := ∀ char ∈ text, isBlank char = true

theorem exists_skipBlank (text : List Char) : ∃ blanks, Blank blanks ∧ text = blanks ++ skipBlank text :=
  ⟨text.takeWhile isBlank, fun _ => List.mem_takeWhile_imp, List.takeWhile_append_dropWhile.symm⟩

theorem skipBlank_append {blanks : List Char} {char : Char} (blank : Blank blanks) (begins : isBlank char = false) :
    skipBlank (blanks ++ char :: rest) = char :: rest := by
  rw [skipBlank, List.dropWhile_append_of_pos blank, List.dropWhile_cons_of_neg (by simp [begins])]

theorem readWord_eq_ok_iff {word : UInt64} :
    readWord text = .ok (word, rest) ↔
      ∃ blanks, Blank blanks ∧ text = blanks ++ Nat.toDigits 10 word.toNat ++ rest ∧ Ends rest := by
  constructor
  · intro read
    unfold readWord at read
    obtain ⟨blanks, blank, same⟩ := exists_skipBlank text
    dsimp only at read
    split at read
    · obtain ⟨⟨numeral, after⟩, number, read⟩ := bind_eq_ok.1 read
      dsimp only at read
      split at read
      next found =>
        obtain ⟨rfl, rfl⟩ := Prod.mk.inj (Except.ok.inj read)
        obtain ⟨digits, ends⟩ := readNumber_word?_iff.1 ⟨numeral, number, found⟩
        exact ⟨blanks, blank, by rw [List.append_assoc, ← digits, ← same], ends⟩
      next => contradiction
    · contradiction
  · rintro ⟨blanks, blank, rfl, ends⟩
    obtain ⟨digit, later, small, same⟩ := exists_digit_cons word.toNat
    obtain ⟨numeral, number, found⟩ := readNumber_word?_iff.2 ⟨rfl (a := Nat.toDigits 10 word.toNat ++ rest), ends⟩
    rw [same, List.cons_append] at number
    rw [readWord, List.append_assoc, same, List.cons_append, skipBlank_append blank (isBlank_digitChar small)]
    simp only [startsNumber_digitChar small, if_true]
    exact bind_eq_ok.2 ⟨_, number, by simp [found]⟩

theorem finish_eq_ok_iff {α : Type} {value result : α} :
    finish value rest = .ok result ↔ value = result ∧ Blank rest := by
  have empty : (skipBlank rest).isEmpty = true ↔ Blank rest := by simp [skipBlank, Blank]
  by_cases blank : Blank rest <;> simp [finish, empty, blank]

theorem Blank.ends (blank : Blank rest) : Ends rest := by
  intro char first
  have : isBlank char = true := blank char (List.mem_of_mem_head? first)
  simp only [isBlank, Bool.or_eq_true, decide_eq_true_eq] at this
  obtain ((rfl | rfl) | rfl) | rfl := this <;> decide

theorem readId_eq_ok_iff {id : Id} :
    readId text = .ok id ↔
      ∃ before after, Blank before ∧ Blank after ∧ text = before ++ Nat.toDigits 10 id.raw.toNat ++ after := by
  simp only [readId, bind_eq_ok, Prod.exists, finish_eq_ok_iff, readWord_eq_ok_iff]
  constructor
  · rintro ⟨word, after, ⟨before, blank, same, ends⟩, rfl, blank'⟩
    exact ⟨before, after, blank, blank', same⟩
  · rintro ⟨before, after, blank, blank', same⟩
    exact ⟨id.raw, after, ⟨before, blank, same, blank'.ends⟩, rfl, blank'⟩

end LeasedIds.Json
