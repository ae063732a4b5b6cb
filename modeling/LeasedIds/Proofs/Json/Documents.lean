import LeasedIds.Proofs.Json.Elements
import LeasedIds.Proofs.Json.Members

/-!
# Documents

Identifiers and parts are read back from the texts that are written. Parts are read from an object in which each field
stands once with the digits of a word, and from an array of four such values. From no other object or array is anything
read.
-/

namespace LeasedIds.Json

/-! ## Objects -/

structure ObjectText where
  before : List Char := []
  pad : List Char := []
  entries : List Entry
  after : List Char := []
  blank_before : Blank before := by exact blank_nil
  blank_pad : Blank pad := by exact blank_nil
  blank_after : Blank after := by exact blank_nil

namespace ObjectText

variable (object : ObjectText)

def text : List Char :=
  object.before ++ '{' :: (object.pad ++ (row Entry.text true object.entries ++ '}' :: object.after))

/-- Each field stands in the object once, with the digits of its word. -/
def Carries (parts : Parts) : Prop := ∀ field, valuesOf field object.entries = [wordText (parts.word field)]

/-- A field is missing, is there more than once, or is no word. -/
def Faulty : Prop :=
  ∃ field, valuesOf field object.entries = [] ∨ 2 ≤ (valuesOf field object.entries).length ∨
    ∃ value ∈ valuesOf field object.entries, ∀ word, value ≠ wordText word

variable {object}

theorem exists_wordText_of_not_faulty (sound : ¬ object.Faulty) (field : Field) :
    ∃ word, valuesOf field object.entries = [wordText word] := by
  simp only [Faulty, not_exists, not_or, not_and, not_forall, not_not] at sound
  obtain ⟨present, single, words⟩ := sound field
  match values : valuesOf field object.entries with
  | [] => contradiction
  | [value] =>
      obtain ⟨word, rfl⟩ := words value (by simp [values])
      exact ⟨word, rfl⟩
  | _ :: _ :: _ => simp [values] at single

theorem faulty_iff : object.Faulty ↔ ¬ ∃ parts, object.Carries parts := by
  constructor
  · rintro ⟨field, odd⟩ ⟨parts, carries⟩
    simp only [carries field, List.cons_ne_nil, List.length_singleton, List.mem_singleton, exists_eq_left,
      false_or] at odd
    rcases odd with twice | no_word
    · omega
    · exact no_word _ rfl
  · intro none
    by_contra sound
    obtain ⟨id, id_eq⟩ := exists_wordText_of_not_faulty sound .id
    obtain ⟨time, time_eq⟩ := exists_wordText_of_not_faulty sound .time
    obtain ⟨machineId, machineId_eq⟩ := exists_wordText_of_not_faulty sound .machineId
    obtain ⟨sequence, sequence_eq⟩ := exists_wordText_of_not_faulty sound .sequence
    refine none ⟨⟨⟨id⟩, time, machineId, sequence⟩, fun field => ?_⟩
    cases field <;> assumption

variable (object)

theorem readParts_text : readParts object.text =
    (readMembers ((object.pad ++ (row Entry.text true object.entries ++ '}' :: object.after)).length + 1) true (fun _ => none)
        (row Entry.text true object.entries ++ '}' :: object.after) >>= fun (found, rest) =>
      match found.parts? with
      | some parts => finish parts rest
      | none => .error .unsuitable) := by
  rw [readParts, text, skipBlank_append object.blank_before (by decide), ← readMembers_pad object.blank_pad]
  rfl

theorem reads : ∃ read, readParts object.text = (read >>= fun (found, rest) =>
      match found.parts? with
      | some parts => finish parts rest
      | none => .error .unsuitable) ∧ Reads (valuesOf · object.entries) object.after read := by
  have none_found : expected (fun _ => none) object.entries = (valuesOf · object.entries) := by
    funext field
    simp [expected, Found.texts]
  refine ⟨_, object.readParts_text, none_found ▸ readMembers_row ?_⟩
  have := length_le_row true object.entries
  simp only [List.length_append]
  omega

theorem readParts_spec :
    (∀ parts, readParts object.text = .ok parts ↔ object.Carries parts) ∧
      (object.Faulty → ∃ fault, readParts object.text = .error fault ∧
        ((∀ field, ∀ value ∈ valuesOf field object.entries, Readable value) → fault = .unsuitable)) := by
  obtain ⟨read, text, reads⟩ := object.reads
  rw [text]
  cases reads with
  | @found later all =>
      have carries (parts : Parts) : object.Carries parts ↔ later.parts? = some parts := by
        simp only [Carries, ← all, Found.parts?_eq_some_iff, Found.texts_eq_singleton_iff]
      simp only [carries, bind, Except.bind]
      cases parts? : later.parts? with
      | some parts =>
          refine ⟨fun parts' => ?_, fun faulty => ?_⟩
          · rw [finish_eq_ok_iff, Option.some.injEq]
            exact and_iff_left object.blank_after
          · exact absurd ⟨parts, (carries parts).2 parts?⟩ (faulty_iff.1 faulty)
      | none => exact ⟨by simp, fun _ => ⟨_, rfl, fun _ => rfl⟩⟩
  | refused field odd kind =>
      refine ⟨fun parts => ?_, fun _ => ⟨_, rfl, kind⟩⟩
      simp only [bind, Except.bind, reduceCtorEq, false_iff]
      intro carries
      refine odd (fun field => some (parts.word field)) ?_
      rw [carries field]
      rfl

end ObjectText

/-! ## Arrays -/

structure ArrayText where
  before : List Char := []
  pad : List Char := []
  elements : List Element
  after : List Char := []
  values : ∀ element ∈ elements, IsValue element.value
  blank_before : Blank before := by exact blank_nil
  blank_pad : Blank pad := by exact blank_nil
  blank_after : Blank after := by exact blank_nil

namespace ArrayText

def text (array : ArrayText) : List Char :=
  array.before ++ '[' :: (array.pad ++ (row Element.text true array.elements ++ ']' :: array.after))

/-- The array has the words of the parts, and no other value. -/
def Carries (array : ArrayText) (parts : Parts) : Prop :=
  array.elements.map Element.value = parts.words.map wordText

variable (array : ArrayText)

theorem readParts_text : readParts array.text =
    (readElements (array.pad ++ (row Element.text true array.elements ++ ']' :: array.after)) >>= fun (parts, rest) =>
      finish parts rest) := by
  rw [readParts, text, skipBlank_append array.blank_before (by decide)]
  rfl

theorem readParts_spec :
    (∀ parts, readParts array.text = .ok parts ↔ array.Carries parts) ∧
      (Lacks 4 array.elements → ∃ fault, readParts array.text = .error fault ∧
        ((∀ element ∈ array.elements.take 4, Readable element.value) → fault = .unsuitable)) ∧
      (¬ Lacks 4 array.elements → array.elements.length ≠ 4 → readParts array.text = .error .malformed) := by
  have closed (parts : Parts) : finish parts array.after = .ok parts := finish_eq_ok_iff.2 ⟨rfl, array.blank_after⟩
  rw [readParts_text]
  rcases readElements_row array.after array.values array.blank_pad with
    ⟨parts, later, values, read⟩ | ⟨lacks, fault, read, kind⟩
  · have enough : ¬ Lacks 4 array.elements := not_lacks values
    rw [read]
    cases later with
    | nil =>
        rw [List.map_nil, List.append_nil] at values
        -- Nothing is left behind the four words, so the bracket closes the array.
        have four : array.elements.length = 4 := by simpa [Parts.words] using congrArg List.length values
        refine ⟨fun parts' => ?_, fun lacks => absurd lacks enough, fun _ other => absurd four other⟩
        simp only [if_true, bind, Except.bind, closed, Except.ok.injEq, Carries, values]
        rw [List.map_inj_right fun _ _ => wordText_inj]
        exact Parts.words_injective.eq_iff.symm
    | cons element later =>
        refine ⟨fun parts' => ?_, fun lacks => absurd lacks enough, fun _ _ => rfl⟩
        simp only [reduceCtorEq, if_false, bind, Except.bind, false_iff, Carries, values]
        intro same
        simpa [Parts.words] using congrArg List.length same
  · refine ⟨fun parts => ?_, fun _ => ⟨fault, by rw [read]; rfl, kind⟩, fun enough => absurd lacks enough⟩
    simp only [read, bind, Except.bind, reduceCtorEq, false_iff]
    intro carries
    have values : array.elements.map Element.value = parts.words.map wordText ++ ([] : List Element).map Element.value :=
      carries.trans (List.append_nil _).symm
    exact not_lacks values lacks

end ArrayText

/-! ## What is read -/

theorem documents_read_exactly :
    (∀ id : Id, readId id.jsonText.toList = .ok id) ∧
      (∀ parts : Parts, readParts parts.jsonText.toList = .ok parts) ∧
      (∀ object : ObjectText, (object.Faulty ↔ ¬ ∃ parts, object.Carries parts) ∧
        (∀ parts, readParts object.text = .ok parts ↔ object.Carries parts) ∧
        (object.Faulty → ∃ fault, readParts object.text = .error fault ∧
          ((∀ field, ∀ value ∈ valuesOf field object.entries, Readable value) → fault = .unsuitable))) ∧
      ∀ array : ArrayText, (∀ parts, readParts array.text = .ok parts ↔ array.Carries parts) ∧
        (Lacks 4 array.elements → ∃ fault, readParts array.text = .error fault ∧
          ((∀ element ∈ array.elements.take 4, Readable element.value) → fault = .unsuitable)) ∧
        (¬ Lacks 4 array.elements → array.elements.length ≠ 4 → readParts array.text = .error .malformed) :=
  ⟨readId_jsonText, readParts_jsonText, fun object => ⟨ObjectText.faulty_iff, object.readParts_spec⟩,
    fun array => array.readParts_spec⟩

/-! ## Some documents -/

theorem spells_escaped : Spells ['i', 'd'] ['\\', 'u', '0', '0', '6', '9', 'd'] := by
  have letter : IsUnit (((0 * 16 + 0) * 16 + 6) * 16 + 9) ['0', '0', '6', '9'] := .digits rfl rfl rfl rfl
  have last : Spells ['d'] ['d'] := spells_self (by simp [Plain])
  exact .unit letter rfl rfl last

def escaped (word : UInt64) : Entry :=
  { Field.entry .id word with key := ['\\', 'u', '0', '0', '6', '9', 'd'], spells := spells_escaped }

def half : List Char := ['\\', 'u', 'd', '8', '0', '0']

theorem isBody_half : IsBody half := by
  have high : IsUnit (((13 * 16 + 8) * 16 + 0) * 16 + 0) ['d', '8', '0', '0'] := .digits rfl rfl rfl rfl
  exact .unit high .nil

theorem isNumber_power (digits : List Nat) (ne_nil : digits ≠ []) (lt_ten : ∀ digit ∈ digits, digit < 10) :
    IsNumber { negative := false, whole := [1], exponent? := some (1 * ofDigits digits) }
      ('1' :: 'e' :: digits.map Nat.digitChar) := by
  have canonical : Canonical [1] := ⟨by simp, by simp, by simp⟩
  have exponent : IsExponent (some (1 * ofDigits digits)) ('e' :: ([] ++ digits.map Nat.digitChar)) :=
    .written (.inl rfl) (by simp) ne_nil lt_ten
  exact .unsigned rfl (.digits canonical (List.forall_mem_nil _) exponent)

theorem isValue_huge : IsValue ['1', 'e', '4', '0', '0'] := .number (isNumber_power [4, 0, 0] (by simp) (by simp))

def unreadables : List Element := [{ value := ['1', 'e', '4', '0', '0'] }, { value := '"' :: (half ++ ['"']) }]

theorem isValue_unreadables : ∀ element ∈ unreadables, IsValue element.value := by
  simp [unreadables, isValue_huge, IsValue.string isBody_half]

def note : Entry where
  key := ['n', 'o', 't', 'e']
  element := { value := '[' :: ([] ++ (row Element.text true unreadables ++ [']'])) }
  name := ['n', 'o', 't', 'e']
  spells := spells_self (by simp [Plain])
  isValue := .array blank_nil isValue_unreadables

def scrambled : ObjectText where
  pad := [' ']
  entries := [Field.entry .sequence 4, escaped 18446744073709551615, note, Field.entry .time 2, Field.entry .machineId 3]
  blank_pad := by simp [Blank, isBlank]

example : scrambled.text =
    "\x7b \"sequence\":4,\"\\u0069d\":18446744073709551615,\"note\":[1e400,\"\\ud800\"],\"time\":2,\"machine_id\":3\x7d".toList := by
  decide +kernel

def repeated : ObjectText where
  entries := [Field.entry .id 1, Field.entry .time 2, Field.entry .machineId 3, Field.entry .time 2, Field.entry .sequence 4]

theorem readable_repeated : ∀ field, ∀ value ∈ valuesOf field repeated.entries, Readable value := by
  have words : ∀ entry ∈ repeated.entries, Readable entry.value := by
    simp [repeated, Field.entry, Entry.ofWord, Entry.value, readable_wordText]
  intro field value member
  obtain ⟨entry, known, rfl⟩ := List.mem_map.1 member
  exact words entry (List.mem_filter.1 known).1

def ArrayText.ofWords (words : List UInt64) : ArrayText where
  elements := words.map fun word => { value := wordText word }
  values := by simp [isValue_wordText]

theorem five_not_lacking : ¬ Lacks 4 (ArrayText.ofWords [1, 2, 3, 4, 5]).elements := by
  have values : (ArrayText.ofWords [1, 2, 3, 4, 5]).elements.map Element.value =
      ([1, 2, 3, 4] : List UInt64).map wordText ++ [({ value := wordText 5 } : Element)].map Element.value := rfl
  exact not_lacks values

theorem scrambled_read_exactly :
    readParts scrambled.text = .ok ⟨⟨18446744073709551615⟩, 2, 3, 4⟩ ∧
      readParts repeated.text = .error .unsuitable ∧
      readParts (ArrayText.ofWords [1, 2, 3]).text = .error .unsuitable ∧
      readParts (ArrayText.ofWords [1, 2, 3, 4, 5]).text = .error .malformed := by
  obtain ⟨_, _, objects, arrays⟩ := documents_read_exactly
  refine ⟨?_, ?_, ?_, (arrays (.ofWords [1, 2, 3, 4, 5])).2.2 five_not_lacking (by decide)⟩
  · refine ((objects scrambled).2.1 _).2 fun field => ?_
    cases field <;> decide +kernel
  · obtain ⟨fault, refused, kind⟩ := (objects repeated).2.2 ⟨.time, .inr (.inl (by decide +kernel))⟩
    rw [refused, kind readable_repeated]
  · obtain ⟨fault, refused, kind⟩ := (arrays (.ofWords [1, 2, 3])).2.1 (.inl (by decide))
    rw [refused, kind (by simp [ArrayText.ofWords, readable_wordText])]

def boundless : ArrayText where
  elements := { value := ['1', 'e', '4', '0', '0'] } :: (ArrayText.ofWords [0, 0, 0]).elements
  values := List.forall_mem_cons.2 ⟨isValue_huge, ArrayText.values _⟩

theorem boundless_lacking : Lacks 4 boundless.elements := by
  have refused : readWord (['1', 'e', '4', '0', '0'] ++ []) = .error .malformed := by decide +kernel
  exact .inr ⟨_, List.mem_cons_self, ne_wordText ends_nil refused⟩

def halved : ObjectText where
  entries := [
    { Field.entry .id 1 with element := { value := '"' :: (half ++ ['"']) }, isValue := .string isBody_half },
    Field.entry .time 2, Field.entry .machineId 3, Field.entry .sequence 4]

theorem halved_faulty : halved.Faulty := by
  have refused : readWord ('"' :: (half ++ ['"']) ++ []) = .error .malformed := by decide +kernel
  exact ⟨.id, .inr (.inr ⟨_, by decide +kernel, ne_wordText ends_nil refused⟩)⟩

/-- These refusals do not blame the kind of a value: an array that is too long, a number and a string that cannot be read,
and a key that cannot be read in an object that has each field once. -/
theorem refusals_malformed :
    (∃ array : ArrayText, array.text = "[1,2,3,4,5]".toList ∧ array.elements.length ≠ 4 ∧
        readParts array.text = .error .malformed) ∧
      (∃ array : ArrayText, array.text = "[1e400,0,0,0]".toList ∧ Lacks 4 array.elements ∧
        readParts array.text = .error .malformed) ∧
      (∃ object : ObjectText,
        object.text = "\x7b\"id\":\"\\ud800\",\"time\":2,\"machine_id\":3,\"sequence\":4\x7d".toList ∧
        object.Faulty ∧ readParts object.text = .error .malformed) ∧
      IsBody "\\ud800".toList ∧
      readParts "\x7b\"\\ud800\":0,\"id\":1,\"time\":2,\"machine_id\":3,\"sequence\":4\x7d".toList = .error .malformed :=
  ⟨⟨.ofWords [1, 2, 3, 4, 5], by decide +kernel, by decide, by decide +kernel⟩,
    ⟨boundless, by decide +kernel, boundless_lacking, by decide +kernel⟩,
    ⟨halved, by decide +kernel, halved_faulty, by decide +kernel⟩, isBody_half, by decide +kernel⟩

end LeasedIds.Json
