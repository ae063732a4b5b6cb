import LeasedIds.Proofs.Json.Verdicts

namespace LeasedIds

def Parts.words (parts : Parts) : List UInt64 := [parts.id.raw, parts.time, parts.machineId, parts.sequence]

theorem Parts.words_injective : Function.Injective Parts.words := by
  rintro ⟨⟨id⟩, time, machineId, sequence⟩ ⟨⟨id'⟩, time', machineId', sequence'⟩ same
  simpa [words] using same

theorem Parts.exists_words {words : List UInt64} (length : words.length = 4) : ∃ parts : Parts, parts.words = words := by
  match words with
  | [id, time, machineId, sequence] => exact ⟨⟨⟨id⟩, time, machineId, sequence⟩, rfl⟩

namespace Json

def readWords : Nat → Bool → List Char → Except Fault (List UInt64 × List Char)
  | 0, _, text => .ok ([], text)
  | count + 1, first, text => do
    let (word, rest) ← readElement first text
    let (words, rest) ← readWords count false rest
    return (word :: words, rest)

def closeWords (parts : Parts) (text : List Char) : Except Fault (Parts × List Char) :=
  match skipBlank text with
  | [] => .error .truncated
  | ']' :: rest => .ok (parts, rest)
  | _ => .error .malformed

/-- A value is missing, or one of the first values is no word. -/
def Lacks (count : Nat) (elements : List Element) : Prop :=
  elements.length < count ∨ ∃ element ∈ elements.take count, ∀ word, element.value ≠ wordText word

variable {pad rest later : List Char} {first : Bool} {count : Nat} {elements : List Element} {parts : Parts}
  {words : List UInt64}

theorem readElement_pad (blank : Blank pad) : readElement first (pad ++ rest) = readElement first rest := by
  simp only [readElement, skipBlank_pad blank]

theorem readElement_first {char : Char} (begins : Begins char) :
    readElement true (char :: rest) = readWord (char :: rest) := by
  obtain ⟨visible, comma, bracket, _⟩ := begins
  have shown : skipBlank (char :: rest) = char :: rest := skipBlank_append blank_nil visible
  rw [readElement, shown]
  split
  · contradiction
  next closes => exact absurd (List.cons.inj closes).1 bracket
  next separates => exact absurd (List.cons.inj separates).1 comma
  · rfl

theorem readElement_next {char : Char} (shown : skipBlank rest = char :: later) (begins : Begins char) :
    readElement false (',' :: rest) = readWord rest := by
  have comma : skipBlank (',' :: rest) = ',' :: rest := rfl
  have goes_on : (skipBlank rest).head? ≠ some ']' := by simpa [shown] using begins.2.2.1
  rw [readElement, comma]
  exact if_neg goes_on

theorem readElement_element {element : Element} (value : IsValue element.value) :
    readElement first ((if first then [] else [',']) ++ (element.text ++ rest)) =
      readWord (element.value ++ (element.after ++ rest)) := by
  obtain ⟨char, later, same, begins⟩ := value.begins
  have text : element.text ++ rest = element.before ++ char :: (later ++ (element.after ++ rest)) := by
    simp [Element.text, same]
  rw [text, same, List.cons_append]
  cases first with
  | true => rw [if_pos rfl, List.nil_append, readElement_pad element.blank_before, readElement_first begins]
  | false =>
      have shown : skipBlank (element.before ++ char :: (later ++ (element.after ++ rest))) = char :: _ :=
        skipBlank_append element.blank_before begins.1
      exact (readElement_next shown begins).trans (readWord_pad element.blank_before)

inductive ReadsWords (first : Bool) (count : Nat) (elements : List Element) (rest : List Char) :
    Except Fault (List UInt64 × List Char) → Prop where
  | words {words : List UInt64} {pad : List Char} {later : List Element} (blank : Blank pad)
      (length : words.length = count)
      (values : elements.map Element.value = words.map wordText ++ later.map Element.value) :
      ReadsWords first count elements rest
        (.ok (words, pad ++ (row Element.text (first && count = 0) later ++ ']' :: rest)))
  | refused {fault : Fault} (lacks : Lacks count elements)
      (kind : (∀ element ∈ elements.take count, Readable element.value) → fault = .unsuitable) :
      ReadsWords first count elements rest (.error fault)

theorem lacks_cons_of_word {word : UInt64} {element : Element} (value : element.value = wordText word) :
    Lacks (count + 1) (element :: elements) ↔ Lacks count elements := by
  have is_word : ¬ ∀ word', wordText word ≠ wordText word' := fun no_word => no_word word rfl
  simp [Lacks, value, is_word]

theorem not_lacks {later : List Element}
    (values : elements.map Element.value = words.map wordText ++ later.map Element.value) :
    ¬ Lacks words.length elements := by
  rintro (short | ⟨element, member, no_word⟩)
  · have lengths := congrArg List.length values
    simp only [List.length_map, List.length_append] at lengths
    omega
  · have known : element.value ∈ (elements.map Element.value).take words.length := by
      rw [← List.map_take]
      exact List.mem_map_of_mem member
    rw [values, List.take_left' (List.length_map _)] at known
    obtain ⟨word, _, same⟩ := List.mem_map.1 known
    exact no_word word same.symm

theorem ReadsWords.cons {word : UInt64} {element : Element} {read : Except Fault (List UInt64 × List Char)}
    (value : element.value = wordText word) (reads : ReadsWords false count elements rest read) :
    ReadsWords first (count + 1) (element :: elements) rest
      ((fun (words, rest) => (word :: words, rest)) <$> read) := by
  cases reads with
  | @words words pad later blank length values =>
      have all : (element :: elements).map Element.value = (word :: words).map wordText ++ later.map Element.value := by
        simp [value, values]
      have longer : (word :: words).length = count + 1 := congrArg (· + 1) length
      have reads : ReadsWords first (count + 1) (element :: elements) rest (.ok (word :: words, _)) := .words blank longer all
      simpa [Functor.map, Except.map] using reads
  | refused lacks kind =>
      exact .refused ((lacks_cons_of_word value).2 lacks) fun readable =>
        kind fun element member => readable element (List.mem_cons_of_mem _ member)

theorem readWords_row (values : ∀ element ∈ elements, IsValue element.value) (blank : Blank pad) :
    ReadsWords first count elements rest
      (readWords count first (pad ++ (row Element.text first elements ++ ']' :: rest))) := by
  induction count generalizing first elements pad with
  | zero =>
      have none : elements.map Element.value = ([] : List UInt64).map wordText ++ elements.map Element.value := rfl
      have reads : ReadsWords first 0 elements rest (.ok ([], _)) := .words blank rfl none
      simpa [readWords] using reads
  | succ count hypothesis =>
      rw [readWords, readElement_pad blank]
      cases elements with
      | nil => exact .refused (.inl (Nat.succ_pos count)) fun _ => rfl
      | cons element elements =>
          obtain ⟨value, values⟩ := List.forall_mem_cons.1 values
          have ends : Ends (element.after ++ (row Element.text false elements ++ ']' :: rest)) :=
            ends_after _ _ element.blank_after (.inl rfl)
          rw [row, List.append_assoc, List.append_assoc, readElement_element value]
          rcases readWord_value value ends with ⟨word, digits, read⟩ | ⟨no_word, fault, read, kind⟩
          · rw [read]
            exact (hypothesis values element.blank_after).cons digits
          · rw [read]
            exact .refused (.inr ⟨element, List.mem_cons_self, no_word⟩) fun readable =>
              kind (readable element List.mem_cons_self)

theorem readElements_eq : readElements rest = readWords 4 true rest >>= fun (words, rest) =>
    match words with
    | [id, time, machineId, sequence] => closeWords ⟨⟨id⟩, time, machineId, sequence⟩ rest
    | _ => .error .malformed := by
  simp only [readElements, readWords, closeWords, bind_assoc, pure_bind]
  rfl

theorem closeWords_row {later : List Element} (blank : Blank pad) :
    closeWords parts (pad ++ (row Element.text false later ++ ']' :: rest)) =
      if later = [] then .ok (parts, rest) else .error .malformed := by
  rw [closeWords, skipBlank_pad blank]
  cases later <;> rfl

theorem readElements_row (rest : List Char) (values : ∀ element ∈ elements, IsValue element.value) (blank : Blank pad) :
    (∃ (parts : Parts) (later : List Element),
        elements.map Element.value = parts.words.map wordText ++ later.map Element.value ∧
          readElements (pad ++ (row Element.text true elements ++ ']' :: rest)) =
            if later = [] then .ok (parts, rest) else .error .malformed) ∨
      (Lacks 4 elements ∧ ∃ fault, readElements (pad ++ (row Element.text true elements ++ ']' :: rest)) = .error fault ∧
        ((∀ element ∈ elements.take 4, Readable element.value) → fault = .unsuitable)) := by
  have reads : ReadsWords true 4 elements rest (readWords 4 true _) := readWords_row values blank
  rw [readElements_eq]
  generalize readWords 4 true _ = read at reads ⊢
  cases reads with
  | @words words pad later blank length values =>
      obtain ⟨parts, rfl⟩ := Parts.exists_words length
      exact .inl ⟨parts, later, values, closeWords_row blank⟩
  | refused lacks kind => exact .inr ⟨lacks, _, rfl, kind⟩

end Json
end LeasedIds
