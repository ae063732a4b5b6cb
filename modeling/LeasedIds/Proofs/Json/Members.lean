import LeasedIds.Proofs.Json.Verdicts

namespace LeasedIds

def Parts.word (parts : Parts) : Json.Field → UInt64
  | .id => parts.id.raw
  | .time => parts.time
  | .machineId => parts.machineId
  | .sequence => parts.sequence

namespace Json

/-! ## Entries -/

structure Entry extends Member where
  name : List Char
  spells : Spells name key
  isValue : IsValue element.value

namespace Entry

def text (entry : Entry) : List Char := entry.toMember.text

def value (entry : Entry) : List Char := entry.element.value

def ofWord (name : List Char) (word : UInt64) (plain : ∀ char ∈ name, Plain char) : Entry where
  key := name
  element := { value := wordText word }
  name := name
  spells := spells_self plain
  isValue := isValue_wordText word

def wanted (entry : Entry) (rest : List Char) : List Char :=
  entry.element.before ++ (entry.value ++ (entry.element.after ++ rest))

def opened (entry : Entry) (rest : List Char) : List Char :=
  entry.key ++ '"' :: (entry.gap ++ ':' :: entry.wanted rest)

theorem text_append (entry : Entry) (rest : List Char) :
    entry.text ++ rest = entry.before ++ '"' :: entry.opened rest := by
  simp [text, opened, wanted, value, Member.text, Element.text]

end Entry

def Field.entry (field : Field) (word : UInt64) : Entry := .ofWord field.name word plain_of_mem_name

def valuesOf (field : Field) (entries : List Entry) : List (List Char) :=
  (entries.filter (·.name = field.name)).map Entry.value

def Found.texts (found : Found) (field : Field) : List (List Char) := (found field).toList.map wordText

variable {pad rest name : List Char} {fuel : Nat} {first : Bool} {found later : Found} {field other : Field}
  {parts : Parts} {entry : Entry} {entries : List Entry} {word : UInt64}

theorem valuesOf_cons_self (named : entry.name = field.name) :
    valuesOf field (entry :: entries) = entry.value :: valuesOf field entries := by
  simp [valuesOf, named]

theorem valuesOf_cons_of_ne (unnamed : entry.name ≠ field.name) :
    valuesOf field (entry :: entries) = valuesOf field entries := by
  simp [valuesOf, unnamed]

theorem ofName?_eq_some_iff : Field.ofName? name = some field ↔ name = field.name := by
  constructor
  · intro named
    have := List.find?_some named
    simpa [eq_comm] using this
  · rintro rfl
    exact ofName?_name

theorem name_ne_name (different : other ≠ field) : field.name ≠ other.name := by
  intro same
  have := congrArg Field.ofName? same
  simp only [ofName?_name, Option.some.injEq] at this
  exact different this.symm

theorem ne_name_of_ofName?_eq_none (unknown : Field.ofName? name = none) (field : Field) : name ≠ field.name := by
  rintro rfl
  simp at unknown

/-! ### What has been found -/

theorem Found.length_texts_le (found : Found) (field : Field) : (found.texts field).length ≤ 1 := by
  rw [texts, List.length_map]
  cases found field <;> simp

theorem Found.parts?_eq_some_iff : found.parts? = some parts ↔ ∀ field, found field = some (parts.word field) := by
  constructor
  · intro all field
    simp only [parts?, Option.bind_eq_bind, Option.bind_eq_some_iff, Option.pure_def, Option.some.injEq] at all
    obtain ⟨id, id_eq, time, time_eq, machineId, machineId_eq, sequence, sequence_eq, rfl⟩ := all
    cases field <;> assumption
  · intro all
    simp [parts?, all, Parts.word]

theorem Found.texts_eq_singleton_iff : found.texts field = [wordText word] ↔ found field = some word := by
  rw [texts]
  cases found field with
  | none => simp
  | some present =>
      simp only [Option.toList_some, List.map_cons, List.map_nil, List.cons.injEq, and_true, Option.some.injEq]
      exact ⟨wordText_inj, congrArg wordText⟩

/-! ## Reading a row of members -/

theorem readMembers_pad (blank : Blank pad) :
    readMembers fuel first found (pad ++ rest) = readMembers fuel first found rest := by
  cases fuel <;> simp only [readMembers, nextMember, skipBlank_pad blank]

theorem nextMember_entry (entry : Entry) :
    nextMember first ((if first then [] else [',']) ++ (entry.text ++ rest)) = .ok (.member (entry.opened rest)) := by
  have shown : skipBlank (entry.before ++ '"' :: entry.opened rest) = '"' :: entry.opened rest :=
    skipBlank_pad entry.blank_before _
  rw [entry.text_append]
  cases first with
  | true =>
      rw [if_pos rfl, List.nil_append, nextMember, shown]
      rfl
  | false =>
      show openKey (skipBlank (entry.before ++ '"' :: entry.opened rest)) = _
      rw [shown]
      rfl

theorem readString_opened (entry : Entry) :
    readString (entry.opened rest) = .ok (entry.name, entry.gap ++ ':' :: entry.wanted rest) :=
  readString_spelled entry.spells

theorem readMembers_entry (entry : Entry) :
    readMembers (fuel + 1) first found ((if first then [] else [',']) ++ (entry.text ++ rest)) =
      match Field.ofName? entry.name with
      | some field =>
        if (found field).isSome then .error .unsuitable
        else readWord (entry.wanted rest) >>= fun (word, rest) => readMembers fuel false (found.insert field word) rest
      | none => skipValue (entry.wanted rest) >>= readMembers fuel false found := by
  have colon : skipColon (entry.gap ++ ':' :: entry.wanted rest) = .ok (entry.wanted rest) := skipColon_pad entry.blank_gap
  cases known : Field.ofName? entry.name with
  | none => simp [readMembers, nextMember_entry, readString_opened, known, colon, bind, Except.bind]
  | some field =>
      cases found field <;> simp [readMembers, nextMember_entry, readString_opened, known, colon, bind, Except.bind]

/-- What is expected of each field when some words have been found and entries are to come. -/
def expected (found : Found) (entries : List Entry) (field : Field) : List (List Char) :=
  found.texts field ++ valuesOf field entries

/-- What the reading of members comes to. It finds what is expected of every field, or else there is a field of which more
than one value is expected, or one that is no word. -/
inductive Reads (wanted : Field → List (List Char)) (rest : List Char) : Except Fault (Found × List Char) → Prop where
  | found {later : Found} (all : ∀ field, later.texts field = wanted field) : Reads wanted rest (.ok (later, rest))
  | refused {fault : Fault} (field : Field) (odd : ∀ later : Found, later.texts field ≠ wanted field)
      (kind : (∀ field, ∀ value ∈ wanted field, Readable value) → fault = .unsuitable) : Reads wanted rest (.error fault)

theorem expected_cons_of_unknown (unknown : Field.ofName? entry.name = none) :
    expected found (entry :: entries) = expected found entries := by
  funext field
  rw [expected, expected, valuesOf_cons_of_ne (ne_name_of_ofName?_eq_none unknown field)]

theorem expected_cons_of_word (fresh : found field = none) (named : entry.name = field.name)
    (value : entry.value = wordText word) :
    expected found (entry :: entries) = expected (found.insert field word) entries := by
  funext other
  by_cases same : other = field
  · subst same
    simp [expected, Found.texts, Found.insert, fresh, valuesOf_cons_self named, value]
  · rw [expected, expected, valuesOf_cons_of_ne (named ▸ name_ne_name same)]
    simp [Found.texts, Found.insert, same]

theorem readWord_wanted (ends : Ends (entry.element.after ++ rest)) :
    (∃ word, entry.value = wordText word ∧ readWord (entry.wanted rest) = .ok (word, entry.element.after ++ rest)) ∨
      Refused entry.value (readWord (entry.wanted rest)) := by
  rw [Entry.wanted, readWord_pad entry.element.blank_before]
  exact readWord_value entry.isValue ends

theorem reads_repeated (named : entry.name = field.name) (present : found field = some word) :
    Reads (expected found (entry :: entries)) rest (.error .unsuitable) := by
  refine .refused field (fun later same => ?_) fun _ => rfl
  have one := later.length_texts_le field
  rw [same, expected, valuesOf_cons_self named] at one
  simp [Found.texts, present] at one

theorem reads_refused {fault : Fault} (named : entry.name = field.name) (fresh : found field = none)
    (no_word : ∀ word, entry.value ≠ wordText word) (kind : Readable entry.value → fault = .unsuitable) :
    Reads (expected found (entry :: entries)) rest (.error fault) := by
  have first : expected found (entry :: entries) field = entry.value :: valuesOf field entries := by
    simp [expected, Found.texts, fresh, valuesOf_cons_self named]
  refine .refused field (fun later same => ?_) fun readable => kind (readable field _ (first ▸ List.mem_cons_self))
  rw [first, Found.texts] at same
  cases seen : later field with
  | none => simp [seen] at same
  | some word =>
      simp only [seen, Option.toList_some, List.map_cons, List.cons.injEq] at same
      exact no_word word same.1.symm

theorem readMembers_row (long : entries.length ≤ fuel) :
    Reads (expected found entries) rest
      (readMembers (fuel + 1) first found (row Entry.text first entries ++ '}' :: rest)) := by
  induction entries generalizing fuel first found with
  | nil => exact .found fun field => (List.append_nil _).symm
  | cons entry entries hypothesis =>
      -- Each entry takes one step, and the brace the last one.
      obtain ⟨fuel, rfl⟩ := Nat.exists_eq_add_of_le' (Nat.le_trans (Nat.le_add_left 1 entries.length) long)
      have short : entries.length ≤ fuel := Nat.le_of_succ_le_succ long
      have ends : Ends (entry.element.after ++ (row Entry.text false entries ++ '}' :: rest)) :=
        ends_after _ _ entry.element.blank_after (.inr rfl)
      rw [row, List.append_assoc, List.append_assoc, readMembers_entry]
      cases known : Field.ofName? entry.name with
      | none =>
          have passed := skipValue_append entry.isValue entry.element.blank_before ends
          rw [expected_cons_of_unknown known]
          simp only [Entry.wanted, Entry.value, passed, bind, Except.bind, readMembers_pad entry.element.blank_after]
          exact hypothesis short
      | some field =>
          have named := ofName?_eq_some_iff.1 known
          dsimp only
          cases present : found field with
          | some word => exact reads_repeated named present
          | none =>
              rw [if_neg (by simp)]
              rcases readWord_wanted ends with ⟨word, digits, read⟩ | ⟨no_word, fault, read, kind⟩
              · rw [expected_cons_of_word present named digits, read]
                simp only [bind, Except.bind, readMembers_pad entry.element.blank_after]
                exact hypothesis short
              · rw [read]
                exact reads_refused named present no_word kind

theorem length_le_row (first : Bool) (entries : List Entry) : entries.length ≤ (row Entry.text first entries).length := by
  induction entries generalizing first with
  | nil => exact Nat.zero_le _
  | cons entry entries hypothesis =>
      have rest := hypothesis false
      have some_text : 0 < entry.text.length := by simp [Entry.text, Member.text]
      simp only [row, List.length_append, List.length_cons]
      omega

end Json
end LeasedIds
