import LeasedIds.Proofs.Json.Numerals

namespace LeasedIds.Json

variable {name text rest key : List Char} {found : Found} {field : Field} {word : UInt64} {fuel : Nat} {first : Bool}

def Plain (char : Char) : Prop := char ≠ '"' ∧ char ≠ '\\' ∧ 0x20 ≤ char.toNat

theorem readString_append (plain : ∀ char ∈ name, Plain char) : readString (name ++ '"' :: rest) = .ok (name, rest) := by
  induction name with
  | nil => simp [readString]
  | cons char name hypothesis =>
      obtain ⟨⟨quote, backslash, printable⟩, later⟩ := List.forall_mem_cons.1 plain
      rw [List.cons_append, readString, if_neg (Nat.not_lt.2 printable), hypothesis later]
      · rfl
      · exact quote
      · exact backslash

theorem plain_of_mem_name : ∀ char ∈ field.name, Plain char := by
  cases field <;> simp [Field.name, Plain]

@[simp] theorem ofName?_name : Field.ofName? field.name = some field := by
  cases field <;> decide

theorem readMembers_known {value after : List Char} (fresh : found field = none)
    (opens : nextMember first text = .ok (.member key)) (named : readString key = .ok (field.name, rest))
    (colon : skipColon rest = .ok value) (valued : readWord value = .ok (word, after)) :
    readMembers (fuel + 1) first found text = readMembers fuel false (found.insert field word) after := by
  simp [readMembers, opens, named, fresh, colon, valued, bind, Except.bind]

theorem readWord_toDigits (ends : Ends rest) : readWord (Nat.toDigits 10 word.toNat ++ rest) = .ok (word, rest) :=
  readWord_eq_ok_iff.2 ⟨[], List.forall_mem_nil _, rfl, ends⟩

theorem readId_jsonText (id : Id) : readId id.jsonText.toList = .ok id := by
  apply readId_eq_ok_iff.2
  exact ⟨[], [], List.forall_mem_nil _, List.forall_mem_nil _, by simp [Id.jsonText, Id.text]⟩

def writeMember (first : Bool) (field : Field) (word : UInt64) : List Char :=
  (if first then [] else [',']) ++ '"' :: (field.name ++ '"' :: ':' :: Nat.toDigits 10 word.toNat)

theorem readMembers_writeMember (fresh : found field = none) (ends : Ends rest) :
    readMembers (fuel + 1) first found (writeMember first field word ++ rest) =
      readMembers fuel false (found.insert field word) rest := by
  have opens : nextMember first (writeMember first field word ++ rest) =
      .ok (.member (field.name ++ '"' :: ':' :: (Nat.toDigits 10 word.toNat ++ rest))) := by
    cases first <;> simp [writeMember, nextMember, openKey, skipBlank, isBlank]
  exact readMembers_known fresh opens (readString_append plain_of_mem_name) rfl (readWord_toDigits ends)

theorem readMembers_close : readMembers (fuel + 1) first found ('}' :: rest) = .ok (found, rest) := rfl

theorem ends_writeMember : Ends (writeMember false field word ++ rest) := by
  simp [Ends, writeMember, digitValue?]

def writeMembers (parts : Parts) : List Char :=
  writeMember true .id parts.id.raw ++ (writeMember false .time parts.time ++
    (writeMember false .machineId parts.machineId ++ (writeMember false .sequence parts.sequence ++ ['}'])))

theorem toList_jsonText (parts : Parts) : parts.jsonText.toList = '{' :: writeMembers parts := by
  simp [Parts.jsonText, Id.jsonText, Id.text, writeMembers, writeMember, Field.name]

theorem readMembers_writeMembers (fuel : Nat) (parts : Parts) :
    ∃ found : Found, readMembers (fuel + 5) true (fun _ => none) (writeMembers parts) = .ok (found, []) ∧
      found.parts? = some parts := by
  unfold writeMembers
  rw [readMembers_writeMember rfl ends_writeMember, readMembers_writeMember rfl ends_writeMember,
    readMembers_writeMember rfl ends_writeMember, readMembers_writeMember rfl (by simp [Ends, digitValue?]), readMembers_close]
  exact ⟨_, rfl, rfl⟩

theorem readParts_jsonText (parts : Parts) : readParts parts.jsonText.toList = .ok parts := by
  have long : 5 ≤ (writeMembers parts).length + 1 := by
    simp only [writeMembers, writeMember, Field.name, List.length_append, List.length_cons]
    omega
  obtain ⟨fuel, fuel_eq⟩ := Nat.exists_eq_add_of_le' long
  obtain ⟨found, read, all⟩ := readMembers_writeMembers fuel parts
  have begins : skipBlank ('{' :: writeMembers parts) = '{' :: writeMembers parts := rfl
  have ends : finish parts [] = .ok parts := rfl
  rw [toList_jsonText, readParts, begins]
  simp only [fuel_eq, read, all, ends, bind, Except.bind]

end LeasedIds.Json
