import LeasedIds.Cli.Session
import LeasedIds.Proofs.Cli.Agreement
import LeasedIds.Proofs.Json.Documents
import LeasedIds.Proofs.Packing.Words
import Mathlib.Data.List.Forall2

namespace LeasedIds.Cli

open Json

namespace Record

def millisName : List Char := ['u', 'n', 'i', 'x', '_', 'm', 's']

theorem plain_of_mem_millisName : ∀ char ∈ millisName, Plain char := by
  simp [millisName, Plain]

def object (record : Record) : ObjectText where
  entries := [
    Field.entry .id record.parts.id.raw, Field.entry .machineId record.parts.machineId,
    Field.entry .sequence record.parts.sequence, Field.entry .time record.parts.time,
    .ofWord millisName (.ofNat (min record.unixMs (2 ^ 64 - 1))) plain_of_mem_millisName]

theorem toNat_capped (count : Nat) : (UInt64.ofNat (min count (2 ^ 64 - 1))).toNat = min count (2 ^ 64 - 1) :=
  UInt64.toNat_ofNat_of_lt' (by simp only [UInt64.size]; omega)

theorem toList_jsonText (record : Record) : record.jsonText.toList = record.object.text := by
  have millis := toNat_capped record.unixMs
  unfold jsonText
  simp [Id.jsonText, Id.text, object, ObjectText.text, row, Entry.text, Member.text, Element.text, Field.entry,
    Entry.ofWord, Field.name, millisName, wordText, millis]

theorem carries_object (record : Record) : record.object.Carries record.parts := by
  intro field
  cases field <;> rfl

theorem millis_object (record : Record) :
    (record.object.entries.filter (·.name = millisName)).map Entry.value =
      [Nat.toDigits 10 (min record.unixMs (2 ^ 64 - 1))] := by
  rw [← toNat_capped]
  rfl

/-- What is printed for a word: its identifier, the fields that make it up and the start of its unit in milliseconds, which
the object caps at 64 bits. -/
structure Shows (options : Options) (layout : Layout) (raw : UInt64) (record : Record) : Prop where
  id_eq : record.parts.id.raw.toNat = raw.toNat % 2 ^ 63
  pack_eq : layout.pack record.parts.time.toNat record.parts.machineId.toNat record.parts.sequence.toNat = record.parts.id
  text_eq : record.line false =
    toString (raw.toNat % 2 ^ 63) ++ "\ttime=" ++ toString record.parts.time.toNat ++ " machine_id=" ++
      toString record.parts.machineId.toNat ++ " sequence=" ++ toString record.parts.sequence.toNat ++ " unix_ms=" ++
      toString (options.startTimeMs.toNat + record.parts.time.toNat * options.timeUnitMs.toNat)
  json_eq : (record.line true).toList = record.object.text
  carries : record.object.Carries record.parts
  millis : (record.object.entries.filter (·.name = millisName)).map Entry.value =
    [Nat.toDigits 10 (min (options.startTimeMs.toNat + record.parts.time.toNat * options.timeUnitMs.toNat) (2 ^ 64 - 1))]

end Record

variable {options : Options} {config : Config} {encoder : Encoder}

theorem unixMs_ofId (epoch : encoder.epoch = Time.ofMillis options.startTimeMs.toNat)
    (unit : encoder.timeUnit = Time.ofMillis options.timeUnitMs.toNat) (id : Id) :
    (Record.ofId encoder id).unixMs =
      options.startTimeMs.toNat + (Record.ofId encoder id).parts.time.toNat * options.timeUnitMs.toNat := by
  have whole : encoder.toTime id =
      (options.startTimeMs.toNat + encoder.layout.elapsed id * options.timeUnitMs.toNat) * Time.millisecond := by
    rw [encoder.toTime_eq, epoch, unit, Time.ofMillis, Time.ofMillis, ← Nat.mul_assoc, ← Nat.add_mul]
  rw [Record.ofId, whole, Nat.mul_div_cancel _ (by decide), Encoder.decompose, Layout.toNat_time_decompose]

theorem shows_ofId (epoch : encoder.epoch = Time.ofMillis options.startTimeMs.toNat)
    (unit : encoder.timeUnit = Time.ofMillis options.timeUnitMs.toNat) (raw : UInt64) :
    Record.Shows options encoder.layout raw (.ofId encoder (.ofRaw raw)) := by
  have low : (Id.ofRaw raw).raw.toNat = raw.toNat % 2 ^ 63 := Id.toNat_ofRaw raw
  have millis := unixMs_ofId epoch unit (.ofRaw raw)
  have clear : (Id.ofRaw raw).raw.toNat < 2 ^ 63 := low ▸ Nat.mod_lt _ (by decide)
  refine ⟨low, encoder.layout.pack_decompose clear, ?_, Record.toList_jsonText _, Record.carries_object _, ?_⟩
  · rw [← millis, ← low]
    rfl
  · rw [← millis]
    exact Record.millis_object _

theorem ofRaw_eq (raw : UInt64) : Id.ofRaw raw = ⟨.ofNat (raw.toNat % 2 ^ 63)⟩ := by
  rw [← Id.toNat_ofRaw, UInt64.ofNat_toNat]

theorem map_ofRaw (encoder : Encoder) (ids : List UInt64) :
    (ids.map fun raw => Record.ofId encoder (.ofRaw raw)) =
      (ids.map (·.toNat % 2 ^ 63)).map fun low => .ofId encoder ⟨.ofNat low⟩ := by
  rw [List.map_map]
  exact List.map_congr_left fun raw _ => congrArg (Record.ofId encoder) (ofRaw_eq raw)

theorem decompose_eq (created : Encoder.create 0 config.epoch config.timeUnit config.layout = .ok encoder)
    (ids : List UInt64) : decompose config ids = .ok (ids.map fun raw => .ofId encoder (.ofRaw raw)) := by
  rw [decompose, created]

theorem exists_encoder (fit : LifetimeRepresentable config.epoch config.timeUnit config.layout) :
    ∃ encoder, Encoder.create 0 config.epoch config.timeUnit config.layout = .ok encoder := by
  rw [Encoder.create, dif_pos fit, dif_pos (Nat.zero_le _)]
  exact ⟨_, rfl⟩

/-- For each word one record is printed, in their order. Words that differ in the top bit alone have the same record. -/
theorem records_exact {last : Nat} (accepted : Config.ofOptions options = .ok config)
    (bounded : config.timeUnit * config.layout.maxElapsed < 2 ^ 128)
    (ends : Encoder.lifetimeEnd? config.epoch config.timeUnit config.layout = some last) (ids : List UInt64) :
    (∃ records, decompose config ids = .ok records ∧ List.Forall₂ (Record.Shows options config.layout) ids records ∧
        ∀ json, decomposedLines config ids json = .ok (records.map (·.line json))) ∧
      ∀ ids' : List UInt64, ids'.map (·.toNat % 2 ^ 63) = ids.map (·.toNat % 2 ^ 63) →
        decompose config ids' = decompose config ids := by
  obtain ⟨fit, _⟩ := (Encoder.lifetimeEnd?_eq_some_iff bounded).1 ends
  obtain ⟨encoder, created⟩ := exists_encoder fit
  obtain ⟨_, _, _, epoch, unit, _⟩ := Config.ofOptions_eq_ok_iff.1 accepted
  obtain ⟨_, epoch_eq, unit_eq, layout_eq⟩ := Encoder.fields_of_create created
  rw [← epoch_eq] at epoch
  rw [← unit_eq] at unit
  refine ⟨⟨_, decompose_eq created ids, ?_, fun json => ?_⟩, fun ids' same => ?_⟩
  · rw [List.forall₂_map_right_iff, List.forall₂_same, ← layout_eq]
    exact fun raw _ => shows_ofId epoch unit raw
  · rw [decomposedLines, decompose_eq created]
    rfl
  · rw [decompose_eq created, decompose_eq created, map_ofRaw, map_ofRaw, same]

def lastRecord : Record where
  parts := ⟨⟨0x7fffffffffffffff⟩, 549755813887, 65535, 255⟩
  unixMs := 590295812093321509888

theorem last_records_exact :
    let config := Config.plain 1073741824
    Config.ofOptions (.plain 1073741824) = .ok config ∧ config.timeUnit * config.layout.maxElapsed < 2 ^ 128 ∧
      Encoder.lifetimeEnd? config.epoch config.timeUnit config.layout = some (lastRecord.unixMs * Time.millisecond) ∧
      decompose config [0xffffffffffffffff] = .ok [lastRecord] ∧ decompose config [0x7fffffffffffffff] = .ok [lastRecord] ∧
      decomposedLines config [0xffffffffffffffff] false =
        .ok ["9223372036854775807\ttime=549755813887 machine_id=65535 sequence=255 unix_ms=590295812093321509888"] ∧
      (lastRecord.object.entries.filter (·.name = Record.millisName)).map Entry.value =
        ["18446744073709551615".toList] := by
  intro config
  have accepted : Config.ofOptions (.plain 1073741824) = .ok config := by decide +kernel
  have bounded : config.timeUnit * config.layout.maxElapsed < 2 ^ 128 := by decide
  have ends : Encoder.lifetimeEnd? config.epoch config.timeUnit config.layout =
      some (lastRecord.unixMs * Time.millisecond) := by decide +kernel
  have taken : decompose config [0xffffffffffffffff] = .ok [lastRecord] := by decide +kernel
  obtain ⟨⟨records, printed, shows, lines⟩, same⟩ := records_exact accepted bounded ends [0xffffffffffffffff]
  obtain rfl := Except.ok.inj (taken.symm.trans printed)
  obtain ⟨shown, _⟩ := List.forall₂_cons.1 shows
  have line := shown.text_eq
  exact ⟨accepted, bounded, ends, taken, (same [0x7fffffffffffffff] (by decide)).trans taken,
    (lines false).trans (by rw [List.map_singleton, line]; decide +kernel), shown.millis.trans (by decide +kernel)⟩

end LeasedIds.Cli
