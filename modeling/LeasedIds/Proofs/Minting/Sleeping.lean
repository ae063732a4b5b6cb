import LeasedIds.Encoder.Pauses
import LeasedIds.Proofs.Minting.Waiting

namespace LeasedIds

namespace Encoder

variable {encoder : Encoder} {position : Position} {next now units : Nat} {readings taken heard : List Nat}

theorem wakeTime_eq (fits : next ≤ encoder.layout.maxElapsed) :
    encoder.wakeTime next = encoder.epoch + next * encoder.timeUnit := by
  have start := encoder.start_lt_instantLimit fits
  have short : encoder.timeUnit * next < 2 ^ 64 * Time.second := by
    have : Time.instantLimit ≤ 2 ^ 64 * Time.second := by decide
    omega
  have inside : encoder.epoch + encoder.timeUnit * next ≤ Time.longestSpan :=
    Nat.le_of_lt (Nat.lt_of_lt_of_le start instantLimit_le_longestSpan)
  rw [wakeTime, Time.clampSpan_of_lt short, Time.addCapped, Nat.min_eq_left inside, Nat.mul_comm]

theorem wakeTime?_eq (fits : next ≤ encoder.layout.maxElapsed) :
    encoder.wakeTime? next = some (encoder.epoch + next * encoder.timeUnit) := by
  obtain ⟨span, sum⟩ := encoder.start_exact fits
  rw [wakeTime?, span, Option.bind_eq_bind, Option.bind_some, sum, Nat.mul_comm]

theorem le_unitAt_iff (positive : 0 < units) :
    units ≤ encoder.unitAt now ↔ encoder.epoch + units * encoder.timeUnit ≤ now := by
  refine ⟨start_le_of_le_unitAt positive, fun begun => ?_⟩
  exact (Nat.le_div_iff_mul_le encoder.timeUnit_pos).2 (by omega)

theorem resume_eq_waiting_iff (fits : next ≤ encoder.layout.maxElapsed) :
    encoder.resume next now = .waiting next ↔ encoder.epoch ≤ now ∧ encoder.unitAt now < next := by
  unfold resume
  cases read : encoder.elapsedUnits now with
  | error error =>
      simp only [reduceCtorEq, false_iff, not_and]
      intro counted before
      have inside : encoder.unitAt now ≤ encoder.layout.maxElapsed := Nat.le_of_lt (Nat.lt_of_lt_of_le before fits)
      rw [encoder.elapsedUnits_eq_ok_iff.2 ⟨counted, rfl, inside⟩] at read
      contradiction
  | ok unit =>
      obtain ⟨counted, rfl, _⟩ := encoder.elapsedUnits_eq_ok_iff.1 read
      by_cases reached : next ≤ encoder.unitAt now
      · simp [reached, mint]
      · simp [reached, counted, Nat.lt_of_not_le reached]

theorem Backed.start_le (backed : encoder.Backed heard position) (counted : encoder.epoch ≤ now)
    (latest : ∀ reading ∈ heard, reading ≤ now) : encoder.epoch + position.lastElapsed * encoder.timeUnit ≤ now := by
  have reached := backed.le_unitAt latest
  rcases Nat.eq_zero_or_pos position.lastElapsed with zero | positive
  · rwa [zero, Nat.zero_mul]
  · exact start_le_of_le_unitAt positive reached

theorem pauseAt_of_waiting (fits : next ≤ encoder.layout.maxElapsed) (waits : encoder.resume next now = .waiting next) :
    ∃ span, encoder.pauseAt next now = .sleep span ∧ 0 < span ∧ now + span = encoder.epoch + next * encoder.timeUnit := by
  obtain ⟨_, before⟩ := (resume_eq_waiting_iff fits).1 waits
  have early : now < encoder.epoch + next * encoder.timeUnit := by
    refine Nat.lt_of_not_le fun begun => ?_
    exact absurd ((le_unitAt_iff (Nat.zero_lt_of_lt before)).2 begun) (Nat.not_le.2 before)
  refine ⟨encoder.remaining next now, if_neg ?_, ?_, ?_⟩ <;> rw [remaining, wakeTime_eq fits] <;> omega

theorem mem_awaitPauses {pause : Pause} (member : (now, pause) ∈ encoder.awaitPauses next readings) :
    now ∈ readings ∧ encoder.resume next now = .waiting next ∧ pause = encoder.pauseAt next now := by
  induction readings with
  | nil => contradiction
  | cons reading readings hypothesis =>
      rw [awaitPauses] at member
      cases progress : encoder.resume next reading with
      | minted | failed => simp [progress] at member
      | waiting unit =>
          obtain rfl := resume_eq_waiting progress
          rw [progress, List.mem_cons] at member
          rcases member with same | member
          · obtain ⟨rfl, rfl⟩ := Prod.mk.inj same
            exact ⟨List.mem_cons_self, progress, rfl⟩
          · exact (hypothesis member).imp_left (List.mem_cons_of_mem reading)

theorem mem_pauses {pause : Pause} (fits : position.Fits encoder.layout)
    (member : (now, pause) ∈ encoder.pauses position readings) :
    ∃ first later, readings = first :: later ∧ encoder.NeedsToWait position first ∧ now ∈ later ∧
      encoder.resume (position.lastElapsed + 1) now = .waiting (position.lastElapsed + 1) ∧
      pause = encoder.pauseAt (position.lastElapsed + 1) now := by
  cases readings with
  | nil => contradiction
  | cons first later =>
      rw [pauses] at member
      cases progress : encoder.start position first with
      | minted | failed => simp [progress] at member
      | waiting next =>
          obtain ⟨waits, rfl⟩ := (start_eq_waiting_iff fits).1 progress
          rw [progress] at member
          exact ⟨first, later, rfl, waits, mem_awaitPauses member⟩

theorem sleep_le_timeUnit {pause : Pause} (fits : position.Fits encoder.layout) (backed : encoder.Backed heard position)
    (ordered : (heard ++ taken).Pairwise (· ≤ ·)) (member : (now, pause) ∈ encoder.pauses position taken) :
    ∃ span, pause = .sleep span ∧ span ≤ encoder.timeUnit ∧
      now + span = encoder.epoch + (position.lastElapsed + 1) * encoder.timeUnit := by
  obtain ⟨first, later, rfl, waits, read, waiting, rfl⟩ := mem_pauses fits member
  obtain ⟨span, sleeps, _, ends⟩ := pauseAt_of_waiting waits.room waiting
  have latest (reading : Nat) (earlier : reading ∈ heard) : reading ≤ now :=
    (List.pairwise_append.1 ordered).2.2 reading earlier now (List.mem_cons_of_mem first read)
  have begun := backed.start_le ((resume_eq_waiting_iff waits.room).1 waiting).1 latest
  refine ⟨span, sleeps, ?_, ends⟩
  rw [Nat.succ_mul] at ends
  omega

end Encoder

namespace Minter
open Encoder

def pauses (minter : Minter) : List (Nat × Pause) := minter.encoder.pauses minter.position minter.taken

/-- The instant that ends a wait is the start of the unit that is waited for, and nothing is cut on the way to it. A reading
that leaves the call waiting lies before it, and the sleep after that reading ends on it. If the clock has not gone back, no
sleep is longer than a unit. -/
theorem sleeps_end_on_next_unit (encoder : Encoder) :
    (∀ position : Position, position.lastElapsed < encoder.layout.maxElapsed →
      let next := position.lastElapsed + 1
      let target := encoder.epoch + next * encoder.timeUnit
      encoder.wakeTime next = target ∧ encoder.wakeTime? next = some target ∧
        (∀ instant, next ≤ encoder.unitAt instant ↔ target ≤ instant) ∧
        ∀ now, (encoder.resume next now = .waiting next ↔ encoder.epoch ≤ now ∧ encoder.unitAt now < next) ∧
          (encoder.resume next now = .waiting next →
            ∃ span, encoder.pauseAt next now = .sleep span ∧ 0 < span ∧ now + span = target)) ∧
    ∀ readings calls,
      let start := ofEncoder encoder readings
      let minter := (start.take calls).2
      (start.heard (calls + 1)).Pairwise (· ≤ ·) → ∀ now pause, (now, pause) ∈ minter.pauses →
        ∃ span, pause = .sleep span ∧ span ≤ encoder.timeUnit ∧
          now + span = encoder.epoch + (minter.position.lastElapsed + 1) * encoder.timeUnit := by
  refine ⟨fun position room => ?_, ?_⟩
  · exact ⟨wakeTime_eq room, wakeTime?_eq room, fun _ => le_unitAt_iff (Nat.succ_pos _),
      fun _ => ⟨resume_eq_waiting_iff room, pauseAt_of_waiting room⟩⟩
  · intro readings calls start minter ordered now pause member
    have fits : minter.position.Fits encoder.layout := (valid_take encoder readings calls).toFits
    have same : minter.encoder = encoder := encoder_take start calls
    rw [pauses, same] at member
    rw [heard_succ] at ordered
    exact sleep_le_timeUnit fits (backed_take encoder readings calls) ordered member

theorem narrow_sleeps_end_on_next_unit :
    let start := ofEncoder narrow [⟨1005 * Time.millisecond, 4⟩, ⟨1007 * Time.millisecond, 1⟩]
    (start.heard 3).Pairwise (· ≤ ·) ∧
      (start.take 2).2.pauses = [(1005 * Time.millisecond, .sleep Time.millisecond)] ∧
      Time.millisecond ≤ narrow.timeUnit ∧ narrow.wakeTime? 6 = some (1006 * Time.millisecond) ∧
      ∃ span, narrow.pauseAt 6 (1005 * Time.millisecond + 1) = .sleep span ∧
        1005 * Time.millisecond + 1 + span = 1006 * Time.millisecond := by
  intro start
  have ordered : (start.heard 3).Pairwise (· ≤ ·) := by decide
  have sleeps : (start.take 2).2.pauses = [(1005 * Time.millisecond, .sleep Time.millisecond)] := by decide
  obtain ⟨wakes, ends⟩ := sleeps_end_on_next_unit narrow
  obtain ⟨_, target, _, waits⟩ := wakes ⟨5, 1⟩ (by decide)
  obtain ⟨span, same, short, _⟩ := ends _ 2 ordered _ _ (sleeps ▸ List.mem_singleton_self _)
  obtain ⟨rest, pause, _, total⟩ := (waits (1005 * Time.millisecond + 1)).2 (by decide)
  obtain rfl := Pause.sleep.inj same
  exact ⟨ordered, sleeps, short, target, rest, pause, total⟩

end Minter
end LeasedIds
