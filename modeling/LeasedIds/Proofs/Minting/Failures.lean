import LeasedIds.Proofs.Minting.Registers
import Mathlib.Data.List.Flatten

namespace LeasedIds

namespace Encoder

def Outcome.isClockFailure : Outcome → Bool
  | .failed .clockBeforeEpoch | .failed (.timeExhausted _ _) => true
  | _ => false

variable {encoder : Encoder}

theorem registers_eq_of_failed {registers after : Registers} {error : Error}
    (fits : registers.position.Fits encoder.layout)
    (failed : encoder.nextInPlace registers = .error (.failed error) after) :
    after.lastElapsed = registers.lastElapsed ∧ after.sequence = registers.sequence := by
  have call := nextInPlace_ofPosition fits registers.readings
  rw [Registers.ofPosition_position, failed, Ending.inRegisters] at call
  obtain ⟨taken, _, _, course⟩ := exists_course encoder registers.position none registers.readings
  rw [finish] at course
  generalize encoder.nextId registers.position registers.readings = ending at call course
  obtain ⟨outcome, position, rest⟩ := ending
  cases outcome with
  | minted id => contradiction
  | starved =>
      have impossible := (EStateM.Result.error.inj call).1
      contradiction
  | failed cause =>
      obtain rfl : position = registers.position := course.position_eq fun _ => Outcome.noConfusion
      obtain ⟨_, rfl⟩ := EStateM.Result.error.inj call
      simp [Registers.ofPosition, Registers.position]

end Encoder

namespace Minter
open Encoder

/-- Two minters that differ in their clocks only. -/
structure Alike (minter other : Minter) : Prop where
  encoder_eq : other.encoder = minter.encoder
  position_eq : other.position = minter.position
  poisoned_eq : other.poisoned = minter.poisoned

variable {minter other : Minter}

theorem taken_of_poisoned (poisoned : minter.poisoned = true) : minter.taken = [] := by
  apply taken_eq
  rw [next_of_poisoned poisoned]
  rfl

theorem Alike.next (alike : minter.Alike other) {more : List Nat}
    (clock : other.readings.toList = minter.taken ++ more) (ended : minter.next.1 = .starved → more = []) :
    other.next.1 = minter.next.1 ∧ other.taken = minter.taken ∧ other.next.2.readings.toList = more ∧
      minter.next.2.Alike other.next.2 := by
  cases poisoned : minter.poisoned with
  | true =>
      have poisoned' : other.poisoned = true := alike.poisoned_eq.trans poisoned
      rw [taken_of_poisoned poisoned] at clock ⊢
      rw [taken_of_poisoned poisoned', next_of_poisoned poisoned, next_of_poisoned poisoned']
      exact ⟨rfl, rfl, clock, alike⟩
  | false =>
      have working : other.poisoned = false := alike.poisoned_eq.trans poisoned
      have course := (course_next poisoned).2
      have call : other.encoder.nextId other.position other.readings.toList =
          ⟨minter.next.1, minter.next.2.position, more⟩ := by
        rw [alike.encoder_eq, alike.position_eq, clock]
        exact course.finish_append ended
      obtain ⟨outcome, encoder, position, readings, poisons⟩ := next_of_working working call
      obtain ⟨outcome', encoder', _, _, poisons'⟩ := next_of_working poisoned rfl
      refine ⟨outcome, taken_eq ?_, readings, ?_, position, ?_⟩
      · rw [readings, clock]
      · rw [encoder, encoder', alike.encoder_eq]
      · rw [poisons, poisons', ← outcome']

theorem alike_next_of_failed {error : Error} (failed : minter.next.1 = .failed error) : minter.next.2.Alike minter := by
  cases poisoned : minter.poisoned with
  | true =>
      rw [next_of_poisoned poisoned]
      exact ⟨rfl, rfl, rfl⟩
  | false =>
      have course := (course_next poisoned).2
      obtain ⟨outcome, _, _, _, poisons⟩ := next_of_working poisoned rfl
      rw [failed] at course
      rw [← outcome, failed] at poisons
      have stays := course.position_eq fun _ => Outcome.noConfusion
      exact ⟨minter.encoder_next.symm, stays.symm, poisoned.trans poisons.symm⟩

theorem Alike.trans {third : Minter} (first : minter.Alike other) (second : other.Alike third) : minter.Alike third :=
  ⟨second.encoder_eq.trans first.encoder_eq, second.position_eq.trans first.position_eq,
    second.poisoned_eq.trans first.poisoned_eq⟩

def withoutFailures (log : List Entry) : List Entry := log.filter fun entry => !entry.outcome.isClockFailure

/-- A clock without the readings that such calls take of it. -/
def sparedReadings (minter : Minter) (calls : Nat) : List Nat :=
  (withoutFailures (minter.log calls)).flatMap Entry.taken ++ (minter.take calls).2.readings.toList

theorem sparedReadings_sublist (minter : Minter) (calls : Nat) :
    (minter.sparedReadings calls).Sublist minter.readings.toList := by
  rw [minter.readings_eq_heard_append calls]
  exact (List.filter_sublist.flatMap Entry.taken).append_right _

theorem exists_error_of_isClockFailure {outcome : Outcome} (failed : outcome.isClockFailure = true) :
    ∃ error, outcome = .failed error := by
  cases outcome with
  | minted _ | starved => contradiction
  | failed error => exact ⟨error, rfl⟩

theorem Alike.log_withoutFailures (alike : minter.Alike other) {calls : Nat}
    (clock : other.readings.toList = minter.sparedReadings calls) :
    let kept := withoutFailures (minter.log calls)
    other.log kept.length = kept ∧ (minter.take calls).2.Alike (other.take kept.length).2 := by
  induction calls generalizing minter other with
  | zero => exact ⟨rfl, alike⟩
  | succ calls hypothesis =>
      have first : minter.log (calls + 1) = ⟨minter.next.1, minter.taken⟩ :: minter.next.2.log calls := rfl
      have last : (minter.take (calls + 1)).2 = (minter.next.2.take calls).2 := rfl
      rw [sparedReadings, last] at clock
      rw [last]
      cases failed : minter.next.1.isClockFailure with
      | true =>
          have kept : withoutFailures (minter.log (calls + 1)) = withoutFailures (minter.next.2.log calls) := by
            simp [withoutFailures, first, failed]
          -- The other minter does not make the call, and stays where this one is after it.
          obtain ⟨error, fails⟩ := exists_error_of_isClockFailure failed
          rw [kept] at clock ⊢
          exact hypothesis ((alike_next_of_failed fails).trans alike) clock
      | false =>
          have kept : withoutFailures (minter.log (calls + 1)) =
              ⟨minter.next.1, minter.taken⟩ :: withoutFailures (minter.next.2.log calls) := by
            simp [withoutFailures, first, failed]
          rw [kept, List.flatMap_cons, List.append_assoc] at clock
          -- What breaks down has read its clock to the end, so the calls behind it take nothing.
          have ended (starved : minter.next.1 = .starved) : minter.next.2.sparedReadings calls = [] := by
            have left := minter.next.2.sparedReadings_sublist calls
            rwa [readings_eq_nil_of_starved starved, List.sublist_nil] at left
          obtain ⟨outcome, taken, rest, next⟩ := alike.next clock ended
          obtain ⟨log, later⟩ := hypothesis next rest
          rw [kept]
          refine ⟨?_, later⟩
          rw [List.length_cons, Minter.log, outcome, taken, log]

theorem outcomes_withoutFailures (minter : Minter) (calls : Nat) :
    (withoutFailures (minter.log calls)).map Entry.outcome =
      (minter.take calls).1.filter fun outcome => !outcome.isClockFailure := by
  rw [← map_outcome_log, List.filter_map]
  rfl

/-- A call that fails on what the clock shows has written to no register, in any state that an encoder comes to and on
any clock. So a run without such calls, on a clock without the readings that they have taken, is the run of the others:
they take the same readings, come to the same and leave the same position. -/
theorem clock_failures_invisible (encoder : Encoder) (readings : Readings) (calls : Nat) :
    let start := ofEncoder encoder readings
    let minter := (start.take calls).2
    (∀ registers : Registers, registers.position = minter.position →
      encoder.nextInPlace registers = (encoder.nextId minter.position registers.readings).inRegisters ∧
        ∀ error after, encoder.nextInPlace registers = .error (.failed error) after →
          after.lastElapsed = registers.lastElapsed ∧ after.sequence = registers.sequence) ∧
    (∀ error, minter.next.1 = .failed error →
      minter.next.2.position = minter.position ∧ minter.next.2.poisoned = minter.poisoned) ∧
    ∀ spared : Readings, spared.toList = start.sparedReadings calls →
      let kept := withoutFailures (start.log calls)
      let rerun := (ofEncoder encoder spared).take kept.length
      (ofEncoder encoder spared).log kept.length = kept ∧
        rerun.1 = (start.take calls).1.filter (fun outcome => !outcome.isClockFailure) ∧
        rerun.2.position = minter.position := by
  intro start minter
  have valid : minter.position.Valid encoder.layout := valid_take encoder readings calls
  refine ⟨?_, ?_, ?_⟩
  · intro registers same
    have fits : registers.position.Fits encoder.layout := same ▸ valid.toFits
    have call := nextInPlace_ofPosition fits registers.readings
    rw [Registers.ofPosition_position, same] at call
    exact ⟨call, fun error after failed => registers_eq_of_failed fits failed⟩
  · intro error failed
    have alike := alike_next_of_failed failed
    exact ⟨alike.position_eq.symm, alike.poisoned_eq.symm⟩
  · intro spared clock kept rerun
    have alike : start.Alike (ofEncoder encoder spared) := ⟨rfl, rfl, rfl⟩
    obtain ⟨log, later⟩ := alike.log_withoutFailures clock
    refine ⟨log, ?_, later.position_eq⟩
    rw [← map_outcome_log, log]
    exact outcomes_withoutFailures start calls

theorem narrow_clock_failures_invisible :
    let start := ofEncoder narrow [⟨1005 * Time.millisecond, 3⟩, ⟨999 * Time.millisecond, 1⟩,
      ⟨1005 * Time.millisecond, 2⟩, ⟨1009 * Time.millisecond, 1⟩, ⟨2 ^ 62 * Time.millisecond, 1⟩,
      ⟨1001 * Time.millisecond, 2⟩, ⟨1020 * Time.millisecond, 1⟩]
    let spared : Readings := [⟨1005 * Time.millisecond, 4⟩, ⟨1009 * Time.millisecond, 1⟩,
      ⟨1001 * Time.millisecond, 2⟩, ⟨1020 * Time.millisecond, 1⟩]
    (start.take 7).1 =
        [.minted ⟨22⟩, .minted ⟨23⟩, .failed .clockBeforeEpoch, .minted ⟨26⟩,
          .failed (.timeExhausted (2 ^ 62 - 1000) (2 ^ 61 - 1)), .minted ⟨27⟩, .minted ⟨30⟩] ∧
      spared.toList = start.sparedReadings 7 ∧
      narrow.nextInPlace ⟨5, 1, [1005 * Time.millisecond, 999 * Time.millisecond]⟩ =
        .error (.failed .clockBeforeEpoch) ⟨5, 1, []⟩ ∧
      ((ofEncoder narrow spared).take 5).1 =
        [.minted ⟨22⟩, .minted ⟨23⟩, .minted ⟨26⟩, .minted ⟨27⟩, .minted ⟨30⟩] := by
  intro start spared
  have outcomes : (start.take 7).1 = [.minted ⟨22⟩, .minted ⟨23⟩, .failed .clockBeforeEpoch, .minted ⟨26⟩,
      .failed (.timeExhausted (2 ^ 62 - 1000) (2 ^ 61 - 1)), .minted ⟨27⟩, .minted ⟨30⟩] := by decide +kernel
  have clock : spared.toList = start.sparedReadings 7 := by decide +kernel
  obtain ⟨_, _, spares⟩ := clock_failures_invisible narrow _ 7
  obtain ⟨inPlace, _⟩ := clock_failures_invisible narrow [⟨1005 * Time.millisecond, 2⟩] 2
  refine ⟨outcomes, clock, ?_, ?_⟩
  · exact (inPlace ⟨5, 1, [1005 * Time.millisecond, 999 * Time.millisecond]⟩ (by decide +kernel)).1.trans (by rfl)
  · have rerun := (spares spared clock).2.1
    have kept : (withoutFailures (start.log 7)).length = 5 := by decide +kernel
    rw [outcomes] at rerun
    rw [← kept]
    exact rerun.trans (by decide)

end Minter
end LeasedIds
