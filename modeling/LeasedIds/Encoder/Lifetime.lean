import LeasedIds.Encoder

/-!
# Lifetimes and instants in bounded numbers

A span of time units is computed as nanoseconds in 128 bits and kept as whole seconds in 64 bits with a fraction. The
instant at its end has to have its seconds in 63 bits. Each step that does not fit gives none, apart from the product on the
way to the end of a lifetime.
-/

namespace LeasedIds

namespace Time

def span? (length : Nat) : Option Nat :=
  if length / second < 2 ^ 64 then some (clampSpan length) else none

/-- The span of `count` units, kept as whole seconds and a fraction: none if the nanoseconds do not fit in 128 bits, the
seconds in 64 or the fraction in 32. -/
def unitsSpan? (unit count : Nat) : Option Nat :=
  let length := unit * count
  if length < 2 ^ 128 ∧ length / second < 2 ^ 64 ∧ length % second < 2 ^ 32 then
    some (length / second * second + length % second)
  else none

def sum? (left right : Nat) : Option Nat := if left + right ≤ longestSpan then some (left + right) else none

end Time

namespace Encoder

def lifetimeEnd? (epoch timeUnit : Nat) (layout : Layout) : Option Nat := do
  if timeUnit < minTimeUnit then none
  else
    let span ← Time.span? (timeUnit * layout.maxElapsed % 2 ^ 128)
    Time.later? 0 (← Time.sum? epoch span)

def fault? (machineId epoch timeUnit : Nat) (layout : Layout) : Option Error :=
  match lifetimeEnd? epoch timeUnit layout with
  | none => some (.badTimeUnit timeUnit)
  | some _ =>
    if layout.maxMachineId < machineId then some (.machineIdTooLarge machineId layout.maxMachineId) else none

def toTime? (encoder : Encoder) (id : Id) : Option Nat := do
  let span ← Time.unitsSpan? encoder.timeUnit (encoder.layout.elapsed id)
  Time.later? 0 (← Time.sum? encoder.epoch span)

theorem instantLimit_le_longestSpan : Time.instantLimit ≤ Time.longestSpan := by decide

theorem lifetimeEnd?_eq_some_iff {epoch timeUnit last : Nat} {layout : Layout}
    (bounded : timeUnit * layout.maxElapsed < 2 ^ 128) :
    lifetimeEnd? epoch timeUnit layout = some last ↔
      LifetimeRepresentable epoch timeUnit layout ∧ epoch + timeUnit * layout.maxElapsed = last := by
  have limits := instantLimit_le_longestSpan
  unfold lifetimeEnd? LifetimeRepresentable
  rw [Nat.mod_eq_of_lt bounded]
  generalize timeUnit * layout.maxElapsed = length
  by_cases short : timeUnit < minTimeUnit
  · simp [short, Nat.not_le.2 short]
  · simp only [short, if_false, Nat.not_lt.1 short, true_and]
    by_cases seconds : length / Time.second < 2 ^ 64
    · have within : length < 2 ^ 64 * Time.second := (Nat.div_lt_iff_lt_mul (by decide)).1 seconds
      rw [Time.span?, if_pos seconds, Time.clampSpan_of_lt within, Option.bind_eq_bind, Option.bind_some, Time.sum?]
      by_cases sum : epoch + length ≤ Time.longestSpan
      · simp [sum, Time.later?_eq_some_iff]
      · have beyond : ¬ epoch + length < Time.instantLimit := by omega
        simp [sum, beyond]
    · -- Such a span alone has twice the seconds that an instant may have.
      have long : 2 ^ 64 * Time.second ≤ length := (Nat.le_div_iff_mul_le (by decide)).1 (Nat.not_lt.1 seconds)
      have beyond : ¬ epoch + length < Time.instantLimit := by
        have : Time.instantLimit ≤ 2 ^ 64 * Time.second := by decide
        omega
      simp [Time.span?, seconds, beyond]

end Encoder
end LeasedIds
