import LeasedIds.Basic

/-!
# Instants and spans of time

All times are natural numbers of nanoseconds. A span has whole seconds that fit in 64 bits, so the longest one is
`Time.longestSpan`; an instant, counted from 1970-01-01T00:00:00Z, lies before `Time.instantLimit`.
-/

namespace LeasedIds.Time

def microsecond : Nat := 1000

def millisecond : Nat := 1000000

def second : Nat := 1000000000

def ofMillis (count : Nat) : Nat := count * millisecond

/-- The longest span: `2 ^ 64 - 1` seconds and one nanosecond less than a further second. -/
def longestSpan : Nat := (2 ^ 64 - 1) * second + (second - 1)

/-- The first instant that is too late to be represented, `2 ^ 63` seconds after the origin. -/
def instantLimit : Nat := 2 ^ 63 * second

def startOf2025 : Nat := ofMillis 1735689600000

/-- A span of the given length whose whole seconds are capped at `2 ^ 64 - 1`; the fraction of a second is
kept. -/
def clampSpan (length : Nat) : Nat :=
  min (length / second) (2 ^ 64 - 1) * second + length % second

def addCapped (left right : Nat) : Nat := min (left + right) longestSpan

def instant? (time : Nat) : Option Nat := if time < instantLimit then some time else none

def later? (instant span : Nat) : Option Nat := instant? (instant + span)

/-- Thirty years. The runtime cuts every longer wait, be its end representable or not. -/
def longestSleep : Nat := 30 * 365 * 86400 * second

/-- When a wait of `span` that begins at `instant` ends. It ends there also if the clock does not go so far. -/
def sleepEnd (instant span : Nat) : Nat := instant + min span longestSleep

/-- The first whole millisecond at or after an instant. Timers fire on whole milliseconds. -/
def ceilMillis (instant : Nat) : Nat := (instant + (millisecond - 1)) / millisecond * millisecond

theorem instant?_eq_some_iff {time instant : Nat} : instant? time = some instant ↔ time < instantLimit ∧ time = instant := by
  unfold instant?
  split <;> grind

theorem instant?_eq_none_iff {time : Nat} : instant? time = none ↔ instantLimit ≤ time := by
  unfold instant?
  split <;> simp_all

theorem later?_eq_some_iff {instant span later : Nat} :
    later? instant span = some later ↔ instant + span < instantLimit ∧ instant + span = later :=
  instant?_eq_some_iff

theorem later?_eq_none_iff {instant span : Nat} : later? instant span = none ↔ instantLimit ≤ instant + span :=
  instant?_eq_none_iff

theorem clampSpan_of_lt {length : Nat} (short : length < 2 ^ 64 * second) : clampSpan length = length := by
  have capped : length / second ≤ 2 ^ 64 - 1 := by
    have := Nat.div_lt_of_lt_mul (Nat.mul_comm .. ▸ short)
    omega
  rw [clampSpan, Nat.min_eq_left capped, Nat.mul_comm]
  exact Nat.div_add_mod length second

end LeasedIds.Time
