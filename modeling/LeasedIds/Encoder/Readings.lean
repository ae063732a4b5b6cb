import LeasedIds.Basic

namespace LeasedIds.Encoder

structure Run where
  time : Nat
  count : Nat
deriving DecidableEq, Repr

abbrev Readings := List Run

namespace Readings

def toList (readings : Readings) : List Nat := readings.flatMap fun run => List.replicate run.count run.time

def size (readings : Readings) : Nat := (readings.map Run.count).sum

def next? : Readings → Option (Nat × Readings)
  | [] => none
  | ⟨_, 0⟩ :: rest => next? rest
  | ⟨time, count + 1⟩ :: rest => some (time, ⟨time, count⟩ :: rest)

theorem toList_cons (run : Run) (rest : Readings) :
    toList (run :: rest) = List.replicate run.count run.time ++ toList rest := List.flatMap_cons

theorem length_toList (readings : Readings) : readings.toList.length = readings.size := by
  simp [toList, size, List.length_flatMap]

theorem toList_eq_of_next? {readings rest : Readings} {time : Nat} (next : readings.next? = some (time, rest)) :
    readings.toList = time :: rest.toList := by
  fun_induction next? readings with
  | case1 => simp at next
  | case2 _ later hypothesis => simpa [toList_cons] using hypothesis next
  | case3 time count later =>
    obtain ⟨rfl, rfl⟩ := Prod.mk.inj (Option.some.inj next)
    simp [toList_cons, List.replicate_succ]

theorem toList_eq_nil_of_next? {readings : Readings} (next : readings.next? = none) : readings.toList = [] := by
  fun_induction next? readings with
  | case1 => rfl
  | case2 _ later hypothesis => simpa [toList_cons] using hypothesis next
  | case3 => simp at next

end Readings
end LeasedIds.Encoder
