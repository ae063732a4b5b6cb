import LeasedIds.Lease.Holder
import Mathlib.Data.List.Chain

/-!
# The cadence of the renewals

A renewal starts when it is due, or when the one before it has ended if that is later. When the next one is due depends
on how late it has started: in time, the cadence goes on; too late, it begins anew.
-/

namespace LeasedIds.Lease

theorem followUp_bounds {due start : Nat} (reached : due ≤ start) (interval : Nat) :
    (start + interval ≤ followUp interval due start + cadenceSlack ∨
        start + Time.longestSleep ≤ followUp interval due start) ∧
      followUp interval due start ≤ start + interval := by
  unfold followUp
  split <;> omega

theorem followUp_self (interval start : Nat) : followUp interval start start = start + min interval Time.longestSleep := by
  rw [followUp, if_neg (Nat.not_lt.2 (Nat.le_add_right _ _))]
  exact Nat.add_min_add_left start interval Time.longestSleep

section

variable (origin : Nat) (terms : Terms)

def dueAfter (starts : List Nat) : Nat :=
  starts.foldl (followUp terms.renewalInterval) (origin + terms.renewalInterval)

def nextStart (starts ends : List Nat) : Nat := max (dueAfter origin terms starts) (ends.getLastD origin)

/-- The renewals so far have started and ended at these instants. -/
inductive Cadence : List Nat → List Nat → Prop where
  | new : Cadence [] []
  | snoc {starts ends : List Nat} {stop : Nat} (cadence : Cadence starts ends)
      (begun : nextStart origin terms starts ends ≤ stop)
      (bounded : stop ≤ nextStart origin terms starts ends + min terms.storeTimeout Time.longestSleep) :
      Cadence (starts ++ [nextStart origin terms starts ends]) (ends ++ [stop])

/-- When a renewal is due if all before it have ended within an interval. -/
def scheduled (count : Nat) : Nat := origin + terms.renewalInterval + count * min terms.renewalInterval Time.longestSleep

def Punctual (starts ends : List Nat) (count : Nat) : Prop :=
  ∀ index < count, ∃ start ∈ starts[index]?, ∃ stop ∈ ends[index]?, stop ≤ start + terms.renewalInterval

def Spaced (start next : Nat) : Prop :=
  (start + terms.renewalInterval ≤ next + cadenceSlack ∨ start + Time.longestSleep ≤ next) ∧
    next ≤ start + max terms.renewalInterval terms.storeTimeout

/-- A lease that has been taken at `origin` has been renewed on time until `now`. -/
structure KeepsTime (now : Nat) (starts ends : List Nat) : Prop where
  first : ∀ start ∈ starts.head?, start = origin + terms.renewalInterval
  spaced : starts.IsChain (Spaced terms)
  /-- The wait for the next renewal is no longer than that, unless the clock is about to end. -/
  followed : ∀ last ∈ starts.getLast?,
    last + max terms.renewalInterval terms.storeTimeout + terms.renewalInterval < Time.instantLimit →
      now < last + max terms.renewalInterval terms.storeTimeout
  on_time : ∀ count, scheduled origin terms count ≤ now → scheduled origin terms (count + 1) < Time.instantLimit →
    Punctual terms starts ends count → starts[count]? = some (scheduled origin terms count)

end

variable {origin now stop count : Nat} {terms : Terms} {starts ends : List Nat}

theorem dueAfter_snoc (origin : Nat) (terms : Terms) (starts : List Nat) (start : Nat) :
    dueAfter origin terms (starts ++ [start]) =
      followUp terms.renewalInterval (dueAfter origin terms starts) start := by
  unfold dueAfter
  rw [List.foldl_append, List.foldl_cons, List.foldl_nil]

theorem scheduled_succ (origin : Nat) (terms : Terms) (count : Nat) :
    scheduled origin terms (count + 1) = scheduled origin terms count + min terms.renewalInterval Time.longestSleep := by
  rw [scheduled, scheduled, Nat.succ_mul, ← Nat.add_assoc]

theorem dueAfter_le_nextStart (origin : Nat) (terms : Terms) (starts ends : List Nat) :
    dueAfter origin terms starts ≤ nextStart origin terms starts ends :=
  Nat.le_max_left _ _

theorem nextStart_snoc (ends : List Nat) (start : Nat) :
    nextStart origin terms (starts ++ [start]) (ends ++ [stop]) =
      max (followUp terms.renewalInterval (dueAfter origin terms starts) start) stop := by
  rw [nextStart, dueAfter_snoc, List.getLastD_concat]

namespace Punctual

theorem le_length (punctual : Punctual terms starts ends count) : count ≤ ends.length := by
  by_contra more
  obtain ⟨_, _, _, none, _⟩ := punctual ends.length (Nat.lt_of_not_le more)
  rw [List.getElem?_eq_none (Nat.le_refl _)] at none
  contradiction

theorem of_append {later later' : List Nat} (punctual : Punctual terms (starts ++ later) (ends ++ later') count)
    (inside : count ≤ starts.length) (inside' : count ≤ ends.length) : Punctual terms starts ends count := by
  intro index before
  have inTime := punctual index before
  rwa [List.getElem?_append_left (Nat.lt_of_lt_of_le before inside),
    List.getElem?_append_left (Nat.lt_of_lt_of_le before inside')] at inTime

end Punctual

namespace Cadence

theorem length_eq (cadence : Cadence origin terms starts ends) : starts.length = ends.length := by
  induction cadence with
  | new => rfl
  | snoc cadence begun bounded hypothesis => rw [List.length_append, List.length_append, hypothesis]; rfl

theorem head?_eq (cadence : Cadence origin terms starts ends) :
    (starts ++ [nextStart origin terms starts ends]).head? = some (origin + terms.renewalInterval) := by
  induction cadence with
  | new => exact congrArg some (Nat.max_eq_left (Nat.le_add_right origin terms.renewalInterval))
  | snoc cadence begun bounded hypothesis =>
      rw [List.head?_append, hypothesis]
      rfl

theorem spaced (cadence : Cadence origin terms starts ends) :
    (starts ++ [nextStart origin terms starts ends]).IsChain (Spaced terms) := by
  induction cadence with
  | new => exact List.isChain_singleton _
  | @snoc starts ends stop cadence begun bounded hypothesis =>
      have bounds := followUp_bounds (dueAfter_le_nextStart origin terms starts ends) terms.renewalInterval
      rw [List.isChain_append]
      refine ⟨hypothesis, List.isChain_singleton _, ?_⟩
      rw [List.getLast?_concat, nextStart_snoc]
      rintro _ ⟨⟩ _ ⟨⟩
      constructor <;> omega

theorem nextStart_eq (cadence : Cadence origin terms starts ends) (punctual : Punctual terms starts ends starts.length) :
    nextStart origin terms starts ends = dueAfter origin terms starts ∧
      dueAfter origin terms starts = scheduled origin terms starts.length := by
  induction cadence with
  | new => simp [nextStart, dueAfter, scheduled]
  | @snoc starts ends stop cadence begun bounded hypothesis =>
      have lengths := cadence.length_eq
      rw [List.length_append, List.length_singleton] at punctual ⊢
      have last := punctual starts.length (Nat.lt_succ_self _)
      rw [List.getElem?_concat_length, lengths, List.getElem?_concat_length] at last
      obtain ⟨_, ⟨⟩, _, ⟨⟩, inTime⟩ := last
      have earlier : Punctual terms starts ends starts.length := by
        refine Punctual.of_append (fun index before => punctual index (Nat.lt_succ_of_lt before)) (Nat.le_refl _) ?_
        exact Nat.le_of_eq lengths
      obtain ⟨onTime, due⟩ := hypothesis earlier
      rw [nextStart_snoc, dueAfter_snoc, ← onTime, followUp_self]
      refine ⟨Nat.max_eq_left ?_, ?_⟩
      · -- A renewal is cut off before a wait would be.
        omega
      · rw [onTime, due, scheduled_succ]

theorem on_time (cadence : Cadence origin terms starts ends) (punctual : Punctual terms starts ends count)
    (started : count < starts.length) : starts[count]? = some (scheduled origin terms count) := by
  induction cadence with
  | new => contradiction
  | @snoc starts ends stop cadence begun bounded hypothesis =>
      rw [List.length_append, List.length_singleton] at started
      have inside := Nat.le_of_lt_succ started
      have punctual := punctual.of_append inside (cadence.length_eq ▸ inside)
      rcases Nat.lt_or_eq_of_le inside with earlier | rfl
      · rw [List.getElem?_append_left earlier]
        exact hypothesis punctual earlier
      · obtain ⟨onTime, due⟩ := cadence.nextStart_eq punctual
        rw [List.getElem?_concat_length, onTime, due]

theorem keepsTime_of_started (cadence : Cadence origin terms starts ends)
    (running : now < nextStart origin terms starts ends + terms.storeTimeout) :
    KeepsTime origin terms now (starts ++ [nextStart origin terms starts ends]) ends where
  first start found := by
    rw [cadence.head?_eq] at found
    exact (Option.some.inj found).symm
  spaced := cadence.spaced
  followed last found _ := by
    rw [List.getLast?_concat] at found
    obtain rfl := Option.some.inj found
    exact Nat.lt_of_lt_of_le running (Nat.add_le_add_left (Nat.le_max_right _ _) _)
  on_time count _ _ punctual := by
    -- The renewal in flight has not ended, so it is none of the first `count`.
    have inside : count ≤ starts.length := cadence.length_eq ▸ punctual.le_length
    have punctual : Punctual terms starts ends count := by
      rw [← List.append_nil ends] at punctual
      exact punctual.of_append inside (cadence.length_eq ▸ inside)
    rcases Nat.lt_or_eq_of_le inside with earlier | rfl
    · rw [List.getElem?_append_left earlier]
      exact cadence.on_time punctual earlier
    · obtain ⟨onTime, due⟩ := cadence.nextStart_eq punctual
      rw [List.getElem?_concat_length, onTime, due]

theorem keepsTime_of_awaited (cadence : Cadence origin terms starts ends)
    (awaited : now < dueAfter origin terms starts ∨ Time.instantLimit ≤
      followUp terms.renewalInterval (dueAfter origin terms starts) (nextStart origin terms starts ends)) :
    KeepsTime origin terms now starts ends where
  first start found := by
    have first := cadence.head?_eq
    rw [List.head?_append, found] at first
    exact Option.some.inj first
  spaced := cadence.spaced.left_of_append
  followed last found room := by
    have next := (List.isChain_append.1 cadence.spaced).2.2 last found _ rfl
    have due := dueAfter_le_nextStart origin terms starts ends
    have bounds := followUp_bounds due terms.renewalInterval
    have := next.2
    omega
  on_time count reached room punctual := by
    have inside : count ≤ starts.length := cadence.length_eq ▸ punctual.le_length
    rcases Nat.lt_or_eq_of_le inside with earlier | rfl
    · exact cadence.on_time punctual earlier
    · obtain ⟨onTime, due⟩ := cadence.nextStart_eq punctual
      rw [onTime, followUp_self, due, ← scheduled_succ] at awaited
      omega

end Cadence
end LeasedIds.Lease
