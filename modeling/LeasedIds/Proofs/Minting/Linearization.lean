import LeasedIds.Proofs.Minting.Threads

namespace LeasedIds.Crew
open Encoder

variable {broken crew : Crew} {minter : Minter} {index other : Nat} {thread changed : Thread}

def Breaks (crew : Crew) (index : Nat) : Prop :=
  crew.readings = [] ∧ ∃ thread awaited?, crew.threads[index]? = some thread ∧ thread.phase = .reading awaited?

structure Breaking (broken : Crew) (index : Nat) (crew : Crew) : Prop where
  held : crew.holder? = some index
  leaving : ∀ thread, crew.threads[index]? = some thread → thread.phase = .leaving .starved
  outside : ∀ other thread, crew.threads[other]? = some thread → other ≠ index → thread.phase.isInside = false
  histories_eq : crew.histories = broken.histories

def refusals (count : Nat) : List Outcome := List.replicate count (.failed .encoderPoisoned)

/-- What the calls of a thread return once the call of the thread `index` has broken down. -/
def afterwards (index other count : Nat) : List Outcome := (if other = index then [.starved] else []) ++ refusals count

structure Refusing (broken : Crew) (index : Nat) (crew : Crew) : Prop where
  poisoned : crew.poisoned = true
  outside : ∀ thread ∈ crew.threads, thread.phase.isInside = false ∨ thread.phase = .leaving (.failed .encoderPoisoned)
  histories : ∀ other history, crew.histories[other]? = some history →
    ∃ before count, broken.histories[other]? = some before ∧ history = before ++ afterwards index other count

structure Stuck (broken : Crew) (index : Nat) (crew : Crew) : Prop where
  position_eq : crew.position = broken.position
  reads_eq : crew.reads = broken.reads + 1
  stage : Breaking broken index crew ∨ Refusing broken index crew

theorem Follows.stuck (follows : crew.Follows minter) (breaks : crew.Breaks index) :
    crew.position = minter.position ∧ Stuck crew index (crew.step index) := by
  obtain ⟨left, thread, awaited?, present, reading⟩ := breaks
  obtain ⟨held, _, _, unmoved, _⟩ := follows.inside present reading rfl
  have after : crew.step index =
      { crew with reads := crew.reads + 1 }.put index { thread with phase := .leaving .starved } := by
    rw [step_eq present, act, reading]
    simp only [left]
  rw [after]
  refine ⟨unmoved, rfl, rfl, .inl ⟨held, ?_, ?_, map_outcomes_set present _⟩⟩
  · intro found present
    obtain ⟨_, rfl⟩ | ⟨different, _⟩ := getElem?_set_cases present
    · rfl
    · exact absurd rfl different
  · intro other found present different
    obtain ⟨same, _⟩ | ⟨_, present⟩ := getElem?_set_cases present
    · exact absurd same different
    · exact follows.outside_of_ne held present different

theorem Breaking.call (breaking : Breaking broken index crew) (present : crew.threads[other]? = some thread)
    (different : other ≠ index) : Breaking broken index (crew.put other { thread with phase := .called }) := by
  refine ⟨breaking.held, ?_, ?_, (map_outcomes_set present _).trans breaking.histories_eq⟩
  · intro found present
    obtain ⟨same, _⟩ | ⟨_, present⟩ := getElem?_set_cases present
    · exact absurd same.symm different
    · exact breaking.leaving found present
  · intro another found present elsewhere
    obtain ⟨_, rfl⟩ | ⟨_, present⟩ := getElem?_set_cases present
    · rfl
    · exact breaking.outside another found present elsewhere

theorem Breaking.unlock (breaking : Breaking broken index crew) (present : crew.threads[index]? = some thread)
    (leaving : thread.phase = .leaving .starved) : Refusing broken index (crew.act index thread) := by
  rw [act, leaving]
  refine ⟨by simp [Crew.put], ?_, ?_⟩
  · intro found member
    obtain ⟨another, present⟩ := List.mem_iff_getElem?.1 member
    obtain ⟨_, rfl⟩ | ⟨different, present⟩ := getElem?_set_cases present
    · exact .inl rfl
    · exact .inl (breaking.outside another found present different)
  · intro another history found
    obtain ⟨changed, present', rfl⟩ := getElem?_histories_iff.1 found
    have before (known : Thread) (here : crew.threads[another]? = some known) :
        broken.histories[another]? = some known.outcomes := breaking.histories_eq ▸ getElem?_histories here
    obtain ⟨rfl, rfl⟩ | ⟨different, present'⟩ := getElem?_set_cases present'
    · exact ⟨thread.outcomes, 0, before thread present, by simp [afterwards, refusals]⟩
    · exact ⟨changed.outcomes, 0, before changed present', by simp [afterwards, refusals, different]⟩

theorem Breaking.step (breaking : Breaking broken index crew) (other : Nat) :
    (crew.step other).position = crew.position ∧ (crew.step other).reads = crew.reads ∧
      (Breaking broken index (crew.step other) ∨ Refusing broken index (crew.step other)) := by
  cases present : crew.threads[other]? with
  | none =>
      rw [step_of_absent present]
      exact ⟨rfl, rfl, .inl breaking⟩
  | some thread =>
      rw [step_eq present]
      by_cases same : other = index
      · subst same
        have leaving := breaking.leaving thread present
        have refusing := breaking.unlock present leaving
        rw [act, leaving] at refusing ⊢
        exact ⟨rfl, rfl, .inr refusing⟩
      · have outside := breaking.outside other thread present same
        cases phase : thread.phase with
        | idle =>
            rw [act, phase]
            exact ⟨rfl, rfl, .inl (breaking.call present same)⟩
        | called =>
            have locked : crew.holder?.isSome = true := by rw [breaking.held]; rfl
            rw [act, phase]
            dsimp only
            rw [if_pos locked]
            exact ⟨rfl, rfl, .inl breaking⟩
        | reading _ => rw [phase] at outside; contradiction
        | committing _ _ => rw [phase] at outside; contradiction
        | leaving _ => rw [phase] at outside; contradiction

theorem Refusing.set (refusing : Refusing broken index crew) (present : crew.threads[other]? = some thread)
    {after : Crew} (threads_eq : after.threads = crew.threads.set other changed) (poisoned : after.poisoned = true)
    (outside : changed.phase.isInside = false ∨ changed.phase = .leaving (.failed .encoderPoisoned))
    (outcomes : ∃ more, changed.outcomes = thread.outcomes ++ refusals more) : Refusing broken index after := by
  refine ⟨poisoned, ?_, ?_⟩
  · intro found member
    rw [threads_eq] at member
    rcases List.mem_or_eq_of_mem_set member with before | rfl
    · exact refusing.outside found before
    · exact outside
  · intro another history found
    obtain ⟨known, present', rfl⟩ := getElem?_histories_iff.1 found
    rw [threads_eq] at present'
    obtain ⟨rfl, rfl⟩ | ⟨_, present'⟩ := getElem?_set_cases present'
    · obtain ⟨before, count, earlier, same⟩ := refusing.histories another thread.outcomes (getElem?_histories present)
      obtain ⟨more, longer⟩ := outcomes
      refine ⟨before, count + more, earlier, ?_⟩
      simp [longer, same, afterwards, refusals]
    · exact refusing.histories another known.outcomes (getElem?_histories present')

theorem Refusing.step (refusing : Refusing broken index crew) (other : Nat) :
    (crew.step other).position = crew.position ∧ (crew.step other).reads = crew.reads ∧
      Refusing broken index (crew.step other) := by
  cases present : crew.threads[other]? with
  | none =>
      rw [step_of_absent present]
      exact ⟨rfl, rfl, refusing⟩
  | some thread =>
      have noMore : ∃ more, thread.outcomes = thread.outcomes ++ refusals more := ⟨0, by simp [refusals]⟩
      have outside := refusing.outside thread (List.mem_of_getElem? present)
      rw [step_eq present]
      cases phase : thread.phase with
      | idle =>
          rw [act, phase]
          exact ⟨rfl, rfl, refusing.set present rfl refusing.poisoned (.inl rfl) noMore⟩
      | called =>
          rw [act, phase]
          cases holder : crew.holder? with
          | some _ => exact ⟨rfl, rfl, refusing⟩
          | none =>
              refine ⟨rfl, rfl, refusing.set present rfl refusing.poisoned (.inr ?_) noMore⟩
              simp [refusing.poisoned]
      | reading _ => rw [phase] at outside; simp [CallPhase.isInside] at outside
      | committing _ _ => rw [phase] at outside; simp [CallPhase.isInside] at outside
      | leaving outcome =>
          obtain rfl : outcome = .failed .encoderPoisoned := by
            rw [phase] at outside
            simpa [CallPhase.isInside] using outside
          rw [act, phase]
          exact ⟨rfl, rfl, refusing.set present rfl (by simp [Crew.put, refusing.poisoned]) (.inl rfl) ⟨1, rfl⟩⟩

theorem Stuck.step (stuck : Stuck broken index crew) (other : Nat) : Stuck broken index (crew.step other) := by
  obtain ⟨position_eq, reads_eq, breaking | refusing⟩ := stuck
  · obtain ⟨unmoved, unread, stage⟩ := breaking.step other
    exact ⟨unmoved.trans position_eq, unread.trans reads_eq, stage⟩
  · obtain ⟨unmoved, unread, refusing⟩ := refusing.step other
    exact ⟨unmoved.trans position_eq, unread.trans reads_eq, .inr refusing⟩

theorem Stuck.run (stuck : Stuck broken index crew) (later : List Nat) : Stuck broken index (crew.run later) := by
  induction later generalizing crew with
  | nil => exact stuck
  | cons next later hypothesis => exact hypothesis (stuck.step next)

structure Sequential (crew : Crew) (row : List Outcome) : Prop where
  outcomes_perm : crew.outcomes.Perm row
  ids_nodup : (mintedIds crew.outcomes).Nodup
  histories : ∀ history ∈ crew.histories, history.Sublist row ∧ (mintedIds history).Pairwise (· < ·)

/-- Threads on one encoder return what as many calls in a row return, and a call that breaks down is the last that does
anything. -/
theorem calls_linearizable (encoder : Encoder) (readings : Readings) (count : Nat) (schedule : List Nat) :
    let crew := (start encoder readings.toList count).run schedule
    let row := (Minter.ofEncoder encoder readings).take crew.outcomes.length
    crew.Sequential row.1 ∧
      ∀ index, crew.Breaks index → crew.position = row.2.position ∧
        ∀ later, Stuck crew index ((crew.step index).run later) := by
  intro crew row
  obtain ⟨calls, matched⟩ := matches_run encoder readings count schedule
  obtain rfl : calls = crew.outcomes.length := by rw [matched.perm.length_eq, Minter.length_take]
  have increasing : (mintedIds row.1).Pairwise (· < ·) := by
    have new : (Minter.ofEncoder encoder readings).encoder.Series [] (Minter.ofEncoder encoder readings).position :=
      .fresh
    exact (Minter.series_take new crew.outcomes.length).pairwise_lt
  refine ⟨⟨matched.perm, ?_, ?_⟩, ?_⟩
  · have distinct : (mintedIds row.1).Nodup :=
      increasing.imp fun less same => UInt64.ne_of_lt less (congrArg Id.raw same)
    exact (matched.perm.filterMap _).nodup_iff.2 distinct
  · intro history member
    have part := matched.sublist history member
    exact ⟨part, increasing.sublist (part.filterMap _)⟩
  · intro index breaks
    obtain ⟨unmoved, stuck⟩ := matched.follows.stuck breaks
    exact ⟨unmoved, stuck.run⟩

theorem starved_calls_linearizable :
    let readings : Readings := [⟨1005 * Time.millisecond, 3⟩]
    let crew := (start narrow readings.toList 2).run [0, 1, 0, 1, 0, 0, 0, 1, 1, 1, 1, 0, 1, 0, 0, 1]
    let row := (Minter.ofEncoder narrow readings).take crew.outcomes.length
    let later := (crew.step 0).run [1, 0, 0, 1, 1, 0, 0]
    crew.histories = [[.minted ⟨22⟩], [.minted ⟨23⟩]] ∧ crew.Breaks 0 ∧
      later.histories =
        [[.minted ⟨22⟩, .starved, .failed .encoderPoisoned], [.minted ⟨23⟩, .failed .encoderPoisoned]] ∧
      crew.Sequential row.1 ∧ crew.position = row.2.position ∧ Stuck crew 0 later := by
  intro readings crew row later
  have breaks : crew.Breaks 0 := ⟨by decide +kernel, ⟨.reading (some 6), [.minted ⟨22⟩]⟩, some 6, by decide +kernel, rfl⟩
  obtain ⟨sequential, stops⟩ := calls_linearizable narrow readings 2
    [0, 1, 0, 1, 0, 0, 0, 1, 1, 1, 1, 0, 1, 0, 0, 1]
  obtain ⟨unmoved, stuck⟩ := stops 0 breaks
  refine ⟨by decide +kernel, breaks, by decide +kernel, sequential, ?_, stuck [1, 0, 0, 1, 1, 0, 0]⟩
  with_reducible exact unmoved

end LeasedIds.Crew
