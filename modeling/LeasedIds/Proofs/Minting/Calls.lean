import LeasedIds.Encoder.Minter
import LeasedIds.Proofs.Packing

namespace LeasedIds.Encoder

inductive Position.Next (layout : Layout) (position : Position) : Position → Prop where
  | sequence (fits : position.sequence < layout.maxSequence) :
      Next layout position ⟨position.lastElapsed, position.sequence + 1⟩
  | unit {unit : Nat} (later : position.lastElapsed < unit) (fits : unit ≤ layout.maxElapsed) :
      Next layout position ⟨unit, 0⟩

structure Position.Fits (layout : Layout) (position : Position) : Prop where
  elapsed_le : position.lastElapsed ≤ layout.maxElapsed
  sequence_le : position.sequence ≤ layout.maxSequence

variable (encoder : Encoder)

def idAt (position : Position) : Id :=
  encoder.layout.pack position.lastElapsed encoder.machineId position.sequence

def unitAt (now : Nat) : Nat := (now - encoder.epoch) / encoder.timeUnit

theorem unitAt_mono {earlier later : Nat} (le : earlier ≤ later) : encoder.unitAt earlier ≤ encoder.unitAt later :=
  Nat.div_le_div_right (Nat.sub_le_sub_right le encoder.epoch)

theorem elapsedUnits_eq_ok_iff {now units : Nat} :
    encoder.elapsedUnits now = .ok units ↔
      encoder.epoch ≤ now ∧ encoder.unitAt now = units ∧ units ≤ encoder.layout.maxElapsed := by
  unfold elapsedUnits unitAt
  by_cases early : now < encoder.epoch
  · simp only [early, if_true]
    constructor
    · intro impossible
      contradiction
    · rintro ⟨reached, _⟩
      omega
  · simp only [early, if_false]
    by_cases fits : (now - encoder.epoch) / encoder.timeUnit ≤ encoder.layout.maxElapsed
    · simp only [fits, if_true, Except.ok.injEq]
      constructor
      · rintro rfl
        exact ⟨Nat.le_of_not_lt early, rfl, fits⟩
      · exact fun ⟨_, units, _⟩ => units
    · simp only [fits, if_false]
      constructor
      · intro impossible
        contradiction
      · rintro ⟨_, rfl, fits'⟩
        exact absurd fits' fits

theorem initial_fits : encoder.initial.Fits encoder.layout := ⟨Nat.zero_le _, Nat.le_refl _⟩

variable {encoder} {position after : Position}

theorem Position.Next.fits {layout : Layout} (fits : position.Fits layout) (next : position.Next layout after) :
    after.Fits layout := by
  cases next with
  | sequence room => exact ⟨fits.elapsed_le, room⟩
  | unit later room => exact ⟨room, Nat.zero_le _⟩

theorem next_sequence_eq_zero_iff {layout : Layout} {sequence : Nat} (fits : sequence ≤ layout.maxSequence) :
    (sequence + 1) % 2 ^ layout.sequenceBits = 0 ↔ ¬ sequence < layout.maxSequence := by
  have positive := Nat.two_pow_pos layout.sequenceBits
  unfold Layout.maxSequence at fits ⊢
  constructor
  · intro wraps room
    rw [Nat.mod_eq_of_lt (by omega)] at wraps
    omega
  · intro full
    rw [show sequence + 1 = 2 ^ layout.sequenceBits by omega, Nat.mod_self]

theorem start_eq_minted {now : Nat} {id : Id} (fits : position.Fits encoder.layout)
    (minted : encoder.start position now = .minted id after) :
    position.Next encoder.layout after ∧ id = encoder.idAt after ∧ encoder.unitAt now ≤ after.lastElapsed ∧
      after.lastElapsed ≤ max position.lastElapsed (encoder.unitAt now) := by
  unfold start at minted
  split at minted
  · contradiction
  next units read =>
    obtain ⟨_, rfl, room⟩ := encoder.elapsedUnits_eq_ok_iff.1 read
    split at minted
    next later =>
      obtain ⟨rfl, rfl⟩ := Progress.minted.inj minted
      exact ⟨.unit later room, rfl, Nat.le_refl _, Nat.le_max_right _ _⟩
    next reached =>
      have room := next_sequence_eq_zero_iff fits.sequence_le
      dsimp only at minted
      split at minted
      · split at minted <;> contradiction
      next continues =>
        have room := Decidable.not_not.1 (continues ∘ room.2)
        obtain ⟨rfl, rfl⟩ := Progress.minted.inj minted
        have kept : (position.sequence + 1) % 2 ^ encoder.layout.sequenceBits = position.sequence + 1 :=
          Layout.mod_two_pow_of_le room
        rw [kept]
        exact ⟨.sequence room, rfl, Nat.le_of_not_lt reached, Nat.le_max_left _ _⟩

theorem start_eq_waiting {now next : Nat} (waiting : encoder.start position now = .waiting next) :
    next = position.lastElapsed + 1 ∧ next ≤ encoder.layout.maxElapsed ∧ encoder.unitAt now ≤ position.lastElapsed := by
  unfold start at waiting
  split at waiting
  · contradiction
  next units read =>
    obtain ⟨_, rfl, _⟩ := encoder.elapsedUnits_eq_ok_iff.1 read
    split at waiting
    · contradiction
    next reached =>
      dsimp only at waiting
      split at waiting
      · split at waiting
        next room =>
          obtain rfl := Progress.waiting.inj waiting
          exact ⟨rfl, room, Nat.le_of_not_lt reached⟩
        · contradiction
      · contradiction

theorem resume_eq_minted {now next : Nat} {id : Id} (minted : encoder.resume next now = .minted id after) :
    after = ⟨next, 0⟩ ∧ id = encoder.idAt after ∧ next ≤ encoder.unitAt now := by
  unfold resume at minted
  split at minted
  · contradiction
  next units read =>
    obtain ⟨_, rfl, _⟩ := encoder.elapsedUnits_eq_ok_iff.1 read
    split at minted
    next reached =>
      obtain ⟨rfl, rfl⟩ := Progress.minted.inj minted
      exact ⟨rfl, rfl, reached⟩
    · contradiction

theorem resume_eq_waiting {now next unit : Nat} (waiting : encoder.resume next now = .waiting unit) : unit = next := by
  unfold resume at waiting
  split at waiting
  · contradiction
  · split at waiting
    · contradiction
    · exact (Progress.waiting.inj waiting).symm

theorem awaitUnit_outcome (position : Position) (next : Nat) (readings : List Nat) :
    (encoder.awaitUnit position next readings).outcome = .minted (encoder.idAt ⟨next, 0⟩) ∧
        (encoder.awaitUnit position next readings).position = ⟨next, 0⟩ ∨
      (∀ id, (encoder.awaitUnit position next readings).outcome ≠ .minted id) ∧
        (encoder.awaitUnit position next readings).position = position := by
  induction readings with
  | nil =>
      right
      exact ⟨fun _ => Outcome.noConfusion, rfl⟩
  | cons now readings hypothesis =>
      rw [awaitUnit]
      cases progress : encoder.resume next now with
      | minted id minted =>
          left
          obtain ⟨rfl, rfl, _⟩ := resume_eq_minted progress
          exact ⟨rfl, rfl⟩
      | failed error =>
          right
          exact ⟨fun _ => Outcome.noConfusion, rfl⟩
      | waiting unit => exact hypothesis

theorem nextId_outcome (fits : position.Fits encoder.layout) (readings : List Nat) :
    (∃ after, position.Next encoder.layout after ∧
        (encoder.nextId position readings).outcome = .minted (encoder.idAt after) ∧
        (encoder.nextId position readings).position = after) ∨
      (∀ id, (encoder.nextId position readings).outcome ≠ .minted id) ∧
        (encoder.nextId position readings).position = position := by
  cases readings with
  | nil =>
      right
      exact ⟨fun _ => Outcome.noConfusion, rfl⟩
  | cons now readings =>
      rw [nextId]
      cases progress : encoder.start position now with
      | minted id minted =>
          left
          obtain ⟨step, rfl, _⟩ := start_eq_minted fits progress
          exact ⟨minted, step, rfl, rfl⟩
      | failed error =>
          right
          exact ⟨fun _ => Outcome.noConfusion, rfl⟩
      | waiting next =>
          obtain ⟨rfl, room, _⟩ := start_eq_waiting progress
          rcases encoder.awaitUnit_outcome position (position.lastElapsed + 1) readings with ⟨minted, moved⟩ | stays
          · left
            exact ⟨_, .unit (Nat.lt_succ_self _) room, minted, moved⟩
          · right
            exact stays

end LeasedIds.Encoder
