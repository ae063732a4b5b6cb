import LeasedIds.Encoder.Registers
import LeasedIds.Proofs.Instants
import LeasedIds.Proofs.Minting.Courses
import LeasedIds.Proofs.Packing.Words

/-!
# Positions fit their registers

A call in place does what a call does, and none of its results is too large for its word. That rests on what is true of
every position that calls lead to: its fields fit the layout, and unit 0 counts as used up, so that nothing is minted in
it.
-/

namespace LeasedIds

namespace Word

section Numbers

variable {number left right : Nat}

theorem toNat_ofNat_of_le (small : number ≤ 2 ^ 61) : (UInt64.ofNat number).toNat = number :=
  UInt64.toNat_ofNat_of_lt' (Nat.lt_of_le_of_lt small (by decide))

theorem ofNat_lt_ofNat_iff (small : left ≤ 2 ^ 61) (small' : right ≤ 2 ^ 61) :
    UInt64.ofNat left < .ofNat right ↔ left < right := by
  rw [UInt64.lt_iff_toNat_lt, toNat_ofNat_of_le small, toNat_ofNat_of_le small']

theorem ofNat_le_ofNat_iff (small : left ≤ 2 ^ 61) (small' : right ≤ 2 ^ 61) :
    UInt64.ofNat left ≤ .ofNat right ↔ left ≤ right := by
  rw [UInt64.le_iff_toNat_le, toNat_ofNat_of_le small, toNat_ofNat_of_le small']

theorem ofNat?_eq (small : number ≤ 2 ^ 61) : ofNat? number = some (.ofNat number) :=
  if_pos (Nat.lt_of_le_of_lt small (by decide))

theorem add?_ofNat_one (small : number ≤ 2 ^ 61) : add? (.ofNat number) 1 = some (.ofNat (number + 1)) := by
  have fits : number + UInt64.toNat 1 < 2 ^ 64 := Nat.lt_of_le_of_lt (Nat.succ_le_succ small) (by decide)
  rw [add?, toNat_ofNat_of_le small, UInt64.ofNat_add]
  exact if_pos fits

theorem mask?_eq_ofNat {width : UInt8} {bits : Nat} (width_eq : width.toNat = bits) (short : bits < 64) :
    mask? width = some (.ofNat (2 ^ bits - 1)) := by
  obtain ⟨mask, found, value⟩ := mask?_eq width_eq short
  rw [found, ← value, UInt64.ofNat_toNat]

theorem ofNat_and_ofNat_mask {bits : Nat} (small : number ≤ 2 ^ 61) (short : bits ≤ 61) :
    UInt64.ofNat number &&& UInt64.ofNat (2 ^ bits - 1) = .ofNat (number % 2 ^ bits) := by
  have below : 2 ^ bits ≤ 2 ^ 61 := Nat.pow_le_pow_right (by decide) short
  have mask : (UInt64.ofNat (2 ^ bits - 1)).toNat = 2 ^ bits - 1 := toNat_ofNat_of_le (by omega)
  rw [← UInt64.toNat_inj, toNat_and _ mask, toNat_ofNat_of_le small]
  exact (toNat_ofNat_of_le (Nat.le_trans (Nat.mod_le _ _) small)).symm

end Numbers

end Word

namespace Layout

variable (layout : Layout)

theorem timeBits_le : layout.timeBits ≤ 61 := by
  have := layout.one_le_sequenceBits
  have := layout.one_le_machineBits
  unfold timeBits
  omega

private theorem two_pow_sub_one_lt {width bound : Nat} (narrow : width ≤ bound) : 2 ^ width - 1 < 2 ^ bound := by
  have := Nat.pow_le_pow_right (show 0 < 2 by decide) narrow
  have := Nat.two_pow_pos width
  omega

theorem maxElapsed_lt : layout.maxElapsed < 2 ^ 61 := two_pow_sub_one_lt layout.timeBits_le

theorem maxSequence_lt : layout.maxSequence < 2 ^ 31 :=
  two_pow_sub_one_lt (Nat.le_trans (Nat.le_add_right _ _) layout.widths_le)

theorem maxMachineId_lt : layout.maxMachineId < 2 ^ 31 :=
  two_pow_sub_one_lt (Nat.le_trans (Nat.le_add_left _ _) layout.widths_le)

theorem maxElapsedWord?_eq : layout.maxElapsedWord? = some (.ofNat layout.maxElapsed) := by
  obtain ⟨width, found, bits⟩ := layout.timeWidth?_eq
  rw [maxElapsedWord?, found]
  exact Word.mask?_eq_ofNat bits (by have := layout.timeBits_le; omega)

theorem maxSequenceWord?_eq : layout.maxSequenceWord? = some (.ofNat layout.maxSequence) :=
  Word.mask?_eq_ofNat layout.toNat_sequenceWidth (by have := layout.widths_le; omega)

end Layout

namespace Encoder
open Word

theorem Position.Fits.lastElapsed_le {layout : Layout} {position : Position} (fits : position.Fits layout) :
    position.lastElapsed ≤ 2 ^ 61 :=
  Nat.le_trans fits.elapsed_le (Nat.le_of_lt layout.maxElapsed_lt)

theorem Position.Fits.next_sequence_le {layout : Layout} {position : Position} (fits : position.Fits layout) :
    position.sequence + 1 ≤ 2 ^ 61 := by
  have := layout.maxSequence_lt
  have := fits.sequence_le
  omega

namespace Registers

def position (registers : Registers) : Position := ⟨registers.lastElapsed.toNat, registers.sequence.toNat⟩

def ofPosition (position : Position) (readings : List Nat) : Registers :=
  ⟨.ofNat position.lastElapsed, .ofNat position.sequence, readings⟩

theorem ofPosition_position (registers : Registers) : ofPosition registers.position registers.readings = registers := by
  simp [ofPosition, position]

theorem position_ofPosition {layout : Layout} {position : Position} (fits : position.Fits layout)
    (readings : List Nat) : (ofPosition position readings).position = position := by
  rw [ofPosition, Registers.position, toNat_ofNat_of_le fits.lastElapsed_le, 
    toNat_ofNat_of_le (Nat.le_of_succ_le fits.next_sequence_le)]

end Registers

section Work

variable {α β : Type} {work : Work α} {next : α → Work β} {before after : Registers}

theorem bind_ok {value : α} (done : work before = .ok value after) : (work >>= next) before = next value after := by
  simp [bind, EStateM.bind, done]

theorem bind_error {fault : Fault} (broken : work before = .error fault after) :
    (work >>= next) before = .error fault after := by
  simp [bind, EStateM.bind, broken]

theorem within_some (value : α) (registers : Registers) : within (some value) registers = .ok value registers := rfl

theorem get_bind (registers : Registers) (next : Registers → Work β) :
    (get >>= next) registers = next registers registers := rfl

end Work

variable {encoder : Encoder} {position : Position} {lastElapsed sequence : UInt64} {readings : List Nat}

theorem readUnits_cons_error {now : Nat} {error : Error} (refused : encoder.elapsedUnits now = .error error) :
    encoder.readUnits ⟨lastElapsed, sequence, now :: readings⟩ =
      .error (.failed error) ⟨lastElapsed, sequence, readings⟩ := by
  have read : readClock ⟨lastElapsed, sequence, now :: readings⟩ = .ok now ⟨lastElapsed, sequence, readings⟩ := rfl
  rw [readUnits, bind_ok read, refused]
  rfl

theorem elapsedUnits_le {now unit : Nat} (read : encoder.elapsedUnits now = .ok unit) : unit ≤ 2 ^ 61 := by
  obtain ⟨_, _, fits⟩ := encoder.elapsedUnits_eq_ok_iff.1 read
  exact Nat.le_trans fits (Nat.le_of_lt encoder.layout.maxElapsed_lt)

theorem readUnits_cons_ok {now unit : Nat} (shown : encoder.elapsedUnits now = .ok unit) :
    encoder.readUnits ⟨lastElapsed, sequence, now :: readings⟩ =
      .ok (.ofNat unit) ⟨lastElapsed, sequence, readings⟩ := by
  have read : readClock ⟨lastElapsed, sequence, now :: readings⟩ = .ok now ⟨lastElapsed, sequence, readings⟩ := rfl
  rw [readUnits, bind_ok read, shown]
  dsimp only
  rw [ofNat?_eq (elapsedUnits_le shown)]
  rfl

def Outcome.result {α : Type} (outcome : Outcome) (value : Id → α) (registers : Registers) :
    EStateM.Result Fault Registers α :=
  match outcome with
  | .minted id => .ok (value id) registers
  | .failed error => .error (.failed error) registers
  | .starved => .error .starved registers

theorem bind_result {α β : Type} {work : Work α} {next : α → Work β} {before after after' : Registers}
    {outcome : Outcome} {value : Id → α} {value' : Id → β} (done : work before = outcome.result value after)
    (goesOn : ∀ id, outcome = .minted id → next (value id) after = .ok (value' id) after')
    (breaksOff : (∀ id, outcome ≠ .minted id) → after' = after) :
    (work >>= next) before = outcome.result value' after' := by
  cases outcome with
  | minted id => exact (bind_ok done).trans (goesOn id rfl)
  | failed error =>
      rw [breaksOff fun _ => Outcome.noConfusion]
      exact bind_error done
  | starved =>
      rw [breaksOff fun _ => Outcome.noConfusion]
      exact bind_error done

def Ending.inRegisters (ending : Ending (List Nat)) : EStateM.Result Fault Registers Id :=
  ending.outcome.result (fun id => id) (.ofPosition ending.position ending.readings)

theorem pollUnit_eq {next : Nat} (fits : next ≤ encoder.layout.maxElapsed) (position : Position) (readings : List Nat) :
    let ending := encoder.awaitUnit position next readings
    encoder.pollUnit (.ofNat next) readings ⟨lastElapsed, sequence, readings⟩ =
      ending.outcome.result (fun _ => ()) ⟨lastElapsed, sequence, ending.readings⟩ := by
  have bound := encoder.layout.maxElapsed_lt
  induction readings with
  | nil => rfl
  | cons now readings hypothesis =>
      dsimp only
      rw [pollUnit, awaitUnit, resume]
      cases read : encoder.elapsedUnits now with
      | error error =>
          rw [bind_error (readUnits_cons_error read)]
          rfl
      | ok unit =>
          have compares : UInt64.ofNat next ≤ .ofNat unit ↔ next ≤ unit :=
            ofNat_le_ofNat_iff (by omega) (elapsedUnits_le read)
          rw [bind_ok (readUnits_cons_ok read)]
          dsimp only
          by_cases reached : next ≤ unit
          · rw [if_pos reached, if_pos (compares.2 reached)]
            rfl
          · rw [if_neg reached, if_neg fun less => reached (compares.1 less)]
            exact hypothesis

theorem add_one_eq {last : Nat} (room : last ≤ encoder.layout.maxElapsed) :
    add? (.ofNat last) 1 = some (.ofNat (last + 1)) :=
  add?_ofNat_one (Nat.le_trans room (Nat.le_of_lt encoder.layout.maxElapsed_lt))

theorem awaitNext_eq_exhausted {last : Nat} (spent : last = encoder.layout.maxElapsed) (registers : Registers) :
    encoder.awaitNext (.ofNat last) registers =
      .error (.failed (.timeExhausted (last + 1) encoder.layout.maxElapsed)) registers := by
  have bound := encoder.layout.maxElapsed_lt
  have beyond : UInt64.ofNat encoder.layout.maxElapsed < .ofNat (last + 1) :=
    (ofNat_lt_ofNat_iff (by omega) (by omega)).2 (by omega)
  rw [awaitNext, add_one_eq (Nat.le_of_eq spent), Layout.maxElapsedWord?_eq, bind_ok (within_some _ _),
    bind_ok (within_some _ _), if_pos beyond, toNat_ofNat_of_le (by omega), toNat_ofNat_of_le (by omega)]
  rfl

theorem awaitNext_eq {last : Nat} (room : last < encoder.layout.maxElapsed) (position : Position)
    (readings : List Nat) :
    let ending := encoder.awaitUnit position (last + 1) readings
    encoder.awaitNext (.ofNat last) ⟨lastElapsed, sequence, readings⟩ =
      ending.outcome.result (fun _ => .ofNat (last + 1)) ⟨lastElapsed, sequence, ending.readings⟩ := by
  have bound := encoder.layout.maxElapsed_lt
  have inside : ¬ UInt64.ofNat encoder.layout.maxElapsed < .ofNat (last + 1) := by
    rw [ofNat_lt_ofNat_iff (by omega) (by omega)]
    omega
  -- The next unit is one of the time field, so it starts at an instant that can be represented.
  have narrow : ¬ 2 ^ 128 ≤ encoder.timeUnit * (UInt64.ofNat (last + 1)).toNat := by
    have start := encoder.start_lt_instantLimit room
    rw [Nat.succ_eq_add_one] at start
    have limit : Time.instantLimit ≤ 2 ^ 128 := by decide
    rw [toNat_ofNat_of_le (by omega)]
    omega
  have polled : encoder.pollUnit (.ofNat (last + 1)) readings ⟨lastElapsed, sequence, readings⟩ = _ :=
    pollUnit_eq room position readings
  dsimp only at polled ⊢
  rw [awaitNext, add_one_eq (Nat.le_of_lt room), Layout.maxElapsedWord?_eq, bind_ok (within_some _ _),
    bind_ok (within_some _ _), if_neg inside, if_neg narrow, get_bind]
  exact bind_result polled (fun _ _ => rfl) fun _ => rfl

section Advance

variable {unit : Nat} (readings)

theorem advance_later (fits : position.Fits encoder.layout) (bound : unit ≤ 2 ^ 61)
    (later : position.lastElapsed < unit) :
    encoder.advance (.ofNat unit) (.ofPosition position readings) = .ok () (.ofPosition ⟨unit, 0⟩ readings) := by
  have greater : (Registers.ofPosition position readings).lastElapsed < .ofNat unit :=
    (ofNat_lt_ofNat_iff fits.lastElapsed_le bound).2 later
  rw [advance, get_bind]
  dsimp only
  rw [if_pos greater]
  rfl

theorem advance_reached (fits : position.Fits encoder.layout) (bound : unit ≤ 2 ^ 61)
    (reached : unit ≤ position.lastElapsed) :
    encoder.advance (.ofNat unit) (.ofPosition position readings) =
      (let sequence := .ofNat ((position.sequence + 1) % 2 ^ encoder.layout.sequenceBits)
      if sequence = 0 then do
        writeElapsed (← encoder.awaitNext (.ofNat position.lastElapsed))
        writeSequence sequence
      else writeSequence sequence : Work Unit) (.ofPosition position readings) := by
  have notGreater : ¬ (Registers.ofPosition position readings).lastElapsed < .ofNat unit := by
    rw [Registers.ofPosition, ofNat_lt_ofNat_iff fits.lastElapsed_le bound]
    exact Nat.not_lt.2 reached
  have short : encoder.layout.sequenceBits ≤ 61 := by
    have := encoder.layout.widths_le
    omega
  rw [advance, get_bind]
  dsimp only
  rw [if_neg notGreater, get_bind, Registers.ofPosition]
  dsimp only
  rw [add?_ofNat_one (Nat.le_of_succ_le fits.next_sequence_le), bind_ok (within_some _ _), Layout.maxSequenceWord?_eq,
    bind_ok (within_some _ _), Layout.maxSequence, ofNat_and_ofNat_mask fits.next_sequence_le short]

theorem advance_continued (fits : position.Fits encoder.layout) (bound : unit ≤ 2 ^ 61)
    (reached : unit ≤ position.lastElapsed) (room : position.sequence < encoder.layout.maxSequence) :
    encoder.advance (.ofNat unit) (.ofPosition position readings) =
      .ok () (.ofPosition ⟨position.lastElapsed, position.sequence + 1⟩ readings) := by
  have kept : (position.sequence + 1) % 2 ^ encoder.layout.sequenceBits = position.sequence + 1 :=
    Layout.mod_two_pow_of_le room
  have positive : UInt64.ofNat (position.sequence + 1) ≠ 0 := by
    rw [← UInt64.toNat_inj.ne, toNat_ofNat_of_le fits.next_sequence_le]
    exact Nat.succ_ne_zero _
  rw [advance_reached readings fits bound reached, kept]
  dsimp only
  rw [if_neg positive]
  rfl

theorem advance_full (fits : position.Fits encoder.layout) (bound : unit ≤ 2 ^ 61)
    (reached : unit ≤ position.lastElapsed) (full : position.sequence = encoder.layout.maxSequence) :
    encoder.advance (.ofNat unit) (.ofPosition position readings) =
      (do
        writeElapsed (← encoder.awaitNext (.ofNat position.lastElapsed))
        writeSequence 0 : Work Unit) (.ofPosition position readings) := by
  have wraps : (position.sequence + 1) % 2 ^ encoder.layout.sequenceBits = 0 :=
    (next_sequence_eq_zero_iff fits.sequence_le).2 (Nat.not_lt.2 (Nat.le_of_eq full.symm))
  rw [advance_reached readings fits bound reached, wraps]
  rfl

theorem advance_waiting (fits : position.Fits encoder.layout) (bound : unit ≤ 2 ^ 61)
    (reached : unit ≤ position.lastElapsed) (full : position.sequence = encoder.layout.maxSequence)
    (room : position.lastElapsed < encoder.layout.maxElapsed) :
    let ending := encoder.awaitUnit position (position.lastElapsed + 1) readings
    encoder.advance (.ofNat unit) (.ofPosition position readings) =
      ending.outcome.result (fun _ => ()) (.ofPosition ending.position ending.readings) := by
  have awaited : encoder.awaitNext (.ofNat position.lastElapsed) (.ofPosition position readings) = _ :=
    awaitNext_eq room position readings
  have outcome := encoder.awaitUnit_outcome position (position.lastElapsed + 1) readings
  dsimp only at awaited ⊢
  rw [advance_full readings fits bound reached full]
  rcases outcome with ⟨minted, moves⟩ | ⟨unminted, stays⟩
  · rw [moves]
    exact bind_result awaited (fun _ _ => rfl) fun unminted => absurd minted (unminted _)
  · rw [stays]
    exact bind_result awaited (fun id minted => absurd minted (unminted id)) fun _ => rfl

theorem advance_exhausted (fits : position.Fits encoder.layout) (bound : unit ≤ 2 ^ 61)
    (reached : unit ≤ position.lastElapsed) (full : position.sequence = encoder.layout.maxSequence)
    (last : position.lastElapsed = encoder.layout.maxElapsed) :
    encoder.advance (.ofNat unit) (.ofPosition position readings) =
      .error (.failed (.timeExhausted (position.lastElapsed + 1) encoder.layout.maxElapsed))
        (.ofPosition position readings) := by
  rw [advance_full readings fits bound reached full]
  exact bind_error (awaitNext_eq_exhausted last _)

end Advance

theorem pack_registers (encoder : Encoder) (fits : position.Fits encoder.layout) (readings : List Nat) :
    (do
      let registers ← get
      within (encoder.layout.packWords? registers.lastElapsed (← within (ofNat? encoder.machineId))
        registers.sequence) : Work Id) (.ofPosition position readings) =
      .ok (encoder.idAt position) (.ofPosition position readings) := by
  have machine : encoder.machineId ≤ 2 ^ 61 := by
    have := encoder.layout.maxMachineId_lt
    have := encoder.machineId_le
    omega
  have fields := Registers.position_ofPosition fits readings
  rw [Registers.position, Position.mk.injEq] at fields
  rw [get_bind, ofNat?_eq machine, bind_ok (within_some _ _), Layout.packWords?_eq, fields.1, fields.2,
    toNat_ofNat_of_le machine]
  rfl

theorem minted_nextId (fits : position.Fits encoder.layout) {readings : List Nat} {id : Id}
    (minted : (encoder.nextId position readings).outcome = .minted id) :
    position.Next encoder.layout (encoder.nextId position readings).position ∧
      id = encoder.idAt (encoder.nextId position readings).position := by
  rcases nextId_outcome fits readings with ⟨after, step, mints, moves⟩ | ⟨unminted, _⟩
  · rw [moves]
    exact ⟨step, Outcome.minted.inj (minted.symm.trans mints)⟩
  · exact absurd minted (unminted id)

theorem nextInPlace_of_advance {now unit : Nat} {ending : Ending (List Nat)}
    (read : encoder.elapsedUnits now = .ok unit)
    (advanced : encoder.advance (.ofNat unit) (.ofPosition position readings) =
      ending.outcome.result (fun _ => ()) (.ofPosition ending.position ending.readings))
    (mints : ∀ id, ending.outcome = .minted id →
      ending.position.Fits encoder.layout ∧ id = encoder.idAt ending.position) :
    encoder.nextInPlace (.ofPosition position (now :: readings)) = ending.inRegisters := by
  have started : encoder.readUnits (.ofPosition position (now :: readings)) =
      .ok (.ofNat unit) (.ofPosition position readings) := readUnits_cons_ok read
  rw [nextInPlace, bind_ok started]
  refine bind_result advanced ?_ fun _ => rfl
  intro id minted
  obtain ⟨fits, rfl⟩ := mints id minted
  exact encoder.pack_registers fits ending.readings

/-- A call in place does what a call does. -/
theorem nextInPlace_ofPosition (fits : position.Fits encoder.layout) (readings : List Nat) :
    encoder.nextInPlace (.ofPosition position readings) = (encoder.nextId position readings).inRegisters := by
  cases readings with
  | nil => rfl
  | cons now readings =>
      have mints (id : Id) (minted : (encoder.nextId position (now :: readings)).outcome = .minted id) :=
        (minted_nextId fits minted).imp_left fun step => step.fits fits
      have beginning := start_beginning fits now
      rw [nextId] at mints ⊢
      generalize encoder.start position now = progress at beginning mints ⊢
      cases beginning with
      | unread refused =>
          have broken : encoder.readUnits (.ofPosition position (now :: readings)) = _ := readUnits_cons_error refused
          exact bind_error broken
      | later read later =>
          have advanced := advance_later readings fits (elapsedUnits_le read) later
          exact nextInPlace_of_advance read advanced mints
      | continued read reached room =>
          have advanced := advance_continued readings fits (elapsedUnits_le read) reached room
          exact nextInPlace_of_advance read advanced mints
      | waiting read reached full room =>
          have advanced := advance_waiting readings fits (elapsedUnits_le read) reached full room
          exact nextInPlace_of_advance read advanced mints
      | exhausted read reached full last =>
          have advanced := advance_exhausted readings fits (elapsedUnits_le read) reached full last
          exact nextInPlace_of_advance read advanced mints

/-- The fields fit the layout, and unit 0 is used up from the beginning. -/
structure Position.Valid (layout : Layout) (position : Position) : Prop extends position.Fits layout where
  full_of_zero : position.lastElapsed = 0 → position.sequence = layout.maxSequence

theorem initial_valid (encoder : Encoder) : encoder.initial.Valid encoder.layout :=
  ⟨encoder.initial_fits, fun _ => rfl⟩

theorem Position.Next.lastElapsed_pos {layout : Layout} {after : Position} (valid : position.Valid layout)
    (next : position.Next layout after) : 0 < after.lastElapsed := by
  cases next with
  | sequence room =>
      apply Nat.pos_of_ne_zero
      intro zero
      exact absurd (valid.full_of_zero zero) (Nat.ne_of_lt room)
  | unit later room => exact Nat.lt_of_le_of_lt (Nat.zero_le _) later

theorem Position.Next.valid {layout : Layout} {after : Position} (valid : position.Valid layout)
    (next : position.Next layout after) : after.Valid layout :=
  ⟨next.fits valid.toFits, fun zero => absurd zero (Nat.ne_of_gt (next.lastElapsed_pos valid))⟩

theorem Series.valid {ids : List Id} (series : encoder.Series ids position) : position.Valid encoder.layout := by
  induction series with
  | fresh => exact encoder.initial_valid
  | snoc series step hypothesis => exact step.valid hypothesis

theorem decompose_idAt (fits : position.Fits encoder.layout) :
    encoder.decompose (encoder.idAt position) =
      ⟨encoder.idAt position, .ofNat position.lastElapsed, .ofNat encoder.machineId, .ofNat position.sequence⟩ := by
  rw [Encoder.decompose, Layout.decompose, elapsed_idAt fits, machineId_idAt, sequence_idAt fits]

theorem elapsed_zero (layout : Layout) : layout.elapsed Id.zero = 0 := by
  simp [Layout.elapsed, Id.zero]

end Encoder

namespace Minter
open Encoder

def registers (minter : Minter) : Registers := .ofPosition minter.position minter.readings.toList

theorem valid_take (encoder : Encoder) (readings : Readings) (calls : Nat) :
    ((ofEncoder encoder readings).take calls).2.position.Valid encoder.layout := by
  have new : (ofEncoder encoder readings).encoder.Series [] (ofEncoder encoder readings).position := .fresh
  exact (series_take new calls).valid

theorem working_of_minted {minter : Minter} {id : Id} (minted : minter.next.1 = .minted id) :
    minter.poisoned = false := by
  cases poisoned : minter.poisoned with
  | false => rfl
  | true =>
      rw [next_of_poisoned poisoned] at minted
      contradiction

theorem next_minted {minter : Minter} (fits : minter.position.Fits minter.encoder.layout) {id : Id}
    (minted : minter.next.1 = .minted id) :
    minter.position.Next minter.encoder.layout minter.next.2.position ∧
      id = minter.encoder.idAt minter.next.2.position := by
  obtain ⟨outcome, _, moves, _⟩ := next_of_working (working_of_minted minted) rfl
  rw [outcome] at minted
  rw [moves]
  exact minted_nextId fits minted

/-- In every state that an encoder comes to, the fields fit their registers and unit 0 is used up. So a call in place on
whatever the clock goes on to read does what a call does, without an overflow, and an identifier has just the fields that
are left in the registers; none of them has the time zero. -/
theorem positions_fit_registers (encoder : Encoder) (readings : Readings) (calls : Nat) :
    let minter := ((ofEncoder encoder readings).take calls).2
    let after := minter.next.2
    minter.position.Valid encoder.layout ∧ minter.registers.position = minter.position ∧
      (∀ further, encoder.nextInPlace { minter.registers with readings := further } =
        (encoder.nextId minter.position further).inRegisters) ∧
      (∀ further registers,
        encoder.nextInPlace { minter.registers with readings := further } ≠ .error .overflowed registers) ∧
      ∀ id, minter.next.1 = .minted id →
        encoder.decompose id =
            ⟨id, after.registers.lastElapsed, .ofNat encoder.machineId, after.registers.sequence⟩ ∧
          after.registers.position = after.position ∧ (encoder.decompose id).time ≠ 0 ∧ id ≠ Id.zero := by
  intro minter after
  have valid : minter.position.Valid encoder.layout := valid_take encoder readings calls
  have same : minter.encoder = encoder := encoder_take _ calls
  have call (further : List Nat) : encoder.nextInPlace { minter.registers with readings := further } =
      (encoder.nextId minter.position further).inRegisters := nextInPlace_ofPosition valid.toFits further
  refine ⟨valid, Registers.position_ofPosition valid.toFits _, call, ?_, ?_⟩
  · intro further registers
    rw [call, Ending.inRegisters]
    cases (encoder.nextId minter.position further).outcome <;> simp [Outcome.result]
  · intro id minted
    have fits : minter.position.Fits minter.encoder.layout := same ▸ valid.toFits
    obtain ⟨step, rfl⟩ := next_minted fits minted
    rw [same] at step ⊢
    have next := step.valid valid
    have decomposed := decompose_idAt next.toFits
    have positive := step.lastElapsed_pos valid
    have time : (encoder.decompose (encoder.idAt after.position)).time ≠ 0 := by
      intro zero
      have value := Layout.toNat_time_decompose encoder.layout (encoder.idAt after.position)
      rw [elapsed_idAt next.toFits] at value
      exact absurd (value.symm.trans (congrArg UInt64.toNat zero)) (Nat.ne_of_gt positive)
    refine ⟨decomposed, Registers.position_ofPosition next.toFits _, time, ?_⟩
    intro default
    have unit : encoder.layout.elapsed (encoder.idAt after.position) = _ := elapsed_idAt next.toFits
    rw [default, elapsed_zero] at unit
    exact absurd unit (Nat.ne_of_lt positive)

theorem first_position_fits_registers :
    let minter := ofEncoder narrow [⟨Time.second, 2⟩, ⟨1005 * Time.millisecond, 1⟩]
    minter.registers = ⟨0, 1, [Time.second, Time.second, 1005 * Time.millisecond]⟩ ∧ minter.next.1 = .minted ⟨6⟩ ∧
      narrow.nextInPlace minter.registers = .ok ⟨6⟩ ⟨1, 0, []⟩ ∧ narrow.decompose ⟨6⟩ = ⟨⟨6⟩, 1, 1, 0⟩ ∧
      (narrow.decompose ⟨6⟩).time ≠ 0 := by
  intro minter
  have minted : minter.next.1 = .minted ⟨6⟩ := by decide
  obtain ⟨_, _, call, _, fields⟩ := positions_fit_registers narrow [⟨Time.second, 2⟩, ⟨1005 * Time.millisecond, 1⟩] 0
  obtain ⟨decomposed, _, positive, _⟩ := fields ⟨6⟩ minted
  refine ⟨by decide, minted, ?_, decomposed.trans (by decide), positive⟩
  exact (call minter.registers.readings).trans (by rfl)

end Minter
end LeasedIds
