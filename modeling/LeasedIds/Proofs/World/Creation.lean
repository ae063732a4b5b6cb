import LeasedIds.Proofs.Fleet
import LeasedIds.Proofs.World.Frame

namespace LeasedIds

theorem Encoder.eq_of_fields {encoder other : Encoder} (machineId : encoder.machineId = other.machineId)
    (epoch : encoder.epoch = other.epoch) (timeUnit : encoder.timeUnit = other.timeUnit)
    (layout : encoder.layout = other.layout) : encoder = other := by
  cases encoder
  cases other
  cases machineId
  cases epoch
  cases timeUnit
  cases layout
  rfl

namespace Generator
open Lease

theorem Settings.readsClock_of_check {settings : Settings} {now : Nat} {plan : Plan}
    (passed : settings.check now = .ok plan) : settings.readsClock = true := by
  have start := (plan_of_check passed).1.epoch_eq
  unfold check at passed
  split at passed
  · contradiction
  next stored => simpa [readsClock, start] using stored

theorem Settings.next?_of_checkOn {settings : Settings} {readings rest : Encoder.Readings} {plan : Plan}
    (passed : settings.checkOn readings = (some (.ok plan), rest)) :
    ∃ reading, readings.next? = some (reading, rest) ∧ settings.check reading = .ok plan := by
  unfold checkOn at passed
  split at passed
  · split at passed
    next => cases passed
    next reading later next =>
      obtain ⟨check, rfl⟩ := Prod.mk.inj passed
      exact ⟨reading, next, Option.some.inj check⟩
  next blind =>
    obtain ⟨check, _⟩ := Prod.mk.inj passed
    exact absurd (readsClock_of_check (Option.some.inj check)) blind

namespace Build

variable {σ : Type} {send : Transport σ} {plan : Plan} {build : Build}

def Sound (plan : Plan) (build : Build) : Prop :=
  ∀ holder encoder, build = .built holder encoder → plan.Equips holder encoder

theorem abandon_ne_built (now : Nat) (holder : Holder) (error : Error) (store : σ) (holder' : Holder)
    (encoder : Encoder) : (abandon send now holder error store).state ≠ .built holder' encoder := by
  unfold abandon
  dsimp only
  split <;> exact Build.noConfusion

theorem Sound.advance (sound : build.Sound plan) (now : Nat) (store : σ) :
    (build.advance send plan now store).state.Sound plan := by
  intro holder encoder built
  cases build with
  | leasing acquisition =>
      rw [Build.advance] at built
      split at built
      next holder' error _ => exact absurd built (abandon_ne_built now holder' error _ holder encoder)
      next => exact (ofAcquisition_eq_built built).2
  | abandoning holder' error => exact absurd built (abandon_ne_built now holder' error store holder encoder)
  | built _ _ => exact sound holder encoder built
  | refused _ | crashed => exact sound holder encoder built

end Build
end Generator

namespace Simulation

deriving instance DecidableEq for Creation

namespace World
open Lease Generator

variable {world start : World} {client index : Nat} {plan : Plan} {settings : Settings} {readings rest : Encoder.Readings}

theorem keeps_building (client : Nat) (plan : Plan) :
    Keeps (fun _ activity => ∃ build, activity = .build client plan build ∧ build.Sound plan)
      (fun _ result => ∀ holder encoder, result = .built holder encoder → plan.Equips holder encoder) := by
  refine ⟨?_, fun _ _ goes => goes, fun _ _ _ goes => goes⟩
  rintro world _ ⟨build, rfl, sound⟩
  have advanced : ((build.advance (Stores.send client) plan world.now world.stores).state).Sound plan :=
    sound.advance world.now world.stores
  rw [poll]
  generalize build.advance (Stores.send client) plan world.now world.stores = step at advanced ⊢
  obtain ⟨state, store, notes⟩ := step
  cases state with
  | leasing acquisition => exact ⟨_, rfl, advanced⟩
  | abandoning holder error => exact ⟨_, rfl, advanced⟩
  | built holder encoder =>
      rintro _ _ ⟨⟩
      exact advanced holder encoder rfl
  | refused _ | crashed => exact fun _ _ => Result.noConfusion

theorem equips_of_run {build : Build} {last : World} {holder : Holder} {encoder : Encoder} {horizon : Nat}
    (sound : build.Sound plan)
    (ran : world.run (.build client plan build) horizon = (last, some (.built holder encoder))) :
    plan.Equips holder encoder := by
  have reached : Reaches _ _ (world.run (.build client plan build) horizon) :=
    (keeps_building client plan).run ⟨build, rfl, sound⟩ horizon
  rw [ran] at reached
  exact reached holder encoder rfl

theorem exists_slot_of_buildPlan (created : world.buildPlan client plan readings = (start, .created index)) :
    ∃ holder encoder, plan.Equips holder encoder ∧
      start.slots[index]? = some { client, holder, minter? := some (.ofEncoder encoder readings) } := by
  have begun : (Build.begin (Stores.send client) plan world.now world.stores).state.Sound plan := fun _ _ =>
    Build.noConfusion
  have runs := @equips_of_run
  revert runs created
  conv in World.buildPlan => delta World.buildPlan
  refine forgetting (fun run created runs => ?_) World.run
  dsimp only at created
  split at created
  next last holder encoder ran =>
    obtain ⟨rfl, made⟩ := Prod.mk.inj created
    obtain rfl := Creation.created.inj made
    refine ⟨holder, encoder, runs begun ran, ?_⟩
    simp [addSlot, spawn]
  next => cases (Prod.mk.inj created).2
  next => cases (Prod.mk.inj created).2

/-- A generator in its place: its encoder is new and has the machine ID of its lease, and its clock is the one that the build
had, less a reading. -/
structure Installed (world : World) (index : Nat) (settings : Settings) (readings : Encoder.Readings)
    (encoder : Encoder) (rest : Encoder.Readings) : Prop where
  minter?_eq : world.minter? index = some (.ofEncoder encoder rest)
  machineId_eq : (world.holder? index).map Holder.machineId = some encoder.machineId
  fixes : settings.Fixes encoder.epoch encoder.timeUnit encoder.layout
  taken : ∃ reading, readings.toList = reading :: rest.toList

namespace Installed

variable {world' : World} {index' : Nat} {encoder encoder' : Encoder} {rest' : Encoder.Readings}

theorem encoder_eq (installed : world.Installed index settings readings encoder rest)
    (installed' : world'.Installed index' settings readings encoder' rest')
    (shared : (world.holder? index).map Holder.machineId = (world'.holder? index').map Holder.machineId) :
    encoder = encoder' := by
  rw [installed.machineId_eq, installed'.machineId_eq] at shared
  obtain ⟨epoch, timeUnit, layout⟩ := installed.fixes.unique installed'.fixes
  exact Encoder.eq_of_fields (Option.some.inj shared) epoch timeUnit layout

theorem rest_eq (installed : world.Installed index settings readings encoder rest)
    (installed' : world'.Installed index' settings readings encoder' rest') : rest.toList = rest'.toList := by
  obtain ⟨reading, taken⟩ := installed.taken
  obtain ⟨reading', taken'⟩ := installed'.taken
  exact (List.cons.inj (taken.symm.trans taken')).2

end Installed

theorem installed_of_build {reads : Nat}
    (created : world.build (some client) settings (.scripted readings) = (start, .created index, reads)) :
    reads = 1 ∧ ∃ encoder rest, start.Installed index settings readings encoder rest := by
  have builds := @exists_slot_of_buildPlan
  revert builds created
  conv in World.build => delta World.build
  refine forgetting (fun buildPlan created builds => ?_) World.buildPlan
  rcases checked : Settings.checkOn { settings with hasStore := true } readings with ⟨verdict?, later⟩
  simp only [Option.isSome_some, checked] at created
  split at created
  next plan client' same =>
    obtain ⟨reading, next, passed⟩ := Settings.next?_of_checkOn checked
    have taken := Encoder.Readings.toList_eq_of_next? next
    have fixes := (Settings.plan_of_check passed).1
    obtain ⟨started, made, counted⟩ : (buildPlan world client' plan later).1 = start ∧
        (buildPlan world client' plan later).2 = .created index ∧ readings.size - later.size = reads := by
      simpa using created
    obtain ⟨holder, encoder, equips, slot⟩ := builds (Prod.ext started made)
    refine ⟨?_, encoder, later, ⟨?_, ?_, ?_, reading, taken⟩⟩
    · rw [← counted, ← readings.length_toList, taken, List.length_cons, later.length_toList]
      omega
    · rw [minter?, slot]
      rfl
    · rw [holder?, slot]
      exact congrArg some equips.machineId_eq.symm
    · rw [equips.epoch_eq, equips.timeUnit_eq, equips.layout_eq]
      exact ⟨fixes.epoch_eq, fixes.timeUnit_eq, fixes.layout_eq⟩
  next => cases (Prod.mk.inj (Prod.mk.inj created).2).1
  next => cases (Prod.mk.inj (Prod.mk.inj created).2).1

end World
end Simulation
end LeasedIds
