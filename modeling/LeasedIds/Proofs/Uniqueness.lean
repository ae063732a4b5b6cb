import LeasedIds.Proofs.Fleet
import LeasedIds.Simulation.Stores
import Mathlib.Data.List.Infix
import Mathlib.Data.List.Nodup

/-!
# Uniqueness across generators

Generators with different machine IDs never mint the same identifier. Generators that have one machine ID one after the
other do so exactly when the later one begins in the unit in which the earlier one has ended, since a new generator
begins its first unit with sequence zero.
-/

namespace LeasedIds

namespace Encoder.Series

variable {encoder : Encoder} {ids : List Id} {position : Encoder.Position}

theorem pairwise_elapsed_le (series : encoder.Series ids position) :
    ids.Pairwise fun earlier later => encoder.layout.elapsed earlier ≤ encoder.layout.elapsed later := by
  induction series with
  | fresh => exact List.Pairwise.nil
  | @snoc ids position next series step hypothesis =>
      rw [List.pairwise_append]
      refine ⟨hypothesis, List.pairwise_singleton _ _, ?_⟩
      intro id member last new
      have reached := (Series.snoc series step).elapsed_le (List.mem_append_left _ member)
      rwa [List.mem_singleton.1 new, elapsed_idAt (step.fits series.fits)]

theorem elapsed_le_last (series : encoder.Series ids position) {id last : Id} (member : id ∈ ids)
    (isLast : last ∈ ids.getLast?) : encoder.layout.elapsed id ≤ encoder.layout.elapsed last := by
  obtain ⟨before, rfl⟩ := List.getLast?_eq_some_iff.1 isLast
  have ordered := List.pairwise_append.1 series.pairwise_elapsed_le
  rcases List.mem_append.1 member with earlier | same
  · exact ordered.2.2 id earlier last (List.mem_singleton_self last)
  · exact List.mem_singleton.1 same ▸ Nat.le_refl _

theorem first_le_elapsed (series : encoder.Series ids position) {id first : Id} (member : id ∈ ids)
    (isFirst : first ∈ ids.head?) : encoder.layout.elapsed first ≤ encoder.layout.elapsed id := by
  obtain ⟨rest, rfl⟩ := List.head?_eq_some_iff.1 isFirst
  have ordered := List.pairwise_cons.1 series.pairwise_elapsed_le
  rcases List.mem_cons.1 member with rfl | later
  · exact Nat.le_refl _
  · exact ordered.1 id later

theorem unit_start_mem (series : encoder.Series ids position) {id : Id} (member : id ∈ ids) :
    encoder.idAt ⟨encoder.layout.elapsed id, 0⟩ ∈ ids := by
  obtain ⟨_, count, _, sequences⟩ := series.of_unit (encoder.layout.elapsed id)
  have shared : id ∈ ofUnit encoder.layout (encoder.layout.elapsed id) ids := by simp [ofUnit, member]
  have positive : 0 < count := by
    have length := congrArg List.length sequences
    rw [List.length_map, List.length_range] at length
    exact length ▸ List.length_pos_of_mem shared
  have zero : 0 ∈ (ofUnit encoder.layout (encoder.layout.elapsed id) ids).map encoder.layout.sequence := by
    rw [sequences]
    exact List.mem_range.2 positive
  obtain ⟨first, present, sequence⟩ := List.mem_map.1 zero
  obtain ⟨minted, unit⟩ : first ∈ ids ∧ encoder.layout.elapsed first = encoder.layout.elapsed id := by
    simpa [ofUnit] using present
  have whole := series.eq_idAt minted
  rw [unit, sequence] at whole
  rwa [← whole]

end Encoder.Series

namespace Generator
open Lease

namespace Member

variable {settings : Settings} {wall : Nat} {earlier later : Member}

/-- A machine ID changes hands between two units. -/
def HandedOver (earlier later : Member) : Prop :=
  earlier.encoder.machineId = later.encoder.machineId →
    ∀ last ∈ earlier.ids.getLast?, ∀ first ∈ later.ids.head?,
      earlier.encoder.layout.elapsed last < later.encoder.layout.elapsed first

instance (earlier later : Member) : Decidable (HandedOver earlier later) := by
  unfold HandedOver
  infer_instance

theorem Sound.series_ids {member : Member} (sound : member.Sound settings wall) :
    ∃ position, member.encoder.Series member.ids position :=
  sound.series.of_append

theorem disjoint_iff_handedOver (sound : earlier.Sound settings wall) (sound' : later.Sound settings wall)
    (follows : later.Follows earlier) : earlier.ids.Disjoint later.ids ↔ HandedOver earlier later := by
  obtain ⟨_, series⟩ := sound.series_ids
  obtain ⟨_, series'⟩ := sound'.series_ids
  obtain ⟨epoch, timeUnit, layout⟩ := sound.fixes.unique sound'.fixes
  constructor
  · intro disjoint same last isLast first isFirst
    by_contra reached
    have minted := List.mem_of_mem_getLast? isLast
    have minted' := List.mem_of_mem_head? isFirst
    have low := (follows same).2 last minted
    have high := sound'.begun first minted'
    have unit : earlier.encoder.layout.elapsed last = later.encoder.layout.elapsed first := by omega
    -- both have minted the identifier with sequence zero in that unit
    have start := series.unit_start_mem minted
    have start' := series'.unit_start_mem minted'
    have equal : earlier.encoder.idAt ⟨earlier.encoder.layout.elapsed last, 0⟩ =
        later.encoder.idAt ⟨later.encoder.layout.elapsed first, 0⟩ := by
      rw [Encoder.idAt, Encoder.idAt, unit, same, layout]
    rw [equal] at start
    exact disjoint start start'
  · intro handedOver id member member'
    have same : earlier.encoder.machineId = later.encoder.machineId := by
      rw [← series.machineId_eq member, ← series'.machineId_eq member', layout]
    obtain ⟨last, isLast⟩ := Option.isSome_iff_exists.1 (List.getLast?_isSome.2 (List.ne_nil_of_mem member))
    obtain ⟨first, isFirst⟩ := Option.isSome_iff_exists.1 (List.isSome_head?.2 (List.ne_nil_of_mem member'))
    have apart := handedOver same last isLast first isFirst
    have before := series.elapsed_le_last member isLast
    have after := series'.first_le_elapsed member' isFirst
    rw [layout] at before apart
    omega

end Member

namespace Fleet

variable {σ : Type} {send : Nat → Transport σ} {settings : Settings}

def start (now wall : Nat) (store : σ) : Fleet σ where
  now
  wall
  store

theorem Sound.start (now wall : Nat) (store : σ) : (Fleet.start now wall store).Sound settings := by
  refine ⟨?_, ?_, List.Pairwise.nil⟩ <;> intro _ impossible <;> contradiction

/-- If no two generators in use ever share a machine ID, then all identifiers differ if and only if every machine ID
changes hands between two units. -/
theorem ids_nodup_iff (send : Nat → Transport σ) (settings : Settings) (now wall : Nat) (store : σ)
    (actions : List FleetAction)
    (exclusive : ∀ done, done <+: actions → ((Fleet.start now wall store).run send settings done).Exclusive) :
    ((Fleet.start now wall store).run send settings actions).ids.Nodup ↔
      ((Fleet.start now wall store).run send settings actions).members.Pairwise Member.HandedOver := by
  have sound : Fleet.Sound settings _ := (Sound.start now wall store).run exclusive
  generalize (Fleet.start now wall store).run send settings actions = fleet at sound
  rw [ids, List.nodup_flatMap]
  constructor
  · intro unique
    refine (unique.2.and sound.follows).imp_of_mem ?_
    intro earlier later member member' both
    exact (Member.disjoint_iff_handedOver (sound.members _ member) (sound.members _ member') both.2).1 both.1
  · intro handedOver
    constructor
    · intro member present
      obtain ⟨_, series⟩ := (sound.members member present).series_ids
      refine series.pairwise_lt.imp ?_
      rintro id _ less rfl
      exact UInt64.lt_irrefl _ less
    · refine (handedOver.and sound.follows).imp_of_mem ?_
      intro earlier later member member' both
      exact (Member.disjoint_iff_handedOver (sound.members _ member) (sound.members _ member') both.2).2 both.1

theorem exclusive_of_inits {actions : List FleetAction} {fleet : List FleetAction → Fleet σ}
    (exclusive : ∀ done ∈ actions.inits, (fleet done).Exclusive) :
    ∀ done, done <+: actions → (fleet done).Exclusive :=
  fun done before => exclusive done ((List.mem_inits done actions).2 before)

def twoClients : Simulation.Stores := ((({} : Simulation.Stores).addStore 65535).addClient 0).addClient 0

def relay (pause : Nat) : List FleetAction :=
  [.order 0 {}, .build 0, .read 0, .stop 0, .renew 0, .stop 0, .stop 0, .tick pause, .order 1 {}, .build 0, .read 1]

/-- Nine milliseconds later the unit of ten is still the same, and both generators mint the same identifier. -/
theorem relay_within_unit_collides :
    let fleet (actions : List FleetAction) :=
      (start Time.second (Time.startOf2025 + Time.second) twoClients).run Simulation.Stores.send {} actions
    (∀ done, done <+: relay (9 * Time.millisecond) → (fleet done).Exclusive) ∧
      (fleet (relay (9 * Time.millisecond))).ids = [⟨1677721600⟩, ⟨1677721600⟩] ∧
      ¬ (fleet (relay (9 * Time.millisecond))).ids.Nodup := by
  intro fleet
  refine ⟨?_, ?_, ?_⟩
  · apply exclusive_of_inits
    decide +kernel
  · decide +kernel
  · decide +kernel

theorem relay_across_units_nodup :
    let fleet (actions : List FleetAction) :=
      (start Time.second (Time.startOf2025 + Time.second) twoClients).run Simulation.Stores.send {} actions
    (∀ done, done <+: relay (10 * Time.millisecond) → (fleet done).Exclusive) ∧
      (fleet (relay (10 * Time.millisecond))).members.Pairwise Member.HandedOver ∧
      (fleet (relay (10 * Time.millisecond))).ids = [⟨1677721600⟩, ⟨1694498816⟩] ∧
      (fleet (relay (10 * Time.millisecond))).ids.Nodup := by
  intro fleet
  have exclusive : ∀ done, done <+: relay (10 * Time.millisecond) → (fleet done).Exclusive := by
    apply exclusive_of_inits
    decide +kernel
  have handedOver : (fleet (relay (10 * Time.millisecond))).members.Pairwise Member.HandedOver := by decide +kernel
  refine ⟨exclusive, handedOver, ?_, ?_⟩
  · decide +kernel
  · exact (ids_nodup_iff Simulation.Stores.send {} Time.second _ twoClients _ exclusive).2 handedOver

end Fleet
end Generator
end LeasedIds
