import LeasedIds.Proofs.Lease.Pacing
import LeasedIds.Proofs.Lease.Scripts
import LeasedIds.Proofs.World.Creation

/-!
# A lease on the running clock

A world that houses one lease rings its timer on the millisecond, and runs its renewer until it waits before the clock
moves on. So the renewals are on time however long one watches.
-/

namespace LeasedIds.Simulation
open Lease

def timesOf (kind : Note → Bool) (entries : List Entry) : List Nat := (entries.filter (kind ·.note)).map Entry.time

theorem timesOf_append (kind : Note → Bool) (earlier later : List Entry) :
    timesOf kind (earlier ++ later) = timesOf kind earlier ++ timesOf kind later := by
  rw [timesOf, List.filter_append, List.map_append, timesOf, timesOf]

theorem timesOf_map (kind : Note → Bool) (now client : Nat) (notes : List Note) :
    timesOf kind (notes.map (Entry.mk now client)) = Note.times kind now notes := by
  simp [timesOf, Note.times, List.filter_map, Function.comp_def]

namespace World

def watch (world : World) : List Nat → World × List Entry
  | [] => world.pause
  | span :: spans =>
    let paused := world.pause
    let watched := (paused.1.sleep span).watch spans
    (watched.1, paused.2 ++ watched.2)

/-! ## Turns of the renewer -/

structure Hosts (client : Nat) (world : World) (holder : Holder) : Prop where
  slots_eq : world.slots = #[{ client, holder, minter? := none }]
  jobs_eq : world.jobs = #[]
  yielded_eq : world.yielded = []

structure Takes {α : Type} (client : Nat) (step : Stepped α Stores) (world later : World) : Prop where
  now_eq : later.now = world.now
  stores_eq : later.stores = step.store
  record_eq : later.record = (world.absorb client step).record

/-- The world has one lease and nothing else, and the lease has been renewed on time since `origin`, as told by the
record and by what had been handed out before. -/
structure Houses (origin client : Nat) (terms : Terms) (handed : List Entry) (world : World) (holder : Holder) : Prop where
  slots_eq : world.slots = #[{ client, holder, minter? := none }]
  jobs_eq : world.jobs = #[]
  yielded_eq : world.yielded = []
  whole : Time.millisecond ∣ world.now
  withstands : (Stores.send client).Withstands world.stores (·.isRenewal)
  paced : holder.Paced origin terms world.now (timesOf Note.startsRenewal (handed ++ world.record.toList))
    (timesOf Note.endsRenewal (handed ++ world.record.toList))

structure Asleep (world : World) (holder : Holder) : Prop where
  ready_eq : world.ready = []
  timers_eq : world.timers = if holder.renewalWake?.isSome then [.renewal 0] else []
  ahead : ∀ wake ∈ holder.renewalWake?, world.now < wake

structure Called (world : World) : Prop where
  ready_eq : world.ready = [.renewer 0]
  timers_eq : world.timers = []

def Tends (origin client : Nat) (terms : Terms) (handed : List Entry) (world : World) : Prop :=
  ∃ holder, world.Houses origin client terms handed holder ∧ (world.Asleep holder ∨ world.Called)

variable {origin client : Nat} {terms : Terms} {handed : List Entry} {world later : World} {holder : Holder}

theorem Takes.timesOf_eq {α : Type} {step : Stepped α Stores} (takes : Takes client step world later)
    (kind : Note → Bool) : timesOf kind later.record.toList =
      timesOf kind world.record.toList ++ Note.times kind world.now step.notes := by
  rw [takes.record_eq, ← timesOf_map kind world.now client, ← timesOf_append]
  simp [absorb, log]

theorem Houses.hosts (houses : world.Houses origin client terms handed holder) : world.Hosts client holder :=
  ⟨houses.slots_eq, houses.jobs_eq, houses.yielded_eq⟩

theorem Houses.of_hosts (hosts : world.Hosts client holder) (whole : Time.millisecond ∣ world.now)
    (withstands : (Stores.send client).Withstands world.stores (·.isRenewal))
    (paced : holder.Paced origin terms world.now (timesOf Note.startsRenewal (handed ++ world.record.toList))
      (timesOf Note.endsRenewal (handed ++ world.record.toList))) :
    world.Houses origin client terms handed holder :=
  ⟨hosts.slots_eq, hosts.jobs_eq, hosts.yielded_eq, whole, withstands, paced⟩

theorem Called.isEmpty_eq (called : world.Called) : world.ready.isEmpty = false := by
  rw [called.ready_eq]
  rfl

theorem runReady_of_ready_eq (none : world.ready = []) (count : Nat) : runReady count world = world := by
  cases count with
  | zero => rfl
  | succ count => rw [runReady, none]

def took (world : World) (client : Nat) (left : Stepped (Holder × Nat) Stores) : World :=
  { world.absorb client left with slots := #[{ client, holder := left.state.1, minter? := none }] }

theorem runRenewer_eq (slots : world.slots = #[{ client, holder, minter? := none }]) (jobs : world.jobs = #[]) :
    let left := holder.renew (Stores.send client) world.now turnCredit world.stores
    world.runRenewer 0 =
      if left.state.1.renewalWake?.isNone then world.took client left
      else if left.state.2 = 0 then
        { world.took client left with yielded := .renewer 0 :: (world.took client left).yielded }
      else (world.took client left).setTimer (.renewal 0) := by
  intro left
  have found : world.slots[0]? = some { client, holder, minter? := none } := by rw [slots]; rfl
  have placed : (world.absorb client left).setHolder 0 left.state.1 = world.took client left := by
    simp [took, setHolder, absorb, log, slots]
  have quiet : (world.took client left).awakenStops 0 = world.took client left := by
    simp [awakenStops, waitingStops, took, absorb, log, jobs]
  unfold runRenewer
  rw [found]
  show (if left.state.1.renewalWake?.isNone then ((world.absorb client left).setHolder 0 left.state.1).awakenStops 0 else
    if left.state.2 = 0 then _ else _) = _
  rw [placed, quiet]

/-- A turn of the renewer is a batch of its own. The renewer has no timer any more, or it has used up its credit and yields,
or it sets its timer. -/
theorem Hosts.turn (hosts : world.Hosts client holder) (ready : world.ready = [.renewer 0]) :
    let left := holder.renew (Stores.send client) world.now turnCredit world.stores
    world.runBatch.Hosts client left.state.1 ∧ Takes client left world world.runBatch ∧
      world.runBatch.ready = (if left.state.1.renewalWake?.isSome ∧ left.state.2 = 0 then [.renewer 0] else []) ∧
      world.runBatch.timers =
        if left.state.1.renewalWake?.isSome ∧ left.state.2 ≠ 0 then world.timers ++ [.renewal 0] else world.timers := by
  intro left
  let taken : World := { world with ready := [] }
  have turned := taken.runRenewer_eq hosts.slots_eq hosts.jobs_eq
  -- A renewer that yields is not ready again before the batch is over.
  have idle : (taken.runRenewer 0).ready = [] := by
    rw [turned]
    split
    · rfl
    · split <;> rfl
  have batch : world.runBatch = (taken.runRenewer 0).resumeYielded := by
    show (runReady 61 world).resumeYielded = _
    rw [runReady, ready]
    exact congrArg resumeYielded (runReady_of_ready_eq idle 60)
  have yielded : world.yielded = [] := hosts.yielded_eq
  rw [batch, turned]
  split
  next dead =>
    have unset : ¬ left.state.1.renewalWake?.isSome := by simpa using dead
    refine ⟨⟨rfl, hosts.jobs_eq, rfl⟩, ⟨rfl, rfl, rfl⟩, ?_, ?_⟩
    · rw [if_neg fun spent => unset spent.1]
      exact yielded
    · rw [if_neg fun able => unset able.1]
      rfl
  next lives =>
    have set : left.state.1.renewalWake?.isSome := by simpa [Option.isSome_iff_ne_none] using lives
    split
    next spent =>
      refine ⟨⟨rfl, hosts.jobs_eq, rfl⟩, ⟨rfl, rfl, rfl⟩, ?_, ?_⟩
      · rw [if_pos ⟨set, spent⟩]
        exact congrArg (.renewer 0 :: ·) yielded
      · rw [if_neg fun able => able.2 spent]
        rfl
    next credit =>
      refine ⟨⟨rfl, hosts.jobs_eq, rfl⟩, ⟨rfl, rfl, rfl⟩, ?_, ?_⟩
      · rw [if_neg fun spent => credit spent.2]
        exact yielded
      · rw [if_pos ⟨set, credit⟩]
        rfl

theorem Hosts.asleep_or_called (hosts : world.Hosts client holder) (called : world.Called) :
    let left := holder.renew (Stores.send client) world.now turnCredit world.stores
    world.runBatch.Asleep left.state.1 ∨ world.runBatch.Called ∧ left.state.2 = 0 := by
  intro left
  obtain ⟨_, takes, ready, timers⟩ := hosts.turn called.ready_eq
  obtain ⟨_, rests⟩ := Holder.renew_rests turnCredit holder world.stores
  rw [called.timers_eq, List.nil_append] at timers
  by_cases yields : left.state.1.renewalWake?.isSome ∧ left.state.2 = 0
  · refine .inr ⟨⟨ready.trans (if_pos yields), timers.trans (if_neg fun able => able.2 yields.2)⟩, yields.2⟩
  · refine .inl ⟨ready.trans (if_neg yields), ?_, ?_⟩
    · rw [timers]
      congr 1
      exact propext ⟨And.left, fun set => ⟨set, fun spent => yields ⟨set, spent⟩⟩⟩
    · rw [takes.now_eq]
      intro wake set
      have able : left.state.2 ≠ 0 := fun spent => yields ⟨Option.isSome_of_mem set, spent⟩
      exact Holder.lt_renewalWake (rests.resolve_left able) wake set

theorem Houses.turn (houses : world.Houses origin client terms handed holder) (timely : terms.Timely)
    (called : world.Called) :
    ∃ holder', world.runBatch.Houses origin client terms handed holder' ∧
      (world.runBatch.Asleep holder' ∨
        world.runBatch.Called ∧ holder'.renewalRank world.now + turnCredit ≤ holder.renewalRank world.now) := by
  let left := holder.renew (Stores.send client) world.now turnCredit world.stores
  obtain ⟨hosts, takes, _, _⟩ := houses.hosts.turn called.ready_eq
  obtain ⟨paced, withstands⟩ := houses.paced.renew timely houses.whole houses.withstands turnCredit
  obtain ⟨rank, _⟩ := Holder.renew_rests turnCredit holder world.stores
  have record (kind : Note → Bool) : timesOf kind (handed ++ world.runBatch.record.toList) =
      timesOf kind (handed ++ world.record.toList) ++ Note.times kind world.now left.notes := by
    rw [timesOf_append, takes.timesOf_eq, timesOf_append, List.append_assoc]
  refine ⟨left.state.1, .of_hosts hosts (takes.now_eq ▸ houses.whole) (takes.stores_eq ▸ withstands) ?_, ?_⟩
  · rw [takes.now_eq, record, record]
    exact paced
  · refine (houses.hosts.asleep_or_called called).imp_right fun yielded => ⟨yielded.1, ?_⟩
    rw [show left.state.2 = 0 from yielded.2] at rank
    exact rank

theorem Houses.runBatches (houses : world.Houses origin client terms handed holder) (timely : terms.Timely) {turns : Nat}
    (queued : world.Asleep holder ∨ world.Called ∧ holder.renewalRank world.now < turns) :
    ∃ holder', (World.runBatches turns world).Houses origin client terms handed holder' ∧
      (World.runBatches turns world).Asleep holder' := by
  induction turns generalizing world holder with
  | zero =>
      rcases queued with asleep | ⟨_, impossible⟩
      · exact ⟨holder, houses, asleep⟩
      · contradiction
  | succ turns hypothesis =>
      unfold World.runBatches
      rcases queued with asleep | ⟨called, rank⟩
      · rw [if_pos (by rw [asleep.ready_eq]; rfl)]
        exact ⟨holder, houses, asleep⟩
      · rw [called.isEmpty_eq, if_neg Bool.false_ne_true]
        obtain ⟨holder', turned, queued⟩ := houses.turn timely called
        have lower (called : world.runBatch.Called ∧
            holder'.renewalRank world.now + turnCredit ≤ holder.renewalRank world.now) :
            world.runBatch.Called ∧ holder'.renewalRank world.runBatch.now < turns := by
          have : 0 < turnCredit := by decide
          have now : world.runBatch.now = world.now := runReady_now batchLength world
          refine ⟨called.1, ?_⟩
          rw [now]
          omega
        exact hypothesis turned (queued.imp_right lower)

theorem Houses.lt_batchBound (houses : world.Houses origin client terms handed holder) (called : world.Called) :
    holder.renewalRank world.now < world.batchBound := by
  rw [batchBound, houses.slots_eq, houses.jobs_eq, called.ready_eq]
  simp
  omega

/-! ## The passing of time -/

theorem Asleep.timers_eq_nil (asleep : world.Asleep holder) (dead : holder.renewalWake? = none) : world.timers = [] := by
  rw [asleep.timers_eq, dead]
  rfl

theorem Asleep.timers_eq_singleton (asleep : world.Asleep holder) {due : Nat} (waits : holder.renewalWake? = some due) :
    world.timers = [.renewal 0] := by
  rw [asleep.timers_eq, waits]
  rfl

theorem Hosts.wake?_eq (hosts : world.Hosts client holder) : world.wake? (.renewal 0) = holder.renewalWake? := by
  rw [wake?, holder?, hosts.slots_eq]
  rfl

theorem nextWake?_of_nil (silent : world.timers = []) (activity : Activity) :
    world.nextWake? activity = world.activityWake? activity := by
  rw [nextWake?, silent]
  cases world.activityWake? activity <;> rfl

theorem nextWake?_of_singleton {timer : Timer} {activity : Activity} {wake due : Nat} (set : world.timers = [timer])
    (rings : world.wake? timer = some due) (wakes : world.activityWake? activity = some wake) :
    world.nextWake? activity = some (min wake due) := by
  rw [nextWake?, set, List.map_singleton, wakes, rings]
  rfl

theorem Hosts.le_wake (hosts : world.Hosts client holder) (asleep : world.Asleep holder)
    {wake time : Nat} (ahead : world.now < wake) (next : world.nextWake? (.sleep wake) = some time) :
    world.now < time ∧ Time.millisecond ∣ time ∧ ∀ due ∈ holder.renewalWake?, time ≤ due := by
  have wakes : world.activityWake? (.sleep wake) = some (Time.ceilMillis wake) := rfl
  have ahead : world.now < Time.ceilMillis wake := Nat.lt_of_lt_of_le ahead (Time.le_ceilMillis wake)
  cases waits : holder.renewalWake? with
  | none =>
      rw [nextWake?_of_nil (asleep.timers_eq_nil waits), wakes] at next
      obtain rfl := Option.some.inj next
      exact ⟨ahead, Time.dvd_ceilMillis wake, nofun⟩
  | some due =>
      rw [nextWake?_of_singleton (asleep.timers_eq_singleton waits) (hosts.wake?_eq.trans waits) wakes] at next
      obtain rfl := Option.some.inj next
      have whole := Time.dvd_min (Time.dvd_ceilMillis wake) (holder.dvd_renewalWake due waits)
      refine ⟨Nat.lt_min.2 ⟨ahead, asleep.ahead due waits⟩, whole, ?_⟩
      exact fun _ found => Option.some.inj found ▸ Nat.min_le_right _ _

theorem jump_of_silent {time : Nat}
    (silent : world.timers.filter (fun timer => (world.wake? timer).any (· ≤ time)) = []) :
    world.jump time = { world with now := time } := by
  rw [World.jump, silent]
  rfl

theorem jump_of_singleton {timer : Timer} {time due : Nat} (set : world.timers = [timer])
    (rings : world.wake? timer = some due) (reached : due ≤ time) :
    world.jump time = { world.ring timer with now := time } := by
  rw [World.jump, set, List.filter_cons_of_pos]
  · rfl
  · rw [rings]
    exact decide_eq_true reached

theorem Hosts.jump (hosts : world.Hosts client holder) (asleep : world.Asleep holder) (time : Nat) :
    (world.jump time).Hosts client holder ∧ (world.jump time).now = time ∧ (world.jump time).stores = world.stores ∧
      (world.jump time).record = world.record ∧
      ((∀ wake ∈ holder.renewalWake?, time < wake) ∧ (world.jump time).Asleep holder ∨
        (∃ wake ∈ holder.renewalWake?, wake ≤ time) ∧ (world.jump time).Called) := by
  by_cases rings : ∃ wake ∈ holder.renewalWake?, wake ≤ time
  · obtain ⟨wake, waits, reached⟩ := rings
    have jump : world.jump time = { world with now := time, timers := [], ready := [.renewer 0] } := by
      rw [jump_of_singleton (asleep.timers_eq_singleton waits) (hosts.wake?_eq.trans waits) reached]
      simp [ring, spawn, asleep.timers_eq_singleton waits, asleep.ready_eq]
    rw [jump]
    exact ⟨⟨hosts.slots_eq, hosts.jobs_eq, hosts.yielded_eq⟩, rfl, rfl, rfl, .inr ⟨⟨wake, waits, reached⟩, rfl, rfl⟩⟩
  · have ahead (wake : Nat) (waits : wake ∈ holder.renewalWake?) : time < wake :=
      Nat.lt_of_not_le fun reached => rings ⟨wake, waits, reached⟩
    have silent : world.timers.filter (fun timer => (world.wake? timer).any (· ≤ time)) = [] := by
      rw [List.filter_eq_nil_iff]
      intro timer set due
      cases waits : holder.renewalWake? with
      | none =>
          rw [asleep.timers_eq_nil waits] at set
          contradiction
      | some wake =>
          rw [asleep.timers_eq_singleton waits, List.mem_singleton] at set
          rw [set, hosts.wake?_eq, waits] at due
          exact Nat.not_le.2 (ahead wake waits) (of_decide_eq_true due)
    rw [jump_of_silent silent]
    exact ⟨⟨hosts.slots_eq, hosts.jobs_eq, hosts.yielded_eq⟩, rfl, rfl, rfl,
      .inl ⟨ahead, asleep.ready_eq, asleep.timers_eq, ahead⟩⟩

theorem Houses.jump (houses : world.Houses origin client terms handed holder) (asleep : world.Asleep holder)
    {wake time : Nat} (ahead : world.now < wake) (next : world.nextWake? (.sleep wake) = some time) :
    (world.jump time).Tends origin client terms handed := by
  obtain ⟨later, whole, due⟩ := houses.hosts.le_wake asleep ahead next
  obtain ⟨hosts, now, stores, record, queued⟩ := houses.hosts.jump asleep time
  refine ⟨holder, .of_hosts hosts (now.symm ▸ whole) (stores ▸ houses.withstands) ?_, queued.imp And.right And.right⟩
  rw [now, record]
  exact houses.paced.pass (Nat.le_of_lt later) due

def Rests (origin client : Nat) (terms : Terms) (handed : List Entry) (wake : Nat) (world : World) (activity : Activity) :
    Prop :=
  activity = .sleep wake ∧ world.now < wake ∧
    ∃ holder, world.Houses origin client terms handed holder ∧ world.Asleep holder

theorem Tends.settle (tends : world.Tends origin client terms handed) (timely : terms.Timely) (wake : Nat) :
    Meets (Rests origin client terms handed wake) (fun last _ => last.Tends origin client terms handed)
      (World.settle (world.batchBound + 2) world (.sleep wake)) := by
  obtain ⟨holder, houses, queued⟩ := tends
  by_cases reached : wake ≤ world.now
  · have slept : world.poll (.sleep wake) = (world, .inr .slept) := if_pos reached
    rw [World.settle, slept]
    exact ⟨holder, houses, queued⟩
  · have ahead := Nat.lt_of_not_le reached
    rw [settle_sleep ahead]
    have enough (called : world.Called) : world.Called ∧ holder.renewalRank world.now < world.batchBound + 2 :=
      ⟨called, Nat.lt_add_right 2 (houses.lt_batchBound called)⟩
    obtain ⟨holder', later, asleep⟩ := houses.runBatches timely (queued.imp_right enough)
    exact ⟨rfl, (runBatches_now _ world).symm ▸ ahead, holder', later, asleep⟩

theorem Tends.run_sleep (tends : world.Tends origin client terms handed) (timely : terms.Timely) (wake horizon : Nat) :
    (world.run (.sleep wake) horizon).1.Tends origin client terms handed := by
  have reached : Reaches (Rests origin client terms handed wake) (fun last _ => last.Tends origin client terms handed)
      (world.run (.sleep wake) horizon) := by
    refine reaches_run (fun world activity => activity = .sleep wake ∧ world.Tends origin client terms handed)
      ?_ ?_ ⟨rfl, tends⟩ horizon
    · rintro world _ ⟨rfl, tends⟩
      exact tends.settle timely wake
    · rintro world _ time ⟨rfl, ahead, holder, houses, asleep⟩ next
      exact ⟨rfl, houses.jump asleep ahead next⟩
  rcases ran : world.run (.sleep wake) horizon with ⟨last, _ | result⟩ <;> rw [ran] at reached
  · obtain ⟨_, _, _, holder, houses, asleep⟩ := reached
    exact ⟨holder, houses, .inl asleep⟩
  · exact reached

theorem Tends.sleep (tends : world.Tends origin client terms handed) (timely : terms.Timely) (span : Nat) :
    (world.sleep span).Tends origin client terms handed := by
  conv in World.sleep => delta World.sleep
  exact tends.run_sleep timely _ _

theorem Tends.pause (tends : world.Tends origin client terms handed) (timely : terms.Timely) :
    ∃ holder, world.pause.1.Houses origin client terms (handed ++ world.pause.2) holder ∧ world.pause.1.Asleep holder ∧
      world.pause.1.record = #[] := by
  obtain ⟨holder, houses, queued⟩ := tends
  have enough (called : world.Called) : world.Called ∧ holder.renewalRank world.now < world.batchBound :=
    ⟨called, houses.lt_batchBound called⟩
  obtain ⟨last, drained, asleep⟩ := houses.runBatches timely (queued.imp_right enough)
  refine ⟨last, ⟨drained.slots_eq, drained.jobs_eq, drained.yielded_eq, drained.whole, drained.withstands, ?_⟩,
    ⟨asleep.ready_eq, asleep.timers_eq, asleep.ahead⟩, rfl⟩
  have handed_eq : handed ++ world.pause.2 ++ world.pause.1.record.toList =
      handed ++ (World.runBatches world.batchBound world).record.toList := List.append_nil _
  rw [handed_eq]
  exact drained.paced

theorem Tends.watch (tends : world.Tends origin client terms handed) (timely : terms.Timely) (spans : List Nat) :
    ∃ holder, (world.watch spans).1.Houses origin client terms (handed ++ (world.watch spans).2) holder ∧
      (world.watch spans).1.Asleep holder ∧ (world.watch spans).1.record = #[] := by
  induction spans generalizing world handed with
  | nil => exact tends.pause timely
  | cons span spans hypothesis =>
      obtain ⟨holder, paused, asleep, _⟩ := tends.pause timely
      have later := Tends.sleep ⟨holder, paused, .inl asleep⟩ timely span
      obtain ⟨last, watched, asleep, empty⟩ := hypothesis later
      rw [List.append_assoc] at watched
      exact ⟨last, watched, asleep, empty⟩

/-! ## Taking the lease -/

/-- Nothing is going on, and no renewal is on record. -/
structure Vacant (world : World) : Prop where
  slots_eq : world.slots = #[]
  jobs_eq : world.jobs = #[]
  timers_eq : world.timers = []
  ready_eq : world.ready = []
  yielded_eq : world.yielded = []
  whole : Time.millisecond ∣ world.now
  silent : ∀ entry ∈ world.record, entry.note.Silent

inductive Leases (terms : Terms) : Activity → Prop where
  | waiting {client maxMachineId : Nat} {valid : terms.Valid} {acquisition : Acquisition}
      (waits : ∀ holder, acquisition ≠ .leased holder) :
      Leases terms (.lease client terms valid maxMachineId acquisition)

def Awaits (terms : Terms) (world : World) (activity : Activity) : Prop := world.Vacant ∧ Leases terms activity

def Grants (terms : Terms) (world : World) (result : Result) : Prop :=
  ∀ holder, result = .leased holder →
    world.Vacant ∧ ∃ machineId, ∃ valid : terms.Valid, holder = .create machineId terms valid world.now

variable {activity : Activity}

theorem Vacant.absorb (vacant : world.Vacant) (client : Nat) {step : Stepped Acquisition Stores}
    (silent : ∀ note ∈ step.notes, note.Silent) : (world.absorb client step).Vacant := by
  refine ⟨vacant.slots_eq, vacant.jobs_eq, vacant.timers_eq, vacant.ready_eq, vacant.yielded_eq, vacant.whole, ?_⟩
  intro entry member
  simp only [World.absorb, log, Array.mem_append, List.mem_toArray, List.mem_map] at member
  rcases member with before | ⟨note, noted, rfl⟩
  · exact vacant.silent entry before
  · exact silent note noted

theorem Vacant.jump (vacant : world.Vacant) {time : Nat} (whole : Time.millisecond ∣ time) : (world.jump time).Vacant := by
  rw [jump_of_silent (by rw [vacant.timers_eq]; rfl)]
  exact ⟨vacant.slots_eq, vacant.jobs_eq, vacant.timers_eq, vacant.ready_eq, vacant.yielded_eq, whole, vacant.silent⟩

theorem Leases.dvd_wake (leases : Leases terms activity) {time : Nat} (wakes : world.activityWake? activity = some time) :
    Time.millisecond ∣ time := by
  cases leases with
  | @waiting client maxMachineId valid acquisition waits =>
      change acquisition.wake? = some time at wakes
      unfold Acquisition.wake? at wakes
      split at wakes
      next call =>
        obtain rfl := Option.some.inj wakes
        exact call.dvd_wake
      next machineId call =>
        obtain rfl := Option.some.inj wakes
        exact call.dvd_wake
      all_goals contradiction

theorem Awaits.poll (awaits : world.Awaits terms activity) : Meets (Awaits terms) (Grants terms) (world.poll activity) := by
  obtain ⟨vacant, leases⟩ := awaits
  cases leases with
  | @waiting client maxMachineId valid acquisition waits =>
      obtain ⟨silent, taken⟩ := Acquisition.advance_silent (Stores.send client) valid maxMachineId world.now world.stores
        fun holder leased => absurd leased (waits holder)
      have later := vacant.absorb client silent
      rw [World.poll]
      generalize acquisition.advance (Stores.send client) terms valid maxMachineId world.now world.stores = step
        at later taken ⊢
      obtain ⟨state, store, notes⟩ := step
      cases state with
      | acquiring call | handingBack machineId call =>
          exact ⟨later, .waiting fun _ => Acquisition.noConfusion⟩
      | leased holder =>
          rintro _ ⟨⟩
          obtain ⟨machineId, created⟩ := taken holder rfl
          exact ⟨later, machineId, valid, created⟩
      | refused _ | crashed => exact fun _ => Result.noConfusion

theorem Awaits.jump (awaits : world.Awaits terms activity) {time : Nat} (wakes : world.nextWake? activity = some time) :
    (world.jump time).Awaits terms activity := by
  obtain ⟨vacant, leases⟩ := awaits
  rw [nextWake?_of_nil vacant.timers_eq] at wakes
  exact ⟨vacant.jump (leases.dvd_wake wakes), leases⟩

theorem Awaits.settle (awaits : world.Awaits terms activity) (turns : Nat) :
    Meets (Awaits terms) (Grants terms) (World.settle (turns + 1) world activity) := by
  refine meets_settle awaits.poll fun later going still => ?_
  rw [if_pos (by rw [still.1.ready_eq]; rfl)]
  exact still

theorem granted_of_run (awaits : world.Awaits terms activity) {last : World} {horizon : Nat}
    (ran : world.run activity horizon = (last, some (.leased holder))) : Grants terms last (.leased holder) := by
  have reached : Reaches (Awaits terms) (Grants terms) (world.run activity horizon) :=
    reaches_run (Awaits terms) (fun world _ awaits => awaits.settle (world.batchBound + 1))
      (fun _ _ _ awaits => awaits.jump) awaits horizon
  rwa [ran] at reached

theorem Vacant.timesOf_eq_nil (vacant : world.Vacant) :
    timesOf Note.startsRenewal world.record.toList = [] ∧ timesOf Note.endsRenewal world.record.toList = [] := by
  simp only [timesOf, List.map_eq_nil_iff, List.filter_eq_nil_iff, Bool.not_eq_true, Array.mem_toList_iff]
  exact ⟨fun entry member => (vacant.silent entry member).1, fun entry member => (vacant.silent entry member).2⟩

theorem Vacant.tends_addSlot (vacant : world.Vacant) (timely : terms.Timely) (machineId : Nat) (valid : terms.Valid)
    (withstands : (Stores.send client).Withstands world.stores (·.isRenewal)) :
    (world.addSlot client (.create machineId terms valid world.now) none).Tends world.now client terms [] := by
  refine ⟨.create machineId terms valid world.now, ?_, .inr ⟨?_, vacant.timers_eq⟩⟩
  · refine ⟨?_, vacant.jobs_eq, vacant.yielded_eq, vacant.whole, withstands, ?_⟩
    · rw [addSlot, vacant.slots_eq]
      rfl
    · obtain ⟨started, ended⟩ := vacant.timesOf_eq_nil
      show Holder.Paced _ _ _ _ (timesOf _ world.record.toList) (timesOf _ world.record.toList)
      rw [started, ended]
      exact .create machineId valid timely vacant.whole
  · rw [addSlot, spawn, vacant.ready_eq, vacant.slots_eq]
    rfl

theorem exists_addSlot_of_lease {start : World} {index : Nat} (vacant : world.Vacant)
    (leased : world.lease client terms maxMachineId = (start, .created index)) :
    index = 0 ∧ ∃ last : World, last.Vacant ∧ ∃ machineId, ∃ valid : terms.Valid,
      start = last.addSlot client (.create machineId terms valid last.now) none := by
  have begun (valid : terms.Valid) (step : Stepped Acquisition Stores)
      (begins : step = Acquisition.begin (Stores.send client) terms world.now world.stores) :
      (world.absorb client step).Awaits terms (.lease client terms valid maxMachineId step.state) := by
    subst begins
    refine ⟨vacant.absorb client ?_, .waiting fun _ => Acquisition.noConfusion⟩
    exact List.forall_mem_singleton.2 ⟨rfl, rfl⟩
  -- Of the run of the world no more is used than this, as in the frame of the operations.
  have runs := @granted_of_run
  revert leased runs
  conv in World.lease => delta World.lease
  refine forgetting (fun run leased runs => ?_) World.run
  split at leased
  next => cases (Prod.mk.inj leased).2
  next fault =>
    dsimp only at leased
    split at leased
    next last holder ran =>
      obtain ⟨rfl, made⟩ := Prod.mk.inj leased
      obtain ⟨vacant, machineId, valid, rfl⟩ := runs (begun _ _ rfl) ran holder rfl
      obtain rfl := Creation.created.inj made
      exact ⟨by rw [vacant.slots_eq]; rfl, last, vacant, machineId, valid, rfl⟩
    next => cases (Prod.mk.inj leased).2
    next => cases (Prod.mk.inj leased).2

theorem tends_of_lease {start : World} {index : Nat} (vacant : world.Vacant) (timely : terms.Timely)
    (leased : world.lease client terms maxMachineId = (start, .created index))
    (withstands : (Stores.send client).Withstands start.stores (·.isRenewal)) :
    start.Tends start.now client terms [] := by
  obtain ⟨_, last, vacant, machineId, valid, rfl⟩ := exists_addSlot_of_lease vacant leased
  exact vacant.tends_addSlot timely machineId valid withstands

/-- However long one watches a lease whose store does not break down in a renewal, its renewals are on time. -/
theorem renewals_keep_time {start : World} {index : Nat} (vacant : world.Vacant) (timely : terms.Timely)
    (leased : world.lease client terms maxMachineId = (start, .created index))
    (withstands : (Stores.send client).Withstands start.stores (·.isRenewal)) (spans : List Nat) :
    let watched := start.watch spans
    KeepsTime start.now terms watched.1.now (timesOf Note.startsRenewal watched.2)
      (timesOf Note.endsRenewal watched.2) := by
  intro watched
  have tends := tends_of_lease vacant timely leased withstands
  obtain ⟨holder, houses, asleep, empty⟩ := tends.watch timely spans
  have paced := houses.paced
  rw [empty, List.nil_append, List.append_nil] at paced
  exact paced.keepsTime timely asleep.ahead

def sluggish : Script where
  machineId := 5
  acquire := [⟨250 * Time.millisecond, .success⟩]
  renew := [⟨Time.second, .failure "busy"⟩, ⟨2 * Time.second, .success⟩, ⟨Time.ofMillis 60000, .success⟩, {}]

theorem sluggish_renewals_keep_time :
    let terms : Terms := { renewalInterval := 2 * Time.second }
    let world : World := { wall := 0, stores := Stores.addScript {} sluggish }
    let start := (world.lease 0 terms 100).1
    let watched := start.watch [9 * Time.second, 7 * Time.second]
    start.now = 1250 * Time.millisecond ∧
      timesOf Note.startsRenewal watched.2 =
        [2, 4, 6, 11, 13, 15].map (start.now + · * Time.second) ∧
      timesOf Note.endsRenewal watched.2 = [3, 6, 11, 11, 13, 15].map (start.now + · * Time.second) ∧
      KeepsTime start.now terms watched.1.now (timesOf Note.startsRenewal watched.2)
        (timesOf Note.endsRenewal watched.2) := by
  intro terms world start watched
  have vacant : world.Vacant := ⟨rfl, rfl, rfl, rfl, rfl, by decide, nofun⟩
  have timely : terms.Timely := ⟨by decide, by decide⟩
  have leased : world.lease 0 terms 100 = (start, .created 0) := Prod.ext rfl (by decide +kernel)
  have scripted : start.stores.clients[0]? = some (.scripted sluggish) := by decide +kernel
  have withstands : (Stores.send 0).Withstands start.stores (·.isRenewal) := by
    apply Stores.withstands_of_scripted scripted
    apply Script.withstands
    intro request renewal
    cases request with
    | renew machineId ttl =>
        show ∀ behaviour ∈ sluggish.renew, _
        decide
    | acquire _ | release _ => contradiction
  exact ⟨by decide +kernel, by decide +kernel, by decide +kernel, renewals_keep_time vacant timely leased withstands _⟩

/-- With an interval of 31 years the second renewal starts 30 years after the first, and the third 30 years after that. The
renewal that is due five seconds before the end of the clock does not start, as the next one would be due after the end. -/
theorem slow_renewals_drift :
    let year := Time.longestSleep / 30
    let terms : Terms := { ttl := 33 * year, renewalInterval := 31 * year }
    let world : World := { wall := 0, stores := Stores.addScript {} { machineId := 5 } }
    let start := (world.lease 0 terms 100).1
    let starts := timesOf Note.startsRenewal (start.watch (List.replicate 4 Time.longestSleep)).2
    let late := (World.lease { world with now := Time.instantLimit - 15 * Time.second } 0 {} 100).1
    terms.Valid ∧ terms.Timely ∧ start.now + 93 * year < Time.instantLimit ∧
      (world.lease 0 terms 100).2 = .created 0 ∧
      starts = [31, 61, 91].map (start.now + · * year) ∧
      (¬ starts.IsChain fun first second => first + terms.renewalInterval ≤ second + cadenceSlack) ∧
      late.now + 10 * Time.second < Time.instantLimit ∧
      timesOf Note.startsRenewal (late.watch [12 * Time.second]).2 = [] := by
  intro year terms world start starts late
  have started : starts = [31, 61, 91].map (start.now + · * year) := by decide +kernel
  refine ⟨by decide, ⟨by decide, by decide⟩, by decide +kernel, by decide +kernel, started, ?_, by decide +kernel,
    by decide +kernel⟩
  rw [started]
  decide +kernel

end World
end LeasedIds.Simulation
