import LeasedIds.Proofs.Lease.Departure
import LeasedIds.Proofs.World.Timekeeping

namespace LeasedIds.Simulation
open Lease

inductive Idling where
  | sleep (span : Nat)
  | pause
deriving DecidableEq, Repr

namespace World

def idle (world : World) (idlings : List Idling) : World :=
  idlings.foldl (fun world idling =>
    match idling with
    | .sleep span => world.sleep span
    | .pause => world.pause.1) world

/-! ## Before the stop -/

structure Serves (client : Nat) (terms : Terms) (world : World) (holder : Holder) : Prop where
  hosts : world.Hosts client holder
  whole : Time.millisecond ∣ world.now
  punctual : (Stores.send client).Punctual world.stores
  inUse : holder.InUse terms world.now

def Minds (client : Nat) (terms : Terms) (world : World) : Prop :=
  ∃ holder, world.Serves client terms holder ∧ (world.Asleep holder ∨ world.Called)

variable {client : Nat} {terms : Terms} {world : World} {holder : Holder}

theorem Serves.turn (serves : world.Serves client terms holder) (wholeTimeout : Time.millisecond ∣ terms.storeTimeout)
    (called : world.Called) : world.runBatch.Minds client terms := by
  obtain ⟨hosts, takes, _⟩ := serves.hosts.turn called.ready_eq
  obtain ⟨inUse, punctual, _⟩ := serves.inUse.renew (Stores.brief client) serves.punctual wholeTimeout serves.whole turnCredit
  refine ⟨_, ⟨hosts, takes.now_eq ▸ serves.whole, takes.stores_eq ▸ punctual, takes.now_eq ▸ inUse⟩, ?_⟩
  exact (serves.hosts.asleep_or_called called).imp_right And.left

theorem Serves.jump (serves : world.Serves client terms holder) (queued : world.Asleep holder ∨ world.Called)
    {wake time : Nat} (ahead : world.now < wake) (next : world.nextWake? (.sleep wake) = some time) :
    (world.jump time).Minds client terms := by
  rcases queued with asleep | called
  · obtain ⟨later, whole, _⟩ := serves.hosts.le_wake asleep ahead next
    obtain ⟨hosts, now, stores, _, queued⟩ := serves.hosts.jump asleep time
    refine ⟨holder, ⟨hosts, now.symm ▸ whole, stores ▸ serves.punctual, ?_⟩, queued.imp And.right And.right⟩
    exact now.symm ▸ serves.inUse.pass (Nat.le_of_lt later)
  · rw [nextWake?_of_nil called.timers_eq] at next
    obtain rfl : Time.ceilMillis wake = time := Option.some.inj next
    have later := Nat.lt_of_lt_of_le ahead (Time.le_ceilMillis wake)
    rw [jump_of_silent (by rw [called.timers_eq]; rfl)]
    exact ⟨holder, ⟨⟨serves.hosts.slots_eq, serves.hosts.jobs_eq, serves.hosts.yielded_eq⟩, Time.dvd_ceilMillis wake,
      serves.punctual, serves.inUse.pass (Nat.le_of_lt later)⟩, .inr ⟨called.ready_eq, called.timers_eq⟩⟩

theorem Minds.runBatches (minds : world.Minds client terms) (wholeTimeout : Time.millisecond ∣ terms.storeTimeout)
    (turns : Nat) : (World.runBatches turns world).Minds client terms := by
  induction turns generalizing world with
  | zero => exact minds
  | succ turns hypothesis =>
      unfold World.runBatches
      split
      next => exact minds
      next busy =>
        obtain ⟨holder, serves, asleep | called⟩ := minds
        · exact absurd (by rw [asleep.ready_eq]; rfl) busy
        · exact hypothesis (serves.turn wholeTimeout called)

theorem Minds.run_sleep (minds : world.Minds client terms) (wholeTimeout : Time.millisecond ∣ terms.storeTimeout)
    (wake horizon : Nat) : (world.run (.sleep wake) horizon).1.Minds client terms := by
  have reached : Reaches (fun later activity => activity = .sleep wake ∧ later.now < wake ∧ later.Minds client terms)
      (fun last _ => last.Minds client terms) (world.run (.sleep wake) horizon) := by
    refine reaches_run (fun world activity => activity = .sleep wake ∧ world.Minds client terms) ?_ ?_ ⟨rfl, minds⟩ _
    · rintro world _ ⟨rfl, minds⟩
      by_cases slept : wake ≤ world.now
      · have polled : world.poll (.sleep wake) = (world, .inr .slept) := if_pos slept
        rw [World.settle, polled]
        exact minds
      · have ahead := Nat.lt_of_not_le slept
        rw [settle_sleep ahead]
        exact ⟨rfl, (runBatches_now _ world).symm ▸ ahead, minds.runBatches wholeTimeout _⟩
    · rintro world _ time ⟨rfl, ahead, holder, serves, queued⟩ next
      exact ⟨rfl, serves.jump queued ahead next⟩
  rcases ran : world.run (.sleep wake) horizon with ⟨last, _ | result⟩ <;> rw [ran] at reached
  · obtain ⟨_, _, _, minds⟩ := reached
    exact minds
  · exact reached

theorem Minds.sleep (minds : world.Minds client terms) (wholeTimeout : Time.millisecond ∣ terms.storeTimeout)
    (span : Nat) : (world.sleep span).Minds client terms := by
  conv in World.sleep => delta World.sleep
  exact minds.run_sleep wholeTimeout _ _

theorem Minds.pause (minds : world.Minds client terms) (wholeTimeout : Time.millisecond ∣ terms.storeTimeout) :
    world.pause.1.Minds client terms := by
  obtain ⟨holder, serves, queued⟩ := minds.runBatches wholeTimeout world.batchBound
  exact ⟨holder, ⟨⟨serves.hosts.slots_eq, serves.hosts.jobs_eq, serves.hosts.yielded_eq⟩, serves.whole, serves.punctual,
    serves.inUse⟩, queued.imp (fun asleep => ⟨asleep.ready_eq, asleep.timers_eq, asleep.ahead⟩)
      fun called => ⟨called.ready_eq, called.timers_eq⟩⟩

theorem Minds.idle (minds : world.Minds client terms) (wholeTimeout : Time.millisecond ∣ terms.storeTimeout)
    (idlings : List Idling) : (world.idle idlings).Minds client terms := by
  induction idlings generalizing world with
  | nil => exact minds
  | cons idling idlings hypothesis =>
      cases idling with
      | sleep span => exact hypothesis (minds.sleep wholeTimeout span)
      | pause => exact hypothesis (minds.pause wholeTimeout)

theorem Vacant.minds_addSlot (vacant : world.Vacant) (machineId : Nat) (valid : terms.Valid)
    (punctual : (Stores.send client).Punctual world.stores) :
    (world.addSlot client (.create machineId terms valid world.now) none).Minds client terms := by
  refine ⟨.create machineId terms valid world.now, ?_, .inr ⟨?_, vacant.timers_eq⟩⟩
  · refine ⟨⟨?_, vacant.jobs_eq, vacant.yielded_eq⟩, vacant.whole, punctual, .create machineId terms valid world.now⟩
    rw [addSlot, vacant.slots_eq]
    rfl
  · rw [addSlot, spawn, vacant.ready_eq, vacant.slots_eq]
    rfl

/-! ## Looks at the stop -/

def Calls (world : World) (holder : Holder) (step : Stepped Holder Stores) : Prop :=
  holder.cancelled = false ∧ .renewal 0 ∈ world.timers ∧ step.state.awaitsRenewal = true

instance (world : World) (holder : Holder) (step : Stepped Holder Stores) : Decidable (world.Calls holder step) :=
  inferInstanceAs (Decidable (_ ∧ _ ∧ _))

structure Looks (client : Nat) (holder : Holder) (step : Stepped Holder Stores) (world later : World) : Prop where
  hosts : later.Hosts client step.state
  takes : Takes client step world later
  ready_eq : later.ready = if world.Calls holder step then world.ready ++ [.renewer 0] else world.ready
  timers_eq : later.timers = (if world.Calls holder step then world.timers.erase (.renewal 0) else world.timers) ++
    if holder.shutdownWake?.isNone && step.state.shutdownWake?.isSome then [.release 0] else []

theorem awakenStops_of_jobs_eq (none : world.jobs = #[]) (index : Nat) : world.awakenStops index = world := by
  have alone : world.waitingStops index = [] := by simp [waitingStops, none]
  rw [awakenStops, alone, List.append_nil]

theorem Hosts.runShutdown (hosts : world.Hosts client holder) :
    let step := holder.shutDown (Stores.send client) world.now world.stores
    ∃ later, world.runShutdown 0 = (later, step.state.stopOutcome?) ∧ Looks client holder step world later := by
  intro step
  let placed := (world.absorb client step).setHolder 0 step.state
  let called := if holder.cancelled then placed else placed.awakenRenewer 0
  let timed := if holder.shutdownWake?.isNone && step.state.shutdownWake?.isSome then called.setTimer (.release 0) else called
  have found : world.slots[0]? = some { client, holder, minter? := none } := by rw [hosts.slots_eq]; rfl
  have slots : placed.slots = #[{ client, holder := step.state, minter? := none }] := by
    simp [placed, setHolder, absorb, log, hosts.slots_eq]
  have awaits : (placed.holder? 0).any (·.awaitsRenewal) = step.state.awaitsRenewal := by
    rw [holder?, slots]
    rfl
  have called_eq : called = { placed with
      ready := if world.Calls holder step then world.ready ++ [.renewer 0] else world.ready
      timers := if world.Calls holder step then world.timers.erase (.renewal 0) else world.timers } := by
    show (if holder.cancelled = true then placed else placed.awakenRenewer 0) = _
    by_cases cancelled : holder.cancelled = true
    · have uncalled : ¬ world.Calls holder step := fun calls => by simp [calls.1] at cancelled
      rw [if_pos cancelled, if_neg uncalled, if_neg uncalled]
      rfl
    · rw [if_neg cancelled, awakenRenewer, awaits]
      by_cases calls : world.Calls holder step
      · rw [if_pos calls, if_pos calls]
        exact if_pos calls.2
      · rw [if_neg calls, if_neg calls]
        exact if_neg fun both => calls ⟨Bool.eq_false_iff.2 cancelled, both⟩
  have timed_eq : timed = { called with
      timers := called.timers ++ if holder.shutdownWake?.isNone && step.state.shutdownWake?.isSome then [.release 0] else [] } := by
    show (if _ then _ else _) = _
    split
    · rfl
    · rw [List.append_nil]
  rw [called_eq] at timed_eq
  have jobs : timed.jobs = #[] := by
    rw [timed_eq]
    exact hosts.jobs_eq
  refine ⟨timed, ?_, ?_⟩
  · have quiet : (if holder.stopOutcome?.isSome then timed else timed.awakenStops 0) = timed := by
      rw [awakenStops_of_jobs_eq jobs, ite_self]
    unfold World.runShutdown
    rw [found]
    dsimp only
    split
    next waits => exact congrArg (timed, ·) waits.symm
    next outcome closed => exact (congrArg (·, some outcome) quiet).trans (congrArg (timed, ·) closed.symm)
  · rw [timed_eq]
    exact ⟨⟨slots, hosts.jobs_eq, hosts.yielded_eq⟩, ⟨rfl, rfl, rfl⟩, rfl, rfl⟩

theorem Hosts.poll_stop (hosts : world.Hosts client holder) :
    let step := holder.shutDown (Stores.send client) world.now world.stores
    ∃ later, Looks client holder step world later ∧ world.poll (.stop 0 none) =
      (later, step.state.stopOutcome?.elim (.inl (.stop 0 none)) fun outcome => .inr (.stopped outcome)) := by
  intro step
  obtain ⟨later, ran, looks⟩ := hosts.runShutdown
  refine ⟨later, looks, ?_⟩
  rw [poll, ran]
  cases step.state.stopOutcome? <;> rfl

/-! ## The release -/

section

variable (client machineId : Nat) (release : Call) (starts : List Nat)

structure Aims (world : World) (holder : Holder) : Prop where
  hosts : world.Hosts client holder
  same : holder.machineId = machineId
  begins : release = holder.release (Stores.send client) release.begunAt world.stores
  begun : timesOf Note.startsRelease world.record.toList = starts

structure Releases (world : World) (holder : Holder) : Prop where
  hosts : world.Hosts client holder
  gone : holder.Gone
  same : holder.machineId = machineId
  releasing : holder.shutdown = .releasing release
  ahead : world.now < release.overAt
  begun : timesOf Note.startsRelease world.record.toList = starts ++ [release.begunAt]

structure Departs (last : World) (result : Result) : Prop where
  now_eq : last.now = release.overAt
  begun : timesOf Note.startsRelease last.record.toList = starts ++ [release.begunAt]
  outcome : ∃ reply, release.result? release.overAt = some reply ∧ result = .stopped (reply.stopOutcome machineId)

/-- At the instant `now` the stop waits for the renewal in flight, or for the release. -/
inductive Lingers (now : Nat) (world : World) : Activity → Prop where
  | joining {holder : Holder} {call : Call} {due : Nat} (time : world.now = now)
      (aims : Aims client machineId release starts world holder) (asleep : world.Asleep holder)
      (cancelled : holder.cancelled = true) (joining : holder.shutdown = .joining)
      (calls : holder.renewer = .calling call due) (timed : call.Timed holder.terms now) (ahead : now < call.overAt)
      (ends : call.overAt = release.begunAt) : Lingers now world (.stop 0 none)
  | releasing {holder : Holder} (time : world.now = now) (releases : Releases client machineId release starts world holder)
      (ready : world.ready = []) (timers : world.timers = [.release 0]) : Lingers now world (.stop 0 none)

end

variable {machineId : Nat} {release : Call} {starts : List Nat}

theorem Hosts.poll_release (hosts : world.Hosts client holder) (gone : holder.Gone) (same : holder.machineId = machineId)
    (releasing : holder.Releasing world.now release (holder.shutDown (Stores.send client) world.now world.stores))
    (begun : timesOf Note.startsRelease world.record.toList ++
      Note.times Note.startsRelease world.now (holder.shutDown (Stores.send client) world.now world.stores).notes =
        starts ++ [release.begunAt])
    (reached : release.overAt ≤ world.now → world.now = release.overAt) :
    Meets (fun later activity => activity = .stop 0 none ∧ later.now = world.now ∧
        (∃ holder', Releases client machineId release starts later holder') ∧ later.ready = world.ready ∧
        later.timers = world.timers ++ if holder.shutdownWake?.isNone then [.release 0] else [])
      (Departs machineId release starts) (world.poll (.stop 0 none)) := by
  obtain ⟨later, looks, polled⟩ := hosts.poll_stop
  generalize holder.shutDown (Stores.send client) world.now world.stores = step at releasing begun looks polled
  have gone' : step.state.Gone := by
    rw [Holder.Gone, releasing.renewer_eq]
    exact gone
  have uncalled : ¬ world.Calls holder step := by
    rintro ⟨_, _, awaits⟩
    rw [gone'.awaitsRenewal_eq] at awaits
    contradiction
  have begun' := (looks.takes.timesOf_eq _).trans begun
  rw [polled]
  rcases releasing.outcome with ⟨ahead, shutdown⟩ | ⟨reply, result, outcome⟩
  · have goes_on : step.state.stopOutcome? = none := by rw [Holder.stopOutcome?, shutdown]
    have wakes : step.state.shutdownWake?.isSome := by
      rw [Holder.shutdownWake?, shutdown]
      rfl
    rw [goes_on]
    refine ⟨rfl, looks.takes.now_eq, ⟨_, looks.hosts, gone', releasing.machineId_eq.trans same, shutdown, ?_, begun'⟩, ?_, ?_⟩
    · rw [looks.takes.now_eq]
      exact ahead
    · rw [looks.ready_eq, if_neg uncalled]
    · rw [looks.timers_eq, if_neg uncalled, wakes, Bool.and_true]
  · have time := reached (Call.result?_isSome_iff.1 (Option.isSome_of_eq_some result))
    rw [outcome]
    exact ⟨looks.takes.now_eq.trans time, begun', reply, time ▸ result, by rw [same]⟩

theorem Releases.settle (releases : Releases client machineId release starts world holder) (ready : world.ready = [])
    (timers : world.timers = [.release 0]) (turns : Nat) :
    Meets (Lingers client machineId release starts world.now) (Departs machineId release starts)
      (World.settle (turns + 1) world (.stop 0 none)) := by
  obtain ⟨releasing, silent⟩ := Holder.shutDown_of_releasing (Stores.send client) world.stores world.now releases.releasing
  have polled := releases.hosts.poll_release releases.gone releases.same releasing
    (by rw [silent, List.append_nil, releases.begun]) fun reached => absurd releases.ahead (Nat.not_lt.2 reached)
  have set : holder.shutdownWake?.isNone = false := by
    rw [Holder.shutdownWake?, releases.releasing]
    rfl
  refine meets_settle polled ?_
  rintro later _ ⟨rfl, now, ⟨holder', releases⟩, ready', timers'⟩
  rw [ready] at ready'
  rw [timers, set] at timers'
  rw [if_pos (by rw [ready']; rfl)]
  exact .releasing now releases ready' timers'

theorem Releases.turn (releases : Releases client machineId release starts world holder)
    (ready : world.ready = [.renewer 0]) :
    Releases client machineId release starts world.runBatch holder ∧ world.runBatch.now = world.now ∧
      world.runBatch.ready = [] ∧ world.runBatch.timers = world.timers := by
  obtain ⟨hosts, takes, ready, timers⟩ := releases.hosts.turn ready
  rw [Holder.renew_of_waits (by decide) releases.gone.renewalStep?_eq] at hosts takes ready timers
  have silent : holder.renewalWake?.isSome = false := by
    rw [releases.gone.renewalWake?_eq]
    rfl
  simp only [silent, Bool.false_eq_true, false_and, if_false] at ready timers
  have begun := (takes.timesOf_eq Note.startsRelease).trans (List.append_nil _)
  exact ⟨⟨hosts, releases.gone, releases.same, releases.releasing, takes.now_eq.symm ▸ releases.ahead,
    begun.trans releases.begun⟩, takes.now_eq, ready, timers⟩

theorem Aims.poll_gone (aims : Aims client machineId release starts world holder) (gone : holder.Gone)
    (pending : holder.shutdown.releases = 0) (now : release.begunAt = world.now) :
    Meets (fun later activity => activity = .stop 0 none ∧ later.now = world.now ∧
        (∃ holder', Releases client machineId release starts later holder') ∧ later.ready = world.ready ∧
        later.timers = world.timers ++ [.release 0])
      (Departs machineId release starts) (world.poll (.stop 0 none)) := by
  obtain ⟨releasing, noted⟩ := Holder.shutDown_of_gone pending gone
  have unset : holder.shutdownWake?.isNone := by
    unfold Holder.shutdownWake?
    split
    next call shutdown => simp [shutdown, Shutdown.releases] at pending
    next => rfl
  have begins := aims.begins
  rw [now] at begins
  rw [← begins] at releasing
  have polled := aims.hosts.poll_release gone aims.same releasing (by rw [aims.begun, noted, now]) fun reached =>
    Nat.le_antisymm (begins ▸ holder.le_overAt_release world.stores) reached
  rwa [unset] at polled

theorem Aims.settle_gone (aims : Aims client machineId release starts world holder) (gone : holder.Gone)
    (pending : holder.shutdown.releases = 0) (now : release.begunAt = world.now) (ready : world.ready = [])
    (timers : world.timers = []) (turns : Nat) :
    Meets (Lingers client machineId release starts world.now) (Departs machineId release starts)
      (World.settle (turns + 1) world (.stop 0 none)) := by
  refine meets_settle (aims.poll_gone gone pending now) ?_
  rintro later _ ⟨rfl, now, ⟨holder', releases⟩, ready', timers'⟩
  rw [ready] at ready'
  rw [timers] at timers'
  rw [if_pos (by rw [ready']; rfl)]
  exact .releasing now releases ready' timers'

/-- A renewer that has broken down at once has its first turn after the release has begun. -/
theorem Aims.settle_gone_called (aims : Aims client machineId release starts world holder) (gone : holder.Gone)
    (pending : holder.shutdown.releases = 0) (now : release.begunAt = world.now) (called : world.Called) (turns : Nat) :
    Meets (Lingers client machineId release starts world.now) (Departs machineId release starts)
      (World.settle (turns + 2) world (.stop 0 none)) := by
  refine meets_settle (aims.poll_gone gone pending now) ?_
  rintro later _ ⟨rfl, now, ⟨holder', releases⟩, ready', timers'⟩
  rw [called.ready_eq] at ready'
  rw [called.timers_eq] at timers'
  obtain ⟨turned, now', idle, set⟩ := releases.turn ready'
  have busy : ¬ later.ready.isEmpty := by simp [ready']
  rw [if_neg busy, ← now, ← now']
  exact turned.settle idle (set.trans timers') turns

/-! ## The end of the renewer -/

structure Joins (client : Nat) (holder : Holder) (world later : World) : Prop where
  hosts : later.Hosts client holder.joined
  now_eq : later.now = world.now
  stores_eq : later.stores = world.stores
  begun : timesOf Note.startsRelease later.record.toList = timesOf Note.startsRelease world.record.toList
  called : world.Called → later.Called
  awakened : world.Asleep holder → holder.cancelled = false → holder.awaitsRenewal = true → later.Called
  asleep : world.Asleep holder → holder.awaitsRenewal = false → later.Asleep holder.joined

theorem Hosts.poll_alive (hosts : world.Hosts client holder)
    (pending : holder.shutdown = .idle ∨ holder.shutdown = .joining ∧ holder.cancelled = true) (alive : ¬ holder.Gone) :
    ∃ later, world.poll (.stop 0 none) = (later, .inl (.stop 0 none)) ∧ Joins client holder world later := by
  obtain ⟨later, looks, polled⟩ := hosts.poll_stop
  rw [Holder.shutDown_of_alive pending alive] at looks polled
  have timers : later.timers = if world.Calls holder ⟨holder.joined, world.stores, []⟩ then world.timers.erase (.renewal 0)
      else world.timers := by
    have unset : holder.joined.shutdownWake?.isSome = false := rfl
    rw [looks.timers_eq, unset, Bool.and_false]
    exact List.append_nil _
  refine ⟨later, polled, looks.hosts, looks.takes.now_eq, looks.takes.stores_eq, ?_, ?_, ?_, ?_⟩
  · exact (looks.takes.timesOf_eq _).trans (List.append_nil _)
  · intro called
    have uncalled : ¬ world.Calls holder ⟨holder.joined, world.stores, []⟩ := by
      rintro ⟨_, set, _⟩
      rw [called.timers_eq] at set
      contradiction
    exact ⟨looks.ready_eq.trans ((if_neg uncalled).trans called.ready_eq),
      timers.trans ((if_neg uncalled).trans called.timers_eq)⟩
  · intro asleep active awaits
    obtain ⟨wake, waits⟩ : ∃ wake, holder.renewalWake? = some wake := by
      unfold Holder.awaitsRenewal at awaits
      unfold Holder.renewalWake?
      cases renewer : holder.renewer <;> simp [renewer] at awaits ⊢
    have set := asleep.timers_eq_singleton waits
    have calls : world.Calls holder ⟨holder.joined, world.stores, []⟩ :=
      ⟨active, by rw [set]; exact List.mem_singleton_self _, awaits⟩
    refine ⟨looks.ready_eq.trans ((if_pos calls).trans ?_), timers.trans ((if_pos calls).trans ?_)⟩
    · rw [asleep.ready_eq]
      rfl
    · rw [set]
      rfl
  · intro asleep awaits
    have uncalled : ¬ world.Calls holder ⟨holder.joined, world.stores, []⟩ := by
      rintro ⟨_, _, awaited⟩
      exact Bool.false_ne_true (awaits.symm.trans awaited)
    exact ⟨looks.ready_eq.trans ((if_neg uncalled).trans asleep.ready_eq),
      timers.trans ((if_neg uncalled).trans asleep.timers_eq), looks.takes.now_eq ▸ asleep.ahead⟩

theorem Aims.joined {later : World} (aims : Aims client machineId release starts world holder)
    (joins : Joins client holder world later) : Aims client machineId release starts later holder.joined :=
  ⟨joins.hosts, aims.same, joins.stores_eq ▸ aims.begins, joins.begun.trans aims.begun⟩

theorem Aims.settle_runBatch (aims : Aims client machineId release starts world holder) (called : world.Called)
    (cancelled : holder.cancelled = true) (joining : holder.shutdown = .joining)
    (ended : ∀ call ∈ holder.renewer.calls, call.overAt ≤ world.now) (now : release.begunAt = world.now) (turns : Nat) :
    Meets (Lingers client machineId release starts world.now) (Departs machineId release starts)
      (World.settle (turns + 1) world.runBatch (.stop 0 none)) := by
  have quits : holder.Quits world.now world.stores
      (holder.renew (Stores.send client) world.now turnCredit world.stores) :=
    Holder.quits_of_cancelled cancelled ended (by decide)
  obtain ⟨hosts, takes, ready, timers⟩ := aims.hosts.turn called.ready_eq
  generalize holder.renew (Stores.send client) world.now turnCredit world.stores = left at quits hosts takes ready timers
  have silent : left.state.1.renewalWake?.isSome = false := by
    rw [quits.gone.renewalWake?_eq]
    rfl
  simp only [silent, Bool.false_eq_true, false_and, if_false] at ready timers
  have begins : release = left.state.1.release (Stores.send client) release.begunAt world.runBatch.stores := by
    rw [Holder.release, quits.machineId_eq, quits.terms_eq, takes.stores_eq, quits.store_eq]
    exact aims.begins
  have begun : timesOf Note.startsRelease world.runBatch.record.toList = starts := by
    rw [takes.timesOf_eq, quits.silent, List.append_nil, aims.begun]
  have aims : Aims client machineId release starts world.runBatch left.state.1 :=
    ⟨hosts, quits.machineId_eq.trans aims.same, begins, begun⟩
  have pending : left.state.1.shutdown.releases = 0 := by rw [quits.shutdown_eq, joining, Shutdown.releases]
  rw [← takes.now_eq] at now ⊢
  exact aims.settle_gone quits.gone pending now ready (timers.trans called.timers_eq) turns

theorem settle_of_asleep {later : World} (polled : world.poll (.stop 0 none) = (later, .inl (.stop 0 none)))
    (asleep : later.Asleep holder) (turns : Nat) :
    World.settle (turns + 1) world (.stop 0 none) = (later, .inl (.stop 0 none)) := by
  rw [World.settle, polled]
  exact if_pos (by rw [asleep.ready_eq]; rfl)

theorem Aims.settle_asleep (aims : Aims client machineId release starts world holder) (asleep : world.Asleep holder)
    (cancelled : holder.cancelled = true) (joining : holder.shutdown = .joining) {call : Call} {due : Nat}
    (calls : holder.renewer = .calling call due) (timed : call.Timed holder.terms world.now)
    (ahead : world.now < call.overAt) (ends : call.overAt = release.begunAt) (turns : Nat) :
    Meets (Lingers client machineId release starts world.now) (Departs machineId release starts)
      (World.settle (turns + 1) world (.stop 0 none)) := by
  have alive : ¬ holder.Gone := by simp [Holder.Gone, calls]
  have awaits : holder.awaitsRenewal = false := by rw [Holder.awaitsRenewal, calls]
  obtain ⟨later, polled, joins⟩ := aims.hosts.poll_alive (.inr ⟨joining, cancelled⟩) alive
  have asleep := joins.asleep asleep awaits
  rw [settle_of_asleep polled asleep]
  exact .joining joins.now_eq (aims.joined joins) asleep rfl rfl calls timed ahead ends

theorem settle_of_called {later : World} (polled : world.poll (.stop 0 none) = (later, .inl (.stop 0 none)))
    (called : later.Called) (turns : Nat) :
    World.settle (turns + 1) world (.stop 0 none) = World.settle turns later.runBatch (.stop 0 none) := by
  rw [World.settle, polled]
  exact if_neg (by rw [called.isEmpty_eq]; exact Bool.false_ne_true)

theorem Aims.turn_calling (aims : Aims client machineId release starts world holder) (called : world.Called) {call : Call}
    {due : Nat} (calls : holder.renewer = .calling call due) (ahead : world.now < call.overAt) :
    Aims client machineId release starts world.runBatch holder ∧ world.runBatch.Asleep holder ∧
      world.runBatch.now = world.now := by
  have waits : holder.renewalStep? (Stores.send client) world.now world.stores = none := by
    simp [Holder.renewalStep?, calls, Call.result?_eq_none_iff.2 ahead]
  have solvent : turnCredit ≠ 0 := by decide
  have left := Holder.renew_of_waits solvent waits
  obtain ⟨hosts, takes, _⟩ := aims.hosts.turn called.ready_eq
  have queued := aims.hosts.asleep_or_called called
  rw [left] at hosts takes queued
  have begun := (takes.timesOf_eq Note.startsRelease).trans (List.append_nil _)
  exact ⟨⟨hosts, aims.same, takes.stores_eq.symm ▸ aims.begins, begun.trans aims.begun⟩,
    queued.resolve_right fun yielded => solvent yielded.2, takes.now_eq⟩

theorem Aims.settle_alive (aims : Aims client machineId release starts world holder) (alive : ¬ holder.Gone)
    (pending : holder.shutdown = .idle ∨ holder.shutdown = .joining ∧ holder.cancelled = true)
    (queued : world.Asleep holder ∧ holder.cancelled = false ∨ world.Called)
    (timed : ∀ call ∈ holder.renewer.calls, call.Timed holder.terms world.now)
    (instant : release.begunAt = max world.now (holder.renewer.endsBy holder.terms.storeTimeout world.now)) (turns : Nat) :
    Meets (Lingers client machineId release starts world.now) (Departs machineId release starts)
      (World.settle (turns + 2) world (.stop 0 none)) := by
  obtain ⟨later, polled, joins⟩ := aims.hosts.poll_alive pending alive
  -- Unless a renewal goes on, the renewer is called and the release begins now.
  have leaves (called : later.Called) (ended : ∀ call ∈ holder.renewer.calls, call.overAt ≤ world.now)
      (now : release.begunAt = world.now) :
      Meets (Lingers client machineId release starts world.now) (Departs machineId release starts)
        (World.settle (turns + 2) world (.stop 0 none)) := by
    rw [settle_of_called polled called, ← joins.now_eq]
    rw [← joins.now_eq] at ended now
    exact (aims.joined joins).settle_runBatch called rfl rfl ended now turns
  cases renewer : holder.renewer with
  | waiting due =>
      have awaits : holder.awaitsRenewal = true := by rw [Holder.awaitsRenewal, renewer]
      have called : later.Called := queued.elim (fun both => joins.awakened both.1 both.2 awaits) joins.called
      rw [renewer, Renewer.endsBy, Nat.max_self] at instant
      rw [renewer] at leaves
      exact leaves called (List.forall_mem_nil _) instant
  | calling call due =>
      have awaits : holder.awaitsRenewal = false := by rw [Holder.awaitsRenewal, renewer]
      have timed : call.Timed holder.terms world.now := timed call (by rw [renewer]; exact List.mem_singleton_self _)
      rw [renewer, Renewer.endsBy, ← timed.overAt_eq] at instant
      rcases Nat.lt_or_ge world.now call.overAt with ahead | ended
      · rw [Nat.max_eq_right (Nat.le_of_lt ahead)] at instant
        rcases queued with ⟨asleep, _⟩ | called
        · have asleep := joins.asleep asleep awaits
          rw [settle_of_asleep polled asleep]
          exact .joining joins.now_eq (aims.joined joins) asleep rfl rfl renewer timed ahead instant.symm
        · have called := joins.called called
          rw [← joins.now_eq] at timed ahead ⊢
          obtain ⟨aims, asleep, now⟩ := (aims.joined joins).turn_calling called renewer ahead
          rw [settle_of_called polled called, ← now]
          rw [← now] at timed ahead
          exact aims.settle_asleep asleep rfl rfl renewer timed ahead instant.symm turns
      · have called : later.Called := by
          rcases queued with ⟨asleep, _⟩ | called
          · have ahead := asleep.ahead call.wake (by rw [Holder.renewalWake?, renewer]; rfl)
            rw [timed.wake_eq] at ahead
            exact absurd ended (Nat.not_le.2 ahead)
          · exact joins.called called
        rw [Nat.max_eq_left ended] at instant
        rw [renewer] at leaves
        exact leaves called (List.forall_mem_singleton.2 ended) instant
  | ended => exact absurd (.inl renewer) alive
  | crashed => exact absurd (.inr renewer) alive

/-! ## The stop -/

inductive Resumes (client machineId : Nat) (release : Call) (starts : List Nat) (world : World) : Activity → Prop where
  | first {terms : Terms} {holder : Holder} (serves : world.Serves client terms holder)
      (aims : Aims client machineId release starts world holder) (queued : world.Asleep holder ∨ world.Called)
      (instant : release.begunAt = max world.now (holder.renewer.endsBy terms.storeTimeout world.now)) :
      Resumes client machineId release starts world (.stop 0 none)
  | joining {holder : Holder} {call : Call} {due : Nat} (aims : Aims client machineId release starts world holder)
      (called : world.Called) (cancelled : holder.cancelled = true) (joining : holder.shutdown = .joining)
      (calls : holder.renewer = .calling call due) (timed : call.Timed holder.terms world.now)
      (time : world.now = call.overAt) (ends : call.overAt = release.begunAt) :
      Resumes client machineId release starts world (.stop 0 none)
  | releasing {holder : Holder} (hosts : world.Hosts client holder) (gone : holder.Gone)
      (same : holder.machineId = machineId) (releasing : holder.shutdown = .releasing release)
      (time : world.now = release.overAt)
      (begun : timesOf Note.startsRelease world.record.toList = starts ++ [release.begunAt]) :
      Resumes client machineId release starts world (.stop 0 none)

theorem Serves.settle (serves : world.Serves client terms holder)
    (aims : Aims client machineId release starts world holder) (queued : world.Asleep holder ∨ world.Called)
    (instant : release.begunAt = max world.now (holder.renewer.endsBy terms.storeTimeout world.now)) (turns : Nat) :
    Meets (Lingers client machineId release starts world.now) (Departs machineId release starts)
      (World.settle (turns + 2) world (.stop 0 none)) := by
  have inUse := serves.inUse
  by_cases gone : holder.Gone
  · have now : release.begunAt = world.now := by
      rcases gone with ended | crashed
      · rw [instant, ended, Renewer.endsBy, Nat.max_self]
      · rw [instant, crashed, Renewer.endsBy, Nat.max_self]
    have pending : holder.shutdown.releases = 0 := by rw [inUse.idle, Shutdown.releases]
    rcases queued with asleep | called
    · exact aims.settle_gone gone pending now asleep.ready_eq (asleep.timers_eq_nil gone.renewalWake?_eq) (turns + 1)
    · exact aims.settle_gone_called gone pending now called turns
  · have terms_eq := inUse.terms_eq
    subst terms_eq
    exact aims.settle_alive gone (.inl inUse.idle) (queued.imp_left fun asleep => ⟨asleep, inUse.active⟩) inUse.timed
      instant turns

theorem Resumes.settle {activity : Activity} (resumes : Resumes client machineId release starts world activity) (turns : Nat) :
    Meets (Lingers client machineId release starts world.now) (Departs machineId release starts)
      (World.settle (turns + 2) world activity) := by
  cases resumes with
  | first serves aims queued instant => exact serves.settle aims queued instant turns
  | @joining holder call due aims called cancelled joining calls timed time ends =>
      have alive : ¬ holder.Gone := by simp [Holder.Gone, calls]
      have timed' : ∀ call ∈ holder.renewer.calls, call.Timed holder.terms world.now := by
        rw [calls]
        exact List.forall_mem_singleton.2 timed
      refine aims.settle_alive alive (.inr ⟨joining, cancelled⟩) (.inr called) timed' ?_ turns
      rw [calls, Renewer.endsBy, ← timed.overAt_eq, ← time, Nat.max_self, time, ends]
  | @releasing holder hosts gone same releasing time begun =>
      obtain ⟨releases, silent⟩ := Holder.shutDown_of_releasing (Stores.send client) world.stores world.now releasing
      have polled := hosts.poll_release gone same releases (by rw [silent, List.append_nil, begun]) fun _ => time
      refine meets_settle polled ?_
      rintro later _ ⟨_, now, ⟨_, releases⟩, _⟩
      exact absurd (now.trans time) (Nat.ne_of_lt releases.ahead)

theorem Hosts.activityWake?_stop (hosts : world.Hosts client holder) :
    world.activityWake? (.stop 0 none) = holder.shutdownWake? := by
  rw [activityWake?, holder?, hosts.slots_eq]
  show ([holder.shutdownWake?, none].filterMap id).min? = _
  cases holder.shutdownWake? <;> rfl

theorem Hosts.wake?_release (hosts : world.Hosts client holder) :
    world.wake? (.release 0) = holder.shutdownWake? := by
  rw [wake?, holder?, hosts.slots_eq]
  rfl

theorem nextWake?_stop {timer : Timer} {wake : Nat} (set : world.timers = [timer]) (rings : world.wake? timer = some wake)
    (waits : ∀ time ∈ world.activityWake? (.stop 0 none), time = wake) : world.nextWake? (.stop 0 none) = some wake := by
  rw [nextWake?, set, List.map_singleton, rings]
  cases looks : world.activityWake? (.stop 0 none) with
  | none => rfl
  | some time =>
      obtain rfl := waits time looks
      exact congrArg some (Nat.min_self _)

theorem Releases.jump (releases : Releases client machineId release starts world holder)
    (timers : world.timers = [.release 0]) (shutdownWake : holder.shutdownWake? = some release.overAt) :
    world.jump release.overAt = { world with now := release.overAt, timers := [] } := by
  have rung : world.ring (.release 0) = { world with timers := [] } := by
    show World.awakenStops { world with timers := world.timers.erase (.release 0) } 0 = _
    rw [awakenStops_of_jobs_eq (by exact releases.hosts.jobs_eq), timers]
    rfl
  have rings := releases.hosts.wake?_release.trans shutdownWake
  rw [jump_of_singleton timers rings (Nat.le_refl _), rung]

theorem Lingers.jump {now horizon : Nat} {activity : Activity}
    (lingers : Lingers client machineId release starts now world activity) (wakes : release.wake = release.overAt)
    (follows : release.begunAt ≤ release.overAt) (inTime : release.overAt ≤ horizon) :
    ∃ wake, world.nextWake? activity = some wake ∧ now < wake ∧ wake ≤ horizon ∧
      Resumes client machineId release starts (world.jump wake) activity := by
  cases lingers with
  | @joining holder call due time aims asleep cancelled joining calls timed ahead ends =>
      have renewalWake : holder.renewalWake? = some call.overAt := by rw [Holder.renewalWake?, calls, ← timed.wake_eq]
      have still : holder.shutdownWake? = none := by rw [Holder.shutdownWake?, joining]
      refine ⟨call.overAt, ?_, ahead, ends.trans_le (follows.trans inTime), ?_⟩
      · refine nextWake?_stop (asleep.timers_eq_singleton renewalWake) (aims.hosts.wake?_eq.trans renewalWake) ?_
        rw [aims.hosts.activityWake?_stop, still]
        exact fun _ found => absurd found (Option.not_mem_none _)
      · obtain ⟨hosts, now', stores, record, queued⟩ := aims.hosts.jump asleep call.overAt
        have called := queued.elim (fun asleep => absurd (asleep.1 _ renewalWake) (Nat.lt_irrefl _)) And.right
        refine .joining ⟨hosts, aims.same, stores ▸ aims.begins, record ▸ aims.begun⟩ called cancelled joining calls ?_ now'
          ends
        rw [now']
        exact timed.pass (Nat.le_of_lt ahead)
  | @releasing holder time releases ready timers =>
      have shutdownWake : holder.shutdownWake? = some release.overAt := by
        rw [Holder.shutdownWake?, releases.releasing, ← wakes]
      refine ⟨release.overAt, ?_, time ▸ releases.ahead, inTime, ?_⟩
      · refine nextWake?_stop timers (releases.hosts.wake?_release.trans shutdownWake) ?_
        rw [releases.hosts.activityWake?_stop, shutdownWake]
        exact fun _ same => (Option.some.inj same).symm
      · rw [releases.jump timers shutdownWake]
        exact .releasing ⟨releases.hosts.slots_eq, releases.hosts.jobs_eq, releases.hosts.yielded_eq⟩ releases.gone
          releases.same releases.releasing rfl releases.begun

theorem stop_eq_of_run {index : Nat} {last : World} {outcome : StopOutcome}
    (ran : world.run (.stop index none) world.horizon = (last, some (.stopped outcome))) :
    world.stop index = (last, outcome) := by
  revert ran
  conv in World.stop => delta World.stop
  conv in World.stopUntil => delta World.stopUntil
  refine forgetting (fun run ran => ?_) World.run
  dsimp only
  rw [ran]
  rfl

theorem Serves.endsBy (serves : world.Serves client terms holder) :
    let instant := max world.now (holder.renewer.endsBy terms.storeTimeout world.now)
    Time.millisecond ∣ instant ∧ instant ≤ world.now + min terms.storeTimeout Time.longestSleep := by
  intro instant
  cases renewer : holder.renewer with
  | calling call due =>
      have timed := serves.inUse.timed call (by rw [renewer]; exact List.mem_singleton_self _)
      have instant_eq : instant = max world.now call.overAt := by
        simp only [instant]
        rw [renewer, Renewer.endsBy, timed.overAt_eq]
      have := timed.begun
      have := timed.overAt_le
      refine ⟨?_, by omega⟩
      rw [instant_eq]
      rcases Nat.le_total world.now call.overAt with ahead | ended
      · rw [Nat.max_eq_right ahead]
        exact Time.dvd_min timed.wholeEnd timed.wholeDeadline
      · rw [Nat.max_eq_left ended]
        exact serves.whole
  | waiting _ | ended | crashed =>
      have instant_eq : instant = world.now := by
        simp only [instant]
        rw [renewer, Renewer.endsBy, Nat.max_self]
      rw [instant_eq]
      exact ⟨serves.whole, Nat.le_add_right _ _⟩

theorem Serves.stop (serves : world.Serves client terms holder) (queued : world.Asleep holder ∨ world.Called)
    (wholeTimeout : Time.millisecond ∣ terms.storeTimeout) :
    let answer := (Stores.send client (.release holder.machineId) world.stores).1
    let releasedAt := max world.now (holder.renewer.endsBy terms.storeTimeout world.now)
    let stopped := world.stop 0
    timesOf Note.startsRelease stopped.1.record.toList = timesOf Note.startsRelease world.record.toList ++ [releasedAt] ∧
      stopped.1.now = releasedAt + min answer.delay terms.storeTimeout ∧
      stopped.2 = (if answer.delay ≤ terms.storeTimeout then answer.reply.stopOutcome holder.machineId
        else .finished (some (.releaseFailed holder.machineId (.timedOut terms.storeTimeout)))) ∧
      stopped.1.now ≤ world.now + 2 * terms.storeTimeout := by
  intro answer releasedAt stopped
  obtain ⟨whole, soon⟩ := serves.endsBy
  have terms_eq := serves.inUse.terms_eq
  subst terms_eq
  let release := holder.release (Stores.send client) releasedAt world.stores
  have timed : release.Timed holder.terms releasedAt := .begin (Stores.brief client) serves.punctual wholeTimeout whole _
  obtain ⟨overAt, result⟩ : release.overAt = releasedAt + min answer.delay holder.terms.storeTimeout ∧
      release.result? release.overAt = some _ := Holder.release_overAt (Stores.brief client) holder _ _
  have inTime : release.overAt ≤ world.horizon := by
    have : release.overAt ≤ releasedAt + _ := timed.overAt_le
    have : releasedAt ≤ world.now + min holder.terms.storeTimeout Time.longestSleep := soon
    rw [World.horizon]
    omega
  have follows : release.begunAt ≤ release.overAt := holder.le_overAt_release world.stores
  -- The clock stops at the end of the renewal in flight, if there is one, and at the end of the release.
  obtain ⟨last, _, ran, departs⟩ := ends_run
    (fun world activity (resumes : Resumes client holder.machineId release _ world activity) =>
      resumes.settle world.batchBound)
    (fun now world activity lingers => lingers.jump timed.wake_eq follows inTime)
    (.first serves ⟨serves.hosts, rfl, rfl, rfl⟩ queued rfl)
  obtain ⟨now, begun, reply, ended, rfl⟩ := departs
  have stopped_eq : stopped = (last, reply.stopOutcome holder.machineId) := stop_eq_of_run ran
  obtain rfl := Option.some.inj (ended.symm.trans result)
  rw [stopped_eq]
  refine ⟨begun, now.trans overAt, ?_, ?_⟩
  · show Reply.stopOutcome _ (if _ then _ else _) = _
    split <;> rfl
  · show last.now ≤ _
    have : releasedAt ≤ world.now + min holder.terms.storeTimeout Time.longestSleep := soon
    omega

/-- Whatever a lease has been through, its first stop releases when the renewal in flight is over, and returns with the
answer to the release or at the store timeout. -/
theorem first_stop_on_time {start : World} {index maxMachineId : Nat} (vacant : world.Vacant)
    (wholeTimeout : Time.millisecond ∣ terms.storeTimeout)
    (leased : world.lease client terms maxMachineId = (start, .created index))
    (punctual : (Stores.send client).Punctual start.stores) (idlings : List Idling) :
    let before := start.idle idlings
    let stopped := before.stop index
    ∃ holder, before.holder? index = some holder ∧
      let answer := (Stores.send client (.release holder.machineId) before.stores).1
      let releasedAt := max before.now (holder.renewer.endsBy terms.storeTimeout before.now)
      timesOf Note.startsRelease stopped.1.record.toList =
          timesOf Note.startsRelease before.record.toList ++ [releasedAt] ∧
        stopped.1.now = releasedAt + min answer.delay terms.storeTimeout ∧
        stopped.2 = (if answer.delay ≤ terms.storeTimeout then answer.reply.stopOutcome holder.machineId
          else .finished (some (.releaseFailed holder.machineId (.timedOut terms.storeTimeout)))) ∧
        stopped.1.now ≤ before.now + 2 * terms.storeTimeout := by
  intro before
  obtain ⟨rfl, last, vacant, machineId, valid, rfl⟩ := exists_addSlot_of_lease vacant leased
  have minds : before.Minds client terms := (vacant.minds_addSlot machineId valid punctual).idle wholeTimeout idlings
  clear_value before
  obtain ⟨holder, serves, queued⟩ := minds
  have found : before.holder? 0 = some holder := by
    rw [holder?, serves.hosts.slots_eq]
    rfl
  exact ⟨holder, found, serves.stop queued wholeTimeout⟩

def brittle : Script where
  machineId := 5
  renew := [⟨5 * Time.second, .crash⟩]
  release := [⟨8 * Time.second, .success⟩]

/-- The renewal that begins after 10 seconds ends at 15, just when its time is up. The stop comes at 12, releases at 15 and
waits no longer than 20. -/
theorem brittle_first_stop_on_time :
    let world : World := { wall := 0, stores := Stores.addScript {} brittle }
    let start := (world.lease 0 {} 100).1
    let before := start.idle [.sleep (4 * Time.second), .pause, .sleep (8 * Time.second)]
    let stopped := before.stop 0
    before.now = start.now + 12 * Time.second ∧
      timesOf Note.startsRelease stopped.1.record.toList = [start.now + 15 * Time.second] ∧
      stopped.1.now = start.now + 20 * Time.second ∧
      stopped.2 = .finished (some (.releaseFailed 5 (.timedOut (5 * Time.second)))) := by
  intro world start before stopped
  have vacant : world.Vacant := ⟨rfl, rfl, rfl, rfl, rfl, by decide, nofun⟩
  have leased : world.lease 0 {} 100 = (start, .created 0) := Prod.ext rfl (by decide +kernel)
  have scripted : start.stores.clients[0]? = some (.scripted brittle) := by decide +kernel
  have punctual : (Stores.send 0).Punctual start.stores := by
    apply Stores.punctual_of_scripted scripted
    apply Script.punctual
    intro request
    cases request with
    | acquire _ => exact List.forall_mem_nil _
    | renew _ _ | release _ => exact List.forall_mem_singleton.2 (by decide)
  obtain ⟨holder, found, begun, now, outcome, _⟩ := first_stop_on_time vacant (by decide) leased punctual
    [.sleep (4 * Time.second), .pause, .sleep (8 * Time.second)]
  have time : start.now = Time.second := by decide +kernel
  have call : before.holder? 0 = some ⟨5, {}, Terms.valid_default, false,
      .calling ⟨.renew 5 (30 * Time.second), 11 * Time.second, 16 * Time.second, .crashed, 16 * Time.second, 5 * Time.second⟩
        (21 * Time.second), 0, Time.second, .idle⟩ := by decide +kernel
  obtain rfl := Option.some.inj (found.symm.trans call)
  have answer : (Stores.send 0 (.release 5) before.stores).1 = ⟨8 * Time.second, .ok 5⟩ := by decide +kernel
  have instant : before.now = 13 * Time.second := by decide +kernel
  have quiet : timesOf Note.startsRelease before.record.toList = [] := by decide +kernel
  rw [answer, instant] at now
  rw [answer] at outcome
  rw [quiet, instant] at begun
  rw [instant, time]
  exact ⟨rfl, begun, now, outcome⟩

/-- With a store timeout of 40 years, a release that takes 35 years and one that takes 50 are both over after 30. -/
theorem patient_first_stop_cut :
    let year := Time.longestSleep / 30
    let terms : Terms := { storeTimeout := 40 * year }
    let leased (delay : Nat) :=
      World.lease { wall := 0, stores := Stores.addScript {} { machineId := 5, release := [⟨delay, .success⟩] } } 0 terms 100
    let stopped (delay : Nat) := (leased delay).1.stop 0
    terms.Valid ∧ Time.millisecond ∣ year ∧ origin + terms.storeTimeout < Time.instantLimit ∧
      (leased (35 * year)).2 = .created 0 ∧ (leased (35 * year)).1.now = origin ∧
      (stopped (35 * year)).1.now = origin + 30 * year ∧
      (leased (50 * year)).2 = .created 0 ∧ (leased (50 * year)).1.now = origin ∧
      (stopped (50 * year)).1.now = origin + 30 * year ∧ (stopped (50 * year)).2 = .finished none := by
  intro year terms leased stopped
  exact ⟨by decide, by decide, by decide, by decide +kernel, by decide +kernel, by decide +kernel, by decide +kernel,
    by decide +kernel, by decide +kernel, by decide +kernel⟩

end World
end LeasedIds.Simulation
