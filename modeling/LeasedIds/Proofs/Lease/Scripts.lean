import LeasedIds.Proofs.Lease.Pacing
import LeasedIds.Simulation.Stores

namespace LeasedIds.Simulation
open Lease

theorem nextBehaviour_fst (behaviours : List Behaviour) :
    (nextBehaviour behaviours).1 = {} ∨ (nextBehaviour behaviours).1 ∈ behaviours := by
  fun_cases nextBehaviour behaviours with
  | case1 => exact .inl rfl
  | case2 last => exact .inr (List.mem_singleton_self last)
  | case3 behaviour rest _ => exact .inr List.mem_cons_self

theorem nextBehaviour_snd_subset (behaviours : List Behaviour) : (nextBehaviour behaviours).2 ⊆ behaviours := by
  fun_cases nextBehaviour behaviours with
  | case1 | case2 => exact List.Subset.refl _
  | case3 behaviour rest _ => exact List.subset_cons_self behaviour rest

namespace Script

def behaviours (script : Script) : Request → List Behaviour
  | .acquire _ => script.acquire
  | .renew _ _ => script.renew
  | .release _ => script.release

theorem behaviours_send_subset (script : Script) (request other : Request) :
    (send request script).2.behaviours other ⊆ script.behaviours other := by
  cases request <;> cases other <;> first | exact List.Subset.refl _ | exact nextBehaviour_snd_subset _

theorem behaviours_after_subset (script : Script) (requests : List Request) (other : Request) :
    (send.after script requests).behaviours other ⊆ script.behaviours other := by
  induction requests generalizing script with
  | nil => exact List.Subset.refl _
  | cons request requests hypothesis =>
      exact List.Subset.trans (hypothesis (send request script).2) (behaviours_send_subset script request other)

theorem reply_send_ne_crashed {script : Script} {request : Request}
    (lasting : ∀ behaviour ∈ script.behaviours request, behaviour.ending ≠ .crash) :
    (send request script).1.reply ≠ .crashed := by
  have ends : (nextBehaviour (script.behaviours request)).1.ending ≠ .crash := by
    rcases nextBehaviour_fst (script.behaviours request) with default | member
    · rw [default]
      decide
    · exact lasting _ member
  cases request <;>
  · simp only [send, answer]
    split
    · simp
    · simp
    next crash => exact absurd crash ends

theorem withstands {script : Script} {kind : Request → Prop}
    (lasting : ∀ request, kind request → ∀ behaviour ∈ script.behaviours request, behaviour.ending ≠ .crash) :
    send.Withstands script kind := by
  intro requests request asked
  apply reply_send_ne_crashed
  intro behaviour member
  exact lasting request asked behaviour (behaviours_after_subset script requests request member)

theorem punctual {script : Script}
    (whole : ∀ request, ∀ behaviour ∈ script.behaviours request, Time.millisecond ∣ behaviour.delay) :
    send.Punctual script := by
  intro requests request
  have wholeDelay : Time.millisecond ∣ (nextBehaviour ((send.after script requests).behaviours request)).1.delay := by
    rcases nextBehaviour_fst ((send.after script requests).behaviours request) with default | member
    · rw [default]
      exact Nat.dvd_zero _
    · exact whole request _ (behaviours_after_subset script requests request member)
  cases request <;> exact Time.dvd_min wholeDelay (by decide)

end Script

namespace Stores

variable {stores : Stores} {client : Nat} {script : Script}

theorem brief (client : Nat) : (send client).Brief := by
  intro request stores
  unfold send
  split
  next script scripted => cases request <;> exact Nat.min_le_right _ _
  next => split <;> exact Nat.zero_le _
  next => exact Nat.zero_le _

theorem send_scripted (scripted : stores.clients[client]? = some (.scripted script)) (request : Request) :
    (send client request stores).1 = (Script.send request script).1 ∧
      (send client request stores).2.clients[client]? = some (.scripted (Script.send request script).2) := by
  obtain ⟨inside, _⟩ := Array.getElem?_eq_some_iff.1 scripted
  rw [send, scripted]
  refine ⟨rfl, ?_⟩
  rw [Array.getElem?_setIfInBounds_self_of_lt inside]

theorem after_scripted (scripted : stores.clients[client]? = some (.scripted script)) (requests : List Request) :
    ((send client).after stores requests).clients[client]? = some (.scripted (Script.send.after script requests)) := by
  induction requests generalizing stores script with
  | nil => exact scripted
  | cons request requests hypothesis => exact hypothesis (send_scripted scripted request).2

theorem withstands_of_scripted (scripted : stores.clients[client]? = some (.scripted script)) {kind : Request → Prop}
    (withstands : Script.send.Withstands script kind) : (send client).Withstands stores kind := by
  intro requests request asked
  rw [(send_scripted (after_scripted scripted requests) request).1]
  exact withstands requests request asked

theorem punctual_of_scripted (scripted : stores.clients[client]? = some (.scripted script))
    (punctual : Script.send.Punctual script) : (send client).Punctual stores := by
  intro requests request
  rw [(send_scripted (after_scripted scripted requests) request).1]
  exact punctual requests request

end Stores
end LeasedIds.Simulation
