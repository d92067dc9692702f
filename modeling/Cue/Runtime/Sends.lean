/-
# Cue.Runtime.Sends — who calls a worker's `Send`

`dispatchEvent` calls `worker.Send(e)` (`Obs.send`) only in its range loop, for
an entry it has still to visit: no other function of the runtime model records
a `Send`. So a step records `Send` only of workers that the stepping
goroutine's logging call reaches (`G.step_sendsTo`).
-/
import Cue.Runtime.Retire

namespace Cue

set_option autoImplicit false

/-- The worker whose `Send` an observation records. -/
@[simp] def Obs.sendTo? : Obs → Option Nat
  | .send w _ => some w
  | _ => none

/-- From `s` to `t` the trace grows, and every `Send` it records is of a worker
`reach` holds. -/
def Sys.SendsTo (reach : Nat → Prop) (s t : Sys) : Prop :=
  ∃ os, t.trace = s.trace ++ os ∧ ∀ w e, Obs.send w e ∈ os → reach w

namespace Sys.SendsTo

variable {reach : Nat → Prop} {s t u : Sys}

theorem of_trace (h : t.trace = s.trace) : s.SendsTo reach t := ⟨[], by simp [h], by simp⟩

theorem trans (h₁ : s.SendsTo reach t) (h₂ : t.SendsTo reach u) : s.SendsTo reach u := by
  obtain ⟨o₁, e₁, p₁⟩ := h₁
  obtain ⟨o₂, e₂, p₂⟩ := h₂
  refine ⟨o₁ ++ o₂, by rw [e₂, e₁, List.append_assoc], fun w e he => ?_⟩
  rcases List.mem_append.1 he with he | he
  exacts [p₁ w e he, p₂ w e he]

theorem record {o : Obs} (ho : o.sendTo? = none) : s.SendsTo reach (s.record o) :=
  ⟨[o], rfl, fun w e he => by cases List.mem_singleton.1 he; cases ho⟩

theorem send {w : Nat} (hw : reach w) (e : Event) : s.SendsTo reach (s.record (.send w e)) :=
  ⟨[_], rfl, fun _ _ he => by cases List.mem_singleton.1 he; exact hw⟩

theorem spawn (h : s.SendsTo reach t) (x : G) : s.SendsTo reach (t.spawn x) := h

theorem mono {reach' : Nat → Prop} (h : s.SendsTo reach t) (hr : ∀ w, reach w → reach' w) :
    s.SendsTo reach' t :=
  let ⟨os, et, hos⟩ := h; ⟨os, et, fun w e he => hr w (hos w e he)⟩

theorem setDegraded {c : Collector} {b : Bool} (h : s.setDegraded c b = some t) : s.SendsTo reach t := by
  unfold Sys.setDegraded at h
  split_ifs at h
  cases h; exact of_trace (by rfl)

end Sys.SendsTo

open Sys

section Functions

variable {s s' : Sys} {g w : Nat} {ch : Choice} {c : Collector} {e : Event} {reach : Nat → Prop}

/-! ## The functions that call no `Send` -/

theorem sendWithRetries_sendsTo {k : Nat} {pc : Retries} {r : Next Retries (Option Err)}
    (h : sendWithRetries w c e k s pc ch = some (s', r)) : s.SendsTo reach s' := by
  unfold sendWithRetries at h
  dsimp only at h
  split at h
  · split at h
    · split at h
      · cases h; exact .record rfl
      · split at h <;> cases h <;> exact .record rfl
      · cases h; exact (SendsTo.record (by rfl)).spawn _
    · cases h
  · cases h; exact .record rfl

theorem ensureErrorSent_sendsTo {err : Err} {drops : UInt64} {pc : Ensure}
    {r : Next Ensure (Option Nat)} (h : ensureErrorSent w c err drops s pc ch = some (s', r)) :
    s.SendsTo reach s' := by
  unfold ensureErrorSent at h
  dsimp only [Sys.fresh] at h
  split at h
  · cases h; exact (SendsTo.of_trace (by rfl)).trans (.record rfl)
  · split at h
    · split at h <;> cases h <;> exact .record rfl
    · cases h

theorem handleDegradation_sendsTo {err : Err} {drops : UInt64} {pc : Degrade}
    {r : Next Degrade Unit} (h : handleDegradation w c err drops s pc ch = some (s', r)) :
    s.SendsTo reach s' := by
  unfold handleDegradation at h
  split at h
  · obtain ⟨t, ht, h⟩ := Option.map_eq_some'.1 h
    cases h; exact (SendsTo.setDegraded ht).spawn _
  · split at h <;> cases h
    · exact ensureErrorSent_sendsTo ‹_›
    · exact ensureErrorSent_sendsTo ‹_›
    · exact (ensureErrorSent_sendsTo ‹_›).spawn _
    · exact ensureErrorSent_sendsTo ‹_›
  · obtain ⟨t, ht, h⟩ := Option.map_eq_some'.1 h
    cases h; exact (SendsTo.setDegraded ht).spawn _

theorem syncWorkerSendEvent_sendsTo {pc : SendEvent} {r : Next SendEvent Unit}
    (h : syncWorkerSendEvent w c e s pc ch = some (s', r)) : s.SendsTo reach s' := by
  unfold syncWorkerSendEvent at h
  split at h
  · split at h <;> cases h <;> exact sendWithRetries_sendsTo ‹_›
  · obtain ⟨x, -, h⟩ := Option.map_eq_some'.1 h
    cases h; exact .of_trace (by rfl)
  · split at h <;> cases h <;> exact handleDegradation_sendsTo ‹_›

theorem asyncWorkerSendEvent_sendsTo {pc : SendEvent} {r : Next SendEvent Unit}
    (h : asyncWorkerSendEvent w c e s pc ch = some (s', r)) : s.SendsTo reach s' := by
  unfold asyncWorkerSendEvent at h
  split at h
  · split at h <;> cases h <;> exact sendWithRetries_sendsTo ‹_›
  · obtain ⟨x, -, h⟩ := Option.map_eq_some'.1 h
    cases h; exact .of_trace (by rfl)
  · split at h
    · cases h; exact handleDegradation_sendsTo ‹_›
    · obtain ⟨x, -, h⟩ := Option.map_eq_some'.1 h
      cases h; exact (handleDegradation_sendsTo ‹_›).trans (.of_trace (by rfl))
    · cases h; exact handleDegradation_sendsTo ‹_›
    · cases h

theorem syncWorkerSend_sendsTo {pc : SyncSend} {r : Next SyncSend Unit}
    (h : syncWorkerSend g w e s pc ch = some (s', r)) : s.SendsTo reach s' := by
  unfold syncWorkerSend at h
  split at h
  · split_ifs at h <;> cases h <;> exact .of_trace (by rfl)
  · split at h <;> cases h <;> exact syncWorkerSendEvent_sendsTo ‹_›
  · cases h; exact .of_trace (by rfl)
  · cases h

theorem asyncWorkerSend_sendsTo {x : AsyncWorker} (h : asyncWorkerSend w e s x = some s') : s.SendsTo reach s' := by
  unfold asyncWorkerSend at h
  split_ifs at h <;> cases h <;> exact (SendsTo.of_trace (by rfl)).trans (.record rfl)

/-! ## Logging calls, and the functions that make them -/

/-- `dispatchEvent` calls `Send` only of a worker its logging call reaches. -/
theorem loggerSend_sendsTo {pc : Dispatch} {r : Next Dispatch Unit}
    (h : loggerSend g s pc ch = some (s', r)) : s.SendsTo pc.Reaches s' := by
  unfold loggerSend at h
  split at h
  · dsimp only [Sys.fresh] at h
    split_ifs at h <;> cases h <;> exact .of_trace (by rfl)
  · cases h; exact .of_trace (by rfl)
  · cases h; exact .of_trace (by rfl)
  · cases h; exact .of_trace (by rfl)
  · rename_i e pending _
    split at h
    · split at h
      · cases h
      · rename_i i entry hi
        have hr : Dispatch.Reaches (.range e pending) entry.worker := .inr ⟨entry, List.getElem?_mem hi, rfl⟩
        dsimp only at h
        split_ifs at h
        · split at h
          · split at h <;> cases h
            · exact (SendsTo.send hr e).trans (asyncWorkerSend_sendsTo ‹_›)
            · exact (SendsTo.send hr e).trans (.record rfl)
          · cases h; exact .send hr e
          · cases h
        · cases h; exact .of_trace (by rfl)
    · cases h
  · split at h <;> cases h <;> rename_i hs
    all_goals first | exact syncWorkerSend_sendsTo hs | exact (syncWorkerSend_sendsTo hs).trans (.of_trace rfl)

theorem closeCollector_sendsTo {pc : CloseCollector} {r : Next CloseCollector Unit}
    (h : closeCollector g w c s pc ch = some (s', r)) : s.SendsTo (fun v => ∃ d ∈ pc.dispatch?, d.Reaches v) s' := by
  unfold closeCollector at h
  split at h
  · split_ifs at h
    · split at h
      · split at h <;> cases h <;> exact .record rfl
      · cases h
    · cases h; exact .of_trace (by rfl)
  · split at h <;> cases h <;> exact (loggerSend_sendsTo ‹_›).mono fun v hv => ⟨_, rfl, hv⟩

theorem terminateWorker_sendsTo {flush : Bool} {pc : Terminate} {r : Next Terminate Unit}
    (h : terminateWorker g w flush s pc ch = some (s', r)) :
    s.SendsTo (fun v => ∃ d ∈ pc.dispatch?, d.Reaches v) s' := by
  unfold terminateWorker at h
  split at h
  · unfold syncWorkerTerminate at h
    split at h
    · split_ifs at h; cases h; exact .of_trace (by rfl)
    · split at h
      · cases h; exact closeCollector_sendsTo ‹_›
      · obtain ⟨x, -, h⟩ := Option.map_eq_some'.1 h
        cases h; exact (closeCollector_sendsTo ‹_›).trans ((SendsTo.of_trace (by rfl)).trans (.record (by rfl)))
      · cases h; exact closeCollector_sendsTo ‹_›
      · cases h
    · cases h
  · unfold asyncWorkerTerminate at h
    split at h <;> (try split_ifs at h) <;> cases h <;> first | exact .of_trace (by rfl) | exact .record rfl
  · cases h

theorem asyncWorkerRun_sendsTo {pc : Run} {r : Next Run Unit} (h : asyncWorkerRun g w s pc ch = some (s', r)) :
    s.SendsTo (fun v => ∃ d ∈ pc.dispatch?, d.Reaches v) s' := by
  unfold asyncWorkerRun at h
  split at h
  · cases h
  · split at h
    · split at h <;> (try split_ifs at h) <;> cases h <;> exact .of_trace (by rfl)
    · split_ifs at h <;> cases h <;> exact .of_trace (by rfl)
    · split at h
      · cases h; exact handleDegradation_sendsTo ‹_›
      · obtain ⟨y, -, h⟩ := Option.map_eq_some'.1 h
        cases h; exact (handleDegradation_sendsTo ‹_›).trans (.of_trace (by rfl))
      · cases h; exact handleDegradation_sendsTo ‹_›
      · cases h
    · split at h <;> cases h <;> exact asyncWorkerSendEvent_sendsTo ‹_›
    · split at h
      · cases h; exact .of_trace (by rfl)
      · split_ifs at h; cases h; exact .of_trace (by rfl)
    · split at h <;> cases h <;> exact asyncWorkerSendEvent_sendsTo ‹_›
    · split at h
      · cases h; exact closeCollector_sendsTo ‹_›
      · obtain ⟨y, -, h⟩ := Option.map_eq_some'.1 h
        cases h; exact (closeCollector_sendsTo ‹_›).trans (.of_trace (by rfl))
      · cases h; exact closeCollector_sendsTo ‹_›
      · cases h
    · cases h; exact .of_trace (by rfl)

theorem dispose_sendsTo {cause : Nat} {pc : Dispose} {r : Next Dispose Unit}
    (h : dispose g c cause s pc ch = some (s', r)) : s.SendsTo (fun v => ∃ d ∈ pc.dispatch?, d.Reaches v) s' := by
  unfold dispose at h
  split at h
  · split_ifs at h
    split at h
    · cases h; exact .of_trace (by rfl)
    · obtain ⟨x, -, h⟩ := Option.map_eq_some'.1 h
      cases h; exact .record rfl
  · split at h <;> cases h <;> exact terminateWorker_sendsTo ‹_›
  · cases h; exact .of_trace (by rfl)
  · split at h <;> cases h <;> exact (loggerSend_sendsTo ‹_›).mono fun v hv => ⟨_, rfl, hv⟩

theorem terminateAsync_sendsTo {r : Nat} {pc : TerminateAsync} {n : Next TerminateAsync Unit}
    (h : terminateAsync g r s pc = some (s', n)) : s.SendsTo reach s' := by
  unfold terminateAsync at h
  split at h
  · split_ifs at h
    cases h; exact .record rfl
  · split_ifs at h
    cases h
    refine ⟨_, (spawnTerminators_eq _ _).1, fun w e he => ?_⟩
    obtain ⟨_, -, he⟩ := List.mem_map.1 he
    cases he
  · split_ifs at h; cases h; exact .of_trace (by rfl)
  · cases h; exact .of_trace (by rfl)
  · cases h; exact .of_trace (by rfl)

end Functions

/-- A step records `Send` only of workers the stepping goroutine's logging call
reaches. -/
theorem G.step_sendsTo {s t : Sys} {g : Nat} {ch : Choice} {x x' : G} (h : G.step g s x ch = some (t, x')) :
    s.SendsTo (fun w => ∃ d ∈ x.dispatch?, d.Reaches w) t := by
  cases x with
  | log pc =>
      obtain ⟨_, hp, -⟩ := Next.toG_inv h
      exact (loggerSend_sendsTo hp).mono fun v hv => ⟨_, rfl, hv⟩
  | run w pc => obtain ⟨_, hp, -⟩ := Next.toG_inv h; exact asyncWorkerRun_sendsTo hp
  | dispose c cause pc => obtain ⟨_, hp, -⟩ := Next.toG_inv h; exact dispose_sendsTo hp
  | terminateAsync r pc => obtain ⟨_, hp, -⟩ := Next.toG_inv h; exact terminateAsync_sendsTo hp
  | terminator w pc => obtain ⟨_, hp, -⟩ := Next.toG_inv h; exact terminateWorker_sendsTo hp
  | close r =>
      simp only [G.step] at h
      split at h
      · cases h; exact .record rfl
      · split_ifs at h; cases h; exact .record rfl
  | done | crashed => cases h

end Cue
