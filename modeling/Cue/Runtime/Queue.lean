/-
# Cue.Runtime.Queue — only `Send` puts events on a queue

`asyncWorker.Send` is the only code that puts an event on an `asyncWorker`'s
queue: it appends the event while the queue is open, and records it as queued
(`Obs.enqueue`). The `run` goroutine is the only code that takes events off,
and only off its own worker's queue. This module says so function by function:

* `Sys.Feeds v s t` — from `s` to `t`, worker `v`'s queue only grows, by
  events among which is every event newly recorded as queued on `v`; a closed
  queue stays closed and as it is;
* every function of the runtime model feeds every queue (`loggerSend_feeds`,
  `dispose_feeds`, …), `run` feeds every queue but its own
  (`asyncWorkerRun_feeds`), and on its own it feeds or takes the head
  (`asyncWorkerRun_own`); `G.step_feeds` assembles them.
-/
import Cue.Runtime.Frame

namespace Cue

set_option autoImplicit false

/-- Whether an observation records an event queued on `v`. -/
@[simp] def Obs.isEnqueue (v : Nat) : Obs → Bool
  | .enqueue w _ => w = v
  | _ => false

/-- From `s` to `t`, nothing is queued on `v` unless it is an `asyncWorker`,
whose queue only grows, by events among which is every event newly recorded as
queued on it; a closed queue stays closed and as it is. -/
structure Sys.Feeds (v : Nat) (s t : Sys) : Prop where
  absent : s.asyncWorker? v = none →
    t.asyncWorker? v = none ∧ ∀ e, Obs.enqueue v e ∈ t.trace → Obs.enqueue v e ∈ s.trace
  present : ∀ a, s.asyncWorker? v = some a → ∃ b, t.asyncWorker? v = some b ∧
    (a.queueClosed = true → b.queueClosed = true ∧ b.queue = a.queue) ∧
    ∃ es, b.queue = a.queue ++ es ∧ ∀ e, Obs.enqueue v e ∈ t.trace → Obs.enqueue v e ∈ s.trace ∨ e ∈ es

namespace Sys.Feeds

variable {v : Nat} {s t u : Sys}

theorem refl (s : Sys) : s.Feeds v s :=
  ⟨fun h => ⟨h, fun _ => id⟩, fun a ha => ⟨a, ha, fun h => ⟨h, rfl⟩, [], by simp, fun _ h => .inl h⟩⟩

theorem trans (h₁ : s.Feeds v t) (h₂ : t.Feeds v u) : s.Feeds v u where
  absent h := by
    obtain ⟨ht, e₁⟩ := h₁.absent h
    obtain ⟨hu, e₂⟩ := h₂.absent ht
    exact ⟨hu, fun e he => e₁ e (e₂ e he)⟩
  present a ha := by
    obtain ⟨b, hb, c₁, es₁, q₁, e₁⟩ := h₁.present a ha
    obtain ⟨c, hc, c₂, es₂, q₂, e₂⟩ := h₂.present b hb
    refine ⟨c, hc, fun h => ?_, es₁ ++ es₂, by rw [q₂, q₁, List.append_assoc], fun e he => ?_⟩
    · obtain ⟨h', q⟩ := c₁ h
      obtain ⟨h'', q'⟩ := c₂ h'
      exact ⟨h'', q'.trans q⟩
    · rcases e₂ e he with he | he
      · rcases e₁ e he with he | he
        exacts [.inl he, .inr (List.mem_append_left _ he)]
      · exact .inr (List.mem_append_right _ he)

/-- A step that queues nothing on `v` and leaves `v` as it is. -/
theorem of_same (same : t.workers[v]? = s.workers[v]?)
    (trace : ∀ e, Obs.enqueue v e ∈ t.trace → Obs.enqueue v e ∈ s.trace) : s.Feeds v t :=
  ⟨fun h => ⟨by simpa [Sys.asyncWorker?, same] using h, trace⟩,
    fun a ha => ⟨a, by simpa [Sys.asyncWorker?, same] using ha, fun h => ⟨h, rfl⟩, [], by simp,
      fun _ he => .inl (trace _ he)⟩⟩

/-- A step that leaves the workers and the trace alone. -/
theorem of_eq (workers : t.workers = s.workers) (trace : t.trace = s.trace) : s.Feeds v t :=
  of_same (by rw [workers]) fun _ he => trace ▸ he

/-- The fields other than the workers, the goroutines and the trace are free. -/
theorem update (cfg : Config) (locked : Option Nat) (sending : Nat) (results : List Bool) (nextEvent : Nat) :
    s.Feeds v { s with cfg, locked, sending, results, nextEvent } :=
  of_eq rfl rfl

theorem record {o : Obs} (ho : o.isEnqueue v = false) : s.Feeds v (s.record o) :=
  of_same rfl fun _ he =>
    (List.mem_append.1 he).resolve_right fun h => by obtain rfl := List.mem_singleton.1 h; simp at ho

theorem spawn (x : G) : s.Feeds v (s.spawn x) := of_eq rfl rfl

/-- A change to another worker. -/
theorem set_other {w : Nat} (hvw : w ≠ v) (z : Worker) : s.Feeds v { s with workers := s.workers.set w z } :=
  of_same (List.getElem?_set_ne hvw) fun _ => id

theorem setSync {w : Nat} {y : SyncWorker} (hw : s.syncWorker? w = some y) (x : SyncWorker) :
    s.Feeds v (s.setSync w x) := by
  by_cases hvw : w = v
  · subst hvw
    have hlt : w < s.workers.length := (List.getElem?_eq_some_iff.1 (workers_of_syncWorker? hw)).1
    have hs : (s.setSync w x).asyncWorker? w = none := by
      simp [Sys.asyncWorker?, Sys.setSync, List.getElem?_set_self hlt]
    exact ⟨fun _ => ⟨hs, fun _ => id⟩, fun a ha => by simp [Sys.asyncWorker?, workers_of_syncWorker? hw] at ha⟩
  · exact set_other hvw _

theorem setAsync_other {w : Nat} (hvw : w ≠ v) (x : AsyncWorker) : s.Feeds v (s.setAsync w x) :=
  set_other hvw _

/-- A change to fields of an `asyncWorker` other than its queue, which closes no
closed queue again. -/
theorem setAsync {w : Nat} {y : AsyncWorker} (hw : s.asyncWorker? w = some y) (x : AsyncWorker)
    (hq : x.queue = y.queue) (hc : y.queueClosed = true → x.queueClosed = true) :
    s.Feeds v (s.setAsync w x) := by
  by_cases hvw : w = v
  · subst hvw
    have hlt : w < s.workers.length := (List.getElem?_eq_some_iff.1 (workers_of_asyncWorker? hw)).1
    refine ⟨fun h => (nomatch hw.symm.trans h), fun a ha => ?_⟩
    rw [hw] at ha; cases ha
    exact ⟨x, by simp [Sys.asyncWorker?, Sys.setAsync, List.getElem?_set_self hlt], fun h => ⟨hc h, hq⟩,
      [], by simp [hq], fun _ he => .inl he⟩
  · exact setAsync_other hvw x

/-- `Send` appends `e` to the open queue of `w` and records it as queued. -/
theorem enqueue {w : Nat} {x : AsyncWorker} (hx : s.asyncWorker? w = some x) (hc : x.queueClosed = false)
    (e : Event) : s.Feeds v ((s.setAsync w { x with queue := x.queue ++ [e] }).record (.enqueue w e)) := by
  by_cases hvw : w = v
  · subst hvw
    have hlt : w < s.workers.length := (List.getElem?_eq_some_iff.1 (workers_of_asyncWorker? hx)).1
    refine ⟨fun h => (nomatch hx.symm.trans h), fun a ha => ?_⟩
    rw [hx] at ha; cases ha
    refine ⟨{ x with queue := x.queue ++ [e] }, by simp [Sys.asyncWorker?, Sys.setAsync, Sys.record,
      List.getElem?_set_self hlt], fun h => absurd (hc ▸ h) Bool.false_ne_true, [e], rfl, fun e' he => ?_⟩
    rcases List.mem_append.1 he with he | he
    · exact .inl he
    · exact .inr (by cases List.mem_singleton.1 he; exact List.mem_singleton_self _)
  · exact (setAsync_other hvw _).trans (record (by simpa using hvw))

theorem setDegraded {c : Collector} {b : Bool} (h : s.setDegraded c b = some t) : s.Feeds v t := by
  unfold Sys.setDegraded at h
  split_ifs at h
  cases h; exact of_eq rfl rfl

end Sys.Feeds

/-! ## Delivery -/

open Sys

variable {s s' : Sys} {g w v : Nat} {ch : Choice} {c : Collector} {e : Event}

theorem sendWithRetries_feeds {k : Nat} {pc : Retries} {r : Next Retries (Option Err)}
    (h : sendWithRetries w c e k s pc ch = some (s', r)) : s.Feeds v s' := by
  unfold sendWithRetries at h
  dsimp only at h
  split at h
  · split at h
    · split at h
      · cases h; exact .record rfl
      · split at h <;> cases h <;> exact .record rfl
      · cases h; exact (Feeds.record (by rfl)).trans (.spawn _)
    · cases h
  · cases h; exact .record rfl

theorem ensureErrorSent_feeds {err : Err} {drops : UInt64} {pc : Ensure}
    {r : Next Ensure (Option Nat)} (h : ensureErrorSent w c err drops s pc ch = some (s', r)) :
    s.Feeds v s' := by
  unfold ensureErrorSent at h
  dsimp only [Sys.fresh] at h
  split at h
  · cases h; exact (Feeds.update _ _ _ _ _).trans (.record rfl)
  · split at h
    · split at h <;> cases h <;> exact .record rfl
    · cases h

theorem handleDegradation_feeds {err : Err} {drops : UInt64} {pc : Degrade}
    {r : Next Degrade Unit} (h : handleDegradation w c err drops s pc ch = some (s', r)) :
    s.Feeds v s' := by
  unfold handleDegradation at h
  split at h
  · obtain ⟨t, ht, h⟩ := Option.map_eq_some'.1 h
    cases h; exact (Feeds.setDegraded ht).trans (.spawn _)
  · split at h <;> cases h
    · exact ensureErrorSent_feeds ‹_›
    · exact ensureErrorSent_feeds ‹_›
    · exact (ensureErrorSent_feeds ‹_›).trans (.spawn _)
    · exact ensureErrorSent_feeds ‹_›
  · obtain ⟨t, ht, h⟩ := Option.map_eq_some'.1 h
    cases h; exact (Feeds.setDegraded ht).trans (.spawn _)

theorem syncWorkerSendEvent_feeds {pc : SendEvent} {r : Next SendEvent Unit}
    (h : syncWorkerSendEvent w c e s pc ch = some (s', r)) : s.Feeds v s' := by
  unfold syncWorkerSendEvent at h
  split at h
  · split at h <;> cases h <;> exact sendWithRetries_feeds ‹_›
  · obtain ⟨x, hx, h⟩ := Option.map_eq_some'.1 h
    cases h; exact .setSync hx _
  · split at h <;> cases h <;> exact handleDegradation_feeds ‹_›

theorem asyncWorkerSendEvent_feeds {pc : SendEvent} {r : Next SendEvent Unit}
    (h : asyncWorkerSendEvent w c e s pc ch = some (s', r)) : s.Feeds v s' := by
  unfold asyncWorkerSendEvent at h
  split at h
  · split at h <;> cases h <;> exact sendWithRetries_feeds ‹_›
  · obtain ⟨x, hx, h⟩ := Option.map_eq_some'.1 h
    cases h; exact .setAsync hx _ (by rfl) (by exact id)
  · split at h
    · cases h; exact handleDegradation_feeds ‹_›
    · obtain ⟨x, hx, h⟩ := Option.map_eq_some'.1 h
      cases h; exact (handleDegradation_feeds ‹_›).trans (.setAsync hx _ (by rfl) (by exact id))
    · cases h; exact handleDegradation_feeds ‹_›
    · cases h

theorem syncWorkerSend_feeds {pc : SyncSend} {r : Next SyncSend Unit}
    (h : syncWorkerSend g w e s pc ch = some (s', r)) : s.Feeds v s' := by
  unfold syncWorkerSend at h
  split at h
  · split_ifs at h <;> cases h <;> exact .setSync ‹_› _
  · split at h <;> cases h <;> exact syncWorkerSendEvent_feeds ‹_›
  · cases h; exact .setSync ‹_› _
  · cases h

theorem asyncWorkerSend_feeds {x : AsyncWorker} (hx : s.asyncWorker? w = some x)
    (h : asyncWorkerSend w e s x = some s') : s.Feeds v s' := by
  unfold asyncWorkerSend at h
  split_ifs at h with h₁ h₂ <;> cases h
  · exact (Feeds.setAsync hx { x with drops := x.drops + 1 } rfl id).trans (.record rfl)
  · exact .enqueue hx (by simpa using h₂) e
  · exact (Feeds.setAsync hx { x with drops := x.drops + 1 } rfl id).trans (.record rfl)

/-! ## Logging calls, termination, and the run loop -/

theorem loggerSend_feeds {pc : Dispatch} {r : Next Dispatch Unit}
    (h : loggerSend g s pc ch = some (s', r)) : s.Feeds v s' := by
  unfold loggerSend at h
  split at h
  · dsimp only [Sys.fresh] at h
    split_ifs at h <;> cases h
    exacts [.refl _, .update _ _ _ _ _]
  · cases h; exact .update _ _ _ _ _
  · cases h; exact .refl _
  · cases h; exact .update _ _ _ _ _
  · split at h
    · split at h
      · cases h
      · dsimp only at h
        split_ifs at h
        · split at h
          · split at h <;> cases h
            · refine Feeds.trans ?_ (asyncWorkerSend_feeds (asyncWorker?_of ‹_›) ‹_›)
              exact .record rfl
            · exact (Feeds.record (by rfl)).trans ((Feeds.update _ _ _ _ _).trans (.record (by rfl)))
          · cases h; exact .record rfl
          · cases h
        · cases h; exact .refl _
    · cases h
  · split at h <;> cases h <;> rename_i hs
    all_goals first | exact syncWorkerSend_feeds hs | exact (syncWorkerSend_feeds hs).trans (.update _ _ _ _ _)

theorem closeCollector_feeds {pc : CloseCollector} {r : Next CloseCollector Unit}
    (h : closeCollector g w c s pc ch = some (s', r)) : s.Feeds v s' := by
  unfold closeCollector at h
  split at h
  · split_ifs at h
    · split at h
      · split at h <;> cases h <;> exact .record rfl
      · cases h
    · cases h; exact .refl _
  · split at h <;> cases h <;> exact loggerSend_feeds ‹_›

theorem syncWorkerTerminate_feeds {pc : Terminate} {r : Next Terminate Unit}
    (h : syncWorkerTerminate g w s pc ch = some (s', r)) : s.Feeds v s' := by
  unfold syncWorkerTerminate at h
  split at h
  · split_ifs at h; cases h; exact .setSync ‹_› _
  · split at h
    · cases h; exact closeCollector_feeds ‹_›
    · obtain ⟨x, hx, h⟩ := Option.map_eq_some'.1 h
      cases h; exact (closeCollector_feeds ‹_›).trans ((Feeds.setSync hx _).trans (.record rfl))
    · cases h; exact closeCollector_feeds ‹_›
    · cases h
  · cases h

theorem asyncWorkerTerminate_feeds {flush : Bool} {pc : Terminate} {r : Next Terminate Unit}
    (h : asyncWorkerTerminate w flush s pc = some (s', r)) : s.Feeds v s' := by
  unfold asyncWorkerTerminate at h
  split at h
  · split_ifs at h <;> cases h
    exacts [.refl _, .setAsync ‹_› _ (by rfl) (by simp)]
  · split_ifs at h <;> cases h
    exacts [.refl _, .setAsync ‹_› _ (by rfl) (by exact id)]
  · split_ifs at h <;> cases h
    exacts [.refl _, .setAsync ‹_› _ (by rfl) (by exact id)]
  · split_ifs at h; cases h; exact .record rfl
  · cases h

theorem terminateWorker_feeds {flush : Bool} {pc : Terminate} {r : Next Terminate Unit}
    (h : terminateWorker g w flush s pc ch = some (s', r)) : s.Feeds v s' := by
  unfold terminateWorker at h
  split at h
  · exact syncWorkerTerminate_feeds h
  · exact asyncWorkerTerminate_feeds h
  · cases h

/-- `run` feeds every queue, but takes the head of its own: in its `select`,
and in the drain of `cleanup`. -/
theorem asyncWorkerRun_feeds {pc : Run} {r : Next Run Unit} (h : asyncWorkerRun g w s pc ch = some (s', r)) :
    s.Feeds v s' ∨ ∃ a e rest, v = w ∧ s.asyncWorker? w = some a ∧ a.queue = e :: rest ∧
      s' = s.setAsync w { a with queue := rest } ∧
      (pc = .select ∧ r = .cont (.handleDrops (some e)) ∨ pc = .drain ∧ r = .cont (.drainSend e .start)) := by
  unfold asyncWorkerRun at h
  split at h
  · cases h
  · rename_i x hx
    split at h
    · split at h
      · cases h
        by_cases hvw : w = v
        · exact .inr ⟨x, _, _, hvw.symm, hx, ‹_›, rfl, .inl ⟨rfl, rfl⟩⟩
        · exact .inl (.setAsync_other hvw _)
      · split_ifs at h; cases h; exact .inl (.refl _)
      · cases h; exact .inl (.setAsync hx _ (by rfl) (by exact id))
      · split_ifs at h; cases h; exact .inl (.refl _)
      · cases h
    · split_ifs at h <;> cases h <;> exact .inl (.refl _)
    · split at h
      · cases h; exact .inl (handleDegradation_feeds ‹_›)
      · obtain ⟨y, hy, h⟩ := Option.map_eq_some'.1 h
        cases h; exact .inl ((handleDegradation_feeds ‹_›).trans (.setAsync hy _ (by rfl) (by exact id)))
      · cases h; exact .inl (handleDegradation_feeds ‹_›)
      · cases h
    · split at h <;> cases h <;> exact .inl (asyncWorkerSendEvent_feeds ‹_›)
    · split at h
      · cases h
        by_cases hvw : w = v
        · exact .inr ⟨x, _, _, hvw.symm, hx, ‹_›, rfl, .inr ⟨rfl, rfl⟩⟩
        · exact .inl (.setAsync_other hvw _)
      · split_ifs at h; cases h; exact .inl (.refl _)
    · split at h <;> cases h <;> exact .inl (asyncWorkerSendEvent_feeds ‹_›)
    · split at h
      · cases h; exact .inl (closeCollector_feeds ‹_›)
      · obtain ⟨y, hy, h⟩ := Option.map_eq_some'.1 h
        cases h; exact .inl ((closeCollector_feeds ‹_›).trans (.setAsync hy _ (by rfl) (by exact id)))
      · cases h; exact .inl (closeCollector_feeds ‹_›)
      · cases h
    · cases h; exact .inl (.setAsync hx _ (by rfl) (by exact id))

theorem spawnTerminators_feeds (s : Sys) (reg : List Entry) : s.Feeds v (spawnTerminators s reg).1 := by
  induction reg generalizing s with
  | nil => exact .refl s
  | cons e rest ih => exact ((Feeds.record (by rfl)).trans (.spawn _)).trans (ih _)

theorem dispose_feeds {cause : Nat} {pc : Dispose} {r : Next Dispose Unit}
    (h : dispose g c cause s pc ch = some (s', r)) : s.Feeds v s' := by
  unfold dispose at h
  split at h
  · split_ifs at h
    split at h
    · cases h; exact .refl _
    · obtain ⟨x, -, h⟩ := Option.map_eq_some'.1 h
      cases h; exact (Feeds.update _ _ _ _ _).trans (.record rfl)
  · split at h <;> cases h <;> exact terminateWorker_feeds ‹_›
  · cases h; exact .update _ _ _ _ _
  · split at h <;> cases h <;> exact loggerSend_feeds ‹_›

theorem terminateAsync_feeds {r : Nat} {pc : TerminateAsync} {n : Next TerminateAsync Unit}
    (h : terminateAsync g r s pc = some (s', n)) : s.Feeds v s' := by
  unfold terminateAsync at h
  split at h
  · split_ifs at h
    cases h; exact (Feeds.update _ _ _ _ _).trans (.record rfl)
  · split_ifs at h
    cases h; exact spawnTerminators_feeds _ _
  · split_ifs at h; cases h; exact .refl _
  · cases h; exact .update _ _ _ _ _
  · cases h; exact .update _ _ _ _ _

/-- Every goroutine but `v`'s `run` feeds `v`'s queue. -/
theorem G.step_feeds {x x' : G} (h : G.step g s x ch = some (s', x')) (hx : ∀ pc, x ≠ .run v pc) :
    s.Feeds v s' := by
  cases x with
  | log pc => obtain ⟨_, hp, -⟩ := Next.toG_inv h; exact loggerSend_feeds hp
  | run w pc =>
      obtain ⟨_, hp, -⟩ := Next.toG_inv h
      rcases asyncWorkerRun_feeds (v := v) hp with hf | ⟨_, _, _, rfl, -⟩
      exacts [hf, absurd rfl (hx pc)]
  | dispose c cause pc => obtain ⟨_, hp, -⟩ := Next.toG_inv h; exact dispose_feeds hp
  | terminateAsync r pc => obtain ⟨_, hp, -⟩ := Next.toG_inv h; exact terminateAsync_feeds hp
  | terminator w pc => obtain ⟨_, hp, -⟩ := Next.toG_inv h; exact terminateWorker_feeds hp
  | close r =>
      simp only [G.step] at h
      split at h
      · cases h; exact .record rfl
      · split_ifs at h; cases h; exact .record rfl
  | done | crashed => cases h

end Cue
