/-
# Cue.Runtime.Lock — `cfg.mu`, and the logging calls in flight

`terminateAsync` replaces the registry under `cfg.mu`, waits until the counter
`sending` of logging calls between `atomic.AddInt32(&sending, 1)` and its
deferred decrement is zero, and only then terminates the replaced workers.
`dispose` terminates its worker under `cfg.mu` without that wait.

* `G.step_lockStep`, `reachable_lockOk` — `cfg.mu` is taken only while it is
  free and released only by its holder: `dispose` while it terminates its
  worker, `terminateAsync` from the replacement to its `unlock`
  (`G.holdsLock`), or a goroutine that crashed holding it.
* `G.step_sendingStep`, `reachable_sendingOk` — only `dispatchEvent` changes
  `sending`, and `sending` is at least the number of logging calls past the
  increment (`G.counted`). A logging call that panics in `Send` does not give
  its count back.
-/
import Cue.Runtime.Kinds

namespace Cue

set_option autoImplicit false

/-! ## The holder of `cfg.mu` -/

def Dispose.holdsLock : Dispose → Bool
  | .terminate _ _ => true
  | .unlock => true
  | _ => false

def TerminateAsync.holdsLock : TerminateAsync → Bool
  | .lock => false
  | _ => true

/-- A position that holds `cfg.mu`. -/
def G.holdsLock : G → Bool
  | .dispose _ _ pc => pc.holdsLock
  | .terminateAsync _ pc => pc.holdsLock
  | _ => false

theorem G.Initial.holdsLock {x : G} (hx : x.Initial) : x.holdsLock = false := by
  unfold G.Initial at hx
  split at hx <;> first | rfl | exact hx.elim

/-- What one step of goroutine `g`, from `x` to `x'`, does to `cfg.mu`: keeps
it (the goroutine perhaps crashing with it), takes it while it is free, or
releases it. -/
def LockStep (g : Nat) (s t : Sys) (x x' : G) : Prop :=
  (t.locked = s.locked ∧ (x'.holdsLock = x.holdsLock ∨ x.holdsLock ∧ x' = .crashed)) ∨
    (s.locked = none ∧ t.locked = some g ∧ x'.holdsLock ∧ x.holdsLock = false) ∨
    (x.holdsLock ∧ t.locked = none ∧ x'.holdsLock = false)

section Lock

variable {s t : Sys} {g : Nat} {ch : Choice}

theorem LockStep.of_frame {x x' : G} (h : s.Frame t) (hx : x.holdsLock = false)
    (hx' : x'.holdsLock = false) : LockStep g s t x x' :=
  .inl ⟨h.locked, .inl (hx'.trans hx.symm)⟩

theorem G.step_lockStep {x x' : G} (h : G.step g s x ch = some (t, x')) : LockStep g s t x x' := by
  unfold G.step at h
  split at h
  · obtain ⟨r, hp, rfl⟩ := Next.toG_inv h
    exact .of_frame (loggerSend_frame hp) rfl (by obtain _ | _ | _ := r <;> rfl)
  · obtain ⟨r, hp, rfl⟩ := Next.toG_inv h
    exact .of_frame (asyncWorkerRun_frame hp) rfl (by obtain _ | _ | _ := r <;> rfl)
  · obtain ⟨r, hp, rfl⟩ := Next.toG_inv h
    unfold Cue.dispose at hp
    split at hp
    · split_ifs at hp with hl
      split at hp
      · cases hp; exact .inl ⟨rfl, .inl rfl⟩
      · obtain ⟨_, -, hp⟩ := Option.map_eq_some'.1 hp
        cases hp; exact .inr (.inl ⟨hl, rfl, rfl, rfl⟩)
    · split at hp <;> cases hp
      · exact .inl ⟨(terminateWorker_frame ‹_›).locked, .inl rfl⟩
      · exact .inl ⟨(terminateWorker_frame ‹_›).locked, .inl rfl⟩
      · exact .inl ⟨(terminateWorker_frame ‹_›).locked, .inr ⟨rfl, rfl⟩⟩
    · cases hp; exact .inr (.inr ⟨rfl, rfl, rfl⟩)
    · split at hp <;> cases hp <;> exact .of_frame (loggerSend_frame ‹_›) rfl rfl
  · obtain ⟨r, hp, rfl⟩ := Next.toG_inv h
    unfold Cue.terminateAsync at hp
    split at hp
    · split_ifs at hp with hl; cases hp; exact .inr (.inl ⟨hl, rfl, rfl, rfl⟩)
    · split_ifs at hp; cases hp; exact .inl ⟨(spawnTerminators_frame _ _).locked, .inl rfl⟩
    · split_ifs at hp; cases hp; exact .inl ⟨rfl, .inl rfl⟩
    · cases hp; exact .inl ⟨rfl, .inl rfl⟩
    · cases hp; exact .inr (.inr ⟨rfl, rfl, rfl⟩)
  · obtain ⟨r, hp, rfl⟩ := Next.toG_inv h
    exact .of_frame (terminateWorker_frame hp) rfl (by obtain _ | _ | _ := r <;> rfl)
  · split at h
    · cases h; exact .inl ⟨rfl, .inl rfl⟩
    · split_ifs at h; cases h; exact .inl ⟨rfl, .inl rfl⟩
  · cases h
  · cases h

/-- `cfg.mu` is held by the goroutine at a holding position (or one that crashed
holding it), and every holding position is that goroutine's. -/
structure LockOk (s : Sys) : Prop where
  held : ∀ g, s.locked = some g → ∃ x, s.gs[g]? = some x ∧ (x.holdsLock ∨ x = .crashed)
  holder : ∀ i x, s.gs[i]? = some x → x.holdsLock → s.locked = some i

theorem lockOk_init : LockOk Sys.init :=
  ⟨fun _ h => (by cases h), fun _ _ h _ => (by simp [Sys.init] at h)⟩

theorem Sys.call_locked {s' : Sys} {c : Call} (h : s.call c = some s') : s'.locked = s.locked := by
  cases c <;> simp only [Sys.call] at h
  case collect =>
    split_ifs at h
    split at h <;> cases h
    · unfold Sys.addWorker; split_ifs <;> rfl
    · rfl
  case setLevel | setFrames => split_ifs at h; cases h; rfl
  all_goals cases h; rfl

theorem G.CallStart.holdsLock {x : G} (hx : x.CallStart) : x.holdsLock = false := by
  unfold G.CallStart at hx
  split at hx <;> first | rfl | exact hx.elim

theorem lockOk_call {s' : Sys} {c : Call} (inv : LockOk s) (h : s.call c = some s') : LockOk s' := by
  obtain ⟨xs, e, hxs⟩ := Sys.call_gs h
  have old {i : Nat} {y : G} (hy : s.gs[i]? = some y) : s'.gs[i]? = some y := by
    rw [e, List.getElem?_append_left (List.getElem?_eq_some_iff.1 hy).1, hy]
  have locked := Sys.call_locked h
  refine ⟨fun g hg => ?_, fun i y hy hl => ?_⟩ <;> rw [locked] at *
  · obtain ⟨y, hy, hl⟩ := inv.held g hg
    exact ⟨y, old hy, hl⟩
  · rcases Nat.lt_or_ge i s.gs.length with hi | hi
    · rw [e, List.getElem?_append_left hi] at hy
      exact inv.holder i y hy hl
    · rw [e, List.getElem?_append_right hi] at hy
      rw [(hxs y (List.getElem?_mem hy)).holdsLock] at hl; cases hl

theorem lockOk_run {x x' : G} (inv : LockOk s) (hx : s.gs[g]? = some x)
    (h : G.step g s x ch = some (t, x')) : LockOk (t.setG g x') := by
  have self := getElem?_setG_self hx h
  refine ⟨fun j hj => ?_, fun i y hy hl => ?_⟩
  · change t.locked = some j at hj
    rcases G.step_lockStep h with ⟨e, hx'⟩ | ⟨-, e, hl', -⟩ | ⟨-, e, -⟩
    · obtain ⟨y, hy, hyl⟩ := inv.held j (e ▸ hj)
      by_cases hjg : j = g
      · subst hjg
        rw [hx] at hy; cases hy
        rcases hyl with hyl | rfl
        · refine ⟨x', self, ?_⟩
          rcases hx' with e' | ⟨-, rfl⟩
          · exact .inl (e' ▸ hyl)
          · exact .inr rfl
        · simp [G.step] at h
      · exact ⟨y, getElem?_setG_other h hjg hy, hyl⟩
    · rw [e] at hj; cases hj; exact ⟨x', self, .inl hl'⟩
    · rw [e] at hj; cases hj
  · change t.locked = some i
    rcases getElem?_setG_of_step hx h hy with ⟨rfl, rfl⟩ | ⟨hi, hy⟩ | ⟨-, hy⟩
    · rcases G.step_lockStep h with ⟨e, e' | ⟨-, rfl⟩⟩ | ⟨-, e, -⟩ | ⟨-, -, e⟩
      · rw [e]; exact inv.holder _ x hx (e' ▸ hl)
      · cases hl
      · exact e
      · rw [e] at hl; cases hl
    · have := inv.holder i y hy hl
      rcases G.step_lockStep h with ⟨e, -⟩ | ⟨e, -⟩ | ⟨hxl, -⟩
      · rw [e]; exact this
      · rw [this] at e; cases e
      · exact absurd (Option.some.inj ((inv.holder g x hx hxl).symm.trans this)) (Ne.symm hi)
    · rw [hy.holdsLock] at hl; cases hl

theorem reachable_lockOk (reach : Reachable s) : LockOk s :=
  reach.induction lockOk_init (fun _ inv h => lockOk_call inv h) fun _ inv hx h => lockOk_run inv hx h

/-- Only the holder of `cfg.mu` releases it. -/
theorem LockStep.locked_of_holder {x x' : G} {i : Nat} (inv : LockOk s) (hx : s.gs[g]? = some x)
    (step : LockStep g s t x x') (hl : s.locked = some i) (hi : i ≠ g) : t.locked = some i := by
  rcases step with ⟨e, -⟩ | ⟨e, -⟩ | ⟨hxl, -⟩
  · rw [e, hl]
  · rw [hl] at e; cases e
  · exact absurd (Option.some.inj ((inv.holder g x hx hxl).symm.trans hl)) (Ne.symm hi)

end Lock

/-! ## The logging calls in flight -/

/-- A logging call counts in `sending` from its increment to its decrement. -/
def Dispatch.counted : Dispatch → Nat
  | .start _ _ _ => 0
  | .add _ => 0
  | _ => 1

/-- The count of the logging call `d` a frame is in, if any. -/
def Dispatch.inFlight (d : Option Dispatch) : Nat := (d.map Dispatch.counted).getD 0

/-- The count a goroutine's logging call contributes. -/
def G.counted (x : G) : Nat := Dispatch.inFlight x.dispatch?

@[simp] theorem Dispatch.inFlight_none : Dispatch.inFlight none = 0 := rfl

theorem Dispatch.inFlight_le_one (d : Option Dispatch) : Dispatch.inFlight d ≤ 1 := by
  rcases d with _ | (_ | _ | _ | _ | _) <;> simp [Dispatch.inFlight, Dispatch.counted]

/-- A step from logging call `d` to `d'` moves `sending` by the change of its
own count. -/
def SendingStep (s t : Sys) (d d' : Option Dispatch) : Prop :=
  Dispatch.inFlight d ≤ s.sending → s.sending + Dispatch.inFlight d' ≤ t.sending + Dispatch.inFlight d

section Sending

variable {s s' t u : Sys} {g w : Nat} {ch : Choice} {c : Collector} {e : Event}

theorem SendingStep.of_eq {d d' : Option Dispatch} (ht : t.sending = s.sending)
    (hd : Dispatch.inFlight d' ≤ Dispatch.inFlight d) : SendingStep s t d d' := fun _ => by omega

/-- A step of a logging call, then work that leaves `sending` alone. -/
theorem SendingStep.trans_eq {d d₁ d' : Option Dispatch} (h : SendingStep s t d d₁)
    (hu : u.sending = t.sending) (hd : Dispatch.inFlight d' ≤ Dispatch.inFlight d₁) :
    SendingStep s u d d' := fun hs => by have := h hs; omega

/-! The functions below `dispatchEvent` leave `sending` alone. -/

theorem sendWithRetries_sending {k : Nat} {pc : Retries} {r : Next Retries (Option Err)}
    (h : sendWithRetries w c e k s pc ch = some (s', r)) : s'.sending = s.sending := by
  unfold sendWithRetries at h
  dsimp only at h
  split at h
  · split at h
    · split at h <;> (try split at h) <;> cases h <;> rfl
    · cases h
  · cases h; rfl

theorem ensureErrorSent_sending {err : Err} {drops : UInt64} {pc : Ensure}
    {r : Next Ensure (Option Nat)} (h : ensureErrorSent w c err drops s pc ch = some (s', r)) :
    s'.sending = s.sending := by
  unfold ensureErrorSent at h
  dsimp only [Sys.fresh] at h
  split at h
  · cases h; rfl
  · split at h
    · split at h <;> cases h <;> rfl
    · cases h

theorem handleDegradation_sending {err : Err} {drops : UInt64} {pc : Degrade}
    {r : Next Degrade Unit} (h : handleDegradation w c err drops s pc ch = some (s', r)) :
    s'.sending = s.sending := by
  unfold handleDegradation Sys.setDegraded at h
  split at h
  · obtain ⟨t, ht, h⟩ := Option.map_eq_some'.1 h
    split_ifs at ht; cases ht; cases h; rfl
  · split at h <;> cases h <;> exact (ensureErrorSent_sending ‹_› :)
  · obtain ⟨t, ht, h⟩ := Option.map_eq_some'.1 h
    split_ifs at ht; cases ht; cases h; rfl

theorem syncWorkerSendEvent_sending {pc : SendEvent} {r : Next SendEvent Unit}
    (h : syncWorkerSendEvent w c e s pc ch = some (s', r)) : s'.sending = s.sending := by
  unfold syncWorkerSendEvent at h
  split at h
  · split at h <;> cases h <;> exact sendWithRetries_sending ‹_›
  · obtain ⟨x, -, h⟩ := Option.map_eq_some'.1 h
    cases h; rfl
  · split at h <;> cases h <;> exact handleDegradation_sending ‹_›

theorem asyncWorkerSendEvent_sending {pc : SendEvent} {r : Next SendEvent Unit}
    (h : asyncWorkerSendEvent w c e s pc ch = some (s', r)) : s'.sending = s.sending := by
  unfold asyncWorkerSendEvent at h
  split at h
  · split at h <;> cases h <;> exact sendWithRetries_sending ‹_›
  · obtain ⟨x, -, h⟩ := Option.map_eq_some'.1 h
    cases h; rfl
  · split at h
    · cases h; exact handleDegradation_sending ‹_›
    · obtain ⟨x, -, h⟩ := Option.map_eq_some'.1 h
      cases h; exact (handleDegradation_sending ‹_› :)
    · cases h; exact handleDegradation_sending ‹_›
    · cases h

theorem syncWorkerSend_sending {pc : SyncSend} {r : Next SyncSend Unit}
    (h : syncWorkerSend g w e s pc ch = some (s', r)) : s'.sending = s.sending := by
  unfold syncWorkerSend at h
  split at h
  · split_ifs at h <;> cases h <;> rfl
  · split at h <;> cases h <;> exact syncWorkerSendEvent_sending ‹_›
  · cases h; rfl
  · cases h

theorem asyncWorkerSend_sending {x : AsyncWorker} (h : asyncWorkerSend w e s x = some s') :
    s'.sending = s.sending := by
  unfold asyncWorkerSend at h
  split_ifs at h <;> cases h <;> rfl

/-! `dispatchEvent` and the functions that call it. -/

theorem loggerSend_sendingStep {pc : Dispatch} {r : Next Dispatch Unit}
    (h : loggerSend g s pc ch = some (s', r)) : SendingStep s s' (some pc) r.cont? := by
  unfold loggerSend at h
  split at h
  · dsimp only [Sys.fresh] at h
    split_ifs at h <;> cases h <;> exact .of_eq rfl (by simp [Dispatch.inFlight, Dispatch.counted, Next.cont?])
  · cases h; exact fun _ => by simp [Dispatch.inFlight, Dispatch.counted, Next.cont?]
  · cases h; exact .of_eq rfl (by simp [Dispatch.inFlight, Dispatch.counted, Next.cont?])
  · cases h; exact fun hs => by simp [Dispatch.inFlight, Dispatch.counted, Next.cont?] at hs ⊢; omega
  · split at h
    · split at h
      · cases h
      · dsimp only at h
        split_ifs at h
        · split at h
          · split at h <;> cases h
            · exact .of_eq (asyncWorkerSend_sending ‹_› :) (by simp [Dispatch.inFlight, Dispatch.counted, Next.cont?])
            · exact fun hs => by simp [Dispatch.inFlight, Dispatch.counted, Next.cont?, Sys.record] at hs ⊢; omega
          · cases h; exact .of_eq rfl (by simp [Dispatch.inFlight, Dispatch.counted, Next.cont?])
          · cases h
        · cases h; exact .of_eq rfl (by simp [Dispatch.inFlight, Dispatch.counted, Next.cont?])
    · cases h
  · split at h <;> cases h
    all_goals have ht := syncWorkerSend_sending ‹_›
    all_goals exact fun hs => by simp [Dispatch.inFlight, Dispatch.counted, Next.cont?] at hs ⊢; omega

theorem closeCollector_sendingStep {pc : CloseCollector} {r : Next CloseCollector Unit}
    (h : closeCollector g w c s pc ch = some (s', r)) :
    SendingStep s s' pc.dispatch? (r.cont?.bind CloseCollector.dispatch?) := by
  unfold closeCollector at h
  split at h
  · split_ifs at h
    · split at h
      · split at h <;> cases h <;>
          exact .of_eq rfl (by simp [Next.cont?, CloseCollector.dispatch?, Dispatch.inFlight, Dispatch.counted])
      · cases h
    · cases h; exact .of_eq rfl (by simp [Next.cont?])
  · split at h <;> cases h
    · exact loggerSend_sendingStep ‹_›
    all_goals exact (loggerSend_sendingStep ‹_› :).trans_eq rfl (by simp [Next.cont?])

theorem syncWorkerTerminate_sendingStep {pc : Terminate} {r : Next Terminate Unit}
    (h : syncWorkerTerminate g w s pc ch = some (s', r)) :
    SendingStep s s' pc.dispatch? (r.cont?.bind Terminate.dispatch?) := by
  unfold syncWorkerTerminate at h
  split at h
  · split_ifs at h; cases h; exact .of_eq rfl (by simp [Next.cont?, Terminate.dispatch?, CloseCollector.dispatch?])
  · split at h
    · cases h; exact closeCollector_sendingStep ‹_›
    · obtain ⟨x, -, h⟩ := Option.map_eq_some'.1 h
      cases h; exact (closeCollector_sendingStep ‹_› :).trans_eq rfl (by simp [Next.cont?])
    · cases h; exact (closeCollector_sendingStep ‹_› :).trans_eq rfl (by simp [Next.cont?])
    · cases h
  · cases h

theorem asyncWorkerTerminate_sending {flush : Bool} {pc : Terminate} {r : Next Terminate Unit}
    (h : asyncWorkerTerminate w flush s pc = some (s', r)) : s'.sending = s.sending :=
  by unfold asyncWorkerTerminate at h; split at h <;> (try split_ifs at h) <;> cases h <;> rfl

theorem terminateWorker_sendingStep {flush : Bool} {pc : Terminate} {r : Next Terminate Unit}
    (h : terminateWorker g w flush s pc ch = some (s', r)) :
    SendingStep s s' pc.dispatch? (r.cont?.bind Terminate.dispatch?) := by
  unfold terminateWorker at h
  split at h
  · exact syncWorkerTerminate_sendingStep h
  · refine .of_eq (asyncWorkerTerminate_sending h) ?_
    unfold asyncWorkerTerminate at h
    split at h <;> (try split_ifs at h) <;> cases h <;> simp [Next.cont?, Terminate.dispatch?]
  · cases h

theorem asyncWorkerRun_sendingStep {pc : Run} {r : Next Run Unit}
    (h : asyncWorkerRun g w s pc ch = some (s', r)) :
    SendingStep s s' pc.dispatch? (r.cont?.bind Run.dispatch?) := by
  unfold asyncWorkerRun at h
  split at h
  · cases h
  · split at h
    · split at h <;> (try split_ifs at h) <;> cases h <;>
        exact .of_eq rfl (by simp [Next.cont?, Run.dispatch?, CloseCollector.dispatch?])
    · split_ifs at h <;> cases h
      · exact .of_eq rfl (by simp [Next.cont?, Run.dispatch?])
      · exact .of_eq rfl (by simp [Next.cont?])
    · split at h
      · cases h; exact .of_eq (handleDegradation_sending ‹_› :) (by simp [Next.cont?, Run.dispatch?])
      · obtain ⟨x, -, h⟩ := Option.map_eq_some'.1 h
        cases h; exact .of_eq (handleDegradation_sending ‹_› :) (by simp [Next.cont?])
      · cases h; exact .of_eq (handleDegradation_sending ‹_› :) (by simp [Next.cont?])
      · cases h
    · split at h <;> cases h <;>
        exact .of_eq (asyncWorkerSendEvent_sending ‹_›) (by simp [Next.cont?, Run.dispatch?])
    · split at h
      · cases h; exact .of_eq rfl (by simp [Next.cont?, Run.dispatch?])
      · split_ifs at h; cases h; exact .of_eq rfl (by simp [Next.cont?, Run.dispatch?, CloseCollector.dispatch?])
    · split at h <;> cases h <;>
        exact .of_eq (asyncWorkerSendEvent_sending ‹_›) (by simp [Next.cont?, Run.dispatch?])
    · split at h
      · cases h; exact closeCollector_sendingStep ‹_›
      · obtain ⟨y, -, h⟩ := Option.map_eq_some'.1 h
        cases h; exact (closeCollector_sendingStep ‹_› :).trans_eq rfl (by simp [Next.cont?, Run.dispatch?])
      · cases h; exact (closeCollector_sendingStep ‹_› :).trans_eq rfl (by simp [Next.cont?])
      · cases h
    · cases h; exact .of_eq rfl (by simp [Next.cont?])

theorem dispose_sendingStep {cause : Nat} {pc : Dispose} {r : Next Dispose Unit}
    (h : dispose g c cause s pc ch = some (s', r)) :
    SendingStep s s' pc.dispatch? (r.cont?.bind Dispose.dispatch?) := by
  unfold dispose at h
  split at h
  · split_ifs at h
    split at h
    · cases h; exact .of_eq rfl (by simp [Next.cont?, Dispose.dispatch?, Dispose.reportStart,
        Dispatch.inFlight, Dispatch.counted])
    · obtain ⟨x, -, h⟩ := Option.map_eq_some'.1 h
      cases h; cases x <;> exact .of_eq rfl (by simp [Next.cont?, Dispose.dispatch?,
        Worker.terminateStart, Terminate.dispatch?])
  · split at h <;> cases h
    · exact terminateWorker_sendingStep ‹_›
    all_goals exact (terminateWorker_sendingStep ‹_› :).trans_eq rfl (by simp [Next.cont?, Dispose.dispatch?])
  · cases h; exact .of_eq rfl (by simp [Next.cont?, Dispose.dispatch?, Dispose.reportStart,
      Dispatch.inFlight, Dispatch.counted])
  · split at h <;> cases h
    · exact loggerSend_sendingStep ‹_›
    all_goals exact (loggerSend_sendingStep ‹_› :).trans_eq rfl (by simp [Next.cont?])

theorem spawnTerminators_sending (s : Sys) (reg : List Entry) :
    (spawnTerminators s reg).1.sending = s.sending := by
  induction reg generalizing s with
  | nil => rfl
  | cons e rest ih => exact ih _

theorem terminateAsync_sending {r : Nat} {pc : TerminateAsync} {n : Next TerminateAsync Unit}
    (h : terminateAsync g r s pc = some (s', n)) : s'.sending = s.sending := by
  unfold terminateAsync at h
  split at h <;> (try split_ifs at h) <;> cases h
  all_goals first | rfl | exact spawnTerminators_sending _ _

theorem G.step_sendingStep {x x' : G} (h : G.step g s x ch = some (t, x')) :
    SendingStep s t x.dispatch? x'.dispatch? := by
  unfold G.step at h
  split at h
  · obtain ⟨r, hp, rfl⟩ := Next.toG_inv h
    rw [Next.toG_dispatch?]; simpa [G.dispatch?] using loggerSend_sendingStep hp
  · obtain ⟨r, hp, rfl⟩ := Next.toG_inv h
    rw [Next.toG_dispatch?]; simpa [G.dispatch?] using asyncWorkerRun_sendingStep hp
  · obtain ⟨r, hp, rfl⟩ := Next.toG_inv h
    rw [Next.toG_dispatch?]; simpa [G.dispatch?] using dispose_sendingStep hp
  · obtain ⟨r, hp, rfl⟩ := Next.toG_inv h
    exact .of_eq (terminateAsync_sending hp) (by rw [Next.toG_dispatch?]; simp [G.dispatch?])
  · obtain ⟨r, hp, rfl⟩ := Next.toG_inv h
    rw [Next.toG_dispatch?]; simpa [G.dispatch?] using terminateWorker_sendingStep hp
  · split at h
    · cases h; exact .of_eq rfl (by simp [G.dispatch?])
    · split_ifs at h; cases h; exact .of_eq rfl (by simp [G.dispatch?])
  · cases h
  · cases h

end Sending

/-- `sending` counts at least the logging calls past their increment. -/
def SendingOk (s : Sys) : Prop := (s.gs.map G.counted).sum ≤ s.sending

theorem G.Initial.counted {x : G} (hx : x.Initial) : x.counted = 0 := by
  unfold G.Initial at hx
  split at hx
  · rfl
  · rfl
  · rcases hx with rfl | rfl <;> rfl
  · exact hx.elim

theorem SendingOk.counted_le {s : Sys} (inv : SendingOk s) {i : Nat} {x : G} (hx : s.gs[i]? = some x) :
    x.counted ≤ s.sending := by
  have := sum_map_set .done G.counted hx
  have done : G.done.counted = 0 := rfl
  unfold SendingOk at inv
  omega

theorem sendingOk_run {s t : Sys} {g : Nat} {ch : Choice} {x x' : G} (inv : SendingOk s)
    (hx : s.gs[g]? = some x) (h : G.step g s x ch = some (t, x')) : SendingOk (t.setG g x') := by
  have sum := sum_setG_of_step (f := G.counted) (fun _ hy => G.Initial.counted hy) hx h
  have step : s.sending + x'.counted ≤ t.sending + x.counted :=
    G.step_sendingStep h (inv.counted_le hx)
  unfold SendingOk at inv ⊢
  change _ ≤ t.sending
  omega

theorem sendingOk_call {s s' : Sys} {c : Call} (inv : SendingOk s) (h : s.call c = some s') :
    SendingOk s' := by
  obtain ⟨xs, e, hxs⟩ := Sys.call_gs h
  have started : (xs.map G.counted).sum = 0 := List.sum_eq_zero fun n hn => by
    obtain ⟨y, hy, rfl⟩ := List.mem_map.1 hn
    have := hxs y hy
    unfold G.CallStart at this
    split at this <;> first | rfl | exact this.elim
  have sending : s'.sending = s.sending := by
    cases c <;> simp only [Sys.call] at h
    case collect =>
      split_ifs at h
      split at h <;> cases h
      · unfold Sys.addWorker; split_ifs <;> rfl
      · rfl
    case setLevel | setFrames => split_ifs at h; cases h; rfl
    all_goals cases h; rfl
  unfold SendingOk at inv ⊢
  rw [e, sending, List.map_append, List.sum_append, started]
  simpa using inv

theorem reachable_sendingOk {s : Sys} (reach : Reachable s) : SendingOk s :=
  reach.induction (by simp [SendingOk, Sys.init]) (fun _ inv h => sendingOk_call inv h)
    fun _ inv hx h => sendingOk_run inv hx h

end Cue
