/-
# Cue.Runtime.Frame — what a step leaves in place

A step of one goroutine changes little of the shared state. It appends to the
trace, starts goroutines at their first phase, keeps every worker's kind and
draws event identities in increasing order (`Sys.Grows`). Below `dispose` and
`terminateAsync`, the two goroutines that take `cfg.mu` for more than one step,
it also leaves the lock and the `Close` results alone, and changes the config
only by `setDegraded`, while the lock is free (`Sys.Frame`).

Each function of the model has its lemma here, proved from the lemmas of the
functions it calls and never by unfolding them:

* `sendWithRetries_frame` … `asyncWorkerRun_frame` — the functions below the
  lock holders keep `Sys.Frame`;
* `dispose_grows`, `terminateAsync_grows` — the lock holders keep `Sys.Grows`.
-/
import Mathlib.Algebra.BigOperators.Group.List
import Mathlib.Algebra.Order.Ring.Nat
import Cue.Runtime.Step

namespace Cue

set_option autoImplicit false

/-! ## Kinds, first phases, and degradations -/

def Worker.isSync : Worker → Bool
  | .sync _ => true
  | .async _ => false

/-- Worker `w`'s kind: `some true` for a `syncWorker`, `none` past the table. -/
def Sys.kindOf (s : Sys) (w : Nat) : Option Bool := (s.workers[w]?).map Worker.isSync

/-- `y` is worker `x` later: the same kind, and the flags that only ever become
true (`terminated`; the closed channels, `queue = nil`, `finished`) still true. -/
def Worker.Le : Worker → Worker → Prop
  | .sync x, .sync y => x.terminated = true → y.terminated = true
  | .async x, .async y => (x.queueClosed = true → y.queueClosed = true) ∧
      (x.queueNil = true → y.queueNil = true) ∧
      (x.terminateClosed = true → y.terminateClosed = true) ∧ (x.finished = true → y.finished = true)
  | _, _ => False

theorem Worker.Le.refl (x : Worker) : x.Le x := by
  cases x <;> simp [Worker.Le]

theorem Worker.Le.trans {x y z : Worker} (h₁ : x.Le y) (h₂ : y.Le z) : x.Le z := by
  cases x <;> cases y <;> cases z <;> simp_all [Worker.Le]

theorem Worker.Le.isSync {x y : Worker} (h : x.Le y) : y.isSync = x.isSync := by
  cases x <;> cases y <;> first | rfl | exact h.elim

/-- Every worker of `ws` is still in `ws'`, later. -/
structure Workers.Le (ws ws' : List Worker) : Prop where
  length : ws'.length = ws.length
  le : ∀ (w : Nat) (x y : Worker), ws[w]? = some x → ws'[w]? = some y → x.Le y

theorem Workers.Le.refl (ws : List Worker) : Workers.Le ws ws :=
  ⟨rfl, fun _ x y hx hy => by rw [hx] at hy; cases hy; exact .refl _⟩

theorem Workers.Le.trans {ws ws' ws'' : List Worker} (h₁ : Workers.Le ws ws')
    (h₂ : Workers.Le ws' ws'') : Workers.Le ws ws'' := by
  refine ⟨h₂.1.trans h₁.1, fun w x z hx hz => ?_⟩
  obtain ⟨y, hy⟩ : ∃ y, ws'[w]? = some y := by
    have := (List.getElem?_eq_some_iff.1 hx).1
    exact ⟨_, List.getElem?_eq_getElem (h₁.1 ▸ this)⟩
  exact (h₁.2 w x y hx hy).trans (h₂.2 w y z hy hz)

theorem Workers.Le.set {ws : List Worker} {w : Nat} {x y : Worker} (hw : ws[w]? = some x)
    (hle : x.Le y) : Workers.Le ws (ws.set w y) := by
  refine ⟨List.length_set .., fun v a b ha hb => ?_⟩
  rw [List.getElem?_set] at hb
  split_ifs at hb with h₁
  · subst h₁; rw [hw] at ha; cases ha; cases hb; exact hle
  · rw [ha] at hb; cases hb; exact .refl _

theorem Workers.Le.kindOf {s s' : Sys} (h : Workers.Le s.workers s'.workers) (w : Nat) :
    s'.kindOf w = s.kindOf w := by
  unfold Sys.kindOf
  rcases Nat.lt_or_ge w s.workers.length with hw | hw
  · rw [List.getElem?_eq_getElem hw, List.getElem?_eq_getElem (h.1 ▸ hw)]
    exact congrArg some (h.2 w _ _ (List.getElem?_eq_getElem hw)
      (List.getElem?_eq_getElem (h.1 ▸ hw))).isSync
  · rw [List.getElem?_eq_none hw, List.getElem?_eq_none (h.1 ▸ hw)]

/-- The goroutines a function starts with `go`: the notices of
`handleDegradation`, the goroutine of `recoverCollector`, and those of
`terminateWorkers`, each at its first phase. -/
def G.Initial : G → Prop
  | .log (.start _ _ _) => True
  | .dispose _ _ .lock => True
  | .terminator _ pc => pc = .lock ∨ pc = .closeQueue
  | _ => False

/-- `c'` is `c` after some calls of `setDegraded`. -/
def Config.Degrades (c c' : Config) : Prop :=
  ∃ ops : List (Collector × Bool), c' = ops.foldl (fun c o => (c.setDegraded o.1 o.2).getD c) c

theorem Config.Degrades.refl (c : Config) : c.Degrades c := ⟨[], rfl⟩

theorem Config.Degrades.trans {c c' c'' : Config} (h₁ : c.Degrades c') (h₂ : c'.Degrades c'') :
    c.Degrades c'' := by
  obtain ⟨o₁, rfl⟩ := h₁
  obtain ⟨o₂, rfl⟩ := h₂
  exact ⟨o₁ ++ o₂, by rw [List.foldl_append]⟩

theorem Config.Degrades.setDegraded (c : Config) (x : Collector) (b : Bool) :
    c.Degrades ((c.setDegraded x b).getD c) := ⟨[(x, b)], rfl⟩

/-! ## The two frames -/

/-- What every step of a goroutine leaves in place. -/
structure Sys.Grows (s s' : Sys) : Prop where
  trace : ∃ os, s'.trace = s.trace ++ os
  gs : ∃ xs, s'.gs = s.gs ++ xs ∧ ∀ x ∈ xs, x.Initial
  workers : Workers.Le s.workers s'.workers
  nextEvent : s.nextEvent ≤ s'.nextEvent

/-- A step that does not take `cfg.mu`: the lock and the `Close` results stay,
and the config changes only by `setDegraded`, never while the lock is held. -/
structure Sys.Frame (s s' : Sys) extends Sys.Grows s s' : Prop where
  locked : s'.locked = s.locked
  results : s'.results = s.results
  cfgHeld : s.locked ≠ none → s'.cfg = s.cfg
  cfg : s.cfg.Degrades s'.cfg

namespace Sys

variable {s : Sys}

theorem syncWorker?_of {w : Nat} {x : SyncWorker} (h : s.workers[w]? = some (.sync x)) :
    s.syncWorker? w = some x := by
  simp [Sys.syncWorker?, h]

theorem asyncWorker?_of {w : Nat} {x : AsyncWorker} (h : s.workers[w]? = some (.async x)) :
    s.asyncWorker? w = some x := by
  simp [Sys.asyncWorker?, h]

theorem workers_of_syncWorker? {w : Nat} {x : SyncWorker} (h : s.syncWorker? w = some x) :
    s.workers[w]? = some (.sync x) := by
  unfold Sys.syncWorker? at h; split at h <;> simp_all

theorem workers_of_asyncWorker? {w : Nat} {x : AsyncWorker} (h : s.asyncWorker? w = some x) :
    s.workers[w]? = some (.async x) := by
  unfold Sys.asyncWorker? at h; split at h <;> simp_all

end Sys

namespace Sys.Grows

variable {s t u : Sys}

theorem refl (s : Sys) : s.Grows s :=
  ⟨⟨[], by simp⟩, ⟨[], by simp, by simp⟩, .refl _, le_rfl⟩

theorem trans (h₁ : s.Grows t) (h₂ : t.Grows u) : s.Grows u where
  trace := by
    obtain ⟨o₁, e₁⟩ := h₁.trace
    obtain ⟨o₂, e₂⟩ := h₂.trace
    exact ⟨o₁ ++ o₂, by rw [e₂, e₁, List.append_assoc]⟩
  gs := by
    obtain ⟨x₁, e₁, i₁⟩ := h₁.gs
    obtain ⟨x₂, e₂, i₂⟩ := h₂.gs
    refine ⟨x₁ ++ x₂, by rw [e₂, e₁, List.append_assoc], fun x hx => ?_⟩
    rcases List.mem_append.1 hx with hx | hx
    exacts [i₁ x hx, i₂ x hx]
  workers := h₁.workers.trans h₂.workers
  nextEvent := h₁.nextEvent.trans h₂.nextEvent

theorem kinds (h : s.Grows t) (w : Nat) : t.kindOf w = s.kindOf w := h.workers.kindOf w

/-- A step that changes none of what `Grows` speaks of. -/
theorem of_eq (trace : t.trace = s.trace) (gs : t.gs = s.gs) (workers : t.workers = s.workers)
    (nextEvent : t.nextEvent = s.nextEvent) : s.Grows t :=
  ⟨⟨[], by simp [trace]⟩, ⟨[], by simp [gs], by simp⟩, workers ▸ .refl _, nextEvent.ge⟩

end Sys.Grows

namespace Sys.Frame

variable {s t u : Sys}

theorem refl (s : Sys) : s.Frame s :=
  ⟨Grows.refl s, rfl, rfl, fun _ => rfl, .refl _⟩

theorem trans (h₁ : s.Frame t) (h₂ : t.Frame u) : s.Frame u where
  toGrows := h₁.toGrows.trans h₂.toGrows
  locked := h₂.locked.trans h₁.locked
  results := h₂.results.trans h₁.results
  cfgHeld hl := (h₂.cfgHeld (h₁.locked ▸ hl)).trans (h₁.cfgHeld hl)
  cfg := h₁.cfg.trans h₂.cfg

/-- A step that touches only what `Frame` allows anyway: the sending counter and
the workers' fields other than their kind. -/
theorem of_eq (trace : t.trace = s.trace) (gs : t.gs = s.gs)
    (workers : Workers.Le s.workers t.workers) (nextEvent : t.nextEvent = s.nextEvent)
    (locked : t.locked = s.locked) (results : t.results = s.results) (cfg : t.cfg = s.cfg) :
    s.Frame t :=
  ⟨⟨⟨[], by simp [trace]⟩, ⟨[], by simp [gs], by simp⟩, workers, nextEvent.ge⟩, locked, results,
    fun _ => cfg, cfg ▸ .refl _⟩

theorem record (s : Sys) (o : Obs) : s.Frame (s.record o) where
  toGrows := ⟨⟨[o], rfl⟩, ⟨[], by simp [Sys.record], by simp⟩, .refl _, le_rfl⟩
  locked := rfl
  results := rfl
  cfgHeld _ := rfl
  cfg := .refl _

theorem spawn (s : Sys) {x : G} (hx : x.Initial) : s.Frame (s.spawn x) where
  toGrows := ⟨⟨[], by simp [Sys.spawn]⟩, ⟨[x], rfl, by simpa using hx⟩, .refl _, le_rfl⟩
  locked := rfl
  results := rfl
  cfgHeld _ := rfl
  cfg := .refl _

/-- `Sys.fresh`'s state: the next event identity drawn. -/
theorem fresh (s : Sys) : s.Frame { s with nextEvent := s.nextEvent + 1 } :=
  ⟨⟨⟨[], by simp⟩, ⟨[], by simp, by simp⟩, .refl _, by simp⟩, rfl, rfl, fun _ => rfl, .refl _⟩

theorem sending (s : Sys) (n : Nat) : s.Frame { s with sending := n } :=
  of_eq rfl rfl (.refl _) rfl rfl rfl rfl

theorem setSync {w : Nat} {y : SyncWorker} (hw : s.syncWorker? w = some y) (x : SyncWorker)
    (hle : y.terminated = true → x.terminated = true) : s.Frame (s.setSync w x) :=
  of_eq rfl rfl (.set (workers_of_syncWorker? hw) hle) rfl rfl rfl rfl

theorem setAsync {w : Nat} {y : AsyncWorker} (hw : s.asyncWorker? w = some y) (x : AsyncWorker)
    (hle : (Worker.async y).Le (.async x)) : s.Frame (s.setAsync w x) :=
  of_eq rfl rfl (.set (workers_of_asyncWorker? hw) hle) rfl rfl rfl rfl

theorem setDegraded {c : Collector} {b : Bool} (h : s.setDegraded c b = some t) : s.Frame t := by
  unfold Sys.setDegraded at h
  split_ifs at h with hl
  cases h
  exact ⟨⟨⟨[], by simp⟩, ⟨[], by simp, by simp⟩, .refl _, le_rfl⟩, rfl, rfl,
    fun h => absurd hl h, .setDegraded _ _ _⟩

end Sys.Frame

/-! ## Delivery -/

open Sys

variable {s s' : Sys} {g w : Nat} {ch : Choice} {c : Collector} {e : Event}

theorem sendWithRetries_frame {k : Nat} {pc : Retries} {r : Next Retries (Option Err)}
    (h : sendWithRetries w c e k s pc ch = some (s', r)) : s.Frame s' := by
  unfold sendWithRetries at h
  dsimp only at h
  split at h
  · split at h
    · split at h
      · cases h; exact .record _ _
      · split at h <;> cases h <;> exact .record _ _
      · cases h; exact (Frame.record _ _).trans (.spawn _ trivial)
    · cases h
  · cases h; exact .record _ _

theorem ensureErrorSent_frame {err : Err} {drops : UInt64} {pc : Ensure}
    {r : Next Ensure (Option Nat)} (h : ensureErrorSent w c err drops s pc ch = some (s', r)) :
    s.Frame s' := by
  unfold ensureErrorSent at h
  dsimp only [Sys.fresh] at h
  split at h
  · cases h; exact (Frame.fresh _).trans (.record _ _)
  · split at h
    · split at h <;> cases h <;> exact .record _ _
    · cases h

theorem handleDegradation_frame {err : Err} {drops : UInt64} {pc : Degrade}
    {r : Next Degrade Unit} (h : handleDegradation w c err drops s pc ch = some (s', r)) :
    s.Frame s' := by
  unfold handleDegradation at h
  split at h
  · obtain ⟨t, ht, h⟩ := Option.map_eq_some'.1 h
    cases h; exact (Frame.setDegraded ht).trans (.spawn _ trivial)
  · split at h <;> cases h
    · exact ensureErrorSent_frame ‹_›
    · exact ensureErrorSent_frame ‹_›
    · exact (ensureErrorSent_frame ‹_›).trans (.spawn _ trivial)
    · exact ensureErrorSent_frame ‹_›
  · obtain ⟨t, ht, h⟩ := Option.map_eq_some'.1 h
    cases h; exact (Frame.setDegraded ht).trans (.spawn _ trivial)

theorem syncWorkerSendEvent_frame {pc : SendEvent} {r : Next SendEvent Unit}
    (h : syncWorkerSendEvent w c e s pc ch = some (s', r)) : s.Frame s' := by
  unfold syncWorkerSendEvent at h
  split at h
  · split at h <;> cases h <;> exact sendWithRetries_frame ‹_›
  · obtain ⟨x, hx, h⟩ := Option.map_eq_some'.1 h
    cases h; exact .setSync hx _ (by simp)
  · split at h <;> cases h <;> exact handleDegradation_frame ‹_›

theorem asyncWorkerSendEvent_frame {pc : SendEvent} {r : Next SendEvent Unit}
    (h : asyncWorkerSendEvent w c e s pc ch = some (s', r)) : s.Frame s' := by
  unfold asyncWorkerSendEvent at h
  split at h
  · split at h <;> cases h <;> exact sendWithRetries_frame ‹_›
  · obtain ⟨x, hx, h⟩ := Option.map_eq_some'.1 h
    cases h; exact .setAsync hx _ (by simp [Worker.Le])
  · split at h
    · cases h; exact handleDegradation_frame ‹_›
    · obtain ⟨x, hx, h⟩ := Option.map_eq_some'.1 h
      cases h; exact (handleDegradation_frame ‹_›).trans (.setAsync hx _ (by simp [Worker.Le]))
    · cases h; exact handleDegradation_frame ‹_›
    · cases h

theorem syncWorkerSend_frame {pc : SyncSend} {r : Next SyncSend Unit}
    (h : syncWorkerSend g w e s pc ch = some (s', r)) : s.Frame s' := by
  unfold syncWorkerSend at h
  split at h
  · split_ifs at h <;> cases h <;> exact .setSync ‹_› _ (by simp)
  · split at h <;> cases h <;> exact syncWorkerSendEvent_frame ‹_›
  · cases h; exact .setSync ‹_› _ (by simp)
  · cases h

theorem asyncWorkerSend_frame {x : AsyncWorker} (hx : s.asyncWorker? w = some x)
    (h : asyncWorkerSend w e s x = some s') : s.Frame s' := by
  unfold asyncWorkerSend at h
  split_ifs at h <;> cases h <;> exact (Frame.setAsync hx _ (by simp [Worker.Le])).trans (.record _ _)

/-! ## Logging calls, termination, and the run loop -/

theorem loggerSend_frame {pc : Dispatch} {r : Next Dispatch Unit}
    (h : loggerSend g s pc ch = some (s', r)) : s.Frame s' := by
  unfold loggerSend at h
  split at h
  · dsimp only [Sys.fresh] at h
    split_ifs at h <;> cases h
    exacts [.refl _, .fresh _]
  · cases h; exact .sending _ _
  · cases h; exact .refl _
  · cases h; exact .sending _ _
  · split at h
    · split at h
      · cases h
      · dsimp only at h
        split_ifs at h
        · split at h
          · split at h <;> cases h
            · exact (Frame.record _ _).trans (asyncWorkerSend_frame (asyncWorker?_of ‹_›) ‹_›)
            · exact (Frame.record _ _).trans ((Frame.sending _ _).trans (.record _ _))
          · cases h; exact .record _ _
          · cases h
        · cases h; exact .refl _
    · cases h
  · split at h <;> cases h
    all_goals first | exact syncWorkerSend_frame ‹_› | exact (syncWorkerSend_frame ‹_›).trans (.sending _ _)

theorem closeCollector_frame {pc : CloseCollector} {r : Next CloseCollector Unit}
    (h : closeCollector g w c s pc ch = some (s', r)) : s.Frame s' := by
  unfold closeCollector at h
  split at h
  · split_ifs at h
    · split at h
      · split at h <;> cases h <;> exact .record _ _
      · cases h
    · cases h; exact .refl _
  · split at h <;> cases h <;> exact loggerSend_frame ‹_›

theorem syncWorkerTerminate_frame {pc : Terminate} {r : Next Terminate Unit}
    (h : syncWorkerTerminate g w s pc ch = some (s', r)) : s.Frame s' := by
  unfold syncWorkerTerminate at h
  split at h
  · split_ifs at h; cases h; exact .setSync ‹_› _ (by simp)
  · split at h
    · cases h; exact closeCollector_frame ‹_›
    · obtain ⟨x, hx, h⟩ := Option.map_eq_some'.1 h
      cases h; exact (closeCollector_frame ‹_›).trans ((Frame.setSync hx _ (by simp)).trans (.record _ _))
    · cases h; exact closeCollector_frame ‹_›
    · cases h
  · cases h

theorem asyncWorkerTerminate_frame {flush : Bool} {pc : Terminate} {r : Next Terminate Unit}
    (h : asyncWorkerTerminate w flush s pc = some (s', r)) : s.Frame s' := by
  unfold asyncWorkerTerminate at h
  split at h
  · split_ifs at h <;> cases h
    exacts [.refl _, .setAsync ‹_› _ (by simp [Worker.Le])]
  · split_ifs at h <;> cases h
    exacts [.refl _, .setAsync ‹_› _ (by simp [Worker.Le])]
  · split_ifs at h <;> cases h
    exacts [.refl _, .setAsync ‹_› _ (by simp [Worker.Le])]
  · split_ifs at h; cases h; exact .record _ _
  · cases h

theorem terminateWorker_frame {flush : Bool} {pc : Terminate} {r : Next Terminate Unit}
    (h : terminateWorker g w flush s pc ch = some (s', r)) : s.Frame s' := by
  unfold terminateWorker at h
  split at h
  · exact syncWorkerTerminate_frame h
  · exact asyncWorkerTerminate_frame h
  · cases h

theorem asyncWorkerRun_frame {pc : Run} {r : Next Run Unit}
    (h : asyncWorkerRun g w s pc ch = some (s', r)) : s.Frame s' := by
  unfold asyncWorkerRun at h
  split at h
  · cases h
  · rename_i x hx
    split at h
    · split at h
      · cases h; exact .setAsync hx _ (by simp [Worker.Le])
      · split_ifs at h; cases h; exact .refl _
      · cases h; exact .setAsync hx _ (by simp [Worker.Le])
      · split_ifs at h; cases h; exact .refl _
      · cases h
    · split_ifs at h <;> cases h <;> exact .refl _
    · split at h
      · cases h; exact handleDegradation_frame ‹_›
      · obtain ⟨y, hy, h⟩ := Option.map_eq_some'.1 h
        cases h; exact (handleDegradation_frame ‹_›).trans (.setAsync hy _ (by simp [Worker.Le]))
      · cases h; exact handleDegradation_frame ‹_›
      · cases h
    · split at h <;> cases h <;> exact asyncWorkerSendEvent_frame ‹_›
    · split at h
      · cases h; exact .setAsync hx _ (by simp [Worker.Le])
      · split_ifs at h; cases h; exact .refl _
    · split at h <;> cases h <;> exact asyncWorkerSendEvent_frame ‹_›
    · split at h
      · cases h; exact closeCollector_frame ‹_›
      · obtain ⟨y, hy, h⟩ := Option.map_eq_some'.1 h
        cases h; exact (closeCollector_frame ‹_›).trans (.setAsync hy _ (by simp [Worker.Le]))
      · cases h; exact closeCollector_frame ‹_›
      · cases h
    · cases h; exact .setAsync hx _ (by simp [Worker.Le])

/-! ## The lock holders -/

theorem Worker.terminateStart_initial (x : Worker) :
    x.terminateStart = .lock ∨ x.terminateStart = .closeQueue := by
  cases x <;> simp [Worker.terminateStart]

theorem spawnTerminators_frame (s : Sys) (reg : List Entry) :
    s.Frame (spawnTerminators s reg).1 := by
  induction reg generalizing s with
  | nil => exact .refl _
  | cons e rest ih =>
      refine ((Frame.record _ _).trans (.spawn _ ?_)).trans (ih _)
      cases hw : s.workers[e.worker]? with
      | none => exact .inl (by simp [hw])
      | some x => simpa [hw] using x.terminateStart_initial

theorem dispose_grows {cause : Nat} {pc : Dispose} {r : Next Dispose Unit}
    (h : dispose g c cause s pc ch = some (s', r)) : s.Grows s' := by
  unfold dispose at h
  split at h
  · split_ifs at h
    split at h
    · cases h; exact .refl _
    · obtain ⟨x, -, h⟩ := Option.map_eq_some'.1 h
      cases h; exact ⟨⟨[_], rfl⟩, ⟨[], by simp [Sys.record], by simp⟩, .refl _, le_rfl⟩
  · split at h <;> cases h <;> exact (terminateWorker_frame ‹_›).toGrows
  · cases h; exact .of_eq rfl rfl rfl rfl
  · split at h <;> cases h <;> exact (loggerSend_frame ‹_›).toGrows

theorem terminateAsync_grows {r : Nat} {pc : TerminateAsync} {n : Next TerminateAsync Unit}
    (h : terminateAsync g r s pc = some (s', n)) : s.Grows s' := by
  unfold terminateAsync at h
  split at h
  · split_ifs at h
    cases h; exact ⟨⟨[_], rfl⟩, ⟨[], by simp [Sys.record], by simp⟩, .refl _, le_rfl⟩
  · split_ifs at h
    cases h; exact (spawnTerminators_frame _ _).toGrows
  · split_ifs at h; cases h; exact .refl _
  · cases h; exact .of_eq rfl rfl rfl rfl
  · cases h; exact .of_eq rfl rfl rfl rfl

/-! ## System steps -/

theorem Next.toG_fst {α : Type} (k : α → G) (p : Sys × Next α Unit) : (Next.toG k p).1 = p.1 := by
  obtain ⟨_, _ | _ | _⟩ := p <;> rfl

/-- A goroutine step through `Next.toG`: the function's step and the new position. -/
theorem Next.toG_inv {α : Type} {k : α → G} {o : Option (Sys × Next α Unit)} {t : Sys} {x' : G}
    (h : o.map (Next.toG k) = some (t, x')) : ∃ r, o = some (t, r) ∧ x' = (Next.toG k (t, r)).2 := by
  obtain ⟨⟨t₀, r⟩, hp, e⟩ := Option.map_eq_some'.1 h
  have ht : t₀ = t := by simpa [Next.toG_fst] using congrArg Prod.fst e
  subst ht
  exact ⟨r, hp, by rw [e]⟩

theorem G.step_grows {x x' : G} {t : Sys} (h : G.step g s x ch = some (t, x')) : s.Grows t := by
  unfold G.step at h
  split at h
  · obtain ⟨_, hp, -⟩ := Next.toG_inv h; exact (loggerSend_frame hp).toGrows
  · obtain ⟨_, hp, -⟩ := Next.toG_inv h; exact (asyncWorkerRun_frame hp).toGrows
  · obtain ⟨_, hp, -⟩ := Next.toG_inv h; exact dispose_grows hp
  · obtain ⟨_, hp, -⟩ := Next.toG_inv h; exact terminateAsync_grows hp
  · obtain ⟨_, hp, -⟩ := Next.toG_inv h; exact (terminateWorker_frame hp).toGrows
  · split at h
    · cases h; exact (Frame.record _ _).toGrows
    · split_ifs at h; cases h; exact (Frame.record _ _).toGrows
  · cases h
  · cases h

/-- After goroutine `g` steps from `x` to `x'`, a goroutine is `g` at `x'`, one
that was there before, or one the step started. -/
theorem mem_setG_of_step {x x' y : G} {t : Sys} (h : G.step g s x ch = some (t, x'))
    (hy : y ∈ (t.setG g x').gs) : y = x' ∨ y ∈ s.gs ∨ y.Initial := by
  obtain ⟨xs, e, hxs⟩ := (G.step_grows h).gs
  rcases List.mem_or_eq_of_mem_set hy with hy | rfl
  · rw [e, List.mem_append] at hy
    exact hy.elim (fun hy => .inr (.inl hy)) fun hy => .inr (.inr (hxs y hy))
  · exact .inl rfl

theorem getElem?_setG_of_step {x x' y : G} {t : Sys} (hx : s.gs[g]? = some x)
    (h : G.step g s x ch = some (t, x')) {i : Nat} (hy : (t.setG g x').gs[i]? = some y) :
    (i = g ∧ y = x') ∨ (i ≠ g ∧ s.gs[i]? = some y) ∨ (s.gs.length ≤ i ∧ y.Initial) := by
  obtain ⟨xs, e, hxs⟩ := (G.step_grows h).gs
  have hg : g < s.gs.length := (List.getElem?_eq_some_iff.1 hx).1
  simp only [Sys.setG, e, List.getElem?_set, List.length_append] at hy
  split_ifs at hy with h₁ h₂
  · subst h₁; cases hy; exact .inl ⟨rfl, rfl⟩
  · rcases Nat.lt_or_ge i s.gs.length with hi | hi
    · rw [List.getElem?_append_left hi] at hy; exact .inr (.inl ⟨Ne.symm h₁, hy⟩)
    · rw [List.getElem?_append_right hi] at hy
      exact .inr (.inr ⟨hi, hxs y (List.getElem?_mem hy)⟩)

theorem sum_map_set {l : List G} {i : Nat} {a : G} (b : G) (f : G → Nat) (h : l[i]? = some a) :
    ((l.set i b).map f).sum + f a = (l.map f).sum + f b := by
  induction l generalizing i with
  | nil => simp at h
  | cons y l ih =>
      cases i with
      | zero =>
          simp only [List.getElem?_cons_zero, Option.some.injEq] at h
          subst h; simp only [List.set_cons_zero, List.map_cons, List.sum_cons]; omega
      | succ i =>
          have := ih (by simpa using h)
          simp only [List.set_cons_succ, List.map_cons, List.sum_cons]; omega

theorem getElem?_setG_self {x x' : G} {t : Sys} (hx : s.gs[g]? = some x)
    (h : G.step g s x ch = some (t, x')) : (t.setG g x').gs[g]? = some x' := by
  obtain ⟨xs, e, -⟩ := (G.step_grows h).gs
  have hg : g < s.gs.length := (List.getElem?_eq_some_iff.1 hx).1
  rw [Sys.setG, e, List.getElem?_set_self (by simp; omega)]

theorem getElem?_setG_other {x x' y : G} {t : Sys} (h : G.step g s x ch = some (t, x')) {i : Nat} (hi : i ≠ g) (hy : s.gs[i]? = some y) :
    (t.setG g x').gs[i]? = some y := by
  obtain ⟨xs, e, -⟩ := (G.step_grows h).gs
  rw [Sys.setG, List.getElem?_set_ne (Ne.symm hi), e,
    List.getElem?_append_left (List.getElem?_eq_some_iff.1 hy).1, hy]

/-- A count over the goroutines after goroutine `g` moved from `x` to `x'` and
the step started `xs`. -/
theorem sum_setG {f : G → Nat} {x : G} (x' : G) {t : Sys} {xs : List G} (hx : s.gs[g]? = some x)
    (e : t.gs = s.gs ++ xs) :
    ((t.setG g x').gs.map f).sum + f x = (s.gs.map f).sum + f x' + (xs.map f).sum := by
  have := sum_map_set x' f (l := s.gs ++ xs)
    (by rw [List.getElem?_append_left (List.getElem?_eq_some_iff.1 hx).1]; exact hx)
  simp only [Sys.setG, e, List.map_append, List.sum_append] at this ⊢
  omega

/-- A count over the goroutines that is zero at every first phase changes, in one
step, only at the goroutine that moves. -/
theorem sum_setG_of_step {f : G → Nat} (hf : ∀ y, y.Initial → f y = 0) {x x' : G} {t : Sys}
    (hx : s.gs[g]? = some x) (h : G.step g s x ch = some (t, x')) :
    ((t.setG g x').gs.map f).sum + f x = (s.gs.map f).sum + f x' := by
  obtain ⟨xs, e, hxs⟩ := (G.step_grows h).gs
  have started : (xs.map f).sum = 0 := List.sum_eq_zero fun n hn => by
    obtain ⟨y, hy, rfl⟩ := List.mem_map.1 hn; exact hf y (hxs y hy)
  rw [sum_setG x' hx e, started, Nat.add_zero]

/-! ## Calls from the application -/

/-- The goroutines a call from the application starts. -/
def G.CallStart : G → Prop
  | .log (.start _ _ _) => True
  | .run _ .select => True
  | .terminateAsync _ .lock => True
  | .close _ => True
  | _ => False

theorem Sys.call_trace {c : Call} (h : s.call c = some s') : s'.trace = s.trace := by
  cases c <;> simp only [Sys.call] at h
  case collect =>
    split_ifs at h
    split at h <;> cases h
    · unfold Sys.addWorker; split_ifs <;> rfl
    · rfl
  case setLevel | setFrames => split_ifs at h; cases h; rfl
  all_goals cases h; rfl

theorem Sys.call_gs {c : Call} (h : s.call c = some s') :
    ∃ xs, s'.gs = s.gs ++ xs ∧ ∀ x ∈ xs, x.CallStart := by
  cases c <;> simp only [Sys.call] at h
  case collect =>
    split_ifs at h
    split at h <;> cases h
    · unfold Sys.addWorker
      split_ifs
      · exact ⟨[], by simp, by simp⟩
      · exact ⟨[_], rfl, by simp [G.CallStart]⟩
    · exact ⟨[], by simp, by simp⟩
  case setLevel | setFrames => split_ifs at h; cases h; exact ⟨[], by simp, by simp⟩
  case close =>
    cases h
    exact ⟨[.terminateAsync s.results.length .lock, .close s.results.length], by simp [Sys.spawn],
      by simp [G.CallStart]⟩
  all_goals cases h; exact ⟨[_], rfl, by simp [G.CallStart]⟩

theorem Sys.call_workers {c : Call} (h : s.call c = some s') :
    ∃ ws, s'.workers = s.workers ++ ws ∧ ∀ x ∈ ws, ∃ c b, x = Worker.new c b := by
  cases c <;> simp only [Sys.call] at h
  case collect =>
    split_ifs at h
    split at h <;> cases h
    · unfold Sys.addWorker; split_ifs <;> exact ⟨[_], rfl, by simp⟩
    · exact ⟨[], by simp, by simp⟩
  case setLevel | setFrames => split_ifs at h; cases h; exact ⟨[], by simp, by simp⟩
  all_goals cases h; exact ⟨[], by simp [Sys.spawn], by simp⟩

/-- Induction over runs: a property of `Sys.init` that every call and every
goroutine step keeps, from a reachable state, holds of every reachable state. -/
theorem Reachable.induction {I : Sys → Prop} (init : I Sys.init)
    (call : ∀ {s s' : Sys} {c : Call}, Reachable s → I s → s.call c = some s' → I s')
    (run : ∀ {s t : Sys} {g : Nat} {x x' : G} {ch : Choice}, Reachable s → I s → s.gs[g]? = some x →
      G.step g s x ch = some (t, x') → I (t.setG g x'))
    {s : Sys} (reach : Reachable s) : I s := by
  induction reach with
  | init => exact init
  | step a reach h ih =>
      cases a with
      | call c => exact call reach ih h
      | run g ch =>
          simp only [Sys.step] at h
          split at h
          · obtain ⟨⟨t, x'⟩, hs, rfl⟩ := Option.map_eq_some'.1 h
            exact run reach ih ‹_› hs
          · cases h

end Cue
