/-
# Cue.Runtime.Retire — what a retired worker is left with

`dispose` and `terminateAsync` take a worker out of the registry under `cfg.mu`
and call its `Terminate` (`Obs.terminate`). Only a `Terminate` closes an
`asyncWorker`'s queue (`TermOk`). `terminateAsync` first waits until no logging
call is between its increment of `sending` and its decrement, so a worker it
terminates is never again the target, or a pending entry, of a logging call
(`RetireOk`); `dispose` does not wait.

A goroutine's logging call moves only by a step of `loggerSend`, or starts
afresh (`G.step_dispatchStep`); `loggerSend` takes its entries from the registry
it loads (`loggerSend_reaches`), and a retired worker is in no registry again
(`HoldOk.holds_eq_zero`).
-/
import Cue.Runtime.Lifecycle
import Cue.Runtime.Lock

namespace Cue

set_option autoImplicit false

/-! ## Where a logging call may still send -/

/-- The entries a logging call has still to visit. -/
def Dispatch.pending : Dispatch → List Entry
  | .range _ p => p
  | .send _ _ _ rest => rest
  | _ => []

/-- A logging call may still call `Send` of worker `w`: it is in it, or an entry
of `w` is pending. -/
def Dispatch.Reaches (d : Dispatch) (w : Nat) : Prop :=
  d.target? = some w ∨ ∃ en ∈ d.pending, en.worker = w

instance Dispatch.decReaches (d : Dispatch) (w : Nat) : Decidable (d.Reaches w) := by
  unfold Dispatch.Reaches; infer_instance

/-- The first position of a logging call. -/
def Dispatch.Begins (d : Dispatch) : Prop := ∃ level error body, d = .start level error body

theorem Dispatch.Begins.not_reaches {d : Dispatch} (hd : d.Begins) (w : Nat) : ¬d.Reaches w := by
  obtain ⟨_, _, _, rfl⟩ := hd
  simp [Dispatch.Reaches, Dispatch.target?, Dispatch.pending]

/-- A logging call that `sending` does not count reaches no worker. -/
theorem Dispatch.not_reaches_of_counted {d : Dispatch} (hd : d.counted = 0) (w : Nat) :
    ¬d.Reaches w := by
  cases d <;> simp_all [Dispatch.counted, Dispatch.Reaches, Dispatch.target?, Dispatch.pending]

/-- One step from logging call `d` to `d'`: a step of `loggerSend` (whose state
the step keeps, unless the call is over), or a new call at its first
position. -/
def DispatchStep (g : Nat) (s t : Sys) (ch : Choice) (d d' : Option Dispatch) : Prop :=
  (∀ e, d' = some e → e.Begins) ∨
    ∃ e r s₁, d = some e ∧ loggerSend g s e ch = some (s₁, r) ∧ d' = r.cont? ∧ (t = s₁ ∨ r.cont? = none)

section Dispatch

variable {s s' t : Sys} {g w : Nat} {ch : Choice} {c : Collector}

theorem DispatchStep.none_ {d : Option Dispatch} : DispatchStep g s t ch d none := .inl fun _ h => by cases h

theorem DispatchStep.begins {d : Option Dispatch} {level : Nat} {error : Option Err} {body : Body} :
    DispatchStep g s t ch d (some (.start level error body)) :=
  .inl fun _ h => by cases h; exact ⟨_, _, _, rfl⟩

/-- A call that is over, whatever its caller does next. -/
theorem DispatchStep.retarget {d : Option Dispatch} {t₁ : Sys} (h : DispatchStep g s t₁ ch d none) :
    DispatchStep g s t ch d none := by
  rcases h with h | ⟨e, r, s₁, hd, hs, hr, -⟩
  exacts [.inl h, .inr ⟨e, r, s₁, hd, hs, hr, .inr hr.symm⟩]

theorem loggerSend_dispatchStep {pc : Dispatch} {r : Next Dispatch Unit}
    (h : loggerSend g s pc ch = some (s', r)) : DispatchStep g s s' ch (some pc) r.cont? :=
  .inr ⟨pc, r, s', rfl, h, rfl, .inl rfl⟩

theorem closeCollector_dispatchStep {pc : CloseCollector} {r : Next CloseCollector Unit}
    (h : closeCollector g w c s pc ch = some (s', r)) :
    DispatchStep g s s' ch pc.dispatch? (r.cont?.bind CloseCollector.dispatch?) := by
  unfold closeCollector at h
  split at h
  · split_ifs at h
    · split at h
      · split at h <;> cases h
        exacts [.none_, .begins, .none_]
      · cases h
    · cases h; exact .none_
  · split at h <;> cases h
    all_goals exact loggerSend_dispatchStep ‹_›

theorem syncWorkerTerminate_dispatchStep {pc : Terminate} {r : Next Terminate Unit}
    (h : syncWorkerTerminate g w s pc ch = some (s', r)) :
    DispatchStep g s s' ch pc.dispatch? (r.cont?.bind Terminate.dispatch?) := by
  unfold syncWorkerTerminate at h
  split at h
  · split_ifs at h; cases h; exact .none_
  · split at h
    · cases h; exact closeCollector_dispatchStep ‹_›
    · obtain ⟨x, -, h⟩ := Option.map_eq_some'.1 h
      cases h; exact (closeCollector_dispatchStep ‹_› :).retarget
    · cases h; exact closeCollector_dispatchStep ‹_›
    · cases h
  · cases h

theorem terminateWorker_dispatchStep {flush : Bool} {pc : Terminate} {r : Next Terminate Unit}
    (h : terminateWorker g w flush s pc ch = some (s', r)) :
    DispatchStep g s s' ch pc.dispatch? (r.cont?.bind Terminate.dispatch?) := by
  unfold terminateWorker at h
  split at h
  · exact syncWorkerTerminate_dispatchStep h
  · unfold asyncWorkerTerminate at h
    split at h <;> (try split_ifs at h) <;> cases h <;> exact .none_
  · cases h

theorem asyncWorkerRun_dispatchStep {pc : Run} {r : Next Run Unit}
    (h : asyncWorkerRun g w s pc ch = some (s', r)) :
    DispatchStep g s s' ch pc.dispatch? (r.cont?.bind Run.dispatch?) := by
  unfold asyncWorkerRun at h
  split at h
  · cases h
  · split at h
    · split at h <;> (try split_ifs at h) <;> cases h <;> exact .none_
    · split_ifs at h <;> cases h
      · exact .none_
      · simp only [Next.cont?, Option.some_bind, Run.afterDrops_dispatch?]; exact .none_
    · split at h
      · cases h; exact .none_
      · obtain ⟨x, -, h⟩ := Option.map_eq_some'.1 h
        cases h; simp only [Next.cont?, Option.some_bind, Run.afterDrops_dispatch?]; exact .none_
      · cases h; exact .none_
      · cases h
    · split at h <;> cases h <;> exact .none_
    · split at h
      · cases h; exact .none_
      · split_ifs at h; cases h; exact .none_
    · split at h <;> cases h <;> exact .none_
    · split at h
      · cases h; exact closeCollector_dispatchStep ‹_›
      · obtain ⟨y, -, h⟩ := Option.map_eq_some'.1 h
        cases h; exact (closeCollector_dispatchStep ‹_› :).retarget
      · cases h; exact closeCollector_dispatchStep ‹_›
      · cases h
    · cases h; exact .none_

theorem dispose_dispatchStep {cause : Nat} {pc : Dispose} {r : Next Dispose Unit}
    (h : dispose g c cause s pc ch = some (s', r)) :
    DispatchStep g s s' ch pc.dispatch? (r.cont?.bind Dispose.dispatch?) := by
  unfold dispose at h
  split at h
  · split_ifs at h
    split at h
    · cases h; exact .begins
    · obtain ⟨x, -, h⟩ := Option.map_eq_some'.1 h
      cases h; cases x <;> exact .none_
  · split at h <;> cases h
    · exact terminateWorker_dispatchStep ‹_›
    · exact (terminateWorker_dispatchStep ‹_› :).retarget
    · exact terminateWorker_dispatchStep ‹_›
  · cases h; exact .begins
  · split at h <;> cases h
    all_goals exact loggerSend_dispatchStep ‹_›

/-- A goroutine's logging call moves only by a step of `loggerSend`. -/
theorem G.step_dispatchStep {x x' : G} (h : G.step g s x ch = some (t, x')) :
    DispatchStep g s t ch x.dispatch? x'.dispatch? := by
  unfold G.step at h
  split at h
  · obtain ⟨r, hp, rfl⟩ := Next.toG_inv h
    rw [Next.toG_dispatch?]; simpa [G.dispatch?] using loggerSend_dispatchStep hp
  · obtain ⟨r, hp, rfl⟩ := Next.toG_inv h
    rw [Next.toG_dispatch?]; simpa [G.dispatch?] using asyncWorkerRun_dispatchStep hp
  · obtain ⟨r, hp, rfl⟩ := Next.toG_inv h
    rw [Next.toG_dispatch?]; simpa [G.dispatch?] using dispose_dispatchStep hp
  · obtain ⟨r, -, rfl⟩ := Next.toG_inv h
    rw [Next.toG_dispatch?]; simpa [G.dispatch?] using (DispatchStep.none_ : DispatchStep g s t ch _ none)
  · obtain ⟨r, hp, rfl⟩ := Next.toG_inv h
    rw [Next.toG_dispatch?]; simpa [G.dispatch?] using terminateWorker_dispatchStep hp
  · split at h
    · cases h; exact .none_
    · split_ifs at h; cases h; exact .none_
  · cases h
  · cases h

/-- A logging call reaches a worker it reached before, or one of the registry
it loads. -/
theorem loggerSend_reaches {pc d : Dispatch} {r : Next Dispatch Unit}
    (h : loggerSend g s pc ch = some (s', r)) (hd : r.cont? = some d) (hr : d.Reaches w) :
    pc.Reaches w ∨ 0 < s.cfg.holds w := by
  have sub {l l' : List Entry} (hl : ∀ en ∈ l', en ∈ l) (h' : ∃ en ∈ l', en.worker = w) :
      ∃ en ∈ l, en.worker = w := by
    obtain ⟨en, hen, rfl⟩ := h'; exact ⟨en, hl en hen, rfl⟩
  unfold loggerSend at h
  split at h
  · dsimp only [Sys.fresh] at h
    split_ifs at h <;> cases h <;> cases hd
    simp [Dispatch.Reaches, Dispatch.target?, Dispatch.pending] at hr
  · cases h; cases hd; simp [Dispatch.Reaches, Dispatch.target?, Dispatch.pending] at hr
  · cases h; cases hd
    right
    obtain ⟨en, hen, rfl⟩ := hr.resolve_left (by simp [Dispatch.target?])
    obtain ⟨⟨k, en'⟩, hk, rfl⟩ := List.mem_map.1 hen
    exact List.countP_pos_iff.2 ⟨⟨k, en'⟩, hk, by simp⟩
  · cases h; cases hd
  · rename_i e pending hne
    split at h
    · split at h
      · cases h
      · rename_i i _ en hi
        have mem : en ∈ pending := List.getElem?_mem hi
        have rest : ∀ x ∈ pending.eraseIdx i, x ∈ pending := fun _ hx => List.mem_of_mem_eraseIdx hx
        dsimp only at h
        split_ifs at h
        · split at h
          · split at h <;> cases h <;> cases hd
            exact .inl (.inr (sub rest (hr.resolve_left (by simp [Dispatch.target?]))))
          · cases h; cases hd
            rcases hr with ht | hp
            · cases ht; exact .inl (.inr ⟨en, mem, rfl⟩)
            · exact .inl (.inr (sub rest hp))
          · cases h
        · cases h; cases hd
          exact .inl (.inr (sub rest (hr.resolve_left (by simp [Dispatch.target?]))))
    · cases h
  · split at h <;> cases h <;> cases hd
    · exact .inl hr
    · exact .inl (.inr (hr.resolve_left (by simp [Dispatch.target?])))

end Dispatch

/-! ## Who closes a queue -/

/-- The worker a goroutine's `Terminate` is for. -/
def G.terminating? : G → Option Nat
  | .terminator w _ => some w
  | .dispose _ _ (.terminate w _) => some w
  | _ => none

/-- Every `asyncWorker` of `s` is still one in `t`, related to its old self by `P`. -/
def Sys.KeepsAsync (P : AsyncWorker → AsyncWorker → Prop) (s t : Sys) : Prop :=
  ∀ v a, s.asyncWorker? v = some a → ∃ b, t.asyncWorker? v = some b ∧ P a b

/-- What a step of the `run` goroutine may do to an `asyncWorker`, before
`close(w.finished)`: receive from the `terminate` channel, and no more. -/
def AsyncWorker.RunKeeps (a b : AsyncWorker) : Prop :=
  b.queueClosed = a.queueClosed ∧ b.terminateClosed = a.terminateClosed ∧
    (b.terminate = a.terminate ∨ b.terminate = none) ∧ b.finished = a.finished

theorem AsyncWorker.RunKeeps.refl (a : AsyncWorker) : a.RunKeeps a := ⟨rfl, rfl, .inl rfl, rfl⟩

theorem AsyncWorker.RunKeeps.trans {a b c : AsyncWorker} (h : a.RunKeeps b) (h' : b.RunKeeps c) :
    a.RunKeeps c := by
  obtain ⟨q, tc, t, f⟩ := h
  obtain ⟨q', tc', t', f'⟩ := h'
  refine ⟨q'.trans q, tc'.trans tc, ?_, f'.trans f⟩
  rcases t' with t' | t'
  · rw [t']; exact t
  · exact .inr t'

theorem AsyncWorker.RunKeeps.of_quiet {a b : AsyncWorker} (h : (Worker.async a).Quiet (.async b)) :
    a.RunKeeps b :=
  ⟨h.2.2.1, h.2.1, .inl h.1, h.2.2.2⟩

namespace Sys.KeepsAsync

variable {P : AsyncWorker → AsyncWorker → Prop} {s t u : Sys}

theorem refl (hP : ∀ a, P a a) : s.KeepsAsync P s := fun _ a ha => ⟨a, ha, hP a⟩

theorem trans (hP : ∀ a b c, P a b → P b c → P a c) (h : s.KeepsAsync P t) (h' : t.KeepsAsync P u) :
    s.KeepsAsync P u := fun v a ha => by
  obtain ⟨b, hb, e⟩ := h v a ha
  obtain ⟨c, hc, e'⟩ := h' v b hb
  exact ⟨c, hc, hP a b c e e'⟩

theorem mono {Q : AsyncWorker → AsyncWorker → Prop} (hPQ : ∀ a b, P a b → Q a b) (h : s.KeepsAsync P t) :
    s.KeepsAsync Q t := fun v a ha => let ⟨b, hb, e⟩ := h v a ha; ⟨b, hb, hPQ a b e⟩

theorem of_workers (hP : ∀ a, P a a) (h : t.workers = s.workers) : s.KeepsAsync P t := fun v a ha =>
  ⟨a, by simpa [Sys.asyncWorker?, h] using ha, hP a⟩

theorem of_delivers (hP : ∀ a b, (Worker.async a).Quiet (.async b) → P a b) (h : s.Delivers t) :
    s.KeepsAsync P t := fun v a ha => by
  have hs := workers_of_asyncWorker? ha
  obtain ⟨y, hy⟩ : ∃ y, t.workers[v]? = some y :=
    ⟨_, List.getElem?_eq_getElem (h.quiet.length ▸ (List.getElem?_eq_some_iff.1 hs).1)⟩
  have hq := h.quiet.quiet v _ y hs hy
  cases y with
  | sync => exact hq.elim
  | async b => exact ⟨b, asyncWorker?_of hy, hP a b hq⟩

theorem setAsync (hP : ∀ a, P a a) {w : Nat} {y : AsyncWorker} (hw : s.asyncWorker? w = some y)
    (x : AsyncWorker) (hx : P y x) : s.KeepsAsync P (s.setAsync w x) := fun v a ha => by
  have hlt : w < s.workers.length := (List.getElem?_eq_some_iff.1 (workers_of_asyncWorker? hw)).1
  by_cases hv : w = v
  · subst hv; rw [hw] at ha; cases ha
    exact ⟨x, by simp [Sys.asyncWorker?, Sys.setAsync, List.getElem?_set_self hlt], hx⟩
  · exact ⟨a, by simpa [Sys.asyncWorker?, Sys.setAsync, List.getElem?_set_ne hv] using ha, hP a⟩

theorem setSync (hP : ∀ a, P a a) {w : Nat} {y : SyncWorker} (hw : s.syncWorker? w = some y)
    (x : SyncWorker) : s.KeepsAsync P (s.setSync w x) := fun v a ha => by
  refine ⟨a, ?_, hP a⟩
  have hv : w ≠ v := by
    rintro rfl
    rw [Sys.asyncWorker?, workers_of_syncWorker? hw] at ha; cases ha
  simpa [Sys.asyncWorker?, Sys.setSync, List.getElem?_set_ne hv] using ha

end Sys.KeepsAsync

section Queue

variable {s t : Sys} {g w : Nat} {ch : Choice} {c : Collector}

open AsyncWorker in
theorem closeCollector_keeps {pc : CloseCollector} {r : Next CloseCollector Unit}
    (h : closeCollector g w c s pc ch = some (t, r)) : s.KeepsAsync RunKeeps t := by
  rcases (closeCollector_footprint h).1 with hd | ⟨-, o, rfl⟩
  exacts [.of_delivers (fun _ _ => .of_quiet) hd, .of_workers RunKeeps.refl rfl]

open AsyncWorker in
/-- The `run` goroutine, until its last step, only receives from its `terminate`
channel: it closes no channel and leaves `finished` alone. -/
theorem asyncWorkerRun_keeps {pc : Run} {r : Next Run Unit} (hpc : pc ≠ .finish)
    (h : asyncWorkerRun g w s pc ch = some (t, r)) : s.KeepsAsync RunKeeps t := by
  have delivers {u : Sys} (hd : s.Delivers u) : s.KeepsAsync RunKeeps u := .of_delivers (fun _ _ => .of_quiet) hd
  have set {u : Sys} {y : AsyncWorker} (hy : u.asyncWorker? w = some y) (x : AsyncWorker)
      (hx : y.RunKeeps x) : u.KeepsAsync RunKeeps (u.setAsync w x) := .setAsync RunKeeps.refl hy x hx
  have trans {u u' : Sys} (h₁ : s.KeepsAsync RunKeeps u) (h₂ : u.KeepsAsync RunKeeps u') :
      s.KeepsAsync RunKeeps u' := .trans (fun _ _ _ => RunKeeps.trans) h₁ h₂
  unfold asyncWorkerRun at h
  split at h
  · cases h
  · rename_i x hx
    split at h
    · split at h
      · cases h; exact set hx _ (.refl _)
      · split_ifs at h; cases h; exact .refl RunKeeps.refl
      · cases h; exact set hx _ ⟨rfl, rfl, .inr rfl, rfl⟩
      · split_ifs at h; cases h; exact .refl RunKeeps.refl
      · cases h
    · split_ifs at h <;> cases h <;> exact .refl RunKeeps.refl
    · split at h
      · cases h; exact delivers (handleDegradation_delivers ‹_›)
      · obtain ⟨y, hy, h⟩ := Option.map_eq_some'.1 h
        cases h; exact trans (delivers (handleDegradation_delivers ‹_›)) (set hy _ (.refl _))
      · cases h; exact delivers (handleDegradation_delivers ‹_›)
      · cases h
    · split at h <;> cases h <;> exact delivers (asyncWorkerSendEvent_delivers ‹_›)
    · split at h
      · cases h; exact set hx _ (.refl _)
      · split_ifs at h; cases h; exact .refl RunKeeps.refl
    · split at h <;> cases h <;> exact delivers (asyncWorkerSendEvent_delivers ‹_›)
    · split at h
      · cases h; exact closeCollector_keeps ‹_›
      · obtain ⟨y, hy, h⟩ := Option.map_eq_some'.1 h
        cases h; exact trans (closeCollector_keeps ‹_›) (set hy _ (.refl _))
      · cases h; exact closeCollector_keeps ‹_›
      · cases h
    · exact absurd rfl hpc

/-- `run`'s last step closes `finished`, and the goroutine ends. -/
theorem asyncWorkerRun_finish {r : Next Run Unit} (h : asyncWorkerRun g w s .finish ch = some (t, r)) :
    ∃ x, s.asyncWorker? w = some x ∧ t = s.setAsync w { x with finished := true } ∧ r = .ret () := by
  unfold asyncWorkerRun at h
  split at h
  · cases h
  · rename_i x hx
    cases h; exact ⟨x, hx, rfl, rfl⟩

/-- The `run` goroutine never closes its queue. -/
theorem asyncWorkerRun_keepsQueue {pc : Run} {r : Next Run Unit}
    (h : asyncWorkerRun g w s pc ch = some (t, r)) :
    s.KeepsAsync (fun a b => b.queueClosed = a.queueClosed) t := by
  by_cases hpc : pc = .finish
  · subst hpc
    obtain ⟨x, hx, rfl, -⟩ := asyncWorkerRun_finish h
    exact Sys.KeepsAsync.setAsync (P := fun a b => b.queueClosed = a.queueClosed) (fun _ => rfl) hx _ rfl
  · exact (asyncWorkerRun_keeps hpc h).mono fun _ _ e => e.1

/-- A `Terminate` leaves `finished` alone. -/
theorem terminateWorker_keepsFinished {flush : Bool} {pc : Terminate} {r : Next Terminate Unit}
    (h : terminateWorker g w flush s pc ch = some (t, r)) :
    s.KeepsAsync (fun a b => b.finished = a.finished) t := by
  have refl : ∀ a : AsyncWorker, a.finished = a.finished := fun _ => rfl
  have trans : ∀ a b c : AsyncWorker, b.finished = a.finished → c.finished = b.finished →
      c.finished = a.finished := fun _ _ _ e e' => e'.trans e
  have close {u u' : Sys} {c : Collector} {pc : CloseCollector} {r : Next CloseCollector Unit}
      (hc : closeCollector g w c u pc ch = some (u', r)) :
      u.KeepsAsync (fun a b => b.finished = a.finished) u' :=
    (closeCollector_keeps hc).mono fun _ _ e => e.2.2.2
  unfold terminateWorker at h
  split at h
  · unfold syncWorkerTerminate at h
    split at h
    · split_ifs at h; cases h; exact .setSync refl ‹_› _
    · split at h
      · cases h; exact close ‹_›
      · obtain ⟨y, hy, h⟩ := Option.map_eq_some'.1 h
        cases h; exact .trans trans (close ‹_›) (.trans trans (.setSync refl hy _) (.of_workers refl rfl))
      · cases h; exact close ‹_›
      · cases h
    · cases h
  · unfold asyncWorkerTerminate at h
    split at h <;> (try split_ifs at h) <;> cases h
    all_goals first
      | exact .refl refl
      | exact .setAsync refl (by assumption) _ (by rfl)
  · cases h

end Queue

/-! ## Retired workers -/

/-- A worker `Terminate` was called on is held by no registry entry again. -/
theorem HoldOk.holds_eq_zero {s : Sys} (inv : HoldOk s) {w : Nat} {b : Bool}
    (h : Obs.terminate w b ∈ s.trace) : s.cfg.holds w = 0 := by
  have := inv.once w
  have : 0 < s.trace.countP (Obs.isTerminate w) := List.countP_pos_iff.2 ⟨_, h, by simp⟩
  unfold Sys.claims at *
  omega

section Retire

variable {s t : Sys} {g : Nat} {ch : Choice}

/-- A worker keeps its kind. -/
theorem Sys.Grows.asyncWorker? (hg : s.Grows t) {w : Nat} {b : AsyncWorker}
    (hb : t.asyncWorker? w = some b) : ∃ a, s.asyncWorker? w = some a := by
  have hk := hg.kinds w
  simp only [Sys.kindOf, Sys.workers_of_asyncWorker? hb, Option.map_some'] at hk
  cases e : s.workers[w]? with
  | none => rw [e] at hk; cases hk
  | some z =>
      rw [e] at hk
      cases z with
      | sync => cases hk
      | async a => exact ⟨a, Sys.asyncWorker?_of e⟩

/-- The steps that retire workers under `cfg.mu`, and the caller of `Close`,
change no worker, and start only the goroutines of `terminateWorkers`, each
with its `Terminate(true)` recorded. -/
theorem G.step_retires {x x' : G} (h : G.step g s x ch = some (t, x')) (hs : ¬x.Settling) :
    t.workers = s.workers ∧ ∀ y ∈ t.gs, y ∈ s.gs ∨ ∃ w pc, y = .terminator w pc ∧ Obs.terminate w true ∈ t.trace := by
  have same (hw : t.workers = s.workers) (hg : t.gs = s.gs) :
      t.workers = s.workers ∧ ∀ y ∈ t.gs, y ∈ s.gs ∨ ∃ w pc, y = .terminator w pc ∧ Obs.terminate w true ∈ t.trace :=
    ⟨hw, fun y hy => .inl (hg ▸ hy)⟩
  cases x with
  | dispose c cause pc =>
      cases pc with
      | lock =>
          obtain ⟨r, hp, -⟩ := Next.toG_inv h
          simp only [Cue.dispose] at hp
          split_ifs at hp
          split at hp
          · cases hp; exact same rfl rfl
          · obtain ⟨_, -, hp⟩ := Option.map_eq_some'.1 hp
            cases hp; exact same rfl rfl
      | _ => exact absurd trivial hs
  | terminateAsync r pc =>
      obtain ⟨n, hp, -⟩ := Next.toG_inv h
      unfold Cue.terminateAsync at hp
      split at hp
      · split_ifs at hp; cases hp; exact same rfl rfl
      · rename_i reg
        split_ifs at hp
        cases hp
        obtain ⟨et, eg⟩ := spawnTerminators_eq s reg
        refine ⟨spawnTerminators_workers s reg, fun y hy => ?_⟩
        rw [eg, List.mem_append] at hy
        rcases hy with hy | hy
        · exact .inl hy
        · obtain ⟨e, he, rfl⟩ := List.mem_map.1 hy
          exact .inr ⟨_, _, rfl, by rw [et]; exact List.mem_append_right _ (List.mem_map_of_mem _ he)⟩
      · split_ifs at hp; cases hp; exact same rfl rfl
      · cases hp; exact same rfl rfl
      · cases hp; exact same rfl rfl
  | close r =>
      simp only [G.step] at h
      split at h
      · cases h; exact same rfl rfl
      · split_ifs at h; cases h; exact same rfl rfl
  | _ => exact absurd trivial hs

/-- A goroutine running a `Terminate` got there from a `Terminate` of the same
worker, or from the step of `dispose` that recorded it. -/
theorem G.step_terminating {x x' : G} (h : G.step g s x ch = some (t, x')) {w : Nat}
    (hx' : x'.terminating? = some w) : x.terminating? = some w ∨ Obs.terminate w false ∈ t.trace := by
  unfold G.step at h
  split at h
  case h_3 _ c cause pc =>
    obtain ⟨r, hp, rfl⟩ := Next.toG_inv h
    unfold Cue.dispose at hp
    split at hp
    · split_ifs at hp
      split at hp
      · cases hp; cases hx'
      · obtain ⟨_, -, hp⟩ := Option.map_eq_some'.1 hp
        cases hp; cases hx'
        exact .inr (List.mem_append_right _ (List.mem_singleton_self _))
    · split at hp <;> cases hp <;> cases hx'
      exact .inl rfl
    · cases hp; cases hx'
    · split at hp <;> cases hp <;> cases hx'
  case h_5 =>
    obtain ⟨r, -, rfl⟩ := Next.toG_inv h
    obtain _ | _ | _ := r <;> cases hx'
    exact .inl rfl
  case h_6 =>
    split at h
    · cases h; cases hx'
    · split_ifs at h; cases h; cases hx'
  case h_7 | h_8 => cases h
  all_goals
    obtain ⟨r, -, rfl⟩ := Next.toG_inv h
    obtain _ | _ | _ := r <;> cases hx'

/-- Only a `Terminate` of `v` closes `v`'s queue. -/
theorem G.step_keepsQueue {x x' : G} (h : G.step g s x ch = some (t, x')) {v : Nat}
    (hx : x.terminating? ≠ some v) {a : AsyncWorker} (ha : s.asyncWorker? v = some a) :
    ∃ b, t.asyncWorker? v = some b ∧ b.queueClosed = a.queueClosed := by
  by_cases hs : x.Settling
  · have S := G.step_settles h hs
    by_cases own : x.owns v
    · cases x with
      | run w pc =>
          obtain ⟨r, hp, -⟩ := Next.toG_inv h
          exact asyncWorkerRun_keepsQueue hp v a ha
      | terminator w pc => exact absurd (by cases own; rfl) hx
      | dispose c cause pc =>
          cases pc with
          | terminate w pc => exact absurd (by cases own; rfl) hx
          | _ => exact own.elim
      | _ => exact own.elim
    · have hs' := Sys.workers_of_asyncWorker? ha
      obtain ⟨y, hy⟩ : ∃ y, t.workers[v]? = some y :=
        ⟨_, List.getElem?_eq_getElem (S.length ▸ (List.getElem?_eq_some_iff.1 hs').1)⟩
      have hq := S.quiet v own _ y hs' hy
      cases y with
      | sync => exact hq.elim
      | async b => exact ⟨b, Sys.asyncWorker?_of hy, hq.2.2.1⟩
  · exact ⟨a, by simpa [Sys.asyncWorker?, (G.step_retires h hs).1] using ha, rfl⟩

/-- Every goroutine running a `Terminate`, and every closed queue, comes after
a call of that worker's `Terminate`. -/
structure TermOk (s : Sys) : Prop where
  frames : ∀ y ∈ s.gs, ∀ w, y.terminating? = some w → ∃ b, Obs.terminate w b ∈ s.trace
  closed : ∀ w a, s.asyncWorker? w = some a → a.queueClosed → ∃ b, Obs.terminate w b ∈ s.trace

theorem termOk_init : TermOk Sys.init := ⟨by simp [Sys.init], by simp [Sys.init, Sys.asyncWorker?]⟩

theorem termOk_run {x x' : G} (inv : TermOk s) (hx : s.gs[g]? = some x)
    (h : G.step g s x ch = some (t, x')) : TermOk (t.setG g x') := by
  obtain ⟨os, et⟩ := (G.step_grows h).trace
  have later {w : Nat} {b : Bool} (hb : Obs.terminate w b ∈ s.trace) : Obs.terminate w b ∈ t.trace := by
    rw [et]; exact List.mem_append_left _ hb
  have fromX {w : Nat} (hw : x.terminating? = some w) : ∃ b, Obs.terminate w b ∈ t.trace :=
    let ⟨b, hb⟩ := inv.frames x (List.getElem?_mem hx) w hw; ⟨b, later hb⟩
  refine ⟨fun y hy w hw => ?_, fun w b' hb' hc => ?_⟩
  · rcases List.mem_or_eq_of_mem_set hy with hy | rfl
    · by_cases hs : x.Settling
      · obtain ⟨xs, eg, hxs⟩ := (G.step_settles h hs).spawned
        rw [eg, List.mem_append] at hy
        rcases hy with hy | hy
        · obtain ⟨b, hb⟩ := inv.frames y hy w hw; exact ⟨b, later hb⟩
        · have := hxs y hy
          unfold G.Notice at this
          split at this <;> first | exact this.elim | cases hw
      · rcases (G.step_retires h hs).2 y hy with hy | ⟨v, pc, rfl, hv⟩
        · obtain ⟨b, hb⟩ := inv.frames y hy w hw; exact ⟨b, later hb⟩
        · cases hw; exact ⟨true, hv⟩
    · rcases G.step_terminating h hw with hw | hw
      exacts [fromX hw, ⟨false, hw⟩]
  · change t.asyncWorker? w = some b' at hb'
    obtain ⟨a, ha⟩ := (G.step_grows h).asyncWorker? hb'
    by_cases hxw : x.terminating? = some w
    · exact fromX hxw
    · obtain ⟨b, hb, e⟩ := G.step_keepsQueue h hxw ha
      rw [hb] at hb'; cases hb'
      obtain ⟨c, hc'⟩ := inv.closed w a ha (e ▸ hc)
      exact ⟨c, later hc'⟩

theorem termOk_call {s' : Sys} {c : Call} (inv : TermOk s) (h : s.call c = some s') : TermOk s' := by
  obtain ⟨xs, eg, hxs⟩ := Sys.call_gs h
  obtain ⟨ws, ew, hws⟩ := Sys.call_workers h
  have ht := Sys.call_trace h
  refine ⟨fun y hy w hw => ?_, fun w a ha hc => ?_⟩ <;> rw [ht]
  · rw [eg, List.mem_append] at hy
    rcases hy with hy | hy
    · exact inv.frames y hy w hw
    · have := hxs y hy
      unfold G.CallStart at this
      split at this <;> first | exact this.elim | cases hw
  · have ha' := Sys.workers_of_asyncWorker? ha
    rw [ew] at ha'
    rcases Nat.lt_or_ge w s.workers.length with hl | hl
    · rw [List.getElem?_append_left hl] at ha'
      exact inv.closed w a (Sys.asyncWorker?_of ha') hc
    · rw [List.getElem?_append_right hl] at ha'
      obtain ⟨c, b, e⟩ := hws _ (List.getElem?_mem ha')
      unfold Worker.new at e
      split_ifs at e
      cases e
      simp at hc

theorem reachable_termOk (reach : Reachable s) : TermOk s :=
  reach.induction termOk_init (fun _ inv h => termOk_call inv h) fun _ inv hx h => termOk_run inv hx h

/-! ## Workers `terminateAsync` retired -/

/-- A `Terminate(true)` is recorded only by `terminateWorkers`, once `sending`
is zero. -/
theorem G.step_terminate_true {x x' : G} (h : G.step g s x ch = some (t, x')) {w : Nat}
    (ht : Obs.terminate w true ∈ t.trace) :
    Obs.terminate w true ∈ s.trace ∨ (∃ r reg, x = .terminateAsync r (.wait reg)) ∧ s.sending = 0 := by
  by_cases hs : x.Settling
  · obtain ⟨⟨os, et, hos, -⟩, -⟩ := G.step_settles h hs
    rw [et, List.mem_append] at ht
    refine ht.imp_right fun ho => ?_
    have pos : 0 < os.countP (Obs.isTerminate w) := List.countP_pos_iff.2 ⟨_, ho, by simp⟩
    rw [countP_isTerminate_of_settles hos w] at pos
    cases pos
  · cases x with
    | dispose c cause pc =>
        cases pc with
        | lock =>
            obtain ⟨r, hp, -⟩ := Next.toG_inv h
            simp only [Cue.dispose] at hp
            split_ifs at hp
            split at hp
            · cases hp; exact .inl ht
            · obtain ⟨_, -, hp⟩ := Option.map_eq_some'.1 hp
              cases hp
              simpa [Sys.record] using ht
        | _ => exact absurd trivial hs
    | terminateAsync r pc =>
        obtain ⟨n, hp, -⟩ := Next.toG_inv h
        unfold Cue.terminateAsync at hp
        split at hp
        · split_ifs at hp; cases hp; simpa [Sys.record] using ht
        · split_ifs at hp with h0; cases hp; exact .inr ⟨⟨r, _, rfl⟩, h0⟩
        · split_ifs at hp; cases hp; exact .inl ht
        · cases hp; exact .inl ht
        · cases hp; exact .inl ht
    | close r =>
        simp only [G.step] at h
        split at h
        · cases h; simpa [Sys.record] using ht
        · split_ifs at h; cases h; simpa [Sys.record] using ht
    | _ => exact absurd trivial hs

theorem G.Initial.begins {x : G} (hx : x.Initial) {d : Dispatch} (hd : x.dispatch? = some d) : d.Begins := by
  unfold G.Initial at hx
  split at hx
  · cases hd; exact ⟨_, _, _, rfl⟩
  · cases hd
  · rcases hx with rfl | rfl <;> cases hd
  · exact hx.elim

/-- No logging call reaches a worker that `terminateAsync` terminated. -/
def RetireOk (s : Sys) : Prop :=
  ∀ w, Obs.terminate w true ∈ s.trace → ∀ y ∈ s.gs, ∀ d, y.dispatch? = some d → ¬d.Reaches w

theorem retireOk_run {x x' : G} (inv : RetireOk s) (hold : HoldOk s) (sending : SendingOk s)
    (hx : s.gs[g]? = some x) (h : G.step g s x ch = some (t, x')) : RetireOk (t.setG g x') := by
  obtain ⟨xs, eg, hxs⟩ := (G.step_grows h).gs
  intro w hw y hy d hd hr
  change Obs.terminate w true ∈ t.trace at hw
  rcases G.step_terminate_true h hw with hw | ⟨⟨r, reg, rfl⟩, zero⟩
  · rcases List.mem_or_eq_of_mem_set hy with hy | rfl
    · rw [eg, List.mem_append] at hy
      rcases hy with hy | hy
      · exact inv w hw y hy d hd hr
      · exact (hxs y hy).begins hd |>.not_reaches w hr
    · rcases G.step_dispatchStep h with hb | ⟨e, r, s₁, hxd, hs, hd', -⟩
      · exact (hb d hd).not_reaches w hr
      · rcases loggerSend_reaches hs (hd'.symm.trans hd) hr with he | hpos
        · exact inv w hw x (List.getElem?_mem hx) e hxd he
        · rw [hold.holds_eq_zero hw] at hpos; cases hpos
  · rcases List.mem_or_eq_of_mem_set hy with hy | rfl
    · rw [eg, List.mem_append] at hy
      rcases hy with hy | hy
      · obtain ⟨i, hi⟩ := List.getElem?_of_mem hy
        have := sending.counted_le hi
        simp only [G.counted, hd, Dispatch.inFlight, Option.map_some', Option.getD_some, zero] at this
        exact Dispatch.not_reaches_of_counted (by omega) w hr
      · exact (hxs y hy).begins hd |>.not_reaches w hr
    · obtain ⟨n, -, rfl⟩ := Next.toG_inv h
      rw [Next.toG_dispatch?] at hd
      obtain ⟨_, _ | _ | _⟩ := (⟨t, n⟩ : Sys × Next TerminateAsync Unit) <;> simp [G.dispatch?, Next.cont?] at hd

theorem retireOk_call {s' : Sys} {c : Call} (inv : RetireOk s) (h : s.call c = some s') : RetireOk s' := by
  obtain ⟨xs, eg, hxs⟩ := Sys.call_gs h
  intro w hw y hy d hd hr
  rw [Sys.call_trace h] at hw
  rw [eg, List.mem_append] at hy
  rcases hy with hy | hy
  · exact inv w hw y hy d hd hr
  · have := hxs y hy
    unfold G.CallStart at this
    split at this
    · cases hd; exact Dispatch.Begins.not_reaches ⟨_, _, _, rfl⟩ w hr
    all_goals first | exact this.elim | cases hd

theorem reachable_retireOk (reach : Reachable s) : RetireOk s :=
  reach.induction (fun _ h => by simp [Sys.init] at h) (fun _ inv h => retireOk_call inv h)
    fun r inv hx h => retireOk_run inv (reachable_holdOk r) (reachable_sendingOk r) hx h

end Retire

end Cue
