/-
# Cue.Runtime.Stop — a `syncWorker` stops delivering

`syncWorker.Terminate` takes the worker's mutex, calls `closeCollector`, sets
`terminated` and releases the mutex; `syncWorker.Send` takes the mutex and
skips `sendEvent` once `terminated` is set. So after the collector's `Close`
no logging call enters `sendEvent` of the worker again: until `terminated`
is set the mutex stays with the `Terminate` (or with its goroutine, if `Close`
or the failure notice crashed it), and afterwards `Send` stops at the check.

* `G.step_terminated` — only the step of `Terminate` that returns from
  `closeCollector` sets `terminated`, and every step that records
  `Obs.terminated` is that one;
* `G.step_sendsEvent` — a logging call enters `sendEvent` of a worker only
  from `Lock`, while `terminated` is unset;
* `SyncEndOk` (`reachable_syncEndOk`) — once `terminated` is set no logging
  call is in `sendEvent` of the worker; `terminated` is set once `Terminate`
  returned; and between `Close` and the end of `Terminate` the mutex stays
  with the `Terminate`'s goroutine.
-/
import Cue.Runtime.Ending

namespace Cue

set_option autoImplicit false

/-! ## Views of a position -/

/-- The `Terminate` a goroutine runs: its worker and phase. -/
def G.termFrame? : G → Option (Nat × Terminate)
  | .terminator w pc => some (w, pc)
  | .dispose _ _ (.terminate w pc) => some (w, pc)
  | _ => none

/-- A logging call inside `syncWorker.Send` of `w`, between `Lock` and `Unlock`
and before the `terminated` check lets it out: in `sendEvent`. -/
def Dispatch.sendsEvent (w : Nat) : Dispatch → Prop
  | .send _ v (.sendEvent _) _ => v = w
  | _ => False

/-- Where the holder of a `syncWorker`'s mutex is after `Close`: in the
`Terminate` that called it, at the failure notice, or crashed. -/
def G.Closed (w : Nat) (x : G) : Prop :=
  x = .crashed ∨ ∃ d, x.termFrame? = some (w, .close (.log d))

theorem Dispatch.sendsEvent_muCount {d : Dispatch} {w : Nat} (hd : d.sendsEvent w) : 0 < d.muCount w := by
  rcases d with _ | _ | _ | _ | ⟨_, v, _ | _ | _, _⟩ <;> try exact hd.elim
  cases hd; simp [Dispatch.muCount, SyncSend.muCount]

theorem CloseCollector.dispatch?_eq {pc : CloseCollector} {d : Dispatch} (h : pc.dispatch? = some d) :
    pc = .log d := by
  cases pc <;> simp [CloseCollector.dispatch?] at h; rw [h]

theorem Terminate.dispatch?_eq {pc : Terminate} {d : Dispatch} (h : pc.dispatch? = some d) :
    pc = .close (.log d) := by
  cases pc <;> simp [Terminate.dispatch?] at h; rw [CloseCollector.dispatch?_eq h]

theorem Run.dispatch?_eq {pc : Run} {d : Dispatch} (h : pc.dispatch? = some d) : pc = .close (.log d) := by
  cases pc <;> simp [Run.dispatch?] at h; rw [CloseCollector.dispatch?_eq h]

theorem Dispose.dispatch?_eq {pc : Dispose} {d : Dispatch} (h : pc.dispatch? = some d) :
    (∃ w, pc = .terminate w (.close (.log d))) ∨ pc = .report d := by
  cases pc <;> simp [Dispose.dispatch?] at h
  · exact .inl ⟨_, by rw [Terminate.dispatch?_eq h]⟩
  · exact .inr (by rw [h])

/-- The mutexes a goroutine's logging call holds are among the goroutine's. -/
theorem G.dispatch?_muCount {x : G} {d : Dispatch} (hx : x.dispatch? = some d) (w : Nat) :
    d.muCount w ≤ x.muCount w := by
  cases x <;> simp only [G.dispatch?] at hx
  case log => cases hx; exact le_rfl
  case run => rw [Run.dispatch?_eq hx]; exact le_rfl
  case dispose =>
    rcases Dispose.dispatch?_eq hx with ⟨_, rfl⟩ | rfl
    · simp [G.muCount, Dispose.muCount, Terminate.muCount, CloseCollector.muCount]
    · exact le_rfl
  case terminator =>
    rw [Terminate.dispatch?_eq hx]; simp [G.muCount, Terminate.muCount, CloseCollector.muCount]
  all_goals cases hx

/-- A `Terminate` in `closeCollector` holds the worker's mutex, and its failure
notice is the goroutine's logging call. -/
theorem G.termFrame?_close {x : G} {w : Nat} {pc : CloseCollector}
    (hx : x.termFrame? = some (w, .close pc)) : x.muCount w = 1 + pc.muCount w ∧ x.dispatch? = pc.dispatch? := by
  rcases x with _ | _ | ⟨_, _, _ | ⟨_, _⟩ | _ | _⟩ | _ | ⟨_, _⟩ | _ | _ | _ <;> cases hx <;>
    simp [G.muCount, Dispose.muCount, Terminate.muCount, G.dispatch?, Dispose.dispatch?, Terminate.dispatch?]

theorem G.termFrame?_muCount {x : G} {w : Nat} {pc : CloseCollector}
    (hx : x.termFrame? = some (w, .close pc)) : 0 < x.muCount w := by
  rw [(G.termFrame?_close hx).1]; omega

/-- A goroutine works for worker `v` as its `run` goroutine or in its `Terminate`. -/
theorem G.owns_cases {x : G} {v : Nat} (hx : x.owns v) :
    (∃ pc, x = .run v pc) ∨ ∃ pc, x.termFrame? = some (v, pc) := by
  rcases x with _ | ⟨w, pc⟩ | ⟨_, _, _ | ⟨w, pc⟩ | _ | _⟩ | _ | ⟨w, pc⟩ | _ | _ | _ <;>
    first | exact hx.elim | (cases hx; first | exact .inl ⟨pc, rfl⟩ | exact .inr ⟨pc, rfl⟩)

/-- A goroutine about to call `Close` on `v`'s collector. -/
theorem G.closing_cases {x : G} {v : Nat} (hx : x.owns v) (hc : x.closing) :
    x = .run v (.close .start) ∨ x.termFrame? = some (v, .close .start) := by
  rcases x with _ | ⟨w, pc⟩ | ⟨_, _, _ | ⟨w, pc⟩ | _ | _⟩ | _ | ⟨w, pc⟩ | _ | _ | _ <;>
    first | exact hx.elim | exact hc.elim | (cases hx; cases hc; first | exact .inl rfl | exact .inr rfl)

/-! ## The step of a `Terminate` -/

section Terminate

variable {s t : Sys} {g w : Nat} {ch : Choice}

theorem Sys.syncWorker?_setSync {y : SyncWorker} (hy : s.syncWorker? w = some y) (x : SyncWorker) :
    (s.setSync w x).syncWorker? w = some x := by
  have hlt := (List.getElem?_eq_some_iff.1 (Sys.workers_of_syncWorker? hy)).1
  simp [Sys.syncWorker?, Sys.setSync, List.getElem?_set_self hlt]

theorem terminateWorker_of_sync {flush : Bool} {pc : Terminate} {y : SyncWorker}
    (hy : s.syncWorker? w = some y) :
    terminateWorker g w flush s pc ch = syncWorkerTerminate g w s pc ch := by
  simp [terminateWorker, Sys.workers_of_syncWorker? hy]

/-- The step of a goroutine in a `Terminate`: the function's step, and where it
leaves the goroutine. -/
theorem G.step_termFrame {x x' : G} (h : G.step g s x ch = some (t, x')) {v : Nat} {pc : Terminate}
    (hx : x.termFrame? = some (v, pc)) :
    ∃ flush r, terminateWorker g v flush s pc ch = some (t, r) ∧
      (∀ pc', r = .cont pc' → x'.termFrame? = some (v, pc')) ∧ (r = .crash → x' = .crashed) ∧
      (r = .ret () → x'.dispatch? = none) := by
  rcases x with _ | _ | ⟨c, cause, _ | ⟨w, pc⟩ | _ | _⟩ | _ | ⟨w, pc⟩ | _ | _ | _ <;> cases hx
  · simp only [G.step, Cue.dispose] at h
    obtain ⟨r, hp, rfl⟩ := Next.toG_inv h
    split at hp <;> cases hp
    all_goals
      refine ⟨false, _, ‹_›, fun _ e => ?_, fun e => ?_, fun e => ?_⟩ <;> cases e
      rfl
  · simp only [G.step] at h
    obtain ⟨r, hp, rfl⟩ := Next.toG_inv h
    refine ⟨true, r, hp, fun _ e => ?_, fun e => ?_, fun e => ?_⟩ <;> cases e <;> rfl

/-- A `syncWorker`'s `Terminate` sets `terminated` only when it returns from
`closeCollector`, and records `terminated` only then. -/
theorem syncWorkerTerminate_own {pc : Terminate} {r : Next Terminate Unit}
    (h : syncWorkerTerminate g w s pc ch = some (t, r)) {y : SyncWorker} (hy : s.syncWorker? w = some y) :
    ∃ y', t.syncWorker? w = some y' ∧
      ((y'.terminated = y.terminated ∧ t.trace.countP (Obs.isTerminated w) = s.trace.countP (Obs.isTerminated w)) ∨
        (y'.terminated = true ∧ r = .ret () ∧ ∃ pc', pc = .close pc')) := by
  -- `closeCollector` records deliveries and `Close`, and leaves the worker's flag alone
  have close {u : Sys} {c : Collector} {pc : CloseCollector} {r : Next CloseCollector Unit}
      (hc : closeCollector g w c s pc ch = some (u, r)) :
      ∃ y', u.syncWorker? w = some y' ∧ y'.terminated = y.terminated ∧
        u.trace.countP (Obs.isTerminated w) = s.trace.countP (Obs.isTerminated w) := by
    rcases (closeCollector_footprint hc).1 with hd | ⟨-, o, rfl⟩
    · obtain ⟨os, e, hos⟩ := hd.trace
      have hw := Sys.workers_of_syncWorker? hy
      obtain ⟨z, hz⟩ : ∃ z, u.workers[w]? = some z :=
        ⟨_, List.getElem?_eq_getElem (hd.quiet.1 ▸ (List.getElem?_eq_some_iff.1 hw).1)⟩
      have hq := hd.quiet.2 w _ _ hw hz
      cases z with
      | sync y' =>
          exact ⟨y', Sys.syncWorker?_of hz, hq, by
            rw [e, List.countP_append, countP_isTerminated_of_delivery hos, Nat.add_zero]⟩
      | async => exact hq.elim
    · exact ⟨y, hy, rfl, by simp [Sys.record]⟩
  cases pc <;> simp only [syncWorkerTerminate, hy] at h
  case lock =>
    split_ifs at h
    cases h
    exact ⟨{ y with mu := some g }, Sys.syncWorker?_setSync hy _, .inl ⟨rfl, rfl⟩⟩
  case close pc =>
    split at h
    · cases h
      obtain ⟨y', h₁, h₂, h₃⟩ := close ‹_›
      exact ⟨y', h₁, .inl ⟨h₂, h₃⟩⟩
    · obtain ⟨y₁, hy₁, h⟩ := Option.map_eq_some'.1 h
      cases h
      exact ⟨{ y₁ with terminated := true, mu := none }, Sys.syncWorker?_setSync hy₁ _, .inr ⟨rfl, rfl, pc, rfl⟩⟩
    · cases h
      obtain ⟨y', h₁, h₂, h₃⟩ := close ‹_›
      exact ⟨y', h₁, .inl ⟨h₂, h₃⟩⟩
    · cases h
  all_goals cases h

/-- From `closeCollector`, a `syncWorker`'s `Terminate` goes on to the failure
notice, crashes, or sets `terminated` and returns. -/
theorem syncWorkerTerminate_close {pc : CloseCollector} {r : Next Terminate Unit}
    (h : syncWorkerTerminate g w s (.close pc) ch = some (t, r)) :
    r = .crash ∨ (∃ d, r = .cont (.close (.log d))) ∨ ∃ y, t.syncWorker? w = some y ∧ y.terminated = true := by
  obtain ⟨y, hy⟩ : ∃ y, s.syncWorker? w = some y := by
    cases e : s.syncWorker? w with
    | none => simp [syncWorkerTerminate, e] at h
    | some y => exact ⟨y, rfl⟩
  simp only [syncWorkerTerminate, hy] at h
  split at h
  · rename_i pc' hc
    cases h
    have hr : pc' ≠ .start := by simpa [Next.cont?] using (closeCollector_footprint hc).2
    cases pc' with
    | start => exact absurd rfl hr
    | log d => exact .inr (.inl ⟨d, rfl⟩)
  · obtain ⟨y, hy, h⟩ := Option.map_eq_some'.1 h
    cases h
    exact .inr (.inr ⟨_, Sys.syncWorker?_setSync hy _, rfl⟩)
  · cases h; exact .inl rfl
  · cases h

/-- What a settling step records besides deliveries belongs to its own workers. -/
theorem mem_close_of_settles {own : Nat → Prop} {closing : Prop} {os : List Obs}
    (h : ∀ o ∈ os, o.isDelivery ∨ ∃ w, own w ∧ (o.isClose w ∧ closing ∨ o.isTerminated w)) {v : Nat}
    {o : Outcome} (ho : Obs.close v o ∈ os) : own v ∧ closing := by
  rcases h _ ho with hd | ⟨w, hw, ⟨hc, hcl⟩ | ht⟩
  · simp at hd
  · simp at hc; exact ⟨hc ▸ hw, hcl⟩
  · simp at ht

theorem mem_terminated_of_settles {own : Nat → Prop} {closing : Prop} {os : List Obs}
    (h : ∀ o ∈ os, o.isDelivery ∨ ∃ w, own w ∧ (o.isClose w ∧ closing ∨ o.isTerminated w)) {v : Nat}
    (ho : Obs.terminated v ∈ os) : own v := by
  rcases h _ ho with hd | ⟨w, hw, ⟨hc, -⟩ | ht⟩
  · simp at hd
  · simp at hc
  · simp at ht; exact ht ▸ hw

/-- Only the step of `Terminate` that returns from `closeCollector` sets a
`syncWorker`'s `terminated`, and the steps that record `Obs.terminated` of it
are among those. -/
theorem G.step_terminated {x x' : G} (h : G.step g s x ch = some (t, x')) {v : Nat} {y : SyncWorker}
    (hy : s.syncWorker? v = some y) :
    ∃ y', t.syncWorker? v = some y' ∧
      ((y'.terminated = y.terminated ∧
          t.trace.countP (Obs.isTerminated v) = s.trace.countP (Obs.isTerminated v)) ∨
        (y'.terminated = true ∧ x'.dispatch? = none ∧ ∃ pc, x.termFrame? = some (v, .close pc))) := by
  have hw := Sys.workers_of_syncWorker? hy
  by_cases hs : x.Settling
  · obtain ⟨⟨os, et, hos, -⟩, hl, hq, -⟩ := G.step_settles h hs
    by_cases own : x.owns v
    · rcases G.owns_cases own with ⟨pc, rfl⟩ | ⟨pc, hx⟩
      · -- a `run` goroutine has no step on a `syncWorker`
        obtain ⟨r, hp, -⟩ := Next.toG_inv (by simpa only [G.step] using h)
        simp [asyncWorkerRun, Sys.asyncWorker?, hw] at hp
      · obtain ⟨flush, r, hp, -, -, hret⟩ := G.step_termFrame h hx
        rw [terminateWorker_of_sync hy] at hp
        obtain ⟨y', hy', e | ⟨e, rfl, pc', rfl⟩⟩ := syncWorkerTerminate_own hp hy
        · exact ⟨y', hy', .inl e⟩
        · exact ⟨y', hy', .inr ⟨e, hret rfl, pc', hx⟩⟩
    · obtain ⟨z, hz⟩ : ∃ z, t.workers[v]? = some z :=
        ⟨_, List.getElem?_eq_getElem (hl ▸ (List.getElem?_eq_some_iff.1 hw).1)⟩
      have q := hq v own _ z hw hz
      cases z with
      | sync y' =>
          have none : os.countP (Obs.isTerminated v) = 0 := List.countP_eq_zero.2 fun o ho he => by
            cases o <;> simp at he
            subst he
            exact own (mem_terminated_of_settles hos ho)
          exact ⟨y', Sys.syncWorker?_of hz, .inl ⟨q, by rw [et, List.countP_append, none, Nat.add_zero]⟩⟩
      | async => exact q.elim
  · exact ⟨y, by simpa [Sys.syncWorker?, (G.step_retires h hs).1] using hy, .inl ⟨rfl, (G.step_retire_trace h hs v).2⟩⟩

/-- From `closeCollector`, a `syncWorker`'s `Terminate` goes on to the failure
notice, crashes, or sets `terminated`. -/
theorem G.step_closeFrame {x x' : G} (h : G.step g s x ch = some (t, x')) {v : Nat} {pc : CloseCollector}
    (hx : x.termFrame? = some (v, .close pc)) {y : SyncWorker} (hy : s.syncWorker? v = some y) :
    x' = .crashed ∨ (∃ d, x'.termFrame? = some (v, .close (.log d))) ∨
      ∃ y', t.syncWorker? v = some y' ∧ y'.terminated = true := by
  obtain ⟨flush, r, hp, hcont, hcrash, -⟩ := G.step_termFrame h hx
  rw [terminateWorker_of_sync hy] at hp
  rcases syncWorkerTerminate_close hp with rfl | ⟨d, rfl⟩ | e
  exacts [.inl (hcrash rfl), .inr (.inl ⟨d, hcont _ rfl⟩), .inr (.inr e)]

end Terminate

/-! ## Entering `sendEvent` -/

section Send

variable {s t : Sys} {g w : Nat} {ch : Choice}

/-- `syncWorker.Send` enters `sendEvent` only from `Lock`, on a worker whose
`terminated` is unset. -/
theorem syncWorkerSend_sendEvent {e : Event} {pc : SyncSend} {pc' : SendEvent}
    (h : syncWorkerSend g w e s pc ch = some (t, .cont (.sendEvent pc'))) :
    (∃ p, pc = .sendEvent p) ∨ ∃ y, s.syncWorker? w = some y ∧ y.terminated = false := by
  unfold syncWorkerSend at h
  split at h
  · rename_i y hy
    split_ifs at h with _ ht
    cases h
    exact .inr ⟨y, hy, by simpa using ht⟩
  · exact .inl ⟨_, rfl⟩
  · cases h
  · cases h

theorem loggerSend_sendsEvent {pc d : Dispatch} {r : Next Dispatch Unit}
    (h : loggerSend g s pc ch = some (t, r)) (hd : r.cont? = some d) (hs : d.sendsEvent w) :
    pc.sendsEvent w ∨ ∃ y, s.syncWorker? w = some y ∧ y.terminated = false := by
  unfold loggerSend at h
  split at h
  · dsimp only [Sys.fresh] at h; split_ifs at h <;> cases h <;> cases hd; exact hs.elim
  · cases h; cases hd; exact hs.elim
  · cases h; cases hd; exact hs.elim
  · cases h; cases hd
  · split at h
    · split at h
      · cases h
      · dsimp only at h
        split_ifs at h
        · split at h
          · split at h <;> cases h <;> cases hd; exact hs.elim
          · cases h; cases hd; exact hs.elim
          · cases h
        · cases h; cases hd; exact hs.elim
    · cases h
  · rename_i e v pc rest
    split at h <;> cases h <;> cases hd
    · rename_i pc' hp
      cases pc' with
      | sendEvent p =>
          cases hs
          rcases syncWorkerSend_sendEvent hp with ⟨p, rfl⟩ | hy
          exacts [.inl rfl, .inr hy]
      | _ => exact hs.elim
    · exact hs.elim

/-- A goroutine's logging call enters `sendEvent` of `w` only from `Lock`,
while `w`'s `terminated` is unset. -/
theorem G.step_sendsEvent {x x' : G} (h : G.step g s x ch = some (t, x')) {d : Dispatch}
    (hd : x'.dispatch? = some d) (hs : d.sendsEvent w) :
    (∃ d₀, x.dispatch? = some d₀ ∧ d₀.sendsEvent w) ∨ ∃ y, s.syncWorker? w = some y ∧ y.terminated = false := by
  rcases G.step_dispatchStep h with hb | ⟨e, r, s₁, he, hp, hr, -⟩
  · obtain ⟨_, _, _, rfl⟩ := hb d hd
    exact hs.elim
  · rcases loggerSend_sendsEvent hp (hr ▸ hd) hs with h' | h'
    exacts [.inl ⟨e, he, h'⟩, .inr h']

end Send

/-! ## The invariant -/

/-- Once `terminated` is set no logging call is in `sendEvent` of the worker;
`terminated` is set once `Terminate` returned; and between `Close` and the end
of `Terminate` the worker's mutex stays with the `Terminate`'s goroutine. -/
structure SyncEndOk (s : Sys) : Prop where
  stop : ∀ v y, s.syncWorker? v = some y → y.terminated = true →
    ∀ x ∈ s.gs, ∀ d, x.dispatch? = some d → ¬d.sendsEvent v
  stopped : ∀ v y, s.syncWorker? v = some y → Obs.terminated v ∈ s.trace → y.terminated = true
  held : ∀ v y, s.syncWorker? v = some y → y.terminated = false → (∃ o, Obs.close v o ∈ s.trace) →
    ∃ g x, y.mu = some g ∧ s.gs[g]? = some x ∧ x.Closed v

section Preservation

variable {s t : Sys} {g : Nat} {ch : Choice}

theorem Sys.Grows.syncWorker? (hg : s.Grows t) {w : Nat} {b : SyncWorker}
    (hb : t.syncWorker? w = some b) : ∃ a, s.syncWorker? w = some a := by
  have hk := hg.kinds w
  simp only [Sys.kindOf, Sys.workers_of_syncWorker? hb, Option.map_some'] at hk
  cases e : s.workers[w]? with
  | none => rw [e] at hk; cases hk
  | some z =>
      rw [e] at hk
      cases z with
      | sync a => exact ⟨a, Sys.syncWorker?_of e⟩
      | async => cases hk

theorem asyncWorkerRun_of_sync {w : Nat} {pc : Run} {y : SyncWorker} (hy : s.syncWorker? w = some y) :
    asyncWorkerRun g w s pc ch = none := by
  simp [asyncWorkerRun, Sys.asyncWorker?, Sys.workers_of_syncWorker? hy]

/-- A mutex stays with its holder `g₀` across a step of another goroutine, or of
`g₀` itself when it crashes or keeps a frame that holds it. -/
theorem G.step_muOf_kept {x x' : G} (mu : MuOk s) (hx : s.gs[g]? = some x)
    (h : G.step g s x ch = some (t, x')) {v g₀ : Nat} (hm : s.muOf v = some g₀)
    (keep : g₀ = g → x' = .crashed ∨ 0 < x'.muCount v) : t.muOf v = some g₀ := by
  rcases G.step_muStep h v with ⟨e, -⟩ | ⟨e, -, -⟩ | ⟨e, hlt⟩
  · rw [e, hm]
  · rw [hm] at e; cases e
  · by_cases hg : g₀ = g
    · subst hg
      rcases keep rfl with rfl | hpos
      · rw [Sys.muOf_of_workers (G.step_crash h), hm] at e; cases e
      · have := mu.single x (List.getElem?_mem hx) v; omega
    · have := mu.owner g x v hx (by omega)
      rw [hm] at this; exact absurd (Option.some.inj this) hg

theorem syncEndOk_run {x x' : G} (inv : SyncEndOk s) (mu : MuOk s) (hx : s.gs[g]? = some x)
    (h : G.step g s x ch = some (t, x')) : SyncEndOk (t.setG g x') := by
  have grows := G.step_grows h
  -- the worker before the step, and what the step did to its flag
  have before {v : Nat} {y' : SyncWorker} (hy' : (t.setG g x').syncWorker? v = some y') :
      ∃ y, s.syncWorker? v = some y ∧
        ((y'.terminated = y.terminated ∧
            t.trace.countP (Obs.isTerminated v) = s.trace.countP (Obs.isTerminated v)) ∨
          (y'.terminated = true ∧ x'.dispatch? = none ∧ ∃ pc, x.termFrame? = some (v, .close pc))) := by
    obtain ⟨y, hy⟩ := grows.syncWorker? hy'
    obtain ⟨y'', hy'', e⟩ := G.step_terminated h hy
    rw [show (t.setG g x').syncWorker? v = t.syncWorker? v from rfl, hy''] at hy'
    cases hy'
    exact ⟨y, hy, e⟩
  have muOf_of {u : Sys} {v : Nat} {y : SyncWorker} (hy : u.syncWorker? v = some y) : u.muOf v = y.mu := by
    simp [Sys.muOf, hy]
  refine ⟨fun v y' hy' ht z hz d hzd hsd => ?_, fun v y' hy' ht => ?_, fun v y' hy' hf hc => ?_⟩
  · obtain ⟨y, hy, ⟨e, -⟩ | ⟨-, hnone, pc, hxf⟩⟩ := before hy'
    all_goals
      obtain ⟨i, hi⟩ := List.mem_iff_getElem?.1 hz
      rcases getElem?_setG_of_step hx h hi with ⟨rfl, rfl⟩ | ⟨hig, hzi⟩ | ⟨-, hzi⟩
    · rcases G.step_sendsEvent h hzd hsd with ⟨d₀, hd₀, hs₀⟩ | ⟨y₀, hy₀, hf⟩
      · exact inv.stop v y hy (e ▸ ht) x (List.getElem?_mem hx) d₀ hd₀ hs₀
      · rw [hy] at hy₀; cases hy₀; rw [e] at ht; rw [ht] at hf; cases hf
    · exact inv.stop v y hy (e ▸ ht) z (List.getElem?_mem hzi) d hzd hsd
    · obtain ⟨_, _, _, rfl⟩ := G.Initial.begins hzi hzd; exact hsd.elim
    · rw [hnone] at hzd; cases hzd
    · -- `Terminate` held the mutex at the step that set `terminated`
      have h₁ := mu.owner i z v hzi (Nat.lt_of_lt_of_le (Dispatch.sendsEvent_muCount hsd) (G.dispatch?_muCount hzd v))
      have h₂ := mu.owner g x v hx (G.termFrame?_muCount hxf)
      exact hig (Option.some.inj (h₁.symm.trans h₂))
    · obtain ⟨_, _, _, rfl⟩ := G.Initial.begins hzi hzd; exact hsd.elim
  · obtain ⟨y, hy, ⟨e, ec⟩ | ⟨e, -⟩⟩ := before hy'
    · rw [e]; exact inv.stopped v y hy (countP_isTerminated_pos.1 (ec ▸ countP_isTerminated_pos.2 ht))
    · exact e
  · obtain ⟨y, hy, ⟨e, -⟩ | ⟨e, -⟩⟩ := before hy'
    swap
    · rw [e] at hf; cases hf
    have hy'' : t.syncWorker? v = some y' := hy'
    -- where the holder is after the step, when it is the stepping goroutine in `Terminate`
    have moved {pc : CloseCollector} (hxf : x.termFrame? = some (v, .close pc)) (hm : s.muOf v = some g) :
        ∃ g₁ z, y'.mu = some g₁ ∧ (t.setG g x').gs[g₁]? = some z ∧ z.Closed v := by
      rcases G.step_closeFrame h hxf hy with rfl | ⟨d, hd⟩ | ⟨y₁, hy₁, ht₁⟩
      · refine ⟨g, .crashed, ?_, getElem?_setG_self hx h, .inl rfl⟩
        rw [← muOf_of hy'', G.step_muOf_kept mu hx h hm fun _ => .inl rfl]
      · refine ⟨g, x', ?_, getElem?_setG_self hx h, .inr ⟨d, hd⟩⟩
        rw [← muOf_of hy'', G.step_muOf_kept mu hx h hm fun _ => .inr (G.termFrame?_muCount hd)]
      · rw [hy''] at hy₁; cases hy₁; rw [ht₁] at hf; cases hf
    by_cases old : ∃ o, Obs.close v o ∈ s.trace
    · obtain ⟨g₀, z₀, hmu, hz₀, hcl⟩ := inv.held v y hy (e ▸ hf) old
      by_cases hg : g₀ = g
      · subst hg
        rw [hx] at hz₀; cases hz₀
        rcases hcl with rfl | ⟨d, hxf⟩
        · simp [G.step] at h
        · exact moved hxf (by rw [muOf_of hy, hmu])
      · refine ⟨g₀, z₀, ?_, getElem?_setG_other h hg hz₀, hcl⟩
        rw [← muOf_of hy'', G.step_muOf_kept mu hx h (by rw [muOf_of hy, hmu]) fun e => absurd e hg]
    · -- the step called `Close`: a `Terminate` of `v` at `closeCollector`
      obtain ⟨o, ho⟩ := hc
      have hs : x.Settling := by
        by_contra hs
        exact old (countP_isClose_pos.1 ((G.step_retire_trace h hs v).1 ▸ countP_isClose_pos.2 ⟨o, ho⟩))
      obtain ⟨⟨os, et, hos, -⟩, -⟩ := G.step_settles h hs
      have ho' : Obs.close v o ∈ os := by
        rw [show (t.setG g x').trace = t.trace from rfl, et] at ho
        exact (List.mem_append.1 ho).resolve_left fun h' => old ⟨o, h'⟩
      obtain ⟨own, closing⟩ := mem_close_of_settles hos ho'
      rcases G.closing_cases own closing with rfl | hxf
      · simp [G.step, asyncWorkerRun_of_sync hy] at h
      · exact moved hxf (mu.owner g x v hx (G.termFrame?_muCount hxf))

/-- A worker a call adds has not been terminated. -/
theorem Sys.call_syncWorker? {c : Call} {s' : Sys} (h : s.call c = some s') {v : Nat} {y' : SyncWorker}
    (hy' : s'.syncWorker? v = some y') :
    s.syncWorker? v = some y' ∨ (s.workers.length ≤ v ∧ y'.terminated = false ∧ y'.mu = none) := by
  obtain ⟨ws, e, hws⟩ := Sys.call_workers h
  have hw := Sys.workers_of_syncWorker? hy'
  rw [e] at hw
  rcases Nat.lt_or_ge v s.workers.length with hv | hv
  · rw [List.getElem?_append_left hv] at hw
    exact .inl (Sys.syncWorker?_of hw)
  · rw [List.getElem?_append_right hv] at hw
    obtain ⟨c, b, he⟩ := hws _ (List.getElem?_mem hw)
    unfold Worker.new at he
    split_ifs at he; cases he
    exact .inr ⟨hv, rfl, rfl⟩

theorem G.CallStart.begins {x : G} (hx : x.CallStart) {d : Dispatch} (hd : x.dispatch? = some d) : d.Begins := by
  unfold G.CallStart at hx
  split at hx <;> first | exact hx.elim | (cases hd; exact ⟨_, _, _, rfl⟩) | cases hd

theorem syncEndOk_call {c : Call} {s' : Sys} (inv : SyncEndOk s) (debt : DebtOk s) (hold : HoldOk s)
    (h : s.call c = some s') : SyncEndOk s' := by
  obtain ⟨xs, eg, hxs⟩ := Sys.call_gs h
  have trace := Sys.call_trace h
  refine ⟨fun v y' hy' ht z hz d hzd hsd => ?_, fun v y' hy' ht => ?_, fun v y' hy' hf ⟨o, ho⟩ => ?_⟩
  · rcases Sys.call_syncWorker? h hy' with hy | ⟨-, hf, -⟩
    · rw [eg, List.mem_append] at hz
      rcases hz with hz | hz
      · exact inv.stop v y' hy ht z hz d hzd hsd
      · obtain ⟨_, _, _, rfl⟩ := (hxs z hz).begins hzd; exact hsd.elim
    · rw [hf] at ht; cases ht
  · rcases Sys.call_syncWorker? h hy' with hy | ⟨hv, -, -⟩
    · exact inv.stopped v y' hy (trace ▸ ht)
    · exact absurd (debt.fresh hold hv).2 (countP_isTerminated_pos.2 (trace ▸ ht)).ne'
  · rcases Sys.call_syncWorker? h hy' with hy | ⟨hv, -, -⟩
    · obtain ⟨g, z, hm, hz, hcl⟩ := inv.held v y' hy hf ⟨o, trace ▸ ho⟩
      exact ⟨g, z, hm, by rw [eg, List.getElem?_append_left (List.getElem?_eq_some_iff.1 hz).1, hz], hcl⟩
    · exact absurd (debt.fresh hold hv).1 (countP_isClose_pos.2 ⟨o, trace ▸ ho⟩).ne'

end Preservation

theorem syncEndOk_init : SyncEndOk Sys.init :=
  ⟨fun _ _ h => by simp [Sys.init, Sys.syncWorker?] at h, fun _ _ _ h => by simp [Sys.init] at h,
    fun _ _ _ _ ⟨_, h⟩ => by simp [Sys.init] at h⟩

theorem reachable_syncEndOk {s : Sys} (reach : Reachable s) : SyncEndOk s :=
  reach.induction syncEndOk_init
    (fun r inv h => syncEndOk_call inv (reachable_debtOk r) (reachable_holdOk r) h)
    fun r inv hx h => syncEndOk_run inv (reachable_muOk r) hx h

end Cue
