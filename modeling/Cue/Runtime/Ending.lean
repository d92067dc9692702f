/-
# Cue.Runtime.Ending — the end of a worker

A worker ends in two calls: `Terminate` returns (`Obs.terminated`), and before
that its collector's `Close` is called, at most once (`Obs.close`): by the
`syncWorker`'s `Terminate` under the worker's mutex, or by the `asyncWorker`'s
`run` goroutine in `cleanup`. The debts of `Cue.Runtime.Footprint`, summed over
the goroutines, account for both:

* `DebtOk` — every end of `Terminate` is owed by a `Terminate` that was called,
  and the calls of `Close`, made or owed, stay within one per worker
  (`Sys.closeBudget`); `G.step_debts` says what one step does to the sums.
-/
import Cue.Runtime.Retire

namespace Cue

set_option autoImplicit false

/-! ## Debts over the whole system -/

/-- The ends of `Terminate` the goroutines owe worker `v`. -/
def Sys.owedTerm (s : Sys) (v : Nat) : Nat := (s.gs.map fun x => x.owed.term v).sum

/-- The calls of `Close` the goroutines may still make on worker `v`'s collector. -/
def Sys.owedClose (s : Sys) (v : Nat) : Nat := (s.gs.map fun x => x.owed.close v).sum

/-- The calls of `Close` worker `v` allows: one for an `asyncWorker`, whose `run`
goroutine owes it from the start, and one per call of `Terminate` for a
`syncWorker`, whose `Terminate` owes it. -/
def Sys.closeBudget (s : Sys) (v : Nat) : Nat :=
  match s.kindOf v with
  | some true => s.trace.countP (Obs.isTerminate v)
  | some false => 1
  | none => 0

theorem Sys.closeBudget_eq {s t : Sys} (kinds : ∀ v, t.kindOf v = s.kindOf v)
    (terminate : ∀ v, t.trace.countP (Obs.isTerminate v) = s.trace.countP (Obs.isTerminate v)) (v : Nat) :
    t.closeBudget v = s.closeBudget v := by
  simp only [Sys.closeBudget, kinds, terminate]

theorem G.Notice.owed {x : G} (hx : x.Notice) : x.owed = .zero := by
  unfold G.Notice at hx
  split at hx <;> first | rfl | exact hx.elim

theorem Sys.owed_setG {t : Sys} {g : Nat} {x : G} (x' : G) (hx : t.gs[g]? = some x) (v : Nat) :
    (t.setG g x').owedTerm v + x.owed.term v = t.owedTerm v + x'.owed.term v ∧
      (t.setG g x').owedClose v + x.owed.close v = t.owedClose v + x'.owed.close v :=
  ⟨by simpa using sum_setG (f := fun y => y.owed.term v) x' hx (List.append_nil _).symm,
    by simpa using sum_setG (f := fun y => y.owed.close v) x' hx (List.append_nil _).symm⟩

/-- Every end of `Terminate` is owed by a call of `Terminate`, and the calls of
`Close`, made or owed, stay within the budget. -/
structure DebtOk (s : Sys) : Prop where
  term : ∀ v, s.owedTerm v + s.trace.countP (Obs.isTerminated v) ≤ s.trace.countP (Obs.isTerminate v)
  close : ∀ v, s.owedClose v + s.trace.countP (Obs.isClose v) ≤ s.closeBudget v

/-! ## One step -/

/-- One step moves the sums of debts by what it records: each `terminated` and
each `close` pays one, and each `Terminate` called owes its end and, for a
`syncWorker`, one more call of `Close`, which raises the budget by as much. -/
def DebtStep (s t : Sys) (v : Nat) : Prop :=
  t.owedTerm v + t.trace.countP (Obs.isTerminated v) + s.trace.countP (Obs.isTerminate v) ≤
      s.owedTerm v + s.trace.countP (Obs.isTerminated v) + t.trace.countP (Obs.isTerminate v) ∧
    t.owedClose v + t.trace.countP (Obs.isClose v) + s.closeBudget v ≤
      s.owedClose v + s.trace.countP (Obs.isClose v) + t.closeBudget v

theorem DebtOk.of_step {s t : Sys} (inv : DebtOk s) (h : ∀ v, DebtStep s t v) : DebtOk t :=
  ⟨fun v => by have := inv.term v; have := (h v).1; omega,
    fun v => by have := inv.close v; have := (h v).2; omega⟩

namespace DebtStep

variable {s t u : Sys} {v : Nat}

theorem refl (s : Sys) (v : Nat) : DebtStep s s v := ⟨le_rfl, le_rfl⟩

theorem trans (h : DebtStep s t v) (h' : DebtStep t u v) : DebtStep s u v :=
  ⟨by have := h.1; have := h'.1; omega, by have := h.2; have := h'.2; omega⟩

/-- A step that records no call ending a worker and changes no debt. -/
theorem of_quiet (kinds : ∀ v, t.kindOf v = s.kindOf v) (gs : t.gs = s.gs) {os : List Obs}
    (trace : t.trace = s.trace ++ os)
    (hos : ∀ v, os.countP (Obs.isTerminate v) = 0 ∧ os.countP (Obs.isTerminated v) = 0 ∧
      os.countP (Obs.isClose v) = 0) (v : Nat) : DebtStep s t v := by
  have terminate (v : Nat) : t.trace.countP (Obs.isTerminate v) = s.trace.countP (Obs.isTerminate v) := by
    rw [trace, List.countP_append, (hos v).1, Nat.add_zero]
  obtain ⟨-, h₁, h₂⟩ := hos v
  unfold DebtStep Sys.owedTerm Sys.owedClose
  rw [Sys.closeBudget_eq kinds terminate, gs, terminate, trace, List.countP_append, List.countP_append, h₁, h₂]
  omega

/-- Goroutine `g` of `t` moves to a position that owes the same. -/
theorem setG (h : DebtStep s t v) {g : Nat} {x x' : G} (hx : t.gs[g]? = some x) (same : x'.owed = x.owed) :
    DebtStep s (t.setG g x') v := by
  obtain ⟨term, close⟩ := Sys.owed_setG x' hx v
  rw [same] at term close
  obtain ⟨h₁, h₂⟩ := h
  constructor
  · change (t.setG g x').owedTerm v + t.trace.countP (Obs.isTerminated v) + _ ≤ _ + t.trace.countP _
    omega
  · change (t.setG g x').owedClose v + t.trace.countP (Obs.isClose v) + _ ≤ _ + t.closeBudget v
    omega

/-- `Terminate` called on worker `w`, with a frame at its first phase that owes
its end and, for a `syncWorker`, the call of `Close`. -/
theorem terminate (v : Nat) {w : Nat} {y : Worker} {b : Bool} (hw : s.workers[w]? = some y)
    (kinds : t.kindOf v = s.kindOf v) (trace : t.trace = s.trace ++ [.terminate w b])
    (term : t.owedTerm v = s.owedTerm v + (Terminate.owed w y.terminateStart).term v)
    (close : t.owedClose v = s.owedClose v + (Terminate.owed w y.terminateStart).close v) :
    DebtStep s t v := by
  unfold DebtStep
  rw [term, close, trace]
  by_cases hv : w = v
  · subst hv
    have kind : s.kindOf w = some y.isSync := by simp [Sys.kindOf, hw]
    cases y <;> simp [Sys.closeBudget, kinds, kind, trace, Terminate.owed, Worker.terminateStart,
      Terminate.owesClose, Worker.isSync, List.countP_append] <;> omega
  · simp [Sys.closeBudget, kinds, trace, Terminate.owed, hv, List.countP_append]

end DebtStep

section Steps

variable {s : Sys} {g : Nat} {ch : Choice}

theorem G.step_debts_settling {x x' : G} {t : Sys} (hx : s.gs[g]? = some x)
    (h : G.step g s x ch = some (t, x')) (hs : x.Settling) (v : Nat) : DebtStep s (t.setG g x') v := by
  obtain ⟨⟨os, et, hos, hp⟩, -, -, xs, eg, hxs⟩ := G.step_settles h hs
  have started (f : Owed → Nat) (hf : f .zero = 0) : (xs.map fun y => f y.owed).sum = 0 :=
    List.sum_eq_zero fun n hn => by
      obtain ⟨y, hy, rfl⟩ := List.mem_map.1 hn
      rw [(hxs y hy).owed, hf]
  have terminate (v : Nat) : t.trace.countP (Obs.isTerminate v) = s.trace.countP (Obs.isTerminate v) := by
    rw [et, List.countP_append, countP_isTerminate_of_settles hos, Nat.add_zero]
  have budget := Sys.closeBudget_eq (t := t.setG g x') (G.step_grows h).kinds terminate v
  have term := sum_setG (f := fun y => y.owed.term v) x' hx eg
  have close := sum_setG (f := fun y => y.owed.close v) x' hx eg
  rw [started (·.term v) rfl] at term
  rw [started (·.close v) rfl] at close
  have := hp v
  unfold DebtStep Sys.owedTerm Sys.owedClose
  rw [budget]
  simp only [Sys.setG, et, List.countP_append, terminate] at term close ⊢
  omega

/-- `terminateWorkers`' loop: one `Terminate(true)` and one frame per entry. -/
theorem spawnTerminators_debts (s : Sys) (reg : List Entry)
    (hreg : ∀ e ∈ reg, e.worker < s.workers.length) (v : Nat) : DebtStep s (spawnTerminators s reg).1 v := by
  induction reg generalizing s with
  | nil => exact .refl s v
  | cons e rest ih =>
      obtain ⟨y, hy⟩ : ∃ y, s.workers[e.worker]? = some y :=
        ⟨_, List.getElem?_eq_getElem (hreg e (List.mem_cons_self _ _))⟩
      let s₁ := (s.record (.terminate e.worker true)).spawn
        (.terminator e.worker (((s.workers[e.worker]?).map Worker.terminateStart).getD .lock))
      have started : s₁.gs = s.gs ++ [.terminator e.worker y.terminateStart] := by
        simp [s₁, Sys.spawn, Sys.record, hy]
      have first : DebtStep s s₁ v :=
        .terminate v hy rfl rfl (by simp only [Sys.owedTerm, started, List.map_append, List.sum_append]; rfl)
          (by simp only [Sys.owedClose, started, List.map_append, List.sum_append]; rfl)
      exact first.trans (ih s₁ fun e' he' => hreg e' (List.mem_cons_of_mem _ he'))

/-- What the steps that retire workers under `cfg.mu`, and the caller of
`Close`, do besides moving their own goroutine: record a `reset` or a return of
`Close`; record the `Terminate(false)` of the worker `dispose` removes and enter
its first phase; or start the goroutines of `terminateWorkers`. -/
theorem G.step_retire_cases {x x' : G} {t : Sys} (h : G.step g s x ch = some (t, x')) (hs : ¬x.Settling) :
    t.workers = s.workers ∧ x.owed = .zero ∧
      ((t.gs = s.gs ∧ x'.owed = .zero ∧ ∃ os, t.trace = s.trace ++ os ∧
          ∀ o ∈ os, (∃ r ws, o = .reset r ws) ∨ ∃ r b, o = .closeReturned r b) ∨
        (∃ w y, s.workers[w]? = some y ∧ t.gs = s.gs ∧ t.trace = s.trace ++ [.terminate w false] ∧
          x'.owed = Terminate.owed w y.terminateStart) ∨
        ∃ r reg, x = .terminateAsync r (.wait reg) ∧ x'.owed = .zero ∧ t = (spawnTerminators s reg).1) := by
  cases x with
  | dispose c cause pc =>
      cases pc with
      | lock =>
          obtain ⟨r, hp, rfl⟩ := Next.toG_inv h
          simp only [Cue.dispose] at hp
          split_ifs at hp
          split at hp
          · cases hp; exact ⟨rfl, rfl, .inl ⟨rfl, rfl, [], by simp, by simp⟩⟩
          · obtain ⟨y, hy, hp⟩ := Option.map_eq_some'.1 hp
            cases hp; exact ⟨rfl, rfl, .inr (.inl ⟨_, y, hy, rfl, rfl, rfl⟩)⟩
      | _ => exact absurd trivial hs
  | terminateAsync r pc =>
      obtain ⟨n, hp, rfl⟩ := Next.toG_inv h
      unfold Cue.terminateAsync at hp
      split at hp
      · split_ifs at hp; cases hp
        exact ⟨rfl, rfl, .inl ⟨rfl, rfl, _, rfl, by simp⟩⟩
      · split_ifs at hp
        cases hp
        exact ⟨spawnTerminators_workers _ _, rfl, .inr (.inr ⟨r, _, rfl, rfl, rfl⟩)⟩
      all_goals
        try split_ifs at hp
        cases hp
        exact ⟨rfl, rfl, .inl ⟨rfl, rfl, [], by simp, by simp⟩⟩
  | close r =>
      simp only [G.step] at h
      split at h
      · cases h; exact ⟨rfl, rfl, .inl ⟨rfl, rfl, _, rfl, by simp⟩⟩
      · split_ifs at h; cases h; exact ⟨rfl, rfl, .inl ⟨rfl, rfl, _, rfl, by simp⟩⟩
  | _ => exact absurd trivial hs

/-- The steps that retire workers under `cfg.mu`, and the caller of `Close`. -/
theorem G.step_debts_retiring {x x' : G} {t : Sys} (hold : HoldOk s) (hx : s.gs[g]? = some x)
    (h : G.step g s x ch = some (t, x')) (hs : ¬x.Settling) (v : Nat) : DebtStep s (t.setG g x') v := by
  obtain ⟨hw, hx₀, ⟨gs, hx₀', os, trace, hos⟩ | ⟨w, y, hy, gs, trace, hx'⟩ | ⟨r, reg, rfl, hx₀', rfl⟩⟩ :=
    G.step_retire_cases h hs
  · refine (DebtStep.of_quiet (fun v => by simp [Sys.kindOf, hw]) gs trace (fun v => ?_) v).setG
      (gs ▸ hx) (hx₀'.trans hx₀.symm)
    refine ⟨List.countP_eq_zero.2 ?_, List.countP_eq_zero.2 ?_, List.countP_eq_zero.2 ?_⟩ <;>
      intro o ho <;> rcases hos o ho with ⟨_, _, rfl⟩ | ⟨_, _, rfl⟩ <;> exact Bool.false_ne_true
  · have owed := Sys.owed_setG x' (gs ▸ hx) v
    rw [hx₀, hx'] at owed
    simp only [Sys.owedTerm, Sys.owedClose, gs, Owed.zero, Nat.add_zero] at owed
    exact .terminate v hy (by simp [Sys.kindOf, Sys.setG, hw]) trace owed.1 owed.2
  · have hreg (e : Entry) (he : e ∈ reg) : e.worker < s.workers.length := by
      by_contra hl
      have fresh := hold.fresh e.worker (Nat.le_of_not_lt hl)
      have held := sum_map_set .done (G.retiring e.worker) hx
      have : 0 < reg.countP fun x => x.worker = e.worker := List.countP_pos_iff.2 ⟨e, he, by simp⟩
      simp only [Sys.claims, G.retiring] at fresh held this
      omega
    refine (spawnTerminators_debts s reg hreg v).setG (x := .terminateAsync r (.wait reg)) ?_ (hx₀'.trans hx₀.symm)
    rw [(spawnTerminators_eq s reg).2, List.getElem?_append_left (List.getElem?_eq_some_iff.1 hx).1, hx]

/-- The steps that retire workers record no call of `Close` and no end of `Terminate`. -/
theorem G.step_retire_trace {x x' : G} {t : Sys} (h : G.step g s x ch = some (t, x')) (hs : ¬x.Settling)
    (v : Nat) : t.trace.countP (Obs.isClose v) = s.trace.countP (Obs.isClose v) ∧
      t.trace.countP (Obs.isTerminated v) = s.trace.countP (Obs.isTerminated v) := by
  obtain ⟨-, -, ⟨-, -, os, trace, hos⟩ | ⟨w, y, -, -, trace, -⟩ | ⟨r, reg, rfl, -, rfl⟩⟩ := G.step_retire_cases h hs
  · have none (p : Obs → Bool) (hp : ∀ r ws b, p (.reset r ws) = false ∧ p (.closeReturned r b) = false) :
        os.countP p = 0 :=
      List.countP_eq_zero.2 fun o ho => by
        rcases hos o ho with ⟨r, ws, rfl⟩ | ⟨r, b, rfl⟩
        exacts [by simp [(hp r ws false).1], by simp [(hp r [] b).2]]
    rw [trace, List.countP_append, List.countP_append, none _ (fun _ _ _ => ⟨rfl, rfl⟩),
      none _ (fun _ _ _ => ⟨rfl, rfl⟩)]
    exact ⟨rfl, rfl⟩
  · simp [trace, List.countP_append]
  · rw [(spawnTerminators_eq s reg).1]
    simp [List.countP_append, List.countP_map, Function.comp_def]

theorem G.step_debts {x x' : G} {t : Sys} (hold : HoldOk s) (hx : s.gs[g]? = some x)
    (h : G.step g s x ch = some (t, x')) (v : Nat) : DebtStep s (t.setG g x') v := by
  by_cases hs : x.Settling
  exacts [G.step_debts_settling hx h hs v, G.step_debts_retiring hold hx h hs v]

end Steps

/-! ## Calls from the application -/

section Calls

variable {s : Sys} {v : Nat}

/-- A goroutine that owes nothing is started. -/
theorem DebtStep.spawn {x : G} (hx : x.owed = .zero) : DebtStep s (s.spawn x) v := by
  have term : (s.spawn x).owedTerm v = s.owedTerm v := by simp [Sys.owedTerm, Sys.spawn, hx, Owed.zero]
  have close : (s.spawn x).owedClose v = s.owedClose v := by simp [Sys.owedClose, Sys.spawn, hx, Owed.zero]
  exact ⟨by rw [term]; rfl, by rw [close]; exact le_refl _⟩

/-- A new worker: its budget was zero. -/
theorem DebtStep.addWorker (y : Worker) : DebtStep s { s with workers := s.workers ++ [y] } v := by
  refine ⟨le_rfl, Nat.add_le_add_left ?_ _⟩
  unfold Sys.closeBudget Sys.kindOf
  rcases Nat.lt_or_ge v s.workers.length with hv | hv
  · rw [List.getElem?_append_left hv]
  · simp [List.getElem?_eq_none hv]

/-- A new `asyncWorker`: its `run` goroutine owes the `Close` of the budget it
brings. -/
theorem DebtStep.addAsync {a : AsyncWorker} (v : Nat) :
    DebtStep s ({ s with workers := s.workers ++ [Worker.async a] }.spawn (.run s.workers.length .select)) v := by
  have kind : ({ s with workers := s.workers ++ [Worker.async a] }.spawn (.run s.workers.length .select)).kindOf v =
      if v = s.workers.length then some false else s.kindOf v := by
    unfold Sys.kindOf
    rcases Nat.lt_trichotomy v s.workers.length with hv | rfl | hv
    · simp [Sys.spawn, List.getElem?_append_left hv, hv.ne]
    · simp [Sys.spawn, Worker.isSync, List.getElem?_concat_length]
    · simp [Sys.spawn, List.getElem?_eq_none (Nat.le_of_lt hv), hv.ne',
        List.getElem?_eq_none (show (s.workers ++ [Worker.async a]).length ≤ v by simp; omega)]
  have owed : (G.run s.workers.length .select).owed =
      ⟨fun _ => 0, fun v => if s.workers.length = v then 1 else 0⟩ := by
    simp [G.owed, Run.owed, Run.owesClose]
  have close : Sys.owedClose ({ s with workers := s.workers ++ [Worker.async a] }.spawn
      (.run s.workers.length .select)) v = s.owedClose v + if s.workers.length = v then 1 else 0 := by
    simp [Sys.owedClose, Sys.spawn, owed]
  refine ⟨by simp [Sys.owedTerm, Sys.spawn, owed], ?_⟩
  rw [close]
  unfold Sys.closeBudget
  rw [kind]
  by_cases hv : v = s.workers.length
  · subst hv; simp [Sys.kindOf, Sys.spawn]; omega
  · simp only [hv, Ne.symm hv, if_false]; exact Nat.le_refl _

theorem Sys.call_debts {c : Call} {s' : Sys} (h : s.call c = some s') (v : Nat) : DebtStep s s' v := by
  cases c <;> simp only [Sys.call] at h
  case collect threshold bufsize c =>
    split_ifs at h
    split at h <;> cases h
    · rename_i cfg _
      have first : DebtStep s { s with cfg } v := .of_quiet (fun _ => rfl) rfl (List.append_nil _).symm (by simp) v
      unfold Sys.addWorker
      split_ifs with hb
      · exact first.trans (.addWorker _)
      · obtain ⟨a, ha⟩ : ∃ a, Worker.new c bufsize = .async a := ⟨_, by simp [Worker.new, hb]; rfl⟩
        rw [ha]
        exact first.trans (.addAsync v)
    · exact .refl s v
  case setLevel | setFrames =>
    split_ifs at h; cases h; exact .of_quiet (fun _ => rfl) rfl (List.append_nil _).symm (by simp) v
  case close =>
    cases h
    exact (((DebtStep.of_quiet (fun _ => rfl) rfl (List.append_nil _).symm (by simp) v).trans
      (.spawn (by rfl))).trans (.spawn (by rfl)))
  all_goals cases h; exact .spawn (by rfl)

end Calls

/-! ## A crash changes no worker -/

section Crash

variable {s t : Sys} {g w : Nat} {ch : Choice} {c : Collector} {e : Event}

/-- A goroutine dies of a panic the code does not recover: a send on a closed
queue, a panic in `Close`, or a close of a closed channel. The delivery
functions recover every panic of `Collect`, so they never crash. -/
theorem sendWithRetries_ne_crash {k : Nat} {pc : Retries} {r : Next Retries (Option Err)}
    (h : sendWithRetries w c e k s pc ch = some (t, r)) : r ≠ .crash := by
  unfold sendWithRetries at h
  split_ifs at h <;> rcases ch with _ | ⟨_ | _ | _⟩ | _ | _ | _ | _ <;> cases h <;> intro e <;> cases e

theorem ensureErrorSent_ne_crash {err : Err} {drops : UInt64} {pc : Ensure} {r : Next Ensure (Option Nat)}
    (h : ensureErrorSent w c err drops s pc ch = some (t, r)) : r ≠ .crash := by
  unfold ensureErrorSent at h
  split at h
  · cases h; (intro e; cases e)
  · split at h
    · split at h <;> cases h <;> (intro e; cases e)
    · cases h

theorem handleDegradation_ne_crash {err : Err} {drops : UInt64} {pc : Degrade} {r : Next Degrade Unit}
    (h : handleDegradation w c err drops s pc ch = some (t, r)) : r ≠ .crash := by
  unfold handleDegradation at h
  split at h
  · obtain ⟨_, -, h⟩ := Option.map_eq_some'.1 h; cases h; (intro e; cases e)
  · split at h <;> cases h <;> first | exact absurd rfl (ensureErrorSent_ne_crash ‹_›) | (intro e; cases e)
  · obtain ⟨_, -, h⟩ := Option.map_eq_some'.1 h; cases h; (intro e; cases e)

theorem syncWorkerSendEvent_ne_crash {pc : SendEvent} {r : Next SendEvent Unit}
    (h : syncWorkerSendEvent w c e s pc ch = some (t, r)) : r ≠ .crash := by
  unfold syncWorkerSendEvent at h
  split at h
  · split at h <;> cases h <;> first | exact absurd rfl (sendWithRetries_ne_crash ‹_›) | (intro e; cases e)
  · obtain ⟨_, -, h⟩ := Option.map_eq_some'.1 h; cases h; (intro e; cases e)
  · split at h <;> cases h <;> first | exact absurd rfl (handleDegradation_ne_crash ‹_›) | (intro e; cases e)

theorem asyncWorkerSendEvent_ne_crash {pc : SendEvent} {r : Next SendEvent Unit}
    (h : asyncWorkerSendEvent w c e s pc ch = some (t, r)) : r ≠ .crash := by
  unfold asyncWorkerSendEvent at h
  split at h
  · split at h <;> cases h <;> first | exact absurd rfl (sendWithRetries_ne_crash ‹_›) | (intro e; cases e)
  · obtain ⟨_, -, h⟩ := Option.map_eq_some'.1 h; cases h; (intro e; cases e)
  · split at h
    · cases h; (intro e; cases e)
    · obtain ⟨_, -, h⟩ := Option.map_eq_some'.1 h; cases h; (intro e; cases e)
    · exact absurd rfl (handleDegradation_ne_crash ‹_›)
    · cases h

theorem syncWorkerSend_ne_crash {pc : SyncSend} {r : Next SyncSend Unit}
    (h : syncWorkerSend g w e s pc ch = some (t, r)) : r ≠ .crash := by
  unfold syncWorkerSend at h
  split at h
  · split_ifs at h <;> cases h <;> (intro e; cases e)
  · split at h <;> cases h <;> first | exact absurd rfl (syncWorkerSendEvent_ne_crash ‹_›) | (intro e; cases e)
  · cases h; (intro e; cases e)
  · cases h

/-- A logging call crashes only on a closed queue. -/
theorem loggerSend_crash {pc : Dispatch} (h : loggerSend g s pc ch = some (t, .crash)) :
    t.workers = s.workers := by
  unfold loggerSend at h
  split at h
  · dsimp only [Sys.fresh] at h; split_ifs at h <;> cases h
  · cases h
  · cases h
  · cases h
  · split at h
    · split at h
      · cases h
      · dsimp only at h
        split_ifs at h
        · split at h
          · split at h <;> cases h; rfl
          · cases h
          · cases h
        · cases h
    · cases h
  · split at h <;> cases h
    exact absurd rfl (syncWorkerSend_ne_crash ‹_›)

theorem closeCollector_crash {pc : CloseCollector} (h : closeCollector g w c s pc ch = some (t, .crash)) :
    t.workers = s.workers := by
  unfold closeCollector at h
  split at h
  · split_ifs at h
    · split at h
      · split at h <;> cases h; rfl
      · cases h
    · cases h
  · split at h <;> cases h; exact loggerSend_crash ‹_›

theorem terminateWorker_crash {flush : Bool} {pc : Terminate}
    (h : terminateWorker g w flush s pc ch = some (t, .crash)) : t.workers = s.workers := by
  unfold terminateWorker at h
  split at h
  · unfold syncWorkerTerminate at h
    split at h
    · split_ifs at h; cases h
    · split at h
      · cases h
      · obtain ⟨_, -, h⟩ := Option.map_eq_some'.1 h; cases h
      · cases h; exact closeCollector_crash ‹_›
      · cases h
    · cases h
  · unfold asyncWorkerTerminate at h
    split at h <;> (try split_ifs at h) <;> cases h <;> rfl
  · cases h

theorem asyncWorkerRun_crash {pc : Run} (h : asyncWorkerRun g w s pc ch = some (t, .crash)) :
    t.workers = s.workers := by
  unfold asyncWorkerRun at h
  split at h
  · cases h
  · split at h
    · split at h <;> (try split_ifs at h) <;> cases h
    · split_ifs at h <;> cases h
    · split at h
      · cases h
      · obtain ⟨_, -, h⟩ := Option.map_eq_some'.1 h; cases h
      · exact absurd rfl (handleDegradation_ne_crash ‹_›)
      · cases h
    · split at h <;> cases h; exact absurd rfl (asyncWorkerSendEvent_ne_crash ‹_›)
    · split at h
      · cases h
      · split_ifs at h; cases h
    · split at h <;> cases h; exact absurd rfl (asyncWorkerSendEvent_ne_crash ‹_›)
    · split at h
      · cases h
      · obtain ⟨_, -, h⟩ := Option.map_eq_some'.1 h; cases h
      · cases h; exact closeCollector_crash ‹_›
      · cases h
    · cases h

theorem dispose_crash {cause : Nat} {pc : Dispose} (h : dispose g c cause s pc ch = some (t, .crash)) :
    t.workers = s.workers := by
  unfold dispose at h
  split at h
  · split_ifs at h
    split at h
    · cases h
    · obtain ⟨_, -, h⟩ := Option.map_eq_some'.1 h; cases h
  · split at h <;> cases h; exact terminateWorker_crash ‹_›
  · cases h
  · split at h <;> cases h; exact loggerSend_crash ‹_›

/-- A goroutine that crashes leaves every worker as it was; in particular a
mutex it holds stays held. -/
theorem G.step_crash {x : G} (h : G.step g s x ch = some (t, .crashed)) : t.workers = s.workers := by
  have crash {α : Type} {k : α → G} {p : Sys × Next α Unit} (e : (Next.toG k p).2 = .crashed)
      (hk : ∀ a, k a ≠ .crashed) : p.2 = .crash := by
    obtain ⟨_, _ | _ | _⟩ := p
    · exact absurd e (hk _)
    · cases e
    · rfl
  unfold G.step at h
  split at h
  · obtain ⟨r, hp, e⟩ := Next.toG_inv h
    cases crash e.symm (fun _ h => by cases h); exact loggerSend_crash hp
  · obtain ⟨r, hp, e⟩ := Next.toG_inv h
    cases crash e.symm (fun _ h => by cases h); exact asyncWorkerRun_crash hp
  · obtain ⟨r, hp, e⟩ := Next.toG_inv h
    cases crash e.symm (fun _ h => by cases h); exact dispose_crash hp
  · obtain ⟨r, hp, e⟩ := Next.toG_inv h
    cases crash e.symm (fun _ h => by cases h)
    unfold Cue.terminateAsync at hp
    split at hp <;> (try split_ifs at hp) <;> cases hp
  · obtain ⟨r, hp, e⟩ := Next.toG_inv h
    cases crash e.symm (fun _ h => by cases h); exact terminateWorker_crash hp
  · split at h
    · cases h
    · split_ifs at h; cases h
  · cases h
  · cases h

end Crash

theorem debtOk_init : DebtOk Sys.init :=
  ⟨fun _ => by simp [Sys.owedTerm, Sys.init], fun _ => by simp [Sys.owedClose, Sys.init]⟩

theorem reachable_debtOk {s : Sys} (reach : Reachable s) : DebtOk s :=
  reach.induction debtOk_init (fun _ inv h => inv.of_step (Sys.call_debts h))
    fun r inv hx h => inv.of_step (G.step_debts (reachable_holdOk r) hx h)

/-- A worker past the table has had no `Close` and no end of a `Terminate`. -/
theorem DebtOk.fresh {s : Sys} (debt : DebtOk s) (hold : HoldOk s) {v : Nat} (hv : s.workers.length ≤ v) :
    s.trace.countP (Obs.isClose v) = 0 ∧ s.trace.countP (Obs.isTerminated v) = 0 := by
  have hk : s.kindOf v = none := by simp [Sys.kindOf, List.getElem?_eq_none hv]
  have h₁ := debt.close v
  have h₂ := debt.term v
  have h₃ := hold.fresh v hv
  simp only [Sys.closeBudget, hk, Sys.claims] at h₁ h₃
  omega

end Cue
