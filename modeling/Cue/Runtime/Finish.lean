/-
# Cue.Runtime.Finish — how an `asyncWorker` ends

An `asyncWorker` ends in three moves. Its `Terminate` closes the queue, sends
on the `terminate` channel and closes it; the `run` goroutine receives from
`terminate` in its `select` and runs `cleanup` (it drains the queue when
flushing, then calls `closeCollector`); the last step of `run` closes
`finished`, on which `Terminate` waits before it returns. `AsyncEndOk` says the
moves come in this order in every reachable state:

* `signal`, `cleanup` — the `terminate` channel holds a value or is closed, and
  `run` is in `cleanup`, only once a `Terminate` of the worker has started;
* `finished` — once `finished` is closed, the worker has no `run` goroutine;
* `ended` — a `Terminate` of the worker has returned only if `finished` is closed.

One step's effect on the channels is `G.step_async`; the steps that record the
end of a `Terminate` are described by `G.step_ended`; `reachable_asyncEndOk`
assembles them.
-/
import Cue.Runtime.Stop
import Mathlib.Algebra.Order.BigOperators.Group.List
import Mathlib.Algebra.Order.Ring.Nat

namespace Cue

set_option autoImplicit false

/-! ## Cleanup, and the frames that run a `Terminate` -/

/-- The phases of `run` from `cleanup` on: after the `terminate` channel fired. -/
def Run.Cleaning : Run → Prop
  | .drain | .drainSend _ _ | .close _ | .finish => True
  | _ => False

theorem Run.afterDrops_not_cleaning (e : Option Event) : ¬(Run.afterDrops e).Cleaning := by
  cases e <;> exact id

theorem G.termFrame?_terminating {x : G} {v : Nat} {pc : Terminate} (hx : x.termFrame? = some (v, pc)) :
    x.terminating? = some v := by
  rcases x with _ | _ | ⟨_, _, _ | ⟨_, _⟩ | _ | _⟩ | _ | ⟨_, _⟩ | _ | _ | _ <;> cases hx <;> rfl

/-- A frame running a `Terminate` owes its end. -/
theorem G.terminating?_owed {x : G} {v : Nat} (hx : x.terminating? = some v) : x.owed.term v = 1 := by
  rcases x with _ | _ | ⟨_, _, _ | ⟨_, _⟩ | _ | _⟩ | _ | ⟨_, _⟩ | _ | _ | _ <;> cases hx <;>
    simp [G.owed, Dispose.owed, Terminate.owed]

/-- A frame owing the end of a `Terminate` of `v` runs one that has started. -/
theorem DebtOk.terminate_of_owed {s : Sys} (debt : DebtOk s) {x : G} (hx : x ∈ s.gs) {v : Nat}
    (hv : 0 < x.owed.term v) : ∃ b, Obs.terminate v b ∈ s.trace := by
  have h₁ : x.owed.term v ≤ s.owedTerm v := List.le_sum_of_mem (List.mem_map_of_mem _ hx)
  have h₂ := debt.term v
  exact countP_isTerminate_pos.1 (by omega)

/-- Once a `Terminate` of `w` returned, no frame runs another one. -/
theorem DebtOk.no_terminate {s : Sys} (debt : DebtOk s) (hold : HoldOk s) {w : Nat}
    (ht : Obs.terminated w ∈ s.trace) {x : G} (hx : x ∈ s.gs) : x.owed.term w = 0 := by
  have h₁ : x.owed.term w ≤ s.owedTerm w := List.le_sum_of_mem (List.mem_map_of_mem _ hx)
  have h₂ := debt.term w
  have h₃ := (countP_isTerminate_le_claims s w).trans (hold.once w)
  have h₄ := countP_isTerminated_pos.2 ht
  omega

/-! ## One step -/

section Async

variable {s t : Sys} {g w : Nat} {ch : Choice}

theorem terminateWorker_of_async {flush : Bool} {pc : Terminate} {a : AsyncWorker}
    (ha : s.asyncWorker? w = some a) :
    terminateWorker g w flush s pc ch = asyncWorkerTerminate w flush s pc := by
  simp [terminateWorker, Sys.workers_of_asyncWorker? ha]

/-- `run` enters `cleanup` only from its `select`, once the `terminate` channel
holds a value or is closed. -/
theorem asyncWorkerRun_cleaning {pc pc' : Run} (h : asyncWorkerRun g w s pc ch = some (t, .cont pc'))
    (hc : pc'.Cleaning) :
    pc.Cleaning ∨ ∃ a, s.asyncWorker? w = some a ∧ (a.terminate ≠ none ∨ a.terminateClosed = true) := by
  unfold asyncWorkerRun at h
  cases ha : s.asyncWorker? w with
  | none => simp [ha] at h
  | some a =>
    cases pc <;> simp only [ha] at h
    case select =>
      refine .inr ⟨a, rfl, ?_⟩
      repeat' split at h
      all_goals cases h
      all_goals first | exact hc.elim | simp_all
    case handleDrops e =>
      split_ifs at h <;> cases h
      exacts [hc.elim, absurd hc (Run.afterDrops_not_cleaning e)]
    case dropsDegrade e drops p =>
      split at h
      · cases h; exact hc.elim
      · obtain ⟨_, -, h⟩ := Option.map_eq_some'.1 h
        cases h; exact absurd hc (Run.afterDrops_not_cleaning e)
      all_goals cases h
    case sendEvent =>
      split at h <;> cases h <;> exact hc.elim
    all_goals exact .inl trivial

/-- From `cleanup` on, `run` stays in `cleanup`. -/
theorem asyncWorkerRun_stays_cleaning {pc pc' : Run}
    (h : asyncWorkerRun g w s pc ch = some (t, .cont pc')) (hc : pc.Cleaning) : pc'.Cleaning := by
  unfold asyncWorkerRun at h
  cases ha : s.asyncWorker? w with
  | none => simp [ha] at h
  | some a =>
    cases pc <;> simp only [ha] at h <;> try exact hc.elim
    case drain => split at h <;> (try split_ifs at h) <;> cases h <;> trivial
    case drainSend => split at h <;> cases h <;> trivial
    case close =>
      split at h
      · cases h; trivial
      · obtain ⟨_, -, h⟩ := Option.map_eq_some'.1 h
        cases h; trivial
      all_goals cases h
    case finish => cases h

/-- What a step does to an `asyncWorker`'s `terminate` channel and `finished`:
only its `Terminate` sends on or closes `terminate`, the `run` goroutine only
receives from it, and only the last step of `run` closes `finished`. -/
theorem G.step_async {x x' : G} (h : G.step g s x ch = some (t, x')) {v : Nat} {a : AsyncWorker}
    (ha : s.asyncWorker? v = some a) :
    ∃ b, t.asyncWorker? v = some b ∧
      ((b.terminate ≠ none ∨ b.terminateClosed = true) →
        (a.terminate ≠ none ∨ a.terminateClosed = true) ∨ x.terminating? = some v) ∧
      (b.finished = true → a.finished = true ∨ (x = .run v .finish ∧ x' = .done)) := by
  by_cases hs : x.Settling
  · obtain ⟨-, hl, hq, -⟩ := G.step_settles h hs
    by_cases own : x.owns v
    · rcases G.owns_cases own with ⟨pc, rfl⟩ | ⟨pc, hx⟩
      · obtain ⟨r, hp, rfl⟩ := Next.toG_inv (by simpa only [G.step] using h)
        by_cases hpc : pc = .finish
        · subst hpc
          obtain ⟨a', ha', rfl, rfl⟩ := asyncWorkerRun_finish hp
          rw [ha] at ha'; cases ha'
          obtain ⟨b, hb, e₁, e₂⟩ := Sys.KeepsAsync.setAsync
            (P := fun a b => b.terminate = a.terminate ∧ b.terminateClosed = a.terminateClosed)
            (fun _ => ⟨rfl, rfl⟩) ha { a with finished := true } ⟨rfl, rfl⟩ v a ha
          exact ⟨b, hb, fun hf => .inl (by rwa [e₁, e₂] at hf), fun _ => .inr ⟨rfl, rfl⟩⟩
        · obtain ⟨b, hb, q, tc, te, f⟩ := asyncWorkerRun_keeps hpc hp v a ha
          refine ⟨b, hb, fun hf => .inl ?_, fun hf => .inl (f ▸ hf)⟩
          rcases te with te | te <;> rw [tc] at hf
          · rwa [te] at hf
          · rcases hf with hf | hf
            · exact absurd te hf
            · exact .inr hf
      · obtain ⟨flush, r, hp, -⟩ := G.step_termFrame h hx
        obtain ⟨b, hb, f⟩ := terminateWorker_keepsFinished hp v a ha
        exact ⟨b, hb, fun _ => .inr (G.termFrame?_terminating hx), fun hf => .inl (f ▸ hf)⟩
    · have hw := Sys.workers_of_asyncWorker? ha
      obtain ⟨z, hz⟩ : ∃ z, t.workers[v]? = some z :=
        ⟨_, List.getElem?_eq_getElem (hl ▸ (List.getElem?_eq_some_iff.1 hw).1)⟩
      have q := hq v own _ z hw hz
      cases z with
      | async b =>
          obtain ⟨e₁, e₂, -, e₄⟩ := q
          exact ⟨b, Sys.asyncWorker?_of hz, fun hf => .inl (by rwa [e₁, e₂] at hf), fun hf => .inl (e₄ ▸ hf)⟩
      | sync => exact q.elim
  · exact ⟨a, by simpa [Sys.asyncWorker?, (G.step_retires h hs).1] using ha, fun hf => .inl hf, fun hf => .inl hf⟩

/-- `asyncWorker.Terminate` returns, and records that it did, only once
`finished` is closed. -/
theorem asyncWorkerTerminate_ended {flush : Bool} {pc : Terminate} {r : Next Terminate Unit}
    (h : asyncWorkerTerminate w flush s pc = some (t, r)) (ht : Obs.terminated w ∈ t.trace)
    (hs : Obs.terminated w ∉ s.trace) : ∃ b, t.asyncWorker? w = some b ∧ b.finished = true := by
  unfold asyncWorkerTerminate at h
  split at h <;> (try split_ifs at h) <;> cases h
  all_goals first | exact absurd ht hs | exact ⟨_, ‹_›, ‹_›⟩

/-- A step records the end of an `asyncWorker`'s `Terminate` only once its
`finished` is closed. -/
theorem G.step_ended {x x' : G} (h : G.step g s x ch = some (t, x')) {v : Nat} {a : AsyncWorker}
    (ha : s.asyncWorker? v = some a) (ht : Obs.terminated v ∈ t.trace) (hs : Obs.terminated v ∉ s.trace) :
    ∃ b, t.asyncWorker? v = some b ∧ b.finished = true := by
  by_cases hst : x.Settling
  · obtain ⟨⟨os, et, hos, pays⟩, -⟩ := G.step_settles h hst
    have ho : Obs.terminated v ∈ os := by
      rw [et] at ht; exact (List.mem_append.1 ht).resolve_left hs
    rcases G.owns_cases (mem_terminated_of_settles hos ho) with ⟨pc, rfl⟩ | ⟨pc, hx⟩
    · -- the `run` goroutine owes no end of a `Terminate`, so records none
      have paid := (pays v).1
      have pos := countP_isTerminated_pos.2 ho
      simp only [G.owed, Run.owed] at paid
      omega
    · obtain ⟨flush, r, hp, -⟩ := G.step_termFrame h hx
      rw [terminateWorker_of_async ha] at hp
      exact asyncWorkerTerminate_ended hp ht hs
  · exact absurd (countP_isTerminated_pos.1 ((G.step_retire_trace h hst v).2 ▸ countP_isTerminated_pos.2 ht)) hs

end Async

/-! ## The invariant -/

/-- The `terminate` channel fires, and `run` cleans up, only after a `Terminate`
started; `finished` is closed only after `run` ended; `Terminate` returns only
after `finished` is closed. -/
structure AsyncEndOk (s : Sys) : Prop where
  signal : ∀ v a, s.asyncWorker? v = some a → (a.terminate ≠ none ∨ a.terminateClosed = true) →
    ∃ b, Obs.terminate v b ∈ s.trace
  cleanup : ∀ v pc, G.run v pc ∈ s.gs → pc.Cleaning → ∃ b, Obs.terminate v b ∈ s.trace
  finished : ∀ v a, s.asyncWorker? v = some a → a.finished = true → ∀ pc, G.run v pc ∉ s.gs
  ended : ∀ v a, s.asyncWorker? v = some a → Obs.terminated v ∈ s.trace → a.finished = true

section Preservation

variable {s t : Sys} {g : Nat} {ch : Choice}

theorem asyncEndOk_run {x x' : G} (inv : AsyncEndOk s) (debt : DebtOk s) (runs : RunOk s)
    (hx : s.gs[g]? = some x) (h : G.step g s x ch = some (t, x')) : AsyncEndOk (t.setG g x') := by
  have grows := G.step_grows h
  have later {v : Nat} (hv : ∃ b, Obs.terminate v b ∈ s.trace) : ∃ b, Obs.terminate v b ∈ (t.setG g x').trace := by
    obtain ⟨os, et⟩ := grows.trace
    obtain ⟨b, hb⟩ := hv
    exact ⟨b, show _ ∈ t.trace by rw [et]; exact List.mem_append_left _ hb⟩
  -- the worker before the step, and what the step did to it
  have before {v : Nat} {b : AsyncWorker} (hb : (t.setG g x').asyncWorker? v = some b) :
      ∃ a, s.asyncWorker? v = some a ∧
        ((b.terminate ≠ none ∨ b.terminateClosed = true) →
          (a.terminate ≠ none ∨ a.terminateClosed = true) ∨ x.terminating? = some v) ∧
        (b.finished = true → a.finished = true ∨ (x = .run v .finish ∧ x' = .done)) := by
    obtain ⟨a, ha⟩ := grows.asyncWorker? hb
    obtain ⟨b', hb', e⟩ := G.step_async h ha
    rw [show (t.setG g x').asyncWorker? v = t.asyncWorker? v from rfl, hb'] at hb
    cases hb
    exact ⟨a, ha, e⟩
  -- where a `run` goroutine after the step was before it
  have runBefore {i v : Nat} {pc : Run} (hi : (t.setG g x').gs[i]? = some (.run v pc)) :
      (i = g ∧ x' = .run v pc) ∨ (i ≠ g ∧ s.gs[i]? = some (.run v pc)) := by
    rcases getElem?_setG_of_step hx h hi with ⟨rfl, e⟩ | hi | ⟨-, hin⟩
    exacts [.inl ⟨rfl, e.symm⟩, .inr hi, hin.elim]
  refine ⟨fun v b hb hsig => ?_, fun v pc' hz hc => ?_, fun v b hb hf pc' hz => ?_, fun v b hb ht => ?_⟩
  · obtain ⟨a, ha, hs, -⟩ := before hb
    rcases hs hsig with hsig | hv
    · exact later (inv.signal v a ha hsig)
    · exact later (debt.terminate_of_owed (List.getElem?_mem hx) (by rw [G.terminating?_owed hv]; omega))
  · obtain ⟨i, hi⟩ := List.mem_iff_getElem?.1 hz
    rcases runBefore hi with ⟨rfl, rfl⟩ | ⟨-, hi⟩
    · obtain ⟨pc, rfl⟩ := G.step_run h
      obtain ⟨r, hp, e⟩ := Next.toG_inv (by simpa only [G.step] using h)
      rcases r with pc'' | _ | _ <;> cases e
      rcases asyncWorkerRun_cleaning hp hc with hc | ⟨a, ha, hsig⟩
      exacts [later (inv.cleanup v pc (List.getElem?_mem hx) hc), later (inv.signal v a ha hsig)]
    · exact later (inv.cleanup v pc' (List.getElem?_mem hi) hc)
  · obtain ⟨a, ha, -, hfin⟩ := before hb
    obtain ⟨i, hi⟩ := List.mem_iff_getElem?.1 hz
    rcases hfin hf with hf | ⟨rfl, rfl⟩ <;> rcases runBefore hi with ⟨rfl, e⟩ | ⟨hig, hi⟩
    · obtain ⟨pc, rfl⟩ := G.step_run (e ▸ h)
      exact inv.finished v a ha hf pc (List.getElem?_mem hx)
    · exact inv.finished v a ha hf pc' (List.getElem?_mem hi)
    · cases e
    · -- the `run` goroutine that closed `finished` was the worker's only one
      exact hig (runs i g v pc' .finish hi hx)
  · obtain ⟨a, ha, -, -⟩ := before hb
    by_cases hs : Obs.terminated v ∈ s.trace
    · have hle := grows.workers.le v _ _ (Sys.workers_of_asyncWorker? ha) (Sys.workers_of_asyncWorker? hb)
      exact hle.2.2.2 (inv.ended v a ha hs)
    · obtain ⟨b', hb', hf⟩ := G.step_ended h ha ht hs
      rw [show (t.setG g x').asyncWorker? v = t.asyncWorker? v from rfl, hb'] at hb
      cases hb
      exact hf

/-- A worker a call adds has an idle `terminate` channel and an open `finished`. -/
theorem Sys.call_asyncWorker? {c : Call} {s' : Sys} (h : s.call c = some s') {v : Nat} {b : AsyncWorker}
    (hb : s'.asyncWorker? v = some b) :
    s.asyncWorker? v = some b ∨
      (s.workers.length ≤ v ∧ b.terminate = none ∧ b.terminateClosed = false ∧ b.finished = false) := by
  obtain ⟨ws, e, hws⟩ := Sys.call_workers h
  have hw := Sys.workers_of_asyncWorker? hb
  rw [e] at hw
  rcases Nat.lt_or_ge v s.workers.length with hv | hv
  · rw [List.getElem?_append_left hv] at hw
    exact .inl (Sys.asyncWorker?_of hw)
  · rw [List.getElem?_append_right hv] at hw
    obtain ⟨c, n, he⟩ := hws _ (List.getElem?_mem hw)
    unfold Worker.new at he
    split_ifs at he
    cases he
    exact .inr ⟨hv, rfl, rfl, rfl⟩

theorem asyncEndOk_call {c : Call} {s' : Sys} (inv : AsyncEndOk s) (debt : DebtOk s) (hold : HoldOk s)
    (h : s.call c = some s') : AsyncEndOk s' := by
  obtain ⟨xs, eg, hxs⟩ := Sys.call_gs h
  have trace := Sys.call_trace h
  -- a `run` goroutine the call starts is at its `select`, for the worker it adds
  have runBefore {v : Nat} {pc : Run} (hz : G.run v pc ∈ s'.gs) :
      G.run v pc ∈ s.gs ∨ (pc = .select ∧ v = s.workers.length) := by
    obtain ⟨i, hi⟩ := List.mem_iff_getElem?.1 hz
    rcases Nat.lt_or_ge i s.gs.length with hlt | hge
    · rw [eg, List.getElem?_append_left hlt] at hi
      exact .inl (List.getElem?_mem hi)
    · obtain ⟨-, rfl⟩ := Sys.call_run h hge hi
      rw [eg, List.getElem?_append_right hge] at hi
      have := hxs _ (List.getElem?_mem hi)
      rcases pc with _ | _ | _ | _ | _ | _ | _ | _ <;> first | exact .inr ⟨rfl, rfl⟩ | exact this.elim
  refine ⟨fun v b hb hsig => ?_, fun v pc hz hc => ?_, fun v b hb hf pc hz => ?_, fun v b hb ht => ?_⟩
  · rcases Sys.call_asyncWorker? h hb with hb | ⟨-, e₁, e₂, -⟩
    · exact trace ▸ inv.signal v b hb hsig
    · simp [e₁, e₂] at hsig
  · rcases runBefore hz with hz | ⟨rfl, -⟩
    exacts [trace ▸ inv.cleanup v pc hz hc, hc.elim]
  · rcases Sys.call_asyncWorker? h hb with hb' | ⟨-, -, -, e⟩
    · rcases runBefore hz with hz | ⟨-, rfl⟩
      · exact inv.finished v b hb' hf pc hz
      · have := (List.getElem?_eq_some_iff.1 (Sys.workers_of_asyncWorker? hb')).1
        omega
    · rw [e] at hf; cases hf
  · rcases Sys.call_asyncWorker? h hb with hb | ⟨hv, -⟩
    · exact inv.ended v b hb (trace ▸ ht)
    · exact absurd (debt.fresh hold hv).2 (countP_isTerminated_pos.2 (trace ▸ ht)).ne'

theorem asyncEndOk_init : AsyncEndOk Sys.init :=
  ⟨fun _ _ h => by simp [Sys.asyncWorker?, Sys.init] at h, fun _ _ h => by simp [Sys.init] at h,
    fun _ _ h => by simp [Sys.asyncWorker?, Sys.init] at h, fun _ _ h => by simp [Sys.asyncWorker?, Sys.init] at h⟩

end Preservation

theorem reachable_asyncEndOk {s : Sys} (reach : Reachable s) : AsyncEndOk s :=
  reach.induction asyncEndOk_init
    (fun r inv h => asyncEndOk_call inv (reachable_debtOk r) (reachable_holdOk r) h)
    fun r inv hx h => asyncEndOk_run inv (reachable_debtOk r) (reachable_runOk r) hx h

theorem Sys.asyncWorker?_of_kindOf {s : Sys} {w : Nat} (h : s.kindOf w = some false) :
    ∃ a, s.asyncWorker? w = some a := by
  obtain ⟨z, hz, hs⟩ := Option.map_eq_some'.1 h
  cases z with
  | sync => cases hs
  | async a => exact ⟨a, Sys.asyncWorker?_of hz⟩

/-- Once a `Terminate` of `w` returned, `w` has no `run` goroutine. -/
theorem AsyncEndOk.no_run {s : Sys} (inv : AsyncEndOk s) (kinds : KindsOk s) {w : Nat}
    (ht : Obs.terminated w ∈ s.trace) (pc : Run) : G.run w pc ∉ s.gs := fun hr => by
  obtain ⟨a, ha⟩ := Sys.asyncWorker?_of_kindOf (kinds.run w pc hr)
  exact inv.finished w a ha (inv.ended w a ha ht) pc hr

end Cue
