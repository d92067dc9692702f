/-
# Cue.Close — what `Close` has done when it returns `nil`

`Close(timeout)` starts `terminateAsync(result)` and waits in a `select` on
`result` and its timer. Under `cfg.mu`, `terminateAsync` publishes
`newConfig()` in place of the registry it replaces (`Obs.reset`), waits until
`sending` is zero, starts a `Terminate(true)` of every worker of that registry
(`terminateWorkers`), waits for all of them, and only then sends `nil` on
`result`.

* `CloseOk` — in every reachable state, a `Close` whose `result` holds `nil`
  replaced a registry each of whose workers completed its `Terminate(true)`
  (`Sys.Replaced`); the goroutines of `terminateWorkers` are at their
  `Terminate`, or returned after it recorded its end (`Sys.Terminating`);
* `flushed_of_terminated` — an `asyncWorker` whose `Terminate(true)` returned
  passed every event it queued to `Collect` (from `FlushOk` and `AsyncEndOk`);
* `no_send_after_retired` — once a `Terminate(true)` of `w` started, no run
  records a `Send` of `w` (from `RetireOk` and `G.step_sendsTo`);
* `close_returns_reset` — for every interleaving of logging calls with a call
  of `Close`, once it returned `nil`: the published config is `newConfig()`;
  every worker of the replaced registry completed `Terminate(true)` and passed
  every event queued on it to `Collect`; no logging call can still reach one,
  and no run calls `Send` of one again.
-/
import Cue.Runtime.Flush
import Cue.Runtime.Sends
import Cue.Termination

namespace Cue

set_option autoImplicit false

/-! ## One `Terminate` per worker -/

section Retired

variable {s : Sys} (reach : Reachable s) {w : Nat}
include reach

/-- The `Terminate`s of `w` a reachable trace records are one call, with one `flush`. -/
theorem terminate_flush_eq {b b' : Bool} (h : Obs.terminate w b ∈ s.trace) (h' : Obs.terminate w b' ∈ s.trace) :
    b' = b := by
  obtain ⟨pre, post, e⟩ := List.append_of_mem h
  have once := terminate_once reach w
  have pos {l : List Obs} (hl : Obs.terminate w b' ∈ l) : 0 < l.countP (Obs.isTerminate w) :=
    List.countP_pos_iff.2 ⟨_, hl, by simp⟩
  rw [e, List.countP_append, List.countP_cons_of_pos _ _ (by simp)] at once
  rw [e, List.mem_append, List.mem_cons] at h'
  rcases h' with h' | h' | h'
  · have := pos h'; omega
  · cases h'; rfl
  · have := pos h'; omega

/-- An `asyncWorker` whose `Terminate(true)` returned passed every event queued
on it to `Collect`: `cleanup(true)` drained the queue before `finished` was
closed, and `run`, which holds the event it took, is gone. -/
theorem flushed_of_terminated (ht : Obs.terminate w true ∈ s.trace) (hend : Obs.terminated w ∈ s.trace)
    {e : Event} (he : Obs.enqueue w e ∈ s.trace) : Obs.collect w e ∈ s.trace := by
  have flush := reachable_flushOk reach
  have ends := reachable_asyncEndOk reach
  have not_false : Obs.terminate w false ∉ s.trace := fun hf => absurd (terminate_flush_eq reach ht hf) (by decide)
  rcases flush.queued w e he with hc | hf | ⟨a, ha, hq⟩
  · exact hc
  · exact absurd hf not_false
  · have fin := ends.ended w a ha hend
    rcases hq with hq | ⟨pc, hpc, -⟩
    · rcases flush.drained w a ha (.inr fin) with ⟨hnil, -⟩ | hf
      · rw [hnil] at hq; cases hq
      · exact absurd hf not_false
    · exact absurd hpc (ends.finished w a ha fin pc)

/-- Once a `Terminate(true)` of `w` started, no run records a `Send` of `w`. -/
theorem no_send_after_retired {s' : Sys} (hw : Obs.terminate w true ∈ s.trace) {acts : List Action}
    (h : s.run acts = some s') : ∃ os, s'.trace = s.trace ++ os ∧ ∀ e, Obs.send w e ∉ os := by
  obtain ⟨os, et, hos⟩ := never_after_run (p := fun o => ∃ e, o = Obs.send w e) (q := (· = Obs.terminate w true))
    (fun r hx hs ⟨_, hq, he⟩ os et o ho ⟨e, hpe⟩ => by
      subst he hpe
      obtain ⟨os', et', hos'⟩ := G.step_sendsTo hs
      rw [et, List.append_cancel_left_eq] at et'
      subst et'
      obtain ⟨d, hd, hr⟩ := hos' w e ho
      exact reachable_retireOk r w hq _ (List.getElem?_mem hx) d hd hr)
    reach ⟨_, hw, rfl⟩ h
  exact ⟨os, et, fun e he => hos _ he ⟨e, rfl⟩⟩

end Retired

/-! ## The steps of `terminateAsync` -/

section Steps

variable {s t : Sys} {g r : Nat} {ch : Choice}

/-- The entries of the published registry, as `terminateAsync` reads them. -/
def Sys.registryEntries (s : Sys) : List Entry := s.cfg.registry.entries.map (·.2)

/-- The five steps of `terminateAsync`. -/
theorem terminateAsync_cases {pc : TerminateAsync} {n : Next TerminateAsync Unit}
    (h : terminateAsync g r s pc = some (t, n)) :
    (pc = .lock ∧ n = .cont (.wait s.registryEntries) ∧
      t = ({ s with locked := some g, cfg := newConfig }).record (.reset r (s.registryEntries.map Entry.worker))) ∨
    (∃ reg, pc = .wait reg ∧ n = .cont (.group reg (spawnTerminators s reg).2) ∧
      t = (spawnTerminators s reg).1) ∨
    (∃ reg gids, pc = .group reg gids ∧ (∀ i ∈ gids, s.gs[i]? = some .done) ∧ n = .cont .result ∧ t = s) ∨
    (pc = .result ∧ n = .cont .unlock ∧ t = { s with results := s.results.set r true }) ∨
    (pc = .unlock ∧ n = .ret () ∧ t = { s with locked := none }) := by
  unfold terminateAsync at h
  split at h
  · split_ifs at h; cases h; exact .inl ⟨rfl, rfl, rfl⟩
  · split_ifs at h; cases h; exact .inr (.inl ⟨_, rfl, rfl, rfl⟩)
  · split_ifs at h with hd
    cases h
    exact .inr (.inr (.inl ⟨_, _, rfl, by simpa using hd, rfl, rfl⟩))
  · cases h; exact .inr (.inr (.inr (.inl ⟨rfl, rfl, rfl⟩)))
  · cases h; exact .inr (.inr (.inr (.inr ⟨rfl, rfl, rfl⟩)))

/-- Only a step of `terminateAsync r` leaves a goroutine at `terminateAsync r`. -/
theorem G.step_terminateAsync_of {x : G} {pc' : TerminateAsync}
    (h : G.step g s x ch = some (t, .terminateAsync r pc')) :
    ∃ pc, x = .terminateAsync r pc ∧ Cue.terminateAsync g r s pc = some (t, .cont pc') := by
  unfold G.step at h
  split at h
  iterate 3 · obtain ⟨n, -, e⟩ := Next.toG_inv h; rcases n with _ | _ | _ <;> cases e
  · obtain ⟨n, hp, e⟩ := Next.toG_inv h; rcases n with _ | _ | _ <;> cases e; exact ⟨_, rfl, hp⟩
  · obtain ⟨n, -, e⟩ := Next.toG_inv h; rcases n with _ | _ | _ <;> cases e
  · split at h <;> (try split_ifs at h) <;> cases h
  all_goals cases h

/-- A `Terminate` that returns recorded its end. -/
theorem terminateWorker_ret {w : Nat} {flush : Bool} {pc : Terminate}
    (h : terminateWorker g w flush s pc ch = some (t, .ret ())) : Obs.terminated w ∈ t.trace := by
  unfold terminateWorker at h
  split at h
  · unfold syncWorkerTerminate at h
    split at h
    · split_ifs at h; cases h
    · split at h
      · cases h
      · obtain ⟨_, -, h⟩ := Option.map_eq_some'.1 h; cases h; simp [Sys.record]
      · cases h
      · cases h
    · cases h
  · unfold asyncWorkerTerminate at h
    split at h <;> (try split_ifs at h) <;> cases h
    simp [Sys.record]
  · cases h

theorem dispose_results {c : Collector} {cause : Nat} {pc : Dispose} {n : Next Dispose Unit}
    (h : dispose g c cause s pc ch = some (t, n)) : t.results = s.results := by
  unfold dispose at h
  split at h
  · split_ifs at h
    split at h
    · cases h; rfl
    · obtain ⟨_, -, h⟩ := Option.map_eq_some'.1 h; cases h; rfl
  · split at h <;> cases h <;> exact (terminateWorker_frame ‹_›).results
  · cases h; rfl
  · split at h <;> cases h <;> exact (loggerSend_frame ‹_›).results

/-- Only `terminateAsync` at `.result` writes a result, and it writes `true`. -/
theorem G.step_results {x x' : G} (h : G.step g s x ch = some (t, x')) :
    t.results = s.results ∨ ∃ r, x = .terminateAsync r .result ∧ t.results = s.results.set r true := by
  unfold G.step at h
  split at h
  · obtain ⟨_, hp, -⟩ := Next.toG_inv h; exact .inl (loggerSend_frame hp).results
  · obtain ⟨_, hp, -⟩ := Next.toG_inv h; exact .inl (asyncWorkerRun_frame hp).results
  · obtain ⟨_, hp, -⟩ := Next.toG_inv h; exact .inl (dispose_results hp)
  · obtain ⟨_, hp, -⟩ := Next.toG_inv h
    rcases terminateAsync_cases hp with ⟨-, -, rfl⟩ | ⟨reg, -, -, rfl⟩ | ⟨_, _, -, -, -, rfl⟩ | ⟨rfl, -, rfl⟩ |
      ⟨-, -, rfl⟩
    exacts [.inl rfl, .inl (spawnTerminators_frame _ _).results, .inl rfl, .inr ⟨_, rfl, rfl⟩, .inl rfl]
  · obtain ⟨_, hp, -⟩ := Next.toG_inv h; exact .inl (terminateWorker_frame hp).results
  · split at h
    · cases h; exact .inl rfl
    · split_ifs at h; cases h; exact .inl rfl
  · cases h
  · cases h

/-- A result once `nil` stays `nil`. -/
theorem G.step_result_true {x x' : G} (h : G.step g s x ch = some (t, x')) {r : Nat}
    (hr : s.results[r]? = some true) : t.results[r]? = some true := by
  rcases G.step_results h with e | ⟨r', -, e⟩
  · rwa [e]
  · rw [e, List.getElem?_set]
    split_ifs with h₁ h₂
    · rfl
    · exact absurd (h₁ ▸ (List.getElem?_eq_some_iff.1 hr).1) h₂
    · exact hr

/-- What a step records of `Close`: `reset r` only as `terminateAsync r` takes
the lock and publishes `newConfig()`, and that `Close` `r` returned `nil` only
once `nil` was sent on its `result`. -/
theorem G.step_records {x x' : G} (h : G.step g s x ch = some (t, x')) :
    ∃ os, t.trace = s.trace ++ os ∧ ∀ o ∈ os,
      (∀ r W, o = .reset r W → x = .terminateAsync r .lock ∧ t.cfg = newConfig) ∧
      ∀ r, o = .closeReturned r true → s.results[r]? = some true := by
  by_cases hs : x.Settling
  · obtain ⟨⟨os, et, hos, -⟩, -⟩ := G.step_settles h hs
    refine ⟨os, et, fun o ho => ⟨fun r W e => ?_, fun r e => ?_⟩⟩ <;> subst e <;>
      rcases hos _ ho with h | ⟨w, -, ⟨h, -⟩ | h⟩ <;> simp at h
  · cases x with
    | dispose c cause pc =>
        cases pc with
        | lock =>
            obtain ⟨n, hp, -⟩ := Next.toG_inv h
            simp only [Cue.dispose] at hp
            split_ifs at hp
            split at hp
            · cases hp; exact ⟨[], by simp, by simp⟩
            · obtain ⟨_, -, hp⟩ := Option.map_eq_some'.1 hp
              cases hp
              exact ⟨[_], rfl, by simp⟩
        | _ => exact absurd trivial hs
    | terminateAsync r' pc =>
        obtain ⟨n, hp, -⟩ := Next.toG_inv h
        rcases terminateAsync_cases hp with
          ⟨rfl, -, rfl⟩ | ⟨reg, -, -, rfl⟩ | ⟨_, _, -, -, -, rfl⟩ | ⟨-, -, rfl⟩ | ⟨-, -, rfl⟩
        · refine ⟨[_], rfl, fun o ho => ?_⟩
          rw [List.mem_singleton] at ho
          subst ho
          exact ⟨fun r W e => by cases e; exact ⟨rfl, rfl⟩, fun r e => by cases e⟩
        · exact ⟨_, (spawnTerminators_eq s reg).1, by simp⟩
        all_goals exact ⟨[], by simp, by simp⟩
    | close r' =>
        simp only [G.step] at h
        split at h
        · cases h; exact ⟨[_], rfl, by simp⟩
        · split_ifs at h with hres
          cases h
          refine ⟨[_], rfl, fun o ho => ?_⟩
          rw [List.mem_singleton] at ho
          subst ho
          exact ⟨fun r W e => (by cases e), fun r e => by cases e; exact hres⟩
    | _ => exact absurd trivial hs

theorem G.step_reset {x x' : G} (h : G.step g s x ch = some (t, x')) {W : List Nat}
    (hr : Obs.reset r W ∈ t.trace) :
    Obs.reset r W ∈ s.trace ∨ x = .terminateAsync r .lock ∧ t.cfg = newConfig := by
  obtain ⟨os, et, hos⟩ := G.step_records h
  rw [et, List.mem_append] at hr
  exact hr.imp_right fun ho => (hos _ ho).1 r W rfl

theorem G.step_closeReturned {x x' : G} (h : G.step g s x ch = some (t, x'))
    (hr : Obs.closeReturned r true ∈ t.trace) :
    Obs.closeReturned r true ∈ s.trace ∨ s.results[r]? = some true := by
  obtain ⟨os, et, hos⟩ := G.step_records h
  rw [et, List.mem_append] at hr
  exact hr.imp_right fun ho => (hos _ ho).2 r rfl

end Steps

/-! ## The config `Close` publishes -/

@[simp] theorem Config.setDegraded_newConfig (c : Collector) (b : Bool) : newConfig.setDegraded c b = none := by
  simp [Config.setDegraded, newConfig]

@[simp] theorem Config.dispose_newConfig (c : Collector) : newConfig.dispose c = none := by
  simp [Config.dispose, newConfig]

/-- `setDegraded` finds no collector in `newConfig()`. -/
theorem Config.Degrades.newConfig {c : Config} (h : newConfig.Degrades c) : c = newConfig := by
  obtain ⟨ops, rfl⟩ := h
  induction ops with
  | nil => rfl
  | cons o ops ih => simpa only [List.foldl_cons, Config.setDegraded_newConfig, Option.getD_none] using ih

/-- No step of a goroutine changes `newConfig()`: `setDegraded` and `dispose`
find nothing in it, and `terminateAsync` publishes it again. -/
theorem G.step_newConfig {s t : Sys} {g : Nat} {ch : Choice} {x x' : G} (h : G.step g s x ch = some (t, x'))
    (hc : s.cfg = newConfig) : t.cfg = newConfig := by
  by_cases hs : x.Settling
  · exact (hc ▸ G.step_degrades h hs).newConfig
  · cases x with
    | dispose c cause pc =>
        cases pc with
        | lock =>
            obtain ⟨n, hp, -⟩ := Next.toG_inv h
            simp only [Cue.dispose, hc, Config.dispose_newConfig] at hp
            split_ifs at hp
            cases hp
            exact hc
        | _ => exact absurd trivial hs
    | terminateAsync r pc =>
        obtain ⟨n, hp, -⟩ := Next.toG_inv h
        rcases terminateAsync_cases hp with
          ⟨-, -, rfl⟩ | ⟨reg, -, -, rfl⟩ | ⟨_, _, -, -, -, rfl⟩ | ⟨-, -, rfl⟩ | ⟨-, -, rfl⟩
        · rfl
        · exact (hc ▸ (spawnTerminators_frame s reg).cfg).newConfig
        all_goals exact hc
    | close r =>
        simp only [G.step] at h
        split at h
        · cases h; exact hc
        · split_ifs at h; cases h; exact hc
    | _ => exact absurd trivial hs

/-! ## The goroutines of `terminateWorkers` -/

/-- The goroutine at `i` runs a `Terminate(true)` of `w`, or has ended: it
returned after that `Terminate` recorded its end, or crashed. -/
def Sys.Terminating (s : Sys) (w i : Nat) : Prop :=
  (∃ pc, s.gs[i]? = some (.terminator w pc)) ∨ (s.gs[i]? = some .done ∧ Obs.terminated w ∈ s.trace) ∨
    s.gs[i]? = some .crashed

/-- The `r`-th `Close` replaced a registry each of whose workers completed a
`Terminate(true)`. -/
def Sys.Replaced (s : Sys) (r : Nat) : Prop :=
  ∃ W, Obs.reset r W ∈ s.trace ∧ ∀ w ∈ W, Obs.terminate w true ∈ s.trace ∧ Obs.terminated w ∈ s.trace

section Terminators

variable {s t : Sys} {g w i r : Nat} {ch : Choice}

theorem mem_trace_of_append {o : Obs} (ht : ∃ os, t.trace = s.trace ++ os) (ho : o ∈ s.trace) : o ∈ t.trace := by
  obtain ⟨os, e⟩ := ht
  rw [e]; exact List.mem_append_left _ ho

theorem Sys.Replaced.mono (hR : s.Replaced r) (ht : ∃ os, t.trace = s.trace ++ os) : t.Replaced r := by
  obtain ⟨W, hW, hall⟩ := hR
  exact ⟨W, mem_trace_of_append ht hW, fun w hw =>
    (hall w hw).imp (mem_trace_of_append ht) (mem_trace_of_append ht)⟩

theorem Sys.Terminating.mono (hT : s.Terminating w i) (hg : ∃ xs, t.gs = s.gs ++ xs)
    (ht : ∃ os, t.trace = s.trace ++ os) : t.Terminating w i := by
  obtain ⟨xs, eg⟩ := hg
  have keep {y : G} (hy : s.gs[i]? = some y) : t.gs[i]? = some y := by
    rw [eg, List.getElem?_append_left (List.getElem?_eq_some_iff.1 hy).1, hy]
  rcases hT with ⟨pc, hpc⟩ | ⟨hd, hend⟩ | hc
  exacts [.inl ⟨pc, keep hpc⟩, .inr (.inl ⟨keep hd, mem_trace_of_append ht hend⟩), .inr (.inr (keep hc))]

/-- A goroutine's step keeps it `Terminating`: a `Terminate` that returns
records its end first. -/
theorem Sys.Terminating.step {x x' : G} (hT : s.Terminating w i) (hx : s.gs[g]? = some x)
    (h : G.step g s x ch = some (t, x')) : (t.setG g x').Terminating w i := by
  by_cases hi : i = g
  · subst hi
    rw [Sys.Terminating, getElem?_setG_self hx h]
    rcases hT with ⟨pc, hpc⟩ | ⟨hd, -⟩ | hc
    · rw [hx] at hpc
      cases hpc
      obtain ⟨n, hp, rfl⟩ := Next.toG_inv (by simpa only [G.step] using h)
      rcases n with pc' | _ | _
      exacts [.inl ⟨pc', rfl⟩, .inr (.inl ⟨rfl, (terminateWorker_ret hp : Obs.terminated w ∈ t.trace)⟩),
        .inr (.inr rfl)]
    · rw [hx] at hd; cases hd; cases h
    · rw [hx] at hc; cases hc; cases h
  · have keep {y : G} (hy : s.gs[i]? = some y) : (t.setG g x').gs[i]? = some y := getElem?_setG_other h hi hy
    rcases hT with ⟨pc, hpc⟩ | ⟨hd, hend⟩ | hc
    exacts [.inl ⟨pc, keep hpc⟩, .inr (.inl ⟨keep hd, G.step_later h hend⟩), .inr (.inr (keep hc))]

/-- The goroutines `terminateWorkers` starts are the next indices, one per entry. -/
theorem spawnTerminators_gids (s : Sys) (reg : List Entry) :
    (spawnTerminators s reg).2 = List.range' s.gs.length reg.length := by
  induction reg generalizing s with
  | nil => rfl
  | cons e rest ih => simp [spawnTerminators, ih, Sys.spawn, Sys.record, List.range'_succ]

/-- `terminateWorkers` starts, for every entry of the registry, a goroutine at
the `Terminate` of its worker, among those it waits for. -/
theorem spawnTerminators_spawns (s : Sys) {reg : List Entry} {en : Entry} (hen : en ∈ reg) :
    ∃ i ∈ (spawnTerminators s reg).2, s.gs.length ≤ i ∧
      ∃ pc, (spawnTerminators s reg).1.gs[i]? = some (.terminator en.worker pc) := by
  obtain ⟨j, hj, rfl⟩ := List.getElem_of_mem hen
  refine ⟨s.gs.length + j, ?_, by omega, ?_⟩
  · rw [spawnTerminators_gids, List.mem_range'_1]; omega
  · rw [(spawnTerminators_eq s reg).2, List.getElem?_append_right (by omega), Nat.add_sub_cancel_left,
      List.getElem?_map, List.getElem?_eq_getElem hj]
    exact ⟨_, rfl⟩

end Terminators

/-! ## The invariant -/

/-- What every `Close` called so far has done. The `r`-th `Close` appends
result `r` and starts `terminateAsync` for `r`, which records the workers of the
registry it replaced and carries its entries from `.wait` to `.group`. -/
structure CloseOk (s : Sys) : Prop where
  started : ∀ r pc, G.terminateAsync r pc ∈ s.gs → r < s.results.length
  reset : ∀ r W, Obs.reset r W ∈ s.trace → r < s.results.length
  waiting : ∀ r reg, G.terminateAsync r (.wait reg) ∈ s.gs → Obs.reset r (reg.map Entry.worker) ∈ s.trace
  /-- `terminateWorkers` started a `Terminate(true)` of every worker of the
  replaced registry, each on a goroutine that `wg.Wait()` waits for. -/
  group : ∀ r reg gids, G.terminateAsync r (.group reg gids) ∈ s.gs →
    Obs.reset r (reg.map Entry.worker) ∈ s.trace ∧
      ∀ en ∈ reg, Obs.terminate en.worker true ∈ s.trace ∧ ∃ i ∈ gids, s.Terminating en.worker i
  /-- `nil` is sent on `result`, or about to be, only once all of them completed. -/
  replaced : ∀ r, (G.terminateAsync r .result ∈ s.gs ∨ s.results[r]? = some true) → s.Replaced r
  /-- `Close` returns `nil` only once it was sent on `result`. -/
  returned : ∀ r, Obs.closeReturned r true ∈ s.trace → s.results[r]? = some true

section Preservation

variable {s t : Sys} {g : Nat} {x x' : G} {ch : Choice}

theorem closeOk_run (inv : CloseOk s) (hx : s.gs[g]? = some x) (h : G.step g s x ch = some (t, x')) :
    CloseOk (t.setG g x') := by
  have grows : ∃ os, (t.setG g x').trace = s.trace ++ os := (G.step_grows h).trace
  have hxs : x ∈ s.gs := List.getElem?_mem hx
  have len : (t.setG g x').results.length = s.results.length := by
    rcases G.step_results h with e | ⟨_, -, e⟩ <;> simp [Sys.setG, e]
  have old {r : Nat} {pc : TerminateAsync} (hy : G.terminateAsync r pc ∈ (t.setG g x').gs) :
      x' = .terminateAsync r pc ∨ G.terminateAsync r pc ∈ s.gs := by
    rcases mem_setG_of_step h hy with e | hy | hy
    exacts [.inl e.symm, .inr hy, hy.elim]
  refine ⟨fun r pc hy => ?_, fun r W hr => ?_, fun r reg hy => ?_, fun r reg gids hy => ?_, fun r hr => ?_,
    fun r hr => ?_⟩
  · rw [len]
    rcases old hy with rfl | hy
    · obtain ⟨pc₀, rfl, -⟩ := G.step_terminateAsync_of h
      exact inv.started r pc₀ hxs
    · exact inv.started r pc hy
  · rw [len]
    rcases G.step_reset h hr with hr | ⟨rfl, -⟩
    exacts [inv.reset r W hr, inv.started r _ hxs]
  · rcases old hy with rfl | hy
    · obtain ⟨pc₀, rfl, hp⟩ := G.step_terminateAsync_of h
      rcases terminateAsync_cases hp with
        ⟨-, e, rfl⟩ | ⟨_, -, e, -⟩ | ⟨_, _, -, -, e, -⟩ | ⟨-, e, -⟩ | ⟨-, e, -⟩ <;> cases e
      simp [Sys.setG, Sys.record]
    · exact G.step_later h (inv.waiting r reg hy)
  · rcases old hy with rfl | hy
    · obtain ⟨pc₀, rfl, hp⟩ := G.step_terminateAsync_of h
      rcases terminateAsync_cases hp with
        ⟨-, e, -⟩ | ⟨reg', rfl, e, rfl⟩ | ⟨_, _, -, -, e, -⟩ | ⟨-, e, -⟩ | ⟨-, e, -⟩ <;> cases e
      refine ⟨G.step_later h (inv.waiting r reg hxs), fun en hen => ⟨?_, ?_⟩⟩
      · show _ ∈ (spawnTerminators s reg).1.trace
        rw [(spawnTerminators_eq s reg).1]
        exact List.mem_append_right _ (List.mem_map.2 ⟨en, hen, rfl⟩)
      · obtain ⟨i, hi, hle, pc, hpc⟩ := spawnTerminators_spawns s hen
        have hg : g < s.gs.length := (List.getElem?_eq_some_iff.1 hx).1
        exact ⟨i, hi, .inl ⟨pc, by rw [Sys.setG, List.getElem?_set_ne (by omega)]; exact hpc⟩⟩
    · obtain ⟨hr, hall⟩ := inv.group r reg gids hy
      exact ⟨G.step_later h hr, fun en hen =>
        ⟨G.step_later h (hall en hen).1, (hall en hen).2.imp fun _ ⟨hi, hT⟩ => ⟨hi, hT.step hx h⟩⟩⟩
  · rcases hr with hy | hr
    · rcases old hy with rfl | hy
      · obtain ⟨pc₀, rfl, hp⟩ := G.step_terminateAsync_of h
        rcases terminateAsync_cases hp with
          ⟨-, e, -⟩ | ⟨_, -, e, -⟩ | ⟨reg, gids, rfl, hdone, e, rfl⟩ | ⟨-, e, -⟩ | ⟨-, e, -⟩ <;> cases e
        obtain ⟨hreset, hall⟩ := inv.group r reg gids hxs
        refine ⟨_, hreset, fun w hw => ?_⟩
        obtain ⟨en, hen, rfl⟩ := List.mem_map.1 hw
        obtain ⟨hterm, i, hi, hT⟩ := hall en hen
        refine ⟨hterm, ?_⟩
        rcases hT with ⟨pc, hpc⟩ | ⟨-, hend⟩ | hc
        · rw [hdone i hi] at hpc; cases hpc
        · exact hend
        · rw [hdone i hi] at hc; cases hc
      · exact (inv.replaced r (.inl hy)).mono grows
    · rcases G.step_results h with e | ⟨r', rfl, e⟩
      · exact (inv.replaced r (.inr (e ▸ hr))).mono grows
      · by_cases hrr : r' = r
        · subst hrr; exact (inv.replaced r' (.inl hxs)).mono grows
        · rw [show (t.setG g x').results = _ from e, List.getElem?_set_ne hrr] at hr
          exact (inv.replaced r (.inr hr)).mono grows
  · rcases G.step_closeReturned h hr with hr | hres
    exacts [G.step_result_true h (inv.returned r hr), G.step_result_true h hres]

/-- A call appends results only for `Close`, as `false`, and starts
`terminateAsync` only at its lock, for the result it appended. -/
theorem Sys.call_results {s' : Sys} {c : Call} (h : s.call c = some s') :
    s.results.length ≤ s'.results.length ∧
      (∀ r : Nat, s'.results[r]? = some true ↔ s.results[r]? = some true) ∧
      ∀ (r : Nat) pc, G.terminateAsync r pc ∈ s'.gs → G.terminateAsync r pc ∈ s.gs ∨ r < s'.results.length := by
  by_cases hc : c = .close
  · subst hc
    cases h
    refine ⟨show _ ≤ (s.results ++ [false]).length by simp, fun r => ?_, fun r pc hy => ?_⟩
    · show (s.results ++ [false])[r]? = some true ↔ _
      rcases Nat.lt_or_ge r s.results.length with hr | hr
      · rw [List.getElem?_append_left hr]
      · rw [List.getElem?_append_right hr, List.getElem?_eq_none hr]
        cases r - s.results.length <;> simp
    · simp only [Sys.spawn, List.mem_append, List.mem_singleton, G.terminateAsync.injEq, List.length_append,
        List.length_singleton, reduceCtorEq, or_false] at hy ⊢
      exact hy.imp_right fun ⟨e, _⟩ => by omega
  · obtain ⟨e, hg⟩ : s'.results = s.results ∧
        ∀ r pc, G.terminateAsync r pc ∈ s'.gs → G.terminateAsync r pc ∈ s.gs := by
      cases c <;> simp only [Sys.call] at h
      case collect =>
        split_ifs at h
        split at h <;> cases h
        · unfold Sys.addWorker; split_ifs <;> simp [Sys.spawn]
        · simp
      case setLevel | setFrames => split_ifs at h; cases h; simp
      case close => exact absurd rfl hc
      all_goals cases h; simp [Sys.spawn]
    exact ⟨by rw [e], fun r => by rw [e], fun r pc hy => .inl (hg r pc hy)⟩

theorem closeOk_call {s' : Sys} {c : Call} (inv : CloseOk s) (h : s.call c = some s') : CloseOk s' := by
  obtain ⟨len, res, hta⟩ := Sys.call_results h
  have trace := Sys.call_trace h
  have same : ∃ os, s'.trace = s.trace ++ os := ⟨[], by simp [trace]⟩
  obtain ⟨xs, eg, hxs⟩ := Sys.call_gs h
  have started {r : Nat} {pc : TerminateAsync} (hy : G.terminateAsync r pc ∈ s'.gs) (hpc : pc ≠ .lock) :
      G.terminateAsync r pc ∈ s.gs := by
    rw [eg, List.mem_append] at hy
    refine hy.resolve_right fun hy => hpc ?_
    have := hxs _ hy
    unfold G.CallStart at this
    split at this <;> first | exact this.elim | (cases ‹G.terminateAsync r pc = _›; try rfl)
  refine ⟨fun r pc hy => ?_, fun r W hr => ?_, fun r reg hy => ?_, fun r reg gids hy => ?_, fun r hr => ?_,
    fun r hr => ?_⟩
  · rcases hta r pc hy with hy | hr
    exacts [(inv.started r pc hy).trans_le len, hr]
  · rw [trace] at hr; exact (inv.reset r W hr).trans_le len
  · rw [trace]; exact inv.waiting r reg (started hy (by simp))
  · obtain ⟨hr, hall⟩ := inv.group r reg gids (started hy (by simp))
    rw [trace]
    exact ⟨hr, fun en hen =>
      ⟨(hall en hen).1, (hall en hen).2.imp fun _ ⟨hi, hT⟩ => ⟨hi, hT.mono ⟨xs, eg⟩ same⟩⟩⟩
  · refine (inv.replaced r ?_).mono same
    rcases hr with hy | hr
    exacts [.inl (started hy (by simp)), .inr ((res r).1 hr)]
  · rw [trace] at hr; exact (res r).2 (inv.returned r hr)

theorem closeOk_init : CloseOk Sys.init :=
  ⟨fun _ _ h => by simp [Sys.init] at h, fun _ _ h => by simp [Sys.init] at h, fun _ _ h => by simp [Sys.init] at h,
    fun _ _ _ h => by simp [Sys.init] at h, fun _ h => by simp [Sys.init] at h, fun _ h => by simp [Sys.init] at h⟩

theorem reachable_closeOk (reach : Reachable s) : CloseOk s :=
  reach.induction closeOk_init (fun _ inv h => closeOk_call inv h) fun _ inv hx h => closeOk_run inv hx h

end Preservation

/-! ## `Close` among logging calls -/

/-- Modelled from the spec: the logging calls, which run concurrently with `Close`. -/
def Call.logs : Call → Bool
  | .debug | .info | .warn | .error _ | .fatal _ => true
  | _ => false

/-- A logging call starts a goroutine and leaves the config alone. -/
theorem Sys.call_logs {s s' : Sys} {c : Call} (hc : c.logs = true) (h : s.call c = some s') : s'.cfg = s.cfg := by
  cases c <;> simp [Call.logs] at hc <;> (simp only [Sys.call] at h; cases h; rfl)

/-- A property that logging calls and goroutine steps keep holds along every
run whose calls are logging calls. -/
theorem run_logs_stable {P : Sys → Prop}
    (call : ∀ {s s' : Sys} {c : Call}, c.logs = true → P s → s.call c = some s' → P s')
    (run : ∀ {s t : Sys} {g : Nat} {x x' : G} {ch : Choice}, P s → s.gs[g]? = some x →
      G.step g s x ch = some (t, x') → P (t.setG g x')) :
    ∀ {acts : List Action} {s s' : Sys}, (∀ c, Action.call c ∈ acts → c.logs = true) → P s →
      s.run acts = some s' → P s'
  | [], s, _, _, hp, h => by cases h; exact hp
  | a :: as, s, s', hacts, hp, h => by
      unfold Sys.run at h
      split at h
      · rename_i s₁ h₁
        refine run_logs_stable call run (fun c hc => hacts c (List.mem_cons_of_mem _ hc)) ?_ h
        cases a with
        | call c => exact call (hacts c (List.mem_cons_self _ _)) hp h₁
        | run g ch =>
            simp only [Sys.step] at h₁
            split at h₁
            · obtain ⟨⟨t, x'⟩, hs, rfl⟩ := Option.map_eq_some'.1 h₁
              exact run hp ‹_› hs
            · cases h₁
      · cases h

/-- Once the `r`-th `Close` published `newConfig()`, it stays published while
only logging calls are made. -/
theorem config_after_reset {s s' : Sys} {r : Nat} {acts : List Action}
    (hcalls : ∀ c, Action.call c ∈ acts → c.logs = true)
    (hs : ∀ W, Obs.reset r W ∈ s.trace → s.cfg = newConfig)
    (h : s.run acts = some s') : ∀ W, Obs.reset r W ∈ s'.trace → s'.cfg = newConfig :=
  run_logs_stable (P := fun u => ∀ W, Obs.reset r W ∈ u.trace → u.cfg = newConfig)
    (fun hc hp hcall W hW => by rw [Sys.call_logs hc hcall]; exact hp W (Sys.call_trace hcall ▸ hW))
    (fun hp _ hstep W hW => by
      rcases G.step_reset hstep hW with hW | ⟨-, hc⟩
      · have := G.step_newConfig hstep (hp W hW); exact this
      · exact hc)
    hcalls hs h

/-- For every interleaving of logging calls with a call of `Close`, from any
reachable state, once that `Close` returned `nil`: the published config is
`newConfig()`; the registry `terminateAsync` replaced has workers `W`, each of
which completed `Terminate(true)` and passed every event queued on it to
`Collect`; no logging call still running can send to one; and no run from here
calls `Send` of one. -/
theorem close_returns_reset {s₀ s : Sys} (reach : Reachable s₀) {acts : List Action}
    (hcalls : ∀ c, Action.call c ∈ acts → c.logs = true) (hrun : s₀.run (.call .close :: acts) = some s)
    (hret : Obs.closeReturned s₀.results.length true ∈ s.trace) :
    s.cfg = newConfig ∧ ∃ W, Obs.reset s₀.results.length W ∈ s.trace ∧ ∀ w ∈ W,
      Obs.terminate w true ∈ s.trace ∧ Obs.terminated w ∈ s.trace ∧
      (∀ e, Obs.enqueue w e ∈ s.trace → Obs.collect w e ∈ s.trace) ∧
      (∀ y ∈ s.gs, ∀ d, y.dispatch? = some d → ¬d.Reaches w) ∧
      ∀ (acts' : List Action) (s' : Sys), s.run acts' = some s' →
        ∃ os, s'.trace = s.trace ++ os ∧ ∀ e, Obs.send w e ∉ os := by
  obtain ⟨s₁, h₁, hrun⟩ : ∃ s₁, s₀.call .close = some s₁ ∧ s₁.run acts = some s := by
    unfold Sys.run at hrun
    split at hrun
    exacts [⟨_, ‹_›, hrun⟩, by cases hrun]
  have reach' := (Reachable.step (.call .close) reach h₁).run hrun
  have inv := reachable_closeOk reach'
  obtain ⟨W, hW, hall⟩ := inv.replaced _ (.inr (inv.returned _ hret))
  have fresh (W : List Nat) (hW : Obs.reset s₀.results.length W ∈ s₁.trace) : s₁.cfg = newConfig :=
    absurd ((reachable_closeOk reach).reset _ W (Sys.call_trace h₁ ▸ hW)) (lt_irrefl _)
  refine ⟨config_after_reset hcalls fresh hrun W hW, W, hW, fun w hw => ?_⟩
  obtain ⟨hterm, hend⟩ := hall w hw
  exact ⟨hterm, hend, fun e he => flushed_of_terminated reach' hterm hend he, reachable_retireOk reach' w hterm,
    fun acts' s' h => no_send_after_retired reach' hterm h⟩

theorem Sys.run_append (s : Sys) (as bs : List Action) : s.run (as ++ bs) = (s.run as).bind (·.run bs) := by
  induction as generalizing s with
  | nil => rfl
  | cons a as ih =>
    simp only [List.cons_append, Sys.run]
    split <;> simp [ih]

open Action in
/-- One asynchronous collector that implements `io.Closer` is registered with
a queue of one; a logging call queues event 0 on it, and a second logging call
passes `atomic.AddInt32(&sending, 1)`. -/
def closeQueuedPre : List Action :=
  [call (.collect DEBUG 1 ⟨1, true⟩),
   call .debug, run 1 .go, run 1 .go, run 1 .go, run 1 (.pick 0), run 1 .go,
   call .debug, run 2 .go, run 2 .go]

open Action in
/-- Then `Close`: the second logging call loads the registry before
`terminateAsync` replaces it, and `terminateAsync` waits on `sending`, holding
`cfg.mu`; the worker takes event 0 from its queue, the logging call queues
event 1 and returns; `Terminate(true)` reaches the worker while it collects
event 0, `cleanup` collects event 1 and closes the collector, and `Close`
receives `nil` on `result`. -/
def closeReturnTail : List Action :=
  [run 2 .go, run 3 .go, run 0 .queue, run 2 (.pick 0), run 2 .go, run 3 .go,
   run 5 .go, run 0 .go, run 0 (.outcome .ok), run 0 (.outcome .ok), run 5 .go,
   run 0 .terminate, run 0 .terminate, run 0 .terminate, run 0 (.outcome .ok),
   run 0 .terminate, run 0 (.outcome .ok), run 0 .terminate, run 5 .go, run 5 .go,
   run 3 .go, run 3 .go, run 3 .go, run 4 .go]

/-- The witness of `close_returns_reset`: `Close` is called while event 0 is
still queued and a logging call is in flight; it returns `nil`, and every event
queued on the replaced worker, event 0 and the late event 1, was collected. -/
theorem closeReturnTail_reset :
    ∃ s₀ s, Reachable s₀ ∧ s₀.run (.call .close :: closeReturnTail) = some s ∧
      (∃ e, Obs.enqueue 0 e ∈ s₀.trace ∧ Obs.collect 0 e ∉ s₀.trace) ∧ 0 < s₀.sending ∧
      Obs.closeReturned 0 true ∈ s.trace ∧ s.cfg = newConfig ∧ ∃ W, Obs.reset 0 W ∈ s.trace ∧
        ∀ w ∈ W, Obs.terminated w ∈ s.trace ∧ ∀ e, Obs.enqueue w e ∈ s.trace → Obs.collect w e ∈ s.trace := by
  obtain ⟨s₀, e₀⟩ : ∃ s₀, Sys.init.run closeQueuedPre = some s₀ := Option.isSome_iff_exists.1 (by decide)
  have h₀ : s₀.results.length = 0 ∧ (∃ e, Obs.enqueue 0 e ∈ s₀.trace ∧ Obs.collect 0 e ∉ s₀.trace) ∧
      0 < s₀.sending := by
    have : (Sys.init.run closeQueuedPre).any (fun s => decide (s.results.length = 0 ∧
      Obs.enqueue 0 ⟨0, DEBUG, none, .message⟩ ∈ s.trace ∧ Obs.collect 0 ⟨0, DEBUG, none, .message⟩ ∉ s.trace ∧
      0 < s.sending)) = true := by decide
    rw [e₀] at this
    simp only [Option.any_some, decide_eq_true_eq] at this
    exact ⟨this.1, ⟨_, this.2.1, this.2.2.1⟩, this.2.2.2⟩
  have e : s₀.run (.call .close :: closeReturnTail) =
      Sys.init.run (closeQueuedPre ++ .call .close :: closeReturnTail) := by
    rw [Sys.run_append, e₀]; rfl
  obtain ⟨s, hs⟩ : ∃ s, Sys.init.run (closeQueuedPre ++ .call .close :: closeReturnTail) = some s :=
    Option.isSome_iff_exists.1 (by decide)
  have hret : Obs.closeReturned 0 true ∈ s.trace := by
    have : (Sys.init.run (closeQueuedPre ++ .call .close :: closeReturnTail)).any
      (fun s => decide (Obs.closeReturned 0 true ∈ s.trace)) = true := by decide
    rw [hs] at this
    simpa using this
  have reach₀ : Reachable s₀ := Reachable.init.run e₀
  obtain ⟨hcfg, W, hW, hall⟩ :=
    close_returns_reset reach₀ (by simp [closeReturnTail]) (e.trans hs) (h₀.1 ▸ hret)
  exact ⟨s₀, s, reach₀, e.trans hs, h₀.2.1, h₀.2.2, hret, hcfg, W, h₀.1 ▸ hW,
    fun w hw => ⟨(hall w hw).2.1, (hall w hw).2.2.1⟩⟩

end Cue
