/-
# Cue.Runtime.Safety — what holds in every reachable state of the runtime

The invariants of the runtime modules, read back in the program's terms. Each
holds in every state the runtime reaches, over any interleaving of logging
calls, `Collect`, `SetLevel`, `SetFrames` and `Close` with the steps of every
goroutine they start:

* `sending_zero_unreached` — when `sending` reads zero, no logging call holds
  a registry entry or is inside a worker's `Send`: what `terminateAsync` waits
  for before it terminates the workers. It rests on `dispatchEvent`
  incrementing `sending` before it loads the registry;
* `terminated_worker_unreached` — no logging call reaches a worker that
  `terminateAsync` terminated;
* `enqueued_event_accounted` — an event an `asyncWorker` queued is collected,
  still queued, held by `run`, or the worker was terminated by `dispose`
  (`Terminate(false)`), which drops what is left.

The model's mutexes and `go` statements give the rest by construction: at most
one goroutine holds `cfg.mu` (`cfg_mu_exclusive`) or a `syncWorker`'s mutex
(`worker_mu_exclusive`); an `asyncWorker` has at most one `run` goroutine
(`one_run_per_worker`), which is gone once its `Terminate` returned
(`async_terminated_finished`).
-/
import Cue.Close
import Cue.Deadlock
import Cue.Drops

namespace Cue

set_option autoImplicit false

variable {s : Sys}

/-- When `sending` reads zero, no logging call holds a registry entry it has
still to visit or is inside a worker's `Send`. -/
theorem sending_zero_unreached (reach : Reachable s) (hs : s.sending = 0) :
    ∀ y ∈ s.gs, ∀ d, y.dispatch? = some d → ∀ w, ¬d.Reaches w := by
  have inv : (s.gs.map G.counted).sum ≤ 0 := hs ▸ reachable_sendingOk reach
  intro y hy d hd
  have hc : y.counted = 0 :=
    Nat.eq_zero_of_le_zero ((List.le_sum_of_mem (List.mem_map_of_mem G.counted hy)).trans inv)
  simp only [G.counted, hd, Dispatch.inFlight, Option.map_some', Option.getD_some] at hc
  exact Dispatch.not_reaches_of_counted hc

theorem closeRun_sending_zero_unreached :
    ∃ s, Reachable s ∧ s.sending = 0 ∧ ∀ y ∈ s.gs, ∀ d, y.dispatch? = some d → ∀ w, ¬d.Reaches w := by
  obtain ⟨s, reach, h⟩ := exists_reachable_of_run (p := fun s => s.sending = 0) closeRun (by decide)
  exact ⟨s, reach, h, sending_zero_unreached reach h⟩

/-- A worker that `terminateAsync` terminated (`Terminate(true)`) is never
reached again by a logging call. -/
theorem terminated_worker_unreached (reach : Reachable s) {w : Nat} (ht : Obs.terminate w true ∈ s.trace) :
    ∀ y ∈ s.gs, ∀ d, y.dispatch? = some d → ¬d.Reaches w :=
  reachable_retireOk reach w ht

theorem closeRun_terminated_worker_unreached :
    ∃ s, Reachable s ∧ Obs.terminate 0 true ∈ s.trace ∧
      ∀ y ∈ s.gs, ∀ d, y.dispatch? = some d → ¬d.Reaches 0 := by
  obtain ⟨s, reach, h⟩ := exists_reachable_of_run (p := fun s => Obs.terminate 0 true ∈ s.trace)
    closeRun (by decide)
  exact ⟨s, reach, h, terminated_worker_unreached reach h⟩

/-- An event an `asyncWorker` queued is collected, still in the queue, held by
the worker's `run` goroutine, or lost to a `Terminate(false)`: only `dispose`
drops queued events. -/
theorem enqueued_event_accounted (reach : Reachable s) {v : Nat} {e : Event}
    (he : Obs.enqueue v e ∈ s.trace) :
    Obs.collect v e ∈ s.trace ∨ Obs.terminate v false ∈ s.trace ∨
      ∃ a, s.asyncWorker? v = some a ∧ (e ∈ a.queue ∨ ∃ pc, G.run v pc ∈ s.gs ∧ pc.holding = some e) :=
  (reachable_flushOk reach).queued v e he

theorem lateDropRun_enqueued_event_accounted :
    let e : Event := ⟨0, DEBUG, none, .message⟩
    ∃ s, Reachable s ∧ Obs.enqueue 0 e ∈ s.trace ∧ (Obs.collect 0 e ∈ s.trace ∨
      Obs.terminate 0 false ∈ s.trace ∨ ∃ a, s.asyncWorker? 0 = some a ∧
        (e ∈ a.queue ∨ ∃ pc, G.run 0 pc ∈ s.gs ∧ pc.holding = some e)) := by
  obtain ⟨s, reach, h⟩ := exists_reachable_of_run
    (p := fun s => Obs.enqueue 0 ⟨0, DEBUG, none, .message⟩ ∈ s.trace) lateDropRun (by decide)
  exact ⟨s, reach, h, enqueued_event_accounted reach h⟩

/-! ## By construction -/

/-- No two goroutines hold `cfg.mu`: a goroutine at a holding position is the
one `cfg.mu` records. -/
theorem cfg_mu_exclusive (reach : Reachable s) {i j : Nat} {x y : G} (hx : s.gs[i]? = some x)
    (hy : s.gs[j]? = some y) (hxl : x.holdsLock) (hyl : y.holdsLock) : i = j ∧ s.locked = some i := by
  have inv := reachable_lockOk reach
  have hi := inv.holder i x hx hxl
  exact ⟨Option.some.inj (hi.symm.trans (inv.holder j y hy hyl)), hi⟩

/-- A `syncWorker`'s mutex is held by at most one goroutine, and at most once
by it. -/
theorem worker_mu_exclusive (reach : Reachable s) (v : Nat) :
    (∀ (i j : Nat) (x y : G), s.gs[i]? = some x → s.gs[j]? = some y →
      0 < x.muCount v → 0 < y.muCount v → i = j) ∧ ∀ x ∈ s.gs, x.muCount v ≤ 1 := by
  have inv := reachable_muOk reach
  exact ⟨fun _ _ _ _ hx hy hxv hyv => inv.exclusive hx hy hxv hyv, fun x hx => inv.single x hx v⟩

/-- `Collect` starts one `run` goroutine per `asyncWorker`, and no step starts
another. -/
theorem one_run_per_worker (reach : Reachable s) {i j w : Nat} {pc pc' : Run}
    (hi : s.gs[i]? = some (.run w pc)) (hj : s.gs[j]? = some (.run w pc')) : i = j :=
  reachable_runOk reach i j w pc pc' hi hj

/-- Once an `asyncWorker`'s `Terminate` returned, `finished` is closed and no
`run` goroutine of the worker is left. -/
theorem async_terminated_finished (reach : Reachable s) {v : Nat} {a : AsyncWorker}
    (ha : s.asyncWorker? v = some a) (ht : Obs.terminated v ∈ s.trace) :
    a.finished = true ∧ ∀ pc, G.run v pc ∉ s.gs := by
  have inv := reachable_asyncEndOk reach
  have hf := inv.ended v a ha ht
  exact ⟨hf, inv.finished v a ha hf⟩

end Cue
