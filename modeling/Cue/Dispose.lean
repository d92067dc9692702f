/-
# Cue.Dispose — `Send` on a queue that `dispose` closed

A panic in `Collect` is recovered by `recoverCollector`, which starts a goroutine
that calls `dispose(c)`: under `cfg.mu` it removes `c`'s entry, publishes the
new registry, and calls `Terminate(false)` on the worker, which closes an
`asyncWorker`'s queue. Unlike `terminateAsync`, `dispose` does not wait for
`sending` to reach zero, so a logging call that loaded the registry before the
removal still holds the entry, and its `asyncWorker.Send` then sends on the
closed channel and panics.

* `send_closed_queue_disposed` — whenever a logging call may still call `Send`
  of an `asyncWorker` whose queue is closed, that worker was terminated by
  `dispose` (`Terminate(false)`), never by `Close`;
* `send_on_closed_queue_reachable` — the panic is reachable: a logging call
  loads the registry, a second event makes the collector panic, the disposal
  closes the queue, and the first call sends.
* `send_neither_queued_nor_dropped` — that `Send` neither queues its event
  nor counts a drop, on a worker with a one-slot queue that no `Terminate(true)`
  has reached.

`recoverCollector` only starts the goroutine of `dispose`; the worker goes on.
An `asyncWorker`'s `run` goroutine takes the next event from its queue and calls
`Collect` on the collector that just panicked, and each further panic starts one
more `dispose` goroutine, which finds the collector gone from the registry but
still reports the disposal to the others.

* `no_collect_after_terminated` — what does hold: once a `Terminate` of the
  worker returned (the `Terminate(false)` of `dispose` among them), no call of
  `Collect` through it starts;
* `repeated_disposal_reachable` — two events queued on an `asyncWorker` whose
  collector panics on both: the worker calls `Collect` after the first panic,
  and the other collector receives two disposal reports.

`dispose(c)` finds the entry to remove by the collector, not by the worker
that panicked. A `dispose` goroutine still waiting for `cfg.mu` after `c` was
removed and registered again removes the new registration and terminates its
worker:

* `redisposal_terminates_new_worker` — the second `dispose` goroutine of the
  run above, delayed until `c` is registered again with a new worker, removes
  `c` and terminates that worker, through which `Collect` was never called.
-/
import Cue.Termination

namespace Cue

set_option autoImplicit false

/-- A logging call that may still send to an `asyncWorker` with a closed queue
exists only after `dispose` terminated that worker. -/
theorem send_closed_queue_disposed {s : Sys} (reach : Reachable s) {y : G} (hy : y ∈ s.gs)
    {d : Dispatch} (hd : y.dispatch? = some d) {w : Nat} (hw : d.Reaches w) {a : AsyncWorker}
    (ha : s.asyncWorker? w = some a) (hc : a.queueClosed) : Obs.terminate w false ∈ s.trace := by
  obtain ⟨b, hb⟩ := (reachable_termOk reach).closed w a ha hc
  cases b
  · exact hb
  · exact absurd hw (reachable_retireOk reach w hb y hy d hd)

open Action in
/-- One asynchronous collector with a one-slot queue. Logging call 1 loads the
registry; logging call 2 enqueues an event, on which `Collect` panics; the
goroutine of `recoverCollector` disposes the collector and closes the queue;
logging call 1 then calls `Send`. -/
def disposeRaceRun : List Action :=
  [call (.collect DEBUG 1 ⟨1, false⟩), call .debug,
   run 1 .go, run 1 .go, run 1 .go,
   call .debug, run 2 .go, run 2 .go, run 2 .go, run 2 (.pick 0), run 2 .go,
   run 0 .queue, run 0 .go, run 0 .go, run 0 (.outcome (.panic 7)),
   run 3 .go, run 3 .go, run 1 (.pick 0)]

/-- The witness of `send_closed_queue_disposed`: just before the last step of
`disposeRaceRun`, logging call 1 reaches worker 0, whose queue is closed. -/
theorem disposeRace_disposed :
    ∃ s, Reachable s ∧ Obs.terminate 0 false ∈ s.trace := by
  obtain ⟨s, reach, h⟩ := exists_reachable_of_run
    (p := fun s => (match s.gs[1]?, s.asyncWorker? 0 with
      | some y, some a => (y.dispatch?.any fun d => decide (d.Reaches 0)) && a.queueClosed
      | _, _ => false : Bool) = true)
    disposeRaceRun.dropLast (by decide)
  split at h
  · rename_i y a hy ha
    simp only [Bool.and_eq_true] at h
    obtain ⟨hd, hc⟩ := h
    cases hyd : y.dispatch? with
    | none => rw [hyd] at hd; cases hd
    | some d =>
        rw [hyd] at hd
        exact ⟨s, reach, send_closed_queue_disposed reach (List.getElem?_mem hy) hyd
          (of_decide_eq_true hd) ha hc⟩
  · cases h

theorem send_on_closed_queue_reachable :
    ∃ s, Reachable s ∧ ∃ w e, Obs.sendClosed w e ∈ s.trace := by
  obtain ⟨s, reach, h⟩ := exists_reachable_of_run
    (p := fun s => s.trace.any fun | .sendClosed _ _ => true | _ => false) disposeRaceRun (by decide)
  obtain ⟨o, ho, hp⟩ := List.any_eq_true.1 h
  split at hp
  · exact ⟨s, reach, _, _, ho⟩
  · cases hp

/-- The `Send` of `disposeRaceRun` neither queues its event nor counts a drop:
worker 0 has a one-slot queue, its drop counter is still 0, and no
`Terminate(true)` of it has started. -/
theorem send_neither_queued_nor_dropped :
    ∃ s, Reachable s ∧ (s.asyncWorker? 0).map (fun x => (x.bufsize, x.drops)) = some (1, 0) ∧
      Obs.terminate 0 true ∉ s.trace ∧ Obs.send 0 ⟨0, DEBUG, none, .message⟩ ∈ s.trace ∧
      Obs.enqueue 0 ⟨0, DEBUG, none, .message⟩ ∉ s.trace ∧ Obs.drop 0 ⟨0, DEBUG, none, .message⟩ ∉ s.trace :=
  exists_reachable_of_run disposeRaceRun (by decide)

/-! ## Collecting after a panic -/

/-- Once a `Terminate` of `w` returned, `dispose`'s `Terminate(false)` among
them, no call of `Collect` through `w` starts. -/
theorem no_collect_after_terminated {s : Sys} (reach : Reachable s) (w : Nat) :
    ∀ pre post, s.trace = pre ++ Obs.terminated w :: post → ∀ e, Obs.collect w e ∉ post := by
  intro pre post e ev hc
  exact reachable_not_after (p := fun o => ∃ e, o = Obs.collect w e) (q := (· = Obs.terminated w))
    (fun r hx h os et ⟨_, hq, he⟩ o ho ⟨e', hpe⟩ => by
      subst he hpe
      exact G.step_no_collect r hx h (.inr hq) et e' ho)
    reach pre _ post e rfl _ hc ⟨ev, rfl⟩

open Action in
/-- One asynchronous collector `c` with a two-slot queue that panics on every
call, and a synchronous collector `c2` that accepts FATAL events. Two logging
calls enqueue an event each; `Collect` panics on the first, then, before any
`dispose` goroutine runs, on the second. The first `dispose` goroutine removes
`c` and terminates its worker, and reports to `c2`; the second finds `c` gone
and reports again. -/
def repeatedDisposalRun : List Action :=
  let c : Collector := ⟨1, false⟩
  [call (.collect DEBUG 2 c), call (.collect FATAL 0 ⟨2, false⟩),
   call .debug, run 1 .go, run 1 .go, run 1 .go, run 1 (.pick 1), run 1 (.pick 0), run 1 .go,
   call .debug, run 2 .go, run 2 .go, run 2 .go, run 2 (.pick 1), run 2 (.pick 0), run 2 .go,
   run 0 .queue, run 0 .go, run 0 .go, run 0 (.outcome (.panic 7)),
   run 0 .queue, run 0 .go, run 0 .go, run 0 (.outcome (.panic 7)),
   run 3 .go, run 3 .go, run 3 .go, run 3 .go,
   run 0 .terminate, run 0 .go, run 0 .go,
   run 3 .go, run 3 .go,
   run 3 .go, run 3 .go, run 3 .go, run 3 (.pick 0), run 3 .go, run 3 .go, run 3 (.outcome .ok),
   run 3 .go, run 3 .go,
   run 4 .go, run 4 .go, run 4 .go, run 4 .go, run 4 (.pick 0), run 4 .go, run 4 .go,
   run 4 (.outcome .ok), run 4 .go, run 4 .go]

/-- The witness of `no_collect_after_terminated`: in the state `closeRun`
reaches, the `Terminate` of worker 0 returned, and no `Collect` through worker 0
follows. -/
theorem closeRun_no_collect :
    ∃ s, Reachable s ∧ Obs.terminated 0 ∈ s.trace ∧
      ∀ pre post, s.trace = pre ++ Obs.terminated 0 :: post → ∀ e, Obs.collect 0 e ∉ post := by
  obtain ⟨s, reach, h⟩ := exists_reachable_of_run (p := fun s => Obs.terminated 0 ∈ s.trace) closeRun (by decide)
  exact ⟨s, reach, h, no_collect_after_terminated reach 0⟩

/-- The events of `Collect` calls through worker `v` that report the disposal of `c`. -/
def disposalReports (trace : List Obs) (v : Nat) (c : Collector) : List Event :=
  trace.filterMap fun
    | .collect u e => if u = v ∧ e.body = .disposed c then some e else none
    | _ => none

theorem repeated_disposal_reachable :
    ∃ s, Reachable s ∧
      (∃ w e e' cause pre post, s.trace = pre ++ Obs.collected w e (.panic cause) :: post ∧
        Obs.collect w e' ∈ post) ∧
      ∃ v c, (disposalReports s.trace v c).length = 2 := by
  obtain ⟨s, reach, h⟩ := exists_reachable_of_run
    (p := fun s => (s.trace.drop 5).head? = some (Obs.collected 0 ⟨0, DEBUG, none, .message⟩ (.panic 7)) ∧
      Obs.collect 0 ⟨1, DEBUG, none, .message⟩ ∈ (s.trace.drop 5).tail ∧
      (disposalReports s.trace 1 ⟨1, false⟩).length = 2)
    repeatedDisposalRun (by decide)
  obtain ⟨hx, hc, hr⟩ := h
  obtain ⟨post, hpost⟩ := List.head?_eq_some_iff.1 hx
  rw [hpost, List.tail_cons] at hc
  refine ⟨s, reach, ⟨0, ⟨0, DEBUG, none, .message⟩, _, 7, s.trace.take 5, post, ?_, hc⟩, 1, _, hr⟩
  rw [← hpost, List.take_append_drop]

open Action in
/-- `c` panics on the two events queued on its worker 0; the first `dispose`
goroutine removes `c` and terminates worker 0; `CollectAsync` registers `c`
again with worker 1; the second `dispose` goroutine then takes `cfg.mu`. -/
def redisposalRun : List Action :=
  let c : Collector := ⟨1, false⟩
  [call (.collect DEBUG 2 c),
   call .debug, run 1 .go, run 1 .go, run 1 .go, run 1 (.pick 0), run 1 .go,
   call .debug, run 2 .go, run 2 .go, run 2 .go, run 2 (.pick 0), run 2 .go,
   run 0 .queue, run 0 .go, run 0 .go, run 0 (.outcome (.panic 7)),
   run 0 .queue, run 0 .go, run 0 .go, run 0 (.outcome (.panic 7)),
   run 3 .go, run 3 .go, run 3 .go, run 3 .go,
   run 0 .terminate, run 0 .go, run 0 .go,
   run 3 .go, run 3 .go, run 3 .go,
   call (.collect DEBUG 2 c),
   run 4 .go, run 4 .go, run 4 .go, run 4 .go,
   run 5 .terminate, run 5 .go, run 5 .go,
   run 4 .go]

/-- A pending `dispose(c)` removes `c`'s new registration and terminates its
worker 1, which never called `Collect`. -/
theorem redisposal_terminates_new_worker :
    ∃ s, Reachable s ∧ (s.workers[1]?).map Worker.collector = some ⟨1, false⟩ ∧
      Obs.terminate 1 false ∈ s.trace ∧ Obs.terminated 1 ∈ s.trace ∧ s.cfg.registry.lookup ⟨1, false⟩ = none ∧
      ∀ e, Obs.collect 1 e ∉ s.trace := by
  obtain ⟨s, reach, h⟩ := exists_reachable_of_run
    (p := fun s => (s.workers[1]?).map Worker.collector = some ⟨1, false⟩ ∧
      Obs.terminate 1 false ∈ s.trace ∧ Obs.terminated 1 ∈ s.trace ∧ s.cfg.registry.lookup ⟨1, false⟩ = none ∧
      (s.trace.all fun | .collect 1 _ => false | _ => true) = true)
    redisposalRun (by decide)
  obtain ⟨h1, h2, h3, h4, h5⟩ := h
  exact ⟨s, reach, h1, h2, h3, h4, fun e he => by simpa using List.all_eq_true.1 h5 _ he⟩

end Cue
