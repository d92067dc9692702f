/-
# Cue.Runtime.Worker — delivery to one collector

One step of each function of `worker.go` that delivers events: the retry loop
`sendWithRetries`, the degradation handler `handleDegradation` with its
recovery loop `ensureErrorSent`, the two workers' `sendEvent`, and the two
`Send`s. A step takes the shared state and the function's position and returns
the new state and what the function does next (`Next`); `none` means the step
is not enabled (the goroutine is blocked) or the scheduler's choice does not fit
the position.

The functions that call into the collector do so in two steps: entering
`Collect` (an `Obs.collect`) and returning from it with an outcome chosen by the
scheduler (`Obs.collected`), so that a collector may block, fail or panic at any
call, and other goroutines run while it does.
-/
import Cue.Runtime.State

namespace Cue

set_option autoImplicit false

/-- `sendRetries`: the number of `Collect` retries before an event fails. -/
def sendRetries : Nat := 2

/-- `sendWithRetries(c, event, retries)`, run by worker `w` on its collector `c`.
Up to `retries + 1` attempts; the first `nil` returns `nil`, and when all fail
the first error is returned. A panic is recovered by the deferred
`recoverCollector(c)`, which starts the dispose goroutine; the function then
returns `nil`. -/
def sendWithRetries (w : Nat) (c : Collector) (e : Event) (retries : Nat) (s : Sys)
    (pc : Retries) (ch : Choice) : Option (Sys × Next Retries (Option Err)) :=
  if pc.collecting then
    match ch with
    | .outcome o =>
        let s := s.record (.collected w e o)
        match o with
        | .ok => some (s, .ret none)
        | .err err =>
            let collectorErr := some (pc.collectorErr.getD err)
            if pc.attempt + 1 ≤ retries then some (s, .cont ⟨pc.attempt + 1, collectorErr, false⟩)
            else some (s, .ret collectorErr)
        | .panic cause => some (s.spawn (.dispose c cause .lock), .ret none)
    | _ => none
  else some (s.record (.collect w e), .cont { pc with collecting := true })

/-- `ensureErrorSent(c, err, drops)`: `attempt++`, the backoff sleep, a fresh
ERROR event, and `c.Collect` on it, until one returns `nil`. Returns `none`, or
the cause of a panic, which `handleDegradation`'s deferred `recoverCollector`
recovers. -/
def ensureErrorSent (w : Nat) (c : Collector) (err : Err) (drops : UInt64) (s : Sys)
    (pc : Ensure) (ch : Choice) : Option (Sys × Next Ensure (Option Nat)) :=
  match pc.event with
  | none =>
      let (e, s) := s.fresh ERROR (some err) (.stillDegraded c (pc.attempt + 1) drops)
      some (s.record (.collect w e), .cont ⟨pc.attempt + 1, some e⟩)
  | some e =>
      match ch with
      | .outcome o =>
          let s := s.record (.collected w e o)
          match o with
          | .ok => some (s, .ret none)
          | .err _ => some (s, .cont ⟨pc.attempt, none⟩)
          | .panic cause => some (s, .ret (some cause))
      | _ => none

/-- `handleDegradation(c, err, drops)`: `setDegraded(c, true)` and the ERROR
notice in a new goroutine, the recovery loop, then `setDegraded(c, false)` and
the WARN notice. A panic in the loop is recovered by the deferred
`recoverCollector(c)`. -/
def handleDegradation (w : Nat) (c : Collector) (err : Err) (drops : UInt64) (s : Sys)
    (pc : Degrade) (ch : Choice) : Option (Sys × Next Degrade Unit) :=
  match pc with
  | .setTrue =>
      (s.setDegraded c true).map fun s =>
        (s.spawn (.log (.start ERROR (some err) (.degraded c drops))), .cont (.ensure ⟨0, none⟩))
  | .ensure pc =>
      match ensureErrorSent w c err drops s pc ch with
      | some (s, .cont pc) => some (s, .cont (.ensure pc))
      | some (s, .ret none) => some (s, .cont .setFalse)
      | some (s, .ret (some cause)) => some (s.spawn (.dispose c cause .lock), .ret ())
      | some (s, .crash) => some (s, .crash)
      | none => none
  | .setFalse =>
      (s.setDegraded c false).map fun s =>
        (s.spawn (.log (.start WARN none (.recovered c))), .ret ())

/-- `syncWorker.sendEvent(event)`, run while holding `w.mu`: on failure,
`w.drops++` and `handleDegradation(w.collector, err, w.drops)`. -/
def syncWorkerSendEvent (w : Nat) (c : Collector) (e : Event) (s : Sys) (pc : SendEvent)
    (ch : Choice) : Option (Sys × Next SendEvent Unit) :=
  match pc with
  | .retries pc =>
      match sendWithRetries w c e sendRetries s pc ch with
      | some (s, .cont pc) => some (s, .cont (.retries pc))
      | some (s, .ret none) => some (s, .ret ())
      | some (s, .ret (some err)) => some (s, .cont (.addDrops err))
      | some (s, .crash) => some (s, .crash)
      | none => none
  | .addDrops err =>
      (s.syncWorker? w).map fun x =>
        (s.setSync w { x with drops := x.drops + 1 }, .cont (.degrade err (x.drops + 1) .setTrue))
  | .degrade err drops pc =>
      match handleDegradation w c err drops s pc ch with
      | some (s, .cont pc) => some (s, .cont (.degrade err drops pc))
      | some (s, .ret ()) => some (s, .ret ())
      | some (s, .crash) => some (s, .crash)
      | none => none

/-- `asyncWorker.sendEvent(event)`, run by the worker's goroutine: on failure,
`drops := atomic.AddUint64(&w.drops, 1)`, `handleDegradation(w.collector, err,
drops)`, then `w.lastdrops = drops`. -/
def asyncWorkerSendEvent (w : Nat) (c : Collector) (e : Event) (s : Sys) (pc : SendEvent)
    (ch : Choice) : Option (Sys × Next SendEvent Unit) :=
  match pc with
  | .retries pc =>
      match sendWithRetries w c e sendRetries s pc ch with
      | some (s, .cont pc) => some (s, .cont (.retries pc))
      | some (s, .ret none) => some (s, .ret ())
      | some (s, .ret (some err)) => some (s, .cont (.addDrops err))
      | some (s, .crash) => some (s, .crash)
      | none => none
  | .addDrops err =>
      (s.asyncWorker? w).map fun x =>
        (s.setAsync w { x with drops := x.drops + 1 }, .cont (.degrade err (x.drops + 1) .setTrue))
  | .degrade err drops pc =>
      match handleDegradation w c err drops s pc ch with
      | some (s, .cont pc) => some (s, .cont (.degrade err drops pc))
      | some (s, .ret ()) =>
          (s.asyncWorker? w).map fun x => (s.setAsync w { x with lastdrops := drops }, .ret ())
      | some (s, .crash) => some (s, .crash)
      | none => none

/-- The first phase of `sendEvent`. -/
def SendEvent.start : SendEvent := .retries ⟨0, none, false⟩

/-- `syncWorker.Send(e)` by goroutine `g`: take `w.mu`, and unless the worker is
terminated, `sendEvent(e)`; then release the mutex. -/
def syncWorkerSend (g w : Nat) (e : Event) (s : Sys) (pc : SyncSend) (ch : Choice) :
    Option (Sys × Next SyncSend Unit) :=
  match s.syncWorker? w, pc with
  | some x, .lock =>
      if x.mu = none then
        some (s.setSync w { x with mu := some g },
          .cont (if x.terminated then .unlock else .sendEvent SendEvent.start))
      else none
  | some x, .sendEvent pc =>
      match syncWorkerSendEvent w x.collector e s pc ch with
      | some (s, .cont pc) => some (s, .cont (.sendEvent pc))
      | some (s, .ret ()) => some (s, .cont .unlock)
      | some (s, .crash) => some (s, .crash)
      | none => none
  | some x, .unlock => some (s.setSync w { x with mu := none }, .ret ())
  | none, _ => none

/-- `asyncWorker.Send(e)`: the non-blocking `select` that enqueues `e` when the
queue has room and otherwise counts a drop. On a closed queue the send panics
(`none`); on the `nil` queue `cleanup` leaves, only the `default` case is ready. -/
def asyncWorkerSend (w : Nat) (e : Event) (s : Sys) (x : AsyncWorker) : Option Sys :=
  if x.queueNil then some ((s.setAsync w { x with drops := x.drops + 1 }).record (.drop w e))
  else if x.queueClosed then none
  else if x.queue.length < x.bufsize then
    some ((s.setAsync w { x with queue := x.queue ++ [e] }).record (.enqueue w e))
  else some ((s.setAsync w { x with drops := x.drops + 1 }).record (.drop w e))

end Cue
