/-
# Cue.Runtime.State — goroutines, workers and the shared state

The dispatch core (`logger.go`, `config.go`, `worker.go`) runs as goroutines
that share the published config, `cfg.mu`, the in-flight counter `sending`, and
the workers' mutexes and channels. This module gives the data of that system.

A goroutine's position in the Go code is a value of nested phase types, one
per function, each holding the phase of the function it is calling: a logging
goroutine inside `syncWorker.Send` inside `dispatchEvent` is
`.log (.send e w (.sendEvent (.retries …)) rest)`. Only positions the code can
be in are representable.

`Sys` is the shared state. Its `trace` is the history of what the collectors
and workers observe (`Obs`): every `Send`, every `Collect` and its outcome,
every `Close`, and every `Terminate` with its end; the claims about orders and
counts of such calls are stated over it.
-/
import Cue.Config

namespace Cue

set_option autoImplicit false

/-! ## Events and observations -/

/-- An error value: `errDrops`, or one returned by a collector or carried by a
panic. -/
inductive Err
  | drops
  | code (n : Nat)
  deriving DecidableEq, Repr

/-- What an event's message says, by the call that built it. -/
inductive Body
  /-- An application's logging call. -/
  | message
  /-- `handleDegradation`: "Collector has entered a degraded state: %s". -/
  | degraded (c : Collector) (drops : UInt64)
  /-- `handleDegradation`: "Collector has recovered from a degraded stated: %s". -/
  | recovered (c : Collector)
  /-- `ensureErrorSent`: "The current collector, %s, has been in a degraded state since …". -/
  | stillDegraded (c : Collector) (attempt : Nat) (drops : UInt64)
  /-- `recoverCollector`: "Recovered from collector panic. Collector has been disposed: %s". -/
  | disposed (c : Collector)
  /-- `closeCollector`: "Failed to close collector %s". -/
  | closeFailed (c : Collector)
  deriving DecidableEq, Repr

/-- An `Event`; the identity stands for the pointer that every worker receives. -/
structure Event where
  id : Nat
  level : Nat
  error : Option Err
  body : Body
  deriving DecidableEq, Repr

/-- How a call into a collector (`Collect` or `Close`) returns. -/
inductive Outcome
  | ok
  | err (e : Err)
  | panic (cause : Nat)
  deriving DecidableEq, Repr

/-- What a step shows of the collectors and workers; `w` is a worker's index. -/
inductive Obs
  /-- `dispatchEvent` calls `worker.Send(e)`. -/
  | send (w : Nat) (e : Event)
  | enqueue (w : Nat) (e : Event)
  | drop (w : Nat) (e : Event)
  /-- `asyncWorker.Send` on a closed queue: the sending goroutine panics. -/
  | sendClosed (w : Nat) (e : Event)
  /-- `c.Collect(e)` is entered through worker `w`. -/
  | collect (w : Nat) (e : Event)
  | collected (w : Nat) (e : Event) (o : Outcome)
  /-- `closeCollector` calls the collector's `Close`. -/
  | close (w : Nat) (o : Outcome)
  | terminate (w : Nat) (flush : Bool)
  | terminated (w : Nat)
  /-- The goroutine of the `r`-th `Close` publishes `newConfig()` in place of a
  registry with these workers. -/
  | reset (r : Nat) (workers : List Nat)
  /-- The `r`-th call of `Close` returns `nil` (`true`) or its timeout error. -/
  | closeReturned (r : Nat) (ok : Bool)
  deriving DecidableEq, Repr

/-! ## Workers -/

/-- `syncWorker`; `mu` is the goroutine holding the mutex. -/
structure SyncWorker where
  collector : Collector
  mu : Option Nat
  terminated : Bool
  drops : UInt64
  deriving DecidableEq, Repr

/-- `asyncWorker`, with its three channels: the queue (closed, or set to `nil`
by `cleanup`), the one-slot `terminate` channel, and `finished`. -/
structure AsyncWorker where
  collector : Collector
  bufsize : Nat
  queue : List Event
  queueClosed : Bool
  queueNil : Bool
  terminate : Option Bool
  terminateClosed : Bool
  finished : Bool
  drops : UInt64
  lastdrops : UInt64
  deriving DecidableEq, Repr

inductive Worker
  | sync (w : SyncWorker)
  | async (w : AsyncWorker)
  deriving DecidableEq, Repr

/-- `newWorker(c, bufsize)`'s worker, before its goroutine starts. -/
def Worker.new (c : Collector) (bufsize : Int) : Worker :=
  if bufsize = 0 then .sync ⟨c, none, false, 0⟩
  else .async ⟨c, bufsize.toNat, [], false, false, none, false, false, 0, 0⟩

def Worker.collector : Worker → Collector
  | .sync w => w.collector
  | .async w => w.collector

/-! ## Where a goroutine is -/

/-- `sendWithRetries(c, event, retries)`: the loop's `attempt`, the first error,
and whether `c.Collect(event)` is running. -/
structure Retries where
  attempt : Nat
  collectorErr : Option Err
  collecting : Bool
  deriving DecidableEq, Repr

/-- `ensureErrorSent(c, err, drops)`: the attempt counter, and the synthetic
event while `c.Collect` runs on it. -/
structure Ensure where
  attempt : Nat
  event : Option Event
  deriving DecidableEq, Repr

/-- `handleDegradation(c, err, drops)`. -/
inductive Degrade
  | setTrue
  | ensure (pc : Ensure)
  | setFalse
  deriving DecidableEq, Repr

/-- A worker's `sendEvent(event)`. -/
inductive SendEvent
  | retries (pc : Retries)
  | addDrops (err : Err)
  | degrade (err : Err) (drops : UInt64) (pc : Degrade)
  deriving DecidableEq, Repr

/-- `syncWorker.Send(e)`. -/
inductive SyncSend
  | lock
  | sendEvent (pc : SendEvent)
  | unlock
  deriving DecidableEq, Repr

/-- `logger.send`/`sendf` and the `dispatchEvent` they end in: the fast path,
the increment of `sending`, the snapshot, and the range loop over the entries
not yet visited (`pending`). -/
inductive Dispatch
  | start (level : Nat) (error : Option Err) (body : Body)
  | add (e : Event)
  | load (e : Event)
  | range (e : Event) (pending : List Entry)
  | send (e : Event) (w : Nat) (pc : SyncSend) (pending : List Entry)
  deriving DecidableEq, Repr

/-- `closeCollector(c)`, with the logging call it makes when `Close` fails. -/
inductive CloseCollector
  | start
  | log (pc : Dispatch)
  deriving DecidableEq, Repr

/-- `worker.Terminate(flush)`: `lock` and `close` for a `syncWorker`, the four
channel operations for an `asyncWorker`. -/
inductive Terminate
  | lock
  | close (pc : CloseCollector)
  | closeQueue
  | send
  | closeTerminate
  | wait
  deriving DecidableEq, Repr

/-- `asyncWorker.run()`, with `cleanup(flush)`. -/
inductive Run
  | select
  | handleDrops (e : Option Event)
  | dropsDegrade (e : Option Event) (drops : UInt64) (pc : Degrade)
  | sendEvent (e : Event) (pc : SendEvent)
  | drain
  | drainSend (e : Event) (pc : SendEvent)
  | close (pc : CloseCollector)
  | finish
  deriving DecidableEq, Repr

/-- The goroutine `recoverCollector` starts: `dispose(c)`, then
`ReportRecovery(cause, …)`. -/
inductive Dispose
  | lock
  | terminate (w : Nat) (pc : Terminate)
  | unlock
  | report (pc : Dispatch)
  deriving DecidableEq, Repr

/-- `terminateAsync(result)` with `terminateWorkers`: the replaced registry's
entries, then the goroutines terminating them. -/
inductive TerminateAsync
  | lock
  | wait (reg : List Entry)
  | group (reg : List Entry) (gs : List Nat)
  | result
  | unlock
  deriving DecidableEq, Repr

/-- A goroutine. -/
inductive G
  /-- A logging call: the application's, or a notification the package sends. -/
  | log (pc : Dispatch)
  /-- The goroutine `newAsyncWorker` starts for worker `w`. -/
  | run (w : Nat) (pc : Run)
  | dispose (c : Collector) (cause : Nat) (pc : Dispose)
  /-- The goroutine the `r`-th `Close` starts. -/
  | terminateAsync (r : Nat) (pc : TerminateAsync)
  /-- A goroutine of `terminateWorkers`: `worker.Terminate(true)`, then `wg.Done()`. -/
  | terminator (w : Nat) (pc : Terminate)
  /-- The caller of the `r`-th `Close`, in its `select`. -/
  | close (r : Nat)
  | done
  | crashed
  deriving DecidableEq, Repr

/-! ## The shared state -/

/-- The shared state: the published config, the holder of `cfg.mu`, `sending`,
the workers, the goroutines (a goroutine's index is its identity), the `Close`
result channels, the next event identity, and the trace. -/
structure Sys where
  cfg : Config
  locked : Option Nat
  sending : Nat
  workers : List Worker
  gs : List G
  results : List Bool
  nextEvent : Nat
  trace : List Obs

namespace Sys

/-- The state after `init()`: `cfg.set(newConfig())`. -/
def init : Sys := ⟨newConfig, none, 0, [], [], [], 0, []⟩

def record (s : Sys) (o : Obs) : Sys := { s with trace := s.trace ++ [o] }

/-- A `go` statement. -/
def spawn (s : Sys) (x : G) : Sys := { s with gs := s.gs ++ [x] }

/-- A new event (`newEvent`/`newEventf`) with the next identity. -/
def fresh (s : Sys) (level : Nat) (error : Option Err) (body : Body) : Event × Sys :=
  (⟨s.nextEvent, level, error, body⟩, { s with nextEvent := s.nextEvent + 1 })

def syncWorker? (s : Sys) (w : Nat) : Option SyncWorker :=
  match s.workers[w]? with
  | some (.sync x) => some x
  | _ => none

def asyncWorker? (s : Sys) (w : Nat) : Option AsyncWorker :=
  match s.workers[w]? with
  | some (.async x) => some x
  | _ => none

def setSync (s : Sys) (w : Nat) (x : SyncWorker) : Sys :=
  { s with workers := s.workers.set w (.sync x) }

def setAsync (s : Sys) (w : Nat) (x : AsyncWorker) : Sys :=
  { s with workers := s.workers.set w (.async x) }

def setG (s : Sys) (g : Nat) (x : G) : Sys := { s with gs := s.gs.set g x }

/-- `setDegraded(c, degraded)`, which takes `cfg.mu` and releases it before it
returns: enabled only while the lock is free. -/
def setDegraded (s : Sys) (c : Collector) (degraded : Bool) : Option Sys :=
  if s.locked = none then some { s with cfg := (s.cfg.setDegraded c degraded).getD s.cfg }
  else none

end Sys

/-- What one step of a function does for its caller: it goes on at a new
position, returns, or panics and takes the goroutine down. -/
inductive Next (α β : Type)
  | cont (pc : α)
  | ret (r : β)
  | crash

/-- What the scheduler decides at a step: how a collector call returns, which
entry the range loop visits next, which `select` case fires. -/
inductive Choice
  | go
  | outcome (o : Outcome)
  | pick (i : Nat)
  | queue
  | terminate
  | timeout
  deriving DecidableEq, Repr

/-- A call into the package from the application. The logging methods stand
after their nil checks: `Error`/`Errorf` with a non-nil error, and `Panic`,
`Panicf`, `Recover` or `ReportRecovery` with a non-nil cause. -/
inductive Call
  | debug
  | info
  | warn
  | error (err : Err)
  | fatal (cause : Err)
  | collect (threshold : Nat) (bufsize : Int) (c : Collector)
  | setLevel (threshold : Nat) (c : Collector)
  | setFrames (frames errorFrames : Int)
  | close
  deriving DecidableEq, Repr

/-- A step of the whole system: a call from the application, or a step of
goroutine `g`. -/
inductive Action
  | call (c : Call)
  | run (g : Nat) (ch : Choice)
  deriving DecidableEq, Repr

end Cue
