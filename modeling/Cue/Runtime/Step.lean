/-
# Cue.Runtime.Step — the goroutines of the dispatch core, and one system step

`loggerSend` is a logging call: the lock-free fast path against the published
threshold, `atomic.AddInt32(&sending, 1)`, the snapshot `cfg.get().registry`,
and the range loop that calls `Send` on every accepting entry, in any order
(`Choice.pick`), as Go's map iteration allows. `closeCollector`, the two
`Terminate`s, `asyncWorker.run` with `cleanup`, the goroutine of
`recoverCollector` (`dispose`, then `ReportRecovery`), and `terminateAsync` with
`terminateWorkers` follow `worker.go` and `logger.go` one synchronisation point
at a time: a lock taken or released, an atomic operation, a channel operation,
a call into a collector. Code between two such points touches only the
goroutine's own data and runs within one step.

`Sys.step` runs one goroutine one step, or starts a call from the application
(`Sys.call`); `Reachable` is every state a run from `Sys.init` reaches, under
every interleaving and every collector behaviour.
-/
import Cue.Runtime.Worker

namespace Cue

set_option autoImplicit false

/-- `logger.send`/`sendf` and `dispatchEvent`, by goroutine `g`. A panic in
the range loop unwinds through the deferred `atomic.AddInt32(&sending, -1)`. -/
def loggerSend (g : Nat) (s : Sys) (pc : Dispatch) (ch : Choice) :
    Option (Sys × Next Dispatch Unit) :=
  match pc with
  | .start level error body =>
      if s.cfg.threshold < level then some (s, .ret ())
      else
        let (e, s) := s.fresh level error body
        some (s, .cont (.add e))
  | .add e => some ({ s with sending := s.sending + 1 }, .cont (.load e))
  | .load e => some (s, .cont (.range e (s.cfg.registry.entries.map (·.2))))
  | .range _ [] => some ({ s with sending := s.sending - 1 }, .ret ())
  | .range e pending =>
      match ch with
      | .pick i =>
          match pending[i]? with
          | none => none
          | some entry =>
              let rest := pending.eraseIdx i
              if entry.accepts e.level then
                let s := s.record (.send entry.worker e)
                match s.workers[entry.worker]? with
                | some (.async x) =>
                    match asyncWorkerSend entry.worker e s x with
                    | some s => some (s, .cont (.range e rest))
                    | none => some ({ s with sending := s.sending - 1 }.record (.sendClosed entry.worker e), .crash)
                | some (.sync _) => some (s, .cont (.send e entry.worker .lock rest))
                | none => none
              else some (s, .cont (.range e rest))
      | _ => none
  | .send e w pc rest =>
      match syncWorkerSend g w e s pc ch with
      | some (s, .cont pc) => some (s, .cont (.send e w pc rest))
      | some (s, .ret ()) => some (s, .cont (.range e rest))
      | some (s, .crash) => some ({ s with sending := s.sending - 1 }, .crash)
      | none => none

/-- `closeCollector(c)` for worker `w`: when `c` is an `io.Closer`, `c.Close()`
and `internalLogger.Errorf(err, "Failed to close collector %s", c)`, a logging
call that returns at once when `err` is `nil`. A panic in `Close` is not
recovered. -/
def closeCollector (g w : Nat) (c : Collector) (s : Sys) (pc : CloseCollector) (ch : Choice) :
    Option (Sys × Next CloseCollector Unit) :=
  match pc with
  | .start =>
      if c.closer then
        match ch with
        | .outcome o =>
            let s := s.record (.close w o)
            match o with
            | .ok => some (s, .ret ())
            | .err err => some (s, .cont (.log (.start ERROR (some err) (.closeFailed c))))
            | .panic _ => some (s, .crash)
        | _ => none
      else some (s, .ret ())
  | .log pc =>
      match loggerSend g s pc ch with
      | some (s, .cont pc) => some (s, .cont (.log pc))
      | some (s, .ret ()) => some (s, .ret ())
      | some (s, .crash) => some (s, .crash)
      | none => none

/-- `syncWorker.Terminate(flush)`: take `w.mu`, `closeCollector`, then
`w.terminated = true` and release the mutex. -/
def syncWorkerTerminate (g w : Nat) (s : Sys) (pc : Terminate) (ch : Choice) :
    Option (Sys × Next Terminate Unit) :=
  match s.syncWorker? w, pc with
  | some x, .lock =>
      if x.mu = none then some (s.setSync w { x with mu := some g }, .cont (.close .start)) else none
  | some x, .close pc =>
      match closeCollector g w x.collector s pc ch with
      | some (s, .cont pc) => some (s, .cont (.close pc))
      | some (s, .ret ()) =>
          (s.syncWorker? w).map fun x =>
            ((s.setSync w { x with terminated := true, mu := none }).record (.terminated w), .ret ())
      | some (s, .crash) => some (s, .crash)
      | none => none
  | _, _ => none

/-- `asyncWorker.Terminate(flush)`: `close(w.queue)`, `w.terminate <- flush`,
`close(w.terminate)`, `<-w.finished`. Closing a closed channel, or sending on
one, panics. -/
def asyncWorkerTerminate (w : Nat) (flush : Bool) (s : Sys) (pc : Terminate) :
    Option (Sys × Next Terminate Unit) :=
  match s.asyncWorker? w, pc with
  | some x, .closeQueue =>
      if x.queueClosed then some (s, .crash)
      else some (s.setAsync w { x with queueClosed := true }, .cont .send)
  | some x, .send =>
      if x.terminateClosed then some (s, .crash)
      else if x.terminate = none then
        some (s.setAsync w { x with terminate := some flush }, .cont .closeTerminate)
      else none
  | some x, .closeTerminate =>
      if x.terminateClosed then some (s, .crash)
      else some (s.setAsync w { x with terminateClosed := true }, .cont .wait)
  | some x, .wait => if x.finished then some (s.record (.terminated w), .ret ()) else none
  | _, _ => none

/-- The first phase of `w.Terminate(flush)`, by the worker's kind. -/
def Worker.terminateStart : Worker → Terminate
  | .sync _ => .lock
  | .async _ => .closeQueue

/-- `worker.Terminate(flush)`, dispatched on the worker's kind. -/
def terminateWorker (g w : Nat) (flush : Bool) (s : Sys) (pc : Terminate) (ch : Choice) :
    Option (Sys × Next Terminate Unit) :=
  match s.workers[w]? with
  | some (.sync _) => syncWorkerTerminate g w s pc ch
  | some (.async _) => asyncWorkerTerminate w flush s pc
  | none => none

/-- What `run` does after `handleDrops`: `if event != nil { w.sendEvent(event) }`. -/
def Run.afterDrops : Option Event → Run
  | some e => .sendEvent e SendEvent.start
  | none => .select

/-- `asyncWorker.run()` for worker `w`, by its goroutine `g`: the `select`
between the queue and the `terminate` channel, `handleDrops` before each event,
and `cleanup(flush)` (drain the closed queue when flushing, `closeCollector`,
`w.queue = nil`) before `close(w.finished)`. -/
def asyncWorkerRun (g w : Nat) (s : Sys) (pc : Run) (ch : Choice) : Option (Sys × Next Run Unit) :=
  match s.asyncWorker? w with
  | none => none
  | some x =>
  match pc with
  | .select =>
      match ch, x.queue, x.terminate with
      | .queue, e :: rest, _ => some (s.setAsync w { x with queue := rest }, .cont (.handleDrops (some e)))
      | .queue, [], _ => if x.queueClosed then some (s, .cont (.handleDrops none)) else none
      | .terminate, _, some flush =>
          some (s.setAsync w { x with terminate := none }, .cont (if flush then .drain else .close .start))
      | .terminate, _, none => if x.terminateClosed then some (s, .cont (.close .start)) else none
      | _, _, _ => none
  | .handleDrops e =>
      if x.lastdrops < x.drops then some (s, .cont (.dropsDegrade e x.drops .setTrue))
      else some (s, .cont (Run.afterDrops e))
  | .dropsDegrade e drops pc =>
      match handleDegradation w x.collector .drops drops s pc ch with
      | some (s, .cont pc) => some (s, .cont (.dropsDegrade e drops pc))
      | some (s, .ret ()) =>
          (s.asyncWorker? w).map fun x => (s.setAsync w { x with lastdrops := drops }, .cont (Run.afterDrops e))
      | some (s, .crash) => some (s, .crash)
      | none => none
  | .sendEvent e pc =>
      match asyncWorkerSendEvent w x.collector e s pc ch with
      | some (s, .cont pc) => some (s, .cont (.sendEvent e pc))
      | some (s, .ret ()) => some (s, .cont .select)
      | some (s, .crash) => some (s, .crash)
      | none => none
  | .drain =>
      match x.queue with
      | e :: rest => some (s.setAsync w { x with queue := rest }, .cont (.drainSend e SendEvent.start))
      | [] => if x.queueClosed then some (s, .cont (.close .start)) else none
  | .drainSend e pc =>
      match asyncWorkerSendEvent w x.collector e s pc ch with
      | some (s, .cont pc) => some (s, .cont (.drainSend e pc))
      | some (s, .ret ()) => some (s, .cont .drain)
      | some (s, .crash) => some (s, .crash)
      | none => none
  | .close pc =>
      match closeCollector g w x.collector s pc ch with
      | some (s, .cont pc) => some (s, .cont (.close pc))
      | some (s, .ret ()) =>
          (s.asyncWorker? w).map fun x => (s.setAsync w { x with queueNil := true }, .cont .finish)
      | some (s, .crash) => some (s, .crash)
      | none => none
  | .finish => some (s.setAsync w { x with finished := true }, .ret ())

/-- `ReportRecovery(cause, "Recovered from collector panic. Collector has been
disposed: …")`: a FATAL logging call carrying the cause as its error. -/
def Dispose.reportStart (c : Collector) (cause : Nat) : Dispose :=
  .report (.start FATAL (some (.code cause)) (.disposed c))

/-- The goroutine `recoverCollector(c)` starts after recovering `cause`:
`dispose(c)` (under `cfg.mu`, remove `c`'s entry, publish, and
`Terminate(false)` its worker), then `ReportRecovery`. -/
def dispose (g : Nat) (c : Collector) (cause : Nat) (s : Sys) (pc : Dispose) (ch : Choice) :
    Option (Sys × Next Dispose Unit) :=
  match pc with
  | .lock =>
      if s.locked = none then
        match s.cfg.dispose c with
        | none => some (s, .cont (Dispose.reportStart c cause))
        | some (cfg, entry) =>
            (s.workers[entry.worker]?).map fun x =>
              (({ s with locked := some g, cfg }).record (.terminate entry.worker false),
                .cont (.terminate entry.worker x.terminateStart))
      else none
  | .terminate w pc =>
      match terminateWorker g w false s pc ch with
      | some (s, .cont pc) => some (s, .cont (.terminate w pc))
      | some (s, .ret ()) => some (s, .cont .unlock)
      | some (s, .crash) => some (s, .crash)
      | none => none
  | .unlock => some ({ s with locked := none }, .cont (Dispose.reportStart c cause))
  | .report pc =>
      match loggerSend g s pc ch with
      | some (s, .cont pc) => some (s, .cont (.report pc))
      | some (s, .ret ()) => some (s, .ret ())
      | some (s, .crash) => some (s, .crash)
      | none => none

/-- `terminateWorkers`' loop: `go worker.Terminate(true)` for every entry of the
replaced registry; the new goroutines' indices. -/
def spawnTerminators (s : Sys) : List Entry → Sys × List Nat
  | [] => (s, [])
  | e :: rest =>
      let x := ((s.workers[e.worker]?).map Worker.terminateStart).getD .lock
      let s' := (s.record (.terminate e.worker true)).spawn (.terminator e.worker x)
      let (s'', gids) := spawnTerminators s' rest
      (s'', s.gs.length :: gids)

/-- `terminateAsync(result)` for the `r`-th `Close`: under `cfg.mu`, publish
`newConfig()`; wait until `sending` is zero; terminate the replaced registry's
workers in parallel and wait for them; send `nil` on `result`; unlock. -/
def terminateAsync (g r : Nat) (s : Sys) (pc : TerminateAsync) : Option (Sys × Next TerminateAsync Unit) :=
  match pc with
  | .lock =>
      if s.locked = none then
        let reg : List Entry := s.cfg.registry.entries.map (·.2)
        some (({ s with locked := some g, cfg := newConfig }).record (.reset r (reg.map Entry.worker)),
          .cont (.wait reg))
      else none
  | .wait reg =>
      if s.sending = 0 then
        let (s, gids) := spawnTerminators s reg
        some (s, .cont (.group reg gids))
      else none
  | .group _ gids => if gids.all fun i => s.gs[i]? = some .done then some (s, .cont .result) else none
  | .result => some ({ s with results := s.results.set r true }, .cont .unlock)
  | .unlock => some ({ s with locked := none }, .ret ())

/-- A goroutine's position after one step of its function: the function goes on,
or the goroutine ends, or it crashes. -/
def Next.toG {α : Type} (k : α → G) : Sys × Next α Unit → Sys × G
  | (s, .cont pc) => (s, k pc)
  | (s, .ret ()) => (s, .done)
  | (s, .crash) => (s, .crashed)

/-- One step of goroutine `g`, at position `x`. -/
def G.step (g : Nat) (s : Sys) (x : G) (ch : Choice) : Option (Sys × G) :=
  match x with
  | .log pc => (loggerSend g s pc ch).map (Next.toG .log)
  | .run w pc => (asyncWorkerRun g w s pc ch).map (Next.toG (.run w))
  | .dispose c cause pc => (Cue.dispose g c cause s pc ch).map (Next.toG (.dispose c cause))
  | .terminateAsync r pc => (Cue.terminateAsync g r s pc).map (Next.toG (.terminateAsync r))
  | .terminator w pc => (terminateWorker g w true s pc ch).map (Next.toG (.terminator w))
  | .close r =>
      match ch with
      | .timeout => some (s.record (.closeReturned r false), .done)
      | _ => if s.results[r]? = some true then some (s.record (.closeReturned r true), .done) else none
  | .done => none
  | .crashed => none

/-- `newWorker(c, bufsize)` appended to the worker table; an `asyncWorker` starts
its `run` goroutine. -/
def Sys.addWorker (s : Sys) (c : Collector) (bufsize : Int) : Sys :=
  let w := s.workers.length
  let s' := { s with workers := s.workers ++ [Worker.new c bufsize] }
  if bufsize = 0 then s' else s'.spawn (.run w .select)

/-- A call from the application. A logging method starts a logging call; the
registry operations run under `cfg.mu`, in one step, once it is free; `Close`
starts `terminateAsync` and waits in its `select`. -/
def Sys.call (s : Sys) : Call → Option Sys
  | .debug => some (s.spawn (.log (.start DEBUG none .message)))
  | .info => some (s.spawn (.log (.start INFO none .message)))
  | .warn => some (s.spawn (.log (.start WARN none .message)))
  | .error err => some (s.spawn (.log (.start ERROR (some err) .message)))
  | .fatal cause => some (s.spawn (.log (.start FATAL (some cause) .message)))
  | .collect threshold bufsize c =>
      if s.locked = none then
        match s.cfg.collect c threshold bufsize s.workers.length with
        | some cfg => some ({ s with cfg }.addWorker c bufsize)
        | none => some s
      else none
  | .setLevel threshold c =>
      if s.locked = none then some { s with cfg := (s.cfg.setLevel c threshold).getD s.cfg } else none
  | .setFrames frames errorFrames =>
      if s.locked = none then some { s with cfg := s.cfg.setFrames frames errorFrames } else none
  | .close =>
      let r := s.results.length
      some ((({ s with results := s.results ++ [false] }).spawn (.terminateAsync r .lock)).spawn (.close r))

/-- One step of the system. -/
def Sys.step (s : Sys) : Action → Option Sys
  | .call c => s.call c
  | .run g ch =>
      match s.gs[g]? with
      | some x => (G.step g s x ch).map fun (s', x') => s'.setG g x'
      | none => none

/-- A run: the actions one after another, `none` as soon as one is not enabled. -/
def Sys.run : Sys → List Action → Option Sys
  | s, [] => some s
  | s, a :: as =>
      match s.step a with
      | some s' => s'.run as
      | none => none

/-- The states some run from `Sys.init` reaches. -/
inductive Reachable : Sys → Prop
  | init : Reachable Sys.init
  | step {s s' : Sys} (a : Action) : Reachable s → s.step a = some s' → Reachable s'

theorem Reachable.run {s s' : Sys} (reach : Reachable s) :
    ∀ {as : List Action}, s.run as = some s' → Reachable s'
  | [], h => by cases h; exact reach
  | a :: as, h => by
      unfold Sys.run at h
      split at h
      · exact Reachable.run (.step a reach ‹_›) h
      · cases h

/-- A property of the state an explicit run reaches: the form every
reachability counterexample takes, its run evaluated by `decide`. -/
theorem exists_reachable_of_run {p : Sys → Prop} [DecidablePred p] (as : List Action)
    (h : (Sys.init.run as).any (fun s => decide (p s)) = true) : ∃ s, Reachable s ∧ p s := by
  cases e : Sys.init.run as with
  | none => rw [e] at h; cases h
  | some s => rw [e] at h; exact ⟨s, Reachable.init.run e, of_decide_eq_true h⟩

end Cue
