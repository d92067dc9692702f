/-
# Cue.Runtime.Carries — ERROR and FATAL events carry their error

The package builds events in two places only: a logging call, after its
threshold check (`newEvent`/`newEventf` in `logger.send`, `sendf`,
`sendPanic`, `sendPanicf`, `sendRecovery`), and `ensureErrorSent`, which builds
its ERROR event from the error it was given. Every logging call of the package
itself passes a non-`nil` error with ERROR or FATAL: `handleDegradation`'s
notice, `closeCollector`'s `Errorf` (after `Errorf`'s own `nil` check),
`recoverCollector`'s `ReportRecovery`; the application's `Error`, `Errorf`,
`Panic`, `Panicf`, `Recover` and `ReportRecovery` reach the runtime only past
their `nil` checks (`Call`), and the panic calls put the cause in `Error`.

`Sys.Carries` says that every event the system holds carries an error when it
is severe: those in a goroutine's phase, in an async worker's queue, and in the
trace. Each function of the runtime model keeps it (one `_carries` lemma per
function, citing its callees' lemmas), so every reachable state has it:

* `reachable_carries` — the invariant, over every interleaving and every
  collector behaviour;
* `severe_events_carry_error` — every ERROR or FATAL event a worker is handed
  (`worker.Send`), a collector's `Collect` receives, or an async queue holds,
  has a non-`nil` `Error`.
-/
import Cue.Runtime.Frame

namespace Cue

set_option autoImplicit false

/-! ## Events that carry their error -/

/-- The levels whose events must carry an error: ERROR and FATAL. -/
def Severe (level : Nat) : Prop := level = ERROR ∨ level = FATAL

instance : DecidablePred Severe := fun level => inferInstanceAs (Decidable (level = ERROR ∨ level = FATAL))

/-- An event with a non-`nil` `Error` whenever its level is severe. -/
def Event.Carries (e : Event) : Prop := Severe e.level → e.error ≠ none

theorem Event.carries_some {e : Event} (he : e.Carries) : ∀ x ∈ some e, x.Carries :=
  fun _ h => Option.some.inj h ▸ he

theorem Event.carries_none : ∀ x ∈ (none : Option Event), x.Carries :=
  fun _ h => Option.noConfusion h

/-! ## The events each phase holds -/

def Ensure.Carries (pc : Ensure) : Prop := ∀ e ∈ pc.event, e.Carries

def Degrade.Carries : Degrade → Prop
  | .ensure pc => pc.Carries
  | _ => True

def SendEvent.Carries : SendEvent → Prop
  | .degrade _ _ pc => pc.Carries
  | _ => True

def SyncSend.Carries : SyncSend → Prop
  | .sendEvent pc => pc.Carries
  | _ => True

/-- A logging call: before its event exists, the level and error it will be
built from. -/
def Dispatch.Carries : Dispatch → Prop
  | .start level error _ => Severe level → error ≠ none
  | .add e | .load e | .range e _ => e.Carries
  | .send e _ pc _ => e.Carries ∧ pc.Carries

def CloseCollector.Carries : CloseCollector → Prop
  | .start => True
  | .log pc => pc.Carries

def Terminate.Carries : Terminate → Prop
  | .close pc => pc.Carries
  | _ => True

def Run.Carries : Run → Prop
  | .handleDrops e => ∀ x ∈ e, x.Carries
  | .dropsDegrade e _ pc => (∀ x ∈ e, x.Carries) ∧ pc.Carries
  | .sendEvent e pc | .drainSend e pc => e.Carries ∧ pc.Carries
  | .close pc => pc.Carries
  | _ => True

def Dispose.Carries : Dispose → Prop
  | .terminate _ pc => pc.Carries
  | .report pc => pc.Carries
  | _ => True

def G.Carries : G → Prop
  | .log pc => pc.Carries
  | .run _ pc => pc.Carries
  | .dispose _ _ pc => pc.Carries
  | .terminator _ pc => pc.Carries
  | _ => True

def Obs.Carries : Obs → Prop
  | .send _ e | .enqueue _ e | .drop _ e | .sendClosed _ e | .collect _ e | .collected _ e _ => e.Carries
  | _ => True

/-- What a step of a function leaves for its next step. -/
def Next.Holds {α β : Type} (P : α → Prop) : Next α β → Prop
  | .cont pc => P pc
  | _ => True

theorem Run.afterDrops_carries {e : Option Event} (he : ∀ x ∈ e, x.Carries) : (Run.afterDrops e).Carries := by
  cases e with
  | some e => exact ⟨he e rfl, trivial⟩
  | none => trivial

theorem Worker.terminateStart_carries (x : Worker) : x.terminateStart.Carries := by
  cases x <;> trivial

/-! ## The invariant, and the state updates that keep it -/

/-- Every event the system holds carries its error: in a goroutine's phase, in
an async worker's queue, and in the trace. -/
structure Sys.Carries (s : Sys) : Prop where
  gs : ∀ x ∈ s.gs, x.Carries
  queues : ∀ x, Worker.async x ∈ s.workers → ∀ e ∈ x.queue, e.Carries
  trace : ∀ o ∈ s.trace, o.Carries

namespace Sys.Carries

variable {s t : Sys}

/-- The fields other than the goroutines, the workers and the trace are free. -/
theorem update (hs : s.Carries) (cfg : Config) (locked : Option Nat) (sending : Nat) (results : List Bool)
    (nextEvent : Nat) : { s with cfg, locked, sending, results, nextEvent }.Carries :=
  ⟨hs.gs, hs.queues, hs.trace⟩

theorem record (hs : s.Carries) (o : Obs) (ho : o.Carries) : (s.record o).Carries :=
  ⟨hs.gs, hs.queues, fun o' h => (List.mem_append.1 h).elim (hs.trace o') fun h => List.mem_singleton.1 h ▸ ho⟩

theorem spawn (hs : s.Carries) (x : G) (hx : x.Carries) : (s.spawn x).Carries :=
  ⟨fun y h => (List.mem_append.1 h).elim (hs.gs y) fun h => List.mem_singleton.1 h ▸ hx, hs.queues, hs.trace⟩

theorem setG (hs : s.Carries) (g : Nat) {x : G} (hx : x.Carries) : (s.setG g x).Carries :=
  ⟨fun y h => (List.mem_or_eq_of_mem_set h).elim (hs.gs y) fun h => h ▸ hx, hs.queues, hs.trace⟩

theorem queue (hs : s.Carries) {w : Nat} {x : AsyncWorker} (hx : s.asyncWorker? w = some x) :
    ∀ e ∈ x.queue, e.Carries :=
  hs.queues x (List.getElem?_mem (workers_of_asyncWorker? hx))

/-- Replacing a worker keeps the invariant when the new worker's queue does. -/
theorem setWorker (hs : s.Carries) (w : Nat) {y : Worker}
    (hy : ∀ x, y = .async x → ∀ e ∈ x.queue, e.Carries) : { s with workers := s.workers.set w y }.Carries :=
  ⟨hs.gs, fun x h => (List.mem_or_eq_of_mem_set h).elim (hs.queues x) fun h => hy x h.symm, hs.trace⟩

theorem setSync (hs : s.Carries) (w : Nat) (x : SyncWorker) : (s.setSync w x).Carries :=
  hs.setWorker w fun _ h => Worker.noConfusion h

theorem setAsync (hs : s.Carries) (w : Nat) {x : AsyncWorker} (hq : ∀ e ∈ x.queue, e.Carries) :
    (s.setAsync w x).Carries :=
  hs.setWorker w fun _ h => Worker.async.inj h ▸ hq

/-- An update of an async worker that leaves its queue as it was. -/
theorem setAsync_of (hs : s.Carries) {w : Nat} {x : AsyncWorker} (hx : s.asyncWorker? w = some x)
    (y : AsyncWorker) (hq : y.queue = x.queue) : (s.setAsync w y).Carries :=
  hs.setAsync w (hq ▸ hs.queue hx)

theorem setDegraded (hs : s.Carries) {c : Collector} {b : Bool} (h : s.setDegraded c b = some t) :
    t.Carries := by
  unfold Sys.setDegraded at h
  split_ifs at h
  cases h
  exact hs.update _ _ _ _ _

/-- A new worker's queue is empty. -/
theorem addWorker (hs : s.Carries) (c : Collector) (bufsize : Int) : (s.addWorker c bufsize).Carries := by
  have hw : { s with workers := s.workers ++ [Worker.new c bufsize] }.Carries := by
    refine ⟨hs.gs, fun x hx => (List.mem_append.1 hx).elim (hs.queues x) fun h => ?_, hs.trace⟩
    rw [List.mem_singleton, Worker.new] at h
    split_ifs at h; cases h
    exact fun _ h => absurd h (List.not_mem_nil _)
  unfold Sys.addWorker
  split_ifs
  exacts [hw, hw.spawn (.run _ .select) trivial]

end Sys.Carries

/-! ## Delivery -/

open Sys

variable {s s' : Sys} {g w : Nat} {ch : Choice} {c : Collector} {e : Event}

theorem sendWithRetries_carries {k : Nat} {pc : Retries} {r : Next Retries (Option Err)}
    (hs : s.Carries) (he : e.Carries) (h : sendWithRetries w c e k s pc ch = some (s', r)) : s'.Carries := by
  unfold sendWithRetries at h
  dsimp only at h
  split at h
  · split at h
    · split at h
      · cases h; exact hs.record (.collected w e _) he
      · split at h <;> cases h <;> exact hs.record (.collected w e _) he
      · cases h; exact (hs.record (.collected w e _) he).spawn (.dispose c _ .lock) trivial
    · cases h
  · cases h; exact hs.record (.collect w e) he

/-- `ensureErrorSent` builds its ERROR event from the error it was given. -/
theorem ensureErrorSent_carries {err : Err} {drops : UInt64} {pc : Ensure}
    {r : Next Ensure (Option Nat)} (hs : s.Carries) (hpc : pc.Carries)
    (h : ensureErrorSent w c err drops s pc ch = some (s', r)) : s'.Carries ∧ r.Holds Ensure.Carries := by
  unfold ensureErrorSent at h
  dsimp only [Sys.fresh] at h
  split at h
  · cases h
    have he : Event.Carries ⟨s.nextEvent, ERROR, some err, .stillDegraded c (pc.attempt + 1) drops⟩ :=
      fun _ => nofun
    exact ⟨(hs.update _ _ _ _ _).record (.collect w _) he, Event.carries_some he⟩
  · rename_i e hev
    have he : e.Carries := hpc e hev
    split at h
    · split at h <;> cases h <;> refine ⟨hs.record (.collected w e _) he, ?_⟩
      exacts [trivial, Event.carries_none, trivial]
    · cases h

/-- `handleDegradation`'s ERROR notice carries the error; its WARN notice is not
severe. -/
theorem handleDegradation_carries {err : Err} {drops : UInt64} {pc : Degrade} {r : Next Degrade Unit}
    (hs : s.Carries) (hpc : pc.Carries) (h : handleDegradation w c err drops s pc ch = some (s', r)) :
    s'.Carries ∧ r.Holds Degrade.Carries := by
  unfold handleDegradation at h
  split at h
  · obtain ⟨t, ht, h⟩ := Option.map_eq_some'.1 h
    cases h; exact ⟨(hs.setDegraded ht).spawn (.log (.start ERROR (some err) (.degraded c drops))) fun _ => nofun, Event.carries_none⟩
  · split at h <;> cases h
    · exact ensureErrorSent_carries hs hpc ‹_›
    · exact ⟨(ensureErrorSent_carries hs hpc ‹_›).1, trivial⟩
    · exact ⟨(ensureErrorSent_carries hs hpc ‹_›).1.spawn (.dispose c _ .lock) trivial, trivial⟩
    · exact ⟨(ensureErrorSent_carries hs hpc ‹_›).1, trivial⟩
  · obtain ⟨t, ht, h⟩ := Option.map_eq_some'.1 h
    cases h; exact ⟨(hs.setDegraded ht).spawn (.log (.start WARN none (.recovered c))) fun h => absurd h (by decide), trivial⟩

theorem syncWorkerSendEvent_carries {pc : SendEvent} {r : Next SendEvent Unit} (hs : s.Carries)
    (he : e.Carries) (hpc : pc.Carries) (h : syncWorkerSendEvent w c e s pc ch = some (s', r)) :
    s'.Carries ∧ r.Holds SendEvent.Carries := by
  unfold syncWorkerSendEvent at h
  split at h
  · split at h <;> cases h <;> exact ⟨sendWithRetries_carries hs he ‹_›, trivial⟩
  · obtain ⟨x, -, h⟩ := Option.map_eq_some'.1 h
    cases h; exact ⟨hs.setSync _ _, trivial⟩
  · split at h <;> cases h
    · exact handleDegradation_carries hs hpc ‹_›
    · exact ⟨(handleDegradation_carries hs hpc ‹_›).1, trivial⟩
    · exact ⟨(handleDegradation_carries hs hpc ‹_›).1, trivial⟩

theorem asyncWorkerSendEvent_carries {pc : SendEvent} {r : Next SendEvent Unit} (hs : s.Carries)
    (he : e.Carries) (hpc : pc.Carries) (h : asyncWorkerSendEvent w c e s pc ch = some (s', r)) :
    s'.Carries ∧ r.Holds SendEvent.Carries := by
  unfold asyncWorkerSendEvent at h
  split at h
  · split at h <;> cases h <;> exact ⟨sendWithRetries_carries hs he ‹_›, trivial⟩
  · obtain ⟨x, hx, h⟩ := Option.map_eq_some'.1 h
    cases h; exact ⟨hs.setAsync_of hx _ rfl, trivial⟩
  · split at h
    · cases h; exact handleDegradation_carries hs hpc ‹_›
    · obtain ⟨x, hx, h⟩ := Option.map_eq_some'.1 h
      have ht := (handleDegradation_carries hs hpc ‹_›).1
      cases h; exact ⟨ht.setAsync_of hx _ rfl, trivial⟩
    · cases h; exact ⟨(handleDegradation_carries hs hpc ‹_›).1, trivial⟩
    · cases h

theorem syncWorkerSend_carries {pc : SyncSend} {r : Next SyncSend Unit} (hs : s.Carries)
    (he : e.Carries) (hpc : pc.Carries) (h : syncWorkerSend g w e s pc ch = some (s', r)) :
    s'.Carries ∧ r.Holds SyncSend.Carries := by
  unfold syncWorkerSend at h
  split at h
  · split_ifs at h <;> cases h <;> exact ⟨hs.setSync _ _, trivial⟩
  · split at h <;> cases h
    · exact syncWorkerSendEvent_carries hs he hpc ‹_›
    · exact ⟨(syncWorkerSendEvent_carries hs he hpc ‹_›).1, trivial⟩
    · exact ⟨(syncWorkerSendEvent_carries hs he hpc ‹_›).1, trivial⟩
  · cases h; exact ⟨hs.setSync _ _, trivial⟩
  · cases h

/-- `asyncWorker.Send` queues the event it was handed, or drops it. -/
theorem asyncWorkerSend_carries {x : AsyncWorker} (hs : s.Carries) (he : e.Carries)
    (hx : s.asyncWorker? w = some x) (h : asyncWorkerSend w e s x = some s') : s'.Carries := by
  unfold asyncWorkerSend at h
  split_ifs at h <;> cases h
  · exact (hs.setAsync_of hx _ (by rfl)).record (.drop w e) he
  · refine (hs.setAsync _ fun e' h => ?_).record (.enqueue w e) he
    exact (List.mem_append.1 h).elim (hs.queue hx e') fun h => List.mem_singleton.1 h ▸ he
  · exact (hs.setAsync_of hx _ (by rfl)).record (.drop w e) he

/-! ## Logging calls, termination, and the run loop -/

/-- A logging call builds its event from the level and error it started with,
and hands that event to each worker. -/
theorem loggerSend_carries {pc : Dispatch} {r : Next Dispatch Unit} (hs : s.Carries) (hpc : pc.Carries)
    (h : loggerSend g s pc ch = some (s', r)) : s'.Carries ∧ r.Holds Dispatch.Carries := by
  unfold loggerSend at h
  split at h
  · dsimp only [Sys.fresh] at h
    split_ifs at h <;> cases h
    exacts [⟨hs, trivial⟩, ⟨hs.update _ _ _ _ _, hpc⟩]
  · cases h; exact ⟨hs.update _ _ _ _ _, hpc⟩
  · cases h; exact ⟨hs, hpc⟩
  · cases h; exact ⟨hs.update _ _ _ _ _, trivial⟩
  · split at h
    · split at h
      · cases h
      · dsimp only at h
        split_ifs at h
        · split at h
          · split at h <;> cases h
            · exact ⟨asyncWorkerSend_carries (hs.record (.send _ _) hpc) hpc (asyncWorker?_of ‹_›) ‹_›, hpc⟩
            · exact ⟨((hs.record (.send _ _) hpc).update _ _ _ _ _).record (.sendClosed _ _) hpc, trivial⟩
          · cases h; exact ⟨hs.record (.send _ _) hpc, hpc, trivial⟩
          · cases h
        · cases h; exact ⟨hs, hpc⟩
    · cases h
  · split at h <;> cases h
    · obtain ⟨ht, hr⟩ := syncWorkerSend_carries hs hpc.1 hpc.2 ‹_›
      exact ⟨ht, hpc.1, hr⟩
    · exact ⟨(syncWorkerSend_carries hs hpc.1 hpc.2 ‹_›).1, hpc.1⟩
    · exact ⟨(syncWorkerSend_carries hs hpc.1 hpc.2 ‹_›).1.update _ _ _ _ _, trivial⟩

/-- `closeCollector` logs the error `Close` returned, only when there is one. -/
theorem closeCollector_carries {pc : CloseCollector} {r : Next CloseCollector Unit} (hs : s.Carries)
    (hpc : pc.Carries) (h : closeCollector g w c s pc ch = some (s', r)) :
    s'.Carries ∧ r.Holds CloseCollector.Carries := by
  unfold closeCollector at h
  split at h
  · split_ifs at h
    · split at h
      · split at h <;> cases h <;> refine ⟨hs.record (.close w _) trivial, ?_⟩
        exacts [trivial, fun _ => nofun, trivial]
      · cases h
    · cases h; exact ⟨hs, trivial⟩
  · split at h <;> cases h
    · exact loggerSend_carries hs hpc ‹_›
    · exact ⟨(loggerSend_carries hs hpc ‹_›).1, trivial⟩
    · exact ⟨(loggerSend_carries hs hpc ‹_›).1, trivial⟩

theorem syncWorkerTerminate_carries {pc : Terminate} {r : Next Terminate Unit} (hs : s.Carries)
    (hpc : pc.Carries) (h : syncWorkerTerminate g w s pc ch = some (s', r)) :
    s'.Carries ∧ r.Holds Terminate.Carries := by
  unfold syncWorkerTerminate at h
  split at h
  · split_ifs at h; cases h; exact ⟨hs.setSync _ _, trivial⟩
  · split at h
    · cases h; exact closeCollector_carries hs hpc ‹_›
    · obtain ⟨x, -, h⟩ := Option.map_eq_some'.1 h
      cases h; exact ⟨((closeCollector_carries hs hpc ‹_›).1.setSync _ _).record (.terminated w) trivial, trivial⟩
    · cases h; exact ⟨(closeCollector_carries hs hpc ‹_›).1, trivial⟩
    · cases h
  · cases h

theorem asyncWorkerTerminate_carries {flush : Bool} {pc : Terminate} {r : Next Terminate Unit}
    (hs : s.Carries) (h : asyncWorkerTerminate w flush s pc = some (s', r)) :
    s'.Carries ∧ r.Holds Terminate.Carries := by
  unfold asyncWorkerTerminate at h
  split at h
  · rename_i x hx
    split_ifs at h <;> cases h
    exacts [⟨hs, trivial⟩, ⟨hs.setAsync_of hx _ rfl, trivial⟩]
  · rename_i x hx
    split_ifs at h <;> cases h
    exacts [⟨hs, trivial⟩, ⟨hs.setAsync_of hx _ rfl, trivial⟩]
  · rename_i x hx
    split_ifs at h <;> cases h
    exacts [⟨hs, trivial⟩, ⟨hs.setAsync_of hx _ rfl, trivial⟩]
  · split_ifs at h; cases h; exact ⟨hs.record (.terminated w) trivial, trivial⟩
  · cases h

theorem terminateWorker_carries {flush : Bool} {pc : Terminate} {r : Next Terminate Unit}
    (hs : s.Carries) (hpc : pc.Carries) (h : terminateWorker g w flush s pc ch = some (s', r)) :
    s'.Carries ∧ r.Holds Terminate.Carries := by
  unfold terminateWorker at h
  split at h
  · exact syncWorkerTerminate_carries hs hpc h
  · exact asyncWorkerTerminate_carries hs h
  · cases h

/-- The run loop takes its events from the queue, whose events carry. -/
theorem asyncWorkerRun_carries {pc : Run} {r : Next Run Unit} (hs : s.Carries) (hpc : pc.Carries)
    (h : asyncWorkerRun g w s pc ch = some (s', r)) : s'.Carries ∧ r.Holds Run.Carries := by
  unfold asyncWorkerRun at h
  split at h
  · cases h
  · rename_i x hx
    have hq := hs.queue hx
    split at h
    · split at h
      · rename_i e rest hxq
        rw [hxq] at hq
        cases h
        exact ⟨hs.setAsync _ fun e' h => hq e' (List.mem_cons_of_mem _ h),
          Event.carries_some (hq e (List.mem_cons_self _ _))⟩
      · split_ifs at h; cases h; exact ⟨hs, Event.carries_none⟩
      · cases h; exact ⟨hs.setAsync_of hx _ rfl, by split <;> trivial⟩
      · split_ifs at h; cases h; exact ⟨hs, trivial⟩
      · cases h
    · split_ifs at h <;> cases h
      exacts [⟨hs, hpc, trivial⟩, ⟨hs, Run.afterDrops_carries hpc⟩]
    · split at h
      · cases h
        obtain ⟨ht, hr⟩ := handleDegradation_carries hs hpc.2 ‹_›
        exact ⟨ht, hpc.1, hr⟩
      · obtain ⟨y, hy, h⟩ := Option.map_eq_some'.1 h
        have ht := (handleDegradation_carries hs hpc.2 ‹_›).1
        cases h; exact ⟨ht.setAsync_of hy _ rfl, Run.afterDrops_carries hpc.1⟩
      · cases h; exact ⟨(handleDegradation_carries hs hpc.2 ‹_›).1, trivial⟩
      · cases h
    · split at h <;> cases h
      · obtain ⟨ht, hr⟩ := asyncWorkerSendEvent_carries hs hpc.1 hpc.2 ‹_›
        exact ⟨ht, hpc.1, hr⟩
      · exact ⟨(asyncWorkerSendEvent_carries hs hpc.1 hpc.2 ‹_›).1, trivial⟩
      · exact ⟨(asyncWorkerSendEvent_carries hs hpc.1 hpc.2 ‹_›).1, trivial⟩
    · split at h
      · rename_i e rest hxq
        rw [hxq] at hq
        cases h
        exact ⟨hs.setAsync _ fun e' h => hq e' (List.mem_cons_of_mem _ h), hq e (List.mem_cons_self _ _), trivial⟩
      · split_ifs at h; cases h; exact ⟨hs, trivial⟩
    · split at h <;> cases h
      · obtain ⟨ht, hr⟩ := asyncWorkerSendEvent_carries hs hpc.1 hpc.2 ‹_›
        exact ⟨ht, hpc.1, hr⟩
      · exact ⟨(asyncWorkerSendEvent_carries hs hpc.1 hpc.2 ‹_›).1, trivial⟩
      · exact ⟨(asyncWorkerSendEvent_carries hs hpc.1 hpc.2 ‹_›).1, trivial⟩
    · split at h
      · cases h; exact closeCollector_carries hs hpc ‹_›
      · obtain ⟨y, hy, h⟩ := Option.map_eq_some'.1 h
        have ht := (closeCollector_carries hs hpc ‹_›).1
        cases h; exact ⟨ht.setAsync_of hy _ rfl, trivial⟩
      · cases h; exact ⟨(closeCollector_carries hs hpc ‹_›).1, trivial⟩
      · cases h
    · cases h; exact ⟨hs.setAsync_of hx _ rfl, trivial⟩

/-! ## The lock holders -/

theorem spawnTerminators_carries (reg : List Entry) (hs : s.Carries) : (spawnTerminators s reg).1.Carries := by
  induction reg generalizing s with
  | nil => exact hs
  | cons e rest ih =>
      refine ih ((hs.record (.terminate e.worker true) trivial).spawn (.terminator e.worker _) ?_)
      cases s.workers[e.worker]? with
      | none => trivial
      | some x => exact x.terminateStart_carries

/-- `recoverCollector`'s `ReportRecovery` is a FATAL call with the panic's cause
as its error. -/
theorem dispose_carries {cause : Nat} {pc : Dispose} {r : Next Dispose Unit} (hs : s.Carries)
    (hpc : pc.Carries) (h : dispose g c cause s pc ch = some (s', r)) : s'.Carries ∧ r.Holds Dispose.Carries := by
  unfold dispose at h
  split at h
  · split_ifs at h
    split at h
    · cases h; exact ⟨hs, fun _ => nofun⟩
    · obtain ⟨x, -, h⟩ := Option.map_eq_some'.1 h
      cases h; exact ⟨(hs.update _ _ _ _ _).record (.terminate _ false) trivial, x.terminateStart_carries⟩
  · split at h <;> cases h
    · exact terminateWorker_carries hs hpc ‹_›
    · exact ⟨(terminateWorker_carries hs hpc ‹_›).1, trivial⟩
    · exact ⟨(terminateWorker_carries hs hpc ‹_›).1, trivial⟩
  · cases h; exact ⟨hs.update _ _ _ _ _, fun _ => nofun⟩
  · split at h <;> cases h
    · exact loggerSend_carries hs hpc ‹_›
    · exact ⟨(loggerSend_carries hs hpc ‹_›).1, trivial⟩
    · exact ⟨(loggerSend_carries hs hpc ‹_›).1, trivial⟩

theorem terminateAsync_carries {r : Nat} {pc : TerminateAsync} {n : Next TerminateAsync Unit}
    (hs : s.Carries) (h : terminateAsync g r s pc = some (s', n)) : s'.Carries := by
  unfold terminateAsync at h
  split at h
  · split_ifs at h; cases h; exact (hs.update _ _ _ _ _).record (.reset r _) trivial
  · split_ifs at h; cases h; exact spawnTerminators_carries _ hs
  · split_ifs at h; cases h; exact hs
  · cases h; exact hs.update _ _ _ _ _
  · cases h; exact hs.update _ _ _ _ _

/-! ## System steps -/

theorem Next.toG_carries {α : Type} {P : α → Prop} {k : α → G} (hk : ∀ pc, P pc → (k pc).Carries)
    (t : Sys) {r : Next α Unit} (hr : r.Holds P) : (Next.toG k (t, r)).2.Carries := by
  cases r with
  | cont pc => exact hk pc hr
  | ret => trivial
  | crash => trivial

theorem G.step_carries {x x' : G} {t : Sys} (hs : s.Carries) (hx : x.Carries)
    (h : G.step g s x ch = some (t, x')) : t.Carries ∧ x'.Carries := by
  unfold G.step at h
  split at h
  · obtain ⟨_, hp, rfl⟩ := Next.toG_inv h
    obtain ⟨ht, hr⟩ := loggerSend_carries hs hx hp
    exact ⟨ht, Next.toG_carries (fun _ h => h) t hr⟩
  · obtain ⟨_, hp, rfl⟩ := Next.toG_inv h
    obtain ⟨ht, hr⟩ := asyncWorkerRun_carries hs hx hp
    exact ⟨ht, Next.toG_carries (fun _ h => h) t hr⟩
  · obtain ⟨_, hp, rfl⟩ := Next.toG_inv h
    obtain ⟨ht, hr⟩ := dispose_carries hs hx hp
    exact ⟨ht, Next.toG_carries (fun _ h => h) t hr⟩
  · obtain ⟨n, hp, rfl⟩ := Next.toG_inv h
    exact ⟨terminateAsync_carries hs hp, by rcases n with _ | _ | _ <;> trivial⟩
  · obtain ⟨_, hp, rfl⟩ := Next.toG_inv h
    obtain ⟨ht, hr⟩ := terminateWorker_carries hs hx hp
    exact ⟨ht, Next.toG_carries (fun _ h => h) t hr⟩
  · split at h
    · cases h; exact ⟨hs.record (.closeReturned _ false) trivial, trivial⟩
    · split_ifs at h; cases h; exact ⟨hs.record (.closeReturned _ true) trivial, trivial⟩
  · cases h
  · cases h

/-- The application's logging calls start with a non-`nil` error at ERROR and
FATAL, past their `nil` checks. -/
theorem Sys.call_carries {c : Call} (hs : s.Carries) (h : s.call c = some s') : s'.Carries := by
  cases c <;> simp only [Sys.call] at h
  case collect =>
    split_ifs at h
    split at h <;> cases h
    exacts [(hs.update _ _ _ _ _).addWorker _ _, hs]
  case setLevel | setFrames => split_ifs at h; cases h; exact hs.update _ _ _ _ _
  case close => cases h; exact ((hs.update _ _ _ _ _).spawn (.terminateAsync _ .lock) trivial).spawn (.close _) trivial
  case error | fatal => cases h; exact hs.spawn (.log (.start _ (some _) .message)) fun _ => nofun
  all_goals cases h; exact hs.spawn (.log (.start _ none .message)) fun h => absurd h (by decide)

theorem reachable_carries (reach : Reachable s) : s.Carries :=
  Reachable.induction ⟨fun _ h => absurd h (List.not_mem_nil _), fun _ h => absurd h (List.not_mem_nil _),
      fun _ h => absurd h (List.not_mem_nil _)⟩
    (fun _ hs h => Sys.call_carries hs h)
    (fun _ hs hx h =>
      have ⟨ht, hx'⟩ := G.step_carries hs (hs.gs _ (List.getElem?_mem hx)) h
      ht.setG _ hx')
    reach

/-! ## Severe events -/

/-- Every ERROR or FATAL event that `dispatchEvent` hands to a worker, that a
collector's `Collect` receives, or that waits in an async worker's queue has a
non-`nil` `Error`, in every reachable state. -/
theorem severe_events_carry_error (reach : Reachable s) (w : Nat) (e : Event)
    (hseen : Obs.send w e ∈ s.trace ∨ Obs.collect w e ∈ s.trace ∨ ∃ x, Worker.async x ∈ s.workers ∧ e ∈ x.queue)
    (hlevel : e.level = ERROR ∨ e.level = FATAL) : e.error ≠ none := by
  have hs := reachable_carries reach
  rcases hseen with h | h | ⟨x, hx, h⟩
  exacts [hs.trace _ h hlevel, hs.trace _ h hlevel, hs.queues x hx e h hlevel]

open Action in
/-- `Error(err, …)` with a registered synchronous collector: the logging call
hands its event to the worker, whose `Collect` receives it. -/
def errorCallRun : List Action :=
  [call (.collect DEBUG 0 ⟨1, false⟩), call (.error (.code 0)),
   run 0 .go, run 0 .go, run 0 .go, run 0 (.pick 0), run 0 .go, run 0 .go]

theorem severe_events_carry_error_errorCall :
    ∃ s, Reachable s ∧ Obs.collect 0 ⟨0, ERROR, some (.code 0), .message⟩ ∈ s.trace ∧
      (⟨0, ERROR, some (.code 0), .message⟩ : Event).error ≠ none := by
  obtain ⟨s, reach, h⟩ := exists_reachable_of_run
    (p := fun s => Obs.collect 0 ⟨0, ERROR, some (.code 0), .message⟩ ∈ s.trace) errorCallRun (by decide)
  exact ⟨s, reach, h, severe_events_carry_error reach 0 _ (.inr (.inl h)) (.inl rfl)⟩

end Cue
