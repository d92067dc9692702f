/-
# Cue.Runtime.Flush — every queued event reaches `Collect`, unless `dispose` drops the queue

An event that `asyncWorker.Send` queued leaves the queue only through the `run`
goroutine, which takes it in its `select` (or in the drain of `cleanup`) and
passes it to `sendEvent`, whose first step calls `Collect`. `cleanup(true)`
drains the queue before `closeCollector`; only `cleanup(false)`, which runs
when `false` was sent on `terminate` (by the `Terminate(false)` of `dispose`),
closes the collector over a queue that may still hold events. `FlushOk` says
so in every reachable state:

* `queued` — every event recorded as queued on `v` has been passed to
  `Collect`, or is still in the queue, or is held by `run` between the two,
  unless a `Terminate(false)` of `v` started;
* `drained` — from `closeCollector` on, and once `finished` is closed, the
  queue is closed and empty, unless a `Terminate(false)` of `v` started;
* `signal`, `disposing`, `unsignalled`, `closing` — the facts about the
  `terminate` channel that `drained` needs: `false` is sent only by `dispose`,
  and `run` finds `terminate` closed and empty only after it received from it.

The step lemmas are `asyncWorkerRun_holding` (the event `run` holds reaches
`Collect`), `asyncWorkerRun_receives` and `asyncWorkerRun_closing` (how `run`
enters `cleanup` and `closeCollector`) and `asyncWorkerTerminate_cases` (the
four steps of `Terminate`); `reachable_flushOk` assembles them with the queue
relation of `Cue.Runtime.Queue`.
-/
import Cue.Runtime.Queue
import Cue.Runtime.Finish

namespace Cue

set_option autoImplicit false

/-! ## The phases of `run` -/

/-- The event `run` took off its queue and has not yet passed to `Collect`:
from its `select`, or the drain of `cleanup`, up to the first call. -/
def Run.holding : Run → Option Event
  | .handleDrops e | .dropsDegrade e _ _ => e
  | .sendEvent e pc | .drainSend e pc => if pc = SendEvent.start then some e else none
  | _ => none

/-- The last phases of `run`: `closeCollector`, and closing `finished`. -/
def Run.Closing : Run → Prop
  | .close _ | .finish => True
  | _ => False

theorem Worker.Quiet.refl' (a : AsyncWorker) : (Worker.async a).Quiet (.async a) :=
  Worker.Quiet.refl _

section Run

variable {s t : Sys} {g w : Nat} {ch : Choice}

/-- The first step of `sendEvent` calls `Collect`. -/
theorem asyncWorkerSendEvent_start (c : Collector) (e : Event) :
    asyncWorkerSendEvent w c e s SendEvent.start ch =
      some (s.record (.collect w e), .cont (.retries ⟨0, none, true⟩)) := rfl

/-- The event `run` holds stays held until `run` passes it to `Collect`. -/
theorem asyncWorkerRun_holding {pc : Run} {r : Next Run Unit} {e : Event} (hp : pc.holding = some e)
    (h : asyncWorkerRun g w s pc ch = some (t, r)) :
    (∃ pc', r = .cont pc' ∧ pc'.holding = some e) ∨ Obs.collect w e ∈ t.trace := by
  unfold asyncWorkerRun at h
  split at h
  · cases h
  · cases pc with
    | handleDrops e' =>
        cases hp
        dsimp only at h
        split_ifs at h <;> cases h
        exacts [.inl ⟨_, rfl, rfl⟩, .inl ⟨_, rfl, by simp [Run.afterDrops, Run.holding]⟩]
    | dropsDegrade e' drops pc =>
        cases hp
        dsimp only at h
        split at h
        · cases h; exact .inl ⟨_, rfl, rfl⟩
        · obtain ⟨_, -, h⟩ := Option.map_eq_some'.1 h
          cases h; exact .inl ⟨_, rfl, by simp [Run.afterDrops, Run.holding]⟩
        · exact absurd rfl (handleDegradation_ne_crash ‹_›)
        · cases h
    | sendEvent e' pc =>
        simp only [Run.holding] at hp
        split_ifs at hp with hs
        cases hp; subst hs
        dsimp only at h
        simp only [asyncWorkerSendEvent_start] at h
        cases h; exact .inr (by simp [Sys.record])
    | drainSend e' pc =>
        simp only [Run.holding] at hp
        split_ifs at hp with hs
        cases hp; subst hs
        dsimp only at h
        simp only [asyncWorkerSendEvent_start] at h
        cases h; exact .inr (by simp [Sys.record])
    | _ => cases hp

/-- Outside its `select` and its last step, `run` leaves the channels alone. -/
theorem asyncWorkerRun_quiet {pc : Run} {r : Next Run Unit} (hs : pc ≠ .select) (hf : pc ≠ .finish)
    (h : asyncWorkerRun g w s pc ch = some (t, r)) :
    s.KeepsAsync (fun a b => (Worker.async a).Quiet (.async b)) t := by
  have delivers {u : Sys} (hd : s.Delivers u) : s.KeepsAsync (fun a b => (Worker.async a).Quiet (.async b)) u :=
    .of_delivers (fun _ _ => id) hd
  have close {u : Sys} {c : Collector} {pc : CloseCollector} {r : Next CloseCollector Unit}
      (hc : closeCollector g w c s pc ch = some (u, r)) :
      s.KeepsAsync (fun a b => (Worker.async a).Quiet (.async b)) u := by
    rcases (closeCollector_footprint hc).1 with hd | ⟨-, o, rfl⟩
    exacts [delivers hd, .of_workers Worker.Quiet.refl' rfl]
  have set {u : Sys} {y : AsyncWorker} (hu : s.KeepsAsync (fun a b => (Worker.async a).Quiet (.async b)) u)
      (hy : u.asyncWorker? w = some y) (x : AsyncWorker) (hx : (Worker.async y).Quiet (.async x)) :
      s.KeepsAsync (fun a b => (Worker.async a).Quiet (.async b)) (u.setAsync w x) :=
    hu.trans (fun _ _ _ => Worker.Quiet.trans) (.setAsync Worker.Quiet.refl' hy x hx)
  unfold asyncWorkerRun at h
  split at h
  · cases h
  · rename_i x hx
    have refl : s.KeepsAsync (fun a b => (Worker.async a).Quiet (.async b)) s := .refl Worker.Quiet.refl'
    split at h
    · exact absurd rfl hs
    · split_ifs at h <;> cases h <;> exact refl
    · split at h
      · cases h; exact delivers (handleDegradation_delivers ‹_›)
      · obtain ⟨y, hy, h⟩ := Option.map_eq_some'.1 h
        cases h; exact set (delivers (handleDegradation_delivers ‹_›)) hy _ (by simp [Worker.Quiet])
      · cases h; exact delivers (handleDegradation_delivers ‹_›)
      · cases h
    · split at h <;> cases h <;> exact delivers (asyncWorkerSendEvent_delivers ‹_›)
    · split at h
      · cases h; exact set refl hx _ (by simp [Worker.Quiet])
      · split_ifs at h; cases h; exact refl
    · split at h <;> cases h <;> exact delivers (asyncWorkerSendEvent_delivers ‹_›)
    · split at h
      · cases h; exact close ‹_›
      · obtain ⟨y, hy, h⟩ := Option.map_eq_some'.1 h
        cases h; exact set (close ‹_›) hy _ (by simp [Worker.Quiet])
      · cases h; exact close ‹_›
      · cases h
    · exact absurd rfl hf

/-- `run` empties `terminate` only in its `select`, and enters `cleanup` then;
it leaves `terminateClosed` alone. -/
theorem asyncWorkerRun_receives {pc : Run} {r : Next Run Unit} (h : asyncWorkerRun g w s pc ch = some (t, r))
    {a : AsyncWorker} (ha : s.asyncWorker? w = some a) :
    ∃ b, t.asyncWorker? w = some b ∧ b.terminateClosed = a.terminateClosed ∧
      (b.terminate = a.terminate ∨ b.terminate = none ∧ ∃ pc', r = .cont pc' ∧ pc'.Cleaning) := by
  have hlt : w < s.workers.length := (List.getElem?_eq_some_iff.1 (Sys.workers_of_asyncWorker? ha)).1
  have set (y : AsyncWorker) : (s.setAsync w y).asyncWorker? w = some y := by
    simp [Sys.asyncWorker?, Sys.setAsync, List.getElem?_set_self hlt]
  by_cases hs : pc = .select
  · subst hs
    unfold asyncWorkerRun at h
    rw [ha] at h
    dsimp only at h
    split at h
    · cases h; exact ⟨_, set _, rfl, .inl rfl⟩
    · split_ifs at h; cases h; exact ⟨a, ha, rfl, .inl rfl⟩
    · cases h
      refine ⟨_, set _, rfl, .inr ⟨rfl, _, rfl, ?_⟩⟩
      split <;> trivial
    · split_ifs at h; cases h; exact ⟨a, ha, rfl, .inl rfl⟩
    · cases h
  · by_cases hf : pc = .finish
    · subst hf
      obtain ⟨x, hx, rfl, rfl⟩ := asyncWorkerRun_finish h
      rw [ha] at hx; cases hx
      exact ⟨_, set _, rfl, .inl rfl⟩
    · obtain ⟨b, hb, te, tc, -⟩ := asyncWorkerRun_quiet hs hf h w a ha
      exact ⟨b, hb, tc, .inl te⟩

/-- `run` reaches `closeCollector` from the drain of `cleanup`, once the queue
is closed and empty, or from its `select`: on receiving `false`, or on finding
`terminate` closed and empty. -/
theorem asyncWorkerRun_closing {pc pc' : Run} (h : asyncWorkerRun g w s pc ch = some (t, .cont pc'))
    (hc : pc'.Closing) (hpc : ¬pc.Closing) :
    ∃ a, s.asyncWorker? w = some a ∧ ((pc = .drain ∧ a.queue = [] ∧ a.queueClosed = true ∧ t = s) ∨
      (pc = .select ∧ (a.terminate = some false ∨ a.terminate = none ∧ a.terminateClosed = true))) := by
  unfold asyncWorkerRun at h
  cases ha : s.asyncWorker? w with
  | none => simp [ha] at h
  | some a =>
    refine ⟨a, rfl, ?_⟩
    cases pc <;> simp only [ha] at h
    case select =>
      split at h
      · cases h; exact hc.elim
      · split_ifs at h; cases h; exact hc.elim
      · rename_i flush hf
        cases h
        cases flush
        · exact .inr ⟨rfl, .inl hf⟩
        · exact hc.elim
      · split_ifs at h; cases h; exact .inr ⟨rfl, .inr ⟨‹_›, ‹_›⟩⟩
      · cases h
    case handleDrops e =>
      split_ifs at h <;> cases h
      · exact hc.elim
      · cases e <;> exact hc.elim
    case dropsDegrade e drops p =>
      split at h
      · cases h; exact hc.elim
      · obtain ⟨_, -, h⟩ := Option.map_eq_some'.1 h
        cases h; cases e <;> exact hc.elim
      all_goals cases h
    case sendEvent =>
      split at h <;> cases h <;> exact hc.elim
    case drain =>
      split at h
      · cases h; exact hc.elim
      · split_ifs at h; cases h; exact .inl ⟨rfl, ‹_›, ‹_›, rfl⟩
    case drainSend =>
      split at h <;> cases h <;> exact hc.elim
    all_goals exact absurd trivial hpc

end Run

/-! ## The steps of `Terminate` -/

section Terminate

variable {s t : Sys} {g w : Nat} {ch : Choice}

theorem Sys.asyncWorker?_setAsync_self {a : AsyncWorker} (ha : s.asyncWorker? w = some a) (y : AsyncWorker) :
    (s.setAsync w y).asyncWorker? w = some y := by
  have hlt : w < s.workers.length := (List.getElem?_eq_some_iff.1 (Sys.workers_of_asyncWorker? ha)).1
  simp [Sys.asyncWorker?, Sys.setAsync, List.getElem?_set_self hlt]

/-- `asyncWorker.Terminate(flush)` step by step: `close(w.queue)`,
`w.terminate <- flush`, `close(w.terminate)`, `<-w.finished`; a close of a
closed channel, or a send on one, crashes. -/
theorem asyncWorkerTerminate_cases {flush : Bool} {pc : Terminate} {r : Next Terminate Unit}
    (h : asyncWorkerTerminate w flush s pc = some (t, r)) :
    ∃ a, s.asyncWorker? w = some a ∧
      (r = .crash ∧ t = s ∨
        pc = .closeQueue ∧ r = .cont .send ∧ t = s.setAsync w { a with queueClosed := true } ∨
        pc = .send ∧ r = .cont .closeTerminate ∧ a.terminate = none ∧
          t = s.setAsync w { a with terminate := some flush } ∨
        pc = .closeTerminate ∧ r = .cont .wait ∧ t = s.setAsync w { a with terminateClosed := true } ∨
        pc = .wait ∧ r = .ret () ∧ t = s.record (.terminated w)) := by
  unfold asyncWorkerTerminate at h
  split at h <;> (try split_ifs at h) <;> cases h
  · exact ⟨_, ‹_›, .inl ⟨rfl, rfl⟩⟩
  · exact ⟨_, ‹_›, .inr (.inl ⟨rfl, rfl, rfl⟩)⟩
  · exact ⟨_, ‹_›, .inl ⟨rfl, rfl⟩⟩
  · exact ⟨_, ‹_›, .inr (.inr (.inl ⟨rfl, rfl, ‹_›, rfl⟩))⟩
  · exact ⟨_, ‹_›, .inl ⟨rfl, rfl⟩⟩
  · exact ⟨_, ‹_›, .inr (.inr (.inr (.inl ⟨rfl, rfl, rfl⟩)))⟩
  · exact ⟨_, ‹_›, .inr (.inr (.inr (.inr ⟨rfl, rfl, rfl⟩)))⟩

/-- What a step of `Terminate` leaves of `terminate`: the value it had, or the
one the step sent, when the step sends it. -/
theorem asyncWorkerTerminate_terminate {flush : Bool} {pc : Terminate} {r : Next Terminate Unit}
    (h : asyncWorkerTerminate w flush s pc = some (t, r)) {a : AsyncWorker} (ha : s.asyncWorker? w = some a) :
    ∃ b, t.asyncWorker? w = some b ∧
      (b.terminate = a.terminate ∧ (b.terminateClosed = true → a.terminateClosed = true ∨ pc = .closeTerminate) ∨
        pc = .send ∧ r = .cont .closeTerminate ∧ b.terminate = some flush) := by
  obtain ⟨a', ha', hc⟩ := asyncWorkerTerminate_cases h
  rw [ha] at ha'; cases ha'
  rcases hc with ⟨-, rfl⟩ | ⟨-, -, rfl⟩ | ⟨rfl, rfl, -, rfl⟩ | ⟨rfl, -, rfl⟩ | ⟨-, -, rfl⟩
  · exact ⟨a, ha, .inl ⟨rfl, .inl⟩⟩
  · exact ⟨_, Sys.asyncWorker?_setAsync_self ha _, .inl ⟨rfl, .inl⟩⟩
  · exact ⟨_, Sys.asyncWorker?_setAsync_self ha _, .inr ⟨rfl, rfl, rfl⟩⟩
  · exact ⟨_, Sys.asyncWorker?_setAsync_self ha _, .inl ⟨rfl, fun _ => .inr rfl⟩⟩
  · exact ⟨a, ha, .inl ⟨rfl, .inl⟩⟩

end Terminate

/-! ## One step, seen from one `asyncWorker` -/

section Step

variable {s t : Sys} {g : Nat} {x x' : G} {ch : Choice}

theorem G.termFrame?_cases {v : Nat} {pc : Terminate} (hx : x.termFrame? = some (v, pc)) :
    x = .terminator v pc ∨ ∃ c cause, x = .dispose c cause (.terminate v pc) := by
  rcases x with _ | _ | ⟨c, cause, _ | ⟨_, _⟩ | _ | _⟩ | _ | ⟨_, _⟩ | _ | _ | _ <;> cases hx
  exacts [.inr ⟨c, cause, rfl⟩, .inl rfl]

/-- A goroutine that works for neither the `run` nor a `Terminate` of `v` leaves
`v`'s channels alone. -/
theorem G.step_worker (h : G.step g s x ch = some (t, x')) {v : Nat} {a : AsyncWorker}
    (ha : s.asyncWorker? v = some a) :
    ∃ b, t.asyncWorker? v = some b ∧ (¬x.owns v → (Worker.async a).Quiet (.async b)) := by
  have hw := Sys.workers_of_asyncWorker? ha
  obtain ⟨z, hz⟩ : ∃ z, t.workers[v]? = some z :=
    ⟨_, List.getElem?_eq_getElem ((G.step_grows h).workers.length ▸ (List.getElem?_eq_some_iff.1 hw).1)⟩
  cases z with
  | sync => exact ((G.step_grows h).workers.le v _ _ hw hz).elim
  | async b =>
      refine ⟨b, Sys.asyncWorker?_of hz, fun own => ?_⟩
      by_cases hs : x.Settling
      · exact (G.step_settles h hs).quiet v own _ _ hw hz
      · rw [(G.step_retires h hs).1, hw] at hz
        cases hz; exact Worker.Quiet.refl _

/-- `terminate` is emptied only by the `select` of `run`, which enters `cleanup`. -/
theorem G.step_receives (h : G.step g s x ch = some (t, x')) {v : Nat} {a b : AsyncWorker}
    (ha : s.asyncWorker? v = some a) (hb : t.asyncWorker? v = some b) (hn : b.terminate = none) :
    a.terminate = none ∨ ∃ pc pc', x = .run v pc ∧ x' = .run v pc' ∧ pc'.Cleaning := by
  obtain ⟨b', hb', hq⟩ := G.step_worker h ha
  rw [hb] at hb'; cases hb'
  by_cases own : x.owns v
  · rcases G.owns_cases own with ⟨pc, rfl⟩ | ⟨pc, hxf⟩
    · obtain ⟨r, hp, rfl⟩ := Next.toG_inv (by simpa only [G.step] using h)
      obtain ⟨b', hb', -, te | ⟨-, pc', rfl, hc⟩⟩ := asyncWorkerRun_receives hp ha <;>
        rw [hb] at hb' <;> cases hb'
      · exact .inl (te ▸ hn)
      · exact .inr ⟨pc, pc', rfl, rfl, hc⟩
    · obtain ⟨flush, r, hp, -⟩ := G.step_termFrame h hxf
      rw [terminateWorker_of_async ha] at hp
      obtain ⟨b', hb', ⟨te, -⟩ | ⟨-, -, te⟩⟩ := asyncWorkerTerminate_terminate hp ha <;>
        rw [hb] at hb' <;> cases hb'
      · exact .inl (te ▸ hn)
      · rw [hn] at te; cases te
  · exact .inl ((hq own).1 ▸ hn)

/-- `terminate` is closed only by the step of `Terminate` at `closeTerminate`. -/
theorem G.step_terminateClosed (h : G.step g s x ch = some (t, x')) {v : Nat} {a b : AsyncWorker}
    (ha : s.asyncWorker? v = some a) (hb : t.asyncWorker? v = some b) (hc : b.terminateClosed = true) :
    a.terminateClosed = true ∨ x.termFrame? = some (v, .closeTerminate) := by
  obtain ⟨b', hb', hq⟩ := G.step_worker h ha
  rw [hb] at hb'; cases hb'
  by_cases own : x.owns v
  · rcases G.owns_cases own with ⟨pc, rfl⟩ | ⟨pc, hxf⟩
    · obtain ⟨r, hp, -⟩ := Next.toG_inv (by simpa only [G.step] using h)
      obtain ⟨b', hb', tc, -⟩ := asyncWorkerRun_receives hp ha
      rw [hb] at hb'; cases hb'
      exact .inl (tc ▸ hc)
    · obtain ⟨flush, r, hp, -⟩ := G.step_termFrame h hxf
      rw [terminateWorker_of_async ha] at hp
      obtain ⟨b', hb', ⟨-, tc⟩ | ⟨rfl, -, -⟩⟩ := asyncWorkerTerminate_terminate hp ha <;>
        rw [hb] at hb' <;> cases hb'
      · exact (tc hc).imp_right fun e : pc = .closeTerminate => e ▸ hxf
      · obtain ⟨a', ha', hcs⟩ := asyncWorkerTerminate_cases hp
        rw [ha] at ha'; cases ha'
        rcases hcs with ⟨-, rfl⟩ | ⟨h₁, -⟩ | ⟨-, -, -, rfl⟩ | ⟨h₁, -⟩ | ⟨h₁, -⟩ <;> try cases h₁
        · rw [ha] at hb; cases hb; exact .inl hc
        · rw [Sys.asyncWorker?_setAsync_self ha] at hb; cases hb; exact .inl hc
  · exact .inl ((hq own).2.1 ▸ hc)

/-- `false` is sent on `terminate` only by the `Terminate(false)` of `dispose`. -/
theorem G.step_signal (h : G.step g s x ch = some (t, x')) {v : Nat} {a b : AsyncWorker}
    (ha : s.asyncWorker? v = some a) (hb : t.asyncWorker? v = some b) (hf : b.terminate = some false) :
    a.terminate = some false ∨ ∃ c cause pc, x = .dispose c cause (.terminate v pc) := by
  obtain ⟨b', hb', hq⟩ := G.step_worker h ha
  rw [hb] at hb'; cases hb'
  by_cases own : x.owns v
  · rcases G.owns_cases own with ⟨pc, rfl⟩ | ⟨pc, hxf⟩
    · obtain ⟨r, hp, -⟩ := Next.toG_inv (by simpa only [G.step] using h)
      obtain ⟨b', hb', -, te | ⟨te, -⟩⟩ := asyncWorkerRun_receives hp ha <;> rw [hb] at hb' <;> cases hb'
      · exact .inl (te ▸ hf)
      · rw [hf] at te; cases te
    · rcases G.termFrame?_cases hxf with rfl | ⟨c, cause, rfl⟩
      · obtain ⟨r, hp, -⟩ := Next.toG_inv (by simpa only [G.step] using h)
        rw [terminateWorker_of_async ha] at hp
        obtain ⟨b', hb', ⟨te, -⟩ | ⟨-, -, te⟩⟩ := asyncWorkerTerminate_terminate hp ha <;>
          rw [hb] at hb' <;> cases hb'
        · exact .inl (te ▸ hf)
        · rw [hf] at te; cases te
      · exact .inr ⟨c, cause, pc, rfl⟩
  · exact .inl ((hq own).1 ▸ hf)

/-- A goroutine in a `Terminate` of `v` after a step was in it before, one step
earlier, or is the `dispose` goroutine that just took `v` out of the registry
and recorded its `Terminate(false)`. -/
theorem G.step_termFrame_from (h : G.step g s x ch = some (t, x')) {v : Nat} {pc' : Terminate}
    (hx' : x'.termFrame? = some (v, pc')) :
    (∃ pc, x.termFrame? = some (v, pc) ∧ (∃ flush, terminateWorker g v flush s pc ch = some (t, .cont pc')) ∧
        ∀ c cause pc'', x' = .dispose c cause pc'' → x = .dispose c cause (.terminate v pc)) ∨
      ∃ z, s.workers[v]? = some z ∧ pc' = z.terminateStart ∧ Obs.terminate v false ∈ t.trace := by
  rcases x with _ | _ | ⟨c, cause, _ | ⟨w, pc⟩ | _ | _⟩ | _ | ⟨w, pc⟩ | _ | _ | _
  case dispose.lock =>
    simp only [G.step, Cue.dispose] at h
    obtain ⟨r, hp, rfl⟩ := Next.toG_inv h
    split_ifs at hp
    split at hp
    · cases hp; cases hx'
    · obtain ⟨z, hz, hp⟩ := Option.map_eq_some'.1 hp
      cases hp; cases hx'
      exact .inr ⟨z, hz, rfl, by simp [Sys.record]⟩
  case dispose.terminate =>
    simp only [G.step, Cue.dispose] at h
    obtain ⟨r, hp, rfl⟩ := Next.toG_inv h
    split at hp <;> cases hp <;> cases hx'
    exact .inl ⟨pc, rfl, ⟨false, ‹_›⟩, fun _ _ _ e => by cases e; rfl⟩
  case terminator =>
    simp only [G.step] at h
    obtain ⟨r, hp, rfl⟩ := Next.toG_inv h
    rcases r with _ | _ | _ <;> cases hx'
    exact .inl ⟨pc, rfl, ⟨true, hp⟩, fun _ _ _ e => by cases e⟩
  case close =>
    simp only [G.step] at h
    split at h
    · cases h; cases hx'
    · split_ifs at h; cases h; cases hx'
  case dispose.unlock =>
    simp only [G.step, Cue.dispose] at h
    obtain ⟨r, hp, rfl⟩ := Next.toG_inv h
    cases hp; simp [Next.toG, G.termFrame?, Dispose.reportStart] at hx'
  case dispose.report =>
    simp only [G.step, Cue.dispose] at h
    obtain ⟨r, hp, rfl⟩ := Next.toG_inv h
    split at hp <;> cases hp <;> simp [Next.toG, G.termFrame?] at hx'
  case done | crashed => cases h
  all_goals
    simp only [G.step] at h
    obtain ⟨r, -, rfl⟩ := Next.toG_inv h
    rcases r with _ | _ | _ <;> simp [Next.toG, G.termFrame?] at hx'

/-- A `Terminate` reaches `close(w.terminate)` only by sending on `terminate`. -/
theorem G.step_closeTerminate (h : G.step g s x ch = some (t, x')) {v : Nat} {a : AsyncWorker}
    (ha : s.asyncWorker? v = some a) (hx' : x'.termFrame? = some (v, .closeTerminate)) :
    ∃ b, t.asyncWorker? v = some b ∧ b.terminate ≠ none := by
  rcases G.step_termFrame_from h hx' with ⟨pc, -, ⟨flush, hp⟩, -⟩ | ⟨z, hz, hs, -⟩
  · rw [terminateWorker_of_async ha] at hp
    obtain ⟨b, hb, ⟨-, -⟩ | ⟨-, -, te⟩⟩ := asyncWorkerTerminate_terminate hp ha
    · obtain ⟨a', ha', hcs⟩ := asyncWorkerTerminate_cases hp
      rcases hcs with ⟨h₁, -⟩ | ⟨-, h₁, -⟩ | ⟨-, -, -, rfl⟩ | ⟨-, h₁, -⟩ | ⟨-, h₁, -⟩ <;> try cases h₁
      rw [ha] at ha'; cases ha'
      exact ⟨_, Sys.asyncWorker?_setAsync_self ha _, by simp⟩
    · exact ⟨b, hb, by simp [te]⟩
  · rw [Sys.workers_of_asyncWorker? ha] at hz
    cases hz; cases hs

end Step

/-! ## The invariant -/

/-- `v`'s `run` goroutine has received from `terminate`: it is in `cleanup`, or gone. -/
def Sys.Received (s : Sys) (v : Nat) : Prop := ∀ pc, G.run v pc ∈ s.gs → pc.Cleaning

/-- `v`'s queue is closed and empty, or a `Terminate(false)` of `v` has started. -/
def Sys.Emptied (s : Sys) (v : Nat) (a : AsyncWorker) : Prop :=
  (a.queue = [] ∧ a.queueClosed = true) ∨ Obs.terminate v false ∈ s.trace

/-- Every event recorded as queued on `v` has been passed to `Collect`, or is
still in the queue, or is held by `run`, unless a `Terminate(false)` of `v` has
started. -/
def Sys.Queued (s : Sys) : Prop :=
  ∀ v e, Obs.enqueue v e ∈ s.trace → Obs.collect v e ∈ s.trace ∨ Obs.terminate v false ∈ s.trace ∨
    ∃ a, s.asyncWorker? v = some a ∧ (e ∈ a.queue ∨ ∃ pc, G.run v pc ∈ s.gs ∧ pc.holding = some e)

structure FlushOk (s : Sys) : Prop where
  queued : s.Queued
  /-- `false` is sent on `terminate` only by the `Terminate(false)` of `dispose`. -/
  signal : ∀ v a, s.asyncWorker? v = some a → a.terminate = some false → Obs.terminate v false ∈ s.trace
  disposing : ∀ c cause v pc, G.dispose c cause (.terminate v pc) ∈ s.gs → Obs.terminate v false ∈ s.trace
  /-- `terminate` is closed and empty only once `run` received from it. -/
  unsignalled : ∀ v a, s.asyncWorker? v = some a → a.terminate = none → a.terminateClosed = true →
    s.Received v
  /-- A `Terminate` about to close `terminate` finds it empty only once `run` received from it. -/
  closing : ∀ y ∈ s.gs, ∀ v, y.termFrame? = some (v, .closeTerminate) → ∀ a, s.asyncWorker? v = some a →
    a.terminate = none → s.Received v
  /-- From `closeCollector` on, and once `finished` is closed, the queue is emptied. -/
  drained : ∀ v a, s.asyncWorker? v = some a → ((∃ pc, G.run v pc ∈ s.gs ∧ pc.Closing) ∨ a.finished = true) →
    s.Emptied v a

section Preservation

variable {s t : Sys} {g : Nat} {x x' : G} {ch : Choice}

theorem G.step_later (h : G.step g s x ch = some (t, x')) {o : Obs} (ho : o ∈ s.trace) : o ∈ t.trace := by
  obtain ⟨os, et⟩ := (G.step_grows h).trace
  rw [et]; exact List.mem_append_left _ ho

/-- A goroutine other than the one that stepped is still there. -/
theorem mem_setG_of_ne (hx : s.gs[g]? = some x) (h : G.step g s x ch = some (t, x')) {y : G}
    (hy : y ∈ s.gs) (hne : y ≠ x) : y ∈ (t.setG g x').gs := by
  obtain ⟨i, hi⟩ := List.mem_iff_getElem?.1 hy
  have hig : i ≠ g := by rintro rfl; rw [hx] at hi; exact hne (Option.some.inj hi).symm
  exact List.getElem?_mem (getElem?_setG_other h hig hi)

/-- The `run` goroutine the step leaves in place. -/
theorem G.step_run_cont {v : Nat} {pc : Run} (h : G.step g s (.run v pc) ch = some (t, x')) :
    ∃ r, asyncWorkerRun g v s pc ch = some (t, r) ∧ ∀ pc', r = .cont pc' → x' = .run v pc' := by
  obtain ⟨r, hp, rfl⟩ := Next.toG_inv (by simpa only [G.step] using h)
  exact ⟨r, hp, fun _ e => by subst e; rfl⟩

theorem Sys.Received.step {v : Nat} (hr : s.Received v) (hx : s.gs[g]? = some x)
    (h : G.step g s x ch = some (t, x')) : (t.setG g x').Received v := by
  intro pc hz
  rcases mem_setG_of_step h hz with rfl | hz | hi
  · obtain ⟨pc₀, rfl⟩ := G.step_run h
    obtain ⟨r, hp, e⟩ := Next.toG_inv (by simpa only [G.step] using h)
    rcases r with pc'' | _ | _ <;> cases e
    exact asyncWorkerRun_stays_cleaning hp (hr pc₀ (List.getElem?_mem hx))
  · exact hr pc hz
  · exact absurd rfl (hi.not_run v pc)

/-- The step in which `run` receives from `terminate`: it is then `v`'s only
`run` goroutine, and in `cleanup`. -/
theorem Sys.Received.receive {v : Nat} {pc pc' : Run} (runs : RunOk s) (hx : s.gs[g]? = some (.run v pc))
    (h : G.step g s (.run v pc) ch = some (t, .run v pc')) (hc : pc'.Cleaning) : (t.setG g (.run v pc')).Received v := by
  intro pc'' hz
  obtain ⟨i, hi⟩ := List.mem_iff_getElem?.1 hz
  rcases getElem?_setG_of_step hx h hi with ⟨-, e⟩ | ⟨hig, hi⟩ | ⟨-, hin⟩
  · cases e; exact hc
  · exact absurd (runs i g v pc'' pc hi hx) hig
  · exact absurd rfl (hin.not_run v pc'')

theorem Sys.Emptied.step {v : Nat} {a b : AsyncWorker} (he : s.Emptied v a) (ha : s.asyncWorker? v = some a)
    (h : G.step g s x ch = some (t, x')) (hb : t.asyncWorker? v = some b) : t.Emptied v b := by
  rcases he with ⟨hq, hc⟩ | hf
  · left
    have fed (F : s.Feeds v t) : b.queue = [] ∧ b.queueClosed = true := by
      obtain ⟨b', hb', c, -⟩ := F.present a ha
      rw [hb] at hb'; cases hb'
      exact ⟨(c hc).2.trans hq, (c hc).1⟩
    by_cases hxr : ∃ pc, x = .run v pc
    · obtain ⟨pc, rfl⟩ := hxr
      obtain ⟨r, hp, -⟩ := G.step_run_cont h
      rcases asyncWorkerRun_feeds (v := v) hp with F | ⟨a', e, rest, -, ha', hq', -⟩
      · exact fed F
      · rw [ha] at ha'; cases ha'; rw [hq] at hq'; cases hq'
    · exact fed (G.step_feeds h fun pc e => hxr ⟨pc, e⟩)
  · exact .inr (G.step_later h hf)

/-- `false` on `terminate` comes from a `dispose` frame. -/
theorem FlushOk.signal_step (inv : FlushOk s) (hx : s.gs[g]? = some x) (h : G.step g s x ch = some (t, x'))
    {v : Nat} {b : AsyncWorker} (hb : t.asyncWorker? v = some b) (hf : b.terminate = some false) :
    Obs.terminate v false ∈ t.trace := by
  obtain ⟨a, ha⟩ := (G.step_grows h).asyncWorker? hb
  rcases G.step_signal h ha hb hf with hf | ⟨c, cause, pc, rfl⟩
  · exact G.step_later h (inv.signal v a ha hf)
  · exact G.step_later h (inv.disposing c cause v pc (List.getElem?_mem hx))

theorem FlushOk.disposing_step (inv : FlushOk s) (hx : s.gs[g]? = some x) (h : G.step g s x ch = some (t, x'))
    {c : Collector} {cause v : Nat} {pc : Terminate} (hy : G.dispose c cause (.terminate v pc) ∈ (t.setG g x').gs) :
    Obs.terminate v false ∈ t.trace := by
  rcases mem_setG_of_step h hy with e | hy | hi
  · rcases G.step_termFrame_from h (by rw [← e]; rfl) with ⟨pc₀, -, -, hd⟩ | ⟨-, -, -, hf⟩
    · refine G.step_later h (inv.disposing c cause v pc₀ ?_)
      rw [← hd c cause _ e.symm]; exact List.getElem?_mem hx
    · exact hf
  · exact G.step_later h (inv.disposing c cause v pc hy)
  · exact hi.elim

theorem FlushOk.unsignalled_step (inv : FlushOk s) (runs : RunOk s) (hx : s.gs[g]? = some x)
    (h : G.step g s x ch = some (t, x')) {v : Nat} {b : AsyncWorker} (hb : t.asyncWorker? v = some b)
    (hn : b.terminate = none) (hc : b.terminateClosed = true) : (t.setG g x').Received v := by
  obtain ⟨a, ha⟩ := (G.step_grows h).asyncWorker? hb
  rcases G.step_receives h ha hb hn with hn | ⟨pc, pc', rfl, rfl, hcl⟩
  · refine Sys.Received.step ?_ hx h
    rcases G.step_terminateClosed h ha hb hc with hc | hf
    · exact inv.unsignalled v a ha hn hc
    · exact inv.closing x (List.getElem?_mem hx) v hf a ha hn
  · exact .receive runs hx h hcl

theorem FlushOk.closing_step (inv : FlushOk s) (runs : RunOk s) (hx : s.gs[g]? = some x)
    (h : G.step g s x ch = some (t, x')) {y : G} (hy : y ∈ (t.setG g x').gs) {v : Nat}
    (hf : y.termFrame? = some (v, .closeTerminate)) {b : AsyncWorker} (hb : t.asyncWorker? v = some b)
    (hn : b.terminate = none) : (t.setG g x').Received v := by
  obtain ⟨a, ha⟩ := (G.step_grows h).asyncWorker? hb
  rcases mem_setG_of_step h hy with rfl | hy | hi
  · obtain ⟨b', hb', hne⟩ := G.step_closeTerminate h ha hf
    rw [hb] at hb'; cases hb'; exact absurd hn hne
  · rcases G.step_receives h ha hb hn with hn | ⟨pc, pc', rfl, rfl, hcl⟩
    · exact .step (inv.closing y hy v hf a ha hn) hx h
    · exact .receive runs hx h hcl
  · -- a goroutine a step starts is at the first phase of its function
    rcases y with _ | _ | ⟨_, _, _ | _ | _ | _⟩ | _ | ⟨w, pc⟩ | _ | _ | _ <;>
      first | exact hi.elim | cases hf
    rcases hi with e | e <;> cases e

theorem FlushOk.drained_step (inv : FlushOk s) (hx : s.gs[g]? = some x) (h : G.step g s x ch = some (t, x'))
    {v : Nat} {b : AsyncWorker} (hb : t.asyncWorker? v = some b)
    (hp : (∃ pc, G.run v pc ∈ (t.setG g x').gs ∧ pc.Closing) ∨ b.finished = true) : t.Emptied v b := by
  obtain ⟨a, ha⟩ := (G.step_grows h).asyncWorker? hb
  have before (hp : (∃ pc, G.run v pc ∈ s.gs ∧ pc.Closing) ∨ a.finished = true) : t.Emptied v b :=
    (inv.drained v a ha hp).step ha h hb
  rcases hp with ⟨pc, hz, hc⟩ | hf
  · rcases mem_setG_of_step h hz with e | hz | hi
    · obtain ⟨pc₀, rfl⟩ := G.step_run (e ▸ h)
      by_cases hc₀ : pc₀.Closing
      · exact before (.inl ⟨pc₀, List.getElem?_mem hx, hc₀⟩)
      · obtain ⟨r, hp, e'⟩ := Next.toG_inv (by simpa only [G.step] using h)
        rw [← e] at e'
        rcases r with pc' | _ | _ <;> cases e'
        obtain ⟨a', ha', hcs⟩ := asyncWorkerRun_closing hp hc hc₀
        rw [ha] at ha'; cases ha'
        rcases hcs with ⟨-, hq, hcl, rfl⟩ | ⟨rfl, hf | ⟨hn, hcl⟩⟩
        · rw [ha] at hb; cases hb; exact .inl ⟨hq, hcl⟩
        · exact .inr (G.step_later h (inv.signal v a ha hf))
        · exact (inv.unsignalled v a ha hn hcl .select (List.getElem?_mem hx)).elim
    · exact before (.inl ⟨pc, hz, hc⟩)
    · exact absurd rfl (hi.not_run v pc)
  · obtain ⟨b', hb', -, hfin⟩ := G.step_async h ha
    rw [hb] at hb'; cases hb'
    rcases hfin hf with hf | ⟨rfl, -⟩
    · exact before (.inr hf)
    · exact before (.inl ⟨.finish, List.getElem?_mem hx, trivial⟩)

theorem FlushOk.queued_step (inv : FlushOk s) (hx : s.gs[g]? = some x) (h : G.step g s x ch = some (t, x')) :
    (t.setG g x').Queued := by
  -- an event a `run` goroutine held is held after the step, or reached `Collect`
  have held {v : Nat} {e : Event} {pc : Run} (hr : G.run v pc ∈ s.gs) (hp : pc.holding = some e) :
      Obs.collect v e ∈ t.trace ∨ ∃ pc', G.run v pc' ∈ (t.setG g x').gs ∧ pc'.holding = some e := by
    by_cases hxe : G.run v pc = x
    · subst hxe
      obtain ⟨r, hp', hx'⟩ := G.step_run_cont h
      rcases asyncWorkerRun_holding hp hp' with ⟨pc', rfl, hpc'⟩ | hc
      · exact .inr ⟨pc', by rw [← hx' pc' rfl]; exact List.getElem?_mem (getElem?_setG_self hx h), hpc'⟩
      · exact .inl hc
    · exact .inr ⟨pc, mem_setG_of_ne hx h hr hxe, hp⟩
  intro v e he
  change Obs.enqueue v e ∈ t.trace at he
  -- a step that feeds `v`'s queue carries every disjunct over
  have fed (F : s.Feeds v t) : Obs.collect v e ∈ t.trace ∨ Obs.terminate v false ∈ t.trace ∨
      ∃ b, t.asyncWorker? v = some b ∧ (e ∈ b.queue ∨ ∃ pc, G.run v pc ∈ (t.setG g x').gs ∧ pc.holding = some e) := by
    cases ha : s.asyncWorker? v with
    | none =>
        rcases inv.queued v e ((F.absent ha).2 e he) with hc | hf | ⟨a, ha', -⟩
        · exact .inl (G.step_later h hc)
        · exact .inr (.inl (G.step_later h hf))
        · rw [ha] at ha'; cases ha'
    | some a =>
        obtain ⟨b, hb, -, es, hq, new⟩ := F.present a ha
        rcases new e he with he | hes
        · rcases inv.queued v e he with hc | hf | ⟨a', ha', hin | ⟨pc, hr, hp⟩⟩
          · exact .inl (G.step_later h hc)
          · exact .inr (.inl (G.step_later h hf))
          · rw [ha] at ha'; cases ha'
            exact .inr (.inr ⟨b, hb, .inl (hq ▸ List.mem_append_left _ hin)⟩)
          · exact (held hr hp).imp_right fun hh => .inr ⟨b, hb, .inr hh⟩
        · exact .inr (.inr ⟨b, hb, .inl (hq ▸ List.mem_append_right _ hes)⟩)
  by_cases hxr : ∃ pc, x = .run v pc
  · obtain ⟨pc, rfl⟩ := hxr
    obtain ⟨r, hp, hx'⟩ := G.step_run_cont h
    rcases asyncWorkerRun_feeds (v := v) hp with F | ⟨a, e₀, rest, -, ha, hq, rfl, hpc⟩
    · exact fed F
    · -- `run` took the head of its queue, and holds it now
      have hb := Sys.asyncWorker?_setAsync_self ha { a with queue := rest }
      have now : ∃ pc', G.run v pc' ∈ (((s.setAsync v { a with queue := rest })).setG g x').gs ∧
          pc'.holding = some e₀ := by
        rcases hpc with ⟨-, rfl⟩ | ⟨-, rfl⟩
        · exact ⟨.handleDrops (some e₀), by rw [← hx' _ rfl]; exact List.getElem?_mem (getElem?_setG_self hx h), rfl⟩
        · exact ⟨.drainSend e₀ .start, by rw [← hx' _ rfl]; exact List.getElem?_mem (getElem?_setG_self hx h),
            by simp [Run.holding]⟩
      rcases inv.queued v e he with hc | hf | ⟨a', ha', hin | ⟨pc₁, hr, hp₁⟩⟩
      · exact .inl hc
      · exact .inr (.inl hf)
      · rw [ha] at ha'; cases ha'
        rw [hq] at hin
        rcases List.mem_cons.1 hin with rfl | hin
        · exact .inr (.inr ⟨_, hb, .inr now⟩)
        · exact .inr (.inr ⟨_, hb, .inl hin⟩)
      · exact (held hr hp₁).imp_right fun hh => .inr ⟨_, hb, .inr hh⟩
  · exact fed (G.step_feeds h fun pc e => hxr ⟨pc, e⟩)

theorem flushOk_run (inv : FlushOk s) (runs : RunOk s) (hx : s.gs[g]? = some x)
    (h : G.step g s x ch = some (t, x')) : FlushOk (t.setG g x') :=
  ⟨inv.queued_step hx h, fun _ _ hb hf => inv.signal_step hx h hb hf, fun _ _ _ _ hy => inv.disposing_step hx h hy,
    fun _ _ hb hn hc => inv.unsignalled_step runs hx h hb hn hc,
    fun _ hy _ hf _ hb hn => inv.closing_step runs hx h hy hf hb hn, fun _ _ hb hp => inv.drained_step hx h hb hp⟩

end Preservation

theorem flushOk_call {s : Sys} (inv : FlushOk s) (kinds : KindsOk s) (term : TermOk s) (hold : HoldOk s) {c : Call}
    {s' : Sys} (h : s.call c = some s') : FlushOk s' := by
  obtain ⟨xs, eg, hxs⟩ := Sys.call_gs h
  obtain ⟨ws, ew, -⟩ := Sys.call_workers h
  have trace := Sys.call_trace h
  have live {v : Nat} {a : AsyncWorker} (ha : s.asyncWorker? v = some a) : v < s.workers.length :=
    (List.getElem?_eq_some_iff.1 (Sys.workers_of_asyncWorker? ha)).1
  have old {v : Nat} {a : AsyncWorker} (ha : s.asyncWorker? v = some a) : s'.asyncWorker? v = some a :=
    Sys.asyncWorker?_of (by rw [ew, List.getElem?_append_left (live ha)]; exact Sys.workers_of_asyncWorker? ha)
  have mem {y : G} (hy : y ∈ s.gs) : y ∈ s'.gs := by rw [eg]; exact List.mem_append_left _ hy
  -- the goroutines a call starts: a `run` goroutine for the worker it adds, and no `Terminate`
  have runBefore {v : Nat} {pc : Run} (hz : G.run v pc ∈ s'.gs) :
      G.run v pc ∈ s.gs ∨ (pc = .select ∧ v = s.workers.length) := by
    obtain ⟨i, hi⟩ := List.mem_iff_getElem?.1 hz
    rcases Nat.lt_or_ge i s.gs.length with hlt | hge
    · rw [eg, List.getElem?_append_left hlt] at hi
      exact .inl (List.getElem?_mem hi)
    · obtain ⟨-, rfl⟩ := Sys.call_run h hge hi
      rw [eg, List.getElem?_append_right hge] at hi
      have := hxs _ (List.getElem?_mem hi)
      rcases pc with _ | _ | _ | _ | _ | _ | _ | _ <;> first | exact .inr ⟨rfl, rfl⟩ | exact this.elim
  have frameBefore {y : G} (hy : y ∈ s'.gs) (hf : y.termFrame? ≠ none) : y ∈ s.gs := by
    rw [eg, List.mem_append] at hy
    refine hy.resolve_right fun hy => hf ?_
    have := hxs y hy
    rcases y with _ | _ | ⟨_, _, _ | _ | _ | _⟩ | _ | _ | _ | _ | _ <;> first | exact this.elim | rfl
  have received {v : Nat} (hv : v < s.workers.length) (hr : s.Received v) : s'.Received v := fun pc hz => by
    rcases runBefore hz with hz | ⟨-, rfl⟩
    exacts [hr pc hz, absurd hv (lt_irrefl _)]
  have emptied {v : Nat} {a : AsyncWorker} (he : s.Emptied v a) : s'.Emptied v a := by
    unfold Sys.Emptied; rw [trace]; exact he
  refine ⟨fun v e he => ?_, fun v b hb hf => ?_, fun c' cause v pc hy => ?_, fun v b hb hn hc => ?_,
    fun y hy v hf b hb hn => ?_, fun v b hb hp => ?_⟩
  · rw [trace] at he ⊢
    rcases inv.queued v e he with hc | hf | ⟨a, ha, hin | ⟨pc, hr, hp⟩⟩
    · exact .inl hc
    · exact .inr (.inl hf)
    · exact .inr (.inr ⟨a, old ha, .inl hin⟩)
    · exact .inr (.inr ⟨a, old ha, .inr ⟨pc, mem hr, hp⟩⟩)
  · rw [trace]
    rcases Sys.call_asyncWorker? h hb with hb | ⟨-, e₁, -⟩
    · exact inv.signal v b hb hf
    · rw [e₁] at hf; cases hf
  · rw [trace]; exact inv.disposing c' cause v pc (frameBefore hy (by simp [G.termFrame?]))
  · rcases Sys.call_asyncWorker? h hb with hb' | ⟨-, -, e₂, -⟩
    · exact received (live hb') (inv.unsignalled v b hb' hn hc)
    · rw [e₂] at hc; cases hc
  · have hy := frameBefore hy (by rw [hf]; simp)
    rcases Sys.call_asyncWorker? h hb with hb' | ⟨hv, -⟩
    · exact received (live hb') (inv.closing y hy v hf b hb' hn)
    · -- a `Terminate` runs only for a worker whose `Terminate` started, which the new one is not
      obtain ⟨b', hb'⟩ := term.frames y hy v (G.termFrame?_terminating hf)
      have h₁ := countP_isTerminate_pos.2 ⟨b', hb'⟩
      have h₂ := countP_isTerminate_le_claims s v
      have h₃ := hold.fresh v hv
      omega
  · rcases Sys.call_asyncWorker? h hb with hb' | ⟨hv, -, -, e₄⟩
    · refine emptied (inv.drained v b hb' ?_)
      rcases hp with ⟨pc, hz, hc⟩ | hf
      · rcases runBefore hz with hz | ⟨-, rfl⟩
        exacts [.inl ⟨pc, hz, hc⟩, absurd (live hb') (lt_irrefl _)]
      · exact .inr hf
    · rcases hp with ⟨pc, hz, hc⟩ | hf
      · rcases runBefore hz with hz | ⟨rfl, -⟩
        · have := kinds.run v pc hz
          simp [Sys.kindOf, List.getElem?_eq_none hv] at this
        · exact hc.elim
      · rw [e₄] at hf; cases hf

theorem flushOk_init : FlushOk Sys.init :=
  ⟨fun _ _ h => by simp [Sys.init] at h, fun _ _ h => by simp [Sys.asyncWorker?, Sys.init] at h,
    fun _ _ _ _ h => by simp [Sys.init] at h, fun _ _ h => by simp [Sys.asyncWorker?, Sys.init] at h,
    fun _ h => by simp [Sys.init] at h, fun _ _ h => by simp [Sys.asyncWorker?, Sys.init] at h⟩

theorem reachable_flushOk {s : Sys} (reach : Reachable s) : FlushOk s :=
  reach.induction flushOk_init
    (fun r inv h => flushOk_call inv (reachable_kindsOk r) (reachable_termOk r) (reachable_holdOk r) h)
    fun r inv hx h => flushOk_run inv (reachable_runOk r) hx h

end Cue
