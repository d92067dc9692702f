/-
# Cue.Runtime.Footprint — what each function records, and what it owes

The calls that end a worker's life are observable: `Terminate` starts
(`Obs.terminate`), `Close` is called (`Obs.close`), `Terminate` returns
(`Obs.terminated`). This module says, function by function, which of them a
step can record and which frames make them.

* The delivery functions (`sendWithRetries` … `loggerSend`) record only
  deliveries, and leave every worker's termination alone: no value is sent on
  a `terminate` channel, no channel is closed, `finished` and a `syncWorker`'s
  `terminated` stay as they are (`Sys.Delivers`, `loggerSend_delivers`).
* A frame owes a worker the end of its `Terminate` while it runs one
  (`Owed.term`), and a call of `Close` while it may still make it: a
  `syncWorker`'s `Terminate` before `closeCollector` starts, an `asyncWorker`'s
  `run` goroutine before its `cleanup` calls `closeCollector` (`Owed.close`).
  Every `terminated` and `close` a step records pays one such debt
  (`Pays`, `G.step_pays`).
-/
import Cue.Runtime.Collect

namespace Cue

set_option autoImplicit false

/-! ## Kinds of observation -/

/-- What a delivery records: `Send`, the queue, and the calls into `Collect`. -/
@[simp] def Obs.isDelivery : Obs → Bool
  | .send _ _ | .enqueue _ _ | .drop _ _ | .sendClosed _ _ | .collect _ _ | .collected _ _ _ => true
  | _ => false

@[simp] def Obs.isTerminate (w : Nat) : Obs → Bool
  | .terminate v _ => v = w
  | _ => false

@[simp] def Obs.isClose (w : Nat) : Obs → Bool
  | .close v _ => v = w
  | _ => false

@[simp] def Obs.isTerminated (w : Nat) : Obs → Bool
  | .terminated v => v = w
  | _ => false

section Count

variable {l : List Obs} {w : Nat}

theorem countP_isTerminate_pos : 0 < l.countP (Obs.isTerminate w) ↔ ∃ b, Obs.terminate w b ∈ l := by
  rw [List.countP_pos_iff]
  constructor
  · rintro ⟨o, ho, he⟩; cases o <;> simp at he; exact ⟨_, he ▸ ho⟩
  · rintro ⟨b, hb⟩; exact ⟨_, hb, by simp⟩

theorem countP_isClose_pos : 0 < l.countP (Obs.isClose w) ↔ ∃ o, Obs.close w o ∈ l := by
  rw [List.countP_pos_iff]
  constructor
  · rintro ⟨o, ho, he⟩; cases o <;> simp at he; exact ⟨_, he ▸ ho⟩
  · rintro ⟨o, ho⟩; exact ⟨_, ho, by simp⟩

theorem countP_isTerminated_pos : 0 < l.countP (Obs.isTerminated w) ↔ Obs.terminated w ∈ l := by
  rw [List.countP_pos_iff]
  constructor
  · rintro ⟨o, ho, he⟩; cases o <;> simp at he; exact he ▸ ho
  · intro ho; exact ⟨_, ho, by simp⟩

end Count

/-! ## Debts -/

/-- A `syncWorker`'s `Terminate` owes a call of `Close` until `closeCollector` starts. -/
def Terminate.owesClose : Terminate → Bool
  | .lock => true
  | .close .start => true
  | _ => false

/-- The `run` goroutine owes a call of `Close` until `cleanup`'s `closeCollector` starts. -/
def Run.owesClose : Run → Bool
  | .close (.log _) => false
  | .finish => false
  | _ => true

/-- What frames still owe each worker: the end of a `Terminate` (`term`), and a
call of `Close` (`close`). -/
structure Owed where
  term : Nat → Nat
  close : Nat → Nat

def Owed.zero : Owed := ⟨fun _ => 0, fun _ => 0⟩

/-- A `Terminate` of worker `w`, at `pc`. -/
def Terminate.owed (w : Nat) (pc : Terminate) : Owed :=
  ⟨fun v => if w = v then 1 else 0, fun v => if w = v ∧ pc.owesClose = true then 1 else 0⟩

/-- The `run` goroutine of worker `w`, at `pc`. -/
def Run.owed (w : Nat) (pc : Run) : Owed :=
  ⟨fun _ => 0, fun v => if w = v ∧ pc.owesClose = true then 1 else 0⟩

def Dispose.owed : Dispose → Owed
  | .terminate w pc => Terminate.owed w pc
  | _ => .zero

def G.owed : G → Owed
  | .run w pc => Run.owed w pc
  | .dispose _ _ pc => pc.owed
  | .terminator w pc => Terminate.owed w pc
  | _ => .zero

/-- The debts of a function's next position: none once it has returned. -/
def Next.owed {α β : Type} (f : α → Owed) : Next α β → Owed
  | .cont pc => f pc
  | _ => .zero

/-- `m'` owes no more than `m`. -/
def Owed.Le (m' m : Owed) : Prop := ∀ v, m'.term v ≤ m.term v ∧ m'.close v ≤ m.close v

/-- Recording `os` from debts `m` to `m'`: each `terminated v` and each
`close v` pays one debt to `v`. -/
def Pays (os : List Obs) (m m' : Owed) : Prop :=
  ∀ v, m'.term v + os.countP (Obs.isTerminated v) ≤ m.term v ∧
    m'.close v + os.countP (Obs.isClose v) ≤ m.close v

theorem countP_isClose_of_delivery {os : List Obs} (h : ∀ o ∈ os, o.isDelivery) (v : Nat) :
    os.countP (Obs.isClose v) = 0 :=
  List.countP_eq_zero.2 fun o ho => by
    have := h o ho; cases o <;> first | exact Bool.false_ne_true | cases this

theorem countP_isTerminated_of_delivery {os : List Obs} (h : ∀ o ∈ os, o.isDelivery) (v : Nat) :
    os.countP (Obs.isTerminated v) = 0 :=
  List.countP_eq_zero.2 fun o ho => by
    have := h o ho; cases o <;> first | exact Bool.false_ne_true | cases this

theorem Pays.of_delivery {os : List Obs} {m m' : Owed} (h : ∀ o ∈ os, o.isDelivery)
    (hm : m'.Le m) : Pays os m m' := fun v => by
  rw [countP_isTerminated_of_delivery h, countP_isClose_of_delivery h]
  exact hm v

/-! ## Termination left alone -/

/-- `y` is worker `x` after a step that is not one of its `Terminate`'s or its
`run`'s own: the `terminate` channel keeps its value, no channel is closed, and
`finished` and `terminated` stay. -/
def Worker.Quiet : Worker → Worker → Prop
  | .sync x, .sync y => y.terminated = x.terminated
  | .async x, .async y => y.terminate = x.terminate ∧ y.terminateClosed = x.terminateClosed ∧
      y.queueClosed = x.queueClosed ∧ y.finished = x.finished
  | _, _ => False

theorem Worker.Quiet.refl (x : Worker) : x.Quiet x := by
  cases x <;> simp [Worker.Quiet]

theorem Worker.Quiet.trans {x y z : Worker} (h₁ : x.Quiet y) (h₂ : y.Quiet z) : x.Quiet z := by
  cases x <;> cases y <;> cases z <;> simp_all [Worker.Quiet]

/-- Every worker of `ws` is still in `ws'`, quiet. -/
structure Workers.Quiet (ws ws' : List Worker) : Prop where
  length : ws'.length = ws.length
  quiet : ∀ (w : Nat) (x y : Worker), ws[w]? = some x → ws'[w]? = some y → x.Quiet y

theorem Workers.Quiet.refl (ws : List Worker) : Workers.Quiet ws ws :=
  ⟨rfl, fun _ x y hx hy => by rw [hx] at hy; cases hy; exact .refl _⟩

theorem Workers.Quiet.trans {ws ws' ws'' : List Worker} (h₁ : Workers.Quiet ws ws')
    (h₂ : Workers.Quiet ws' ws'') : Workers.Quiet ws ws'' := by
  refine ⟨h₂.1.trans h₁.1, fun w x z hx hz => ?_⟩
  obtain ⟨y, hy⟩ : ∃ y, ws'[w]? = some y := by
    have := (List.getElem?_eq_some_iff.1 hx).1
    exact ⟨_, List.getElem?_eq_getElem (h₁.1 ▸ this)⟩
  exact (h₁.2 w x y hx hy).trans (h₂.2 w y z hy hz)

theorem Workers.Quiet.set {ws : List Worker} {w : Nat} {x y : Worker} (hw : ws[w]? = some x)
    (hq : x.Quiet y) : Workers.Quiet ws (ws.set w y) := by
  refine ⟨List.length_set .., fun v a b ha hb => ?_⟩
  rw [List.getElem?_set] at hb
  split_ifs at hb with h₁
  · subst h₁; rw [hw] at ha; cases ha; cases hb; exact hq
  · rw [ha] at hb; cases hb; exact .refl _

/-- The goroutines a delivery starts: the notices of `handleDegradation`, and the
goroutine of `recoverCollector`. -/
def G.Notice : G → Prop
  | .log (.start _ _ _) => True
  | .dispose _ _ .lock => True
  | _ => False

/-- A step of a delivery function: it records deliveries only, leaves every
worker's termination alone, and starts only notices. -/
structure Sys.Delivers (s s' : Sys) : Prop where
  trace : ∃ os, s'.trace = s.trace ++ os ∧ ∀ o ∈ os, o.isDelivery
  quiet : Workers.Quiet s.workers s'.workers
  spawned : ∃ xs, s'.gs = s.gs ++ xs ∧ ∀ x ∈ xs, x.Notice

namespace Sys.Delivers

variable {s t u : Sys}

theorem of_eq (trace : t.trace = s.trace) (workers : t.workers = s.workers) (gs : t.gs = s.gs) :
    s.Delivers t :=
  ⟨⟨[], by simp [trace], by simp⟩, workers ▸ .refl _, ⟨[], by simp [gs], by simp⟩⟩

theorem trans (h₁ : s.Delivers t) (h₂ : t.Delivers u) : s.Delivers u where
  trace := by
    obtain ⟨o₁, e₁, p₁⟩ := h₁.trace
    obtain ⟨o₂, e₂, p₂⟩ := h₂.trace
    refine ⟨o₁ ++ o₂, by rw [e₂, e₁, List.append_assoc], fun o ho => ?_⟩
    rcases List.mem_append.1 ho with ho | ho
    exacts [p₁ o ho, p₂ o ho]
  quiet := h₁.quiet.trans h₂.quiet
  spawned := by
    obtain ⟨x₁, e₁, p₁⟩ := h₁.spawned
    obtain ⟨x₂, e₂, p₂⟩ := h₂.spawned
    refine ⟨x₁ ++ x₂, by rw [e₂, e₁, List.append_assoc], fun x hx => ?_⟩
    rcases List.mem_append.1 hx with hx | hx
    exacts [p₁ x hx, p₂ x hx]

theorem record {o : Obs} (ho : o.isDelivery) : s.Delivers (s.record o) :=
  ⟨⟨[o], rfl, by simpa using ho⟩, .refl _, ⟨[], by simp [Sys.record], by simp⟩⟩

theorem sending (s : Sys) (n : Nat) : s.Delivers { s with sending := n } :=
  of_eq rfl rfl rfl

/-- A goroutine started by a delivery: a notice, or the goroutine of `recoverCollector`. -/
theorem spawn {x : G} (hx : x.Notice) : s.Delivers (s.spawn x) :=
  ⟨⟨[], by simp [Sys.spawn], by simp⟩, .refl _, ⟨[x], rfl, by simpa using hx⟩⟩

theorem setSync {w : Nat} {y : SyncWorker} (hw : s.syncWorker? w = some y) (x : SyncWorker)
    (hq : x.terminated = y.terminated) : s.Delivers (s.setSync w x) :=
  ⟨⟨[], by simp [Sys.setSync], by simp⟩, .set (workers_of_syncWorker? hw) hq, ⟨[], by simp [Sys.setSync], by simp⟩⟩

theorem setAsync {w : Nat} {y : AsyncWorker} (hw : s.asyncWorker? w = some y) (x : AsyncWorker)
    (hq : (Worker.async y).Quiet (.async x)) : s.Delivers (s.setAsync w x) :=
  ⟨⟨[], by simp [Sys.setAsync], by simp⟩, .set (workers_of_asyncWorker? hw) hq,
    ⟨[], by simp [Sys.setAsync], by simp⟩⟩

theorem setDegraded {c : Collector} {b : Bool} (h : s.setDegraded c b = some t) : s.Delivers t := by
  unfold Sys.setDegraded at h
  split_ifs at h
  cases h; exact of_eq rfl rfl rfl

end Sys.Delivers

/-! ## Delivery -/

open Sys

variable {s s' : Sys} {g w : Nat} {ch : Choice} {c : Collector} {e : Event}

theorem sendWithRetries_delivers {k : Nat} {pc : Retries} {r : Next Retries (Option Err)}
    (h : sendWithRetries w c e k s pc ch = some (s', r)) : s.Delivers s' := by
  unfold sendWithRetries at h
  dsimp only at h
  split at h
  · split at h
    · split at h
      · cases h; exact .record rfl
      · split at h <;> cases h <;> exact .record rfl
      · cases h; exact (Delivers.record (by rfl)).trans (.spawn trivial)
    · cases h
  · cases h; exact .record rfl

theorem ensureErrorSent_delivers {err : Err} {drops : UInt64} {pc : Ensure}
    {r : Next Ensure (Option Nat)} (h : ensureErrorSent w c err drops s pc ch = some (s', r)) :
    s.Delivers s' := by
  unfold ensureErrorSent at h
  dsimp only [Sys.fresh] at h
  split at h
  · cases h; refine Delivers.trans ?_ (.record (by rfl)); exact .of_eq rfl rfl rfl
  · split at h
    · split at h <;> cases h <;> exact .record rfl
    · cases h

theorem handleDegradation_delivers {err : Err} {drops : UInt64} {pc : Degrade}
    {r : Next Degrade Unit} (h : handleDegradation w c err drops s pc ch = some (s', r)) :
    s.Delivers s' := by
  unfold handleDegradation at h
  split at h
  · obtain ⟨t, ht, h⟩ := Option.map_eq_some'.1 h
    cases h; exact (Delivers.setDegraded ht).trans (.spawn trivial)
  · split at h <;> cases h
    · exact ensureErrorSent_delivers ‹_›
    · exact ensureErrorSent_delivers ‹_›
    · refine (ensureErrorSent_delivers ‹_›).trans ?_; exact .spawn trivial
    · exact ensureErrorSent_delivers ‹_›
  · obtain ⟨t, ht, h⟩ := Option.map_eq_some'.1 h
    cases h; exact (Delivers.setDegraded ht).trans (.spawn trivial)

theorem syncWorkerSendEvent_delivers {pc : SendEvent} {r : Next SendEvent Unit}
    (h : syncWorkerSendEvent w c e s pc ch = some (s', r)) : s.Delivers s' := by
  unfold syncWorkerSendEvent at h
  split at h
  · split at h <;> cases h <;> exact sendWithRetries_delivers ‹_›
  · obtain ⟨x, hx, h⟩ := Option.map_eq_some'.1 h
    cases h; exact .setSync hx _ rfl
  · split at h <;> cases h <;> exact handleDegradation_delivers ‹_›

theorem asyncWorkerSendEvent_delivers {pc : SendEvent} {r : Next SendEvent Unit}
    (h : asyncWorkerSendEvent w c e s pc ch = some (s', r)) : s.Delivers s' := by
  unfold asyncWorkerSendEvent at h
  split at h
  · split at h <;> cases h <;> exact sendWithRetries_delivers ‹_›
  · obtain ⟨x, hx, h⟩ := Option.map_eq_some'.1 h
    cases h; exact .setAsync hx _ (by simp [Worker.Quiet])
  · split at h
    · cases h; exact handleDegradation_delivers ‹_›
    · obtain ⟨x, hx, h⟩ := Option.map_eq_some'.1 h
      cases h; exact (handleDegradation_delivers ‹_›).trans (.setAsync hx _ (by simp [Worker.Quiet]))
    · cases h; exact handleDegradation_delivers ‹_›
    · cases h

theorem syncWorkerSend_delivers {pc : SyncSend} {r : Next SyncSend Unit}
    (h : syncWorkerSend g w e s pc ch = some (s', r)) : s.Delivers s' := by
  unfold syncWorkerSend at h
  split at h
  · split_ifs at h <;> cases h <;> exact .setSync ‹_› _ (by rfl)
  · split at h <;> cases h <;> exact syncWorkerSendEvent_delivers ‹_›
  · cases h; exact .setSync ‹_› _ (by rfl)
  · cases h

theorem asyncWorkerSend_delivers {x : AsyncWorker} (hx : s.asyncWorker? w = some x)
    (h : asyncWorkerSend w e s x = some s') : s.Delivers s' := by
  unfold asyncWorkerSend at h
  split_ifs at h <;> cases h <;>
    exact (Delivers.setAsync hx _ (by simp [Worker.Quiet])).trans (.record rfl)

theorem loggerSend_delivers {pc : Dispatch} {r : Next Dispatch Unit}
    (h : loggerSend g s pc ch = some (s', r)) : s.Delivers s' := by
  unfold loggerSend at h
  split at h
  · dsimp only [Sys.fresh] at h
    split_ifs at h <;> cases h <;> exact .of_eq rfl rfl rfl
  · cases h; exact .of_eq rfl rfl rfl
  · cases h; exact .of_eq rfl rfl rfl
  · cases h; exact .of_eq rfl rfl rfl
  · split at h
    · split at h
      · cases h
      · dsimp only at h
        split_ifs at h
        · split at h
          · split at h <;> cases h
            · refine Delivers.trans ?_ (asyncWorkerSend_delivers (asyncWorker?_of ‹_›) ‹_›)
              exact .record rfl
            · exact (Delivers.record (by rfl)).trans ((Delivers.sending _ _).trans (.record (by rfl)))
          · cases h; exact .record rfl
          · cases h
        · cases h; exact .of_eq rfl rfl rfl
    · cases h
  · split at h <;> cases h <;> rename_i hs
    all_goals first | exact syncWorkerSend_delivers hs | exact (syncWorkerSend_delivers hs).trans (.sending _ _)

/-- A step whose frames work for the workers `own` (a `Terminate` of `w`, or
`w`'s `run` goroutine; none for a logging call): besides deliveries it records
only the `Close` of a worker of `own`, when `closing` (its `closeCollector` was
at `.start`), and the end of the `Terminate` of one; each pays a debt. It
leaves the other workers quiet and starts only notices. -/
structure Sys.Settles (own : Nat → Prop) (closing : Prop) (s s' : Sys) (m m' : Owed) : Prop where
  trace : ∃ os, s'.trace = s.trace ++ os ∧
    (∀ o ∈ os, o.isDelivery ∨ ∃ w, own w ∧ (o.isClose w ∧ closing ∨ o.isTerminated w)) ∧ Pays os m m'
  length : s'.workers.length = s.workers.length
  quiet : ∀ v, ¬own v → ∀ x y, s.workers[v]? = some x → s'.workers[v]? = some y → x.Quiet y
  spawned : ∃ xs, s'.gs = s.gs ++ xs ∧ ∀ x ∈ xs, x.Notice

namespace Sys.Settles

variable {own : Nat → Prop} {closing : Prop} {s t u : Sys} {m m' m'' : Owed}

theorem of_delivers (h : s.Delivers t) (hm : m'.Le m) : s.Settles own closing t m m' := by
  obtain ⟨os, e, hd⟩ := h.trace
  exact ⟨⟨os, e, fun o ho => .inl (hd o ho), .of_delivery hd hm⟩, h.quiet.1, fun v _ => h.quiet.2 v,
    h.spawned⟩

theorem trans (h : s.Settles own closing t m m') (h' : t.Settles own closing u m' m'') :
    s.Settles own closing u m m'' := by
  obtain ⟨⟨os, e, ho, hp⟩, hl, hq, xs, eg, hxs⟩ := h
  obtain ⟨⟨os', e', ho', hp'⟩, hl', hq', xs', eg', hxs'⟩ := h'
  refine ⟨⟨os ++ os', by rw [e', e, List.append_assoc], fun o h => ?_, fun v => ?_⟩, hl'.trans hl,
    fun v hv x z hx hz => ?_, xs ++ xs', by rw [eg', eg, List.append_assoc], fun x h => ?_⟩
  · rcases List.mem_append.1 h with h | h
    exacts [ho o h, ho' o h]
  · rw [List.countP_append, List.countP_append]
    have := hp v; have := hp' v; omega
  · obtain ⟨y, hy⟩ : ∃ y, t.workers[v]? = some y := by
      have := (List.getElem?_eq_some_iff.1 hz).1
      exact ⟨_, List.getElem?_eq_getElem (hl' ▸ this)⟩
    exact (hq v hv x y hx hy).trans (hq' v hv y z hy hz)
  · rcases List.mem_append.1 h with h | h
    exacts [hxs x h, hxs' x h]

theorem record {o : Obs} {w : Nat} (hw : own w) (ho : o.isClose w ∧ closing ∨ o.isTerminated w)
    (hp : Pays [o] m m') : s.Settles own closing (s.record o) m m' :=
  ⟨⟨[o], rfl, by simpa using .inr ⟨w, hw, ho⟩, hp⟩, rfl,
    fun _ _ x y hx hy => by simp only [Sys.record, hx, Option.some.injEq] at hy; rw [hy]; exact .refl _,
    ⟨[], by simp [Sys.record], by simp⟩⟩

/-- A change to a worker of `own`. -/
theorem set {w : Nat} {x : Worker} (hw : own w) (hm : m'.Le m) :
    s.Settles own closing { s with workers := s.workers.set w x } m m' :=
  ⟨⟨[], by simp, by simp, .of_delivery (by simp) hm⟩, List.length_set .., fun v hv a b ha hb => by
    rw [List.getElem?_set_ne (by rintro rfl; exact hv hw), ha] at hb; cases hb; exact .refl _,
    ⟨[], by simp, by simp⟩⟩

/-- A change to a worker of `own`, then the rest of the step. -/
theorem set_trans {w : Nat} {x : Worker} (hw : own w)
    (h : Sys.Settles own closing { s with workers := s.workers.set w x } t m m') :
    s.Settles own closing t m m' :=
  (set hw fun _ => ⟨le_rfl, le_rfl⟩).trans h

theorem mono {n n' : Owed} (h : s.Settles own closing t m m')
    (hn : ∀ v, m.term v ≤ n.term v ∧ m.close v ≤ n.close v) (hn' : n'.Le m') :
    s.Settles own closing t n n' := by
  obtain ⟨⟨os, e, ho, hp⟩, hl, hq, hs⟩ := h
  refine ⟨⟨os, e, ho, fun v => ?_⟩, hl, hq, hs⟩
  have := hp v; have := hn v; have := hn' v; omega

end Sys.Settles

theorem closeCollector_footprint {pc : CloseCollector} {r : Next CloseCollector Unit}
    (h : closeCollector g w c s pc ch = some (s', r)) :
    (s.Delivers s' ∨ pc = .start ∧ ∃ o, s' = s.record (.close w o)) ∧ r.cont? ≠ some .start := by
  unfold closeCollector at h
  split at h
  · split_ifs at h
    · split at h
      · split at h <;> cases h <;> exact ⟨.inr ⟨rfl, _, rfl⟩, by simp [Next.cont?]⟩
      · cases h
    · cases h; exact ⟨.inl (.of_eq rfl rfl rfl), by simp [Next.cont?]⟩
  · split at h <;> cases h <;> exact ⟨.inl (loggerSend_delivers ‹_›), by simp [Next.cont?]⟩

/-! ## Frames that work for a worker -/

theorem Owed.Le.refl (m : Owed) : m.Le m := fun _ => ⟨le_rfl, le_rfl⟩

theorem Owed.zero_le (m : Owed) : Owed.zero.Le m := fun _ => ⟨Nat.zero_le _, Nat.zero_le _⟩

/-- A `Terminate` frame moves on without calling `Close`. -/
theorem Terminate.owed_le (w : Nat) {pc pc' : Terminate} (h : pc'.owesClose = true → pc.owesClose = true) :
    (Terminate.owed w pc').Le (Terminate.owed w pc) := fun v => by
  by_cases h₁ : pc'.owesClose <;> by_cases h₂ : pc.owesClose <;> simp_all [Terminate.owed]

/-- The `run` goroutine moves on without calling `Close`. -/
theorem Run.owed_le (w : Nat) {pc pc' : Run} (h : pc'.owesClose = true → pc.owesClose = true) :
    (Run.owed w pc').Le (Run.owed w pc) := fun v => by
  by_cases h₁ : pc'.owesClose <;> by_cases h₂ : pc.owesClose <;> simp_all [Run.owed]

theorem Terminate.owed_close (w : Nat) (pc : CloseCollector) (v : Nat) :
    (Terminate.owed w (.close pc)).close v = if w = v ∧ pc = .start then 1 else 0 := by
  cases pc <;> simp [Terminate.owed, Terminate.owesClose]

theorem Run.owed_close (w : Nat) (pc : CloseCollector) (v : Nat) :
    (Run.owed w (.close pc)).close v = if w = v ∧ pc = .start then 1 else 0 := by
  cases pc <;> simp [Run.owed, Run.owesClose]

/-- `closeCollector` for worker `w`, run by a frame that owes `Close` exactly
while at `.start` and owes it no more afterwards: the call of `Close` pays that
debt. -/
theorem closeCollector_settles {pc : CloseCollector} {r : Next CloseCollector Unit} {m m' : Owed}
    {closing : Prop} (h : closeCollector g w c s pc ch = some (s', r)) (hc : pc = .start → closing)
    (hterm : ∀ v, m'.term v ≤ m.term v) (hclose : ∀ v, m'.close v = 0)
    (hm : ∀ v, m.close v = if w = v ∧ pc = .start then 1 else 0) : s.Settles (w = ·) closing s' m m' := by
  rcases (closeCollector_footprint h).1 with hd | ⟨rfl, o, rfl⟩
  · exact .of_delivers hd fun v => ⟨hterm v, by rw [hclose v]; exact Nat.zero_le _⟩
  · refine .record rfl (.inl ⟨by simp, hc rfl⟩) fun v => ⟨by simpa using hterm v, ?_⟩
    rw [hclose v, hm v]
    by_cases hv : w = v <;> simp [hv]

theorem syncWorkerTerminate_settles {pc : Terminate} {r : Next Terminate Unit}
    (h : syncWorkerTerminate g w s pc ch = some (s', r)) :
    s.Settles (w = ·) (pc = .close .start) s' (Terminate.owed w pc) (r.owed (Terminate.owed w)) := by
  unfold syncWorkerTerminate at h
  split at h
  · split_ifs at h; cases h
    exact .set rfl (Terminate.owed_le w fun _ => rfl)
  · rename_i pc _
    split at h
    · rename_i t pc' hc
      cases h
      have hr : pc' ≠ .start := by simpa [Next.cont?] using (closeCollector_footprint hc).2
      exact closeCollector_settles hc (fun e => e ▸ rfl) (fun _ => le_rfl)
        (fun v => by simp [Next.owed, Terminate.owed_close, hr]) (Terminate.owed_close w pc)
    · rename_i t hc
      obtain ⟨y, -, h⟩ := Option.map_eq_some'.1 h
      cases h
      -- the frame has closed the collector and still owes the end of `Terminate`
      have close : s.Settles (w = ·) (Terminate.close pc = .close .start) t (Terminate.owed w (.close pc))
          (Terminate.owed w .closeQueue) :=
        closeCollector_settles hc (fun e => e ▸ rfl) (fun _ => le_rfl) (fun _ => by simp [Terminate.owed, Terminate.owesClose])
          (Terminate.owed_close w pc)
      refine close.trans (.set_trans rfl (.record rfl (.inr (by simp)) fun v => ?_))
      by_cases hv : w = v <;> simp [Terminate.owed, Next.owed, Owed.zero, Terminate.owesClose, hv]
    · rename_i t hc
      cases h
      exact closeCollector_settles hc (fun e => e ▸ rfl) (fun _ => Nat.zero_le _) (fun _ => rfl) (Terminate.owed_close w pc)
    · cases h
  · cases h

theorem asyncWorkerTerminate_settles {flush : Bool} {pc : Terminate} {r : Next Terminate Unit}
    (h : asyncWorkerTerminate w flush s pc = some (s', r)) :
    s.Settles (w = ·) (pc = .close .start) s' (Terminate.owed w pc) (r.owed (Terminate.owed w)) := by
  unfold asyncWorkerTerminate at h
  split at h <;> (try split_ifs at h) <;> cases h
  all_goals first
    | exact .set rfl (Terminate.owed_le w fun h => by cases h)
    | exact .of_delivers (.of_eq rfl rfl rfl) (Owed.zero_le _)
    | exact .record rfl (.inr (by simp)) fun v => by
        by_cases hv : w = v <;> simp [Terminate.owed, Next.owed, Owed.zero, Terminate.owesClose, hv]

theorem terminateWorker_settles {flush : Bool} {pc : Terminate} {r : Next Terminate Unit}
    (h : terminateWorker g w flush s pc ch = some (s', r)) :
    s.Settles (w = ·) (pc = .close .start) s' (Terminate.owed w pc) (r.owed (Terminate.owed w)) := by
  unfold terminateWorker at h
  split at h
  · exact syncWorkerTerminate_settles h
  · exact asyncWorkerTerminate_settles h
  · cases h

theorem asyncWorkerRun_settles {pc : Run} {r : Next Run Unit}
    (h : asyncWorkerRun g w s pc ch = some (s', r)) :
    s.Settles (w = ·) (pc = .close .start) s' (Run.owed w pc) (r.owed (Run.owed w)) := by
  -- every step but the one into `closeCollector` keeps or drops the debt of `Close`
  have le {pc : Run} {r : Next Run Unit} (hr : ∀ pc', r = .cont pc' → pc'.owesClose = true → pc.owesClose = true) :
      (r.owed (Run.owed w)).Le (Run.owed w pc) := by
    rcases r with pc' | _ | _
    · exact Run.owed_le w (hr pc' rfl)
    all_goals exact Owed.zero_le _
  have keep {pc : Run} {pc' : Run} (h : pc'.owesClose = true → pc.owesClose = true) :
      (Next.owed (Run.owed w) (.cont pc' : Next Run Unit)).Le (Run.owed w pc) := le fun _ e => by cases e; exact h
  unfold asyncWorkerRun at h
  split at h
  · cases h
  · split at h
    · split at h <;> (try split_ifs at h) <;> cases h <;>
        first
        | exact .set rfl (keep fun _ => rfl)
        | exact .of_delivers (.of_eq rfl rfl rfl) (keep fun _ => rfl)
    · split_ifs at h <;> cases h <;> exact .of_delivers (.of_eq rfl rfl rfl) (keep fun _ => rfl)
    · split at h
      · cases h; exact .of_delivers (handleDegradation_delivers ‹_›) (keep fun _ => rfl)
      · obtain ⟨y, -, h⟩ := Option.map_eq_some'.1 h
        cases h
        exact .trans (.of_delivers (handleDegradation_delivers ‹_›) (.refl _)) (.set rfl (keep fun _ => rfl))
      · cases h; exact .of_delivers (handleDegradation_delivers ‹_›) (Owed.zero_le _)
      · cases h
    · split at h <;> cases h <;>
        first
        | exact .of_delivers (asyncWorkerSendEvent_delivers ‹_›) (keep fun _ => rfl)
        | exact .of_delivers (asyncWorkerSendEvent_delivers ‹_›) (Owed.zero_le _)
    · split at h
      · cases h; exact .set rfl (keep fun _ => rfl)
      · split_ifs at h; cases h; exact .of_delivers (.of_eq rfl rfl rfl) (keep fun _ => rfl)
    · split at h <;> cases h <;>
        first
        | exact .of_delivers (asyncWorkerSendEvent_delivers ‹_›) (keep fun _ => rfl)
        | exact .of_delivers (asyncWorkerSendEvent_delivers ‹_›) (Owed.zero_le _)
    · rename_i pc
      split at h
      · rename_i t pc' hc
        cases h
        have hr : pc' ≠ .start := by simpa [Next.cont?] using (closeCollector_footprint hc).2
        exact closeCollector_settles hc (fun e => e ▸ rfl) (fun _ => le_rfl)
          (fun v => by simp [Next.owed, Run.owed_close, hr]) (Run.owed_close w pc)
      · rename_i t hc
        obtain ⟨y, -, h⟩ := Option.map_eq_some'.1 h
        cases h
        have close : s.Settles (w = ·) (Run.close pc = .close .start) t (Run.owed w (.close pc))
            (Run.owed w .finish) :=
          closeCollector_settles hc (fun e => e ▸ rfl) (fun _ => le_rfl) (fun _ => by simp [Run.owed, Run.owesClose])
            (Run.owed_close w pc)
        exact close.trans (.set rfl (.refl _))
      · rename_i t hc
        cases h
        exact closeCollector_settles hc (fun e => e ▸ rfl) (fun _ => le_rfl) (fun _ => rfl) (Run.owed_close w pc)
      · cases h
    · cases h; exact .set rfl (Owed.zero_le _)

/-- The worker a goroutine of `recoverCollector` works for while it terminates it. -/
def Dispose.owns : Dispose → Nat → Prop
  | .terminate w _ => (w = ·)
  | _ => fun _ => False

/-- `closeCollector` of the `Terminate` of `dispose` at `.start`. -/
def Dispose.closing : Dispose → Prop
  | .terminate _ pc => pc = .close .start
  | _ => False

theorem dispose_settles {cause : Nat} {pc : Dispose} {r : Next Dispose Unit} (hpc : pc ≠ .lock)
    (h : dispose g c cause s pc ch = some (s', r)) :
    s.Settles pc.owns pc.closing s' pc.owed (r.owed Dispose.owed) := by
  unfold dispose at h
  split at h
  · exact absurd rfl hpc
  · split at h <;> cases h <;> exact terminateWorker_settles ‹_›
  · cases h; exact .of_delivers (.of_eq rfl rfl rfl) (Owed.zero_le _)
  · split at h <;> cases h <;> exact .of_delivers (loggerSend_delivers ‹_›) (Owed.zero_le _)

/-! ## One step of a goroutine -/

/-- The workers a goroutine's frames work for. -/
def G.owns : G → Nat → Prop
  | .run w _ => (w = ·)
  | .terminator w _ => (w = ·)
  | .dispose _ _ pc => pc.owns
  | _ => fun _ => False

/-- A goroutine whose `closeCollector` is at `.start`. -/
def G.closing : G → Prop
  | .run _ pc => pc = .close .start
  | .dispose _ _ pc => pc.closing
  | .terminator _ pc => pc = .close .start
  | _ => False

/-- The goroutines whose steps settle: all but the two steps that retire
workers under `cfg.mu` (`dispose` taking the lock, `terminateAsync`) and the
caller of `Close`. -/
def G.Settling : G → Prop
  | .dispose _ _ .lock => False
  | .terminateAsync _ _ => False
  | .close _ => False
  | _ => True

theorem Next.toG_owed {α : Type} (k : α → G) (p : Sys × Next α Unit) :
    (Next.toG k p).2.owed = p.2.owed fun pc => (k pc).owed := by
  obtain ⟨_, _ | _ | _⟩ := p <;> rfl

theorem G.step_settles {x x' : G} {t : Sys} (h : G.step g s x ch = some (t, x')) (hx : x.Settling) :
    s.Settles x.owns x.closing t x.owed x'.owed := by
  unfold G.step at h
  split at h
  · obtain ⟨r, hp, rfl⟩ := Next.toG_inv h
    rw [Next.toG_owed]; exact .of_delivers (loggerSend_delivers hp) fun v => by
      obtain ⟨_, _ | _ | _⟩ := r <;> exact ⟨le_rfl, le_rfl⟩
  · obtain ⟨r, hp, rfl⟩ := Next.toG_inv h
    rw [Next.toG_owed]; exact asyncWorkerRun_settles hp
  · rename_i pc
    obtain ⟨r, hp, rfl⟩ := Next.toG_inv h
    rw [Next.toG_owed]
    exact dispose_settles (by rintro rfl; exact hx) hp
  · exact hx.elim
  · obtain ⟨r, hp, rfl⟩ := Next.toG_inv h
    rw [Next.toG_owed]; exact terminateWorker_settles hp
  · exact hx.elim
  · cases h
  · cases h

/-! ## Retiring workers -/

/-- `terminateWorkers`' loop records one `Terminate(true)` per entry and starts
one goroutine for it. -/
theorem spawnTerminators_eq (s : Sys) (reg : List Entry) :
    (spawnTerminators s reg).1.trace = s.trace ++ reg.map (fun e => .terminate e.worker true) ∧
    (spawnTerminators s reg).1.gs = s.gs ++ reg.map (fun e =>
      .terminator e.worker (((s.workers[e.worker]?).map Worker.terminateStart).getD .lock)) := by
  induction reg generalizing s with
  | nil => simp [spawnTerminators]
  | cons e rest ih =>
      obtain ⟨h₁, h₂⟩ := ih ((s.record (.terminate e.worker true)).spawn
        (.terminator e.worker (((s.workers[e.worker]?).map Worker.terminateStart).getD .lock)))
      exact ⟨h₁.trans (by simp [Sys.spawn, Sys.record]), h₂.trans (by simp [Sys.spawn, Sys.record])⟩

end Cue
