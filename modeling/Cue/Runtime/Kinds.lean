/-
# Cue.Runtime.Kinds — which worker a goroutine works for

A goroutine runs at most one logging call at a time: its own, or the one
`closeCollector` or `ReportRecovery` makes (`G.dispatch?`). Inside
`dispatchEvent` it may be in `syncWorker.Send` of one worker
(`Dispatch.target?`), and inside that, or inside an `asyncWorker`'s `run`, in
the recovery loop `ensureErrorSent` of that worker (`G.recovering?`).

The invariant `KindsOk`: the worker a logging call is in `Send` of is a
`syncWorker`, and the worker a `run` goroutine serves is an `asyncWorker`
(`reachable_kindsOk`). A worker keeps its kind for ever (`Sys.Grows.kinds`),
and `dispatchEvent` enters `syncWorker.Send` only after it finds a
`syncWorker` in the table (`loggerSend_target`).
-/
import Cue.Runtime.Frame

namespace Cue

set_option autoImplicit false

/-! ## Views of a position -/

def Next.cont? {α β : Type} : Next α β → Option α
  | .cont pc => some pc
  | _ => none

def CloseCollector.dispatch? : CloseCollector → Option Dispatch
  | .start => none
  | .log pc => some pc

def Terminate.dispatch? : Terminate → Option Dispatch
  | .close pc => pc.dispatch?
  | _ => none

def Run.dispatch? : Run → Option Dispatch
  | .close pc => pc.dispatch?
  | _ => none

def Dispose.dispatch? : Dispose → Option Dispatch
  | .terminate _ pc => pc.dispatch?
  | .report pc => some pc
  | _ => none

/-- The logging call a goroutine is in. -/
def G.dispatch? : G → Option Dispatch
  | .log pc => some pc
  | .run _ pc => pc.dispatch?
  | .dispose _ _ pc => pc.dispatch?
  | .terminator _ pc => pc.dispatch?
  | _ => none

/-- The worker whose `syncWorker.Send` a logging call is in. -/
def Dispatch.target? : Dispatch → Option Nat
  | .send _ w _ _ => some w
  | _ => none

def Degrade.recovering : Degrade → Bool
  | .ensure _ => true
  | _ => false

def SendEvent.recovering : SendEvent → Bool
  | .degrade _ _ pc => pc.recovering
  | _ => false

def Dispatch.recovering? : Dispatch → Option Nat
  | .send _ w (.sendEvent pc) _ => if pc.recovering then some w else none
  | _ => none

def Run.recovering? (w : Nat) : Run → Option Nat
  | .dropsDegrade _ _ pc => if pc.recovering then some w else none
  | .sendEvent _ pc => if pc.recovering then some w else none
  | .drainSend _ pc => if pc.recovering then some w else none
  | _ => none

/-- The worker whose `ensureErrorSent` a goroutine runs. -/
def G.recovering? : G → Option Nat
  | .run w pc => (pc.recovering? w).or (pc.dispatch?.bind Dispatch.recovering?)
  | x => x.dispatch?.bind Dispatch.recovering?

@[simp] theorem Run.afterDrops_dispatch? (e : Option Event) : (Run.afterDrops e).dispatch? = none := by
  cases e <;> rfl

theorem Dispatch.target?_of_recovering? {d : Dispatch} {w : Nat} (h : d.recovering? = some w) :
    d.target? = some w := by
  unfold Dispatch.recovering? at h
  split at h
  · split_ifs at h; cases h; rfl
  · cases h

/-! ## One step and the logging call's target -/

/-- A step from logging call `d` to `d'` enters `Send` only of `syncWorker`s. -/
def TargetOk (s : Sys) (d d' : Option Dispatch) : Prop :=
  ∀ w, d'.bind Dispatch.target? = some w → d.bind Dispatch.target? = some w ∨ s.kindOf w = some true

/-- A step to a position outside `Send`. -/
theorem TargetOk.of_none {s : Sys} {d d' : Option Dispatch} (h : d'.bind Dispatch.target? = none) :
    TargetOk s d d' := fun _ h' => by rw [h] at h'; cases h'

variable {s s' : Sys} {g w : Nat} {ch : Choice} {c : Collector}

theorem loggerSend_target {pc : Dispatch} {r : Next Dispatch Unit}
    (h : loggerSend g s pc ch = some (s', r)) : TargetOk s (some pc) r.cont? := by
  unfold loggerSend at h
  split at h
  · dsimp only [Sys.fresh] at h
    split_ifs at h <;> cases h <;> exact TargetOk.of_none rfl
  · cases h; exact TargetOk.of_none rfl
  · cases h; exact TargetOk.of_none rfl
  · cases h; exact TargetOk.of_none rfl
  · split at h
    · split at h
      · cases h
      · dsimp only at h
        split_ifs at h
        · split at h
          · split at h <;> cases h
            exacts [TargetOk.of_none rfl, TargetOk.of_none rfl]
          · rename_i x hw
            simp only [Sys.record] at hw
            cases h
            intro v hv
            cases hv
            exact .inr (by simp [Sys.kindOf, hw, Worker.isSync])
          · cases h
        · cases h; exact TargetOk.of_none rfl
    · cases h
  · split at h <;> cases h
    exacts [fun _ h => .inl h, TargetOk.of_none rfl, TargetOk.of_none rfl]

theorem closeCollector_target {pc : CloseCollector} {r : Next CloseCollector Unit}
    (h : closeCollector g w c s pc ch = some (s', r)) :
    TargetOk s pc.dispatch? (r.cont?.bind CloseCollector.dispatch?) := by
  unfold closeCollector at h
  split at h
  · split_ifs at h
    · split at h
      · split at h <;> cases h
        exacts [TargetOk.of_none rfl, TargetOk.of_none rfl, TargetOk.of_none rfl]
      · cases h
    · cases h; exact TargetOk.of_none rfl
  · split at h <;> cases h
    · exact loggerSend_target ‹_›
    all_goals exact TargetOk.of_none rfl

theorem syncWorkerTerminate_target {pc : Terminate} {r : Next Terminate Unit}
    (h : syncWorkerTerminate g w s pc ch = some (s', r)) :
    TargetOk s pc.dispatch? (r.cont?.bind Terminate.dispatch?) := by
  unfold syncWorkerTerminate at h
  split at h
  · split_ifs at h; cases h; exact TargetOk.of_none rfl
  · split at h
    · cases h; exact closeCollector_target ‹_›
    · obtain ⟨x, -, h⟩ := Option.map_eq_some'.1 h
      cases h; exact TargetOk.of_none rfl
    · cases h; exact TargetOk.of_none rfl
    · cases h
  · cases h

theorem terminateWorker_target {flush : Bool} {pc : Terminate} {r : Next Terminate Unit}
    (h : terminateWorker g w flush s pc ch = some (s', r)) :
    TargetOk s pc.dispatch? (r.cont?.bind Terminate.dispatch?) := by
  unfold terminateWorker at h
  split at h
  · exact syncWorkerTerminate_target h
  · unfold asyncWorkerTerminate at h
    split at h
    all_goals (try split_ifs at h) <;> cases h <;> exact TargetOk.of_none rfl
  · cases h

theorem asyncWorkerRun_target {pc : Run} {r : Next Run Unit}
    (h : asyncWorkerRun g w s pc ch = some (s', r)) :
    TargetOk s pc.dispatch? (r.cont?.bind Run.dispatch?) := by
  unfold asyncWorkerRun at h
  split at h
  · cases h
  · split at h
    · split at h <;> (try split_ifs at h) <;> cases h <;> exact TargetOk.of_none rfl
    · split_ifs at h <;> cases h
      exacts [TargetOk.of_none rfl, TargetOk.of_none (by simp [Next.cont?])]
    · split at h
      · cases h; exact TargetOk.of_none rfl
      · obtain ⟨x, -, h⟩ := Option.map_eq_some'.1 h
        cases h; exact TargetOk.of_none (by simp [Next.cont?])
      · cases h; exact TargetOk.of_none rfl
      · cases h
    · split at h <;> cases h <;> exact TargetOk.of_none rfl
    · split at h <;> (try split_ifs at h) <;> cases h <;> exact TargetOk.of_none rfl
    · split at h <;> cases h <;> exact TargetOk.of_none rfl
    · split at h
      · cases h; exact closeCollector_target ‹_›
      · obtain ⟨x, -, h⟩ := Option.map_eq_some'.1 h
        cases h; exact TargetOk.of_none rfl
      · cases h; exact TargetOk.of_none rfl
      · cases h
    · cases h; exact TargetOk.of_none rfl

theorem dispose_target {cause : Nat} {pc : Dispose} {r : Next Dispose Unit}
    (h : dispose g c cause s pc ch = some (s', r)) :
    TargetOk s pc.dispatch? (r.cont?.bind Dispose.dispatch?) := by
  unfold dispose at h
  split at h
  · split_ifs at h
    split at h
    · cases h; exact TargetOk.of_none rfl
    · obtain ⟨x, -, h⟩ := Option.map_eq_some'.1 h
      cases h; cases x <;> exact TargetOk.of_none rfl
  · split at h <;> cases h
    · exact terminateWorker_target ‹_›
    all_goals exact TargetOk.of_none rfl
  · cases h; exact TargetOk.of_none rfl
  · split at h <;> cases h
    · exact loggerSend_target ‹_›
    all_goals exact TargetOk.of_none rfl

theorem Next.toG_dispatch? {α : Type} (k : α → G) (p : Sys × Next α Unit) :
    (Next.toG k p).2.dispatch? = p.2.cont?.bind fun pc => (k pc).dispatch? := by
  obtain ⟨_, _ | _ | _⟩ := p <;> rfl

theorem G.step_target {x x' : G} {t : Sys} (h : G.step g s x ch = some (t, x')) :
    TargetOk s x.dispatch? x'.dispatch? := by
  unfold G.step at h
  split at h
  · obtain ⟨r, hp, rfl⟩ := Next.toG_inv h
    rw [Next.toG_dispatch?]; simpa [G.dispatch?] using loggerSend_target hp
  · obtain ⟨r, hp, rfl⟩ := Next.toG_inv h
    rw [Next.toG_dispatch?]; simpa [G.dispatch?] using asyncWorkerRun_target hp
  · obtain ⟨r, hp, rfl⟩ := Next.toG_inv h
    rw [Next.toG_dispatch?]; simpa [G.dispatch?] using dispose_target hp
  · obtain ⟨r, hp, rfl⟩ := Next.toG_inv h
    exact TargetOk.of_none (by rw [Next.toG_dispatch?]; simp [G.dispatch?])
  · obtain ⟨r, hp, rfl⟩ := Next.toG_inv h
    rw [Next.toG_dispatch?]; simpa [G.dispatch?] using terminateWorker_target hp
  · split at h
    · cases h; exact TargetOk.of_none rfl
    · split_ifs at h; cases h; exact TargetOk.of_none rfl
  · cases h
  · cases h

theorem Next.toG_snd_run {α : Type} {k : α → G} {p : Sys × Next α Unit} {pc : Run}
    (h : (Next.toG k p).2 = .run w pc) : ∃ a, k a = .run w pc := by
  obtain ⟨_, _ | _ | _⟩ := p
  · exact ⟨_, h⟩
  all_goals cases h

/-- A goroutine of `asyncWorker.run` stays one, for the same worker. -/
theorem G.step_run {x : G} {t : Sys} {pc' : Run} (h : G.step g s x ch = some (t, .run w pc')) :
    ∃ pc, x = .run w pc := by
  unfold G.step at h
  split at h
  case h_6 =>
    split at h
    · cases h
    · split_ifs at h; cases h
  case h_7 | h_8 => cases h
  all_goals
    obtain ⟨r, -, e⟩ := Next.toG_inv h
    obtain ⟨a, ha⟩ := Next.toG_snd_run e.symm
    cases ha <;> exact ⟨_, rfl⟩

/-! ## The invariant -/

/-- The worker a logging call is in `Send` of is a `syncWorker`; the worker a
`run` goroutine serves is an `asyncWorker`. -/
structure KindsOk (s : Sys) : Prop where
  send : ∀ x ∈ s.gs, ∀ w, x.dispatch?.bind Dispatch.target? = some w → s.kindOf w = some true
  run : ∀ w pc, G.run w pc ∈ s.gs → s.kindOf w = some false

theorem G.Initial.target {x : G} (hx : x.Initial) : x.dispatch?.bind Dispatch.target? = none := by
  unfold G.Initial at hx
  split at hx <;> first | rfl | (rcases hx with rfl | rfl <;> rfl)

theorem G.Initial.not_run {x : G} (hx : x.Initial) (w : Nat) (pc : Run) : x ≠ .run w pc := by
  rintro rfl; exact hx

theorem kindsOk_init : KindsOk Sys.init := ⟨by simp [Sys.init], by simp [Sys.init]⟩

theorem kindsOk_run {x x' : G} {t : Sys} (inv : KindsOk s) (hx : s.gs[g]? = some x)
    (h : G.step g s x ch = some (t, x')) : KindsOk (t.setG g x') := by
  have kinds : ∀ v, (t.setG g x').kindOf v = s.kindOf v := (G.step_grows h).kinds
  refine ⟨fun y hy v hv => ?_, fun v pc hy => ?_⟩ <;> rw [kinds]
  · rcases mem_setG_of_step h hy with rfl | hy | hy
    · exact (G.step_target h v hv).elim (inv.send x (List.getElem?_mem hx) v) id
    · exact inv.send y hy v hv
    · rw [hy.target] at hv; cases hv
  · rcases mem_setG_of_step h hy with e | hy | hy
    · obtain ⟨pc, rfl⟩ := G.step_run (e ▸ h)
      exact inv.run v pc (List.getElem?_mem hx)
    · exact inv.run v pc hy
    · exact absurd rfl (hy.not_run v pc)

theorem kindOf_append {s : Sys} {ws : List Worker} {v : Nat} {b : Bool} (h : s.kindOf v = some b) :
    ({ s with workers := s.workers ++ ws } : Sys).kindOf v = some b := by
  obtain ⟨x, hx, -⟩ := Option.map_eq_some'.1 h
  simpa [Sys.kindOf, List.getElem?_append_left (List.getElem?_eq_some_iff.1 hx).1] using h

theorem kindsOk_call {c : Call} (inv : KindsOk s) (h : s.call c = some s') : KindsOk s' := by
  cases c <;> simp only [Sys.call] at h
  case collect threshold bufsize c =>
    split_ifs at h
    split at h <;> cases h
    · refine ⟨fun y hy v hv => ?_, fun v pc hy => ?_⟩ <;> unfold Sys.addWorker at hy ⊢
      · split_ifs at hy ⊢ <;> simp only [Sys.spawn, List.mem_append, List.mem_singleton] at hy
        · exact kindOf_append (inv.send y hy v hv)
        · rcases hy with hy | rfl
          · exact kindOf_append (inv.send y hy v hv)
          · cases hv
      · split_ifs at hy ⊢ with hb <;> simp only [Sys.spawn, List.mem_append, List.mem_singleton] at hy
        · exact kindOf_append (inv.run v pc hy)
        · rcases hy with hy | ⟨rfl, -⟩
          · exact kindOf_append (inv.run v pc hy)
          · simp [Sys.kindOf, Sys.spawn, Worker.new, hb, Worker.isSync, List.getElem?_concat_length]
    · exact inv
  case setLevel | setFrames => split_ifs at h; cases h; exact ⟨inv.send, inv.run⟩
  case close =>
    cases h
    refine ⟨fun y hy v hv => ?_, fun v pc hy => ?_⟩ <;>
      simp only [Sys.spawn, List.mem_append, List.mem_singleton] at hy
    · rcases hy with (hy | rfl) | rfl
      · exact inv.send y hy v hv
      all_goals cases hv
    · rcases hy with (hy | hy) | hy
      · exact inv.run v pc hy
      all_goals cases hy
  all_goals
    cases h
    refine ⟨fun y hy v hv => ?_, fun v pc hy => ?_⟩ <;>
      simp only [Sys.spawn, List.mem_append, List.mem_singleton] at hy
    · rcases hy with hy | rfl
      · exact inv.send y hy v hv
      · cases hv
    · rcases hy with hy | hy
      · exact inv.run v pc hy
      · cases hy

theorem reachable_kindsOk (reach : Reachable s) : KindsOk s :=
  reach.induction kindsOk_init (fun _ inv h => kindsOk_call inv h) fun _ inv hx h => kindsOk_run inv hx h

end Cue
