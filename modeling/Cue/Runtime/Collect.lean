/-
# Cue.Runtime.Collect — the calls into `Collect`

A goroutine is inside `c.Collect(e)` between the step that records
`Obs.collect w e` and the one that records `Obs.collected w e o`; `G.inCollect?`
reads the worker and event off its position. `CollectStep` says what one step
does: it enters one call, leaves the one it is in, or neither, and records
exactly that. Each function has its lemma (`sendWithRetries_collectSteps`, …,
`G.step_collectSteps`).

A goroutine inside `Collect` through `w` holds `w`'s mutex or is `w`'s `run`
goroutine (`G.inCollect?_owner`). With the mutex invariant and the uniqueness
of `run` goroutines (`RunOk`), two goroutines are never inside `Collect`
through one worker (`collect_exclusive`).
-/
import Cue.Runtime.Mutex

namespace Cue

set_option autoImplicit false

/-! ## Which call a position is in -/

def Obs.isCollect : Obs → Bool
  | .collect _ _ => true
  | .collected _ _ _ => true
  | _ => false

def Retries.inCollect? (w : Nat) (e : Event) (pc : Retries) : Option (Nat × Event) :=
  if pc.collecting then some (w, e) else none

def Ensure.inCollect? (w : Nat) (pc : Ensure) : Option (Nat × Event) := pc.event.map ((w, ·))

def Degrade.inCollect? (w : Nat) : Degrade → Option (Nat × Event)
  | .ensure pc => pc.inCollect? w
  | _ => none

def SendEvent.inCollect? (w : Nat) (e : Event) : SendEvent → Option (Nat × Event)
  | .retries pc => pc.inCollect? w e
  | .addDrops _ => none
  | .degrade _ _ pc => pc.inCollect? w

def SyncSend.inCollect? (w : Nat) (e : Event) : SyncSend → Option (Nat × Event)
  | .sendEvent pc => pc.inCollect? w e
  | _ => none

def Dispatch.inCollect? : Dispatch → Option (Nat × Event)
  | .send e w pc _ => pc.inCollect? w e
  | _ => none

def CloseCollector.inCollect? : CloseCollector → Option (Nat × Event)
  | .start => none
  | .log d => d.inCollect?

def Terminate.inCollect? : Terminate → Option (Nat × Event)
  | .close pc => pc.inCollect?
  | _ => none

def Run.inCollect? (w : Nat) : Run → Option (Nat × Event)
  | .dropsDegrade _ _ pc => pc.inCollect? w
  | .sendEvent e pc => pc.inCollect? w e
  | .drainSend e pc => pc.inCollect? w e
  | .close pc => pc.inCollect?
  | _ => none

def Dispose.inCollect? : Dispose → Option (Nat × Event)
  | .terminate _ pc => pc.inCollect?
  | .report d => d.inCollect?
  | _ => none

/-- The worker and event of the `Collect` call a goroutine is inside. -/
def G.inCollect? : G → Option (Nat × Event)
  | .log d => d.inCollect?
  | .run w pc => pc.inCollect? w
  | .dispose _ _ pc => pc.inCollect?
  | .terminator _ pc => pc.inCollect?
  | _ => none

/-! ## Who may be inside -/

section Owner

variable {v w : Nat} {e e' : Event}

theorem Degrade.inCollect?_fst {pc : Degrade} (h : pc.inCollect? v = some (w, e')) : w = v := by
  rcases pc with _ | pc | _ <;> try cases h
  obtain ⟨_, -, h⟩ := Option.map_eq_some'.1 h; cases h; rfl

theorem SendEvent.inCollect?_fst {pc : SendEvent} (h : pc.inCollect? v e = some (w, e')) : w = v := by
  rcases pc with pc | _ | ⟨_, _, pc⟩
  · simp only [SendEvent.inCollect?, Retries.inCollect?] at h; split_ifs at h; cases h; rfl
  · cases h
  · exact Degrade.inCollect?_fst h

/-- A logging call inside `Collect` is inside `syncWorker.Send`, which holds the
worker's mutex. -/
theorem Dispatch.inCollect?_muCount {d : Dispatch} (h : d.inCollect? = some (w, e)) : 0 < d.muCount w := by
  rcases d with _ | _ | _ | _ | ⟨_, v, _ | pc | _, _⟩ <;> try cases h
  cases SendEvent.inCollect?_fst h
  simp [Dispatch.muCount, SyncSend.muCount]

theorem CloseCollector.inCollect?_muCount {pc : CloseCollector} (h : pc.inCollect? = some (w, e)) :
    0 < pc.muCount w := by
  cases pc with
  | start => cases h
  | log d => exact Dispatch.inCollect?_muCount h

theorem Terminate.inCollect?_muCount {pc : Terminate} (h : pc.inCollect? = some (w, e)) :
    0 < pc.muCount v w := by
  cases pc <;> try cases h
  exact Nat.lt_add_left _ (CloseCollector.inCollect?_muCount h)

/-- A goroutine inside `Collect` through `w` holds `w`'s mutex, or is `w`'s
`run` goroutine. -/
theorem G.inCollect?_owner {x : G} (h : x.inCollect? = some (w, e)) :
    0 < x.muCount w ∨ ∃ pc, x = .run w pc := by
  rcases x with d | ⟨v, pc⟩ | ⟨_, _, pc⟩ | _ | ⟨v, pc⟩ | _ | _ | _ <;> try cases h
  · exact .inl (Dispatch.inCollect?_muCount h)
  · rcases pc with _ | _ | ⟨_, _, pc⟩ | ⟨e₁, pc⟩ | _ | ⟨e₁, pc⟩ | pc | _ <;> try cases h
    · obtain rfl : w = v := Degrade.inCollect?_fst h
      exact .inr ⟨_, rfl⟩
    · obtain rfl : w = v := SendEvent.inCollect?_fst (e := e₁) h
      exact .inr ⟨_, rfl⟩
    · obtain rfl : w = v := SendEvent.inCollect?_fst (e := e₁) h
      exact .inr ⟨_, rfl⟩
    · exact .inl (CloseCollector.inCollect?_muCount h)
  · rcases pc with _ | ⟨_, pc⟩ | _ | d <;> try cases h
    · exact .inl (Terminate.inCollect?_muCount h)
    · exact .inl (Dispatch.inCollect?_muCount h)
  · exact .inl (Terminate.inCollect?_muCount h)

end Owner

/-! ## What a step does to them -/

/-- A step's observations `os` enter at most one `Collect` call or leave the
one the goroutine is in (`a` before, `a'` after), and nothing else. -/
def CollectStep (os : List Obs) (a a' : Option (Nat × Event)) : Prop :=
  (os.filter Obs.isCollect = [] ∧ a' = a) ∨
    (∃ w e, os.filter Obs.isCollect = [.collect w e] ∧ a = none ∧ a' = some (w, e)) ∨
    (∃ w e o, os.filter Obs.isCollect = [.collected w e o] ∧ a = some (w, e) ∧ a' = none)

namespace CollectStep

variable {os : List Obs} {a a' : Option (Nat × Event)}

theorem none (h : os.filter Obs.isCollect = []) (a : Option (Nat × Event)) : CollectStep os a a :=
  .inl ⟨h, rfl⟩

theorem append (h : CollectStep os a a') {os' : List Obs} (h' : os'.filter Obs.isCollect = []) :
    CollectStep (os ++ os') a a' := by
  unfold CollectStep at h ⊢
  simpa only [List.filter_append, h', List.append_nil] using h

theorem append_left (h : CollectStep os a a') {os' : List Obs} (h' : os'.filter Obs.isCollect = []) :
    CollectStep (os' ++ os) a a' := by
  unfold CollectStep at h ⊢
  simpa only [List.filter_append, h', List.nil_append] using h

end CollectStep

/-- A step that records no observation of `Collect`. -/
def NoCollect (s s' : Sys) : Prop := ∃ os, s'.trace = s.trace ++ os ∧ os.filter Obs.isCollect = []

/-- A step that records `os` and enters or leaves `Collect` as `a`, `a'` say. -/
def CollectSteps (s s' : Sys) (a a' : Option (Nat × Event)) : Prop :=
  ∃ os, s'.trace = s.trace ++ os ∧ CollectStep os a a'

namespace CollectSteps

variable {s t u : Sys} {a a' : Option (Nat × Event)}

theorem of_none (h : NoCollect s t) (a : Option (Nat × Event)) : CollectSteps s t a a :=
  let ⟨os, e, h⟩ := h; ⟨os, e, .none h a⟩

/-- The step of a called function, then more work that records no `Collect`. -/
theorem trans_none (h : CollectSteps s t a a') (h' : NoCollect t u) : CollectSteps s u a a' := by
  obtain ⟨os, e, h⟩ := h
  obtain ⟨os', e', h'⟩ := h'
  exact ⟨os ++ os', by rw [e', e, List.append_assoc], h.append h'⟩

/-- Work that records no `Collect`, then the step of a called function. -/
theorem none_trans (h' : NoCollect s t) (h : CollectSteps t u a a') : CollectSteps s u a a' := by
  obtain ⟨os, e, h⟩ := h
  obtain ⟨os', e', h'⟩ := h'
  exact ⟨os' ++ os, by rw [e, e', List.append_assoc], h.append_left h'⟩

theorem mono {b b' : Option (Nat × Event)} (h : CollectSteps s t a a') (hb : b = a) (hb' : b' = a') :
    CollectSteps s t b b' := hb ▸ hb' ▸ h

/-- The step that calls `c.Collect(e)` through worker `w`. -/
theorem enter {w : Nat} {e : Event} (ha : a = none) (ha' : a' = some (w, e)) :
    CollectSteps s (s.record (.collect w e)) a a' := ⟨_, rfl, .inr (.inl ⟨w, e, rfl, ha, ha'⟩)⟩

/-- The step at which `c.Collect(e)` returns `o`. -/
theorem leave {w : Nat} {e : Event} (o : Outcome) (ha : a = some (w, e)) (ha' : a' = none) :
    CollectSteps s (s.record (.collected w e o)) a a' := ⟨_, rfl, .inr (.inr ⟨w, e, o, rfl, ha, ha'⟩)⟩

end CollectSteps

namespace NoCollect

variable {s t u : Sys}

theorem refl (s : Sys) : NoCollect s s := ⟨[], by simp, rfl⟩

theorem trans (h₁ : NoCollect s t) (h₂ : NoCollect t u) : NoCollect s u := by
  obtain ⟨o₁, e₁, h₁⟩ := h₁
  obtain ⟨o₂, e₂, h₂⟩ := h₂
  exact ⟨o₁ ++ o₂, by rw [e₂, e₁, List.append_assoc], by simp [h₁, h₂]⟩

theorem of_trace (h : t.trace = s.trace) : NoCollect s t := ⟨[], by simp [h], rfl⟩

theorem record {o : Obs} (ht : t.trace = s.trace ++ [o]) (ho : o.isCollect = false) : NoCollect s t :=
  ⟨[o], ht, by simp [ho]⟩

end NoCollect

theorem Sys.setDegraded_trace {s t : Sys} {c : Collector} {b : Bool} (h : s.setDegraded c b = some t) :
    t.trace = s.trace := by
  unfold Sys.setDegraded at h; split_ifs at h; cases h; rfl

/-! ## Delivery -/

variable {s s' : Sys} {g w : Nat} {ch : Choice} {c : Collector} {e : Event}

theorem sendWithRetries_collectSteps {k : Nat} {pc : Retries} {r : Next Retries (Option Err)}
    (h : sendWithRetries w c e k s pc ch = some (s', r)) :
    CollectSteps s s' (pc.inCollect? w e) (r.cont?.bind (Retries.inCollect? w e)) := by
  unfold sendWithRetries at h
  dsimp only at h
  split at h
  · rename_i hc
    have ha : pc.inCollect? w e = some (w, e) := by simp [Retries.inCollect?, hc]
    split at h
    · split at h
      · cases h; exact .leave _ ha rfl
      · split at h <;> cases h <;> exact .leave _ ha rfl
      · cases h; exact (CollectSteps.leave _ ha rfl).trans_none (.of_trace rfl)
    · cases h
  · rename_i hc
    cases h; exact .enter (by simp [Retries.inCollect?, hc]) rfl

theorem ensureErrorSent_collectSteps {err : Err} {drops : UInt64} {pc : Ensure}
    {r : Next Ensure (Option Nat)} (h : ensureErrorSent w c err drops s pc ch = some (s', r)) :
    CollectSteps s s' (pc.inCollect? w) (r.cont?.bind (Ensure.inCollect? w)) := by
  unfold ensureErrorSent at h
  dsimp only [Sys.fresh] at h
  split at h
  · rename_i he
    cases h
    exact .none_trans (.of_trace rfl) (.enter (by simp [Ensure.inCollect?, he]) rfl)
  · rename_i e he
    have ha : pc.inCollect? w = some (w, e) := by simp [Ensure.inCollect?, he]
    split at h
    · split at h <;> cases h <;> exact .leave _ ha rfl
    · cases h

theorem handleDegradation_collectSteps {err : Err} {drops : UInt64} {pc : Degrade}
    {r : Next Degrade Unit} (h : handleDegradation w c err drops s pc ch = some (s', r)) :
    CollectSteps s s' (pc.inCollect? w) (r.cont?.bind (Degrade.inCollect? w)) := by
  unfold handleDegradation at h
  split at h
  · obtain ⟨t, ht, h⟩ := Option.map_eq_some'.1 h
    cases h; exact .of_none (.of_trace (Sys.setDegraded_trace ht)) _
  · split at h <;> cases h
    · exact ensureErrorSent_collectSteps ‹_›
    · exact ensureErrorSent_collectSteps ‹_›
    · exact (ensureErrorSent_collectSteps ‹_›).trans_none (.of_trace rfl)
    · exact ensureErrorSent_collectSteps ‹_›
  · obtain ⟨t, ht, h⟩ := Option.map_eq_some'.1 h
    cases h; exact .of_none (.of_trace (Sys.setDegraded_trace ht)) _

theorem syncWorkerSendEvent_collectSteps {pc : SendEvent} {r : Next SendEvent Unit}
    (h : syncWorkerSendEvent w c e s pc ch = some (s', r)) :
    CollectSteps s s' (pc.inCollect? w e) (r.cont?.bind (SendEvent.inCollect? w e)) := by
  unfold syncWorkerSendEvent at h
  split at h
  · split at h <;> cases h <;> exact sendWithRetries_collectSteps ‹_›
  · obtain ⟨x, -, h⟩ := Option.map_eq_some'.1 h
    cases h; exact .of_none (.of_trace rfl) _
  · split at h <;> cases h <;> exact handleDegradation_collectSteps ‹_›

theorem asyncWorkerSendEvent_collectSteps {pc : SendEvent} {r : Next SendEvent Unit}
    (h : asyncWorkerSendEvent w c e s pc ch = some (s', r)) :
    CollectSteps s s' (pc.inCollect? w e) (r.cont?.bind (SendEvent.inCollect? w e)) := by
  unfold asyncWorkerSendEvent at h
  split at h
  · split at h <;> cases h <;> exact sendWithRetries_collectSteps ‹_›
  · obtain ⟨x, -, h⟩ := Option.map_eq_some'.1 h
    cases h; exact .of_none (.of_trace rfl) _
  · split at h
    · cases h; exact handleDegradation_collectSteps ‹_›
    · obtain ⟨x, -, h⟩ := Option.map_eq_some'.1 h
      cases h; exact (handleDegradation_collectSteps ‹_›).trans_none (.of_trace rfl)
    · cases h; exact handleDegradation_collectSteps ‹_›
    · cases h

theorem syncWorkerSend_collectSteps {pc : SyncSend} {r : Next SyncSend Unit}
    (h : syncWorkerSend g w e s pc ch = some (s', r)) :
    CollectSteps s s' (pc.inCollect? w e) (r.cont?.bind (SyncSend.inCollect? w e)) := by
  unfold syncWorkerSend at h
  split at h
  · split_ifs at h <;> cases h <;> exact .of_none (.of_trace rfl) _
  · split at h <;> cases h <;> exact syncWorkerSendEvent_collectSteps ‹_›
  · cases h; exact .of_none (.of_trace rfl) _
  · cases h

theorem asyncWorkerSend_noCollect {x : AsyncWorker} (h : asyncWorkerSend w e s x = some s') :
    NoCollect s s' := by
  unfold asyncWorkerSend at h
  split_ifs at h <;> cases h <;> exact .record rfl (by rfl)

theorem loggerSend_collectSteps {pc : Dispatch} {r : Next Dispatch Unit}
    (h : loggerSend g s pc ch = some (s', r)) :
    CollectSteps s s' pc.inCollect? (r.cont?.bind Dispatch.inCollect?) := by
  unfold loggerSend at h
  split at h
  · dsimp only [Sys.fresh] at h
    split_ifs at h <;> cases h <;> exact .of_none (.of_trace rfl) none
  · cases h; exact .of_none (.of_trace rfl) none
  · cases h; exact .of_none (.of_trace rfl) none
  · cases h; exact .of_none (.of_trace rfl) none
  · split at h
    · split at h
      · cases h
      · dsimp only at h
        split_ifs at h
        · split at h
          · split at h <;> cases h
            · refine .of_none (NoCollect.trans ?_ (asyncWorkerSend_noCollect ‹_›)) none
              exact .record rfl (by rfl)
            · refine .of_none (NoCollect.trans ?_ (.record rfl (by rfl))) none
              exact .record rfl (by rfl)
          · cases h; exact .of_none (.record rfl (by rfl)) none
          · cases h
        · cases h; exact .of_none (.of_trace rfl) none
    · cases h
  · split at h <;> cases h <;> exact syncWorkerSend_collectSteps ‹_›

/-! ## Termination and the worker goroutine -/

theorem closeCollector_collectSteps {pc : CloseCollector} {r : Next CloseCollector Unit}
    (h : closeCollector g w c s pc ch = some (s', r)) :
    CollectSteps s s' pc.inCollect? (r.cont?.bind CloseCollector.inCollect?) := by
  unfold closeCollector at h
  split at h
  · split_ifs at h
    · split at h
      · split at h <;> cases h <;> exact .of_none (.record rfl (by rfl)) none
      · cases h
    · cases h; exact .of_none (.of_trace rfl) none
  · split at h <;> cases h <;> exact loggerSend_collectSteps ‹_›

theorem syncWorkerTerminate_collectSteps {pc : Terminate} {r : Next Terminate Unit}
    (h : syncWorkerTerminate g w s pc ch = some (s', r)) :
    CollectSteps s s' pc.inCollect? (r.cont?.bind Terminate.inCollect?) := by
  unfold syncWorkerTerminate at h
  split at h
  · split_ifs at h; cases h; exact .of_none (.of_trace rfl) none
  · split at h
    · cases h; exact closeCollector_collectSteps ‹_›
    · obtain ⟨y, -, h⟩ := Option.map_eq_some'.1 h
      cases h
      refine (closeCollector_collectSteps ‹_›).trans_none ?_
      exact .record rfl (by rfl)
    · cases h; exact closeCollector_collectSteps ‹_›
    · cases h
  · cases h

theorem asyncWorkerTerminate_noCollect {flush : Bool} {pc : Terminate} {r : Next Terminate Unit}
    (h : asyncWorkerTerminate w flush s pc = some (s', r)) :
    NoCollect s s' ∧ pc.inCollect? = none ∧ r.cont?.bind Terminate.inCollect? = none := by
  unfold asyncWorkerTerminate at h
  split at h <;> (try split_ifs at h) <;> cases h <;>
    first | exact ⟨.of_trace rfl, rfl, rfl⟩ | exact ⟨.record rfl (by rfl), rfl, rfl⟩

theorem terminateWorker_collectSteps {flush : Bool} {pc : Terminate} {r : Next Terminate Unit}
    (h : terminateWorker g w flush s pc ch = some (s', r)) :
    CollectSteps s s' pc.inCollect? (r.cont?.bind Terminate.inCollect?) := by
  unfold terminateWorker at h
  split at h
  · exact syncWorkerTerminate_collectSteps h
  · obtain ⟨hn, ha, ha'⟩ := asyncWorkerTerminate_noCollect h
    exact .mono (.of_none hn none) ha ha'
  · cases h

theorem asyncWorkerRun_collectSteps {pc : Run} {r : Next Run Unit}
    (h : asyncWorkerRun g w s pc ch = some (s', r)) :
    CollectSteps s s' (pc.inCollect? w) (r.cont?.bind (Run.inCollect? w)) := by
  have afterDrops (e : Option Event) : (Run.afterDrops e).inCollect? w = none := by cases e <;> rfl
  unfold asyncWorkerRun at h
  split at h
  · cases h
  · split at h
    · split at h <;> (try split_ifs at h) <;> cases h <;>
        exact .of_none (.of_trace rfl) none
    · split_ifs at h <;> cases h
      · exact .of_none (.of_trace rfl) none
      · exact .mono (.of_none (.of_trace rfl) none) rfl (afterDrops _)
    · split at h
      · cases h; exact handleDegradation_collectSteps ‹_›
      · obtain ⟨y, -, h⟩ := Option.map_eq_some'.1 h
        cases h
        refine .mono ((handleDegradation_collectSteps (r := .ret ()) ‹_›).trans_none ?_) rfl (afterDrops _)
        exact .of_trace rfl
      · cases h; exact handleDegradation_collectSteps ‹_›
      · cases h
    · split at h <;> cases h <;> exact asyncWorkerSendEvent_collectSteps ‹_›
    · split at h
      · cases h; exact .of_none (.of_trace rfl) none
      · split_ifs at h; cases h; exact .of_none (.of_trace rfl) none
    · split at h <;> cases h <;> exact asyncWorkerSendEvent_collectSteps ‹_›
    · split at h
      · cases h; exact closeCollector_collectSteps ‹_›
      · obtain ⟨y, -, h⟩ := Option.map_eq_some'.1 h
        cases h; exact (closeCollector_collectSteps ‹_›).trans_none (.of_trace rfl)
      · cases h; exact closeCollector_collectSteps ‹_›
      · cases h
    · cases h; exact .of_none (.of_trace rfl) none

theorem dispose_collectSteps {cause : Nat} {pc : Dispose} {r : Next Dispose Unit}
    (h : dispose g c cause s pc ch = some (s', r)) :
    CollectSteps s s' pc.inCollect? (r.cont?.bind Dispose.inCollect?) := by
  unfold dispose at h
  split at h
  · split_ifs at h
    split at h
    · cases h; exact .of_none (.of_trace rfl) none
    · obtain ⟨x, -, h⟩ := Option.map_eq_some'.1 h
      cases h; exact .mono (.of_none (.record rfl (by rfl)) none) rfl (by cases x <;> rfl)
  · split at h <;> cases h <;> exact terminateWorker_collectSteps ‹_›
  · cases h; exact .of_none (.of_trace rfl) none
  · split at h <;> cases h <;> exact loggerSend_collectSteps ‹_›

theorem spawnTerminators_noCollect (s : Sys) (reg : List Entry) : NoCollect s (spawnTerminators s reg).1 := by
  induction reg generalizing s with
  | nil => exact .refl s
  | cons e rest ih => refine NoCollect.trans ?_ (ih _); exact .record rfl (by rfl)

theorem terminateAsync_noCollect {r : Nat} {pc : TerminateAsync} {n : Next TerminateAsync Unit}
    (h : terminateAsync g r s pc = some (s', n)) : NoCollect s s' := by
  unfold terminateAsync at h
  split at h
  · split_ifs at h; cases h; exact .record rfl (by rfl)
  · split_ifs at h; cases h; exact spawnTerminators_noCollect _ _
  · split_ifs at h; cases h; exact .refl _
  · cases h; exact .of_trace rfl
  · cases h; exact .of_trace rfl

theorem Next.toG_inCollect? {α : Type} (k : α → G) (p : Sys × Next α Unit) :
    (Next.toG k p).2.inCollect? = p.2.cont?.bind fun pc => (k pc).inCollect? := by
  obtain ⟨_, _ | _ | _⟩ := p <;> rfl

theorem G.step_collectSteps {x x' : G} {t : Sys} (h : G.step g s x ch = some (t, x')) :
    CollectSteps s t x.inCollect? x'.inCollect? := by
  unfold G.step at h
  split at h
  · obtain ⟨r, hp, rfl⟩ := Next.toG_inv h
    rw [Next.toG_inCollect?]; exact loggerSend_collectSteps hp
  · obtain ⟨r, hp, rfl⟩ := Next.toG_inv h
    rw [Next.toG_inCollect?]; exact asyncWorkerRun_collectSteps hp
  · obtain ⟨r, hp, rfl⟩ := Next.toG_inv h
    rw [Next.toG_inCollect?]; exact dispose_collectSteps hp
  · obtain ⟨r, hp, rfl⟩ := Next.toG_inv h
    rw [Next.toG_inCollect?]
    exact .mono (.of_none (terminateAsync_noCollect hp) none) rfl (by obtain ⟨_, _ | _ | _⟩ := r <;> rfl)
  · obtain ⟨r, hp, rfl⟩ := Next.toG_inv h
    rw [Next.toG_inCollect?]; exact terminateWorker_collectSteps hp
  · split at h
    · cases h; exact .of_none (.record rfl (by rfl)) none
    · split_ifs at h; cases h; exact .of_none (.record rfl (by rfl)) none
  · cases h
  · cases h

/-! ## One `run` goroutine per worker -/

/-- A call starts a `run` goroutine only for the worker it adds. -/
theorem Sys.call_run {c : Call} (h : s.call c = some s') {i w : Nat} {pc : Run}
    (hi : s.gs.length ≤ i) (hy : s'.gs[i]? = some (.run w pc)) :
    i = s.gs.length ∧ w = s.workers.length := by
  obtain ⟨k, rfl⟩ := Nat.exists_eq_add_of_le hi
  have new {xs : List G} (e : s'.gs = s.gs ++ xs) : xs[k]? = some (.run w pc) := by
    rwa [e, List.getElem?_append_right hi, Nat.add_sub_cancel_left] at hy
  cases c <;> simp only [Sys.call] at h
  case collect threshold bufsize c =>
    split_ifs at h
    split at h <;> cases h
    · unfold Sys.addWorker at new
      split_ifs at new
      · cases new (List.append_nil _).symm
      · have hk := new rfl
        rcases k with _ | k <;> cases hk; exact ⟨rfl, rfl⟩
    · cases new (List.append_nil _).symm
  case setLevel | setFrames => split_ifs at h; cases h; cases new (List.append_nil _).symm
  case close =>
    cases h
    have hk := @new [.terminateAsync s.results.length .lock, .close s.results.length] (by simp [Sys.spawn])
    rcases k with _ | _ | k <;> cases hk
  all_goals cases h; have hk := new rfl; rcases k with _ | k <;> cases hk

/-- No two goroutines run `run` for one worker. -/
def RunOk (s : Sys) : Prop :=
  ∀ (i j w : Nat) (pc pc' : Run), s.gs[i]? = some (.run w pc) → s.gs[j]? = some (.run w pc') → i = j

theorem runOk_init : RunOk Sys.init := by unfold RunOk; simp [Sys.init]

theorem runOk_call {c : Call} (kinds : KindsOk s) (inv : RunOk s) (h : s.call c = some s') : RunOk s' := by
  obtain ⟨xs, e, -⟩ := Sys.call_gs h
  have old {i w : Nat} {pc : Run} (hy : s'.gs[i]? = some (G.run w pc)) :
      s.gs[i]? = some (.run w pc) ∨ (i = s.gs.length ∧ w = s.workers.length) := by
    rcases Nat.lt_or_ge i s.gs.length with hi | hi
    · rw [e, List.getElem?_append_left hi] at hy; exact .inl hy
    · exact .inr (Sys.call_run h hi hy)
  have live {i w : Nat} {pc : Run} (hy : s.gs[i]? = some (G.run w pc)) : w ≠ s.workers.length := by
    have := kinds.run w pc (List.getElem?_mem hy)
    rintro rfl; simp [Sys.kindOf] at this
  intro i j w pc pc' hi hj
  rcases old hi with hi | ⟨rfl, hw⟩ <;> rcases old hj with hj | ⟨rfl, hw'⟩
  · exact inv i j w pc pc' hi hj
  · exact absurd hw' (live hi)
  · exact absurd hw (live hj)
  · rfl

theorem runOk_run {x x' : G} {t : Sys} (inv : RunOk s) (hx : s.gs[g]? = some x)
    (h : G.step g s x ch = some (t, x')) : RunOk (t.setG g x') := by
  have old {i w : Nat} {pc : Run} (hy : (t.setG g x').gs[i]? = some (G.run w pc)) : ∃ pc, s.gs[i]? = some (.run w pc) := by
    rcases getElem?_setG_of_step hx h hy with ⟨rfl, rfl⟩ | ⟨-, hy⟩ | ⟨-, hy⟩
    · obtain ⟨pc, rfl⟩ := G.step_run h; exact ⟨pc, hx⟩
    · exact ⟨pc, hy⟩
    · exact hy.elim
  intro i j w pc pc' hi hj
  obtain ⟨_, hi⟩ := old hi
  obtain ⟨_, hj⟩ := old hj
  exact inv i j w _ _ hi hj

theorem reachable_runOk (reach : Reachable s) : RunOk s :=
  reach.induction runOk_init (fun r inv h => runOk_call (reachable_kindsOk r) inv h)
    fun _ inv hx h => runOk_run inv hx h

/-! ## Mutual exclusion -/

/-- Two goroutines are never inside `Collect` through the same worker at once. -/
theorem collect_exclusive (reach : Reachable s) {i j w : Nat} {x y : G} {e e' : Event}
    (hx : s.gs[i]? = some x) (hy : s.gs[j]? = some y)
    (hxc : x.inCollect? = some (w, e)) (hyc : y.inCollect? = some (w, e')) : i = j := by
  have mu := reachable_muOk reach
  have kinds := reachable_kindsOk reach
  -- a goroutine holding `w`'s mutex makes `w` a `syncWorker`, which has no `run` goroutine
  have sync {k : Nat} {z : G} (hz : s.gs[k]? = some z) (hm : 0 < z.muCount w) (pc : Run)
      (hr : G.run w pc ∈ s.gs) : False := by
    have h₁ := kinds.run w pc hr
    have h₂ := mu.owner k z w hz hm
    simp only [Sys.muOf, Sys.syncWorker?, Sys.kindOf] at h₁ h₂
    split at h₂ <;> simp_all [Worker.isSync]
  rcases G.inCollect?_owner hxc with hxm | ⟨pc, rfl⟩ <;>
    rcases G.inCollect?_owner hyc with hym | ⟨pc', rfl⟩
  · exact mu.exclusive hx hy hxm hym
  · exact (sync hx hxm pc' (List.getElem?_mem hy)).elim
  · exact (sync hy hym pc (List.getElem?_mem hx)).elim
  · exact reachable_runOk reach i j w pc pc' hx hy

end Cue
