/-
# Cue.Runtime.Mutex — the workers' mutexes

A `syncWorker`'s mutex is held by `Send` after `w.mu.Lock()` and by
`Terminate` while it closes the collector. A goroutine can hold two at once: a
`Terminate` whose `closeCollector` logs a failure, and the logging call's own
`Send`. `G.muCount x v` counts the frames of position `x` that hold worker
`v`'s mutex, and `Sys.muOf s v` is the goroutine the mutex records as owner.

`MuStep` says once what a step may do to the mutexes: keep one, take a free
one, or release one the goroutine holds. Each function has its lemma, from
those of the functions it calls (`syncWorkerSend_muStep`,
`syncWorkerTerminate_muStep`, …, `G.step_muStep`); the functions that never
touch a mutex keep `Sys.muOf` (`sendWithRetries_muOf`, …).

The invariant `MuOk` (`reachable_muOk`): a frame holding a mutex belongs to the
goroutine the mutex records, and no goroutine holds one mutex twice. Mutual
exclusion follows: two goroutines never hold the same mutex
(`MuOk.exclusive`).
-/
import Cue.Runtime.Kinds

namespace Cue

set_option autoImplicit false

/-! ## Who holds a mutex -/

/-- The goroutine worker `v`'s mutex records as its owner. -/
def Sys.muOf (s : Sys) (v : Nat) : Option Nat := (s.syncWorker? v).bind SyncWorker.mu

/-- `Send` of worker `w` holds its mutex after `Lock`. -/
def SyncSend.muCount (w : Nat) (pc : SyncSend) (v : Nat) : Nat :=
  if w = v ∧ pc ≠ .lock then 1 else 0

def Dispatch.muCount : Dispatch → Nat → Nat
  | .send _ w pc _ => SyncSend.muCount w pc
  | _ => fun _ => 0

def CloseCollector.muCount : CloseCollector → Nat → Nat
  | .start => fun _ => 0
  | .log d => d.muCount

/-- `Terminate` of a `syncWorker` `w` holds `w`'s mutex while it closes the collector. -/
def Terminate.muCount (w : Nat) : Terminate → Nat → Nat
  | .close pc => fun v => (if w = v then 1 else 0) + pc.muCount v
  | _ => fun _ => 0

def Run.muCount : Run → Nat → Nat
  | .close pc => pc.muCount
  | _ => fun _ => 0

def Dispose.muCount : Dispose → Nat → Nat
  | .terminate w pc => pc.muCount w
  | .report d => d.muCount
  | _ => fun _ => 0

def G.muCount : G → Nat → Nat
  | .log d => d.muCount
  | .run _ pc => pc.muCount
  | .dispose _ _ pc => pc.muCount
  | .terminator w pc => pc.muCount w
  | _ => fun _ => 0

/-- The mutexes a function holds after its step: none once it has returned. -/
def Next.muCount {α β : Type} (f : α → Nat → Nat) : Next α β → Nat → Nat
  | .cont pc => f pc
  | _ => fun _ => 0

/-! ## What a step may do to them -/

/-- One step of goroutine `g` from `s` to `s'`, whose frames held `n v` and
then hold `n' v` of worker `v`'s mutex: each mutex is kept (and the goroutine
holds it no more often), taken while free, or released. -/
def MuStep (g : Nat) (s s' : Sys) (n n' : Nat → Nat) : Prop :=
  ∀ v, (s'.muOf v = s.muOf v ∧ n' v ≤ n v) ∨
    (s.muOf v = none ∧ s'.muOf v = some g ∧ n' v ≤ n v + 1) ∨
    (s'.muOf v = none ∧ n' v < n v)

namespace MuStep

variable {g : Nat} {s s' : Sys} {n n' : Nat → Nat}

theorem same (h : s'.muOf = s.muOf) (hn : ∀ v, n' v ≤ n v) : MuStep g s s' n n' :=
  fun v => .inl ⟨congrFun h v, hn v⟩

theorem mono (h : MuStep g s s' n n') {m : Nat → Nat} (hm : ∀ v, m v ≤ n' v) :
    MuStep g s s' n m := fun v => by
  rcases h v with ⟨e, le⟩ | ⟨e₁, e₂, le⟩ | ⟨e, lt⟩
  exacts [.inl ⟨e, (hm v).trans le⟩, .inr (.inl ⟨e₁, e₂, (hm v).trans le⟩),
    .inr (.inr ⟨e, lt_of_le_of_lt (hm v) lt⟩)]

/-- The step of a called function, seen from its caller's other frames. -/
theorem trans_same {t : Sys} (h : MuStep g s t n n') (h' : s'.muOf = t.muOf) : MuStep g s s' n n' :=
  fun v => by rw [h']; exact h v

/-- A step that ends by releasing worker `w`'s mutex, which the goroutine held. -/
theorem release {t : Sys} {w : Nat} (h : MuStep g s t n n') (other : ∀ v, v ≠ w → s'.muOf v = t.muOf v)
    (free : s'.muOf w = none) {m : Nat → Nat} (hm : ∀ v, v ≠ w → m v ≤ n' v) (hw : m w < n w) :
    MuStep g s s' n m := fun v => by
  by_cases hv : v = w
  · subst hv; exact .inr (.inr ⟨free, hw⟩)
  · rw [other v hv]; exact (h v).imp (fun ⟨e, le⟩ => ⟨e, (hm v hv).trans le⟩)
      (Or.imp (fun ⟨e₁, e₂, le⟩ => ⟨e₁, e₂, (hm v hv).trans le⟩)
        fun ⟨e, lt⟩ => ⟨e, lt_of_le_of_lt (hm v hv) lt⟩)

theorem add (h : MuStep g s s' n n') (k : Nat → Nat) :
    MuStep g s s' (fun v => k v + n v) (fun v => k v + n' v) := fun v => by
  dsimp only
  rcases h v with ⟨e, le⟩ | ⟨e₁, e₂, le⟩ | ⟨e, lt⟩
  exacts [.inl ⟨e, by omega⟩, .inr (.inl ⟨e₁, e₂, by omega⟩), .inr (.inr ⟨e, by omega⟩)]

end MuStep

namespace Sys

variable {s t : Sys} {w : Nat}

theorem muOf_of_workers (h : t.workers = s.workers) : t.muOf = s.muOf := by
  funext v; simp [Sys.muOf, Sys.syncWorker?, h]

@[simp] theorem muOf_spawn (x : G) : (s.spawn x).muOf = s.muOf := rfl

@[simp] theorem muOf_record (o : Obs) : (s.record o).muOf = s.muOf := rfl

theorem syncWorker?_setAsync {y : AsyncWorker} (hw : s.asyncWorker? w = some y) (x : AsyncWorker)
    (v : Nat) : (s.setAsync w x).syncWorker? v = s.syncWorker? v := by
  have hw := workers_of_asyncWorker? hw
  unfold Sys.syncWorker? Sys.setAsync
  dsimp only
  rw [List.getElem?_set]
  split_ifs with h₁ h₂
  · subst h₁; rw [hw]
  · subst h₁; exact absurd (List.getElem?_eq_some_iff.1 hw).1 h₂
  · rfl

theorem muOf_setAsync {y : AsyncWorker} (hw : s.asyncWorker? w = some y) (x : AsyncWorker) :
    (s.setAsync w x).muOf = s.muOf := by
  funext v; simp [Sys.muOf, syncWorker?_setAsync hw]

theorem muOf_setSync {y : SyncWorker} (hw : s.syncWorker? w = some y) (x : SyncWorker) (v : Nat) :
    (s.setSync w x).muOf v = if w = v then x.mu else s.muOf v := by
  have hw := workers_of_syncWorker? hw
  have hlt : w < s.workers.length := (List.getElem?_eq_some_iff.1 hw).1
  simp only [Sys.muOf, Sys.syncWorker?, Sys.setSync, List.getElem?_set]
  split_ifs <;> simp_all

theorem muOf_setSync_same {y x : SyncWorker} (hw : s.syncWorker? w = some y) (same : x.mu = y.mu) :
    (s.setSync w x).muOf = s.muOf := by
  funext v
  rw [muOf_setSync hw]
  split_ifs with h
  · subst h; simp [Sys.muOf, hw, same]
  · rfl

theorem muOf_setDegraded {c : Collector} {b : Bool} (h : s.setDegraded c b = some t) :
    t.muOf = s.muOf := by
  unfold Sys.setDegraded at h
  split_ifs at h
  cases h; rfl

end Sys

/-! ## The functions that never touch a mutex -/

open Sys

variable {s s' : Sys} {g w : Nat} {ch : Choice} {c : Collector} {e : Event}

theorem sendWithRetries_muOf {k : Nat} {pc : Retries} {r : Next Retries (Option Err)}
    (h : sendWithRetries w c e k s pc ch = some (s', r)) : s'.muOf = s.muOf := by
  unfold sendWithRetries at h
  dsimp only at h
  split at h
  · split at h
    · split at h <;> (try split at h) <;> cases h <;> rfl
    · cases h
  · cases h; rfl

theorem ensureErrorSent_muOf {err : Err} {drops : UInt64} {pc : Ensure}
    {r : Next Ensure (Option Nat)} (h : ensureErrorSent w c err drops s pc ch = some (s', r)) :
    s'.muOf = s.muOf := by
  unfold ensureErrorSent at h
  dsimp only [Sys.fresh] at h
  split at h
  · cases h; rfl
  · split at h
    · split at h <;> cases h <;> rfl
    · cases h

theorem handleDegradation_muOf {err : Err} {drops : UInt64} {pc : Degrade}
    {r : Next Degrade Unit} (h : handleDegradation w c err drops s pc ch = some (s', r)) :
    s'.muOf = s.muOf := by
  unfold handleDegradation at h
  split at h
  · obtain ⟨t, ht, h⟩ := Option.map_eq_some'.1 h
    cases h; rw [muOf_spawn]; exact muOf_setDegraded ht
  · split at h <;> cases h <;> (try rw [muOf_spawn]) <;> exact ensureErrorSent_muOf ‹_›
  · obtain ⟨t, ht, h⟩ := Option.map_eq_some'.1 h
    cases h; rw [muOf_spawn]; exact muOf_setDegraded ht

theorem syncWorkerSendEvent_muOf {pc : SendEvent} {r : Next SendEvent Unit}
    (h : syncWorkerSendEvent w c e s pc ch = some (s', r)) : s'.muOf = s.muOf := by
  unfold syncWorkerSendEvent at h
  split at h
  · split at h <;> cases h <;> exact sendWithRetries_muOf ‹_›
  · obtain ⟨x, hx, h⟩ := Option.map_eq_some'.1 h
    cases h; exact muOf_setSync_same hx rfl
  · split at h <;> cases h <;> exact handleDegradation_muOf ‹_›

theorem asyncWorkerSendEvent_muOf {pc : SendEvent} {r : Next SendEvent Unit}
    (h : asyncWorkerSendEvent w c e s pc ch = some (s', r)) : s'.muOf = s.muOf := by
  unfold asyncWorkerSendEvent at h
  split at h
  · split at h <;> cases h <;> exact sendWithRetries_muOf ‹_›
  · obtain ⟨x, hx, h⟩ := Option.map_eq_some'.1 h
    cases h; exact muOf_setAsync hx _
  · split at h
    · cases h; exact handleDegradation_muOf ‹_›
    · obtain ⟨x, hx, h⟩ := Option.map_eq_some'.1 h
      cases h; exact (muOf_setAsync hx _).trans (handleDegradation_muOf ‹_›)
    · cases h; exact handleDegradation_muOf ‹_›
    · cases h

theorem asyncWorkerSend_muOf {x : AsyncWorker} (hx : s.asyncWorker? w = some x)
    (h : asyncWorkerSend w e s x = some s') : s'.muOf = s.muOf := by
  unfold asyncWorkerSend at h
  split_ifs at h <;> cases h <;> exact muOf_setAsync hx _

theorem asyncWorkerTerminate_muOf {flush : Bool} {pc : Terminate} {r : Next Terminate Unit}
    (h : asyncWorkerTerminate w flush s pc = some (s', r)) : s'.muOf = s.muOf := by
  unfold asyncWorkerTerminate at h
  split at h
  · split_ifs at h <;> cases h
    exacts [rfl, muOf_setAsync ‹_› _]
  · split_ifs at h <;> cases h
    exacts [rfl, muOf_setAsync ‹_› _]
  · split_ifs at h <;> cases h
    exacts [rfl, muOf_setAsync ‹_› _]
  · split_ifs at h; cases h; rfl
  · cases h

/-! ## The functions that take and release one -/

theorem syncWorkerSend_muStep {pc : SyncSend} {r : Next SyncSend Unit}
    (h : syncWorkerSend g w e s pc ch = some (s', r)) :
    MuStep g s s' (SyncSend.muCount w pc) (r.muCount (SyncSend.muCount w)) := by
  unfold syncWorkerSend at h
  split at h
  · rename_i x hx
    split_ifs at h with hmu <;> cases h <;>
    · intro v
      rw [muOf_setSync hx]
      by_cases hv : w = v
      · subst hv
        exact .inr (.inl ⟨by simp [Sys.muOf, hx, hmu], by simp, by simp [Next.muCount, SyncSend.muCount]⟩)
      · exact .inl ⟨by simp [hv], by simp [Next.muCount, SyncSend.muCount, hv]⟩
  · split at h <;> cases h <;>
      exact MuStep.same (syncWorkerSendEvent_muOf ‹_›) fun v => by simp [Next.muCount, SyncSend.muCount]
  · rename_i x hx
    cases h
    intro v
    rw [muOf_setSync hx]
    by_cases hv : w = v
    · subst hv; exact .inr (.inr ⟨by simp, by simp [Next.muCount, SyncSend.muCount]⟩)
    · exact .inl ⟨by simp [hv], by simp [Next.muCount, SyncSend.muCount, hv]⟩
  · cases h

theorem loggerSend_muStep {pc : Dispatch} {r : Next Dispatch Unit}
    (h : loggerSend g s pc ch = some (s', r)) : MuStep g s s' pc.muCount (r.muCount Dispatch.muCount) := by
  have zero (t : Sys) (ht : t.muOf = s.muOf) (hr : ∀ v, r.muCount Dispatch.muCount v = 0) :
      MuStep g s t pc.muCount (r.muCount Dispatch.muCount) := MuStep.same ht fun v => by simp [hr]
  unfold loggerSend at h
  split at h
  · dsimp only [Sys.fresh] at h
    split_ifs at h <;> cases h <;> exact zero _ rfl fun _ => rfl
  · cases h; exact zero _ rfl fun _ => rfl
  · cases h; exact zero _ rfl fun _ => rfl
  · cases h; exact zero _ rfl fun _ => rfl
  · split at h
    · split at h
      · cases h
      · dsimp only at h
        split_ifs at h
        · split at h
          · split at h <;> cases h
            · exact zero _ ((asyncWorkerSend_muOf (asyncWorker?_of ‹_›) ‹_›).trans (muOf_record _))
                fun _ => rfl
            · exact zero _ rfl fun _ => rfl
          · cases h; exact zero _ rfl fun _ => by simp [Next.muCount, Dispatch.muCount, SyncSend.muCount]
          · cases h
        · cases h; exact zero _ rfl fun _ => rfl
    · cases h
  · split at h <;> cases h <;> exact syncWorkerSend_muStep ‹_›

theorem closeCollector_muStep {pc : CloseCollector} {r : Next CloseCollector Unit}
    (h : closeCollector g w c s pc ch = some (s', r)) :
    MuStep g s s' pc.muCount (r.muCount CloseCollector.muCount) := by
  unfold closeCollector at h
  split at h
  · split_ifs at h
    · split at h
      · split at h <;> cases h <;> exact MuStep.same rfl fun _ => by simp [Next.muCount, CloseCollector.muCount, Dispatch.muCount]
      · cases h
    · cases h; exact MuStep.same rfl fun _ => le_rfl
  · split at h <;> cases h <;> exact loggerSend_muStep ‹_›

theorem syncWorkerTerminate_muStep {pc : Terminate} {r : Next Terminate Unit}
    (h : syncWorkerTerminate g w s pc ch = some (s', r)) :
    MuStep g s s' (pc.muCount w) (r.muCount (Terminate.muCount w)) := by
  unfold syncWorkerTerminate at h
  split at h
  · rename_i x hx
    split_ifs at h with hmu
    cases h
    intro v
    rw [muOf_setSync hx]
    by_cases hv : w = v
    · subst hv
      exact .inr (.inl ⟨by simp [Sys.muOf, hx, hmu], by simp, by simp [Next.muCount, Terminate.muCount, CloseCollector.muCount]⟩)
    · exact .inl ⟨by simp [hv], by simp [Next.muCount, Terminate.muCount, CloseCollector.muCount, hv]⟩
  · split at h
    · cases h; exact (closeCollector_muStep ‹_›).add _
    · obtain ⟨y, hy, h⟩ := Option.map_eq_some'.1 h
      cases h
      refine ((closeCollector_muStep ‹_›).add fun v => if w = v then 1 else 0).release
        (fun v hv => by rw [muOf_record, muOf_setSync hy, if_neg (Ne.symm hv)])
        (by rw [muOf_record, muOf_setSync hy, if_pos rfl]) (fun _ _ => by simp [Next.muCount])
        (by simp only [Next.muCount, Terminate.muCount, if_true]; omega)
    · cases h; exact ((closeCollector_muStep ‹_›).add _).mono fun _ => by simp [Next.muCount]
    · cases h
  · cases h

theorem terminateWorker_muStep {flush : Bool} {pc : Terminate} {r : Next Terminate Unit}
    (h : terminateWorker g w flush s pc ch = some (s', r)) :
    MuStep g s s' (pc.muCount w) (r.muCount (Terminate.muCount w)) := by
  unfold terminateWorker at h
  split at h
  · exact syncWorkerTerminate_muStep h
  · refine MuStep.same (asyncWorkerTerminate_muOf h) fun v => ?_
    unfold asyncWorkerTerminate at h
    split at h <;> (try split_ifs at h) <;> cases h <;> simp [Next.muCount, Terminate.muCount]
  · cases h

theorem asyncWorkerRun_muStep {pc : Run} {r : Next Run Unit}
    (h : asyncWorkerRun g w s pc ch = some (s', r)) : MuStep g s s' pc.muCount (r.muCount Run.muCount) := by
  have zero (t : Sys) (ht : t.muOf = s.muOf) (hr : ∀ v, r.muCount Run.muCount v = 0) :
      MuStep g s t pc.muCount (r.muCount Run.muCount) := MuStep.same ht fun v => by simp [hr]
  unfold asyncWorkerRun at h
  split at h
  · cases h
  · rename_i x hx
    split at h
    · split at h <;> (try split_ifs at h) <;> cases h <;>
        first | exact zero _ rfl fun _ => rfl | exact zero _ (muOf_setAsync hx _) fun _ => rfl
    · split_ifs at h <;> cases h
      · exact zero _ rfl fun _ => rfl
      · exact zero _ rfl fun _ => by simp [Next.muCount, Run.afterDrops]; split <;> rfl
    · split at h
      · cases h; exact zero _ (handleDegradation_muOf ‹_›) fun _ => rfl
      · obtain ⟨y, hy, h⟩ := Option.map_eq_some'.1 h
        cases h
        exact zero _ ((muOf_setAsync hy _).trans (handleDegradation_muOf ‹_›))
          fun _ => by simp [Next.muCount, Run.afterDrops]; split <;> rfl
      · cases h; exact zero _ (handleDegradation_muOf ‹_›) fun _ => rfl
      · cases h
    · split at h <;> cases h <;> exact zero _ (asyncWorkerSendEvent_muOf ‹_›) fun _ => rfl
    · split at h
      · cases h; exact zero _ (muOf_setAsync hx _) fun _ => rfl
      · split_ifs at h; cases h; exact zero _ rfl fun _ => rfl
    · split at h <;> cases h <;> exact zero _ (asyncWorkerSendEvent_muOf ‹_›) fun _ => rfl
    · split at h
      · cases h; exact closeCollector_muStep ‹_›
      · obtain ⟨y, hy, h⟩ := Option.map_eq_some'.1 h
        cases h
        exact ((closeCollector_muStep ‹_›).trans_same (muOf_setAsync hy _)).mono fun _ => by
          simp [Next.muCount, Run.muCount]
      · cases h; exact closeCollector_muStep ‹_›
      · cases h
    · cases h; exact zero _ (muOf_setAsync hx _) fun _ => rfl

theorem spawnTerminators_workers (s : Sys) (reg : List Entry) :
    (spawnTerminators s reg).1.workers = s.workers := by
  induction reg generalizing s with
  | nil => rfl
  | cons e rest ih => exact ih _

theorem dispose_muStep {cause : Nat} {pc : Dispose} {r : Next Dispose Unit}
    (h : dispose g c cause s pc ch = some (s', r)) :
    MuStep g s s' pc.muCount (r.muCount Dispose.muCount) := by
  unfold dispose at h
  split at h
  · split_ifs at h
    split at h
    · cases h; exact MuStep.same rfl fun _ => le_rfl
    · obtain ⟨x, -, h⟩ := Option.map_eq_some'.1 h
      cases h
      exact MuStep.same rfl fun _ => by
        cases x <;> simp [Next.muCount, Dispose.muCount, Terminate.muCount, Worker.terminateStart]
  · split at h <;> cases h <;> exact terminateWorker_muStep ‹_›
  · cases h; exact MuStep.same rfl fun _ => le_rfl
  · split at h <;> cases h <;> exact loggerSend_muStep ‹_›

theorem terminateAsync_muOf {r : Nat} {pc : TerminateAsync} {n : Next TerminateAsync Unit}
    (h : terminateAsync g r s pc = some (s', n)) : s'.muOf = s.muOf := by
  unfold terminateAsync at h
  split at h
  · split_ifs at h; cases h; rfl
  · split_ifs at h; cases h; exact muOf_of_workers (spawnTerminators_workers _ _)
  · split_ifs at h; cases h; rfl
  · cases h; rfl
  · cases h; rfl

theorem Next.toG_muCount {α : Type} (k : α → G) (p : Sys × Next α Unit) :
    (Next.toG k p).2.muCount = p.2.muCount fun pc => (k pc).muCount := by
  obtain ⟨_, _ | _ | _⟩ := p <;> rfl

theorem G.step_muStep {x x' : G} {t : Sys} (h : G.step g s x ch = some (t, x')) :
    MuStep g s t x.muCount x'.muCount := by
  unfold G.step at h
  split at h
  · obtain ⟨r, hp, rfl⟩ := Next.toG_inv h
    rw [Next.toG_muCount]; exact loggerSend_muStep hp
  · obtain ⟨r, hp, rfl⟩ := Next.toG_inv h
    rw [Next.toG_muCount]; exact asyncWorkerRun_muStep hp
  · obtain ⟨r, hp, rfl⟩ := Next.toG_inv h
    rw [Next.toG_muCount]; exact dispose_muStep hp
  · obtain ⟨r, hp, rfl⟩ := Next.toG_inv h
    rw [Next.toG_muCount]
    refine MuStep.same (terminateAsync_muOf hp) fun v => ?_
    obtain ⟨_, _ | _ | _⟩ := r <;> simp [Next.muCount, G.muCount]
  · obtain ⟨r, hp, rfl⟩ := Next.toG_inv h
    rw [Next.toG_muCount]; exact terminateWorker_muStep hp
  · split at h
    · cases h; exact MuStep.same rfl fun _ => le_rfl
    · split_ifs at h; cases h; exact MuStep.same rfl fun _ => le_rfl
  · cases h
  · cases h

/-! ## The invariant -/

/-- A frame holding a worker's mutex belongs to the goroutine the mutex records
as owner, and no goroutine holds one mutex twice. -/
structure MuOk (s : Sys) : Prop where
  owner : ∀ g x v, s.gs[g]? = some x → 0 < x.muCount v → s.muOf v = some g
  single : ∀ x ∈ s.gs, ∀ v, x.muCount v ≤ 1

/-- Two goroutines never hold the same worker's mutex. -/
theorem MuOk.exclusive (inv : MuOk s) {i j v : Nat} {x y : G} (hx : s.gs[i]? = some x)
    (hy : s.gs[j]? = some y) (hxv : 0 < x.muCount v) (hyv : 0 < y.muCount v) : i = j :=
  Option.some.inj ((inv.owner i x v hx hxv).symm.trans (inv.owner j y v hy hyv))

theorem G.Initial.muCount {x : G} (hx : x.Initial) (v : Nat) : x.muCount v = 0 := by
  unfold G.Initial at hx
  split at hx <;> first | rfl | (rcases hx with rfl | rfl <;> rfl)

theorem G.CallStart.muCount {x : G} (hx : x.CallStart) (v : Nat) : x.muCount v = 0 := by
  unfold G.CallStart at hx
  split at hx <;> first | rfl | exact hx.elim

theorem Sys.call_muOf {c : Call} (h : s.call c = some s') : s'.muOf = s.muOf := by
  obtain ⟨ws, e, hws⟩ := Sys.call_workers h
  funext v
  simp only [Sys.muOf, Sys.syncWorker?, e]
  rcases Nat.lt_or_ge v s.workers.length with hv | hv
  · rw [List.getElem?_append_left hv]
  · rw [List.getElem?_append_right hv, List.getElem?_eq_none hv]
    cases hx : ws[v - s.workers.length]? with
    | none => rfl
    | some x =>
        obtain ⟨c, b, rfl⟩ := hws x (List.getElem?_mem hx)
        unfold Worker.new; split_ifs <;> rfl

theorem muOk_init : MuOk Sys.init := ⟨by simp [Sys.init], by simp [Sys.init]⟩

theorem muOk_call {c : Call} (inv : MuOk s) (h : s.call c = some s') : MuOk s' := by
  obtain ⟨xs, e, hxs⟩ := Sys.call_gs h
  refine ⟨fun i y v hy hv => ?_, fun y hy v => ?_⟩
  · rw [Sys.call_muOf h]
    rw [e] at hy
    rcases Nat.lt_or_ge i s.gs.length with hi | hi
    · exact inv.owner i y v (by rwa [List.getElem?_append_left hi] at hy) hv
    · rw [List.getElem?_append_right hi] at hy
      rw [(hxs y (List.getElem?_mem hy)).muCount] at hv; cases hv
  · rw [e, List.mem_append] at hy
    rcases hy with hy | hy
    · exact inv.single y hy v
    · rw [(hxs y hy).muCount]; exact Nat.zero_le _

theorem muOk_run {x x' : G} {t : Sys} (inv : MuOk s) (hx : s.gs[g]? = some x)
    (h : G.step g s x ch = some (t, x')) : MuOk (t.setG g x') := by
  have step := G.step_muStep h
  have hmu : (t.setG g x').muOf = t.muOf := muOf_of_workers rfl
  have hxs := List.getElem?_mem hx
  refine ⟨fun i y v hy hv => ?_, fun y hy v => ?_⟩
  · rw [hmu]
    rcases getElem?_setG_of_step hx h hy with ⟨rfl, rfl⟩ | ⟨hi, hy⟩ | ⟨-, hy⟩
    · rcases step v with ⟨e, le⟩ | ⟨-, e, -⟩ | ⟨-, lt⟩
      · rw [e]; exact inv.owner i x v hx (lt_of_lt_of_le hv le)
      · exact e
      · have := inv.single x hxs v; omega
    · rcases step v with ⟨e, -⟩ | ⟨e, -⟩ | ⟨-, lt⟩
      · rw [e]; exact inv.owner i y v hy hv
      · rw [inv.owner i y v hy hv] at e; cases e
      · exact absurd (inv.exclusive hy hx hv (by omega)) hi
    · rw [hy.muCount] at hv; cases hv
  · rcases mem_setG_of_step h hy with rfl | hy | hy
    · rcases step v with ⟨-, le⟩ | ⟨e, -, le⟩ | ⟨-, lt⟩
      · exact le.trans (inv.single x hxs v)
      · have : x.muCount v = 0 := by
          by_contra hne
          rw [inv.owner g x v hx (Nat.pos_of_ne_zero hne)] at e; cases e
        omega
      · have := inv.single x hxs v; omega
    · exact inv.single y hy v
    · rw [hy.muCount]; exact Nat.zero_le _

theorem reachable_muOk (reach : Reachable s) : MuOk s :=
  reach.induction muOk_init (fun _ inv h => muOk_call inv h) fun _ inv hx h => muOk_run inv hx h

end Cue
