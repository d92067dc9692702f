/-
# Cue.Deadlock — `Close` against a degradation in progress

`handleDegradation` calls `setDegraded`, which takes `cfg.mu`, from inside a
worker's delivery: for a `syncWorker` that is a logging call inside `Send`,
still counted in `sending`. `terminateAsync` holds `cfg.mu` while it waits for
`sending` to reach zero. When the two meet, each waits for the other for ever:
`cfg.mu` stays held, so every later `Collect`, `SetLevel`, `SetFrames`, `Close`
and degradation blocks as well, and `Close` returns its timeout.

* `sendDeadlock_forever` — from a reachable state where `terminateAsync` holds
  `cfg.mu` in its wait and a logging call waits for `cfg.mu` in
  `setDegraded`, every run keeps both where they are, neither ever enabled;
* `close_deadlock_reachable` — such a state is reachable: one synchronous
  collector that fails three times, and `Close`.
-/
import Cue.Runtime.Lock

namespace Cue

set_option autoImplicit false

/-! ## Waiting for `cfg.mu` in `setDegraded` -/

def Degrade.awaitsLock : Degrade → Bool
  | .setTrue => true
  | .setFalse => true
  | .ensure _ => false

def SendEvent.awaitsLock : SendEvent → Bool
  | .degrade _ _ pc => pc.awaitsLock
  | _ => false

/-- A logging call inside `syncWorker.Send`, at a `setDegraded` of `handleDegradation`. -/
def Dispatch.awaitsLock : Dispatch → Bool
  | .send _ _ (.sendEvent pc) _ => pc.awaitsLock
  | _ => false

theorem Dispatch.awaitsLock_counted {d : Dispatch} (hd : d.awaitsLock) : d.counted = 1 := by
  cases d <;> first | rfl | exact absurd hd Bool.false_ne_true

section Blocked

variable {s : Sys} {g w : Nat} {ch : Choice} {c : Collector}

theorem handleDegradation_blocked {err : Err} {drops : UInt64} {pc : Degrade} (hp : pc.awaitsLock)
    (hl : s.locked ≠ none) : handleDegradation w c err drops s pc ch = none := by
  cases pc <;> simp_all [Degrade.awaitsLock, handleDegradation, Sys.setDegraded]

theorem loggerSend_blocked {d : Dispatch} (hd : d.awaitsLock) (hl : s.locked ≠ none) :
    loggerSend g s d ch = none := by
  rcases d with _ | _ | _ | _ | ⟨e, w, _ | pc | _, rest⟩ <;> try exact absurd hd Bool.false_ne_true
  rcases pc with _ | _ | ⟨err, drops, pc⟩ <;> try exact absurd hd Bool.false_ne_true
  cases hw : s.syncWorker? w <;> simp [loggerSend, syncWorkerSend, syncWorkerSendEvent, hw,
    handleDegradation_blocked (show pc.awaitsLock from hd) hl]

end Blocked

/-! ## The deadlock -/

/-- `terminateAsync` (goroutine `g`) holds `cfg.mu` while it waits for `sending`
to reach zero, and the logging call of goroutine `h`, which `sending` counts,
waits for `cfg.mu` in `setDegraded`. -/
structure Sys.SendDeadlock (s : Sys) (g h : Nat) : Prop where
  holder : s.locked = some g
  waiting : ∃ r reg, s.gs[g]? = some (.terminateAsync r (.wait reg))
  blocked : ∃ d, s.gs[h]? = some (.log d) ∧ d.awaitsLock

/-- The deadlock, as a check of one state. -/
def Sys.sendDeadlock? (s : Sys) (g h : Nat) : Bool :=
  s.locked = some g &&
    (match s.gs[g]? with
      | some (.terminateAsync _ (.wait _)) => true
      | _ => false) &&
    (match s.gs[h]? with
      | some (.log d) => d.awaitsLock
      | _ => false)

theorem Sys.sendDeadlock?_spec {s : Sys} {g h : Nat} (hc : s.sendDeadlock? g h = true) :
    s.SendDeadlock g h := by
  simp only [Sys.sendDeadlock?, Bool.and_eq_true, decide_eq_true_eq] at hc
  obtain ⟨⟨hl, hg⟩, hh⟩ := hc
  refine ⟨hl, ?_, ?_⟩
  · split at hg
    · rename_i r reg e; exact ⟨r, reg, e⟩
    · cases hg
  · split at hh
    · rename_i d e; exact ⟨d, e, hh⟩
    · cases hh

open Action in
/-- One synchronous collector that fails every call: the logging call exhausts
its retries and reaches `setDegraded(c, true)` while `Close`'s `terminateAsync`
takes `cfg.mu` and waits for it. -/
def closeDeadlockRun : List Action :=
  let fail : Choice := .outcome (.err (.code 1))
  [call (.collect DEBUG 0 ⟨1, false⟩), call .debug,
   run 0 .go, run 0 .go, run 0 .go, run 0 (.pick 0), run 0 .go,
   run 0 .go, run 0 fail, run 0 .go, run 0 fail, run 0 .go, run 0 fail, run 0 .go,
   call .close, run 1 .go]

section Forever

variable {s : Sys} {g h : Nat}

theorem Sys.SendDeadlock.wait_blocked (reach : Reachable s) (hd : s.SendDeadlock g h) (ch : Choice) :
    s.step (.run g ch) = none := by
  obtain ⟨r, reg, hg⟩ := hd.waiting
  obtain ⟨d, hh, hdl⟩ := hd.blocked
  have sending : 0 < s.sending := by
    have := (reachable_sendingOk reach).counted_le hh
    simp only [G.counted, G.dispatch?, Dispatch.inFlight, Option.map_some', Option.getD_some,
      Dispatch.awaitsLock_counted hdl] at this
    omega
  simp [Sys.step, hg, G.step, terminateAsync, Nat.pos_iff_ne_zero.1 sending]

theorem Sys.SendDeadlock.sender_blocked (hd : s.SendDeadlock g h) (ch : Choice) :
    s.step (.run h ch) = none := by
  obtain ⟨d, hh, hdl⟩ := hd.blocked
  simp [Sys.step, hh, G.step, loggerSend_blocked hdl (by rw [hd.holder]; exact Option.some_ne_none g)]

theorem Sys.SendDeadlock.step (reach : Reachable s) (hd : s.SendDeadlock g h) {a : Action} {s' : Sys}
    (hs : s.step a = some s') : s'.SendDeadlock g h := by
  obtain ⟨r, reg, hg⟩ := hd.waiting
  obtain ⟨d, hh, hdl⟩ := hd.blocked
  cases a with
  | call c =>
      obtain ⟨xs, e, -⟩ := Sys.call_gs hs
      have old {i : Nat} {y : G} (hy : s.gs[i]? = some y) : s'.gs[i]? = some y := by
        rw [e, List.getElem?_append_left (List.getElem?_eq_some_iff.1 hy).1, hy]
      exact ⟨(Sys.call_locked hs).trans hd.holder, ⟨r, reg, old hg⟩, ⟨d, old hh, hdl⟩⟩
  | run i ch =>
      have hi : i ≠ g := by rintro rfl; rw [hd.wait_blocked reach ch] at hs; cases hs
      have hih : i ≠ h := by rintro rfl; rw [hd.sender_blocked ch] at hs; cases hs
      simp only [Sys.step] at hs
      split at hs
      · rename_i x hx
        obtain ⟨⟨t, x'⟩, hstep, rfl⟩ := Option.map_eq_some'.1 hs
        exact ⟨(G.step_lockStep hstep).locked_of_holder (reachable_lockOk reach) hx hd.holder (Ne.symm hi),
          ⟨r, reg, getElem?_setG_other hstep (Ne.symm hi) hg⟩,
          ⟨d, getElem?_setG_other hstep (Ne.symm hih) hh, hdl⟩⟩
      · cases hs

/-- Once `terminateAsync` and a logging call wait for each other, every run
keeps them so: neither goroutine is ever enabled again, and `cfg.mu` is never
released. -/
theorem sendDeadlock_forever (reach : Reachable s) (hd : s.SendDeadlock g h) :
    ∀ {as : List Action} {s' : Sys}, s.run as = some s' →
      s'.SendDeadlock g h ∧ ∀ ch, s'.step (.run g ch) = none ∧ s'.step (.run h ch) = none := by
  intro as
  induction as generalizing s with
  | nil =>
      intro s' hr
      cases hr
      exact ⟨hd, fun ch => ⟨hd.wait_blocked reach ch, hd.sender_blocked ch⟩⟩
  | cons a as ih =>
      intro s' hr
      simp only [Sys.run] at hr
      split at hr
      · rename_i t ht
        exact ih (.step a reach ht) (hd.step reach ht) hr
      · cases hr

end Forever

theorem closeDeadlockRun_forever :
    ∃ s, Reachable s ∧ ∀ ch, s.step (.run 1 ch) = none ∧ s.step (.run 0 ch) = none := by
  obtain ⟨s, reach, h⟩ := exists_reachable_of_run (p := fun s => s.sendDeadlock? 1 0 = true)
    closeDeadlockRun (by decide)
  exact ⟨s, reach, (sendDeadlock_forever reach (Sys.sendDeadlock?_spec h) (show s.run [] = some s from rfl)).2⟩

theorem close_deadlock_reachable : ∃ s, Reachable s ∧ s.SendDeadlock 1 0 := by
  obtain ⟨s, reach, h⟩ := exists_reachable_of_run (p := fun s => s.sendDeadlock? 1 0 = true)
    closeDeadlockRun (by decide)
  exact ⟨s, reach, Sys.sendDeadlock?_spec h⟩

end Cue
