/-
# Cue.Drops — drops counted after the last dequeue are never reported

`asyncWorker.Send` counts a drop when the queue is full. The `run` goroutine
reports the count through `handleDegradation` in `handleDrops`, which it calls
only after taking an event from the queue in its `select`; `cleanup` drains the
queue with `sendEvent` alone. So a drop counted after the last event the
`select` took, or while the `select` picks the `terminate` channel over a
non-empty queue, is never reported.

* `cleanup_never_handles_drops` — once the `run` goroutine has received from
  the `terminate` channel, it stays in `cleanup` until it ends, and never runs
  `handleDrops` again;
* `unreported_drop_reachable` — `Terminate(true)` returns while `lastdrops` is
  below `drops`: an event is dropped while the `run` goroutine is in `Collect`,
  and its `select` then takes the `terminate` channel.
-/
import Cue.Termination

namespace Cue

set_option autoImplicit false

/-- Once the `run` goroutine of `w` has received from the `terminate` channel,
it stays in `cleanup` in every later state: it never runs `handleDrops` again. -/
theorem cleanup_never_handles_drops {s : Sys} (reach : Reachable s) {w : Nat} {pc : Run}
    (hr : G.run w pc ∈ s.gs) (hc : pc.Cleaning) {acts : List Action} {s' : Sys} (h : s.run acts = some s') :
    ∀ pc', G.run w pc' ∈ s'.gs → pc'.Cleaning := by
  have hw : w < s.workers.length := by
    have := (reachable_kindsOk reach).run w pc hr
    simp only [Sys.kindOf, Option.map_eq_some'] at this
    obtain ⟨_, hz, -⟩ := this
    exact (List.getElem?_eq_some_iff.1 hz).1
  refine (run_stable (P := fun u => w < u.workers.length ∧ ∀ pc', G.run w pc' ∈ u.gs → pc'.Cleaning)
    ?_ ?_ reach ⟨hw, fun pc' hr' => ?_⟩ h).2
  · -- a call starts `run` goroutines only for the worker it adds
    rintro u u' c - ⟨hw, inv⟩ hcall
    obtain ⟨ws, ew, -⟩ := Sys.call_workers hcall
    refine ⟨by rw [ew, List.length_append]; omega, fun pc' hr' => ?_⟩
    obtain ⟨i, hi⟩ := List.mem_iff_getElem?.1 hr'
    obtain ⟨xs, eg, -⟩ := Sys.call_gs hcall
    rcases Nat.lt_or_ge i u.gs.length with hlt | hge
    · rw [eg, List.getElem?_append_left hlt] at hi
      exact inv pc' (List.getElem?_mem hi)
    · exact absurd (Sys.call_run hcall hge hi).2 (by omega)
  · rintro u t g x x' ch - ⟨hw, inv⟩ hx hs
    refine ⟨by rw [show (t.setG g x').workers = t.workers from rfl, (G.step_grows hs).workers.length]; exact hw,
      fun pc' hr' => ?_⟩
    obtain ⟨i, hi⟩ := List.mem_iff_getElem?.1 hr'
    rcases getElem?_setG_of_step hx hs hi with ⟨rfl, e⟩ | ⟨-, hi⟩ | ⟨-, hin⟩
    · obtain ⟨pc₀, rfl⟩ := G.step_run (e ▸ hs)
      obtain ⟨r, hp, e'⟩ := Next.toG_inv (by simpa only [G.step] using hs)
      rcases r with _ | _ | _ <;> cases e.trans e'
      exact asyncWorkerRun_stays_cleaning hp (inv pc₀ (List.getElem?_mem hx))
    · exact inv pc' (List.getElem?_mem hi)
    · exact hin.elim
  · -- the `run` goroutine of `w` is its only one
    obtain ⟨i, hi⟩ := List.mem_iff_getElem?.1 hr
    obtain ⟨j, hj⟩ := List.mem_iff_getElem?.1 hr'
    obtain rfl := reachable_runOk reach i j w pc pc' hi hj
    rw [hi] at hj
    cases hj
    exact hc

open Action in
/-- One asynchronous collector with a one-slot queue, then three logging calls
and `Close`. The `run` goroutine takes the first event and enters `Collect`; the
second event fills the queue and the third is dropped; `Close` calls
`Terminate(true)`, and the `select` takes the `terminate` channel: `cleanup`
drains the second event and closes `finished` with the drop unreported. -/
def lateDropRun : List Action :=
  [call (.collect DEBUG 1 ⟨1, false⟩),
   call .debug, run 1 .go, run 1 .go, run 1 .go, run 1 (.pick 0), run 1 .go,
   run 0 .queue, run 0 .go, run 0 .go,
   call .debug, run 2 .go, run 2 .go, run 2 .go, run 2 (.pick 0), run 2 .go,
   call .debug, run 3 .go, run 3 .go, run 3 .go, run 3 (.pick 0), run 3 .go,
   call .close, run 4 .go, run 4 .go, run 6 .go, run 6 .go, run 6 .go,
   run 0 (.outcome .ok), run 0 .terminate]

/-- The witness of `cleanup_never_handles_drops`: at the end of `lateDropRun`
the `run` goroutine of worker 0 is draining its queue, and stays in `cleanup`
on every continuation. -/
theorem lateDrop_stays_cleaning :
    ∃ s, Reachable s ∧ G.run 0 .drain ∈ s.gs ∧
      ∀ (acts : List Action) (s' : Sys), s.run acts = some s' → ∀ pc, G.run 0 pc ∈ s'.gs → pc.Cleaning := by
  obtain ⟨s, reach, h⟩ := exists_reachable_of_run (p := fun s => G.run 0 .drain ∈ s.gs) lateDropRun (by decide)
  exact ⟨s, reach, h, fun _ _ h' => cleanup_never_handles_drops reach h trivial h'⟩

/-- `Terminate(true)` of worker 0 returns with a drop unreported: `finished` is
closed, and `lastdrops` is below `drops`. -/
theorem unreported_drop_reachable :
    ∃ s, Reachable s ∧ Obs.terminate 0 true ∈ s.trace ∧ Obs.terminated 0 ∈ s.trace ∧
      (∃ e, Obs.drop 0 e ∈ s.trace) ∧
      ∃ a, s.asyncWorker? 0 = some a ∧ a.finished = true ∧ a.lastdrops < a.drops := by
  obtain ⟨s, reach, h⟩ := exists_reachable_of_run
    (p := fun s => Obs.terminate 0 true ∈ s.trace ∧ Obs.terminated 0 ∈ s.trace ∧
      Obs.drop 0 ⟨2, DEBUG, none, .message⟩ ∈ s.trace ∧
      s.asyncWorker? 0 = some ⟨⟨1, false⟩, 1, [], true, true, none, true, true, 1, 0⟩)
    (lateDropRun ++ [.run 0 .go, .run 0 .go, .run 0 (.outcome .ok), .run 0 .go, .run 0 .go, .run 0 .go, .run 6 .go])
    (by decide)
  obtain ⟨h₁, h₂, h₃, h₄⟩ := h
  exact ⟨s, reach, h₁, h₂, ⟨_, h₃⟩, _, h₄, rfl, by decide⟩

end Cue
