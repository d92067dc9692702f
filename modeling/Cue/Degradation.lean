/-
# Cue.Degradation — where the recovery loop of a degraded collector runs

`handleDegradation` runs `ensureErrorSent`, whose backoff sleeps last until the
collector accepts an event again, on the goroutine that calls `sendEvent`. For
an `asyncWorker` that is the worker's own `run` goroutine. A `syncWorker` calls
`sendEvent` inside `Send`, under its mutex, on the goroutine of the logging call
that is in `dispatchEvent`: that call, and the delivery of its event to the
entries after this one, wait for the collector to recover.

* `recovery_goroutine` — a goroutine in `ensureErrorSent` of worker `w` is either
  inside `syncWorker.Send` of `w`, a `syncWorker`, or `w`'s own `run` goroutine,
  `w` an `asyncWorker`;
* `logging_call_blocked_by_recovery` — an application's logging call reaches the
  recovery loop of a synchronous collector with an entry still to deliver to.

The ERROR notice "Collector has entered a degraded state" is sent by a new
goroutine, which loads the registry when it is scheduled. `c` is marked
degraded only until the recovery loop ends, so a notice goroutine that runs
after `setDegraded(c, false)` finds `c` accepting ERROR again and delivers the
notice to `c` itself:

* `degraded_notice_to_self_reachable` — `c` fails three times, recovers on the
  first attempt of the loop, and the delayed notice goroutine then calls
  `c.Collect` on the notice about `c`.
-/
import Cue.Runtime.Kinds

namespace Cue

set_option autoImplicit false

theorem Run.recovering?_eq {w v : Nat} {pc : Run} (h : pc.recovering? w = some v) : v = w := by
  unfold Run.recovering? at h
  split at h <;> (try split_ifs at h) <;> first | (cases h; rfl) | cases h

theorem recovery_goroutine {s : Sys} (reach : Reachable s) {x : G} (hx : x ∈ s.gs) {w : Nat}
    (hr : x.recovering? = some w) :
    (s.kindOf w = some true ∧ x.dispatch?.bind Dispatch.target? = some w) ∨
      (s.kindOf w = some false ∧ ∃ pc, x = .run w pc) := by
  have inv := reachable_kindsOk reach
  have ofDispatch (h : x.dispatch?.bind Dispatch.recovering? = some w) :
      s.kindOf w = some true ∧ x.dispatch?.bind Dispatch.target? = some w := by
    obtain ⟨d, hd, hd'⟩ := Option.bind_eq_some.1 h
    have ht : x.dispatch?.bind Dispatch.target? = some w := by
      rw [hd]; exact Dispatch.target?_of_recovering? hd'
    exact ⟨inv.send x hx w ht, ht⟩
  cases x
  case run v pc =>
    cases hown : pc.recovering? v with
    | some v' =>
        simp only [G.recovering?, hown, Option.or_some] at hr
        cases hr
        cases Run.recovering?_eq hown
        exact .inr ⟨inv.run _ pc hx, pc, rfl⟩
    | none =>
        simp only [G.recovering?, hown, Option.none_or] at hr
        exact .inl (ofDispatch hr)
  all_goals exact .inl (ofDispatch hr)

open Action in
/-- A synchronous collector `c` and a second one `c2`, both failing on every
call: the logging call's `syncWorker.Send` to `c` exhausts its retries, marks
`c` degraded, and enters the recovery loop, with the entry of `c2` still to
visit. -/
def syncRecoveryRun : List Action :=
  let c : Collector := ⟨1, false⟩
  let fail : Choice := .outcome (.err (.code 1))
  [call (.collect DEBUG 0 c), call (.collect DEBUG 0 ⟨2, false⟩), call .debug,
   run 0 .go, run 0 .go, run 0 .go, run 0 (.pick 1),
   run 0 .go, run 0 .go, run 0 fail, run 0 .go, run 0 fail, run 0 .go, run 0 fail,
   run 0 .go, run 0 .go, run 0 .go, run 0 fail]

/-- The witness of `recovery_goroutine`: in the state `syncRecoveryRun`
reaches, a goroutine in the recovery loop of `syncWorker` 0 is a logging call
inside its `Send`. -/
theorem syncRecovery_in_send :
    ∃ s, Reachable s ∧ ∃ x ∈ s.gs, x.recovering? = some 0 ∧ x.dispatch?.bind Dispatch.target? = some 0 := by
  obtain ⟨s, reach, h⟩ := exists_reachable_of_run
    (p := fun s => s.kindOf 0 = some true ∧ ∃ x ∈ s.gs, x.recovering? = some 0) syncRecoveryRun (by decide)
  obtain ⟨hk, x, hx, hr⟩ := h
  rcases recovery_goroutine reach hx hr with ⟨-, ht⟩ | ⟨hk', -⟩
  · exact ⟨s, reach, x, hx, hr, ht⟩
  · rw [hk] at hk'; cases hk'

theorem logging_call_blocked_by_recovery :
    ∃ s, Reachable s ∧ ∃ e w pc rest, G.log (.send e w (.sendEvent pc) rest) ∈ s.gs ∧
      pc.recovering = true ∧ rest ≠ [] := by
  obtain ⟨s, reach, h⟩ := exists_reachable_of_run
    (p := fun s => s.gs.any fun
      | .log (.send _ _ (.sendEvent pc) rest) => pc.recovering && !rest.isEmpty
      | _ => false)
    syncRecoveryRun (by decide)
  obtain ⟨x, hx, hp⟩ := List.any_eq_true.1 h
  split at hp
  · simp only [Bool.and_eq_true, Bool.not_eq_true', List.isEmpty_eq_false] at hp
    exact ⟨s, reach, _, _, _, _, hx, hp⟩
  · cases hp

open Action in
/-- A synchronous collector failing three times: `handleDegradation` starts
the notice goroutine (goroutine 1), `c` accepts the first event of the
recovery loop, and the logging call returns; only then does goroutine 1 run. -/
def selfNoticeRun : List Action :=
  let fail : Choice := .outcome (.err (.code 1))
  [call (.collect DEBUG 0 ⟨1, false⟩), call .debug,
   run 0 .go, run 0 .go, run 0 .go, run 0 (.pick 0), run 0 .go,
   run 0 .go, run 0 fail, run 0 .go, run 0 fail, run 0 .go, run 0 fail,
   run 0 .go, run 0 .go, run 0 .go, run 0 (.outcome .ok), run 0 .go, run 0 .go, run 0 .go,
   run 1 .go, run 1 .go, run 1 .go, run 1 (.pick 0), run 1 .go, run 1 .go]

/-- The degraded notice about `c` reaches `c.Collect`. -/
theorem degraded_notice_to_self_reachable :
    ∃ s, Reachable s ∧ ∃ w c drops e, (s.workers[w]?).map Worker.collector = some c ∧
      e.body = .degraded c drops ∧ Obs.collect w e ∈ s.trace := by
  obtain ⟨s, reach, h⟩ := exists_reachable_of_run
    (p := fun s => (s.workers[0]?).map Worker.collector = some ⟨1, false⟩ ∧
      Obs.collect 0 ⟨2, ERROR, some (.code 1), .degraded ⟨1, false⟩ 1⟩ ∈ s.trace)
    selfNoticeRun (by decide)
  exact ⟨s, reach, 0, _, _, _, h.1, rfl, h.2⟩

end Cue
