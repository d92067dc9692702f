/-
# Cue.Termination — a worker is terminated once, and its collector closed once

For every worker `w` and every reachable state (`worker_lifecycle`):

* `Terminate` is called on `w` at most once (`terminate_once`, from the claims
  of `Cue.Runtime.Lifecycle`);
* two goroutines are never inside `Collect` through `w` at once
  (`collect_exclusive`);
* the collector's `Close` is called at most once (`close_once`, from the budget
  of `DebtOk`), each time after a `Terminate` of `w` started
  (`close_after_terminate`), and never once a `Terminate` of `w` returned
  (`no_close_after_terminated`);
* no call of `Collect` through `w` starts after `Close`
  (`no_collect_after_close`).

The last two rest on one fact about states, `not_inCollect_of_ended`: once
`Close` was called or a `Terminate` returned, no goroutine is inside `Collect`
through `w`. For a `syncWorker` it follows from `SyncEndOk` and the mutex, for
an `asyncWorker` from `DebtOk` and `AsyncEndOk`. Three lemmas over runs
(`reachable_preceded`, `reachable_not_after`, `never_after_run`) turn facts
about one step into facts about the order of a whole trace.
-/
import Cue.Runtime.Finish

namespace Cue

set_option autoImplicit false

/-! ## The order of observations in a run -/

/-- Where an observation `o` of a trace that grew by `os` sits. -/
theorem append_eq_cons_cases {l os pre post : List Obs} {o : Obs} (e : l ++ os = pre ++ o :: post) :
    (∃ post', l = pre ++ o :: post' ∧ post = post' ++ os) ∨ (∃ pre', pre = l ++ pre' ∧ os = pre' ++ o :: post) := by
  rcases List.append_eq_append_iff.1 e with ⟨a', rfl, rfl⟩ | ⟨c', rfl, h⟩
  · exact .inr ⟨a', rfl, rfl⟩
  · cases c' with
    | nil => exact .inr ⟨[], by simp, by simpa using h.symm⟩
    | cons c c'' =>
        obtain ⟨rfl, rfl⟩ := List.cons_eq_cons.1 h
        exact .inl ⟨c'', rfl, rfl⟩

section Order

variable {p q : Obs → Prop}

/-- Every `p` of a reachable trace has a `q` before it, when each step that
records a `p` starts from a trace with a `q`. -/
theorem reachable_preceded
    (step : ∀ {s t : Sys} {g : Nat} {x x' : G} {ch : Choice}, Reachable s → s.gs[g]? = some x →
      G.step g s x ch = some (t, x') → ∀ os, t.trace = s.trace ++ os → (∃ o ∈ os, p o) → ∃ o ∈ s.trace, q o)
    {s : Sys} (reach : Reachable s) : ∀ pre o post, s.trace = pre ++ o :: post → p o → ∃ o' ∈ pre, q o' := by
  refine Reachable.induction (I := fun s => ∀ pre o post, s.trace = pre ++ o :: post → p o → ∃ o' ∈ pre, q o')
    (fun pre o post e => by simp [Sys.init] at e)
    (fun _ inv h pre o post e => inv pre o post (Sys.call_trace h ▸ e)) ?_ reach
  intro s t g x x' ch r inv hx h pre o post e hp
  obtain ⟨os, et⟩ := (G.step_grows h).trace
  rw [show (t.setG g x').trace = t.trace from rfl, et] at e
  rcases append_eq_cons_cases e with ⟨post', e', -⟩ | ⟨pre', rfl, rfl⟩
  · exact inv pre o post' e' hp
  · obtain ⟨o', ho', hq⟩ := step r hx h _ et ⟨o, by simp, hp⟩
    exact ⟨o', List.mem_append_left _ ho', hq⟩

/-- No `p` follows a `q` in a reachable trace, when no step records a `p` while
the trace after it has a `q`. -/
theorem reachable_not_after
    (step : ∀ {s t : Sys} {g : Nat} {x x' : G} {ch : Choice}, Reachable s → s.gs[g]? = some x →
      G.step g s x ch = some (t, x') → ∀ os, t.trace = s.trace ++ os → (∃ o ∈ t.trace, q o) → ∀ o ∈ os, ¬p o)
    {s : Sys} (reach : Reachable s) : ∀ pre o post, s.trace = pre ++ o :: post → q o → ∀ o' ∈ post, ¬p o' := by
  refine Reachable.induction (I := fun s => ∀ pre o post, s.trace = pre ++ o :: post → q o → ∀ o' ∈ post, ¬p o')
    (fun pre o post e => by simp [Sys.init] at e)
    (fun _ inv h pre o post e => inv pre o post (Sys.call_trace h ▸ e)) ?_ reach
  intro s t g x x' ch r inv hx h pre o post e hq o' ho'
  obtain ⟨os, et⟩ := (G.step_grows h).trace
  have now : ∃ o ∈ t.trace, q o := ⟨o, by rw [show t.trace = (t.setG g x').trace from rfl, e]; simp, hq⟩
  rw [show (t.setG g x').trace = t.trace from rfl, et] at e
  rcases append_eq_cons_cases e with ⟨post', e', rfl⟩ | ⟨pre', -, rfl⟩
  · rcases List.mem_append.1 ho' with ho' | ho'
    exacts [inv pre o post' e' hq o' ho', step r hx h _ et now o' ho']
  · exact step r hx h _ et now o' (by simp [ho'])

/-- A property of states that every call and every goroutine step from a
reachable state keeps holds along every run from a state that has it. -/
theorem run_stable {P : Sys → Prop}
    (call : ∀ {s s' : Sys} {c : Call}, Reachable s → P s → s.call c = some s' → P s')
    (run : ∀ {s t : Sys} {g : Nat} {x x' : G} {ch : Choice}, Reachable s → P s → s.gs[g]? = some x →
      G.step g s x ch = some (t, x') → P (t.setG g x')) :
    ∀ {acts : List Action} {s s' : Sys}, Reachable s → P s → s.run acts = some s' → P s'
  | [], s, _, _, hp, h => by cases h; exact hp
  | a :: as, s, s', reach, hp, h => by
      unfold Sys.run at h
      split at h
      · rename_i s₁ h₁
        refine run_stable call run (.step a reach h₁) ?_ h
        cases a with
        | call c => exact call reach hp h₁
        | run g ch =>
            simp only [Sys.step] at h₁
            split at h₁
            · obtain ⟨⟨t, x'⟩, hs, rfl⟩ := Option.map_eq_some'.1 h₁
              exact run reach hp ‹_› hs
            · cases h₁
      · cases h

/-- Once a reachable trace has a `q`, no later step records a `p`, when no step
from a reachable state whose trace has a `q` does. -/
theorem never_after_run
    (step : ∀ {s t : Sys} {g : Nat} {x x' : G} {ch : Choice}, Reachable s → s.gs[g]? = some x →
      G.step g s x ch = some (t, x') → (∃ o ∈ s.trace, q o) → ∀ os, t.trace = s.trace ++ os → ∀ o ∈ os, ¬p o)
    {acts : List Action} {s s' : Sys} (reach : Reachable s) (hq : ∃ o ∈ s.trace, q o)
    (h : s.run acts = some s') : ∃ os, s'.trace = s.trace ++ os ∧ ∀ o ∈ os, ¬p o := by
  refine run_stable (P := fun u => ∃ os, u.trace = s.trace ++ os ∧ ∀ o ∈ os, ¬p o)
    (fun _ hp hc => by dsimp only; rw [Sys.call_trace hc]; exact hp) ?_ reach ⟨[], by simp, by simp⟩ h
  rintro u t g x x' ch r ⟨os, e, hos⟩ hx hs
  obtain ⟨os', et⟩ := (G.step_grows hs).trace
  obtain ⟨o, ho, hqo⟩ := hq
  have hp' := step r hx hs ⟨o, by simp [e, ho], hqo⟩ os' et
  refine ⟨os ++ os', by rw [show (t.setG g x').trace = t.trace from rfl, et, e, List.append_assoc], fun o ho => ?_⟩
  rcases List.mem_append.1 ho with ho | ho
  exacts [hos o ho, hp' o ho]

end Order

/-! ## Who may be inside `Collect` -/

theorem Dispatch.inCollect?_sendsEvent {d : Dispatch} {w : Nat} {e : Event} (h : d.inCollect? = some (w, e)) :
    d.sendsEvent w := by
  rcases d with _ | _ | _ | _ | ⟨_, v, _ | pc | _, _⟩ <;> try cases h
  exact (SendEvent.inCollect?_fst h).symm

/-- A goroutine inside `Collect` through `w` is a logging call in `sendEvent`
of `w`, or `w`'s `run` goroutine before `cleanup` calls `closeCollector`. -/
theorem G.inCollect?_cases {x : G} {w : Nat} {e : Event} (h : x.inCollect? = some (w, e)) :
    (∃ d, x.dispatch? = some d ∧ d.sendsEvent w) ∨ ∃ pc, x = .run w pc ∧ pc.owesClose = true := by
  rcases x with d | ⟨v, pc⟩ | ⟨_, _, pc⟩ | _ | ⟨v, pc⟩ | _ | _ | _ <;> try cases h
  · exact .inl ⟨d, rfl, Dispatch.inCollect?_sendsEvent h⟩
  · rcases pc with _ | _ | ⟨_, _, pc⟩ | ⟨e₁, pc⟩ | _ | ⟨e₁, pc⟩ | (_ | d) | _ <;> try cases h
    · obtain rfl : w = v := Degrade.inCollect?_fst h
      exact .inr ⟨_, rfl, rfl⟩
    · obtain rfl : w = v := SendEvent.inCollect?_fst (e := e₁) h
      exact .inr ⟨_, rfl, rfl⟩
    · obtain rfl : w = v := SendEvent.inCollect?_fst (e := e₁) h
      exact .inr ⟨_, rfl, rfl⟩
    · exact .inl ⟨d, rfl, Dispatch.inCollect?_sendsEvent h⟩
  · rcases pc with _ | ⟨_, _ | (_ | d) | _ | _ | _ | _⟩ | _ | d <;> try cases h
    all_goals exact .inl ⟨d, rfl, Dispatch.inCollect?_sendsEvent h⟩
  · rcases pc with _ | (_ | d) | _ | _ | _ | _ <;> try cases h
    exact .inl ⟨d, rfl, Dispatch.inCollect?_sendsEvent h⟩

/-- Once `w`'s collector was closed, or a `Terminate` of `w` returned, no
goroutine is inside `Collect` through `w`. -/
theorem not_inCollect_of_ended {s : Sys} (reach : Reachable s) {w : Nat}
    (ended : (∃ o, Obs.close w o ∈ s.trace) ∨ Obs.terminated w ∈ s.trace) {x : G} (hx : x ∈ s.gs)
    (e : Event) : x.inCollect? ≠ some (w, e) := by
  intro hc
  obtain ⟨i, hi⟩ := List.mem_iff_getElem?.1 hx
  rcases G.inCollect?_cases hc with ⟨d, hd, hs⟩ | ⟨pc, rfl, howes⟩
  · -- a logging call in `sendEvent` of `w` holds the `syncWorker`'s mutex
    have mu := reachable_muOk reach
    have sync := reachable_syncEndOk reach
    have hpos := Dispatch.sendsEvent_muCount hs
    have hle := G.dispatch?_muCount hd w
    obtain ⟨y, hy, hmu⟩ := Option.bind_eq_some.1 (mu.owner i x w hi (by omega))
    cases ht : y.terminated
    · rcases ended with hcl | hend
      · -- the mutex stays with the `Terminate` that called `Close`, which cannot take it twice
        obtain ⟨g, z, hmu', hz, hcl⟩ := sync.held w y hy ht hcl
        rw [hmu] at hmu'
        cases hmu'
        rw [hi] at hz
        cases hz
        rcases hcl with rfl | ⟨d', hxf⟩
        · cases hd
        · obtain ⟨hm, hd'⟩ := G.termFrame?_close hxf
          rw [hd] at hd'
          cases hd'
          have := mu.single x hx w
          simp only [CloseCollector.muCount] at hm
          omega
      · exact absurd (sync.stopped w y hy hend) (by rw [ht]; decide)
    · exact sync.stop w y hy ht x hx d hd hs
  · -- `w`'s `run` goroutine before `closeCollector`: `w` is an `asyncWorker`
    have kinds := reachable_kindsOk reach
    rcases ended with hcl | hend
    · have budget := (reachable_debtOk reach).close w
      have owed : (G.run w pc).owed.close w ≤ s.owedClose w := List.le_sum_of_mem (List.mem_map_of_mem _ hx)
      have closed := countP_isClose_pos.2 hcl
      simp only [Sys.closeBudget, kinds.run w pc hx, G.owed, Run.owed, howes] at budget owed
      simp at owed
      omega
    · exact (reachable_asyncEndOk reach).no_run kinds hend pc hx

/-! ## Steps that call `Close` or `Collect` -/

section Steps

variable {s t : Sys} {g : Nat} {x x' : G} {ch : Choice}

theorem CollectStep.enters {os : List Obs} {a a' : Option (Nat × Event)} (h : CollectStep os a a') {w : Nat}
    {e : Event} (ho : Obs.collect w e ∈ os) : a' = some (w, e) := by
  have hf : Obs.collect w e ∈ os.filter Obs.isCollect := List.mem_filter.2 ⟨ho, rfl⟩
  rcases h with ⟨h, -⟩ | ⟨w', e', h, -, rfl⟩ | ⟨w', e', o, h, -, -⟩ <;> rw [h] at hf <;> simp at hf
  obtain ⟨rfl, rfl⟩ := hf
  rfl

/-- A step that enters `Collect` through `w` leaves a trace with neither
`Close` of `w` nor the end of a `Terminate` of `w`. -/
theorem G.step_no_collect (reach : Reachable s) (hx : s.gs[g]? = some x) (h : G.step g s x ch = some (t, x'))
    {w : Nat} (ended : (∃ o, Obs.close w o ∈ t.trace) ∨ Obs.terminated w ∈ t.trace) {os : List Obs}
    (et : t.trace = s.trace ++ os) (e : Event) : Obs.collect w e ∉ os := by
  intro ho
  obtain ⟨os', et', hc⟩ := G.step_collectSteps h
  rw [et, List.append_cancel_left_eq] at et'
  subst et'
  have reach' : Reachable (t.setG g x') := .step (.run g ch) reach (by simp [Sys.step, hx, h])
  exact not_inCollect_of_ended reach' ended (List.getElem?_mem (getElem?_setG_self hx h)) e (hc.enters ho)

/-- The goroutine that calls `Close` on `w`'s collector runs a `Terminate` of
`w`, or is `w`'s `run` goroutine in `cleanup`. -/
theorem G.step_close (h : G.step g s x ch = some (t, x')) {w : Nat} {os : List Obs}
    (et : t.trace = s.trace ++ os) {o : Outcome} (ho : Obs.close w o ∈ os) :
    x = .run w (.close .start) ∨ x.terminating? = some w := by
  by_cases hs : x.Settling
  · obtain ⟨⟨os', et', hos, -⟩, -⟩ := G.step_settles h hs
    rw [et, List.append_cancel_left_eq] at et'
    subst et'
    obtain ⟨own, closing⟩ := mem_close_of_settles hos ho
    rcases G.closing_cases own closing with e | hxf
    exacts [.inl e, .inr (G.termFrame?_terminating hxf)]
  · have same := (G.step_retire_trace h hs w).1
    rw [et, List.countP_append] at same
    exact absurd (countP_isClose_pos.2 ⟨o, ho⟩) (by omega)

end Steps

/-! ## The life of a worker -/

section Life

variable {s : Sys} (reach : Reachable s) (w : Nat)
include reach

theorem terminate_once : s.trace.countP (Obs.isTerminate w) ≤ 1 :=
  (countP_isTerminate_le_claims s w).trans ((reachable_holdOk reach).once w)

theorem close_once : s.trace.countP (Obs.isClose w) ≤ 1 := by
  have budget := (reachable_debtOk reach).close w
  have once := terminate_once reach w
  unfold Sys.closeBudget at budget
  split at budget <;> omega

/-- `Close` is called only inside the termination of `w`: after a `Terminate`
of `w` started. -/
theorem close_after_terminate :
    ∀ pre o post, s.trace = pre ++ Obs.close w o :: post → ∃ b, Obs.terminate w b ∈ pre := by
  intro pre o post e
  obtain ⟨o', ho', b, rfl⟩ := reachable_preceded (p := fun o => ∃ r, o = Obs.close w r)
    (q := fun o => ∃ b, o = Obs.terminate w b) (fun r hx h os et ⟨_, ho, r', he⟩ => by
      subst he
      obtain ⟨b, hb⟩ : ∃ b, Obs.terminate w b ∈ _ := by
        rcases G.step_close h et ho with rfl | hv
        · exact (reachable_asyncEndOk r).cleanup w _ (List.getElem?_mem hx) trivial
        · exact (reachable_debtOk r).terminate_of_owed (List.getElem?_mem hx) (by rw [G.terminating?_owed hv]; omega)
      exact ⟨_, hb, b, rfl⟩) reach pre _ post e ⟨o, rfl⟩
  exact ⟨b, ho'⟩

/-- No call of `Collect` through `w` starts after `Close` was called on its collector. -/
theorem no_collect_after_close :
    ∀ pre o post, s.trace = pre ++ Obs.close w o :: post → ∀ e, Obs.collect w e ∉ post := by
  intro pre o post e ev hc
  exact reachable_not_after (p := fun o => ∃ e, o = Obs.collect w e) (q := fun o => ∃ r, o = Obs.close w r)
    (fun r hx h os et ⟨_, hq, r', he⟩ o ho ⟨e', hpe⟩ => by
      subst he hpe
      exact G.step_no_collect r hx h (.inl ⟨r', hq⟩) et e' ho)
    reach pre _ post e ⟨o, rfl⟩ _ hc ⟨ev, rfl⟩

/-- Once a `Terminate` of `w` returned, no later step calls `Close` on its collector. -/
theorem no_close_after_terminated (ht : Obs.terminated w ∈ s.trace) {acts : List Action} {s' : Sys}
    (h : s.run acts = some s') : ∃ os, s'.trace = s.trace ++ os ∧ ∀ o, Obs.close w o ∉ os := by
  obtain ⟨os, e, hp⟩ := never_after_run (p := fun o => ∃ r, o = Obs.close w r) (q := (· = Obs.terminated w))
    (fun r hx h ⟨_, hq, he⟩ os et o ho ⟨c, hc⟩ => by
      subst he hc
      rcases G.step_close h et ho with rfl | hv
      · exact (reachable_asyncEndOk r).no_run (reachable_kindsOk r) hq _ (List.getElem?_mem hx)
      · have := (reachable_debtOk r).no_terminate (reachable_holdOk r) hq (List.getElem?_mem hx)
        rw [G.terminating?_owed hv] at this
        cases this)
    reach ⟨_, ht, rfl⟩ h
  exact ⟨os, e, fun o ho => hp _ ho ⟨o, rfl⟩⟩

end Life

/-- The life of every worker `w`: `Terminate` is called at most once; `Collect`
is entered through `w` by one goroutine at a time; the collector's `Close` is
called at most once, after a `Terminate` of `w` started and never once one
returned; and no call of `Collect` through `w` starts after `Close`. -/
theorem worker_lifecycle {s : Sys} (reach : Reachable s) (w : Nat) :
    s.trace.countP (Obs.isTerminate w) ≤ 1 ∧
    (∀ (i j : Nat) (x y : G) (e e' : Event), s.gs[i]? = some x → s.gs[j]? = some y →
      x.inCollect? = some (w, e) → y.inCollect? = some (w, e') → i = j) ∧
    s.trace.countP (Obs.isClose w) ≤ 1 ∧
    (∀ pre o post, s.trace = pre ++ Obs.close w o :: post → ∃ b, Obs.terminate w b ∈ pre) ∧
    (Obs.terminated w ∈ s.trace → ∀ (acts : List Action) (s' : Sys), s.run acts = some s' →
      ∃ os, s'.trace = s.trace ++ os ∧ ∀ o, Obs.close w o ∉ os) ∧
    (∀ pre o post, s.trace = pre ++ Obs.close w o :: post → ∀ e, Obs.collect w e ∉ post) :=
  ⟨terminate_once reach w, fun _ _ _ _ _ _ hx hy hxc hyc => collect_exclusive reach hx hy hxc hyc,
    close_once reach w, close_after_terminate reach w,
    fun ht _ _ h => no_close_after_terminated reach w ht h, no_collect_after_close reach w⟩

open Action in
/-- One asynchronous collector that implements `io.Closer`, then `Close`: the
`Terminate(true)` that `terminateWorkers` starts signals the `run` goroutine,
which calls `Close` in `cleanup` and closes `finished`. -/
def closeRun : List Action :=
  [call (.collect DEBUG 1 ⟨1, true⟩), call .close,
   run 1 .go, run 1 .go,
   run 3 .go, run 3 .go, run 3 .go,
   run 0 .terminate, run 0 .go, run 0 (.outcome .ok), run 0 .go,
   run 3 .go]

/-- The witness of `worker_lifecycle`: in the state `closeRun` reaches, worker
0's collector was closed once, after its `Terminate` started. -/
theorem closeRun_lifecycle :
    ∃ s, Reachable s ∧ s.trace.countP (Obs.isClose 0) = 1 ∧ ∃ b, Obs.terminate 0 b ∈ s.trace := by
  obtain ⟨s, reach, h⟩ := exists_reachable_of_run (p := fun s => s.trace.countP (Obs.isClose 0) = 1)
    closeRun (by decide)
  obtain ⟨o, ho⟩ := countP_isClose_pos.1 (show 0 < s.trace.countP (Obs.isClose 0) by omega)
  obtain ⟨pre, post, e⟩ := List.append_of_mem ho
  obtain ⟨b, hb⟩ := (worker_lifecycle reach 0).2.2.2.1 pre o post e
  exact ⟨s, reach, h, b, by rw [e]; exact List.mem_append_left _ hb⟩

end Cue
