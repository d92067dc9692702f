/-
# Cue.Retries — how many times `sendWithRetries` calls `Collect`

`sendWithRetries(c, e, retries)` calls `c.Collect(e)` up to `retries + 1` times
in a tight loop: the first `nil` returns `nil`, a panic is recovered by the
deferred `recoverCollector` and also returns `nil`, and when every attempt
fails the error of the first is returned. Here the collector's behaviour is the
outcome of each of its calls (`outcome i` for the `i`-th call, from 0), and
`runRetries` drives the step function `sendWithRetries` of the runtime model to
its return, feeding each call its outcome.

* `runRetries_from` — the loop from attempt `n`, after `n` failures: one call
  per attempt up to the first that does not fail, and the result;
* `sendWithRetries_attempts` — with `k` the position of the first `nil` or
  panicking outcome, the loop makes `min(k, retries + 1)` calls, observed in
  order; it returns `nil` when `k ≤ retries + 1` and otherwise the first
  attempt's error.
-/
import Cue.Runtime.Worker

namespace Cue

set_option autoImplicit false

/-- The error a call returned, if it failed. -/
def Outcome.err? : Outcome → Option Err
  | .err e => some e
  | _ => none

/-- Whether a call failed: it returned a non-`nil` error. -/
def Outcome.isErr (o : Outcome) : Bool := o.err?.isSome

theorem Outcome.exists_err {o : Outcome} (h : o.isErr = true) : ∃ er, o = .err er := by
  cases o with
  | err er => exact ⟨er, rfl⟩
  | ok => cases h
  | panic _ => cases h

/-- The index of the first call, among the first `n`, that returns `nil` or
panics. -/
def firstStop (outcome : Nat → Outcome) (n : Nat) : Option Nat :=
  (List.range n).find? fun i => !(outcome i).isErr

/-- What the `i`-th call shows: `Collect` entered, and its outcome. -/
def callObs (w : Nat) (e : Event) (outcome : Nat → Outcome) (i : Nat) : List Obs :=
  [.collect w e, .collected w e (outcome i)]

section

variable (w : Nat) (c : Collector) (e : Event) (retries : Nat) (outcome : Nat → Outcome)

/-- `sendWithRetries` run for at most `fuel` steps against a collector whose
`i`-th call returns `outcome i`: its final state and result. -/
def runRetries : Nat → Sys → Retries → Option (Sys × Option Err)
  | 0, _, _ => none
  | fuel + 1, s, pc =>
    match sendWithRetries w c e retries s pc (.outcome (outcome pc.attempt)) with
    | some (s, .cont pc) => runRetries fuel s pc
    | some (s, .ret r) => some (s, r)
    | _ => none

/-- One attempt: `Collect` entered, then returning with the attempt's outcome. -/
theorem runRetries_attempt (fuel : Nat) (s : Sys) (n : Nat) (ce : Option Err) :
    runRetries w c e retries outcome (fuel + 2) s ⟨n, ce, false⟩ =
      match outcome n with
      | .ok => some (((s.record (.collect w e)).record (.collected w e .ok)), none)
      | .err er =>
        if n + 1 ≤ retries then
          runRetries w c e retries outcome fuel ((s.record (.collect w e)).record (.collected w e (.err er)))
            ⟨n + 1, some (ce.getD er), false⟩
        else some ((s.record (.collect w e)).record (.collected w e (.err er)), some (ce.getD er))
      | .panic cause =>
        some (((s.record (.collect w e)).record (.collected w e (.panic cause))).spawn (.dispose c cause .lock), none) := by
  simp only [runRetries, sendWithRetries, Bool.false_eq_true, if_false, if_true]
  cases outcome n <;> simp only
  split_ifs <;> rfl

theorem trace_attempt (s : Sys) (n : Nat) :
    ((s.record (.collect w e)).record (.collected w e (outcome n))).trace = s.trace ++ callObs w e outcome n := by
  simp [Sys.record, callObs]

/-- An attempt whose call does not fail ends the loop with `nil`. -/
theorem runRetries_stop (fuel : Nat) (s : Sys) (n : Nat) (ce : Option Err) (ho : (outcome n).isErr = false) :
    ∃ s', runRetries w c e retries outcome (fuel + 2) s ⟨n, ce, false⟩ = some (s', none) ∧
      s'.trace = s.trace ++ callObs w e outcome n := by
  have htr := trace_attempt w e outcome s n
  rw [runRetries_attempt]
  cases h : outcome n with
  | ok => exact ⟨_, rfl, by rw [← h, htr]⟩
  | err er => rw [h] at ho; cases ho
  | panic cause => exact ⟨_, rfl, by rw [← h]; exact htr⟩

/-- After failures only, the error kept is the first call's. -/
theorem firstErr_of_failed {n : Nat} {er : Err} (hprev : ∀ i < n, (outcome i).isErr) (ho : outcome n = .err er) :
    some ((if n = 0 then none else (outcome 0).err?).getD er) = (outcome 0).err? := by
  rcases Nat.eq_zero_or_pos n with rfl | hn
  · rw [if_pos rfl, ho]; rfl
  · have h0 := hprev 0 hn
    rw [if_neg (by omega)]
    cases h : outcome 0 with
    | err e0 => rfl
    | ok => rw [h] at h0; cases h0
    | panic _ => rw [h] at h0; cases h0

theorem find?_range'_succ (n d : Nat) :
    (List.range' n (d + 1)).find? (fun i => !(outcome i).isErr) =
      if (outcome n).isErr then (List.range' (n + 1) d).find? (fun i => !(outcome i).isErr) else some n := by
  rw [List.range'_succ, List.find?_cons]
  cases (outcome n).isErr <;> rfl

/-- The calls from attempt `n` are the `n`-th, then those from attempt `n + 1`. -/
theorem calls_succ (n d : Nat) (F : Option Nat) (hF : ∀ j ∈ F, n + 1 ≤ j) :
    callObs w e outcome n ++ (List.range' (n + 1) (F.elim (d + 1) (· + 1 - (n + 1)))).flatMap (callObs w e outcome) =
      (List.range' n (F.elim (d + 1 + 1) (· + 1 - n))).flatMap (callObs w e outcome) := by
  cases F with
  | none => rw [Option.elim, Option.elim, List.range'_succ n (d + 1), List.flatMap_cons]
  | some j =>
    have := hF j rfl
    rw [Option.elim, Option.elim, show j + 1 - n = j + 1 - (n + 1) + 1 by omega,
      List.range'_succ n (j + 1 - (n + 1)), List.flatMap_cons]

/-- From attempt `n`, all earlier calls having failed, with `d + 1` attempts
left: the calls up to the first that does not fail, and `nil` if there is one,
the first error if not. -/
theorem runRetries_from : ∀ (d n : Nat) (s : Sys) (fuel : Nat), n + d = retries → 2 * (d + 1) ≤ fuel →
    (∀ i < n, (outcome i).isErr) →
    ∃ s', runRetries w c e retries outcome fuel s ⟨n, if n = 0 then none else (outcome 0).err?, false⟩ =
        some (s', if ((List.range' n (d + 1)).find? fun i => !(outcome i).isErr).isSome then none
          else (outcome 0).err?) ∧
      s'.trace = s.trace ++ (List.range' n
        (((List.range' n (d + 1)).find? fun i => !(outcome i).isErr).elim (d + 1) (· + 1 - n))).flatMap
          (callObs w e outcome) := by
  intro d
  induction d with
  | zero =>
    intro n s fuel hn hfuel hprev
    obtain ⟨f, rfl⟩ : ∃ f, fuel = f + 2 := ⟨fuel - 2, by omega⟩
    rw [find?_range'_succ]
    cases ho : (outcome n).isErr with
    | false =>
      obtain ⟨s', hrun, htr⟩ := runRetries_stop w c e retries outcome f s n _ ho
      exact ⟨s', by rw [hrun]; rfl, by rw [htr]; simp⟩
    | true =>
      obtain ⟨er, her⟩ := Outcome.exists_err ho
      refine ⟨(s.record (.collect w e)).record (.collected w e (.err er)), ?_, ?_⟩
      · rw [runRetries_attempt, her]
        dsimp only
        rw [if_neg (show ¬n + 1 ≤ retries by omega), firstErr_of_failed outcome hprev her]
        rfl
      · rw [← her, trace_attempt]
        simp
  | succ d ih =>
    intro n s fuel hn hfuel hprev
    obtain ⟨f, rfl⟩ : ∃ f, fuel = f + 2 := ⟨fuel - 2, by omega⟩
    rw [find?_range'_succ]
    cases ho : (outcome n).isErr with
    | false =>
      obtain ⟨s', hrun, htr⟩ := runRetries_stop w c e retries outcome f s n _ ho
      exact ⟨s', by rw [hrun]; rfl, by rw [htr]; simp⟩
    | true =>
      obtain ⟨er, her⟩ := Outcome.exists_err ho
      have hprev' : ∀ i < n + 1, (outcome i).isErr := fun i hi => by
        rcases Nat.lt_succ_iff_lt_or_eq.1 hi with hi | rfl
        exacts [hprev i hi, ho]
      obtain ⟨s', hrun, htr⟩ := ih (n + 1) ((s.record (.collect w e)).record (.collected w e (.err er))) f
        (by omega) (by omega) hprev'
      refine ⟨s', ?_, ?_⟩
      · rw [runRetries_attempt, her]
        dsimp only
        rw [if_pos (show n + 1 ≤ retries by omega), firstErr_of_failed outcome hprev her]
        rw [if_neg (Nat.succ_ne_zero n)] at hrun
        simpa using hrun
      · rw [htr, ← her, trace_attempt, List.append_assoc, if_pos rfl,
          calls_succ w e outcome n d _ fun j hj => (List.mem_range'_1.1 (List.mem_of_find?_eq_some hj)).1]

/-- `sendWithRetries` against any collector: with `k` the position of the
first call that returns `nil` or panics, it calls `Collect` `min(k, retries + 1)`
times, the calls observed in order, and returns `nil` when `k ≤ retries + 1`
and the first call's error otherwise. -/
theorem sendWithRetries_attempts (fuel : Nat) (s : Sys) (hfuel : 2 * (retries + 1) ≤ fuel) :
    ∃ s', runRetries w c e retries outcome fuel s ⟨0, none, false⟩ =
        some (s', if (firstStop outcome (retries + 1)).isSome then none else (outcome 0).err?) ∧
      s'.trace = s.trace ++
        (List.range ((firstStop outcome (retries + 1)).elim (retries + 1) (· + 1))).flatMap (callObs w e outcome) := by
  obtain ⟨s', hrun, htr⟩ :=
    runRetries_from w c e retries outcome retries 0 s fuel (Nat.zero_add _) hfuel fun i hi => absurd hi (Nat.not_lt_zero i)
  refine ⟨s', by rw [firstStop, List.range_eq_range']; exact hrun, ?_⟩
  rw [htr, firstStop, List.range_eq_range', List.range_eq_range']
  cases (List.range' 0 (retries + 1)).find? fun i => !(outcome i).isErr <;> rfl

end

/-- A collector that fails twice, then accepts: three calls, and `nil`. -/
theorem sendWithRetries_attempts_accept :
    2 * (2 + 1) ≤ 6 ∧
    ∃ s', runRetries 0 ⟨0, false⟩ ⟨0, DEBUG, none, .message⟩ 2 (fun i => if i < 2 then .err (.code i) else .ok) 6
        Sys.init ⟨0, none, false⟩ =
        some (s', if (firstStop (fun i => if i < 2 then .err (.code i) else .ok) (2 + 1)).isSome then none
          else (if 0 < 2 then Outcome.err (.code 0) else .ok).err?) ∧
      s'.trace = Sys.init.trace ++
        (List.range ((firstStop (fun i => if i < 2 then .err (.code i) else .ok) (2 + 1)).elim (2 + 1) (· + 1))).flatMap
          (callObs 0 ⟨0, DEBUG, none, .message⟩ fun i => if i < 2 then .err (.code i) else .ok) :=
  ⟨by decide, sendWithRetries_attempts 0 ⟨0, false⟩ ⟨0, DEBUG, none, .message⟩ 2
    (fun i => if i < 2 then .err (.code i) else .ok) 6 Sys.init (by decide)⟩

end Cue
