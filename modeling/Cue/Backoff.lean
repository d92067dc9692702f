/-
# Cue.Backoff — the delay between the attempts of `ensureErrorSent`

`ensureErrorSent` sleeps `backoff(attempt)` before its `attempt`-th delivery of
the degradation notice, with `attempt` growing without bound for a collector
that keeps failing. `backoff` computes `math.Pow(2, float64(attempt))`, which
is `2^attempt` exactly up to `2^1023` and `+Inf` beyond; converts it to a
`time.Duration`, an `int64` of nanoseconds; multiplies by `time.Millisecond`
in `int64`, that is modulo `2^64`; and clamps to `maxDelay`, five minutes.

* `backoff_eq_min` — up to attempt 43, and from attempt 1024 on, the delay is
  `min(2^attempt ms, maxDelay)`;
* `backoff_wrapped` — from attempt 44 the product wraps: attempt 44 sleeps a
  negative duration, attempts 58 to 62 sleep zero, and the delay is no longer
  nondecreasing. The clamp catches only the wrapped values above `maxDelay`;
  `backoff_wraps` is the case of amd64's conversion.

The conversion of a float above `2^63 - 1` to `int64` is implementation
dependent in Go (amd64 gives `-2^63`, arm64 `2^63 - 1`); `backoff` takes that
value as the parameter `overflow`, and every result here holds for each.
-/
import Mathlib.Algebra.Order.Ring.Int

namespace Cue

set_option autoImplicit false

/-- An `int64` result: the value modulo `2^64`, read as signed. -/
def wrap64 (x : Int) : Int := (x + 2 ^ 63) % 2 ^ 64 - 2 ^ 63

/-- `time.Millisecond`, in nanoseconds. -/
def Millisecond : Int := 1000000

/-- `time.Minute`, in nanoseconds. -/
def Minute : Int := 60 * 1000000000

/-- `maxDelay = 5 * time.Minute`. -/
def maxDelay : Int := 5 * Minute

/-- `math.Pow(2, float64(attempt))`: `2^attempt` is a float64 exactly up to
`2^1023`; beyond, the power overflows to `+Inf` (`none`). -/
def pow2 (attempt : Nat) : Option Nat := if attempt < 1024 then some (2 ^ attempt) else none

/-- `time.Duration(exp)` for a float64 holding the whole number `exp`: exact
below `2^63`, and the platform's `overflow` value above. -/
def toDuration (overflow : Int) (exp : Nat) : Int := if exp < 2 ^ 63 then exp else overflow

/-- `backoff(attempt)`. -/
def backoff (overflow : Int) (attempt : Nat) : Int :=
  match pow2 attempt with
  | none => maxDelay
  | some exp =>
    let delay := wrap64 (Millisecond * toDuration overflow exp)
    if delay > maxDelay then maxDelay else delay

theorem wrap64_of_lt {x : Int} (h0 : 0 ≤ x) (h : x < 2 ^ 63) : wrap64 x = x := by
  unfold wrap64
  rw [Int.emod_eq_of_lt (by omega) (by omega)]
  omega

/-- Below attempt 63 the power converts exactly, and `overflow` plays no part. -/
theorem backoff_of_lt {attempt : Nat} (overflow : Int) (h : attempt < 63) :
    backoff overflow attempt =
      if wrap64 (Millisecond * 2 ^ attempt) > maxDelay then maxDelay else wrap64 (Millisecond * 2 ^ attempt) := by
  have hp : 2 ^ attempt < 2 ^ 63 := Nat.pow_lt_pow_right (by omega) h
  simp only [backoff, pow2, show attempt < 1024 by omega, if_true, toDuration, hp]
  push_cast
  rfl

/-- Below attempt 44 the product `2^attempt ms` stays below `2^63`: no wrap. -/
theorem backoff_of_le {attempt : Nat} (overflow : Int) (h : attempt ≤ 43) :
    backoff overflow attempt = min (2 ^ attempt * Millisecond) maxDelay := by
  have hp : (2 : Int) ^ attempt ≤ 2 ^ 43 := pow_le_pow_right₀ (by decide) h
  have hpos : (0 : Int) < 2 ^ attempt := pow_pos (by decide) _
  rw [backoff_of_lt overflow (by omega), wrap64_of_lt (by unfold Millisecond; omega)
    (by unfold Millisecond; omega), mul_comm]
  unfold Millisecond maxDelay Minute
  rw [min_def]
  split_ifs <;> omega

theorem backoff_of_ge {attempt : Nat} (overflow : Int) (h : 1024 ≤ attempt) :
    backoff overflow attempt = min (2 ^ attempt * Millisecond) maxDelay := by
  have hp : (2 : Int) ^ 40 ≤ 2 ^ attempt := pow_le_pow_right₀ (by decide) (by omega)
  simp only [backoff, pow2, show ¬attempt < 1024 by omega, if_false]
  unfold Millisecond maxDelay Minute
  rw [min_def, if_neg (by omega)]

/-- Where `backoff` is what `ensureErrorSent` needs: the exponential, clamped
to `maxDelay`. -/
theorem backoff_eq_min {attempt : Nat} (overflow : Int) (h : attempt ≤ 43 ∨ 1024 ≤ attempt) :
    backoff overflow attempt = min (2 ^ attempt * Millisecond) maxDelay :=
  h.elim (backoff_of_le overflow) (backoff_of_ge overflow)

theorem backoff_eq_min_ten :
    (10 ≤ 43 ∨ 1024 ≤ 10) ∧ backoff 0 10 = min (2 ^ 10 * Millisecond) maxDelay :=
  ⟨.inl (by decide), backoff_eq_min 0 (.inl (by decide))⟩

/-- The wrap: attempt 44 sleeps a negative duration, less than attempt 43's,
and attempts 58 to 62 sleep not at all, whatever the platform's conversion
gives. -/
theorem backoff_wrapped (overflow : Int) :
    backoff overflow 44 < 0 ∧ backoff overflow 44 < backoff overflow 43 ∧
      ∀ attempt, 58 ≤ attempt → attempt ≤ 62 → backoff overflow attempt = 0 := by
  refine ⟨?_, ?_, fun attempt h₁ h₂ => ?_⟩
  · rw [backoff_of_lt overflow (by omega)]; decide
  · rw [backoff_of_lt overflow (by omega), backoff_of_lt overflow (by omega)]; decide
  · rw [backoff_of_lt overflow (by omega)]
    obtain ⟨k, rfl⟩ : ∃ k, attempt = 58 + k := ⟨attempt - 58, by omega⟩
    rcases k with _ | _ | _ | _ | _ | k <;> first | omega | decide

/-- With amd64's conversion, `-2^63`: attempt 44 sleeps a negative duration,
less than attempt 43's, and attempt 58 not at all. -/
theorem backoff_wraps :
    backoff (-2 ^ 63) 44 < 0 ∧ backoff (-2 ^ 63) 44 < backoff (-2 ^ 63) 43 ∧ backoff (-2 ^ 63) 58 = 0 :=
  have ⟨h44, h43, h58⟩ := backoff_wrapped (-2 ^ 63)
  ⟨h44, h43, h58 58 le_rfl (by decide)⟩

end Cue
