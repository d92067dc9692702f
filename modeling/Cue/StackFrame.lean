/-
# Cue.StackFrame — the package name of a stack frame's function

`frameForPC` (`frame.go`) sets a frame's `Package` to `packageForFunc` of the
runtime's name of the function. A Go string is a byte slice: `strings.LastIndex`
and `strings.Index` of a one-byte separator return a byte index or `-1`, and
`pkg[lo:hi]` panics unless `0 ≤ lo ≤ hi ≤ len(pkg)`.

`packageForFunc` looks for the first `.` after the last `/` of the name, and
when there is none sets `dotidx = len(pkg)`. That is the length of the whole
name, not of the part after the slash, so the final `pkg[:slashidx+dotidx]`
reaches past the end whenever the last `/` is not the first byte.

* `packageForFunc_eq` — for every name: `packageForFunc` panics exactly when
  the name has its last `/` after its first byte and no `.` after it;
  otherwise it returns `packageOf`, the name up to the first `.` after its
  last `/` (from the start when it has no `/`), or all of it when there is no
  such `.`;
* `packageForFunc_slash_no_dot` — `"a/b"` is such a name.

The names `runtime.FuncForPC` gives `frameForPC` are package-qualified
(`path/to/pkg.Func`), so they have a `.` after their last `/` and take the
branch that slices within bounds.
-/
import Mathlib.Data.List.Basic

namespace Cue

set_option autoImplicit false

/-! ## Go's strings, as bytes -/

/-- `strings.Index(s, sep)` for a one-byte `sep`: the index of its first
occurrence, or `-1`. -/
def Index (s : List UInt8) (sep : UInt8) : Int :=
  if sep ∈ s then s.indexOf sep else -1

/-- `strings.LastIndex(s, sep)` for a one-byte `sep`: the index of its last
occurrence, or `-1`. -/
def LastIndex (s : List UInt8) (sep : UInt8) : Int :=
  if sep ∈ s then s.length - 1 - s.reverse.indexOf sep else -1

/-- `s[lo:hi]`: `none` where Go panics. -/
def slice (s : List UInt8) (lo hi : Int) : Option (List UInt8) :=
  if 0 ≤ lo ∧ lo ≤ hi ∧ hi ≤ s.length then some ((s.take hi.toNat).drop lo.toNat) else none

/-- `packageForFunc(fn)` (`/` is byte 47, `.` byte 46); `none` where it panics. -/
def packageForFunc (fn : List UInt8) : Option (List UInt8) := do
  let pkg := fn
  let slashidx : Int := if LastIndex pkg 47 = -1 then 0 else LastIndex pkg 47
  let rest ← slice pkg slashidx pkg.length
  let dotidx : Int := if Index rest 46 = -1 then pkg.length else Index rest 46
  slice pkg 0 (slashidx + dotidx)

/-! ## The package the spec names -/

/-- Modelled from the spec: `fn` up to and with its last `/`, empty when it has
none. -/
def dirOf (fn : List UInt8) : List UInt8 := (fn.reverse.dropWhile (· ≠ 47)).reverse

/-- Modelled from the spec: `fn` after its last `/`. -/
def baseOf (fn : List UInt8) : List UInt8 := (fn.reverse.takeWhile (· ≠ 47)).reverse

/-- Modelled from the spec: the prefix of `fn` before the first `.` after its
last `/`, or all of `fn` when there is no such `.`. -/
def packageOf (fn : List UInt8) : List UInt8 := dirOf fn ++ (baseOf fn).takeWhile (· ≠ 46)

theorem dirOf_append_baseOf (fn : List UInt8) : dirOf fn ++ baseOf fn = fn := by
  rw [dirOf, baseOf, ← List.reverse_append, List.takeWhile_append_dropWhile, List.reverse_reverse]

theorem slash_not_mem_baseOf (fn : List UInt8) : 47 ∉ baseOf fn := fun h =>
  (by simpa using List.mem_takeWhile_imp (List.mem_reverse.1 h) : (47 : UInt8) ≠ 47) rfl

/-- The part of `fn` up to its last `/` is empty, or ends in that `/`. -/
theorem dirOf_cases (fn : List UInt8) : dirOf fn = [] ∨ ∃ d, dirOf fn = d ++ [47] := by
  rcases h : fn.reverse.dropWhile (· ≠ 47) with _ | ⟨x, rest⟩
  · exact .inl (by simp only [dirOf, h, List.reverse_nil])
  · have hx := List.head_dropWhile_not (· ≠ 47) fn.reverse (by rw [h]; exact List.cons_ne_nil _ _)
    simp only [h, List.head_cons, decide_eq_false_iff_not, not_not] at hx
    exact .inr ⟨rest.reverse, by simp only [dirOf, h, hx, List.reverse_cons]⟩

/-! ## Scans and slices -/

/-- The bytes before the first `a`. -/
theorem take_indexOf (s : List UInt8) (a : UInt8) : s.take (s.indexOf a) = s.takeWhile (· ≠ a) := by
  induction s with
  | nil => rfl
  | cons b s ih =>
    by_cases hb : b = a
    · simp [List.indexOf_cons_eq _ hb, hb]
    · simp [List.indexOf_cons_ne _ hb, hb, ih]

theorem takeWhile_of_not_mem {s : List UInt8} {a : UInt8} (h : a ∉ s) : s.takeWhile (· ≠ a) = s :=
  List.takeWhile_eq_self_iff.2 fun x hx => by simpa using fun e : x = a => h (e ▸ hx)

theorem slice_drop (s : List UInt8) {lo : Nat} (h : lo ≤ s.length) : slice s lo s.length = some (s.drop lo) := by
  rw [slice, if_pos (by omega)]
  simp

theorem slice_take (s : List UInt8) {hi : Nat} (h : hi ≤ s.length) : slice s 0 hi = some (s.take hi) := by
  rw [slice, if_pos (by omega)]
  simp

theorem slice_past (s : List UInt8) {hi : Int} (h : s.length < hi) : slice s 0 hi = none := by
  rw [slice, if_neg (by omega)]

/-! ## packageForFunc -/

/-- `packageForFunc` once the last `/` is found at `slashidx`. -/
theorem packageForFunc_of_slashidx {fn : List UInt8} (slashidx : Nat)
    (hs : (if LastIndex fn 47 = -1 then 0 else LastIndex fn 47) = slashidx) (hle : slashidx ≤ fn.length) :
    packageForFunc fn = slice fn 0 (slashidx +
      if Index (fn.drop slashidx) 46 = -1 then (fn.length : Int) else Index (fn.drop slashidx) 46) := by
  simp only [packageForFunc, hs, slice_drop fn hle, Option.bind_eq_bind, Option.some_bind]

/-- A name with no `/`: the prefix before the first `.`. -/
theorem packageForFunc_of_no_slash {fn : List UInt8} (h : 47 ∉ fn) :
    packageForFunc fn = some (fn.takeWhile (· ≠ 46)) := by
  rw [packageForFunc_of_slashidx 0 (by simp [LastIndex, h]) (Nat.zero_le _), List.drop_zero]
  by_cases hd : (46 : UInt8) ∈ fn
  · rw [Index, if_pos hd, if_neg (by omega), ← take_indexOf, ← slice_take fn (List.indexOf_lt_length.2 hd).le]
    simp
  · rw [Index, if_neg hd, if_pos rfl, takeWhile_of_not_mem hd, ← List.take_length fn, ← slice_take fn le_rfl]
    simp

/-- A name with a last `/` after `d`: `packageForFunc` panics when `d` is not
empty and no `.` follows the `/`. -/
theorem packageForFunc_of_slash (d : List UInt8) {base : List UInt8} (h : 47 ∉ base) :
    packageForFunc (d ++ 47 :: base) =
      if 0 < d.length ∧ 46 ∉ base then none else some (d ++ 47 :: base.takeWhile (· ≠ 46)) := by
  have hlast : LastIndex (d ++ 47 :: base) 47 = d.length := by
    rw [LastIndex, if_pos (by simp), List.reverse_append, List.reverse_cons, List.append_assoc,
      List.indexOf_append_of_not_mem (by simpa using h), List.singleton_append, List.indexOf_cons_self]
    simp
    omega
  have hrest : (d ++ 47 :: base).drop d.length = 47 :: base := List.drop_left _ _
  rw [packageForFunc_of_slashidx d.length (by rw [hlast]; simp) (by simp), hrest]
  by_cases hd : (46 : UInt8) ∈ base
  · have hdot : Index (47 :: base) 46 = ((base.indexOf 46 + 1 : Nat) : Int) := by
      rw [Index, if_pos (List.mem_cons_of_mem _ hd), List.indexOf_cons_ne _ (by decide)]
    have hlt := List.indexOf_lt_length.2 hd
    rw [hdot, if_neg (by omega), if_neg fun h => h.2 hd, ← Int.ofNat_add, slice_take _ (by simp; omega),
      List.take_append, List.take_succ_cons, take_indexOf]
  · rw [show Index (47 :: base) 46 = -1 from if_neg (by simpa using hd), if_pos rfl]
    rcases Nat.eq_zero_or_pos d.length with h0 | h0
    · rw [List.length_eq_zero.1 h0, if_neg (by simp), takeWhile_of_not_mem hd]
      simpa using slice_take (47 :: base) le_rfl
    · rw [if_pos ⟨h0, hd⟩, slice_past]
      simp
      omega

/-- `packageForFunc` panics exactly when the last `/` of the name is not its
first byte and no `.` follows it; otherwise it returns `packageOf`. -/
theorem packageForFunc_eq (fn : List UInt8) :
    packageForFunc fn = if 1 < (dirOf fn).length ∧ 46 ∉ baseOf fn then none else some (packageOf fn) := by
  have hb := slash_not_mem_baseOf fn
  conv_lhs => rw [← dirOf_append_baseOf fn]
  rcases dirOf_cases fn with h | ⟨d, h⟩
  · rw [h, List.nil_append, packageForFunc_of_no_slash hb, packageOf, h]
    simp
  · rw [h, List.append_assoc, List.singleton_append, packageForFunc_of_slash d hb, packageOf, h]
    simp

/-- `"a/b.c"` is in package `"a/b"`. -/
example : packageForFunc [97, 47, 98, 46, 99] = some [97, 47, 98] := by decide

/-- `"a/b"`: a `/` past the first byte and no `.` after it, so `packageForFunc`
panics where `packageOf` keeps the whole name. -/
theorem packageForFunc_slash_no_dot :
    packageForFunc [97, 47, 98] = none ∧ packageOf [97, 47, 98] = [97, 47, 98] := by
  decide

end Cue
