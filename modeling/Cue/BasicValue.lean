/-
# Cue.BasicValue — the values a context stores, and the loop that finds them

`context.WithValue` (`context.go`) stores `basicValue(value)`, so that a value
queued with an event cannot change before the event is logged. `basicValue`
follows pointers: `for rval.Kind() == reflect.Ptr` it stops at a nil pointer
or at a pointer whose type implements `fmt.Stringer` or `error`, and otherwise
goes on with `rval.Elem()`. It returns a value of basic kind as it is, and the
`fmt.Sprint` string of any other.

The loop has no bound of its own: where pointers form a cycle it never ends.
With `type P *P` and `p = &p`, `Elem()` of `p` is `p` again.

* `basicValue_basic` — whenever `basicValue` returns, it returns a value of
  basic kind, so every value a context built by `WithValue` holds is basic
  (`withValue_basic`);
* `basicValue_returns_iff` — it returns exactly when the chain of pointers
  its loop follows from the value is finite (`Acc`), and never when the chain
  comes back to a pointer it passed (`basicValue_cycle`);
* `basicValue_self_pointer` — `p = &p` is such a cycle.
-/
import Mathlib.Logic.Relation
import Cue.Context

namespace Cue

set_option autoImplicit false

namespace Reflect

/-- `reflect.Kind` of a valid value. -/
inductive Kind
  | bool | int | int8 | int16 | int32 | int64
  | uint | uint8 | uint16 | uint32 | uint64 | uintptr
  | float32 | float64 | complex64 | complex128
  | array | chan | func | interface | map | ptr | slice | string | struct | unsafePointer
  deriving DecidableEq, Repr

/-- A Go type as `basicValue` reads it: its kind, and whether it implements
`fmt.Stringer` and `error`. -/
structure Typ where
  kind : Kind
  stringer : Bool
  error : Bool
  deriving DecidableEq, Repr

/-- A value held in an `interface{}`, as `reflect.ValueOf` gives it: its type
and, for a pointer, the address it holds (`none` is nil). What other values
hold is not read. -/
structure Value where
  typ : Typ
  addr : Option Nat
  deriving DecidableEq, Repr

/-- One turn of the loop of `basicValue` at `rval`: `rval.Elem()`, the value
at the address a pointer holds, or `none` where the loop stops — at a value
that is not a pointer, a nil pointer, or a pointer whose type implements
`fmt.Stringer` or `error`. -/
def Value.elem? (heap : Nat → Value) (rval : Value) : Option Value :=
  if rval.typ.kind = .ptr then
    match rval.addr with
    | none => none
    | some a => if rval.typ.stringer || rval.typ.error then none else some (heap a)
  else none

/-- The loop goes from `v` on to `w`. -/
def Elem (heap : Nat → Value) (w v : Value) : Prop := v.elem? heap = some w

end Reflect

open Reflect

/-- The `for` loop of `basicValue` from `rval`: where it stops; `none` when
the fuel runs out first. -/
def derefLoop (heap : Nat → Value) : Nat → Value → Option Value
  | 0, _ => none
  | fuel + 1, rval =>
    match rval.elem? heap with
    | none => some rval
    | some next => derefLoop heap fuel next

/-- What `basicValue` returns: a value as it is (`rval.Interface()`), or the
string `fmt.Sprint` makes of a value (`none`: of the nil interface). -/
inductive Basic
  | value (v : Value)
  | sprint (v : Option Value)
  deriving DecidableEq, Repr

/-- `basicValue(value)`, where `value` is `none` for the nil interface;
`none` when its loop does not end within the fuel. -/
def basicValue (heap : Nat → Value) (fuel : Nat) : Option Value → Option Basic
  | none => some (.sprint none)
  | some v => (derefLoop heap fuel v).map fun rval =>
    match rval.typ.kind with
    | .bool | .string => .value rval
    | .int | .int8 | .int16 | .int32 | .int64 => .value rval
    | .uint | .uint8 | .uint16 | .uint32 | .uint64 | .uintptr => .value rval
    | .float32 | .float64 | .complex64 | .complex128 => .value rval
    | _ => .sprint (some rval)

/-- `context.WithValue(key, value)`: the empty key leaves the context as it
is, before `basicValue` is called; any other key stores `basicValue(value)`.
`none` when `basicValue` does not return within the fuel. -/
def withValue (heap : Nat → Value) (fuel : Nat) (c : Context Basic) (key : String) (value : Option Value) :
    Option (Context Basic) :=
  if key = "" then some c else (basicValue heap fuel value).map (c.WithValue key)

/-- Modelled from the spec: the basic kinds — bool, string, the signed and
unsigned integers, uintptr, the floats and the complex numbers. -/
def Reflect.Kind.basic : Kind → Bool
  | .bool | .string => true
  | .int | .int8 | .int16 | .int32 | .int64 => true
  | .uint | .uint8 | .uint16 | .uint32 | .uint64 | .uintptr => true
  | .float32 | .float64 | .complex64 | .complex128 => true
  | _ => false

/-- The kind of what `basicValue` returns; `fmt.Sprint` returns a string. -/
def Basic.kind : Basic → Kind
  | .value v => v.typ.kind
  | .sprint _ => .string

/-! ## The loop -/

section Loop

variable {heap : Nat → Value}

theorem derefLoop_succ (fuel : Nat) (rval : Value) :
    derefLoop heap (fuel + 1) rval = (rval.elem? heap).elim (some rval) (derefLoop heap fuel) := by
  rw [derefLoop]
  cases rval.elem? heap <;> rfl

/-- The loop ends from `v` exactly when the chain it follows from `v` is finite. -/
theorem derefLoop_returns_iff (v : Value) : (∃ fuel r, derefLoop heap fuel v = some r) ↔ Acc (Elem heap) v := by
  constructor
  · rintro ⟨fuel, r, h⟩
    induction fuel generalizing v with
    | zero => cases h
    | succ fuel ih =>
      rw [derefLoop_succ] at h
      refine ⟨_, fun w hw => ?_⟩
      rw [show v.elem? heap = some w from hw] at h
      exact ih w h
  · intro hacc
    induction hacc with
    | intro v _ ih =>
      cases hv : v.elem? heap with
      | none => exact ⟨1, v, by rw [derefLoop_succ, hv]; rfl⟩
      | some w =>
        obtain ⟨fuel, r, h⟩ := ih w hv
        exact ⟨fuel + 1, r, by rw [derefLoop_succ, hv]; exact h⟩

/-- A value on a cycle of the relation is not accessible. -/
theorem not_acc_of_transGen {v : Value} (h : Relation.TransGen (Elem heap) v v) : ¬Acc (Elem heap) v := by
  intro hacc
  have key : ∀ x, Acc (Relation.TransGen (Elem heap)) x → ¬Relation.TransGen (Elem heap) x x := by
    intro x hx
    induction hx with
    | intro x _ ih => exact fun hxx => ih x hxx hxx
  exact key v hacc.transGen h

end Loop

/-! ## basicValue -/

section BasicValue

variable {heap : Nat → Value}

/-- Whatever `basicValue` returns is of basic kind. -/
theorem basicValue_basic {fuel : Nat} {value : Option Value} {b : Basic}
    (h : basicValue heap fuel value = some b) : b.kind.basic = true := by
  cases value with
  | none => cases h; rfl
  | some v =>
    obtain ⟨rval, -, rfl⟩ := Option.map_eq_some'.1 h
    cases hk : rval.typ.kind <;> simp [hk, Basic.kind, Reflect.Kind.basic]

theorem basicValue_returns_iff (value : Option Value) :
    (∃ fuel b, basicValue heap fuel value = some b) ↔ ∀ v, value = some v → Acc (Elem heap) v := by
  cases value with
  | none => exact ⟨fun _ _ h => (nomatch h), fun _ => ⟨0, _, rfl⟩⟩
  | some v =>
    simp only [basicValue, Option.map_eq_some', Option.some.injEq, forall_eq']
    rw [← derefLoop_returns_iff]
    exact ⟨fun ⟨fuel, _, r, h, _⟩ => ⟨fuel, r, h⟩, fun ⟨fuel, r, h⟩ => ⟨fuel, _, r, h, rfl⟩⟩

/-- A pointer the loop comes back to: `basicValue` never returns. -/
theorem basicValue_cycle {v : Value} (h : Relation.TransGen (Elem heap) v v) (fuel : Nat) :
    basicValue heap fuel (some v) = none := by
  cases hb : basicValue heap fuel (some v) with
  | none => rfl
  | some b => exact absurd ((basicValue_returns_iff (some v)).1 ⟨fuel, b, hb⟩ v rfl) (not_acc_of_transGen h)

/-- Every value a context built by `WithValue` stores is of basic kind. -/
theorem withValue_basic {fuel : Nat} {c c' : Context Basic} {key : String} {value : Option Value}
    (h : withValue heap fuel c key value = some c') (hc : ∀ p ∈ c.Each, p.2.kind.basic = true) :
    ∀ p ∈ c'.Each, p.2.kind.basic = true := by
  unfold withValue at h
  split_ifs at h with hk
  · cases h; exact hc
  · obtain ⟨b, hb, rfl⟩ := Option.map_eq_some'.1 h
    rw [Context.each_withValue _ _ hk]
    rintro p (_ | ⟨_, hp⟩)
    exacts [basicValue_basic hb, hc p hp]

/-- What holds of `basicValue` for every value: whatever it returns is of basic
kind, and so is every value `WithValue` stores with it; it returns exactly
when the chain of pointers its loop follows is finite, and never when that
chain comes back to a pointer it passed. -/
theorem basicValue_returns_basic (heap : Nat → Value) (value : Option Value) :
    (∀ fuel b, basicValue heap fuel value = some b → b.kind.basic = true) ∧
    (∀ fuel (c c' : Context Basic) key, withValue heap fuel c key value = some c' →
      (∀ p ∈ c.Each, p.2.kind.basic = true) → ∀ p ∈ c'.Each, p.2.kind.basic = true) ∧
    ((∃ fuel b, basicValue heap fuel value = some b) ↔ ∀ v, value = some v → Acc (Elem heap) v) ∧
    ∀ v, value = some v → Relation.TransGen (Elem heap) v v → ∀ fuel, basicValue heap fuel value = none :=
  ⟨fun _ _ => basicValue_basic, fun _ _ _ _ => withValue_basic, basicValue_returns_iff value,
    fun _ hv hc fuel => hv ▸ basicValue_cycle hc fuel⟩

end BasicValue

/-- `type P *P` and `p = &p`, with `p` at address `0`: `Elem()` of `p` is `p`,
and no fuel is enough for `basicValue(p)` to return. -/
theorem basicValue_self_pointer :
    ¬∃ fuel b, basicValue (fun _ => ⟨⟨.ptr, false, false⟩, some 0⟩) fuel (some ⟨⟨.ptr, false, false⟩, some 0⟩) = some b :=
  fun ⟨fuel, b, h⟩ => nomatch (basicValue_cycle (.single (by rfl)) fuel).symm.trans h

end Cue
