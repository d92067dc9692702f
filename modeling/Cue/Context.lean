/-
# Cue.Context — key/value contexts, and the contexts rebuilt from others

A `context` (`context.go`) is a name and a linked list of pairs, newest first:
`WithValue` puts a pair in front (and ignores the empty key), `Each` visits
the pairs from the newest, and `Fields` (`toFields`) builds the map from the
oldest, so that a key's newest value wins. The values a context holds are
those `basicValue` returns; `basicValue` returns a value of basic kind as it
is, so the copies below store each value unchanged, and the values are left
abstract (`V`).

`JoinContext` and the pipeline's `filterContext` rebuild a context by calling
`WithValue` from inside `Each`: each pair visited becomes the newest of the
new context. So the new context lists the pairs in the reverse of the order
they were visited:

* `each_joinContext` — `Each` of `JoinContext(name, c1, ..., cn)` is the
  reverse of the concatenation of the `Each` orders of `c1`, ..., `cn`;
* `fields_joinContext` — so for each key its `Fields` holds the oldest value
  in the last context holding the key; with no key repeated within a context
  this is the left-to-right override merge of the contexts' `Fields`
  (`fields_joinContext_of_nodup`);
* `each_filterContext` — `filterContext` keeps the pairs no filter matches,
  in reverse order; with no key repeated, its `Fields` are those of the kept
  pairs (`fields_filterContext_of_nodup`).

A context with a key set twice (`WithValue(k, a).WithValue(k, b)`) shows the
difference: `Fields` of the context gives `b`, `Fields` of its join `a`
(`joinContext_duplicate_key`).
-/
import Mathlib.Data.List.Basic

namespace Cue

set_option autoImplicit false

/-! ## Contexts -/

/-- A `context` with values of type `V`: its name and its pairs, newest first,
in the order `pairs.each` visits them. `WithValue` never stores the empty key. -/
structure Context (V : Type) where
  name : String
  pairs : List (String × V)
  keys_ne : ∀ p ∈ pairs, p.1 ≠ ""

namespace Context

variable {V : Type}

/-- `NewContext(name)`. -/
def NewContext (name : String) : Context V := ⟨name, [], fun _ h => absurd h (List.not_mem_nil _)⟩

/-- `Each(fn)`: the pairs in the order `fn` sees them. -/
def Each (c : Context V) : List (String × V) := c.pairs

/-- `WithValue(key, value)`: the pair becomes the newest; the empty key is
ignored. -/
def WithValue (c : Context V) (key : String) (value : V) : Context V :=
  if h : key = "" then c
  else ⟨c.name, (key, value) :: c.pairs, by
    rintro p (_ | ⟨_, hp⟩)
    · exact h
    · exact c.keys_ne p hp⟩

/-- `pairs.toFields`: the map built from the oldest pair, each pair
overwriting its key. -/
def toFields : List (String × V) → String → Option V
  | [] => fun _ => none
  | (k, v) :: ps => fun k' => if k' = k then some v else toFields ps k'

/-- `Fields()`. -/
def Fields (c : Context V) : String → Option V := toFields c.pairs

/-- `WithValue` applied to the pairs `kvs` in turn, as `Each` drives it in
`JoinContext` and `filterContext`. -/
def withPairs (c : Context V) (kvs : List (String × V)) : Context V :=
  kvs.foldl (fun j kv => j.WithValue kv.1 kv.2) c

end Context

open Context

/-- `JoinContext(name, contexts...)`: a new context, then `WithValue` for
every pair `Each` visits in each non-nil context, in turn. -/
def JoinContext {V : Type} (name : String) (contexts : List (Option (Context V))) : Context V :=
  contexts.foldl (fun joined c => match c with
    | none => joined
    | some c => joined.withPairs c.Each) (NewContext name)

/-- The context `filterContext(filters...)` gives an event: a new context with
the event context's name, then `WithValue` for every pair `Each` visits that
no filter matches. -/
def filterContext {V : Type} (filters : List (String → V → Bool)) (c : Context V) : Context V :=
  c.Each.foldl (fun nc kv => if filters.any (fun f => f kv.1 kv.2) then nc else nc.WithValue kv.1 kv.2)
    (NewContext c.name)

/-! ## Each -/

namespace Context

variable {V : Type}

@[simp] theorem each_newContext (name : String) : (NewContext name : Context V).Each = [] := rfl

theorem each_withValue (c : Context V) {key : String} (value : V) (h : key ≠ "") :
    (c.WithValue key value).Each = (key, value) :: c.Each := by
  simp [WithValue, h, Each]

theorem name_withValue (c : Context V) (key : String) (value : V) : (c.WithValue key value).name = c.name := by
  unfold WithValue; split <;> rfl

/-- Rebuilding from pairs puts them in front, the last visited first. -/
theorem each_withPairs (c : Context V) (kvs : List (String × V)) (hkvs : ∀ p ∈ kvs, p.1 ≠ "") :
    (c.withPairs kvs).Each = kvs.reverse ++ c.Each := by
  induction kvs generalizing c with
  | nil => rfl
  | cons kv kvs ih =>
    rw [withPairs, List.foldl_cons, ← withPairs,
      ih _ fun p hp => hkvs p (List.mem_cons_of_mem _ hp), each_withValue _ _ (hkvs kv (List.mem_cons_self _ _))]
    simp

theorem name_withPairs (c : Context V) (kvs : List (String × V)) : (c.withPairs kvs).name = c.name := by
  induction kvs generalizing c with
  | nil => rfl
  | cons kv kvs ih => rw [withPairs, List.foldl_cons, ← withPairs, ih, name_withValue]

/-! ## Fields -/

theorem toFields_append (ps qs : List (String × V)) (k : String) :
    toFields (ps ++ qs) k = (toFields ps k).or (toFields qs k) := by
  induction ps with
  | nil => rfl
  | cons p ps ih =>
    obtain ⟨k', v⟩ := p
    by_cases hk : k = k' <;> simp [toFields, hk, ih]

theorem toFields_eq_none {ps : List (String × V)} {k : String} (h : k ∉ ps.map Prod.fst) : toFields ps k = none := by
  induction ps with
  | nil => rfl
  | cons p ps ih =>
    obtain ⟨k', v⟩ := p
    simp only [List.map_cons, List.mem_cons, not_or] at h
    simp only [toFields, if_neg h.1]
    exact ih h.2

/-- With no key repeated, the oldest and the newest value of a key agree. -/
theorem toFields_reverse {ps : List (String × V)} (h : (ps.map Prod.fst).Nodup) : toFields ps.reverse = toFields ps := by
  induction ps with
  | nil => rfl
  | cons p ps ih =>
    obtain ⟨k', v⟩ := p
    rw [List.map_cons, List.nodup_cons] at h
    funext k
    rw [List.reverse_cons, toFields_append, ih h.2]
    by_cases hk : k = k'
    · subst hk; simp [toFields, toFields_eq_none h.1]
    · simp [toFields, hk]

end Context

/-! ## JoinContext and filterContext -/

open Context

/-- `Each` of a join lists the pairs of the joined contexts in the reverse of
the order it visited them. -/
theorem each_joinContext {V : Type} (name : String) (contexts : List (Option (Context V))) :
    (JoinContext name contexts).Each = ((contexts.filterMap id).flatMap Each).reverse := by
  suffices ∀ (j : Context V), (contexts.foldl (fun joined c => match c with
      | none => joined
      | some c => joined.withPairs c.Each) j).Each = ((contexts.filterMap id).flatMap Each).reverse ++ j.Each by
    have := this (NewContext name)
    rwa [each_newContext, List.append_nil] at this
  induction contexts with
  | nil => simp
  | cons c cs ih =>
    intro j
    cases c with
    | none => simpa using ih j
    | some c =>
      rw [List.foldl_cons]
      dsimp only
      rw [ih, each_withPairs _ c.Each c.keys_ne]
      simp

/-- `Fields` of a join: for each key, the value the last context holding it
holds first, its oldest. -/
theorem fields_joinContext {V : Type} (name : String) (contexts : List (Option (Context V))) (k : String) :
    (JoinContext name contexts).Fields k =
      (contexts.filterMap id).foldl (fun acc c => (toFields c.Each.reverse k).or acc) none := by
  suffices ∀ (cs : List (Context V)) (rest : List (String × V)), toFields ((cs.flatMap Each).reverse ++ rest) k =
      cs.foldl (fun acc c => (toFields c.Each.reverse k).or acc) (toFields rest k) by
    have := this (contexts.filterMap id) []
    rw [List.append_nil] at this
    exact (congrArg (toFields · k) (each_joinContext name contexts)).trans this
  intro cs
  induction cs with
  | nil => intro rest; rfl
  | cons c cs ih =>
    intro rest
    rw [List.flatMap_cons, List.reverse_append, List.append_assoc, ih, List.foldl_cons, toFields_append]

/-- With no key repeated within a context, `Fields` of a join is the
left-to-right override merge of the contexts' `Fields`. -/
theorem fields_joinContext_of_nodup {V : Type} (name : String) (contexts : List (Option (Context V)))
    (h : ∀ c ∈ contexts.filterMap id, (c.Each.map Prod.fst).Nodup) (k : String) :
    (JoinContext name contexts).Fields k =
      (contexts.filterMap id).foldl (fun acc c => (c.Fields k).or acc) none := by
  rw [fields_joinContext]
  exact List.foldl_ext _ _ _ fun acc c hc => by rw [toFields_reverse (h c hc)]; rfl

/-- `filterContext` keeps the pairs no filter matches, the last visited first. -/
theorem each_filterContext {V : Type} (filters : List (String → V → Bool)) (c : Context V) :
    (filterContext filters c).Each = (c.Each.filter fun kv => !filters.any fun f => f kv.1 kv.2).reverse := by
  suffices ∀ (kvs : List (String × V)) (j : Context V), (∀ p ∈ kvs, p.1 ≠ "") →
      (kvs.foldl (fun nc kv => if filters.any (fun f => f kv.1 kv.2) then nc else nc.WithValue kv.1 kv.2) j).Each =
        (kvs.filter fun kv => !filters.any fun f => f kv.1 kv.2).reverse ++ j.Each by
    have := this c.Each (NewContext c.name) c.keys_ne
    rwa [each_newContext, List.append_nil] at this
  intro kvs
  induction kvs with
  | nil => simp
  | cons kv kvs ih =>
    intro j hkvs
    have hrest : ∀ p ∈ kvs, p.1 ≠ "" := fun p hp => hkvs p (List.mem_cons_of_mem _ hp)
    rw [List.foldl_cons]
    by_cases hf : filters.any (fun f => f kv.1 kv.2) = true
    · rw [if_pos hf, ih j hrest, List.filter_cons_of_neg (by simpa using hf)]
    · rw [if_neg hf, ih _ hrest, each_withValue _ _ (hkvs kv (List.mem_cons_self _ _)),
        List.filter_cons_of_pos (by simpa using hf)]
      simp

/-- With no key set twice, the filtered context maps each key no filter
matches to its value. -/
theorem fields_filterContext_of_nodup {V : Type} (filters : List (String → V → Bool)) {c : Context V}
    (h : (c.Each.map Prod.fst).Nodup) :
    (filterContext filters c).Fields = toFields (c.Each.filter fun kv => !filters.any fun f => f kv.1 kv.2) := by
  have hf : ((c.Each.filter fun kv => !filters.any fun f => f kv.1 kv.2).map Prod.fst).Nodup :=
    h.sublist ((List.filter_sublist _).map _)
  exact (congrArg toFields (each_filterContext filters c)).trans (toFields_reverse hf)

/-- The context's own pairs, rebuilt: the order of `Each` reversed and, for a
key set twice, the oldest value in `Fields`, where `Fields` of a join of one
context and of a filter matching nothing should be the context's own. -/
theorem context_rebuilt_reversed {V : Type} (name : String) (contexts : List (Option (Context V)))
    (filters : List (String → V → Bool)) (c : Context V) :
    (JoinContext name contexts).Each = ((contexts.filterMap id).flatMap Each).reverse ∧
    (∀ k, (JoinContext name contexts).Fields k =
      (contexts.filterMap id).foldl (fun acc c => (toFields c.Each.reverse k).or acc) none) ∧
    (filterContext filters c).Each = (c.Each.filter fun kv => !filters.any fun f => f kv.1 kv.2).reverse ∧
    ((c.Each.map Prod.fst).Nodup → (JoinContext name [some c]).Fields = c.Fields ∧
      (filterContext filters c).Fields = toFields (c.Each.filter fun kv => !filters.any fun f => f kv.1 kv.2)) := by
  refine ⟨each_joinContext name contexts, fields_joinContext name contexts, each_filterContext filters c,
    fun h => ⟨funext fun k => ?_, fields_filterContext_of_nodup filters h⟩⟩
  rw [fields_joinContext_of_nodup name [some c] (by simpa using h)]
  simp

/-- A key set twice: the join of the context, and the context a filter matching
nothing gives, hold the first value where the context holds the second, and
list the pairs the other way round. -/
theorem joinContext_duplicate_key :
    let c : Context String := ((NewContext "app").WithValue "k" "a").WithValue "k" "b"
    c.Fields "k" = some "b" ∧ (JoinContext "app" [some c]).Fields "k" = some "a" ∧
      (filterContext [] c).Fields "k" = some "a" ∧ (filterContext [] c).Each ≠ c.Each := by
  decide

/-! ## WithFields -/

namespace Context

variable {V : Type}

end Context

open Context

end Cue
