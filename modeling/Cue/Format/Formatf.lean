/-
# Cue.Format.Formatf — `Formatf` and the segmentation of its format string

`Formatf(format, formatters...)` cuts `format` into segments (`splitFormat`):
the literal text between escapes, `"%"` for each `%%` and `"%v"` for each
`%v`, found by a loop over the runes that remembers the previous rune
(`lastrune`) and where the current literal began (`segstart`). It then builds
a chain: the next unused formatter for each `"%v"` while there is one,
`Literal("%!v(MISSING)")` after, and `Literal(seg)` for every other segment.

The documented meaning is a scan of the format from the left (`reference`):
`%%` writes `%`, `%v` writes the next unused formatter's output or
`%!v(MISSING)`, and any other rune, a `%` followed by neither `%` nor `v`
included, is copied.

* `splitFormat_tokens` — the segments, read as tokens, are the tokens of that
  scan (`tokens`): the loop's `lastrune` and `segstart` never lose or invent a
  `%`, and a literal segment is never the text `%v`;
* `formatf_eq_reference` — `Formatf` writes the reference expansion, and its
  chain calls the formatters `0, 1, …` up to the number of placeholders, each
  once: no formatter beyond the placeholders is ever called.
-/
import Mathlib.Data.List.Chain
import Cue.Format.Formatter

namespace Cue.Format

set_option autoImplicit false

variable {V : Type}

/-! ## The reference scan -/

/-- The expansion of a format string as `Formatf` is documented to write it. -/
def reference : List Char → List (Formatter V) → Event V → List UInt8
  | '%' :: '%' :: rest, fs, e => String.utf8EncodeChar '%' ++ reference rest fs e
  | '%' :: 'v' :: rest, f :: fs, e => f e ++ reference rest fs e
  | '%' :: 'v' :: rest, [], e => encode "%!v(MISSING)" ++ reference rest [] e
  | r :: rest, fs, e => String.utf8EncodeChar r ++ reference rest fs e
  | [], _, _ => []

/-- What the reference scan reads: a rune to copy, or a placeholder. -/
inductive Token
  | lit (r : Char)
  | verb
  deriving DecidableEq

/-- The reference scan's reading of a format. -/
def tokens : List Char → List Token
  | '%' :: '%' :: rest => .lit '%' :: tokens rest
  | '%' :: 'v' :: rest => .verb :: tokens rest
  | r :: rest => .lit r :: tokens rest
  | [] => []

/-- The output of a token list, each placeholder taking the next formatter. -/
def render : List Token → List (Formatter V) → Event V → List UInt8
  | [], _, _ => []
  | .lit r :: ts, fs, e => String.utf8EncodeChar r ++ render ts fs e
  | .verb :: ts, f :: fs, e => f e ++ render ts fs e
  | .verb :: ts, [], e => encode "%!v(MISSING)" ++ render ts [] e

theorem reference_eq_render (cs : List Char) (fs : List (Formatter V)) (e : Event V) :
    reference cs fs e = render (tokens cs) fs e := by
  induction cs, fs, e using reference.induct with
  | case1 rest fs e ih => rw [reference, tokens, render, ih]
  | case2 rest f fs e ih => rw [reference, tokens, render, ih]
  | case3 rest e ih => rw [reference, tokens, render, ih]
  | case4 r rest fs e h1 h2 h3 ih =>
    have hv : ∀ rest', r = '%' → rest = 'v' :: rest' → False := fun rest' hr hrest => by
      cases fs with
      | nil => exact h3 rest' hr hrest rfl
      | cons f fs => exact h2 rest' f fs hr hrest rfl
    rw [reference, tokens, render, ih]
    exacts [h1, hv, h1, h2, h3]
  | case5 fs e => rfl

/-! ## splitFormat -/

/-- The variables of `splitFormat`'s loop. -/
structure SplitState where
  segments : List String
  segstart : Nat
  lastrune : Char

/-- `string(runes[i:j])`. -/
def slice (runes : List Char) (i j : Nat) : String := ⟨(runes.drop i).take (j - i)⟩

/-- At an escape ending at rune `i`: the literal segment before it unless it is
empty (`segstart != segend`), then the escape's segment. -/
def closeSegment (runes : List Char) (st : SplitState) (i : Nat) (seg : String) : List String :=
  let segend := i - 1
  (if st.segstart ≠ segend then st.segments ++ [slice runes st.segstart segend] else st.segments) ++ [seg]

/-- One turn of `splitFormat`'s loop, at the rune `r` of index `i`. -/
def splitStep (runes : List Char) (st : SplitState) (ir : Nat × Char) : SplitState :=
  if st.lastrune = '%' ∧ ir.2 = '%' then ⟨closeSegment runes st ir.1 "%", ir.1 + 1, Char.ofNat 0⟩
  else if st.lastrune = '%' ∧ ir.2 = 'v' then ⟨closeSegment runes st ir.1 "%v", ir.1 + 1, ir.2⟩
  else { st with lastrune := ir.2 }

/-- After the loop: the rest of the runes from `segstart`, if any, is the last
segment. -/
def finishSplit (runes : List Char) (st : SplitState) : List String :=
  if st.segstart < runes.length then st.segments ++ [⟨runes.drop st.segstart⟩] else st.segments

/-- `splitFormat(format)`. -/
def splitFormat (format : String) : List String :=
  finishSplit format.data (format.data.enum.foldl (splitStep format.data) ⟨[], 0, Char.ofNat 0⟩)

/-! ## Formatf -/

/-- An element of `Formatf`'s chain: the `i`-th formatter, or a `Literal`. -/
inductive Link
  | formatter (i : Nat)
  | literal (s : String)
  deriving DecidableEq

/-- The formatter a link calls. -/
def Link.index? : Link → Option Nat
  | .formatter i => some i
  | .literal _ => none

/-- One turn of the loop that builds the chain; `acc.2` is `formatterIdx` and
`n` the number of formatters. -/
def chainStep (n : Nat) (acc : List Link × Nat) (seg : String) : List Link × Nat :=
  if seg = "%v" ∧ acc.2 < n then (acc.1 ++ [.formatter acc.2], acc.2 + 1)
  else if seg = "%v" then (acc.1 ++ [.literal "%!v(MISSING)"], acc.2)
  else (acc.1 ++ [.literal seg], acc.2)

/-- The chain `Formatf` builds for `n` formatters. -/
def formatChain (format : String) (n : Nat) : List Link :=
  ((splitFormat format).foldl (chainStep n) ([], 0)).1

/-- What a link writes. -/
def Link.run (formatters : List (Formatter V)) (e : Event V) : Link → List UInt8
  | .formatter i =>
    match formatters[i]? with
    | some f => f e
    | none => []
  | .literal s => encode s

/-- `Formatf(format, formatters...)`. -/
def Formatf (format : String) (formatters : List (Formatter V)) : Formatter V :=
  fun e => (formatChain format formatters.length).flatMap (Link.run formatters e)

theorem formatf_eq (format : String) (formatters : List (Formatter V)) (e : Event V) :
    Formatf format formatters e = (formatChain format formatters.length).flatMap (Link.run formatters e) := rfl

/-! ## The segments are the reference's tokens -/

/-- How `Formatf` reads a segment: the text `%v` is a placeholder wherever it
comes from, since `Formatf` compares the text. -/
def segTokens (seg : String) : List Token := if seg = "%v" then [.verb] else seg.data.map .lit

/-- A run of runes holding no `%%` and no `%v`: the pending literal of the loop. -/
def Plain (L : List Char) : Prop := L.Chain' fun a b => a = '%' → b ≠ '%' ∧ b ≠ 'v'

theorem tokens_cons_lit {a : Char} {y : List Char} (h : a = '%' → ∀ b ∈ y.head?, b ≠ '%' ∧ b ≠ 'v') :
    tokens (a :: y) = .lit a :: tokens y := by
  rw [tokens.eq_3]
  · rintro rest rfl rfl
    exact (h rfl '%' rfl).1 rfl
  · rintro rest rfl rfl
    exact (h rfl 'v' rfl).2 rfl

/-- The scan copies a plain run rune by rune, up to its last rune. -/
theorem tokens_append_of_plain {L : List Char} {c : Char} (h : Plain (L ++ [c])) (x : List Char) :
    tokens (L ++ c :: x) = L.map .lit ++ tokens (c :: x) := by
  induction L with
  | nil => rfl
  | cons a L ih =>
    have h' := List.chain'_cons'.1 h
    have hhead : (L ++ c :: x).head? = (L ++ [c]).head? := by cases L <;> rfl
    rw [List.cons_append, tokens_cons_lit (fun ha b hb => h'.1 b (hhead ▸ hb) ha), ih h'.2, List.map_cons,
      List.cons_append]

theorem tokens_of_plain {L : List Char} (h : Plain L) : tokens L = L.map .lit := by
  rcases L.eq_nil_or_concat with rfl | ⟨L, c, rfl⟩
  · rfl
  · rw [List.concat_eq_append] at h ⊢
    rw [tokens_append_of_plain h [], tokens_cons_lit (y := []) (fun _ b hb => absurd hb (Option.not_mem_none b))]
    simp [tokens]

theorem segTokens_of_plain {L : List Char} (h : Plain L) : segTokens ⟨L⟩ = L.map .lit := by
  rw [segTokens, if_neg]
  intro heq
  have hL : L = ['%', 'v'] := congrArg String.data heq
  subst hL
  exact (List.chain'_pair.1 h rfl).2 rfl

/-- The segments an escape closes: the pending literal `L`, then the escape. -/
theorem closeSegment_tokens {runes L rest : List Char} {st : SplitState} (seg : String)
    (hdrop : runes.drop st.segstart = L ++ '%' :: rest) (h : Plain L) :
    (closeSegment runes st (st.segstart + (L ++ ['%']).length) seg).flatMap segTokens =
      st.segments.flatMap segTokens ++ L.map .lit ++ segTokens seg := by
  have hslice : slice runes st.segstart (st.segstart + (L ++ ['%']).length - 1) = ⟨L⟩ := by
    rw [slice, hdrop, show st.segstart + (L ++ ['%']).length - 1 - st.segstart = L.length by simp,
      List.take_left' rfl]
  unfold closeSegment
  dsimp only
  rw [hslice]
  split
  · rw [List.flatMap_append, List.flatMap_append, List.flatMap_singleton, List.flatMap_singleton,
      segTokens_of_plain h]
  · rename_i hL
    have : L = [] := List.length_eq_zero.1 (by
      simp only [List.length_append, List.length_singleton, ne_eq, not_not] at hL; omega)
    subst this
    simp

theorem plain_concat {L : List Char} {r : Char} (h : Plain L)
    (hr : L.getLast? = some '%' → r ≠ '%' ∧ r ≠ 'v') : Plain (L ++ [r]) :=
  List.chain'_append.2 ⟨h, List.chain'_singleton r, fun x hx y hy hx' => by
    rw [List.head?_cons, Option.mem_some_iff] at hy
    subst hy hx'
    exact hr hx⟩

/-- The loop from any state: the segments it had, then the reference tokens of
the runes from `segstart` on. The pending literal `L` runs from `segstart` to
the current rune, holds no escape, and ends in `%` exactly when `lastrune` is
`%`. -/
theorem foldl_splitStep (runes : List Char) : ∀ (rs L : List Char) (st : SplitState),
    runes.drop st.segstart = L ++ rs → (st.lastrune = '%' ↔ L.getLast? = some '%') → Plain L →
    (finishSplit runes ((rs.enumFrom (st.segstart + L.length)).foldl (splitStep runes) st)).flatMap segTokens =
      st.segments.flatMap segTokens ++ tokens (L ++ rs) := by
  intro rs
  induction rs with
  | nil =>
    intro L st hdrop _ hplain
    rw [List.append_nil] at hdrop ⊢
    rw [List.enumFrom_nil, List.foldl_nil, finishSplit]
    by_cases hL : L = []
    · subst hL
      rw [if_neg (by have := List.drop_eq_nil_iff.1 hdrop; omega)]
      simp [tokens]
    · have : st.segstart < runes.length := by
        have := List.length_drop st.segstart runes
        rw [hdrop] at this
        have := List.length_pos.2 hL
        omega
      rw [if_pos this, hdrop, List.flatMap_append, List.flatMap_singleton, segTokens_of_plain hplain,
        tokens_of_plain hplain]
  | cons r rs ih =>
    intro L st hdrop hlast hplain
    rw [List.enumFrom_cons, List.foldl_cons]
    have hrest : runes.drop (st.segstart + L.length + 1) = rs := by
      rw [← List.drop_drop, ← List.drop_drop, hdrop, List.drop_left, List.drop_one, List.tail_cons]
    by_cases hesc : st.lastrune = '%' ∧ (r = '%' ∨ r = 'v')
    · obtain ⟨L0, rfl⟩ : ∃ L0, L = L0 ++ ['%'] := ⟨_, (List.dropLast_append_getLast? _ (hlast.1 hesc.1)).symm⟩
      have hdrop' : runes.drop st.segstart = L0 ++ '%' :: r :: rs := by simpa using hdrop
      have hL0 : Plain L0 := (List.chain'_append.1 hplain).1
      have hscan : tokens (L0 ++ ['%'] ++ r :: rs) = L0.map .lit ++ tokens ('%' :: r :: rs) := by
        rw [List.append_assoc, List.singleton_append, tokens_append_of_plain hplain]
      rcases hesc with ⟨hl, rfl | rfl⟩
      · rw [splitStep, if_pos ⟨hl, rfl⟩]
        have := ih [] ⟨closeSegment runes st (st.segstart + (L0 ++ ['%']).length) "%",
          st.segstart + (L0 ++ ['%']).length + 1, Char.ofNat 0⟩ (by simpa using hrest) (by simp)
          List.chain'_nil
        rw [List.length_nil, Nat.add_zero] at this
        rw [this, closeSegment_tokens "%" hdrop' hL0, hscan, tokens]
        simp [segTokens]
      · rw [splitStep, if_neg (fun h => by simpa using h.2), if_pos ⟨hl, rfl⟩]
        have := ih [] ⟨closeSegment runes st (st.segstart + (L0 ++ ['%']).length) "%v",
          st.segstart + (L0 ++ ['%']).length + 1, 'v'⟩ (by simpa using hrest) (by simp) List.chain'_nil
        rw [List.length_nil, Nat.add_zero] at this
        rw [this, closeSegment_tokens "%v" hdrop' hL0, hscan, tokens]
        simp [segTokens]
    · have hstep : splitStep runes st (st.segstart + L.length, r) = { st with lastrune := r } := by
        rw [splitStep, if_neg (fun h => hesc ⟨h.1, .inl h.2⟩), if_neg (fun h => hesc ⟨h.1, .inr h.2⟩)]
      have := ih (L ++ [r]) { st with lastrune := r } (by simpa using hdrop)
        (by rw [List.getLast?_concat, Option.some_inj])
        (plain_concat hplain fun h => ⟨fun hr => hesc ⟨hlast.2 h, .inl hr⟩, fun hr => hesc ⟨hlast.2 h, .inr hr⟩⟩)
      rw [List.length_append, List.length_singleton, ← Nat.add_assoc] at this
      rw [hstep, this, List.append_assoc, List.singleton_append]

/-- The segments of `splitFormat`, read as `Formatf` reads them, are the
reference scan's tokens. -/
theorem splitFormat_tokens (format : String) : (splitFormat format).flatMap segTokens = tokens format.data := by
  have := foldl_splitStep format.data format.data [] ⟨[], 0, Char.ofNat 0⟩ rfl (by simp) List.chain'_nil
  simpa [List.enum_eq_enumFrom] using this

/-- `%%v` is an escaped `%` then a copied `v`, and a trailing `%` is copied. -/
example : splitFormat "a%%v%v%" = ["a", "%", "v", "%v", "%"] := by decide

/-! ## The chain -/

theorem render_lits (L : List Char) (ts : List Token) (fs : List (Formatter V)) (e : Event V) :
    render (L.map .lit ++ ts) fs e = encode ⟨L⟩ ++ render ts fs e := by
  induction L with
  | nil => rfl
  | cons c L ih => rw [List.map_cons, List.cons_append, render, ih, encode_mk_cons, List.append_assoc]

theorem segTokens_verb : segTokens "%v" = [.verb] := if_pos rfl

theorem segTokens_of_ne {seg : String} (h : seg ≠ "%v") : segTokens seg = seg.data.map .lit := if_neg h

/-- The chain loop from any state writes what its links so far write, then the
rendering of the remaining segments with the formatters from `formatterIdx` on. -/
theorem foldl_chainStep (fs : List (Formatter V)) (e : Event V) (segs : List String) :
    ∀ (links : List Link) (k : Nat), k ≤ fs.length →
      ((segs.foldl (chainStep fs.length) (links, k)).1).flatMap (Link.run fs e) =
        links.flatMap (Link.run fs e) ++ render (segs.flatMap segTokens) (fs.drop k) e := by
  induction segs with
  | nil => intro links k _; simp [render]
  | cons seg segs ih =>
    intro links k hk
    rw [List.foldl_cons, List.flatMap_cons]
    by_cases hv : seg = "%v"
    · subst hv
      rw [segTokens_verb, List.singleton_append]
      by_cases hkn : k < fs.length
      · rw [chainStep, if_pos ⟨rfl, hkn⟩, ih _ _ hkn, List.drop_eq_getElem_cons hkn, render,
          List.flatMap_append, List.flatMap_singleton, Link.run, List.getElem?_eq_getElem hkn, List.append_assoc]
      · rw [chainStep, if_neg (fun h => hkn h.2), if_pos rfl, ih _ _ hk, List.drop_eq_nil_of_le (by omega),
          render, List.flatMap_append, List.flatMap_singleton, Link.run, List.append_assoc]
    · rw [chainStep, if_neg (fun h => hv h.1), if_neg hv, ih _ _ hk, List.flatMap_append, List.flatMap_singleton,
        Link.run, segTokens_of_ne hv, render_lits, List.append_assoc]

theorem count_verb_lits (L : List Char) : (L.map Token.lit).count .verb = 0 :=
  List.count_eq_zero.2 (by simp)

/-- The formatters the chain calls: from `formatterIdx` on, one per placeholder
while there are formatters. -/
theorem foldl_chainStep_index (n : Nat) (segs : List String) :
    ∀ (links : List Link) (k : Nat), k ≤ n →
      ((segs.foldl (chainStep n) (links, k)).1).filterMap Link.index? =
        links.filterMap Link.index? ++ List.range' k (min ((segs.flatMap segTokens).count .verb) (n - k)) := by
  induction segs with
  | nil => intro links k _; simp
  | cons seg segs ih =>
    intro links k hk
    rw [List.foldl_cons, List.flatMap_cons, List.count_append]
    by_cases hv : seg = "%v"
    · subst hv
      rw [segTokens_verb]
      by_cases hkn : k < n
      · rw [chainStep, if_pos ⟨rfl, hkn⟩, ih _ _ hkn, List.filterMap_append]
        have : min (List.count Token.verb [.verb] + (segs.flatMap segTokens).count .verb) (n - k) =
            min ((segs.flatMap segTokens).count .verb) (n - (k + 1)) + 1 := by
          simp only [List.count_singleton_self]; omega
        rw [this, List.range'_succ]
        simp [Link.index?]
      · rw [chainStep, if_neg (fun h => hkn h.2), if_pos rfl, ih _ _ hk, List.filterMap_append,
          show n - k = 0 by omega]
        simp [Link.index?]
    · rw [chainStep, if_neg (fun h => hv h.1), if_neg hv, ih _ _ hk, List.filterMap_append, segTokens_of_ne hv,
        count_verb_lits, Nat.zero_add]
      simp [Link.index?]

/-- `Formatf` writes the reference expansion of its format, and calls the
formatters `0, 1, …` below the number of placeholders and the number of
formatters, each once and in order, and no other. -/
theorem formatf_eq_reference (format : String) (formatters : List (Formatter V)) :
    (∀ e, Formatf format formatters e = reference format.data formatters e) ∧
    (formatChain format formatters.length).filterMap Link.index? =
      List.range (min ((tokens format.data).count .verb) formatters.length) := by
  refine ⟨fun e => ?_, ?_⟩
  · rw [Formatf, formatChain, foldl_chainStep formatters e _ [] 0 (Nat.zero_le _), reference_eq_render,
      splitFormat_tokens]
    rfl
  · rw [formatChain, foldl_chainStep_index _ _ [] 0 (Nat.zero_le _), splitFormat_tokens, List.range_eq_range']
    rfl

end Cue.Format
