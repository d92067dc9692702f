/-
# Cue.Format.Structured — `StructuredContext`, and reading its output back

`StructuredContext` writes the RFC 5424 SD-PARAMs of an event's context: for
each pair `Each` visits whose key passes `validStructuredKey`, `key="value"`,
separated by single spaces, where `writeStructuredValue` puts a backslash
before each `"`, `\` and `]` of the value's text (the string the value holds,
or its `fmt.Sprint`).

`parseStructured` reads such output back: a key up to `=`, an opening quote,
then the value up to the first unescaped quote, each escaped rune taken as it
is, then a space before the next parameter or the end.

* `structuredContext_eq` — the output is the UTF-8 encoding of the params of
  the valid pairs, in `Each` order, joined by spaces;
* `structured_roundtrip` — reading the output back gives exactly the valid
  pairs with their value texts, and no escaped value holds an unescaped `"` or
  `]`.
-/
import Cue.Format.Formatter

namespace Cue.Format

set_option autoImplicit false

variable {V : Type}

/-! ## StructuredContext -/

/-- `validStructuredKey(name)`: at most 32 bytes, and no rune at or below the
space, at or above DEL, or among `=`, `]` and `"`. -/
def validStructuredKey (name : String) : Bool :=
  if name.utf8ByteSize > 32 then false
  else name.data.all fun r => !(r.toNat ≤ 32) && !(r.toNat ≥ 127) && r ≠ '=' && r ≠ ']' && r ≠ '"'

/-- The runes `writeStructuredValue` writes for a rune of the text. -/
def escapeStructured (r : Char) : List Char :=
  if r = '"' then ['\\', '"']
  else if r = '\\' then ['\\', '\\']
  else if r = ']' then ['\\', ']']
  else [r]

/-- The text `writeStructuredValue` escapes: the string the value holds, or
its `fmt.Sprint`. -/
def structuredText (lib : Lib V) (v : V) : String := (lib.asString v).getD (lib.sprint v)

/-- `writeStructuredValue(buffer, v)`; the runes of a Go string that is valid
UTF-8 are those of the text. -/
def writeStructuredValue (lib : Lib V) (v : V) : List UInt8 :=
  (structuredText lib v).data.flatMap fun r => encode ⟨escapeStructured r⟩

/-- `writeStructuredPair(buffer, name, value)`. -/
def writeStructuredPair (lib : Lib V) (name : String) (value : V) : List UInt8 :=
  encode name ++ String.utf8EncodeChar '=' ++ String.utf8EncodeChar '"' ++ writeStructuredValue lib value ++
    String.utf8EncodeChar '"'

/-- The function `StructuredContext` hands to `Each`, on one pair. -/
def structuredStep (lib : Lib V) (acc : List UInt8 × Bool) (kv : String × V) : List UInt8 × Bool :=
  appendSep (String.utf8EncodeChar ' ') acc
    (if validStructuredKey kv.1 then some (writeStructuredPair lib kv.1 kv.2) else none)

/-- `StructuredContext`. -/
def StructuredContext (lib : Lib V) : Formatter V := fun e =>
  (e.context.Each.foldl (structuredStep lib) ([], false)).1

/-! ## The params, as runes -/

/-- The runes of one SD-PARAM. -/
def sdParam (key value : String) : List Char :=
  key.data ++ ['=', '"'] ++ value.data.flatMap escapeStructured ++ ['"']

/-- The pairs `StructuredContext` writes, with their value texts. -/
def structuredPairs (lib : Lib V) (c : Context V) : List (String × String) :=
  (c.Each.filter fun kv => validStructuredKey kv.1).map fun kv => (kv.1, structuredText lib kv.2)

theorem writeStructuredPair_eq (lib : Lib V) (name : String) (value : V) :
    writeStructuredPair lib name value = encode ⟨sdParam name (structuredText lib value)⟩ := by
  simp only [writeStructuredPair, writeStructuredValue, sdParam, encode_flatMap, encode_mk_append, encode_mk_cons,
    encode_mk_nil, List.append_nil, List.append_assoc]

theorem encode_intercalate (xs : List (List Char)) :
    encode ⟨[' '].intercalate xs⟩ = (String.utf8EncodeChar ' ').intercalate (xs.map fun x => encode ⟨x⟩) := by
  match xs with
  | [] => rfl
  | [x] => simp [List.intercalate]
  | x :: y :: ys =>
    have ih := encode_intercalate (y :: ys)
    rw [List.map_cons] at ih
    rw [List.map_cons, List.map_cons, intercalate_cons_cons, intercalate_cons_cons, encode_mk_append,
      encode_mk_append, ih]
    rfl

/-- `StructuredContext` writes the params of the pairs with a valid key, in
`Each` order, separated by single spaces. -/
theorem structuredContext_eq (lib : Lib V) (e : Event V) :
    StructuredContext lib e = encode ⟨[' '].intercalate ((structuredPairs lib e.context).map fun p => sdParam p.1 p.2)⟩ := by
  rw [StructuredContext, show structuredStep lib = fun acc kv => appendSep (String.utf8EncodeChar ' ') acc
    (if validStructuredKey kv.1 then some (writeStructuredPair lib kv.1 kv.2) else none) from rfl,
    ← List.foldl_map, foldl_appendSep_nil, filterMap_ite, encode_intercalate, structuredPairs, List.map_map,
    List.map_map]
  congr 1
  exact List.map_congr_left fun kv _ => writeStructuredPair_eq lib kv.1 kv.2

/-! ## Reading the params back -/

/-- Where the reader is: in a key, before the opening quote, in a value, just
after a backslash in a value, or after a closing quote. -/
inductive ReadState
  | key (k : List Char)
  | quote (k : List Char)
  | value (k v : List Char)
  | escape (k v : List Char)
  | after

/-- The reader from a state: a key ends at `=`, a value at the first quote
not behind a backslash, and a backslash keeps the rune after it. -/
def readParams : ReadState → List Char → Option (List (String × String))
  | .key k, c :: cs => if c = '=' then readParams (.quote k) cs else readParams (.key (k ++ [c])) cs
  | .quote k, c :: cs => if c = '"' then readParams (.value k []) cs else none
  | .value k v, c :: cs =>
    if c = '\\' then readParams (.escape k v) cs
    else if c = '"' then (readParams .after cs).map ((⟨k⟩, ⟨v⟩) :: ·)
    else readParams (.value k (v ++ [c])) cs
  | .escape k v, c :: cs => readParams (.value k (v ++ [c])) cs
  | .after, c :: cs => if c = ' ' then readParams (.key []) cs else none
  | .after, [] => some []
  | _, [] => none

/-- Reading `StructuredContext`'s output back into (key, value text) pairs. -/
def parseStructured (cs : List Char) : Option (List (String × String)) :=
  if cs = [] then some [] else readParams (.key []) cs

/-- The runes that stand outside an escape, from a state that says whether the
previous rune was an escaping backslash: a backslash and the rune after it are
skipped. -/
def unescapedFrom : Bool → List Char → List Char
  | true, _ :: cs => unescapedFrom false cs
  | false, c :: cs => if c = '\\' then unescapedFrom true cs else c :: unescapedFrom false cs
  | _, [] => []

/-- The runes of a value that stand outside an escape. -/
def unescaped (cs : List Char) : List Char := unescapedFrom false cs

/-! ## The round trip -/

theorem readParams_key (k name rest : List Char) (h : '=' ∉ name) :
    readParams (.key k) (name ++ '=' :: rest) = readParams (.quote (k ++ name)) rest := by
  induction name generalizing k with
  | nil => rw [List.nil_append, readParams, if_pos rfl, List.append_nil]
  | cons c name ih =>
    rw [List.mem_cons, not_or] at h
    rw [List.cons_append, readParams, if_neg (Ne.symm h.1), ih _ h.2, List.append_assoc, List.singleton_append]

theorem readParams_escaped (k v : List Char) (c : Char) (cs : List Char) :
    readParams (.value k v) ('\\' :: c :: cs) = readParams (.value k (v ++ [c])) cs := by
  rw [readParams, if_pos rfl, readParams]

theorem readParams_plain (k v : List Char) {c : Char} (h1 : c ≠ '\\') (h2 : c ≠ '"') (cs : List Char) :
    readParams (.value k v) (c :: cs) = readParams (.value k (v ++ [c])) cs := by
  rw [readParams, if_neg h1, if_neg h2]

/-- `writeStructuredValue` escapes exactly `"`, `\` and `]`, each behind a
backslash. -/
theorem escapeStructured_cases (c : Char) :
    (escapeStructured c = ['\\', c] ∧ (c = '"' ∨ c = '\\' ∨ c = ']')) ∨
      (escapeStructured c = [c] ∧ c ≠ '"' ∧ c ≠ '\\' ∧ c ≠ ']') := by
  unfold escapeStructured
  split_ifs with h1 h2 h3
  · exact .inl ⟨by rw [h1], .inl h1⟩
  · exact .inl ⟨by rw [h2], .inr (.inl h2)⟩
  · exact .inl ⟨by rw [h3], .inr (.inr h3)⟩
  · exact .inr ⟨rfl, h1, h2, h3⟩

/-- The reader takes an escaped value back, up to its closing quote. -/
theorem readParams_value (k v s rest : List Char) :
    readParams (.value k v) (s.flatMap escapeStructured ++ '"' :: rest) =
      (readParams .after rest).map ((⟨k⟩, ⟨v ++ s⟩) :: ·) := by
  induction s generalizing v with
  | nil => rw [List.flatMap_nil, List.nil_append, readParams, if_neg (by decide), if_pos rfl, List.append_nil]
  | cons c s ih =>
    rw [List.flatMap_cons, List.append_assoc]
    rcases escapeStructured_cases c with ⟨he, -⟩ | ⟨he, h1, h2, -⟩
    · rw [he, List.cons_append, List.cons_append, List.nil_append, readParams_escaped, ih, List.append_assoc,
        List.singleton_append]
    · rw [he, List.singleton_append, readParams_plain k v h2 h1, ih, List.append_assoc, List.singleton_append]

theorem readParams_sdParam (key value : String) (rest : List Char) (hk : '=' ∉ key.data) :
    readParams (.key []) (sdParam key value ++ rest) = (readParams .after rest).map ((key, value) :: ·) := by
  rw [show sdParam key value ++ rest = key.data ++ '=' :: '"' :: (value.data.flatMap escapeStructured ++ '"' :: rest)
    by simp [sdParam], readParams_key _ _ _ hk, readParams, if_pos rfl, readParams_value, List.nil_append,
    List.nil_append]

/-- A value made of escapable runes reads back as it was. -/
example : parseStructured (sdParam "k" "a\"]\\") = some [("k", "a\"]\\")] := by decide

theorem readParams_intercalate (p : String × String) (ps : List (String × String))
    (h : ∀ q ∈ p :: ps, '=' ∉ q.1.data) :
    readParams (.key []) ([' '].intercalate ((p :: ps).map fun q => sdParam q.1 q.2)) = some (p :: ps) := by
  induction ps generalizing p with
  | nil =>
    rw [List.map_cons, List.map_nil, show [' '].intercalate [sdParam p.1 p.2] = sdParam p.1 p.2 ++ [] by
      simp [List.intercalate], readParams_sdParam _ _ _ (h p (List.mem_singleton_self p))]
    rfl
  | cons q ps ih =>
    have ih' := ih q fun r hr => h r (List.mem_cons_of_mem p hr)
    rw [List.map_cons] at ih'
    rw [List.map_cons, List.map_cons, intercalate_cons_cons, List.append_assoc,
      readParams_sdParam _ _ _ (h p (List.mem_cons_self p _)), List.singleton_append, readParams, if_pos rfl, ih']
    rfl

theorem not_mem_of_valid {name : String} (h : validStructuredKey name = true) : '=' ∉ name.data := by
  intro hm
  unfold validStructuredKey at h
  split at h
  · exact Bool.false_ne_true h
  · have := List.all_eq_true.1 h '=' hm
    simp at this

/-- Outside the escapes, an escaped text holds its runes other than `"`, `\`
and `]`. -/
theorem unescaped_escape (s : List Char) :
    unescaped (s.flatMap escapeStructured) = s.filter fun r => r != '"' && r != '\\' && r != ']' := by
  induction s with
  | nil => rfl
  | cons c s ih =>
    rw [List.flatMap_cons]
    rcases escapeStructured_cases c with ⟨he, hc⟩ | ⟨he, h1, h2, h3⟩
    · rw [he, List.cons_append, List.cons_append, List.nil_append, unescaped, unescapedFrom, if_pos rfl,
        unescapedFrom, ← unescaped, ih, List.filter_cons_of_neg (by rcases hc with rfl | rfl | rfl <;> decide)]
    · rw [he, List.singleton_append, unescaped, unescapedFrom, if_neg h2, ← unescaped, ih,
        List.filter_cons_of_pos (by simp [h1, h2, h3])]

/-- `StructuredContext` writes the SD-PARAMs of the pairs with a valid key, in
`Each` order and separated by single spaces; reading the output back gives
exactly those pairs with their value texts; and no value holds an unescaped
`"` or `]`. -/
theorem structured_roundtrip (lib : Lib V) (e : Event V) :
    StructuredContext lib e =
      encode ⟨[' '].intercalate ((structuredPairs lib e.context).map fun p => sdParam p.1 p.2)⟩ ∧
    parseStructured (runes (StructuredContext lib e)) = some (structuredPairs lib e.context) ∧
    ∀ p ∈ structuredPairs lib e.context,
      '"' ∉ unescaped (p.2.data.flatMap escapeStructured) ∧ ']' ∉ unescaped (p.2.data.flatMap escapeStructured) := by
  refine ⟨structuredContext_eq lib e, ?_, fun p _ => ?_⟩
  · rw [structuredContext_eq, runes_encode, parseStructured]
    have hkeys : ∀ q ∈ structuredPairs lib e.context, '=' ∉ q.1.data := by
      intro q hq
      obtain ⟨kv, hkv, rfl⟩ := List.mem_map.1 hq
      have hv : validStructuredKey kv.1 = true := (List.mem_filter.1 hkv).2
      exact not_mem_of_valid hv
    cases hps : structuredPairs lib e.context with
    | nil => rfl
    | cons p ps =>
      rw [hps] at hkeys
      rw [if_neg, readParams_intercalate p ps hkeys]
      rw [List.map_cons]
      cases ps <;> simp [List.intercalate, sdParam]
  · rw [unescaped_escape]
    constructor <;> simp

end Cue.Format
