/-
# Cue.Format.Formatter — formatters, and the combinators that escape and join them

A `format.Formatter` appends to a `Buffer`; here it is the list of bytes it
appends for an event. `Buffer.AppendString` appends a string's UTF-8 encoding
and `AppendRune` a rune's, so every formatter built from strings writes
`encode` of some string; only a user's formatter writes arbitrary bytes.

The formatters below read the event's level, message, error text and context.
What they use of Go's standard library beyond UTF-8 (`fmt.Sprint` of a context
value, `strconv.Quote`, the Unicode letter, number, punctuation and symbol
tables) is given as a `Lib`.

* `join_eq_intercalate` — `Join` puts `sep` only between the formatters that
  write something;
* `escape_output` — whatever bytes the inner formatter writes, `Escape` writes
  no ASCII control byte and no space rune other than `' '`: each control or
  space rune other than `' '` becomes its escape, every other rune is copied;
  so `HumanMessage` never writes a newline.
-/
import Mathlib.Data.String.Basic
import Cue.Context
import Cue.Format.Runes

namespace Cue.Format

set_option autoImplicit false

/-- What the formatters use of Go's standard library: `fmt.Sprint` of a
context value, the string a value holds (`v.(string)`), `strconv.Quote`, and
`unicode.IsLetter(r) || IsNumber(r) || IsPunct(r) || IsSymbol(r)`. -/
structure Lib (V : Type) where
  sprint : V → String
  asString : V → Option String
  quote : String → String
  isGraphic : Char → Bool

/-- The fields of a `cue.Event` the modelled formatters and collectors read;
`error` is `Error()` of a non-nil error. -/
structure Event (V : Type) where
  level : Nat
  message : String
  error : Option String
  context : Context V

/-- `Formatter`: the bytes it appends to the buffer for an event. -/
abbrev Formatter (V : Type) := Event V → List UInt8

variable {V : Type}

/-! ## Formatters of the event's fields -/

/-- `Literal(s)`. -/
def Literal (s : String) : Formatter V := fun _ => encode s

/-- `Message`. -/
def Message : Formatter V := fun e => encode e.message

/-- `Error`: nothing for a nil error. -/
def Error : Formatter V := fun e =>
  match e.error with
  | none => []
  | some err => encode err

/-- `MessageWithError`: the message, then `": "` and the error text when there
is an error whose text is not the message. -/
def MessageWithError : Formatter V := fun e =>
  encode e.message ++
    match e.error with
    | some err => if err ≠ e.message then encode ": " ++ encode err else []
    | none => []

/-- `ContextName`. -/
def ContextName : Formatter V := fun e => encode e.context.name

/-- `Time(timeFormat)`: `event.Time.Format(timeFormat)`. The event's `Time` is
not among the fields modelled here; `clock e layout` is its rendering in a
layout. -/
def Time (clock : Event V → String → String) (timeFormat : String) : Formatter V :=
  fun e => encode (clock e timeFormat)

/-- `Hostname`: `os.Hostname()`, or `"unknown"` when it fails (`none`). -/
def Hostname (hostname : Option String) : Formatter V := fun _ => encode (hostname.getD "unknown")

/-- `FQDN`: the output of `/bin/hostname -f` with its leading and trailing
spaces trimmed, or `"unknown"` when the command fails (`none`). -/
def FQDN (output : Option (List UInt8)) : Formatter V := fun _ =>
  match output with
  | some out => trimSpace out
  | none => encode "unknown"

/-! ## Join -/

/-- The `needSep` idiom of `Join` and `StructuredContext`: an output is
appended, after `sep` if something was appended before; `none` is skipped. -/
def appendSep (sep : List UInt8) (acc : List UInt8 × Bool) : Option (List UInt8) → List UInt8 × Bool
  | none => acc
  | some t => ((if acc.2 then acc.1 ++ sep else acc.1) ++ t, true)

/-- One turn of `Join`'s loop: a formatter that writes nothing is skipped. -/
def joinStep (sep : String) (e : Event V) (acc : List UInt8 × Bool) (formatter : Formatter V) :
    List UInt8 × Bool :=
  let tmp := formatter e
  appendSep (encode sep) acc (if tmp.length = 0 then none else some tmp)

/-- `Join(sep, formatters...)`. -/
def Join (sep : String) (formatters : List (Formatter V)) : Formatter V :=
  fun e => (formatters.foldl (joinStep sep e) ([], false)).1

theorem intercalate_cons_cons {α : Type} (sep x y : List α) (ys : List (List α)) :
    sep.intercalate (x :: y :: ys) = x ++ sep ++ sep.intercalate (y :: ys) := by
  simp [List.intercalate, List.intersperse_cons_cons]

/-- The `needSep` loop from any state: the outputs given, joined by `sep`,
after `sep` if something was written before. -/
theorem foldl_appendSep (sep : List UInt8) (xs : List (Option (List UInt8))) (out : List UInt8) (needSep : Bool) :
    xs.foldl (appendSep sep) (out, needSep) =
      match xs.filterMap id with
      | [] => (out, needSep)
      | t :: ts => ((if needSep then out ++ sep else out) ++ sep.intercalate (t :: ts), true) := by
  induction xs generalizing out needSep with
  | nil => rfl
  | cons x xs ih =>
    cases x with
    | none => exact ih out needSep
    | some t =>
      rw [List.foldl_cons, appendSep, ih, show (some t :: xs).filterMap id = t :: xs.filterMap id from rfl]
      cases xs.filterMap id with
      | nil => simp [List.intercalate]
      | cons t' ts => simp [intercalate_cons_cons, List.append_assoc]

/-- From the empty buffer, the `needSep` loop writes its outputs joined by `sep`. -/
theorem foldl_appendSep_nil (sep : List UInt8) (xs : List (Option (List UInt8))) :
    (xs.foldl (appendSep sep) ([], false)).1 = sep.intercalate (xs.filterMap id) := by
  rw [foldl_appendSep]
  cases xs.filterMap id with
  | nil => rfl
  | cons t ts => simp

theorem filterMap_nonempty (ts : List (List UInt8)) :
    (ts.map fun t => if t.length = 0 then none else some t).filterMap id = ts.filter (· ≠ []) := by
  induction ts with
  | nil => rfl
  | cons t ts ih =>
    rw [List.map_cons, List.filter_cons, ← ih]
    cases t <;> rfl

theorem filterMap_ite {α : Type} (p : α → Bool) (f : α → List UInt8) (xs : List α) :
    (xs.map fun x => if p x then some (f x) else none).filterMap id = (xs.filter p).map f := by
  induction xs with
  | nil => rfl
  | cons x xs ih =>
    rw [List.map_cons, List.filter_cons]
    cases p x
    · exact ih
    · exact congrArg (f x :: ·) ih

/-- `Join` writes the outputs of the formatters that write something, with
`sep` between them. -/
theorem join_eq_intercalate (sep : String) (formatters : List (Formatter V)) (e : Event V) :
    Join sep formatters e = (encode sep).intercalate ((formatters.map (· e)).filter (· ≠ [])) := by
  rw [Join, show joinStep sep e = fun acc f => appendSep (encode sep) acc (if (f e).length = 0 then none else some (f e))
    from rfl, ← List.foldl_map, foldl_appendSep_nil, ← filterMap_nonempty, List.map_map]
  rfl

/-! ## Trim, Truncate and Escape -/

/-- `Trim(formatter)`: `strings.TrimSpace` of what `formatter` writes. -/
def Trim (formatter : Formatter V) : Formatter V := fun e => trimSpace (formatter e)

/-- `Truncate(formatter, length)`: the first `length` bytes of what `formatter`
writes, for a length that is not negative (the package's callers pass 1024). -/
def Truncate (formatter : Formatter V) (length : Nat) : Formatter V := fun e =>
  let bytes := formatter e
  if bytes.length > length then bytes.take length else bytes

/-- What `Escape` writes for one rune: `' '` as it is, a control or space rune
as the escape `strconv.QuoteRune` gives it, quotes stripped, any other rune as
it is. -/
def escapedRune (r : Char) : List UInt8 :=
  if r = ' ' then String.utf8EncodeChar r
  else if isControl r || isSpace r then encode ⟨quotedRune r⟩
  else String.utf8EncodeChar r

/-- `Escape(formatter)`: the runes of what `formatter` writes, each escaped. -/
def Escape (formatter : Formatter V) : Formatter V := fun e => (runes (formatter e)).flatMap escapedRune

/-- The runes `Escape` writes for a rune. -/
def escapedChars (r : Char) : List Char :=
  if r ≠ ' ' ∧ (isControl r || isSpace r) then quotedRune r else [r]

theorem escapedRune_eq (r : Char) : escapedRune r = encode ⟨escapedChars r⟩ := by
  unfold escapedRune escapedChars
  by_cases h : r = ' '
  · rw [if_pos h, if_neg (fun h' => h'.1 h), encode_mk_cons, encode_mk_nil, List.append_nil]
  by_cases hc : (isControl r || isSpace r) = true
  · rw [if_neg h, if_pos hc, if_pos ⟨h, hc⟩]
  · rw [if_neg h, if_neg hc, if_neg (fun h' => hc h'.2), encode_mk_cons, encode_mk_nil, List.append_nil]

@[simp] theorem encode_mk_append (a b : List Char) : encode ⟨a ++ b⟩ = encode ⟨a⟩ ++ encode ⟨b⟩ :=
  List.flatMap_append _ _ _

theorem encode_flatMap (cs : List Char) (f : Char → List Char) :
    cs.flatMap (fun c => encode ⟨f c⟩) = encode ⟨cs.flatMap f⟩ := by
  induction cs with
  | nil => rfl
  | cons c cs ih =>
    rw [List.flatMap_cons, List.flatMap_cons, ih]
    exact (encode_append ⟨f c⟩ ⟨cs.flatMap f⟩).symm

/-- A rune `Escape` writes is neither a control rune nor a space other than `' '`. -/
theorem escapedChars_plain {r c : Char} (h : c ∈ escapedChars r) : isControl c = false ∧ (isSpace c = true → c = ' ') := by
  unfold escapedChars at h
  split at h
  · have hg := quotedRune_graphic r c h
    have := not_control_space_of_graphic hg.1 hg.2
    exact ⟨this.1, fun hs => absurd hs (by rw [this.2]; decide)⟩
  · rename_i hr
    rw [List.mem_singleton] at h
    subst h
    by_cases hsp : c = ' '
    · exact ⟨by subst hsp; decide, fun _ => hsp⟩
    · have : ¬(isControl c || isSpace c) = true := fun hcs => hr ⟨hsp, hcs⟩
      simp only [Bool.or_eq_true, not_or, Bool.not_eq_true] at this
      exact ⟨this.1, fun hs => absurd hs (by rw [this.2]; decide)⟩

/-- An ASCII control byte encodes only a control rune. -/
theorem control_of_mem_encode {cs : List Char} {b : UInt8} (hb : b ∈ encode ⟨cs⟩)
    (hctl : b.toNat < 0x20 ∨ b.toNat = 0x7F) : ∃ c ∈ cs, isControl c = true := by
  obtain ⟨c, hc, hbc⟩ := List.mem_flatMap.1 hb
  have := (mem_encodeChar_ascii (by omega)).1 hbc
  refine ⟨c, hc, ?_⟩
  simp only [isControl, Bool.or_eq_true, Bool.and_eq_true, decide_eq_true_eq]
  omega

theorem escape_eq_encode (formatter : Formatter V) (e : Event V) :
    Escape formatter e = encode ⟨(runes (formatter e)).flatMap escapedChars⟩ := by
  rw [Escape, show escapedRune = fun r => encode ⟨escapedChars r⟩ from funext escapedRune_eq, encode_flatMap]

theorem plain_of_mem_escape {formatter : Formatter V} {e : Event V} {c : Char}
    (hc : c ∈ runes (Escape formatter e)) : isControl c = false ∧ (isSpace c = true → c = ' ') := by
  rw [escape_eq_encode, runes_encode] at hc
  obtain ⟨r, -, hr⟩ := List.mem_flatMap.1 hc
  exact escapedChars_plain hr

theorem escape_no_control (formatter : Formatter V) (e : Event V) :
    ∀ b ∈ Escape formatter e, ¬(b.toNat < 0x20 ∨ b.toNat = 0x7F) := by
  intro b hb h
  have hb' := hb
  rw [escape_eq_encode] at hb'
  obtain ⟨c, hc, hcc⟩ := control_of_mem_encode hb' h
  rw [(plain_of_mem_escape (by rw [escape_eq_encode, runes_encode]; exact hc)).1] at hcc
  exact Bool.false_ne_true hcc

/-! ## HumanContext and HumanMessage -/

/-- The runes for which `writeHumanValue` quotes: a quote, an apostrophe, a
backslash, NUL, and every rune that is not a letter, number, punctuation or
symbol. -/
def special (lib : Lib V) (r : Char) : Bool :=
  r = '"' || r = '\'' || r = '\\' || r.toNat = 0 || !lib.isGraphic r

/-- `writeHumanValue(buffer, v)` for `s = fmt.Sprint(v)` (a key is a string, and
`fmt.Sprint` of a string is the string): `""` for the empty string, the
`strconv.Quote`d string when it holds a special rune, the string otherwise. -/
def writeHumanValue (lib : Lib V) (s : String) : List UInt8 :=
  if s = "" then encode "\"\""
  else if s.data.any (special lib) then encode (lib.quote s)
  else encode s

/-- The keys of `Fields()`, as `sort.Strings` orders them; UTF-8 byte order is
code point order, and the keys are distinct, so any sort gives this list. -/
def sortedKeys (c : Context V) : List String :=
  (c.Each.map Prod.fst).eraseDups.mergeSort fun a b => decide (a ≤ b)

/-- `HumanContext`: `key=value` for every key of `Fields()` in sorted order,
separated by single spaces. A key of the map always has a value; Go's zero
value would print as `<nil>`. -/
def HumanContext (lib : Lib V) : Formatter V := fun e =>
  let keys := sortedKeys e.context
  keys.enum.flatMap fun (i, k) =>
    writeHumanValue lib k ++ String.utf8EncodeChar '=' ++
      writeHumanValue lib (((e.context.Fields k).map lib.sprint).getD "<nil>") ++
      (if i < keys.length - 1 then String.utf8EncodeChar ' ' else [])

/-- An empty context writes nothing. -/
theorem humanContext_of_each_nil (lib : Lib V) {e : Event V} (h : e.context.Each = []) : HumanContext lib e = [] := by
  simp [HumanContext, sortedKeys, h, List.eraseDups, List.eraseDups.loop]

/-- `HumanMessage = Escape(Trim(Join(" ", MessageWithError, HumanContext)))`. -/
def HumanMessage (lib : Lib V) : Formatter V := Escape (Trim (Join " " [MessageWithError, HumanContext lib]))

theorem humanMessage_no_newline (lib : Lib V) (e : Event V) : (10 : UInt8) ∉ HumanMessage lib e :=
  fun hb => escape_no_control _ e 10 hb (.inl (by decide))

/-- `Escape` writes no ASCII control byte and no space rune other than `' '`:
every control or space rune other than `' '` of the inner output becomes its
escape and every other rune is copied, whatever bytes the inner formatter
writes. So `HumanMessage` never writes a newline. -/
theorem escape_output (formatter : Formatter V) (e : Event V) :
    (∀ b ∈ Escape formatter e, ¬(b.toNat < 0x20 ∨ b.toNat = 0x7F)) ∧
    (∀ r ∈ runes (Escape formatter e), isSpace r = true → r = ' ') ∧
    runes (Escape formatter e) = (runes (formatter e)).flatMap escapedChars ∧
    ∀ (lib : Lib V) (e' : Event V), (10 : UInt8) ∉ HumanMessage lib e' :=
  ⟨escape_no_control formatter e, fun _ hr => (plain_of_mem_escape hr).2,
    by rw [escape_eq_encode, runes_encode], humanMessage_no_newline⟩

end Cue.Format
