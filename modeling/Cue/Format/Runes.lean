/-
# Cue.Format.Runes — bytes, runes and the escapes of the format package

A `format.Buffer` holds bytes. This module models what the format package does
at that level: the UTF-8 encoding `AppendString` and `AppendRune` write; Go's
decoding of a byte string into runes (`[]rune(string(b))`), where a byte that
starts no valid encoding decodes as `RuneError`; `unicode.IsControl`,
`unicode.IsSpace` and `strings.TrimSpace`; and the escape `strconv.QuoteRune`
writes between its quotes for the runes `Escape` hands it.

* `decodeRune_encode`, `runes_encode` — Go's decoder reads back every rune of a
  UTF-8 encoding: the runes of `encode s` are those of `s`;
* `mem_encodeChar_ascii` — an ASCII byte is in the encoding of a rune only as
  the whole encoding of that very rune: multi-byte encodings hold no ASCII
  byte;
* `quotedRune_graphic` — every escape is printable ASCII, spaces excluded.
-/
import Mathlib.Algebra.Group.Nat.Basic
import Mathlib.Data.List.Basic

namespace Cue.Format

set_option autoImplicit false

/-! ## Encoding -/

/-- The bytes `AppendString` writes for a string: its UTF-8 encoding. -/
def encode (s : String) : List UInt8 := s.data.flatMap String.utf8EncodeChar

@[simp] theorem encode_append (s t : String) : encode (s ++ t) = encode s ++ encode t := by
  simp [encode]

@[simp] theorem encode_mk_cons (c : Char) (cs : List Char) :
    encode ⟨c :: cs⟩ = String.utf8EncodeChar c ++ encode ⟨cs⟩ := rfl

@[simp] theorem encode_mk_nil : encode ⟨[]⟩ = [] := rfl

theorem shr_toNat (v k : UInt32) (hk : k.toNat < 32) : (v >>> k).toNat = v.toNat / 2 ^ k.toNat := by
  have hmod : (k % 32).toBitVec.toNat = k.toNat := by
    show (k.toBitVec % (32 : UInt32).toBitVec).toNat = k.toNat
    rw [BitVec.toNat_umod]
    exact Nat.mod_eq_of_lt hk
  show (v.toBitVec >>> (k % 32).toBitVec.toNat).toNat = _
  rw [BitVec.toNat_ushiftRight, Nat.shiftRight_eq_div_pow, hmod]
  rfl

theorem toNat_mask_or (x m t : UInt8) (j a : Nat) (hm : m.toNat = 2 ^ j - 1) (ht : t.toNat = 2 ^ j * a) :
    (x &&& m ||| t).toNat = x.toNat % 2 ^ j + t.toNat := by
  show (x.toBitVec &&& m.toBitVec ||| t.toBitVec).toNat = _
  rw [BitVec.toNat_or, BitVec.toNat_and]
  change (x.toNat &&& m.toNat ||| t.toNat) = _
  rw [hm, Nat.and_pow_two_sub_one_eq_mod, ht, Nat.or_comm,
    ← Nat.mul_add_lt_is_or (Nat.mod_lt _ (Nat.two_pow_pos j)), Nat.add_comm]

theorem encodeChar_one {c : Char} (h : c.toNat ≤ 127) : String.utf8EncodeChar c = [c.val.toUInt8] := by
  rw [String.utf8EncodeChar, if_pos (show c.val ≤ 127 from h)]

theorem encodeChar_two {c : Char} (h1 : ¬c.toNat ≤ 127) (h2 : c.toNat ≤ 2047) :
    String.utf8EncodeChar c = [(c.val >>> 6).toUInt8 &&& 31 ||| 192, c.val.toUInt8 &&& 63 ||| 128] := by
  rw [String.utf8EncodeChar, if_neg (show ¬c.val ≤ 127 from h1), if_pos (show c.val ≤ 2047 from h2)]

theorem encodeChar_three {c : Char} (h1 : ¬c.toNat ≤ 2047) (h2 : c.toNat ≤ 65535) :
    String.utf8EncodeChar c = [(c.val >>> 12).toUInt8 &&& 15 ||| 224, (c.val >>> 6).toUInt8 &&& 63 ||| 128,
      c.val.toUInt8 &&& 63 ||| 128] := by
  rw [String.utf8EncodeChar, if_neg (show ¬c.val ≤ 127 from fun h => h1 (Nat.le_trans h (by decide))),
    if_neg (show ¬c.val ≤ 2047 from h1), if_pos (show c.val ≤ 65535 from h2)]

theorem encodeChar_four {c : Char} (h : ¬c.toNat ≤ 65535) :
    String.utf8EncodeChar c = [(c.val >>> 18).toUInt8 &&& 7 ||| 240, (c.val >>> 12).toUInt8 &&& 63 ||| 128,
      (c.val >>> 6).toUInt8 &&& 63 ||| 128, c.val.toUInt8 &&& 63 ||| 128] := by
  rw [String.utf8EncodeChar, if_neg (show ¬c.val ≤ 127 from fun h' => h (Nat.le_trans h' (by decide))),
    if_neg (show ¬c.val ≤ 2047 from fun h' => h (Nat.le_trans h' (by decide))),
    if_neg (show ¬c.val ≤ 65535 from h)]

/-- Bits `k` to `k + j` of a code point, with the marker bits `t` above them:
a byte of its encoding. -/
theorem encodeByte_toNat (c : Char) (k : UInt32) (hk : k.toNat < 32) (m t : UInt8) (j a : Nat)
    (hm : m.toNat = 2 ^ j - 1) (ht : t.toNat = 2 ^ j * a) (hj : j ≤ 8) :
    ((c.val >>> k).toUInt8 &&& m ||| t).toNat = c.toNat / 2 ^ k.toNat % 2 ^ j + t.toNat := by
  rw [toNat_mask_or _ m t j a hm ht, show (c.val >>> k).toUInt8.toNat = (c.val >>> k).toNat % 256 from rfl,
    shr_toNat _ _ hk, Nat.mod_mod_of_dvd _ (Nat.pow_dvd_pow_iff_le_right'.2 hj : 2 ^ j ∣ 2 ^ 8)]
  rfl

/-- The last byte of every encoding: the low six bits of the code point,
marked as a continuation byte. -/
theorem lowByte_toNat (c : Char) : (c.val.toUInt8 &&& 63 ||| 128).toNat = c.toNat % 64 + 128 := by
  rw [toNat_mask_or _ 63 128 6 2 rfl rfl]
  show c.toNat % 256 % 64 + 128 = _
  omega

/-- Every byte of the encoding of a rune past ASCII has its top bit set. -/
theorem high_of_mem_encodeChar {c : Char} {b : UInt8} (hc : 128 ≤ c.toNat)
    (hb : b ∈ String.utf8EncodeChar c) : 128 ≤ b.toNat := by
  have b6 : ((c.val >>> 6).toUInt8 &&& 63 ||| 128).toNat = c.toNat / 64 % 64 + 128 :=
    encodeByte_toNat c 6 (by decide) 63 128 6 2 rfl rfl (by decide)
  have b12 : ((c.val >>> 12).toUInt8 &&& 63 ||| 128).toNat = c.toNat / 4096 % 64 + 128 :=
    encodeByte_toNat c 12 (by decide) 63 128 6 2 rfl rfl (by decide)
  have l2 : ((c.val >>> 6).toUInt8 &&& 31 ||| 192).toNat = c.toNat / 64 % 32 + 192 :=
    encodeByte_toNat c 6 (by decide) 31 192 5 6 rfl rfl (by decide)
  have l3 : ((c.val >>> 12).toUInt8 &&& 15 ||| 224).toNat = c.toNat / 4096 % 16 + 224 :=
    encodeByte_toNat c 12 (by decide) 15 224 4 14 rfl rfl (by decide)
  have l4 : ((c.val >>> 18).toUInt8 &&& 7 ||| 240).toNat = c.toNat / 262144 % 8 + 240 :=
    encodeByte_toNat c 18 (by decide) 7 240 3 30 rfl rfl (by decide)
  have b0 := lowByte_toNat c
  by_cases h2 : c.toNat ≤ 2047
  · rw [encodeChar_two (by omega) h2] at hb
    simp only [List.mem_cons, List.mem_singleton, List.not_mem_nil, or_false] at hb
    rcases hb with rfl | rfl <;> omega
  by_cases h3 : c.toNat ≤ 65535
  · rw [encodeChar_three h2 h3] at hb
    simp only [List.mem_cons, List.mem_singleton, List.not_mem_nil, or_false] at hb
    rcases hb with rfl | rfl | rfl <;> omega
  · rw [encodeChar_four h3] at hb
    simp only [List.mem_cons, List.mem_singleton, List.not_mem_nil, or_false] at hb
    rcases hb with rfl | rfl | rfl | rfl <;> omega

/-- An ASCII byte is in the encoding of a rune only as that rune's whole
encoding. -/
theorem mem_encodeChar_ascii {c : Char} {b : UInt8} (hb : b.toNat < 128) :
    b ∈ String.utf8EncodeChar c ↔ c.toNat = b.toNat := by
  by_cases hc : c.toNat ≤ 127
  · rw [encodeChar_one hc, List.mem_singleton]
    constructor
    · rintro rfl; show c.toNat = c.toNat % 256; omega
    · intro e; apply UInt8.toNat.inj; show b.toNat = c.toNat % 256; omega
  · exact ⟨fun h => absurd (high_of_mem_encodeChar (by omega) h) (by omega), fun e => by omega⟩

@[simp] theorem newline_mem_encode (s : String) : (10 : UInt8) ∈ encode s ↔ '\n' ∈ s.data := by
  simp only [encode, List.mem_flatMap, mem_encodeChar_ascii (show (10 : UInt8).toNat < 128 by decide)]
  constructor
  · rintro ⟨c, hc, e⟩
    rwa [show c = '\n' from Char.ext (UInt32.toNat.inj e)] at hc
  · exact fun h => ⟨_, h, rfl⟩

/-! ## Decoding -/

/-- `utf8.RuneError`, U+FFFD. -/
def RuneError : Char := '�'

/-- The `first` and `acceptRanges` tables of `unicode/utf8`, for a byte that
leads a multi-byte encoding: the size of the encoding and the range its second
byte must lie in. None for a byte that leads none (ASCII apart). -/
def leadRange (p0 : Nat) : Option (Nat × Nat × Nat) :=
  if 0xC2 ≤ p0 ∧ p0 ≤ 0xDF then some (2, 0x80, 0xBF)
  else if p0 = 0xE0 then some (3, 0xA0, 0xBF)
  else if 0xE1 ≤ p0 ∧ p0 ≤ 0xEC then some (3, 0x80, 0xBF)
  else if p0 = 0xED then some (3, 0x80, 0x9F)
  else if 0xEE ≤ p0 ∧ p0 ≤ 0xEF then some (3, 0x80, 0xBF)
  else if p0 = 0xF0 then some (4, 0x90, 0xBF)
  else if 0xF1 ≤ p0 ∧ p0 ≤ 0xF3 then some (4, 0x80, 0xBF)
  else if p0 = 0xF4 then some (4, 0x80, 0x8F)
  else none

/-- A continuation byte: `locb <= b <= hicb`. -/
def isContinuation (b : Nat) : Bool := 0x80 ≤ b && b ≤ 0xBF

/-- The rest of `utf8.DecodeRune` once the lead byte `p0` announced an
encoding of `sz` bytes whose second byte lies in `lo..hi`. The masks `mask2`,
`mask3`, `mask4` and `maskx` are taken with `%`, the shifts and the ors of
disjoint bits with `*` and `+`. -/
def decodeMulti (p0 sz lo hi : Nat) : List UInt8 → Char × Nat
  | b1 :: p =>
    if b1.toNat < lo ∨ hi < b1.toNat then (RuneError, 1)
    else if sz ≤ 2 then (Char.ofNat (p0 % 0x20 * 0x40 + b1.toNat % 0x40), 2)
    else match p with
      | b2 :: p =>
        if !isContinuation b2.toNat then (RuneError, 1)
        else if sz ≤ 3 then (Char.ofNat ((p0 % 0x10 * 0x40 + b1.toNat % 0x40) * 0x40 + b2.toNat % 0x40), 3)
        else match p with
          | b3 :: _ =>
            if !isContinuation b3.toNat then (RuneError, 1)
            else (Char.ofNat (((p0 % 0x08 * 0x40 + b1.toNat % 0x40) * 0x40 + b2.toNat % 0x40) * 0x40
              + b3.toNat % 0x40), 4)
          | [] => (RuneError, 1)
      | [] => (RuneError, 1)
  | [] => (RuneError, 1)

/-- `utf8.DecodeRune`: the first rune of `p` and the bytes it takes. A byte
that starts no valid encoding, or a short one, decodes as `RuneError` of width
one. -/
def decodeRune : List UInt8 → Char × Nat
  | [] => (RuneError, 0)
  | p0 :: p =>
    if p0.toNat < 0x80 then (Char.ofNat p0.toNat, 1)
    else match leadRange p0.toNat with
      | some (sz, lo, hi) => decodeMulti p0.toNat sz lo hi p
      | none => (RuneError, 1)

/-- The loop of `[]rune(string(b))`, each rune with the bytes it was decoded
from; `fuel` bounds the number of runes. -/
def segmentsFrom : Nat → List UInt8 → List (Char × List UInt8)
  | 0, _ => []
  | _ + 1, [] => []
  | fuel + 1, b :: bs =>
    let r := decodeRune (b :: bs)
    (r.1, (b :: bs).take r.2) :: segmentsFrom fuel ((b :: bs).drop r.2)

/-- `[]rune(string(b))` with the bytes of each rune. A rune takes at least one
byte, so `b.length` runes are enough. -/
def segments (b : List UInt8) : List (Char × List UInt8) := segmentsFrom b.length b

/-- `[]rune(string(b))`. -/
def runes (b : List UInt8) : List Char := (segments b).map Prod.fst

theorem leadRange_two {b : Nat} (h1 : 0xC2 ≤ b) (h2 : b ≤ 0xDF) : leadRange b = some (2, 0x80, 0xBF) := by
  rw [leadRange, if_pos ⟨h1, h2⟩]

theorem leadRange_three {b : Nat} (h1 : 0xE0 ≤ b) (h2 : b ≤ 0xEF) :
    leadRange b = some (3, if b = 0xE0 then 0xA0 else 0x80, if b = 0xED then 0x9F else 0xBF) := by
  rw [leadRange, if_neg (by omega)]
  by_cases e0 : b = 0xE0
  · rw [if_pos e0, if_pos e0, if_neg (by omega)]
  rw [if_neg e0, if_neg e0]
  by_cases e1 : 0xE1 ≤ b ∧ b ≤ 0xEC
  · rw [if_pos e1, if_neg (by omega)]
  rw [if_neg e1]
  by_cases e2 : b = 0xED
  · rw [if_pos e2, if_pos e2]
  rw [if_neg e2, if_neg e2, if_pos (by omega)]

theorem leadRange_four {b : Nat} (h1 : 0xF0 ≤ b) (h2 : b ≤ 0xF4) :
    leadRange b = some (4, if b = 0xF0 then 0x90 else 0x80, if b = 0xF4 then 0x8F else 0xBF) := by
  rw [leadRange, if_neg (by omega), if_neg (by omega), if_neg (by omega), if_neg (by omega), if_neg (by omega)]
  by_cases e0 : b = 0xF0
  · rw [if_pos e0, if_pos e0, if_neg (by omega)]
  rw [if_neg e0, if_neg e0]
  by_cases e1 : 0xF1 ≤ b ∧ b ≤ 0xF3
  · rw [if_pos e1, if_neg (by omega)]
  rw [if_neg e1, if_pos (by omega), if_pos (by omega)]

theorem isContinuation_of {n : Nat} (h1 : 0x80 ≤ n) (h2 : n ≤ 0xBF) : isContinuation n = true := by
  simp only [isContinuation, decide_eq_true h1, decide_eq_true h2, Bool.and_self]

theorem ofNat_eq {c : Char} {m : Nat} (h : m = c.toNat) : Char.ofNat m = c := h ▸ Char.ofNat_toNat c

theorem decodeRune_multi {p0 : UInt8} {p : List UInt8} {sz lo hi : Nat} (h0 : 0x80 ≤ p0.toNat)
    (h : leadRange p0.toNat = some (sz, lo, hi)) : decodeRune (p0 :: p) = decodeMulti p0.toNat sz lo hi p := by
  rw [decodeRune, if_neg (by omega), h]

theorem reassemble_two {n : Nat} (h : n ≤ 2047) :
    (n / 64 % 32 + 192) % 32 * 64 + (n % 64 + 128) % 64 = n := by omega

theorem reassemble_three {n : Nat} (h : n ≤ 65535) :
    ((n / 4096 % 16 + 224) % 16 * 64 + (n / 64 % 64 + 128) % 64) * 64 + (n % 64 + 128) % 64 = n := by
  simp only [show (224 : Nat) = 16 * 14 from rfl, show (128 : Nat) = 64 * 2 from rfl, Nat.add_mul_mod_self_left,
    Nat.mod_mod]
  omega

theorem reassemble_four {n : Nat} (h : n < 0x110000) :
    (((n / 262144 % 8 + 240) % 8 * 64 + (n / 4096 % 64 + 128) % 64) * 64 + (n / 64 % 64 + 128) % 64) * 64 +
      (n % 64 + 128) % 64 = n := by
  simp only [show (240 : Nat) = 8 * 30 from rfl, show (128 : Nat) = 64 * 2 from rfl, Nat.add_mul_mod_self_left,
    Nat.mod_mod]
  omega

/-- Go's decoder reads a rune back from its encoding, whatever follows. -/
theorem decodeRune_encode (c : Char) (rest : List UInt8) :
    decodeRune (String.utf8EncodeChar c ++ rest) = (c, (String.utf8EncodeChar c).length) := by
  have hv : c.toNat < 0xD800 ∨ (0xDFFF < c.toNat ∧ c.toNat < 0x110000) := c.valid
  have b6 : ((c.val >>> 6).toUInt8 &&& 63 ||| 128).toNat = c.toNat / 64 % 64 + 128 :=
    encodeByte_toNat c 6 (by decide) 63 128 6 2 rfl rfl (by decide)
  have b12 : ((c.val >>> 12).toUInt8 &&& 63 ||| 128).toNat = c.toNat / 4096 % 64 + 128 :=
    encodeByte_toNat c 12 (by decide) 63 128 6 2 rfl rfl (by decide)
  have b0 := lowByte_toNat c
  by_cases h1 : c.toNat ≤ 127
  · rw [encodeChar_one h1, List.singleton_append, decodeRune,
      if_pos (show c.val.toUInt8.toNat < 0x80 by show c.toNat % 256 < 128; omega)]
    exact Prod.ext (ofNat_eq (c := c) (show c.toNat % 256 = c.toNat by omega)) rfl
  by_cases h2 : c.toNat ≤ 2047
  · have l : ((c.val >>> 6).toUInt8 &&& 31 ||| 192).toNat = c.toNat / 64 % 32 + 192 :=
      encodeByte_toNat c 6 (by decide) 31 192 5 6 rfl rfl (by decide)
    rw [encodeChar_two h1 h2, List.cons_append, List.singleton_append, decodeRune_multi (by simp only [l]; omega)
      (by rw [l]; exact leadRange_two (by omega) (by omega))]
    simp only [decodeMulti, l, b0]
    rw [if_neg (by omega), if_pos le_rfl]
    rw [reassemble_two h2, Char.ofNat_toNat]; rfl
  by_cases h3 : c.toNat ≤ 65535
  · have l : ((c.val >>> 12).toUInt8 &&& 15 ||| 224).toNat = c.toNat / 4096 % 16 + 224 :=
      encodeByte_toNat c 12 (by decide) 15 224 4 14 rfl rfl (by decide)
    rw [encodeChar_three h2 h3, List.cons_append, List.cons_append, List.singleton_append,
      decodeRune_multi (by simp only [l]; omega) (by rw [l]; exact leadRange_three (by omega) (by omega))]
    simp only [decodeMulti, l, b6, b0]
    rw [if_neg (by split_ifs <;> omega), if_neg (by decide), isContinuation_of (by omega) (by omega),
      if_neg (by decide), if_pos (by decide)]
    rw [reassemble_three h3, Char.ofNat_toNat]; rfl
  · have l : ((c.val >>> 18).toUInt8 &&& 7 ||| 240).toNat = c.toNat / 262144 % 8 + 240 :=
      encodeByte_toNat c 18 (by decide) 7 240 3 30 rfl rfl (by decide)
    rw [encodeChar_four h3, List.cons_append, List.cons_append, List.cons_append, List.singleton_append,
      decodeRune_multi (by simp only [l]; omega) (by rw [l]; exact leadRange_four (by omega) (by omega))]
    simp only [decodeMulti, l, b12, b6, b0]
    rw [if_neg (by split_ifs <;> omega), if_neg (by decide), isContinuation_of (by omega) (by omega),
      if_neg (by decide), isContinuation_of (by omega) (by omega), if_neg (by decide), if_neg (by decide)]
    rw [reassemble_four (by omega), Char.ofNat_toNat]; rfl

theorem encodeChar_ne_nil (c : Char) : String.utf8EncodeChar c ≠ [] := by
  by_cases h1 : c.toNat ≤ 127
  · rw [encodeChar_one h1]; exact List.cons_ne_nil _ _
  by_cases h2 : c.toNat ≤ 2047
  · rw [encodeChar_two h1 h2]; exact List.cons_ne_nil _ _
  by_cases h3 : c.toNat ≤ 65535
  · rw [encodeChar_three h2 h3]; exact List.cons_ne_nil _ _
  · rw [encodeChar_four h3]; exact List.cons_ne_nil _ _

theorem length_le_encode (cs : List Char) : cs.length ≤ (encode ⟨cs⟩).length := by
  induction cs with
  | nil => exact Nat.le_refl 0
  | cons c cs ih =>
    have := List.length_pos.2 (encodeChar_ne_nil c)
    simp only [encode_mk_cons, List.length_append, List.length_cons]
    omega

theorem segmentsFrom_encode (cs : List Char) :
    ∀ fuel, cs.length ≤ fuel → segmentsFrom fuel (encode ⟨cs⟩) = cs.map fun c => (c, String.utf8EncodeChar c) := by
  induction cs with
  | nil => rintro (_ | _) _ <;> rfl
  | cons c cs ih =>
    rintro (_ | fuel) h
    · exact absurd h (by simp)
    obtain ⟨b, bs, hb⟩ := List.exists_cons_of_ne_nil (encodeChar_ne_nil c)
    have hr := decodeRune_encode c (encode ⟨cs⟩)
    rw [hb, List.cons_append] at hr
    rw [encode_mk_cons, hb, List.cons_append, segmentsFrom, hr, ← List.cons_append, ← hb, List.take_left, List.drop_left,
      ih fuel (by simp at h; omega), List.map_cons]

/-- The runes of an encoding are the encoded ones, each with its own bytes. -/
theorem segments_encode (s : String) : segments (encode s) = s.data.map fun c => (c, String.utf8EncodeChar c) :=
  segmentsFrom_encode s.data _ (length_le_encode s.data)

@[simp] theorem runes_encode (s : String) : runes (encode s) = s.data := by
  simp [runes, segments_encode, Function.comp_def]

/-! ## Unicode classes -/

/-- `unicode.IsControl`: the C0 and C1 control codes. -/
def isControl (r : Char) : Bool := r.toNat ≤ 0x1F || (0x7F ≤ r.toNat && r.toNat ≤ 0x9F)

/-- `unicode.IsSpace`: the Latin-1 spaces, and above Latin-1 the `White_Space`
table. -/
def isSpace (r : Char) : Bool :=
  if r.toNat ≤ 0xFF then r.toNat ∈ [0x09, 0x0A, 0x0B, 0x0C, 0x0D, 0x20, 0x85, 0xA0]
  else r.toNat = 0x1680 ∨ (0x2000 ≤ r.toNat ∧ r.toNat ≤ 0x200A) ∨ r.toNat = 0x2028 ∨ r.toNat = 0x2029 ∨
    r.toNat = 0x202F ∨ r.toNat = 0x205F ∨ r.toNat = 0x3000

/-- Printable ASCII, the space excluded: neither a control nor a space. -/
theorem not_control_space_of_graphic {r : Char} (h1 : 0x21 ≤ r.toNat) (h2 : r.toNat ≤ 0x7E) :
    isControl r = false ∧ isSpace r = false := by
  constructor
  · simp only [isControl, Bool.or_eq_false_iff, Bool.and_eq_false_iff, decide_eq_false_iff_not]
    omega
  · simp only [isSpace, if_pos (show r.toNat ≤ 0xFF by omega), decide_eq_false_iff_not, List.mem_cons,
      List.mem_singleton, List.not_mem_nil, or_false]
    omega

/-- `strings.TrimSpace`: the bytes of `b` without its leading and trailing
space runes. -/
def trimSpace (b : List UInt8) : List UInt8 :=
  (((segments b).dropWhile (isSpace ·.1)).reverse.dropWhile (isSpace ·.1)).reverse.flatMap Prod.snd

/-! ## Escapes -/

/-- `strconv`'s `lowerhex`. -/
def lowerhex : List Char := "0123456789abcdef".data

/-- The `width` lowest hex digits of `n`, most significant first, as the loops
of `appendEscapedRune` write them from `lowerhex`. -/
def hexDigits (width n : Nat) : List Char :=
  (List.range width).reverse.map fun i => lowerhex.getD (n / 16 ^ i % 16) '0'

/-- What `strconv.QuoteRune(r)` writes between its quotes for a rune that is
neither printable nor a quote nor a backslash, as every control and every space
rune other than `' '` is: the named escapes of `appendEscapedRune`, then its
`\x`, `\u` and `\U` forms. -/
def quotedRune (r : Char) : List Char :=
  if r = '\x07' then ['\\', 'a']
  else if r = '\x08' then ['\\', 'b']
  else if r = '\x0c' then ['\\', 'f']
  else if r = '\n' then ['\\', 'n']
  else if r = '\r' then ['\\', 'r']
  else if r = '\t' then ['\\', 't']
  else if r = '\x0b' then ['\\', 'v']
  else if r.toNat < 0x20 ∨ r.toNat = 0x7F then ['\\', 'x'] ++ hexDigits 2 r.toNat
  else if r.toNat < 0x10000 then ['\\', 'u'] ++ hexDigits 4 r.toNat
  else ['\\', 'U'] ++ hexDigits 8 r.toNat

/-- A printable ASCII rune other than the space. -/
def Graphic (c : Char) : Prop := 0x21 ≤ c.toNat ∧ c.toNat ≤ 0x7E

instance : DecidablePred Graphic := fun _ => inferInstanceAs (Decidable (_ ∧ _))

theorem graphic_of_mem_hexDigits {width n : Nat} {c : Char} (h : c ∈ hexDigits width n) : Graphic c := by
  simp only [hexDigits, List.mem_map] at h
  obtain ⟨i, -, rfl⟩ := h
  have hd : n / 16 ^ i % 16 < lowerhex.length := Nat.mod_lt _ (by decide)
  rw [List.getD_eq_getElem?_getD, List.getElem?_eq_getElem hd, Option.getD_some]
  have : ∀ d ∈ lowerhex, Graphic d := by decide
  exact this _ (List.getElem_mem _)

theorem forall_mem_ite {p : Prop} [Decidable p] {a b : List Char} (ha : ∀ c ∈ a, Graphic c)
    (hb : ∀ c ∈ b, Graphic c) : ∀ c ∈ (if p then a else b), Graphic c := by
  split
  · exact ha
  · exact hb

/-- Every rune of an escape is printable ASCII, and none is a space. -/
theorem quotedRune_graphic (r : Char) : ∀ c ∈ quotedRune r, Graphic c := by
  have hex : ∀ (x : Char) (k n : Nat), Graphic x → ∀ c ∈ ['\\', x] ++ hexDigits k n, Graphic c := by
    intro x k n hx c hc
    rcases List.mem_append.1 hc with hc | hc
    · rcases List.mem_cons.1 hc with rfl | hc
      · decide
      · rw [List.mem_singleton.1 hc]; exact hx
    · exact graphic_of_mem_hexDigits hc
  unfold quotedRune
  repeat' apply forall_mem_ite
  all_goals first | decide | exact hex _ _ _ (by decide)

end Cue.Format
