/-
# Cue.Format.Buffer — the byte buffer every formatter writes to

`format.Buffer` (`format/buffer.go`) is a Go byte slice: a backing array, whose
length is the slice's capacity, and a length; `Bytes()` is the array's first
`len` bytes. `Reset` cuts the length to zero and keeps the array with what it
held. Each write first calls `ensureCapacity(size)`, which moves the bytes into
a new array of capacity `2*cap+size` when `len+size` exceeds the capacity.
`WriteByte` then appends; `Write` and `WriteString` reslice to the new length,
`b.bytes[:origlen+len(value)]`, which panics past the capacity, and copy the
value over the bytes the reslice exposed, stale bytes of the array.
`WriteRune` writes a rune below `utf8.RuneSelf` as the one byte `byte(value)`,
any other as `utf8.EncodeRune` encodes it. `GetBuffer` takes a buffer from a
`sync.Pool`, which hands out any buffer released to it or a new one, and resets
it.

* `buffer_writes_refine` — for every buffer, whatever its capacity and the
  stale bytes of its array, and every sequence of writes and resets, no
  reslice panics, `append` always has room, the array never shrinks, and
  `Bytes()` is what the abstract model `Op.written` gives: the bytes written
  since the last `Reset`, in order; a buffer from the pool (`Pool.get`) holds,
  whatever was released to it, exactly the bytes written since;
* `writeRune_runes` — `WriteRune` of a list of Unicode scalar values writes
  bytes Go's decoder reads back as that list.
-/
import Cue.Format.Runes

namespace Cue.Format

set_option autoImplicit false

/-! ## Go byte slices -/

/-- A `[]byte`: its backing array, whose length is the slice's capacity, and
the slice's length, at most the capacity. -/
structure Slice where
  backing : List UInt8
  len : Nat
  len_le : len ≤ backing.length

namespace Slice

/-- `cap(s)`. -/
def cap (s : Slice) : Nat := s.backing.length

/-- The bytes the slice shows: the first `len` bytes of its array. -/
def bytes (s : Slice) : List UInt8 := s.backing.take s.len

/-- `s[:n]`; `none` where Go panics, past the capacity. The bytes between the
old and the new length are whatever the array held there. -/
def reslice (s : Slice) (n : Nat) : Option Slice :=
  if h : n ≤ s.cap then some ⟨s.backing, n, h⟩ else none

/-- `copy(s[off:], src)`: the first `min(len(s)-off, len(src))` bytes of `src`
over the array from `off`; `none` where `s[off:]` panics, past the length. -/
def copyAt (s : Slice) (off : Nat) (src : List UInt8) : Option Slice :=
  if off ≤ s.len then
    some ⟨s.backing.take off ++ src.take (min (s.len - off) src.length) ++
      s.backing.drop (off + min (s.len - off) src.length), s.len, by have := s.len_le; simp; omega⟩
  else none

/-- `append(s, v)` where the array has room: `v` goes to index `len`. `none`
when the array is full: the reallocation `append` then makes is sized by the
runtime and not modelled (`ensureCapacity` always makes room first). -/
def append (s : Slice) (v : UInt8) : Option Slice :=
  if h : s.len < s.cap then some ⟨s.backing.set s.len v, s.len + 1, by simpa [cap] using h⟩ else none

theorem length_bytes (s : Slice) : s.bytes.length = s.len := by
  simp [bytes, s.len_le]

/-- Reslicing to the new length and copying the value there appends it. -/
theorem reslice_copyAt (s : Slice) (value : List UInt8) (h : s.len + value.length ≤ s.cap) :
    ∃ s', (s.reslice (s.len + value.length)).bind (·.copyAt s.len value) = some s' ∧
      s'.bytes = s.bytes ++ value ∧ s'.cap = s.cap := by
  have hv : min (s.len + value.length - s.len) value.length = value.length := by omega
  simp only [reslice, dif_pos h, Option.some_bind, copyAt, if_pos (Nat.le_add_right _ _), hv,
    Option.some.injEq, exists_eq_left', List.take_length]
  have ht : (s.backing.take s.len ++ value).length = s.len + value.length := by simp [s.len_le]
  refine ⟨List.take_left' ht, ?_⟩
  have := s.len_le
  simp only [cap, List.length_append, List.length_take, List.length_drop] at h ⊢
  omega

/-- Appending into an array with room. -/
theorem append_bytes (s : Slice) (v : UInt8) (h : s.len < s.cap) :
    ∃ s', s.append v = some s' ∧ s'.bytes = s.bytes ++ [v] ∧ s'.cap = s.cap := by
  refine ⟨_, dif_pos h, ?_, by simp [cap]⟩
  show (s.backing.set s.len v).take (s.len + 1) = s.backing.take s.len ++ [v]
  rw [List.take_succ, List.set_take, List.set_eq_of_length_le (List.length_take_le _ _),
    List.getElem?_set_self (show s.len < s.backing.length from h)]
  rfl

end Slice

/-! ## Runes -/

/-- `utf8.RuneSelf`: runes below it are their own one-byte encoding. -/
def RuneSelf : Int := 0x80

/-- `utf8.EncodeRune(p, r)` for a rune `r` (an `int32`): its UTF-8 encoding.
`uint32(r)` past `MaxRune`, every negative rune among them, and the surrogate
halves are written as `RuneError`. -/
def encodeRune (r : Int) : List UInt8 :=
  if 0 ≤ r ∧ (r < 0xD800 ∨ 0xDFFF < r ∧ r ≤ 0x10FFFF) then String.utf8EncodeChar (Char.ofNat r.toNat)
  else String.utf8EncodeChar RuneError

/-! ## The buffer -/

/-- `buffer`, by its byte slice. (`runebuf` is scratch space `WriteRune`
writes before it reads it.) -/
structure Buffer where
  bytes : Slice

namespace Buffer

/-- `newBuffer()`: an empty slice of capacity 64. -/
def newBuffer : Buffer := ⟨⟨List.replicate 64 0, 0, Nat.zero_le _⟩⟩

/-- `Bytes()`. -/
def Bytes (b : Buffer) : List UInt8 := b.bytes.bytes

/-- `Reset()`: `b.bytes[:0]`, which keeps the array and what it holds. -/
def Reset (b : Buffer) : Buffer := ⟨⟨b.bytes.backing, 0, Nat.zero_le _⟩⟩

/-- `ensureCapacity(size)`: when `curlen+size` exceeds the capacity, a new
array of capacity `2*curcap+size` (`make([]byte, curlen, 2*curcap+size)`)
holding the current bytes (`copy(new, b.bytes)`). -/
def ensureCapacity (b : Buffer) (size : Nat) : Buffer :=
  if b.bytes.len + size > b.bytes.cap then
    ⟨⟨b.Bytes ++ List.replicate (2 * b.bytes.cap + size - b.bytes.len) 0, b.bytes.len,
      by simp [Bytes, Slice.length_bytes]⟩⟩
  else b

/-- `WriteByte(value)`. -/
def WriteByte (b : Buffer) (value : UInt8) : Option Buffer :=
  ((b.ensureCapacity 1).bytes.append value).map Buffer.mk

/-- `Write(value)`: `ensureCapacity`, then `b.bytes[:origlen+len(value)]` and
`copy(b.bytes[origlen:], value)`; `none` where a slice expression panics. -/
def Write (b : Buffer) (value : List UInt8) : Option Buffer := do
  let origlen := b.bytes.len
  let b := b.ensureCapacity value.length
  let s ← b.bytes.reslice (origlen + value.length)
  let s ← s.copyAt origlen value
  pure ⟨s⟩

/-- `WriteString(value)`: the body of `Write`, on the bytes of the string. -/
def WriteString (b : Buffer) (value : String) : Option Buffer := b.Write (encode value)

/-- `WriteRune(value)`: below `RuneSelf`, the byte `byte(value)` (the rune
modulo 256); otherwise `utf8.EncodeRune` into `runebuf`, then `Write`. -/
def WriteRune (b : Buffer) (value : Int) : Option Buffer :=
  if value < RuneSelf then b.WriteByte (value % 256).toNat.toUInt8 else b.Write (encodeRune value)

/-- `Len()`. -/
def Len (b : Buffer) : Nat := b.bytes.len

end Buffer

/-- The buffers a `sync.Pool` holds. -/
structure Pool where
  buffers : List Buffer

/-- `bufferPool.get()`: `Get` hands out the buffer at `pick`, any buffer
released to the pool, or, past them, a `newBuffer()`; `get` resets it. -/
def Pool.get (p : Pool) (pick : Nat) : Buffer × Pool :=
  if h : pick < p.buffers.length then ((p.buffers.get ⟨pick, h⟩).Reset, ⟨p.buffers.eraseIdx pick⟩)
  else (Buffer.newBuffer.Reset, p)

/-- `bufferPool.put(b)`. -/
def Pool.put (p : Pool) (b : Buffer) : Pool := ⟨b :: p.buffers⟩

/-! ## The abstract buffer -/

/-- An operation on a buffer. -/
inductive Op
  | reset
  | write (value : List UInt8)
  | writeString (value : String)
  | writeByte (value : UInt8)
  | writeRune (value : Int)

/-- The bytes `WriteRune` gives a rune. -/
def runeBytes (r : Int) : List UInt8 :=
  if r < RuneSelf then [(r % 256).toNat.toUInt8] else encodeRune r

/-- An operation on the code's buffer. -/
def Op.apply (b : Buffer) : Op → Option Buffer
  | .reset => some b.Reset
  | .write value => b.Write value
  | .writeString value => b.WriteString value
  | .writeByte value => b.WriteByte value
  | .writeRune value => b.WriteRune value

/-- What a buffer is for: it holds the bytes written to it since the last
`Reset`, in order. -/
def Op.written (bs : List UInt8) : Op → List UInt8
  | .reset => []
  | .write value => bs ++ value
  | .writeString value => bs ++ encode value
  | .writeByte value => bs ++ [value]
  | .writeRune value => bs ++ runeBytes value

/-! ## Every write has room -/

namespace Buffer

/-- `ensureCapacity(size)` keeps the bytes and the length, never shrinks the
array, and leaves room for `size` more bytes. -/
theorem ensureCapacity_spec (b : Buffer) (size : Nat) :
    (b.ensureCapacity size).Bytes = b.Bytes ∧ (b.ensureCapacity size).bytes.len = b.bytes.len ∧
      b.bytes.cap ≤ (b.ensureCapacity size).bytes.cap ∧
      b.bytes.len + size ≤ (b.ensureCapacity size).bytes.cap := by
  unfold ensureCapacity
  split_ifs with h
  · have hl := Slice.length_bytes b.bytes
    refine ⟨List.take_left' (by simpa [Bytes] using hl), rfl, ?_⟩
    simp only [Slice.cap, List.length_append, List.length_replicate, Bytes, hl]
    have := b.bytes.len_le
    simp only [Slice.cap] at h ⊢
    omega
  · exact ⟨rfl, rfl, le_rfl, by omega⟩

/-- What one operation does to a buffer: it returns, its bytes are `bs`, and
its array is at least as long as before. -/
def Does (b : Buffer) (r : Option Buffer) (bs : List UInt8) : Prop :=
  ∃ b', r = some b' ∧ b'.Bytes = bs ∧ b.bytes.cap ≤ b'.bytes.cap

theorem write_does (b : Buffer) (value : List UInt8) : b.Does (b.Write value) (b.Bytes ++ value) := by
  obtain ⟨hb, hl, hc, hroom⟩ := b.ensureCapacity_spec value.length
  obtain ⟨s', hs, hbytes, hcap⟩ := (b.ensureCapacity value.length).bytes.reslice_copyAt value (hl ▸ hroom)
  obtain ⟨s₁, h₁, h₂⟩ := Option.bind_eq_some.mp hs
  exact ⟨⟨s'⟩, by simp [Write, ← hl, h₁, h₂], hb ▸ hbytes, hcap ▸ hc⟩

theorem writeByte_does (b : Buffer) (value : UInt8) : b.Does (b.WriteByte value) (b.Bytes ++ [value]) := by
  obtain ⟨hb, hl, hc, hroom⟩ := b.ensureCapacity_spec 1
  obtain ⟨s', hs, hbytes, hcap⟩ := (b.ensureCapacity 1).bytes.append_bytes value (by omega)
  exact ⟨⟨s'⟩, by simp [WriteByte, hs], hb ▸ hbytes, hcap ▸ hc⟩

theorem writeRune_does (b : Buffer) (value : Int) : b.Does (b.WriteRune value) (b.Bytes ++ runeBytes value) := by
  unfold WriteRune runeBytes
  split_ifs
  exacts [b.writeByte_does _, b.write_does _]

/-- One operation never panics and does what the abstract buffer says. -/
theorem apply_does (b : Buffer) (op : Op) : b.Does (op.apply b) (op.written b.Bytes) := by
  cases op with
  | reset => exact ⟨_, rfl, rfl, le_rfl⟩
  | write value => exact b.write_does value
  | writeString value => exact b.write_does (encode value)
  | writeByte value => exact b.writeByte_does value
  | writeRune value => exact b.writeRune_does value

/-- Every sequence of operations on any buffer, whatever its capacity and the
stale bytes of its array: no slice expression panics, `append` always has room,
`Bytes()` is what the abstract buffer holds, and the array never shrinks. -/
theorem run_does (b : Buffer) (ops : List Op) : b.Does (ops.foldlM Op.apply b) (ops.foldl Op.written b.Bytes) := by
  induction ops generalizing b with
  | nil => exact ⟨b, rfl, rfl, le_rfl⟩
  | cons op ops ih =>
    obtain ⟨b₁, h₁, e₁, c₁⟩ := b.apply_does op
    obtain ⟨b', h', e', c'⟩ := ih b₁
    exact ⟨b', by simp [List.foldlM, h₁, h'], by rw [e', e₁]; rfl, c₁.trans c'⟩

end Buffer

/-! ## The pool -/

@[simp] theorem Pool.get_bytes (p : Pool) (pick : Nat) : (p.get pick).1.Bytes = [] := by
  unfold Pool.get
  split <;> rfl

/-- Every sequence of writes and resets, on any buffer whatever its capacity
and the stale bytes of its array, never panics, never shrinks the array, and
leaves in `Bytes()` what the abstract buffer holds; and a buffer from
`GetBuffer`, whatever was released to the pool, holds exactly what was written
to it since. -/
theorem buffer_writes_refine (b : Buffer) (p : Pool) (pick : Nat) (ops : List Op) :
    b.Does (ops.foldlM Op.apply b) (ops.foldl Op.written b.Bytes) ∧
      ∃ b', ops.foldlM Op.apply (p.get pick).1 = some b' ∧ b'.Bytes = ops.foldl Op.written [] := by
  obtain ⟨b', h, e, -⟩ := (p.get pick).1.run_does ops
  exact ⟨b.run_does ops, b', h, by simpa using e⟩

/-! ## Writing runes -/

theorem runeBytes_char (c : Char) : runeBytes c.toNat = String.utf8EncodeChar c := by
  unfold runeBytes
  split_ifs with h
  · have h127 : c.toNat ≤ 127 := by simp only [RuneSelf] at h; omega
    rw [encodeChar_one h127]
    show [Nat.toUInt8 _] = [Nat.toUInt8 c.toNat]
    congr 2
    omega
  · have hv : c.toNat < 0xD800 ∨ 0xDFFF < c.toNat ∧ c.toNat < 0x110000 := c.valid
    rw [encodeRune, if_pos (by omega), Int.toNat_ofNat, Char.ofNat_toNat]

theorem written_writeRunes (bs : List UInt8) (cs : List Char) :
    (cs.map fun c => Op.writeRune c.toNat).foldl Op.written bs = bs ++ encode ⟨cs⟩ := by
  induction cs generalizing bs with
  | nil => exact (List.append_nil bs).symm
  | cons c cs ih => simp [ih, Op.written, runeBytes_char]

/-- `WriteRune` of each Unicode scalar value of a list, in order, keeps what
the buffer held and appends bytes that Go's decoder reads back as that list. -/
theorem writeRune_runes (b : Buffer) (cs : List Char) :
    ∃ b', (cs.map fun c => Op.writeRune c.toNat).foldlM Op.apply b = some b' ∧
      b'.Bytes.take b.Len = b.Bytes ∧ runes (b'.Bytes.drop b.Len) = cs := by
  obtain ⟨b', h, e, -⟩ := b.run_does (cs.map fun c => Op.writeRune c.toNat)
  have hl : b.Bytes.length = b.Len := Slice.length_bytes _
  rw [written_writeRunes] at e
  exact ⟨b', h, by rw [e, List.take_left' hl], by rw [e, List.drop_left' hl, runes_encode]⟩

end Cue.Format
