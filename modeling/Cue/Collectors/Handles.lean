/-
# Cue.Collectors.Handles — the file and socket collectors over any run

`fileCollector` (`collector/file.go`) holds an `*os.File` and an `opened`
flag; `socketCollector` (`collector/socket.go`) a `net.Conn` and a
`connected` flag. Both open their handle on demand, drop it after a failed
write, and close it in `Close` without dropping it. The file collector does
all this under its mutex, and its `reopen`, which the goroutines of
`watchSignal` and `watchRemoval` call, closes the file and opens it again.
The socket collector dials with `tls.Dial` when it has a TLS configuration
and with `net.Dial` otherwise. A failed `tls.Dial` returns a nil `*tls.Conn`,
which `s.conn` then holds as a `net.Conn` that is not nil: `Close` calls that
`Close` method on a nil receiver, and it panics.

The operating system is the environment: `Os` numbers the handles it gives
out and records which are closed and what was written on each. Whether an
open, a dial or a write fails is the environment's choice, an input of the
step (`Answer`); a write that fails may have written a part of its bytes
first, as `io.Writer` allows. A write or a `Close` on a closed handle fails
with `ErrClosed` and writes nothing, and a method of a nil `*os.File` returns
`ErrInvalid`. The runs below interleave `Collect`, `Close` and `reopen` in any
order, with any answers: the mutex makes each call one step, and a run with
no watcher goroutine is a run without `reopen`.

* `file_handles_closed`, `socket_handles_closed` — after any run every handle
  the collector opened is closed, except the one it holds, and it holds one
  exactly when `opened` (`connected`) is set: the collector never leaks a
  descriptor, and `Collect` never writes on a nil connection. Only the socket
  collector's `Close` panics, and only with a TLS configuration;
* `file_writes_returned_lines`, `socket_writes_returned` — what reaches the
  operating system is, in order, the whole rendering of each `Collect` that
  returned `nil` (for the file collector ending in one newline), nothing or a
  part of the rendering of each `Collect` that returned an error, and nothing
  else (`Wrote`).
-/
import Cue.Collectors

namespace Cue.Collectors

open Cue.Format

set_option autoImplicit false

variable {V : Type}

/-! ## The operating system -/

/-- An error the operating system returns: `ErrClosed` (`os.ErrClosed`, or
`net.ErrClosed` for a connection), `ErrInvalid` for a method of a nil
`*os.File`, or a failure it reports. -/
inductive OsError
  | closed
  | invalid
  | failed (err : String)
  deriving DecidableEq, Repr

/-- The handles the operating system gave out, numbered from 0, those closed,
and what was written on each, in order. -/
structure Os where
  handles : Nat
  closed : List Nat
  written : List (Nat × List UInt8)
  deriving DecidableEq, Repr

/-- What the operating system answers to one `Collect`: the error of opening
the file or dialling, if any; and for a write that fails, how many of its
bytes it wrote first, and the error. -/
structure Answer where
  openFail : Option String
  writeFail : Option (Nat × String)
  deriving DecidableEq, Repr

namespace Os

def init : Os := ⟨0, [], []⟩

/-- `os.OpenFile`, `net.Dial`, `tls.Dial`: a new handle, or the failure. -/
def openHandle (os : Os) (fail : Option String) : Os × Except OsError Nat :=
  match fail with
  | some err => (os, .error (.failed err))
  | none => ({ os with handles := os.handles + 1 }, .ok os.handles)

/-- `Close` of a handle. -/
def closeHandle (os : Os) : Option Nat → Os × Option OsError
  | none => (os, some .invalid)
  | some h => if h ∈ os.closed then (os, some .closed) else ({ os with closed := h :: os.closed }, none)

/-- `Write` on a handle; a write that fails after `n` bytes leaves them. -/
def writeHandle (os : Os) (h : Nat) (bytes : List UInt8) (fail : Option (Nat × String)) : Os × Option OsError :=
  if h ∈ os.closed then (os, some .closed)
  else match fail with
    | some (n, err) => ({ os with written := os.written ++ [(h, bytes.take n)] }, some (.failed err))
    | none => ({ os with written := os.written ++ [(h, bytes)] }, none)

/-- A `Close` either fails and changes nothing, or closes the handle. -/
theorem closeHandle_cases (os : Os) (h : Option Nat) :
    (∃ err, os.closeHandle h = (os, some err)) ∨
      ∃ n, h = some n ∧ os.closeHandle h = ({ os with closed := n :: os.closed }, none) := by
  rcases h with _ | n
  · exact .inl ⟨_, rfl⟩
  · by_cases hc : n ∈ os.closed
    · exact .inl ⟨_, if_pos hc⟩
    · exact .inr ⟨n, rfl, if_neg hc⟩

@[simp] theorem closeHandle_handles (os : Os) (h : Option Nat) : (os.closeHandle h).1.handles = os.handles := by
  rcases closeHandle_cases os h with ⟨_, e⟩ | ⟨_, _, e⟩ <;> rw [e]

@[simp] theorem closeHandle_written (os : Os) (h : Option Nat) : (os.closeHandle h).1.written = os.written := by
  rcases closeHandle_cases os h with ⟨_, e⟩ | ⟨_, _, e⟩ <;> rw [e]

theorem closeHandle_closed_mono (os : Os) (h : Option Nat) : os.closed ⊆ (os.closeHandle h).1.closed := by
  rcases closeHandle_cases os h with ⟨_, e⟩ | ⟨_, _, e⟩ <;> rw [e]
  exacts [List.Subset.refl _, List.subset_cons_self _ _]

theorem mem_closeHandle_closed (os : Os) (h : Nat) : h ∈ (os.closeHandle (some h)).1.closed := by
  by_cases hc : h ∈ os.closed
  · rw [closeHandle, if_pos hc]; exact hc
  · rw [closeHandle, if_neg hc]; exact List.mem_cons_self _ _

/-- A write either fails and changes nothing, or appends a prefix of its bytes
to what the handle received: all of them when it returns no error. -/
theorem writeHandle_cases (os : Os) (h : Nat) (bytes : List UInt8) (fail : Option (Nat × String)) :
    ((os.writeHandle h bytes fail).1 = os ∧ (os.writeHandle h bytes fail).2 ≠ none) ∨
      ∃ p, p <+: bytes ∧ (os.writeHandle h bytes fail).1 = { os with written := os.written ++ [(h, p)] } ∧
        ((os.writeHandle h bytes fail).2 = none → p = bytes) := by
  unfold writeHandle
  split_ifs
  · exact .inl ⟨rfl, nofun⟩
  · rcases fail with _ | ⟨n, err⟩
    · exact .inr ⟨bytes, List.prefix_refl _, rfl, fun _ => rfl⟩
    · exact .inr ⟨bytes.take n, List.take_prefix _ _, rfl, nofun⟩

/-- Every handle given out is closed, except `current`, which was given out;
only handles given out are closed. -/
structure Holds (os : Os) (current : Option Nat) : Prop where
  closed : ∀ h < os.handles, current ≠ some h → h ∈ os.closed
  given : ∀ h, current = some h → h < os.handles
  fresh : ∀ h ∈ os.closed, h < os.handles

theorem holds_init : init.Holds none :=
  ⟨fun _ h => absurd h (Nat.not_lt_zero _), nofun, nofun⟩

theorem Holds.closeHandle_closed {os : Os} {c : Option Nat} (hold : os.Holds c) :
    ∀ h ∈ (os.closeHandle c).1.closed, h < os.handles := by
  rcases closeHandle_cases os c with ⟨_, e⟩ | ⟨n, rfl, e⟩ <;> rw [e]
  · exact hold.fresh
  · rintro h (_ | ⟨_, hh⟩)
    exacts [hold.given n rfl, hold.fresh h hh]

/-- Closing the current handle keeps it current. -/
theorem Holds.close {os : Os} {c : Option Nat} (hold : os.Holds c) : (os.closeHandle c).1.Holds c :=
  ⟨fun h hh hc => closeHandle_closed_mono os c (hold.closed h (by simpa using hh) hc),
    fun h hc => by simpa using hold.given h hc, by simpa using hold.closeHandle_closed⟩

/-- Closing the current handle leaves none open. -/
theorem Holds.close_current {os : Os} {c : Option Nat} (hold : os.Holds c) : (os.closeHandle c).1.Holds none := by
  refine ⟨fun h hh _ => ?_, nofun, by simpa using hold.closeHandle_closed⟩
  by_cases hc : c = some h
  · subst hc; exact mem_closeHandle_closed os h
  · exact closeHandle_closed_mono os c (hold.closed h (by simpa using hh) hc)

theorem Holds.write {os : Os} {c : Option Nat} (hold : os.Holds c) (h : Nat) (bytes : List UInt8)
    (fail : Option (Nat × String)) : (os.writeHandle h bytes fail).1.Holds c := by
  rcases writeHandle_cases os h bytes fail with ⟨e, -⟩ | ⟨p, -, e, -⟩ <;> rw [e]
  exacts [hold, ⟨hold.closed, hold.given, hold.fresh⟩]

/-- An open either fails and changes nothing, or gives the next handle. -/
theorem openHandle_cases (os : Os) (fail : Option String) :
    (∃ err, os.openHandle fail = (os, .error err)) ∨
      (fail = none ∧ os.openHandle fail = ({ os with handles := os.handles + 1 }, .ok os.handles)) := by
  cases fail
  · exact .inr ⟨rfl, rfl⟩
  · exact .inl ⟨_, rfl⟩

/-- With no handle open, the next handle is then the only one open. -/
theorem Holds.openNext {os : Os} (hold : os.Holds none) :
    ({ os with handles := os.handles + 1 } : Os).Holds (some os.handles) :=
  ⟨fun h hh hc => hold.closed h (Nat.lt_of_le_of_ne (Nat.lt_succ_iff.1 hh) fun e => hc (congrArg some e.symm)) nofun,
    fun _ e => Option.some.inj e ▸ Nat.lt_succ_self _, fun h hh => Nat.lt_succ_of_lt (hold.fresh h hh)⟩

end Os

/-! ## What a call wrote -/

/-- How a call ends: a panic, or returning an error or `nil`. -/
inductive Returned
  | panic
  | ret (err : Option OsError)
  deriving DecidableEq, Repr

/-- What reached the operating system for one call, given the bytes the call
hands to `Write` (`none` for a call that writes nothing) and how it ended. -/
inductive Wrote : Option (List UInt8) → Option Returned → List (List UInt8) → Prop
  /-- A call that returned `nil`: all of its bytes. -/
  | whole (bytes : List UInt8) : Wrote (some bytes) (some (.ret none)) [bytes]
  /-- A call that returned the error of its write: the bytes written before it. -/
  | part (bytes p : List UInt8) (err : OsError) (hp : p <+: bytes) : Wrote (some bytes) (some (.ret (some err))) [p]
  /-- A call that did not return `nil`: nothing. -/
  | failed (bytes : List UInt8) (r : Option Returned) (hr : r ≠ some (.ret none)) : Wrote (some bytes) r []
  /-- A call that writes nothing. -/
  | other (r : Option Returned) : Wrote none r []

/-- A write on a handle, whose error the call returns. -/
theorem Os.writeHandle_wrote (os : Os) (h : Nat) (bytes : List UInt8) (fail : Option (Nat × String)) :
    ∃ part, Wrote (some bytes) (some (.ret (os.writeHandle h bytes fail).2)) part ∧
      (os.writeHandle h bytes fail).1.written.map Prod.snd = os.written.map Prod.snd ++ part := by
  rcases os.writeHandle_cases h bytes fail with ⟨e, hn⟩ | ⟨p, hp, e, hw⟩
  · exact ⟨[], .failed _ _ fun hr => hn (Returned.ret.inj (Option.some.inj hr)), by rw [e, List.append_nil]⟩
  · rcases hr : (os.writeHandle h bytes fail).2 with _ | err
    · obtain rfl := hw hr
      exact ⟨[p], .whole p, by rw [e]; simp⟩
    · exact ⟨[p], .part bytes p err hp, by rw [e]; simp⟩

/-- A run of calls on a collector, with what each returned. -/
def runCalls {S O R : Type} (step : S → O → S × R) : S → List O → S × List R
  | s, [] => (s, [])
  | s, op :: ops =>
    let r := step s op
    let rest := runCalls step r.1 ops
    (rest.1, r.2 :: rest.2)

/-- What every call keeps, what every call returns, and what every call adds
to an observation, over a whole run. -/
theorem runCalls_spec {S O R α : Type} {step : S → O → S × R} (Inv : S → Prop) (good : O → R → Prop)
    (obs : S → List α) (emit : O → R → List α → Prop)
    (h : ∀ s op, Inv s → Inv (step s op).1 ∧ good op (step s op).2 ∧
      ∃ part, emit op (step s op).2 part ∧ obs (step s op).1 = obs s ++ part)
    (ops : List O) {s : S} (hs : Inv s) :
    Inv (runCalls step s ops).1 ∧ (∀ p ∈ ops.zip (runCalls step s ops).2, good p.1 p.2) ∧
      ∃ parts, List.Forall₂ (fun p part => emit p.1 p.2 part) (ops.zip (runCalls step s ops).2) parts ∧
        obs (runCalls step s ops).1 = obs s ++ parts.flatten := by
  induction ops generalizing s with
  | nil => exact ⟨hs, nofun, [], .nil, by simp [runCalls]⟩
  | cons op ops ih =>
    obtain ⟨i₁, g₁, part, e₁, o₁⟩ := h s op hs
    obtain ⟨i', g', parts, e', o'⟩ := ih i₁
    exact ⟨i', List.forall_mem_cons.2 ⟨g₁, g'⟩, part :: parts, .cons e₁ e', by simp [runCalls, o', o₁]⟩

/-! ## The file collector -/

/-- The state of a `fileCollector`: `file` and `opened`. -/
structure FileCollector where
  file : Option Nat
  opened : Bool
  deriving DecidableEq, Repr

/-- A file collector and the operating system. -/
structure FileSys where
  collector : FileCollector
  os : Os
  deriving DecidableEq, Repr

/-- A call on a file collector, by the runtime or by a watcher goroutine. -/
inductive FileOp (V : Type)
  | collect (e : Event V) (answer : Answer)
  | close
  | reopen (openFail : Option String)

namespace FileSys

/-- `File.New()`: no file open. -/
def init : FileSys := ⟨⟨none, false⟩, Os.init⟩

/-- `ensureOpen()`: `f.file, err = os.OpenFile(...)`, which is `nil` on an
error; `opened` is set on success. -/
def ensureOpen (s : FileSys) (fail : Option String) : FileSys × Option OsError :=
  match s.collector.file with
  | some _ => (s, none)
  | none =>
    match s.os.openHandle fail with
    | (os, .ok h) => (⟨⟨some h, true⟩, os⟩, none)
    | (os, .error err) => (⟨⟨none, s.collector.opened⟩, os⟩, some err)

/-- `ensureClosed()`: its test `f != nil` is of the collector, never nil, so
`f.file.Close()` runs also on a nil file (and returns `ErrInvalid`). -/
def ensureClosed (s : FileSys) : FileSys := ⟨⟨none, false⟩, (s.os.closeHandle s.collector.file).1⟩

/-- `f.file.Write(bytes)`. -/
def write (s : FileSys) (bytes : List UInt8) (fail : Option (Nat × String)) : FileSys × Option OsError :=
  match s.collector.file with
  | none => (s, some .invalid)
  | some h => ((⟨s.collector, (s.os.writeHandle h bytes fail).1⟩ : FileSys), (s.os.writeHandle h bytes fail).2)

/-- `Collect(event)`: open the file, or close it and return the error; render
the event, panic on an empty rendering, add a missing newline; write, and
close the file after a failed write. -/
def Collect (formatter : Formatter V) (e : Event V) (s : FileSys) (answer : Answer) : FileSys × Returned :=
  match s.ensureOpen answer.openFail with
  | (s, some err) => (s.ensureClosed, .ret (some err))
  | (s, none) =>
    match terminateLine (formatter e) with
    | none => (s, .panic)
    | some bytes =>
      match s.write bytes answer.writeFail with
      | (s, some err) => (s.ensureClosed, .ret (some err))
      | (s, none) => (s, .ret none)

/-- `Close()`: `if f.file != nil { return f.file.Close() }`; the file is kept. -/
def Close (s : FileSys) : FileSys × Option OsError :=
  match s.collector.file with
  | some h => (⟨s.collector, (s.os.closeHandle (some h)).1⟩, (s.os.closeHandle (some h)).2)
  | none => (s, none)

/-- `reopen()`. -/
def reopen (s : FileSys) (fail : Option String) : FileSys × Option OsError := s.ensureClosed.ensureOpen fail

/-- One call, and how `Collect` ended. -/
def step (formatter : Formatter V) (s : FileSys) : FileOp V → FileSys × Option Returned
  | .collect e answer => (s.Collect formatter e answer).map id some
  | .close => (s.Close.1, none)
  | .reopen fail => ((s.reopen fail).1, none)

/-- A run of calls, with how each `Collect` ended. -/
def run (formatter : Formatter V) : FileSys → List (FileOp V) → FileSys × List (Option Returned) :=
  runCalls (step formatter)

/-- The bytes a call hands to `Write`: the line of a `Collect`. -/
def lineOf (formatter : Formatter V) : FileOp V → Option (List UInt8)
  | .collect e _ => some (withNewline (formatter e))
  | _ => none

/-- The collector holds a file exactly when `opened` is set, and every other
file it opened is closed. -/
structure Ok (s : FileSys) : Prop where
  opened : s.collector.opened = s.collector.file.isSome
  holds : s.os.Holds s.collector.file

@[simp] theorem ensureClosed_written (s : FileSys) : s.ensureClosed.os.written = s.os.written := by
  simp [ensureClosed]

theorem ensureClosed_ok (s : FileSys) (hold : s.os.Holds s.collector.file) : s.ensureClosed.Ok :=
  ⟨rfl, hold.close_current⟩

/-- `ensureOpen` writes nothing, and succeeds exactly when it leaves a file
held. -/
theorem ensureOpen_spec {s : FileSys} (ok : s.Ok) (fail : Option String) :
    (s.ensureOpen fail).1.Ok ∧ (s.ensureOpen fail).1.os.written = s.os.written ∧
      ((s.ensureOpen fail).2 = none → (s.ensureOpen fail).1.collector.file.isSome) := by
  rcases hf : s.collector.file with _ | h
  · have hop : s.collector.opened = false := by simpa [hf] using ok.opened
    have hold : s.os.Holds none := hf ▸ ok.holds
    rcases Os.openHandle_cases s.os fail with ⟨err, e⟩ | ⟨-, e⟩ <;> rw [ensureOpen, hf, e]
    · exact ⟨⟨hop, hold⟩, rfl, nofun⟩
    · exact ⟨⟨rfl, hold.openNext⟩, rfl, fun _ => rfl⟩
  · rw [ensureOpen, hf]
    exact ⟨ok, rfl, fun _ => by simp [hf]⟩

theorem write_some {s : FileSys} {h : Nat} (hf : s.collector.file = some h) (bytes : List UInt8)
    (fail : Option (Nat × String)) :
    s.write bytes fail = (⟨s.collector, (s.os.writeHandle h bytes fail).1⟩, (s.os.writeHandle h bytes fail).2) := by
  simp only [write, hf]

/-- A write keeps the invariant, and what reaches its file is what `Wrote`
allows for the error it returns. -/
theorem write_spec {s : FileSys} (ok : s.Ok) (bytes : List UInt8) (fail : Option (Nat × String)) :
    (s.write bytes fail).1.Ok ∧ ∃ part, Wrote (some bytes) (some (.ret (s.write bytes fail).2)) part ∧
      (s.write bytes fail).1.os.written.map Prod.snd = s.os.written.map Prod.snd ++ part := by
  rcases hf : s.collector.file with _ | h
  · rw [write, hf]
    exact ⟨ok, [], .failed _ _ nofun, (List.append_nil _).symm⟩
  · have hold : s.os.Holds (some h) := hf ▸ ok.holds
    rw [write_some hf]
    exact ⟨⟨ok.opened, hf ▸ hold.write h bytes fail⟩, Os.writeHandle_wrote s.os h bytes fail⟩

theorem Collect_spec (formatter : Formatter V) (e : Event V) {s : FileSys} (ok : s.Ok) (answer : Answer) :
    (s.Collect formatter e answer).1.Ok ∧
      ∃ part, Wrote (some (withNewline (formatter e))) (some (s.Collect formatter e answer).2) part ∧
        (s.Collect formatter e answer).1.os.written.map Prod.snd = s.os.written.map Prod.snd ++ part := by
  obtain ⟨ok₁, w₁, -⟩ := ensureOpen_spec ok answer.openFail
  rcases h₁ : s.ensureOpen answer.openFail with ⟨s₁, _ | err⟩ <;> rw [h₁] at ok₁ w₁ <;> dsimp only at ok₁ w₁
  · by_cases he : formatter e = []
    · simp only [Collect, h₁, terminateLine_eq, if_pos he]
      exact ⟨ok₁, [], .failed _ _ nofun, by simp [w₁]⟩
    obtain ⟨ok₂, part, hw, w₂⟩ := write_spec ok₁ (withNewline (formatter e)) answer.writeFail
    rcases h₂ : s₁.write (withNewline (formatter e)) answer.writeFail with ⟨s₂, _ | err⟩ <;>
      rw [h₂] at ok₂ hw w₂ <;> dsimp only at ok₂ hw w₂ <;> simp only [Collect, h₁, terminateLine_eq, if_neg he, h₂]
    · exact ⟨ok₂, part, hw, by rw [w₂, w₁]⟩
    · exact ⟨ensureClosed_ok _ ok₂.holds, part, hw, by simp [w₂, w₁]⟩
  · simp only [Collect, h₁]
    exact ⟨ensureClosed_ok _ ok₁.holds, [], .failed _ _ nofun, by simp [w₁]⟩

theorem Close_spec {s : FileSys} (ok : s.Ok) : s.Close.1.Ok ∧ s.Close.1.os.written = s.os.written := by
  rcases hf : s.collector.file with _ | h <;> rw [Close, hf]
  · exact ⟨ok, rfl⟩
  · have hold : s.os.Holds (some h) := hf ▸ ok.holds
    exact ⟨⟨ok.opened, by rw [hf]; exact hold.close⟩, Os.closeHandle_written _ _⟩

theorem step_spec (formatter : Formatter V) {s : FileSys} (ok : s.Ok) (op : FileOp V) :
    (s.step formatter op).1.Ok ∧ ∃ part, Wrote (lineOf formatter op) (s.step formatter op).2 part ∧
      (s.step formatter op).1.os.written.map Prod.snd = s.os.written.map Prod.snd ++ part := by
  cases op with
  | collect e answer => exact Collect_spec formatter e ok answer
  | close =>
    obtain ⟨ok', w⟩ := Close_spec ok
    exact ⟨ok', [], .other _, by simp [step, w]⟩
  | reopen fail =>
    obtain ⟨ok', w, -⟩ := ensureOpen_spec (ensureClosed_ok s ok.holds) fail
    exact ⟨ok', [], .other _, by simp [step, reopen, w]⟩

theorem run_spec (formatter : Formatter V) (ops : List (FileOp V)) {s : FileSys} (ok : s.Ok) :
    (s.run formatter ops).1.Ok ∧ ∃ parts, List.Forall₂ (fun p part => Wrote (lineOf formatter p.1) p.2 part)
        (ops.zip (s.run formatter ops).2) parts ∧
      (s.run formatter ops).1.os.written.map Prod.snd = s.os.written.map Prod.snd ++ parts.flatten :=
  have r := runCalls_spec Ok (fun _ _ => True) (fun s => s.os.written.map Prod.snd)
    (fun op r part => Wrote (lineOf formatter op) r part)
    (fun _ op ok => have h := step_spec formatter ok op; ⟨h.1, trivial, h.2⟩) ops ok
  ⟨r.1, r.2.2⟩

end FileSys

/-- After any run of `Collect`, `Close` and `reopen`, whatever the operating
system answered, every file the collector opened is closed except the one it
holds, and it holds one exactly when `opened` is set. -/
theorem file_handles_closed (formatter : Formatter V) (ops : List (FileOp V)) :
    let s := (FileSys.init.run formatter ops).1
    s.collector.opened = s.collector.file.isSome ∧
      ∀ h < s.os.handles, s.collector.file ≠ some h → h ∈ s.os.closed := by
  have ok := (FileSys.run_spec formatter ops (s := FileSys.init) ⟨rfl, Os.holds_init⟩).1
  exact ⟨ok.opened, ok.holds.closed⟩

/-- After any run, whatever the operating system answered, the files received,
in order, one part for each call: the line of each `Collect` that returned
`nil`, whole and ending in one newline; nothing, or the bytes of its line a
failed write wrote first, for each `Collect` that returned an error; and
nothing for the other calls. -/
theorem file_writes_returned_lines (formatter : Formatter V) (ops : List (FileOp V)) :
    ∃ parts, List.Forall₂ (fun p part => Wrote (FileSys.lineOf formatter p.1) p.2 part)
        (ops.zip (FileSys.init.run formatter ops).2) parts ∧
      (FileSys.init.run formatter ops).1.os.written.map Prod.snd = parts.flatten :=
  (FileSys.run_spec formatter ops (s := FileSys.init) ⟨rfl, Os.holds_init⟩).2

/-- A write that fails after two bytes leaves them on the file, before the line
the next `Collect` writes on a new one. -/
example :
    let e : Event String := ⟨INFO, "", none, Context.NewContext "app"⟩
    (FileSys.init.run (Literal "ab") [.collect e ⟨none, some (2, "no space")⟩, .collect e ⟨none, none⟩]).1.os.written =
      [(0, [97, 98]), (1, [97, 98, 10])] := by
  decide

/-! ## The socket collector -/

/-- A `net.Conn` value: nil, a connection the operating system opened, or the
nil `*tls.Conn` a failed `tls.Dial` returns, which is not a nil `net.Conn`. -/
inductive Conn
  | nil
  | conn (h : Nat)
  | nilTLS
  deriving DecidableEq, Repr

/-- The connection a `Conn` holds. -/
def Conn.handle? : Conn → Option Nat
  | .conn h => some h
  | _ => none

@[simp] theorem Conn.handle?_eq_some {c : Conn} {h : Nat} : c.handle? = some h ↔ c = .conn h := by
  cases c <;> simp [Conn.handle?]

/-- The state of a `socketCollector`: whether its `Socket` has a TLS
configuration, `conn` and `connected`. -/
structure SocketCollector where
  tls : Bool
  conn : Conn
  connected : Bool
  deriving DecidableEq, Repr

/-- A socket collector and the operating system. -/
structure SocketSys where
  collector : SocketCollector
  os : Os
  deriving DecidableEq, Repr

/-- A call on a socket collector by the runtime. -/
inductive SocketOp (V : Type)
  | collect (e : Event V) (answer : Answer)
  | close

namespace SocketSys

/-- `Socket.New()`: not connected. -/
def init (tls : Bool) : SocketSys := ⟨⟨tls, .nil, false⟩, Os.init⟩

/-- `reopen()`: `s.conn, err = tls.Dial(...)` with a TLS configuration, and
`s.conn, err = net.Dial(...)` without; `connected` is set on success. -/
def reopen (s : SocketSys) (fail : Option String) : SocketSys × Option OsError :=
  if s.collector.tls then
    match s.os.openHandle fail with
    | (os, .ok h) => (⟨⟨s.collector.tls, .conn h, true⟩, os⟩, none)
    | (os, .error err) => (⟨⟨s.collector.tls, .nilTLS, s.collector.connected⟩, os⟩, some err)
  else
    match s.os.openHandle fail with
    | (os, .ok h) => (⟨⟨s.collector.tls, .conn h, true⟩, os⟩, none)
    | (os, .error err) => (⟨⟨s.collector.tls, .nil, s.collector.connected⟩, os⟩, some err)

/-- `Collect(event)`: dial unless connected, and return the error of that;
render the event; write it as it is; after a failed write close the
connection and drop it. `Write` on a nil `Conn`, or on a nil `*tls.Conn`,
panics. -/
def Collect (formatter : Formatter V) (e : Event V) (s : SocketSys) (answer : Answer) : SocketSys × Returned :=
  match if s.collector.connected then (s, none) else s.reopen answer.openFail with
  | (s, some err) => (s, .ret (some err))
  | (s, none) =>
    match s.collector.conn with
    | .conn h =>
      match s.os.writeHandle h (formatter e) answer.writeFail with
      | (os, some err) => (⟨⟨s.collector.tls, .nil, false⟩, (os.closeHandle (some h)).1⟩, .ret (some err))
      | (os, none) => (⟨s.collector, os⟩, .ret none)
    | _ => (s, .panic)

/-- `Close()`: `if s.conn != nil { return s.conn.Close() }`; the connection is
kept. `Close` of a nil `*tls.Conn` panics. -/
def Close (s : SocketSys) : SocketSys × Returned :=
  match s.collector.conn with
  | .nil => (s, .ret none)
  | .conn h => (⟨s.collector, (s.os.closeHandle (some h)).1⟩, .ret (s.os.closeHandle (some h)).2)
  | .nilTLS => (s, .panic)

/-- One call, and how it ended. -/
def step (formatter : Formatter V) (s : SocketSys) : SocketOp V → SocketSys × Option Returned
  | .collect e answer => (s.Collect formatter e answer).map id some
  | .close => s.Close.map id some

/-- A run of calls, with how each ended. -/
def run (formatter : Formatter V) : SocketSys → List (SocketOp V) → SocketSys × List (Option Returned) :=
  runCalls (step formatter)

/-- The bytes a call hands to `Write`: the rendering of a `Collect`. -/
def writeOf (formatter : Formatter V) : SocketOp V → Option (List UInt8)
  | .collect e _ => some (formatter e)
  | .close => none

/-- The collector holds a connection exactly when `connected` is set, every
other connection it opened is closed, and it holds a nil `*tls.Conn` only with
a TLS configuration. -/
structure Ok (s : SocketSys) : Prop where
  connected : s.collector.connected = s.collector.conn.handle?.isSome
  holds : s.os.Holds s.collector.conn.handle?
  nilTLS : s.collector.conn = .nilTLS → s.collector.tls = true

/-- What the connecting part of `Collect` does: it writes nothing, and when it
returns no error the collector holds a connection. -/
theorem connect_spec {s : SocketSys} (ok : s.Ok) (fail : Option String) :
    let r := if s.collector.connected then (s, none) else s.reopen fail
    r.1.Ok ∧ r.1.collector.tls = s.collector.tls ∧ r.1.os.written = s.os.written ∧
      (r.2 = none → r.1.collector.conn.handle?.isSome) := by
  by_cases hc : s.collector.connected
  · rw [if_pos hc]
    exact ⟨ok, rfl, rfl, fun _ => ok.connected ▸ hc⟩
  · have hn : s.collector.conn.handle? = none := by simpa [hc] using ok.connected.symm
    have hold : s.os.Holds none := hn ▸ ok.holds
    have hcf : s.collector.connected = false := eq_false_of_ne_true hc
    rw [if_neg hc]
    unfold reopen
    rcases Os.openHandle_cases s.os fail with ⟨err, e⟩ | ⟨-, e⟩ <;> split_ifs with ht <;> rw [e]
    · exact ⟨⟨hcf, hold, fun _ => ht⟩, rfl, rfl, nofun⟩
    · exact ⟨⟨hcf, hold, nofun⟩, rfl, rfl, nofun⟩
    all_goals exact ⟨⟨rfl, hold.openNext, nofun⟩, rfl, rfl, fun _ => rfl⟩

theorem Collect_spec (formatter : Formatter V) (e : Event V) {s : SocketSys} (ok : s.Ok) (answer : Answer) :
    (s.Collect formatter e answer).1.Ok ∧ (s.Collect formatter e answer).1.collector.tls = s.collector.tls ∧
      (s.Collect formatter e answer).2 ≠ .panic ∧
      ∃ part, Wrote (some (formatter e)) (some (s.Collect formatter e answer).2) part ∧
        (s.Collect formatter e answer).1.os.written.map Prod.snd = s.os.written.map Prod.snd ++ part := by
  obtain ⟨ok₁, t₁, w₁, held⟩ := connect_spec ok answer.openFail
  rcases h₁ : (if s.collector.connected then (s, none) else s.reopen answer.openFail) with ⟨s₁, _ | err⟩ <;>
    rw [h₁] at ok₁ t₁ w₁ held <;> dsimp only at ok₁ t₁ w₁ held
  · obtain ⟨h, hh⟩ := Option.isSome_iff_exists.1 (held rfl)
    have hc : s₁.collector.conn = .conn h := Conn.handle?_eq_some.1 hh
    have hold : s₁.os.Holds (some h) := hh ▸ ok₁.holds
    obtain ⟨part, hw, w₂⟩ := Os.writeHandle_wrote s₁.os h (formatter e) answer.writeFail
    have hold₂ := hold.write h (formatter e) answer.writeFail
    rcases h₂ : s₁.os.writeHandle h (formatter e) answer.writeFail with ⟨os, _ | err⟩ <;>
      rw [h₂] at hw w₂ hold₂ <;> dsimp only at hw w₂ hold₂ <;> simp only [Collect, h₁, hc, h₂]
    · exact ⟨⟨ok₁.connected, by rw [hh]; exact hold₂, ok₁.nilTLS⟩, t₁, nofun, part, hw, by rw [w₂, w₁]⟩
    · exact ⟨⟨rfl, hold₂.close_current, nofun⟩, t₁, nofun, part, hw, by simp [w₂, w₁]⟩
  · simp only [Collect, h₁]
    exact ⟨ok₁, t₁, nofun, [], .failed _ _ nofun, by simp [w₁]⟩

/-- `Close` writes nothing, and panics only on the nil `*tls.Conn`. -/
theorem Close_spec {s : SocketSys} (ok : s.Ok) :
    s.Close.1.Ok ∧ s.Close.1.collector.tls = s.collector.tls ∧ (s.Close.2 = .panic → s.collector.tls = true) ∧
      s.Close.1.os.written = s.os.written := by
  rcases hc : s.collector.conn with _ | h | _ <;> rw [Close, hc]
  · exact ⟨ok, rfl, nofun, rfl⟩
  · have hold : s.os.Holds (some h) := by simpa [hc, Conn.handle?] using ok.holds
    exact ⟨⟨ok.connected, by rw [hc]; exact hold.close, ok.nilTLS⟩, rfl, nofun, Os.closeHandle_written _ _⟩
  · exact ⟨ok, rfl, fun _ => ok.nilTLS hc, rfl⟩

theorem step_spec (formatter : Formatter V) {s : SocketSys} (ok : s.Ok) (op : SocketOp V) :
    (s.step formatter op).1.Ok ∧ (s.step formatter op).1.collector.tls = s.collector.tls ∧
      ((s.step formatter op).2 = some .panic → op = .close ∧ s.collector.tls = true) ∧
      ∃ part, Wrote (writeOf formatter op) (s.step formatter op).2 part ∧
        (s.step formatter op).1.os.written.map Prod.snd = s.os.written.map Prod.snd ++ part := by
  cases op with
  | collect e answer =>
    obtain ⟨ok', t, np, w⟩ := Collect_spec formatter e ok answer
    exact ⟨ok', t, fun h => absurd (Option.some.inj h) np, w⟩
  | close =>
    obtain ⟨ok', t, hp, w⟩ := Close_spec ok
    exact ⟨ok', t, fun h => ⟨rfl, hp (Option.some.inj h)⟩, [], .other _, by simp [step, w]⟩

theorem run_spec (formatter : Formatter V) (ops : List (SocketOp V)) {s : SocketSys} (ok : s.Ok) :
    (s.run formatter ops).1.Ok ∧
      (∀ p ∈ ops.zip (s.run formatter ops).2, p.2 = some .panic → p.1 = .close ∧ s.collector.tls = true) ∧
      ∃ parts, List.Forall₂ (fun p part => Wrote (writeOf formatter p.1) p.2 part)
          (ops.zip (s.run formatter ops).2) parts ∧
        (s.run formatter ops).1.os.written.map Prod.snd = s.os.written.map Prod.snd ++ parts.flatten :=
  have r := @runCalls_spec _ _ _ _ (step formatter) (fun t => t.Ok ∧ t.collector.tls = s.collector.tls)
    (fun op res => res = some .panic → op = .close ∧ s.collector.tls = true) (fun t => t.os.written.map Prod.snd)
    (fun op res part => Wrote (writeOf formatter op) res part)
    (fun _ op ⟨ok, ht⟩ => have h := step_spec formatter ok op
      ⟨⟨h.1, h.2.1.trans ht⟩, fun hp => ht ▸ h.2.2.1 hp, h.2.2.2⟩) ops s ⟨ok, rfl⟩
  ⟨r.1.1, r.2.1, r.2.2⟩

end SocketSys

/-- After any run of `Collect` and `Close`, whatever the operating system
answered: no `Collect` panicked, and a `Close` panicked only with a TLS
configuration; every connection the collector opened is closed except the one
it holds, and it holds one exactly when `connected` is set. -/
theorem socket_handles_closed (tls : Bool) (formatter : Formatter V) (ops : List (SocketOp V)) :
    let r := (SocketSys.init tls).run formatter ops
    (∀ p ∈ ops.zip r.2, p.2 = some .panic → p.1 = .close ∧ tls = true) ∧
      r.1.collector.connected = r.1.collector.conn.handle?.isSome ∧
      ∀ h < r.1.os.handles, r.1.collector.conn ≠ .conn h → h ∈ r.1.os.closed := by
  obtain ⟨ok, np, -⟩ := SocketSys.run_spec formatter ops (s := SocketSys.init tls) ⟨rfl, Os.holds_init, nofun⟩
  exact ⟨np, ok.connected, fun h hh hc => ok.holds.closed h hh fun e => hc (Conn.handle?_eq_some.1 e)⟩

/-- With a TLS configuration, a failed dial leaves the nil `*tls.Conn`, and
`Close` panics on it. -/
example :
    let e : Event String := ⟨INFO, "", none, Context.NewContext "app"⟩
    ((SocketSys.init true).run (Literal "x") [.collect e ⟨some "refused", none⟩, .close]).2 =
      [some (.ret (some (.failed "refused"))), some .panic] := by
  decide

/-- After any run, whatever the operating system answered, the connections
received, in order, one part for each call: the rendering of each `Collect`
that returned `nil`, whole; nothing, or the bytes of it a failed write wrote
first, for each `Collect` that returned an error; and nothing for `Close`. -/
theorem socket_writes_returned (tls : Bool) (formatter : Formatter V) (ops : List (SocketOp V)) :
    ∃ parts, List.Forall₂ (fun p part => Wrote (SocketSys.writeOf formatter p.1) p.2 part)
        (ops.zip ((SocketSys.init tls).run formatter ops).2) parts ∧
      ((SocketSys.init tls).run formatter ops).1.os.written.map Prod.snd = parts.flatten :=
  (SocketSys.run_spec formatter ops (s := SocketSys.init tls) ⟨rfl, Os.holds_init, nofun⟩).2.2

end Cue.Collectors
