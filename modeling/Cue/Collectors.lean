/-
# Cue.Collectors — what the file and terminal collectors write

`fileCollector.Collect` (`collector/file.go`) and `terminalCollector.Collect`
render the event with their `Formatter` into a buffer, then look at the last
byte, `bytes[len(bytes)-1]`, and append a newline unless it is one. The file
collector first makes sure its file is open, and returns the error of that
without rendering; the terminal collector writes to standard error instead of
standard output for ERROR and FATAL events when `ErrorsToStderr` is set.

* `collect_output` — for every formatter and event: when the rendering is not
  empty both collectors write it with one newline at the end, added only if
  missing; when it is empty, `bytes[-1]` is out of range and `Collect` panics.
  A panic in `Collect` is recovered by `recoverCollector`, which disposes of the
  collector for good (`Cue.Runtime`).
-/
import Cue.Config
import Cue.Format.Formatter

namespace Cue.Collectors

open Cue.Format

set_option autoImplicit false

variable {V : Type}

/-- `bytes[i]` with Go's bounds check: `none` where the index panics. -/
def index? (bytes : List UInt8) (i : Int) : Option UInt8 := if 0 ≤ i then bytes[i.toNat]? else none

/-- The newline check of both collectors: `if bytes[len(bytes)-1] != byte('\n')
{ bytes = append(bytes, byte('\n')) }`; `none` where the index panics. -/
def terminateLine (bytes : List UInt8) : Option (List UInt8) :=
  (index? bytes ((bytes.length : Int) - 1)).map fun last => if last ≠ 10 then bytes ++ [10] else bytes

/-- How a call of `fileCollector.Collect` ends: a panic, the error of
`ensureOpen`, or a write of these bytes. -/
inductive FileResult
  | panic
  | error (err : String)
  | write (bytes : List UInt8)
  deriving DecidableEq

/-- `fileCollector.Collect(event)`; `ensureOpen` is the error opening the file
gives, if any. -/
def fileCollect (formatter : Formatter V) (ensureOpen : Option String) (e : Event V) : FileResult :=
  match ensureOpen with
  | some err => .error err
  | none =>
    match terminateLine (formatter e) with
    | none => .panic
    | some bytes => .write bytes

/-- Where the terminal collector writes. -/
inductive Output
  | stdout
  | stderr
  deriving DecidableEq

/-- The stream `terminalCollector.Collect` picks for an event. -/
def outputFor (errorsToStderr : Bool) (e : Event V) : Output :=
  if errorsToStderr && (e.level = ERROR || e.level = FATAL) then .stderr else .stdout

/-- `terminalCollector.Collect(event)`: the stream and the bytes it writes, or
`none` where it panics. -/
def terminalCollect (formatter : Formatter V) (errorsToStderr : Bool) (e : Event V) : Option (Output × List UInt8) :=
  (terminateLine (formatter e)).map (outputFor errorsToStderr e, ·)

/-- A rendering with a newline at the end, added only if missing. -/
def withNewline (bytes : List UInt8) : List UInt8 :=
  if bytes.getLast? = some 10 then bytes else bytes ++ [10]

/-- The last byte is read only when there is one. -/
theorem terminateLine_eq (bytes : List UInt8) :
    terminateLine bytes = if bytes = [] then none else some (withNewline bytes) := by
  rcases bytes.eq_nil_or_concat with rfl | ⟨init, last, rfl⟩
  · rfl
  · rw [List.concat_eq_append]
    have hidx : index? (init ++ [last]) (((init ++ [last]).length : Int) - 1) = some last := by
      rw [index?, List.length_append, List.length_singleton, if_pos (by omega),
        show (((init.length + 1 : Nat) : Int) - 1).toNat = init.length by omega]
      simp
    rw [terminateLine, hidx, if_neg (by simp), withNewline, List.getLast?_concat]
    by_cases h : last = 10 <;> simp [h]

/-- Both collectors write the rendering with one newline at its end, added only
if missing, and panic exactly when the rendering is empty; the file collector
panics only after opening its file. -/
theorem collect_output (formatter : Formatter V) (e : Event V) :
    (∀ ensureOpen, fileCollect formatter ensureOpen e = .panic ↔ ensureOpen = none ∧ formatter e = []) ∧
    fileCollect formatter none e = (if formatter e = [] then .panic else .write (withNewline (formatter e))) ∧
    ∀ errorsToStderr, terminalCollect formatter errorsToStderr e =
      if formatter e = [] then none else some (outputFor errorsToStderr e, withNewline (formatter e)) := by
  have hfile : fileCollect formatter none e = (if formatter e = [] then .panic else .write (withNewline (formatter e))) := by
    by_cases h : formatter e = [] <;> simp [fileCollect, terminateLine_eq, h]
  refine ⟨fun ensureOpen => ?_, hfile, fun errorsToStderr => ?_⟩
  · cases ensureOpen with
    | some err => simp [fileCollect]
    | none => rw [hfile]; split <;> simp_all
  · by_cases h : formatter e = [] <;> simp [terminalCollect, terminateLine_eq, h]

/-- `format.Message` on an event whose message is empty renders nothing: both
collectors panic on it. -/
theorem message_empty_panics :
    let e : Event String := ⟨INFO, "", none, Context.NewContext "app"⟩
    fileCollect Message none e = .panic ∧ terminalCollect Message false e = none := by
  decide

end Cue.Collectors
