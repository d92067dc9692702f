/-
# Cue.Config — the published configuration and its global threshold

`cfg` (`config.go`) publishes an immutable snapshot: the global threshold, the
frame counts and the registry, a map from each collector to its entry
(threshold, degraded flag, worker). Every mutation (`collect`, `SetLevel`,
`SetFrames`, `setDegraded`, `dispose`, and `terminateAsync`'s reset) clones the
snapshot under `cfg.mu`, edits the clone and publishes it. `updateThreshold`
recomputes the global threshold from the registry, so that the lock-free fast
path of a logging call (`level > config.threshold`) can reject an event without
looking at the registry.

* `updateThreshold_threshold`: the loop of `updateThreshold` computes
  `maxThreshold`, the largest threshold of an entry that is not degraded;
* `publish_thresholdOk`: after any sequence of registry operations, in any order
  and with any arguments, the published threshold is that maximum;
* `publish_fastPath`: hence, for every level above `OFF`, the fast path rejects
  exactly the events that no registered, non-degraded collector accepts.
-/
import Mathlib.Data.List.AList

namespace Cue

set_option autoImplicit false

/-! ## Levels, collectors and entries -/

/-- Modelled from the spec: `level.go` is not in the source. A `Level` is an
unsigned integer, written `Nat` here; `OFF` is the lowest and `DEBUG` the
highest, and a collector with threshold `t` accepts the events of level at most
`t`. -/
def OFF : Nat := 0
/-- Modelled from the spec: the most severe level. -/
def FATAL : Nat := 1
/-- Modelled from the spec. -/
def ERROR : Nat := 2
/-- Modelled from the spec. -/
def WARN : Nat := 3
/-- Modelled from the spec. -/
def INFO : Nat := 4
/-- Modelled from the spec: the least severe level. -/
def DEBUG : Nat := 5

/-- A collector as a Go interface value, the registry's key: its identity and
whether its dynamic type implements `io.Closer`. -/
structure Collector where
  id : Nat
  closer : Bool
  deriving DecidableEq, Repr

/-- A registry entry (`entry`); the worker is named by its index in the
runtime's worker table. -/
structure Entry where
  threshold : Nat
  degraded : Bool
  worker : Nat
  deriving DecidableEq, Repr

namespace Entry

/-- `entry.threshold >= event.Level && !entry.degraded`, the test
`dispatchEvent` applies to every entry of its snapshot. -/
def accepts (e : Entry) (level : Nat) : Bool :=
  decide (level ≤ e.threshold) && !e.degraded

/-- One iteration of `updateThreshold`'s loop. -/
def raise (max : Nat) (e : Entry) : Nat :=
  if max < e.threshold ∧ e.degraded = false then e.threshold else max

end Entry

/-- `registry`, a Go map from collectors to entries. -/
abbrev Registry := AList fun _ : Collector => Entry

/-- Edit the entry of `c` in place, as `SetLevel` and `setDegraded` do through
the entry's pointer. -/
def Registry.modify (r : Registry) (c : Collector) (f : Entry → Entry) : Registry :=
  ⟨r.entries.map fun x => if x.1 = c then ⟨x.1, f x.2⟩ else x, by
    have keys : (r.entries.map fun x => if x.1 = c then (⟨x.1, f x.2⟩ : Σ _ : Collector, Entry)
        else x).keys = r.entries.keys := by
      simp only [List.keys, List.map_map]
      congr 1; funext x; by_cases h : x.1 = c <;> simp [h]
    unfold List.NodupKeys; rw [keys]; exact r.nodupKeys⟩

@[simp] theorem Registry.modify_entries (r : Registry) (c : Collector) (f : Entry → Entry) :
    (r.modify c f).entries = r.entries.map fun x => if x.1 = c then ⟨x.1, f x.2⟩ else x := rfl

/-! ## The snapshot -/

/-- `config`: one published snapshot. -/
structure Config where
  threshold : Nat
  frames : Int
  errorFrames : Int
  registry : Registry

/-- `newConfig()`: the initial configuration, and the one `Close` resets to. -/
def newConfig : Config := ⟨OFF, 1, 1, ∅⟩

/-- The largest threshold of a non-degraded entry, `OFF` when there is none: what
the global threshold is meant to be. -/
def maxThreshold : List (Σ _ : Collector, Entry) → Nat
  | [] => OFF
  | x :: rest => if x.2.degraded then maxThreshold rest else max x.2.threshold (maxThreshold rest)

namespace Config

/-- `updateThreshold`. Go ranges over the map in an unspecified order; the
result does not depend on it (`updateThreshold_threshold`). -/
def updateThreshold (c : Config) : Config :=
  { c with threshold := c.registry.entries.foldl (fun max x => x.2.raise max) OFF }

/-- The clone-and-edit part of `collect(threshold, bufsize, c)`: `none` when
nothing is published, because `c` is already registered or `newWorker` panics
on a negative buffer size. -/
def collect (cfg : Config) (c : Collector) (threshold : Nat) (bufsize : Int) (worker : Nat) :
    Option Config :=
  if c ∈ cfg.registry then none
  else if bufsize < 0 then none
  else some { cfg with registry := cfg.registry.insert c ⟨threshold, false, worker⟩ }.updateThreshold

/-- The clone-and-edit part of `SetLevel(threshold, c)`. -/
def setLevel (cfg : Config) (c : Collector) (threshold : Nat) : Option Config :=
  if c ∈ cfg.registry then
    some { cfg with registry := cfg.registry.modify c fun e => { e with threshold } }.updateThreshold
  else none

/-- `SetFrames(frames, errorFrames)`: the threshold is copied, not recomputed. -/
def setFrames (cfg : Config) (frames errorFrames : Int) : Config :=
  { cfg with frames, errorFrames }

/-- The clone-and-edit part of `setDegraded(c, degraded)`. -/
def setDegraded (cfg : Config) (c : Collector) (degraded : Bool) : Option Config :=
  if c ∈ cfg.registry then
    some { cfg with registry := cfg.registry.modify c fun e => { e with degraded } }.updateThreshold
  else none

/-- The registry part of `dispose(c)`: the published snapshot and the removed
entry, whose worker `dispose` then terminates. -/
def dispose (cfg : Config) (c : Collector) : Option (Config × Entry) :=
  (cfg.registry.lookup c).map fun e =>
    ({ cfg with registry := cfg.registry.erase c }.updateThreshold, e)

end Config

/-! ## The threshold invariant -/

theorem Entry.raise_eq (m : Nat) (e : Entry) :
    e.raise m = if e.degraded then m else max m e.threshold := by
  unfold raise
  cases e.degraded
  · simp only [and_true, Bool.false_eq_true, if_false]
    split_ifs with lt
    · exact (max_eq_right lt.le).symm
    · exact (max_eq_left (not_lt.1 lt)).symm
  · simp

theorem foldl_raise (m : Nat) (entries : List (Σ _ : Collector, Entry)) :
    entries.foldl (fun max x => x.2.raise max) m = max m (maxThreshold entries) := by
  induction entries generalizing m with
  | nil => simp [maxThreshold, OFF]
  | cons x rest ih =>
      rw [List.foldl_cons, ih, Entry.raise_eq]
      cases hx : x.2.degraded <;> simp [maxThreshold, hx, max_assoc]

@[simp] theorem Config.updateThreshold_threshold (c : Config) :
    c.updateThreshold.threshold = maxThreshold c.registry.entries := by
  simp [Config.updateThreshold, foldl_raise, OFF]

@[simp] theorem Config.updateThreshold_registry (c : Config) :
    c.updateThreshold.registry = c.registry := rfl

/-- The published threshold is the largest threshold of a non-degraded entry. -/
def ThresholdOk (c : Config) : Prop := c.threshold = maxThreshold c.registry.entries

theorem thresholdOk_newConfig : ThresholdOk newConfig := rfl

theorem thresholdOk_updateThreshold (c : Config) : ThresholdOk c.updateThreshold := by
  simp [ThresholdOk]

theorem Config.collect_thresholdOk {cfg cfg' : Config} {c : Collector} {threshold : Nat}
    {bufsize : Int} {worker : Nat} (h : cfg.collect c threshold bufsize worker = some cfg') :
    ThresholdOk cfg' := by
  unfold Config.collect at h
  split_ifs at h
  cases h
  exact thresholdOk_updateThreshold _

theorem Config.setLevel_thresholdOk {cfg cfg' : Config} {c : Collector} {threshold : Nat}
    (h : cfg.setLevel c threshold = some cfg') : ThresholdOk cfg' := by
  unfold Config.setLevel at h
  split_ifs at h
  cases h
  exact thresholdOk_updateThreshold _

theorem Config.setDegraded_thresholdOk {cfg cfg' : Config} {c : Collector} {degraded : Bool}
    (h : cfg.setDegraded c degraded = some cfg') : ThresholdOk cfg' := by
  unfold Config.setDegraded at h
  split_ifs at h
  cases h
  exact thresholdOk_updateThreshold _

theorem Config.dispose_thresholdOk {cfg cfg' : Config} {c : Collector} {e : Entry}
    (h : cfg.dispose c = some (cfg', e)) : ThresholdOk cfg' := by
  obtain ⟨e', -, he⟩ := Option.map_eq_some'.1 h
  cases he
  exact thresholdOk_updateThreshold _

theorem Config.setFrames_thresholdOk {cfg : Config} (ok : ThresholdOk cfg) (frames errorFrames : Int) :
    ThresholdOk (cfg.setFrames frames errorFrames) := ok

/-- Below a level above `OFF`, the maximum lies exactly when no entry accepts it. -/
theorem maxThreshold_lt_iff (entries : List (Σ _ : Collector, Entry)) {level : Nat}
    (above : OFF < level) :
    maxThreshold entries < level ↔ ∀ x ∈ entries, x.2.accepts level = false := by
  induction entries with
  | nil => simpa [maxThreshold] using above
  | cons x rest ih =>
      rw [List.forall_mem_cons, ← ih]
      cases hx : x.2.degraded <;> simp [maxThreshold, Entry.accepts, hx]

/-- Under the invariant, the fast path `level > config.threshold` rejects exactly the
events that `dispatchEvent` would deliver to no entry. -/
theorem fastPath_iff {c : Config} (ok : ThresholdOk c) {level : Nat} (above : OFF < level) :
    c.threshold < level ↔ ∀ x ∈ c.registry.entries, x.2.accepts level = false := by
  rw [ok]; exact maxThreshold_lt_iff _ above

/-! ## Every sequence of registry operations -/

/-- The operations that publish a new snapshot, with their arguments. -/
inductive RegistryOp
  | collect (threshold : Nat) (bufsize : Int) (c : Collector) (worker : Nat)
  | setLevel (threshold : Nat) (c : Collector)
  | setFrames (frames errorFrames : Int)
  | setDegraded (c : Collector) (degraded : Bool)
  | dispose (c : Collector)
  | reset

/-- The snapshot published after one operation; an operation that publishes
nothing leaves the current one. -/
def RegistryOp.apply (cfg : Config) : RegistryOp → Config
  | .collect threshold bufsize c worker => (cfg.collect c threshold bufsize worker).getD cfg
  | .setLevel threshold c => (cfg.setLevel c threshold).getD cfg
  | .setFrames frames errorFrames => cfg.setFrames frames errorFrames
  | .setDegraded c degraded => (cfg.setDegraded c degraded).getD cfg
  | .dispose c => ((cfg.dispose c).map Prod.fst).getD cfg
  | .reset => newConfig

/-- The snapshot published after a sequence of operations from the initial one. -/
def publish (ops : List RegistryOp) : Config := ops.foldl RegistryOp.apply newConfig

theorem RegistryOp.apply_thresholdOk {cfg : Config} (ok : ThresholdOk cfg) :
    ∀ op : RegistryOp, ThresholdOk (op.apply cfg)
  | .collect threshold bufsize c worker => by
      cases h : cfg.collect c threshold bufsize worker with
      | none => simpa [apply, h] using ok
      | some cfg' => simpa [apply, h] using Config.collect_thresholdOk h
  | .setLevel threshold c => by
      cases h : cfg.setLevel c threshold with
      | none => simpa [apply, h] using ok
      | some cfg' => simpa [apply, h] using Config.setLevel_thresholdOk h
  | .setFrames frames errorFrames => Config.setFrames_thresholdOk ok frames errorFrames
  | .setDegraded c degraded => by
      cases h : cfg.setDegraded c degraded with
      | none => simpa [apply, h] using ok
      | some cfg' => simpa [apply, h] using Config.setDegraded_thresholdOk h
  | .dispose c => by
      cases h : cfg.dispose c with
      | none => simpa [apply, h] using ok
      | some r => simpa [apply, h] using Config.dispose_thresholdOk (e := r.2) (by rw [h])
  | .reset => thresholdOk_newConfig

theorem publish_thresholdOk (ops : List RegistryOp) : ThresholdOk (publish ops) := by
  unfold publish
  induction ops using List.reverseRecOn with
  | nil => exact thresholdOk_newConfig
  | append_singleton ops op ih =>
      rw [List.foldl_append, List.foldl_cons, List.foldl_nil]
      exact RegistryOp.apply_thresholdOk ih op

/-- After every sequence of registry operations, the published threshold is the
largest threshold of a non-degraded entry (`OFF` when there is none), so the fast
path rejects a level above `OFF` exactly when no non-degraded entry accepts it. -/
theorem publish_fastPath (ops : List RegistryOp) :
    (publish ops).threshold = maxThreshold (publish ops).registry.entries ∧
      ∀ level : Nat, OFF < level →
        ((publish ops).threshold < level ↔
          ∀ x ∈ (publish ops).registry.entries, x.2.accepts level = false) :=
  ⟨publish_thresholdOk ops, fun _ above => fastPath_iff (publish_thresholdOk ops) above⟩

end Cue
