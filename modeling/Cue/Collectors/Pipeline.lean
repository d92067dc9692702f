/-
# Cue.Collectors.Pipeline — a pipeline is the fold of its stages over a clone

A `Pipeline` (`collector`, `part_005`) is a linked list of stages, newest
first: `NewPipeline` returns one whose `prior` is nil, and each builder method
(`FilterContext`, `FilterEvent`, `TransformContext`, `TransformEvent`) returns a
new pipeline over the old one with a `transformer` wrapped in
`filterNilEvent`. `apply` recurses down `prior`: it returns nil for nil, a
clone of the event at the bottom, and otherwise the stage's transformer of
what the stages below it returned. `pipelineCollector.Collect` passes the
result to the target collector unless it is nil.

Events are `*cue.Event` pointers into a memory the pipeline shares with the
user's functions (`Memory`). `cloneEvent` allocates a new `Event` and copies
the fields one by one, the `Frames` slice header among them, so the clone
views the caller's backing array of `*Frame` pointers and the caller's
frames. The pipeline's own stages write the context of the event they are
given, in place. A user's `EventFilter` or `EventTransformer` is any function
of the memory and the pointer it is given, and may write any of it; each run
records the pointer every one of them was called with.

* `addTo_stage` — each builder method adds a stage whose transformer takes a
  nil event to nil and a non-nil one to the stage's `Stage.reference`,
  calling user functions with non-nil events only;
* `pipeline_apply_reference` — for every chain of builder calls from
  `NewPipeline`, every memory and every event, nil included, `apply` is the
  `reference` fold of the stages over a fresh clone of the event, calls no
  user function with a nil event, and `Collect` calls the target exactly when
  that result is not nil, with that result.
-/
import Cue.Format.Formatter

namespace Cue.Collectors

open Cue.Format

set_option autoImplicit false

variable {V : Type}

/-! ## Memory -/

/-- A `cue.Frame`. -/
structure Frame where
  package : String
  function : String
  file : String
  line : Int
  deriving DecidableEq, Repr

/-- A `[]*Frame` slice header: the backing array it views (`none` for a nil
slice), and its length. -/
structure FramesSlice where
  array : Option Nat
  len : Nat
  deriving DecidableEq, Repr

/-- The fields of a `cue.Event`. -/
structure EventFields (V : Type) where
  time : Nat
  level : Nat
  context : Context V
  frames : FramesSlice
  error : Option String
  message : String

/-- The memory the pipeline and the user's functions share: `cue.Event`
structs, backing arrays of `*Frame` pointers and frames, each at an address;
`next` is the first address not yet allocated. -/
structure Memory (V : Type) where
  next : Nat
  events : Nat → EventFields V
  arrays : Nat → List Nat
  frames : Nat → Frame

namespace Memory

/-- `&cue.Event{...}` holding `fields`, at the next free address. -/
def alloc (m : Memory V) (fields : EventFields V) : Memory V × Nat :=
  ({ m with next := m.next + 1, events := Function.update m.events m.next fields }, m.next)

/-- `*p = fields`. -/
def setEvent (m : Memory V) (p : Nat) (fields : EventFields V) : Memory V :=
  { m with events := Function.update m.events p fields }

@[simp] theorem setEvent_events_self (m : Memory V) (p : Nat) (fields : EventFields V) :
    (m.setEvent p fields).events p = fields := Function.update_same _ _ _

@[simp] theorem setEvent_setEvent (m : Memory V) (p : Nat) (f g : EventFields V) :
    (m.setEvent p f).setEvent p g = m.setEvent p g := by
  simp [setEvent]

end Memory

/-! ## The user's functions -/

/-- `ContextFilter`. -/
abbrev ContextFilter (V : Type) := String → V → Bool

/-- `ContextTransformer`. -/
abbrev ContextTransformer (V : Type) := Context V → Context V

/-- `EventFilter`, of the memory and a `*cue.Event` (`none` is nil); it may
write the memory. -/
abbrev EventFilter (V : Type) := Memory V → Option Nat → Memory V × Bool

/-- `EventTransformer`, of the memory and a `*cue.Event` (`none` is nil); it may
write the memory. -/
abbrev EventTransformer (V : Type) := Memory V → Option Nat → Memory V × Option Nat

/-- A call of the pipeline's code on an event: the events it passed to the
user's `EventFilter`s and `EventTransformer`s, in order, the memory after it,
and the event it returned. -/
structure Traced (V : Type) where
  calls : List (Option Nat)
  memory : Memory V
  event : Option Nat

/-- The run of `r`, then of `f` on the memory and event `r` left. -/
def Traced.bind (r : Traced V) (f : Memory V → Option Nat → Traced V) : Traced V :=
  ⟨r.calls ++ (f r.memory r.event).calls, (f r.memory r.event).memory, (f r.memory r.event).event⟩

/-! ## The stages' transformers -/

/-- `filterNilEvent(transformer)`: nil stays nil, and `transformer` is called
only with a non-nil event. -/
def filterNilEvent (transformer : Memory V → Nat → Traced V) : Memory V → Option Nat → Traced V
  | m, none => ⟨[], m, none⟩
  | m, some event => transformer m event

/-- `filterContext(filters...)`: `event.Context` replaced, in place, by the
context `Cue.filterContext` builds from the pairs no filter matches. -/
def filterContext (filters : List (ContextFilter V)) (m : Memory V) (event : Nat) : Traced V :=
  ⟨[], m.setEvent event { m.events event with context := Cue.filterContext filters (m.events event).context },
    some event⟩

/-- `filterEvent(filters...)`: nil at the first filter that returns true. -/
def filterEvent : List (EventFilter V) → Memory V → Option Nat → Traced V
  | [], m, event => ⟨[], m, event⟩
  | filter :: filters, m, event =>
    if (filter m event).2 then ⟨[event], (filter m event).1, none⟩
    else
      let r := filterEvent filters (filter m event).1 event
      ⟨event :: r.calls, r.memory, r.event⟩

/-- `transformContext(transformers...)`: `event.Context = trans(event.Context)`
for each transformer in turn. -/
def transformContext (transformers : List (ContextTransformer V)) (m : Memory V) (event : Nat) : Traced V :=
  ⟨[], transformers.foldl (fun m transformer => m.setEvent event
    { m.events event with context := transformer (m.events event).context }) m, some event⟩

/-- `transformEvent(transformers...)`: each transformer in turn, returning nil
as soon as the event is nil. -/
def transformEvent : List (EventTransformer V) → Memory V → Option Nat → Traced V
  | [], m, event => ⟨[], m, event⟩
  | _ :: _, m, none => ⟨[], m, none⟩
  | transformer :: transformers, m, some event =>
    let r := transformEvent transformers (transformer m (some event)).1 (transformer m (some event)).2
    ⟨some event :: r.calls, r.memory, r.event⟩

/-- `cloneEvent(e)`: a new `Event` holding the fields of `*e`, one by one. -/
def cloneEvent (m : Memory V) (e : Nat) : Memory V × Nat :=
  m.alloc
    { time := (m.events e).time, level := (m.events e).level, context := (m.events e).context,
      frames := (m.events e).frames, error := (m.events e).error, message := (m.events e).message }

/-! ## Pipelines -/

/-- A `*Pipeline` built from `NewPipeline`: `new` is the one whose `prior` is
nil, and `stage prior transformer` one a builder method returns. -/
inductive Pipeline (V : Type)
  | new
  | stage (prior : Pipeline V) (transformer : Memory V → Option Nat → Traced V)

/-- `NewPipeline()`. -/
def NewPipeline : Pipeline V := .new

namespace Pipeline

/-- `p.FilterContext(filters...)`. -/
def FilterContext (p : Pipeline V) (filters : List (ContextFilter V)) : Pipeline V :=
  .stage p (filterNilEvent (filterContext filters))

/-- `p.FilterEvent(filters...)`. -/
def FilterEvent (p : Pipeline V) (filters : List (EventFilter V)) : Pipeline V :=
  .stage p (filterNilEvent fun m event => filterEvent filters m (some event))

/-- `p.TransformContext(transformers...)`. -/
def TransformContext (p : Pipeline V) (transformers : List (ContextTransformer V)) : Pipeline V :=
  .stage p (filterNilEvent (transformContext transformers))

/-- `p.TransformEvent(transformers...)`. -/
def TransformEvent (p : Pipeline V) (transformers : List (EventTransformer V)) : Pipeline V :=
  .stage p (filterNilEvent fun m event => transformEvent transformers m (some event))

/-- `p.apply(event)`. -/
def apply : Pipeline V → Memory V → Option Nat → Traced V
  | _, m, none => ⟨[], m, none⟩
  | .new, m, some event => ⟨[], (cloneEvent m event).1, some (cloneEvent m event).2⟩
  | .stage prior transformer, m, some event => (prior.apply m (some event)).bind transformer

end Pipeline

/-- A `pipelineCollector`: the pipeline, and the target collector's `Collect`
of an event in memory, which returns an error (`none` is nil). -/
structure PipelineCollector (V : Type) where
  pipeline : Pipeline V
  collector : Memory V → Option Nat → Option String

/-- `p.Attach(c)` (its warning on an empty pipeline goes to the package's
logger, and is left out). -/
def Pipeline.Attach (p : Pipeline V) (collector : Memory V → Option Nat → Option String) : PipelineCollector V :=
  ⟨p, collector⟩

/-- `pipelineCollector.Collect(event)`: the pipeline's run, the event passed to
the target's `Collect` (`none`: it is not called), and the error returned. -/
def PipelineCollector.Collect (p : PipelineCollector V) (m : Memory V) (event : Option Nat) :
    Traced V × Option Nat × Option String :=
  let transformed := p.pipeline.apply m event
  match transformed.event with
  | none => (transformed, none, none)
  | some t => (transformed, some t, p.collector transformed.memory (some t))

/-! ## Chains of builder calls, and the fold they should compute -/

/-- A call of one of the builder methods, with its arguments. -/
inductive Stage (V : Type)
  | filterContext (filters : List (ContextFilter V))
  | filterEvent (filters : List (EventFilter V))
  | transformContext (transformers : List (ContextTransformer V))
  | transformEvent (transformers : List (EventTransformer V))

/-- The builder method `st` calls, on `p`. -/
def Stage.addTo : Stage V → Pipeline V → Pipeline V
  | .filterContext filters, p => p.FilterContext filters
  | .filterEvent filters, p => p.FilterEvent filters
  | .transformContext transformers, p => p.TransformContext transformers
  | .transformEvent transformers, p => p.TransformEvent transformers

/-- `NewPipeline()` followed by the builder calls `stages`, in order. -/
def build (stages : List (Stage V)) : Pipeline V := stages.foldl (fun p st => st.addTo p) NewPipeline

/-- Modelled from the spec: a context with `c`'s name holding the pairs of `c`
that `keep` accepts, the last visited first. -/
def keptContext (c : Context V) (keep : String × V → Bool) : Context V :=
  ⟨c.name, (c.Each.filter keep).reverse, fun p hp => c.keys_ne p (List.mem_filter.1 (List.mem_reverse.1 hp)).1⟩

/-- Modelled from the spec: whether one of `filters` returns true of the event
at `e`, asking them in turn. -/
def anyFilter : List (EventFilter V) → Memory V → Nat → Memory V × Bool
  | [], m, _ => (m, false)
  | filter :: filters, m, e => if (filter m (some e)).2 then ((filter m (some e)).1, true)
    else anyFilter filters (filter m (some e)).1 e

/-- Modelled from the spec: a function applied to the event unless it is
nil. -/
def onEvent (f : Memory V → Nat → Memory V × Option Nat) (acc : Memory V × Option Nat) : Memory V × Option Nat :=
  match acc.2 with
  | none => acc
  | some e => f acc.1 e

/-- Modelled from the spec: one stage on a non-nil event at `e`. `FilterEvent`
gives nil if any of its filters returns true; `FilterContext` replaces the
context by one holding the pairs no filter matches; `TransformContext` and
`TransformEvent` apply their functions left to right, and a nil event skips
the rest. -/
def Stage.reference : Stage V → Memory V → Nat → Memory V × Option Nat
  | .filterContext filters, m, e =>
    let kept := keptContext (m.events e).context fun kv => !filters.any fun f => f kv.1 kv.2
    (m.setEvent e { m.events e with context := kept }, some e)
  | .filterEvent filters, m, e =>
    ((anyFilter filters m e).1, if (anyFilter filters m e).2 then none else some e)
  | .transformContext transformers, m, e =>
    let context := transformers.foldl (fun context transformer => transformer context) (m.events e).context
    (m.setEvent e { m.events e with context }, some e)
  | .transformEvent transformers, m, e =>
    transformers.foldl (fun acc transformer => onEvent (fun m e => transformer m (some e)) acc) (m, some e)

/-- Modelled from the spec: the stages in build order, from a fresh clone of
the event, a new `Event` at the next free address holding its fields (nil for
nil); a nil value skips every later stage. -/
def reference (stages : List (Stage V)) (m : Memory V) : Option Nat → Memory V × Option Nat
  | none => (m, none)
  | some e => stages.foldl (fun acc st => onEvent st.reference acc)
    ((m.alloc (m.events e)).1, some (m.alloc (m.events e)).2)

/-! ## Each stage -/

/-- A nil value skips every later step. -/
theorem foldl_onEvent_none {β : Type} (l : List β) (f : β → Memory V → Nat → Memory V × Option Nat)
    (m : Memory V) : l.foldl (fun acc b => onEvent (f b) acc) (m, none) = (m, none) := by
  induction l with
  | nil => rfl
  | cons _ _ ih => exact ih

theorem name_filterContext (filters : List (ContextFilter V)) (c : Context V) :
    (Cue.filterContext filters c).name = c.name := by
  suffices ∀ (kvs : List (String × V)) (j : Context V), (kvs.foldl (fun nc kv =>
      if filters.any (fun f => f kv.1 kv.2) then nc else nc.WithValue kv.1 kv.2) j).name = j.name from
    this c.Each (Context.NewContext c.name)
  intro kvs
  induction kvs with
  | nil => intro j; rfl
  | cons kv kvs ih =>
    intro j
    rw [List.foldl_cons, ih]
    split
    · rfl
    · exact Context.name_withValue _ _ _

/-- `Cue.filterContext` builds the context the spec names. -/
theorem filterContext_eq_kept (filters : List (ContextFilter V)) (c : Context V) :
    Cue.filterContext filters c = keptContext c fun kv => !filters.any fun f => f kv.1 kv.2 := by
  have hn := name_filterContext filters c
  have hp := each_filterContext filters c
  revert hn hp
  generalize Cue.filterContext filters c = d
  rcases d with ⟨name, pairs, _⟩
  rintro rfl hp
  cases hp
  rfl

theorem filterEvent_some (filters : List (EventFilter V)) (m : Memory V) (e : Nat) :
    (filterEvent filters m (some e)).memory = (anyFilter filters m e).1 ∧
      (filterEvent filters m (some e)).event = (if (anyFilter filters m e).2 then none else some e) ∧
      ∀ a ∈ (filterEvent filters m (some e)).calls, a = some e := by
  induction filters generalizing m with
  | nil => simp [filterEvent, anyFilter]
  | cons filter filters ih =>
    by_cases hf : (filter m (some e)).2 = true
    · simp [filterEvent, anyFilter, hf]
    · simp only [filterEvent, anyFilter, hf, Bool.false_eq_true, if_false, List.mem_cons, forall_eq_or_imp]
      exact ⟨(ih _).1, (ih _).2.1, trivial, (ih _).2.2⟩

theorem transformEvent_eq (transformers : List (EventTransformer V)) (m : Memory V) (r : Option Nat) :
    ((transformEvent transformers m r).memory, (transformEvent transformers m r).event) =
        transformers.foldl (fun acc transformer => onEvent (fun m e => transformer m (some e)) acc) (m, r) ∧
      ∀ a ∈ (transformEvent transformers m r).calls, a.isSome := by
  induction transformers generalizing m r with
  | nil => exact ⟨rfl, nofun⟩
  | cons transformer transformers ih =>
    cases r with
    | none => exact ⟨(foldl_onEvent_none _ _ _).symm, nofun⟩
    | some e =>
      simp only [transformEvent, List.foldl_cons, List.mem_cons, forall_eq_or_imp]
      exact ⟨(ih _ _).1, rfl, (ih _ _).2⟩

/-- The writes of `transformContext` leave the context the transformers
compose. -/
theorem transformContext_memory (transformers : List (ContextTransformer V)) (m : Memory V) (e : Nat) :
    (transformContext transformers m e).memory = m.setEvent e
      { m.events e with context := transformers.foldl (fun context transformer => transformer context) (m.events e).context } := by
  induction transformers generalizing m with
  | nil => simp [transformContext, Memory.setEvent]
  | cons transformer transformers ih =>
    simp only [transformContext, List.foldl_cons] at ih ⊢
    rw [ih, Memory.setEvent_events_self, Memory.setEvent_setEvent]

/-- Each builder method adds a stage over `p` whose transformer takes nil to
nil and a non-nil event to the stage's reference, and calls user functions with
non-nil events only. -/
theorem addTo_stage (st : Stage V) (p : Pipeline V) :
    ∃ t, st.addTo p = .stage p t ∧ ∀ m r, ((t m r).memory, (t m r).event) = onEvent st.reference (m, r) ∧
      ∀ a ∈ (t m r).calls, a.isSome := by
  cases st <;> refine ⟨_, rfl, fun m r => ?_⟩ <;> rcases r with _ | e
  all_goals try exact ⟨rfl, nofun⟩
  case filterContext.some filters =>
    exact ⟨by simp only [filterNilEvent, filterContext, onEvent, Stage.reference, filterContext_eq_kept], nofun⟩
  case filterEvent.some filters =>
    obtain ⟨hm, he, hc⟩ := filterEvent_some filters m e
    exact ⟨Prod.ext hm he, fun a ha => hc a ha ▸ rfl⟩
  case transformContext.some transformers =>
    exact ⟨Prod.ext (transformContext_memory transformers m e) rfl, nofun⟩
  case transformEvent.some transformers => exact transformEvent_eq transformers m (some e)

/-! ## The whole pipeline -/

theorem apply_none (p : Pipeline V) (m : Memory V) : p.apply m none = ⟨[], m, none⟩ := by
  cases p <;> rfl

theorem build_append (stages : List (Stage V)) (st : Stage V) : build (stages ++ [st]) = st.addTo (build stages) := by
  simp [build]

theorem reference_append (stages : List (Stage V)) (st : Stage V) (m : Memory V) (e : Option Nat) :
    reference (stages ++ [st]) m e = onEvent st.reference (reference stages m e) := by
  cases e <;> simp [reference, onEvent]

/-- `Collect` calls the target collector exactly when the pipeline's result is
not nil, with that result. -/
theorem collect_target (p : PipelineCollector V) (m : Memory V) (e : Option Nat) :
    (p.Collect m e).2.1 = (p.pipeline.apply m e).event := by
  cases h : (p.pipeline.apply m e).event <;> simp [PipelineCollector.Collect, h]

theorem apply_build (stages : List (Stage V)) (m : Memory V) (e : Option Nat) :
    (((build stages).apply m e).memory, ((build stages).apply m e).event) = reference stages m e ∧
      ∀ a ∈ ((build stages).apply m e).calls, a.isSome := by
  cases e with
  | none => exact ⟨by rw [apply_none]; rfl, by simp [apply_none]⟩
  | some e =>
    induction stages using List.reverseRecOn with
    | nil => exact ⟨rfl, nofun⟩
    | append_singleton stages st ih =>
      obtain ⟨t, ht, hspec⟩ := addTo_stage st (build stages)
      rw [build_append, ht, reference_append, ← ih.1]
      refine ⟨(hspec _ _).1, fun a ha => ?_⟩
      rcases List.mem_append.1 ha with ha | ha
      exacts [ih.2 a ha, (hspec _ _).2 a ha]

/-- For every chain of builder calls from `NewPipeline`, every memory and every
event, nil included: `apply` leaves the memory and returns the event of the
reference fold of the stages over a fresh clone of the event, no user filter or
transformer is called with a nil event, and `Collect` calls the target
collector exactly when `apply` is not nil, with that event. -/
theorem pipeline_apply_reference (stages : List (Stage V)) (m : Memory V) (e : Option Nat) :
    (((build stages).apply m e).memory, ((build stages).apply m e).event) = reference stages m e ∧
    (∀ a ∈ ((build stages).apply m e).calls, a.isSome) ∧
    ∀ collector, (((build stages).Attach collector).Collect m e).2.1 = (reference stages m e).2 :=
  ⟨(apply_build stages m e).1, (apply_build stages m e).2,
    fun _ => (collect_target _ m e).trans (congrArg Prod.snd (apply_build stages m e).1)⟩

/-- One event at address 0, with one frame: the slice at address 1 holds the
frame at address 2. -/
def oneEvent (level : Nat) (message : String) (context : Context String) : Memory String :=
  ⟨3, fun _ => ⟨0, level, context, ⟨some 1, 1⟩, none, message⟩, fun _ => [2], fun _ => ⟨"main", "main.f", "f.go", 7⟩⟩

/-- The chain of `TestMultiPipeline`: a DEBUG event (level 5) loses the pair
the context filter matches, gains the added pair and has its message
replaced; an ERROR event (level 2) is filtered out. The caller's event is left
as it was. -/
example :
    let stages : List (Stage String) :=
      [.filterContext [fun key _ => key = "k1"], .filterEvent [fun m e => (m, e.any fun p => (m.events p).level = 2)],
        .transformEvent [fun m e => (e.elim m fun e => m.setEvent e { m.events e with message := "Replaced message" }, e)],
        .transformContext [fun context => context.WithValue "addedkey" "addedvalue"]]
    let context := ((Context.NewContext "ctx").WithValue "k1" "1").WithValue "k2" "2"
    let r := (build stages).apply (oneEvent 5 "debug" context) (some 0)
    r.event = some 3 ∧ (r.memory.events 3).message = "Replaced message" ∧
      (r.memory.events 3).context.Each = [("addedkey", "addedvalue"), ("k2", "2")] ∧
      (r.memory.events 0).message = "debug" ∧ (r.memory.events 0).context.Each = context.Each ∧
      ((build stages).apply (oneEvent 2 "error" context) (some 0)).event = none := by
  decide

/-- The clone shares the caller's frames: a transformer that sets
`e.Frames[0].Line = 0` sets the line of the caller's frame. -/
example :
    let zeroLine : EventTransformer String := fun m e =>
      (e.elim m fun e => ((m.events e).frames.array.bind fun a => (m.arrays a).head?).elim m fun f =>
        { m with frames := Function.update m.frames f { m.frames f with line := 0 } }, e)
    let r := (build [.transformEvent [zeroLine]]).apply (oneEvent 5 "debug" (Context.NewContext "ctx")) (some 0)
    r.event = some 3 ∧ (r.memory.events 0).frames = (r.memory.events 3).frames ∧ (r.memory.frames 2).line = 0 := by
  decide

end Cue.Collectors
