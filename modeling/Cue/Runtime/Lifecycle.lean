/-
# Cue.Runtime.Lifecycle — a worker is held for termination once

A worker is held for termination by its registry entry; `dispose` and
`terminateAsync` take it out of the registry under `cfg.mu` and call its
`Terminate` (`Obs.terminate`), `terminateAsync` first keeping the replaced
registry until it starts the terminators. `Sys.claims` counts these holds with
the `Terminate`s already called, and no step raises it: a worker is terminated
at most once (`HoldOk`).

The rest of a worker's end builds on this: the debts of its `Terminate` and of
its `Close` (`DebtOk`, `Cue.Runtime.Ending`), how a `syncWorker` stops
(`SyncEndOk`, `Cue.Runtime.Stop`), how an `asyncWorker` ends (`AsyncEndOk`,
`Cue.Runtime.Finish`), and the life of a worker as a whole
(`Cue.Termination`).
-/
import Cue.Runtime.Footprint

namespace Cue

set_option autoImplicit false

/-! ## Registry entries -/

/-- How many entries of the registry name worker `w`. -/
def Config.holds (cfg : Config) (w : Nat) : Nat :=
  cfg.registry.entries.countP fun x => x.2.worker = w

theorem Config.holds_modify (cfg : Config) (c : Collector) {f : Entry → Entry}
    (hf : ∀ e, (f e).worker = e.worker) (w : Nat) :
    ({ cfg with registry := cfg.registry.modify c f } : Config).holds w = cfg.holds w := by
  simp only [Config.holds, Registry.modify_entries, List.countP_map]
  congr 1; funext x
  by_cases hx : x.1 = c <;> simp [hx, hf]

theorem Config.holds_setDegraded (cfg : Config) (c : Collector) (b : Bool) (w : Nat) :
    ((cfg.setDegraded c b).getD cfg).holds w = cfg.holds w := by
  unfold Config.setDegraded
  split_ifs
  · exact Config.holds_modify cfg c (f := fun e => { e with degraded := b }) (fun _ => rfl) w
  · rfl

theorem Config.Degrades.holds {c c' : Config} (h : c.Degrades c') (w : Nat) : c'.holds w = c.holds w := by
  obtain ⟨ops, rfl⟩ := h
  induction ops using List.reverseRecOn with
  | nil => rfl
  | append_singleton ops op ih =>
      rw [List.foldl_append, List.foldl_cons, List.foldl_nil, Config.holds_setDegraded, ih]

theorem Config.holds_collect {cfg cfg' : Config} {c : Collector} {threshold : Nat} {bufsize : Int}
    {v : Nat} (h : cfg.collect c threshold bufsize v = some cfg') (w : Nat) :
    cfg'.holds w = cfg.holds w + if v = w then 1 else 0 := by
  unfold Config.collect at h
  split_ifs at h with hc
  cases h
  simp only [Config.holds, Config.updateThreshold_registry, AList.insert_entries_of_neg hc,
    List.countP_cons]
  by_cases hv : v = w <;> simp [hv]

theorem Config.holds_setLevel (cfg : Config) (c : Collector) (threshold w : Nat) :
    ((cfg.setLevel c threshold).getD cfg).holds w = cfg.holds w := by
  unfold Config.setLevel
  split_ifs
  · exact Config.holds_modify cfg c (f := fun e => { e with threshold }) (fun _ => rfl) w
  · rfl

/-- `dispose` takes out exactly the entry it returns. -/
theorem Config.holds_dispose {cfg cfg' : Config} {c : Collector} {e : Entry}
    (h : cfg.dispose c = some (cfg', e)) (w : Nat) :
    cfg'.holds w + (if e.worker = w then 1 else 0) = cfg.holds w := by
  obtain ⟨e', he', he⟩ := Option.map_eq_some'.1 h
  cases he
  have hc : c ∈ cfg.registry.entries.keys := (AList.lookup_isSome.1 (by rw [he']; rfl))
  obtain ⟨b, l₁, l₂, hl₁, hl, hk⟩ := List.exists_of_kerase hc
  have hb : b = e := by
    have : cfg.registry.entries.dlookup c = some e := he'
    rw [hl, List.dlookup_append, List.dlookup_eq_none.2 hl₁, List.dlookup_cons_eq] at this
    exact Option.some.inj this
  subst hb
  have erased : (cfg.registry.erase c).entries = l₁ ++ l₂ := hk
  simp only [Config.holds, Config.updateThreshold_registry, erased]
  rw [hl]
  by_cases hv : b.worker = w <;> simp [hv, List.countP_append]; omega

@[simp] theorem Config.holds_newConfig (w : Nat) : newConfig.holds w = 0 := rfl

/-! ## Holds for termination -/

/-- The workers of the replaced registry a `terminateAsync` keeps until it
starts the terminators. -/
def G.retiring (w : Nat) : G → Nat
  | .terminateAsync _ (.wait reg) => reg.countP fun e => e.worker = w
  | _ => 0

/-- What holds worker `w` for termination, and the `Terminate`s called on it. -/
def Sys.claims (s : Sys) (w : Nat) : Nat :=
  s.cfg.holds w + (s.gs.map (G.retiring w)).sum + s.trace.countP (Obs.isTerminate w)

/-- Worker `w` is held at most once, and a worker not yet created not at all. -/
structure HoldOk (s : Sys) : Prop where
  once : ∀ w, s.claims w ≤ 1
  fresh : ∀ w, s.workers.length ≤ w → s.claims w = 0

/-- The claims after goroutine `g` moved from `x` to `x'`. -/
theorem Sys.claims_setG {t : Sys} {g : Nat} {x : G} (x' : G) (hg : t.gs[g]? = some x) (w : Nat) :
    (t.setG g x').claims w + x.retiring w = t.claims w + x'.retiring w := by
  have := sum_map_set x' (G.retiring w) hg
  simp only [Sys.claims, Sys.setG]; omega

/-! ## No step raises a claim -/

section Steps

variable {s : Sys} {g : Nat} {ch : Choice}

theorem G.Settling.retiring {x : G} (hx : x.Settling) (w : Nat) : x.retiring w = 0 := by
  cases x <;> first | rfl | exact hx.elim

theorem G.Notice.retiring {x : G} (hx : x.Notice) (w : Nat) : x.retiring w = 0 := by
  cases x <;> first | rfl | exact hx.elim

theorem G.step_retiring {x x' : G} {t : Sys} (h : G.step g s x ch = some (t, x')) (hx : x.Settling)
    (w : Nat) : x'.retiring w = 0 := by
  unfold G.step at h
  split at h
  all_goals first
    | (obtain ⟨r, -, rfl⟩ := Next.toG_inv h; obtain ⟨_, _ | _ | _⟩ := r <;> rfl)
    | exact hx.elim
    | cases h

theorem dispose_degrades {c : Collector} {cause : Nat} {pc : Dispose} {t : Sys} {r : Next Dispose Unit}
    (hpc : pc ≠ .lock) (h : dispose g c cause s pc ch = some (t, r)) : s.cfg.Degrades t.cfg := by
  unfold dispose at h
  split at h
  · exact absurd rfl hpc
  · split at h <;> cases h <;> exact (terminateWorker_frame ‹_›).cfg
  · cases h; exact .refl _
  · split at h <;> cases h <;> exact (loggerSend_frame ‹_›).cfg

theorem G.step_degrades {x x' : G} {t : Sys} (h : G.step g s x ch = some (t, x')) (hx : x.Settling) :
    s.cfg.Degrades t.cfg := by
  unfold G.step at h
  split at h
  · obtain ⟨_, hp, -⟩ := Next.toG_inv h; exact (loggerSend_frame hp).cfg
  · obtain ⟨_, hp, -⟩ := Next.toG_inv h; exact (asyncWorkerRun_frame hp).cfg
  · obtain ⟨_, hp, -⟩ := Next.toG_inv h; exact dispose_degrades (by rintro rfl; exact hx) hp
  · exact hx.elim
  · obtain ⟨_, hp, -⟩ := Next.toG_inv h; exact (terminateWorker_frame hp).cfg
  · exact hx.elim
  · cases h
  · cases h

theorem countP_isTerminate_of_settles {own : Nat → Prop} {closing : Prop} {os : List Obs}
    (h : ∀ o ∈ os, o.isDelivery ∨ ∃ w, own w ∧ (o.isClose w ∧ closing ∨ o.isTerminated w)) (v : Nat) :
    os.countP (Obs.isTerminate v) = 0 :=
  List.countP_eq_zero.2 fun o ho => by
    cases o <;> first
      | exact Bool.false_ne_true
      | rcases h _ ho with h | ⟨w, -, ⟨h, -⟩ | h⟩ <;> simp at h

theorem sum_retiring_notice {xs : List G} (h : ∀ x ∈ xs, x.Notice) (w : Nat) :
    (xs.map (G.retiring w)).sum = 0 :=
  List.sum_eq_zero fun n hn => by
    obtain ⟨y, hy, rfl⟩ := List.mem_map.1 hn
    exact (h y hy).retiring w

/-- A settling step moves no claim. -/
theorem G.step_claims_settling {x x' : G} {t : Sys} (h : G.step g s x ch = some (t, x'))
    (hx : x.Settling) (w : Nat) : t.claims w = s.claims w := by
  obtain ⟨⟨os, et, hos, -⟩, -, -, xs, eg, hxs⟩ := G.step_settles h hx
  simp only [Sys.claims, eg, et, (G.step_degrades h hx).holds, List.countP_append, List.map_append,
    List.sum_append, countP_isTerminate_of_settles hos, sum_retiring_notice hxs]
  omega

/-- `dispose` moves the hold of the entry it removes to the `Terminate` it calls. -/
theorem dispose_lock_claims {c : Collector} {cause : Nat} {t : Sys} {r : Next Dispose Unit}
    (h : dispose g c cause s .lock ch = some (t, r)) (w : Nat) : t.claims w = s.claims w := by
  simp only [dispose] at h
  split_ifs at h
  split at h
  · cases h; rfl
  · rename_i cfg e he
    obtain ⟨_, -, h⟩ := Option.map_eq_some'.1 h
    cases h
    have := Config.holds_dispose he w
    simp only [Sys.claims, Sys.record, List.countP_append, List.countP_cons, List.countP_nil,
      Obs.isTerminate, decide_eq_true_eq]
    split_ifs at this ⊢ <;> omega

/-- `terminateAsync` moves the holds of the registry it replaces to itself, then
to the `Terminate`s it starts. -/
theorem terminateAsync_claims {r : Nat} {pc : TerminateAsync} {t : Sys} {n : Next TerminateAsync Unit}
    (h : terminateAsync g r s pc = some (t, n)) (w : Nat) :
    t.claims w + (Next.toG (.terminateAsync r) (t, n)).2.retiring w =
      s.claims w + (G.terminateAsync r pc).retiring w := by
  unfold terminateAsync at h
  split at h
  · split_ifs at h
    cases h
    have replaced : (G.terminateAsync r (.wait (s.cfg.registry.entries.map (·.2)))).retiring w =
        s.cfg.holds w := by
      simp [G.retiring, Config.holds, List.countP_map, Function.comp_def]
    simp only [Sys.claims, Sys.record, Next.toG, replaced, Config.holds_newConfig, List.countP_append]
    simp [G.retiring]; omega
  · split_ifs at h
    cases h
    rename_i reg _
    obtain ⟨et, eg⟩ := spawnTerminators_eq s reg
    have spawned : (reg.map fun e : Entry => (G.terminator e.worker
        (((s.workers[e.worker]?).map Worker.terminateStart).getD .lock)).retiring w).sum = 0 :=
      List.sum_eq_zero fun n hn => by obtain ⟨_, -, rfl⟩ := List.mem_map.1 hn; rfl
    simp only [Sys.claims, et, eg, (spawnTerminators_frame s reg).cfg.holds, List.countP_append,
      List.countP_map, List.map_append, List.sum_append, List.map_map, Function.comp_def, spawned,
      Next.toG, G.retiring]
    simp [Function.comp_def]; omega
  · split_ifs at h; cases h; rfl
  · cases h; rfl
  · cases h; rfl

/-- Every step of a goroutine keeps the claims, its own position's included. -/
theorem G.step_claims {x x' : G} {t : Sys} (h : G.step g s x ch = some (t, x')) (w : Nat) :
    t.claims w + x'.retiring w = s.claims w + x.retiring w := by
  by_cases hx : x.Settling
  · rw [G.step_claims_settling h hx, G.step_retiring h hx, hx.retiring]
  cases x with
  | dispose c cause pc =>
      cases pc with
      | lock =>
          obtain ⟨r, hp, rfl⟩ := Next.toG_inv h
          rw [dispose_lock_claims hp]
          obtain _ | _ | _ := r <;> rfl
      | _ => exact absurd trivial hx
  | terminateAsync r pc =>
      obtain ⟨n, hp, rfl⟩ := Next.toG_inv h
      exact terminateAsync_claims hp w
  | close r =>
      simp only [G.step] at h
      split at h
      · cases h; simp [Sys.claims, Sys.record, G.retiring]
      · split_ifs at h; cases h; simp [Sys.claims, Sys.record, G.retiring]
  | _ => exact absurd trivial hx

theorem G.step_claims_setG {x x' : G} {t : Sys} (hg : s.gs[g]? = some x)
    (h : G.step g s x ch = some (t, x')) (w : Nat) : (t.setG g x').claims w = s.claims w := by
  obtain ⟨xs, e, -⟩ := (G.step_grows h).gs
  have ht : t.gs[g]? = some x := by
    rw [e, List.getElem?_append_left (List.getElem?_eq_some_iff.1 hg).1, hg]
  have := Sys.claims_setG x' ht w
  have := G.step_claims h w
  omega

/-- A call raises a claim only by `collect`'s new worker. -/
theorem Sys.call_holds {c : Call} {s' : Sys} (h : s.call c = some s') (w : Nat) :
    s'.cfg.holds w = s.cfg.holds w ∨
      (w = s.workers.length ∧ s'.workers.length = w + 1 ∧ s'.cfg.holds w = s.cfg.holds w + 1) := by
  cases c <;> simp only [Sys.call] at h
  case collect threshold bufsize c =>
    split_ifs at h
    split at h <;> cases h
    · rename_i cfg hc
      have added : ({ s with cfg }.addWorker c bufsize).cfg = cfg ∧
          ({ s with cfg }.addWorker c bufsize).workers.length = s.workers.length + 1 := by
        unfold Sys.addWorker; split_ifs <;> simp [Sys.spawn]
      rw [added.1, added.2, Config.holds_collect hc w]
      by_cases hw : s.workers.length = w
      · exact .inr ⟨hw.symm, by rw [hw], by simp [hw]⟩
      · exact .inl (by simp [hw])
    · exact .inl rfl
  case setLevel threshold c => split_ifs at h; cases h; exact .inl (Config.holds_setLevel ..)
  case setFrames => split_ifs at h; cases h; exact .inl rfl
  all_goals cases h; exact .inl rfl

theorem Sys.call_claims {c : Call} {s' : Sys} (h : s.call c = some s') (w : Nat) :
    s'.claims w = s.claims w ∨
      (w = s.workers.length ∧ s'.workers.length = w + 1 ∧ s'.claims w = s.claims w + 1) := by
  obtain ⟨xs, e, hxs⟩ := Sys.call_gs h
  have started : (xs.map (G.retiring w)).sum = 0 :=
    List.sum_eq_zero fun n hn => by
      obtain ⟨y, hy, rfl⟩ := List.mem_map.1 hn
      have := hxs y hy
      cases y <;> first | rfl | exact this.elim | (rename_i pc; cases pc <;> first | rfl | exact this.elim)
  have rest : s'.claims w = s'.cfg.holds w + (s.gs.map (G.retiring w)).sum +
      s.trace.countP (Obs.isTerminate w) := by
    simp [Sys.claims, e, Sys.call_trace h, started]
  rw [rest]
  rcases Sys.call_holds h w with hw | ⟨hw, hl, hw'⟩
  · exact .inl (by rw [hw]; rfl)
  · exact .inr ⟨hw, hl, by rw [hw']; simp only [Sys.claims]; omega⟩

end Steps

/-! ## A worker is terminated at most once -/

theorem holdOk_init : HoldOk Sys.init :=
  ⟨fun _ => by simp [Sys.claims, Sys.init], fun _ _ => by simp [Sys.claims, Sys.init]⟩

theorem holdOk_call {s s' : Sys} {c : Call} (inv : HoldOk s) (h : s.call c = some s') : HoldOk s' := by
  have grows : s.workers.length ≤ s'.workers.length := by
    obtain ⟨ws, e, -⟩ := Sys.call_workers h; simp [e]
  constructor
  · intro w
    rcases Sys.call_claims h w with e | ⟨rfl, -, e⟩
    · rw [e]; exact inv.once w
    · rw [e, inv.fresh _ le_rfl]
  · intro w hw
    rcases Sys.call_claims h w with e | ⟨rfl, hl, -⟩
    · rw [e]; exact inv.fresh w (grows.trans hw)
    · omega

theorem holdOk_run {s t : Sys} {g : Nat} {x x' : G} {ch : Choice} (inv : HoldOk s)
    (hg : s.gs[g]? = some x) (h : G.step g s x ch = some (t, x')) : HoldOk (t.setG g x') := by
  have length : (t.setG g x').workers.length = s.workers.length := (G.step_grows h).workers.length
  refine ⟨fun w => ?_, fun w hw => ?_⟩ <;> rw [G.step_claims_setG hg h]
  exacts [inv.once w, inv.fresh w (length ▸ hw)]

theorem reachable_holdOk {s : Sys} (reach : Reachable s) : HoldOk s :=
  reach.induction holdOk_init (fun _ inv h => holdOk_call inv h) fun _ inv hg h => holdOk_run inv hg h

theorem countP_isTerminate_le_claims (s : Sys) (w : Nat) :
    s.trace.countP (Obs.isTerminate w) ≤ s.claims w := by
  unfold Sys.claims; omega

end Cue
