import EffectChain.Proofs.Preparation

/-!
# Modules that a run loads

A run loads its modules one after the other (`Loads`), whether each can be activated or not. What
the tables hold afterwards can be read off the modules and the outcomes (`Shown`): one effect for
each module, which is active if it was loaded with success, and the techniques that the modules
declare, in order, which are active if their effects are. To disable names and to present frames
changes nothing of this but which techniques are enabled.
-/

namespace EffectChain

theorem exists_append_of_forall₂ {α β : Type} {R : α → β → Prop} {l₁ l₂ : List α} {l : List β}
    (h : List.Forall₂ R (l₁ ++ l₂) l) :
    ∃ l₁' l₂', l = l₁' ++ l₂' ∧ List.Forall₂ R l₁ l₁' ∧ List.Forall₂ R l₂ l₂' := by
  induction l₁ generalizing l with
  | nil => exact ⟨[], l, rfl, .nil, h⟩
  | cons a l₁ ih =>
    rcases h with _ | ⟨hfirst, hrest⟩
    obtain ⟨l₁', l₂', rfl, h₁, h₂⟩ := ih hrest
    exact ⟨_ :: l₁', l₂', rfl, .cons hfirst h₁, h₂⟩

/-! ## What loading appends -/

/-- A technique of the table is a declared one, of an effect that is active or not, except that it
may be disabled by its name. -/
structure Technique.Shows (t : Technique) (disabled : List String) (x : TechniqueDecl × Bool) :
    Prop where
  name : t.name = x.1.name
  passes : t.passes = x.1.passes
  enabled : t.enabled = true ↔ x.1.enabled = true ∧ x.1.name ∉ disabled
  active : t.isActive = x.2

theorem Technique.Shows.measures {disabled : List String} {x : TechniqueDecl × Bool}
    {t t' : Technique} (h : t.Shows disabled x) (hmeasures : t.Measures t') :
    t'.Shows disabled x := by
  rcases hmeasures with _ | ⟨hstate, -⟩
  · exact h
  · refine ⟨h.name, h.passes, h.enabled, ?_⟩
    rw [← h.active, isActive, isActive, hstate]
    rfl

namespace Engine

variable {e : Engine}

/-- The effect that was registered last has objects if it could be activated. -/
theorem effects_activate {x : Effect} {effects : List (Option Effect)}
    (heffects : e.effects = effects ++ [some x]) (hnone : x.objects = none) :
    ∃ x', (e.activate effects.length).2.effects = effects ++ [some x'] ∧ x'.module = x.module ∧
      x'.isActive = (e.activate effects.length).1.isOk := by
  have hx : e.effect? effects.length = some x := by
    rw [effect?, heffects, List.getElem?_concat_length]
    rfl
  rw [activate, hx]
  have hrun := e.build_run effects.length x
  dsimp only
  rcases houtcome : e.build effects.length x with ⟨cause | _, e'⟩ <;> rw [houtcome] at hrun <;>
    dsimp only at hrun ⊢
  · refine ⟨{ x with failure := some cause }, ?_, rfl, ?_⟩
    · rw [hrun.tables_eq.1, heffects]
      simp [List.modify_eq_set_getElem?]
    · rw [Effect.isActive, hnone]
      rfl
  · cases hrun with
    | @built _ _ _ objects =>
      refine ⟨{ x with failure := none, objects := some objects }, ?_, rfl, rfl⟩
      rw [setEffect]
      dsimp only
      rw [heffects]
      simp [List.modify_eq_set_getElem?]

/-- **What loading appends to the tables**: one effect, and the techniques of the module. All of
them are active if the module was loaded with success, and else none. -/
theorem load_appends (htables : e.Tables) (hb : e.backbuffer.isSome) (m : EffectModule) :
    (∃ x, (e.load m).2.effects = e.effects ++ [some x] ∧ x.module = m.reserveSlots ∧
      x.isActive = (e.load m).1.isOk) ∧
    ∃ ts, (e.load m).2.techniques = e.techniques ++ ts ∧
      List.Forall₂ (fun x t ↦ t.Shows [] x)
        (m.techniques.map fun d ↦ (d, (e.load m).1.isOk)) ts := by
  obtain ⟨-, hrun⟩ := (e.load_cases m).resolve_left fun h ↦ by simp [h.1] at hb
  have houtcome : (e.load m).1.isOk
      = ((e.register m.reserveSlots).activate e.effects.length).1.isOk := by
    rw [hrun]
    rcases ((e.register m.reserveSlots).activate e.effects.length).1 with _ | _ <;> rfl
  rw [houtcome, hrun]
  dsimp only
  obtain ⟨x, hx, hmodule, hactive⟩ := (e.register m.reserveSlots).effects_activate
    (x := { module := m.reserveSlots, uniforms := m.reserveSlots.uniformData }) rfl rfl
  refine ⟨⟨x, hx, hmodule, hactive⟩, ?_⟩
  have hx' : ((e.register m.reserveSlots).activate e.effects.length).2.effect? e.effects.length
      = some x := by
    rw [effect?, hx, List.getElem?_concat_length]
    rfl
  rw [← hactive]
  cases activated (htables.registered m.reserveSlots).assets (e.effect?_register m.reserveSlots)
    with
  | failed cause _ heffects htechniques =>
    rw [heffects, if_pos rfl] at hx'
    cases hx'
    refine ⟨_, htechniques, ?_⟩
    rw [List.forall₂_map_left_iff, List.forall₂_map_right_iff]
    exact List.forall₂_same.mpr fun d _ ↦ ⟨rfl, rfl, by simp [Technique.ofDecl], rfl⟩
  | built objects _ _ heffects htechniques =>
    rw [heffects, if_pos rfl] at hx'
    cases hx'
    obtain ⟨old, new, hsplit, hold, hnew⟩ := exists_append_of_forall₂ htechniques
    have hsame : List.Forall₂ Eq e.techniques old := by
      -- the earlier techniques belong to effects with smaller indices
      refine ((List.forall₂_and_left _ _).mpr ⟨fun t ht ↦ htables.effect_lt ht, hold⟩).imp ?_
      rintro t t' ⟨hlt, ⟨hindex, -⟩ | ⟨-, rfl⟩⟩
      · exact absurd hindex (Nat.ne_of_lt hlt)
      · rfl
    rw [List.forall₂_eq_eq_eq] at hsame
    refine ⟨new, hsame ▸ hsplit, ?_⟩
    rw [List.forall₂_map_left_iff] at hnew ⊢
    refine hnew.imp ?_
    rintro d t (⟨-, state, rfl⟩ | ⟨hne, -⟩)
    · exact ⟨rfl, rfl, by simp [Technique.ofDecl], rfl⟩
    · exact absurd rfl hne

end Engine

/-! ## Modules in order -/

namespace CommandLine

/-- A module file that a run loaded. -/
structure Loaded where
  /-- The file. -/
  path : String
  /-- What was read from it. -/
  module : EffectModule
  /-- What came of loading it: the index of its effect, or why the effect is not active. -/
  outcome : Except EngineError Nat

namespace Loaded

def isActive (l : Loaded) : Bool := l.outcome.isOk

/-- The techniques of the module, with whether their effect is active. -/
def techniques (l : Loaded) : List (TechniqueDecl × Bool) :=
  l.module.techniques.map fun d ↦ (d, l.isActive)

/-- What is said if it was not loaded with success. -/
def complaint? (l : Loaded) : Option String :=
  match l.outcome with
  | .ok _ => none
  | .error cause => some (l.path ++ ": " ++ cause.message)

end Loaded

/-- Module files are read and loaded into an engine, in order. -/
inductive Loads (files : String → Option Entry) (yaml : Yaml.Library) :
    Engine → List Loaded → Engine → Prop
  /-- There are none. -/
  | nil {e : Engine} : Loads files yaml e [] e
  /-- There is one, and there are others. -/
  | cons {e e' e'' : Engine} {path : String} {m : EffectModule} {outcome : Except EngineError Nat}
    {rest : List Loaded} :
    EffectModule.load path (files path) (EffectModule.read yaml) = .ok m →
    e.load m = (outcome, e') → Loads files yaml e' rest e'' →
    Loads files yaml e (⟨path, m, outcome⟩ :: rest) e''

/-- What the tables hold of modules that were loaded, after names were disabled. -/
structure Shown (disabled : List String) (loads : List Loaded) (e : Engine) : Prop where
  /-- There is an effect for each module. -/
  effects : List.Forall₂ (fun l slot ↦ ∃ x : Effect, slot = some x ∧
    x.module.name = l.module.name ∧ x.isActive = l.isActive) loads e.effects
  /-- There are the techniques of all modules. -/
  techniques : List.Forall₂ (fun x (t : Technique) ↦ t.Shows disabled x)
    (loads.flatMap Loaded.techniques) e.techniques

variable {files : String → Option Entry} {yaml : Yaml.Library} {o : RunOptions} {config : Config}
  {e e' : Engine} {loads : List Loaded}

theorem Starts.shown (h : Starts o config e) : Shown [] [] e := by
  rcases h with ⟨-, -, -, hinit⟩
  rcases Engine.init_cases _ _ with ⟨cause, d, -, hcase⟩ | ⟨b, d, -, hcase⟩ <;>
    rw [hinit] at hcase <;> cases hcase
  exact ⟨.nil, .nil⟩

theorem Shown.load {before : List Loaded} (h : Shown [] before e) (hprepared : Prepared o config e)
    (path : String) (m : EffectModule) :
    Shown [] (before ++ [⟨path, m, (e.load m).1⟩]) (e.load m).2 := by
  obtain ⟨⟨host, hfresh⟩, ⟨b, hb, -⟩, -⟩ := hprepared
  obtain ⟨⟨x, heffects, hmodule, hactive⟩, ts, htechniques, hts⟩ :=
    Engine.load_appends hfresh.reachable.tables (by rw [hb]; rfl) m
  constructor
  · rw [heffects]
    refine List.rel_append h.effects (.cons ⟨x, rfl, ?_, hactive⟩ .nil)
    rw [hmodule]
    rfl
  · rw [htechniques, List.flatMap_append, List.flatMap_singleton]
    exact List.rel_append h.techniques hts

/-- **Loading modules in order** leaves the engine prepared, and the tables show all of them. -/
theorem Loads.prepared_shown (h : Loads files yaml e loads e') {before : List Loaded}
    (hprepared : Prepared o config e) (hshown : Shown [] before e) :
    Prepared o config e' ∧ Shown [] (before ++ loads) e' := by
  induction h generalizing before with
  | nil =>
    rw [List.append_nil]
    exact ⟨hprepared, hshown⟩
  | @cons e e' e'' path m outcome rest _ hload _ ih =>
    have hnext := hshown.load hprepared path m
    have hready := hprepared.load m
    rw [hload] at hnext hready
    rw [List.append_cons]
    exact ih hready hnext

/-- What the program loads is loaded in order, and it complains of what it cannot activate. -/
theorem exists_loads {modules lines : List String}
    (run : loadModules files yaml e modules = (lines, .ok e')) :
    ∃ loads, Loads files yaml e loads e' ∧ loads.map (·.path) = modules ∧
      lines = loads.filterMap Loaded.complaint? := by
  induction modules generalizing e lines with
  | nil =>
    cases run
    exact ⟨[], .nil, rfl, rfl⟩
  | cons path rest ih =>
    rw [loadModules] at run
    rcases hread : EffectModule.load path (files path) (EffectModule.read yaml) with cause | m <;>
      rw [hread] at run
    · cases run
    dsimp only at run
    rcases hload : e.load m with ⟨outcome, e₁⟩
    rw [hload] at run
    dsimp only at run
    rcases hrest : loadModules files yaml e₁ rest with ⟨lines', result⟩
    rw [hrest] at run
    rcases outcome with cause | index <;> cases run
    all_goals
      obtain ⟨loads, hloads, hpaths, hlines⟩ := ih hrest
      refine ⟨_, .cons hread hload hloads, congrArg (path :: ·) hpaths, ?_⟩
      rw [hlines]
      rfl

/-! ## Names that are disabled -/

/-- **Names are disabled** by disabling every technique that has one of them. -/
theorem disableAll_eq (e : Engine) (names : List String) :
    disableAll e names = { e with
      techniques := e.techniques.map fun t ↦
        if t.name ∈ names then { t with enabled := false } else t } := by
  induction names generalizing e with
  | nil => simp [disableAll]
  | cons name rest ih =>
    change disableAll (e.setEnabled name false).2 rest = _
    rw [ih, Engine.setEnabled]
    dsimp only
    rw [List.map_map]
    congr 1
    refine List.map_congr_left fun t _ ↦ ?_
    by_cases hname : t.name = name <;> by_cases hrest : t.name ∈ rest <;> simp [hname, hrest]

theorem prepared_disableAll (h : Prepared o config e) (names : List String) :
    Prepared o config (disableAll e names) := by
  induction names generalizing e with
  | nil => exact h
  | cons name rest ih => exact ih (h.setEnabled name false)

theorem Shown.disableAll (h : Shown [] loads e) (names : List String) :
    Shown names loads (disableAll e names) := by
  rw [disableAll_eq]
  refine ⟨h.effects, ?_⟩
  rw [List.forall₂_map_right_iff]
  refine h.techniques.imp ?_
  rintro x t ⟨hname, hpasses, henabled, hactive⟩
  by_cases hdisabled : t.name ∈ names
  · rw [if_pos hdisabled]
    refine ⟨hname, hpasses, ?_, hactive⟩
    exact iff_of_false Bool.false_ne_true fun h ↦ h.2 (hname ▸ hdisabled)
  · rw [if_neg hdisabled]
    refine ⟨hname, hpasses, ?_, hactive⟩
    rw [henabled, ← hname]
    simp [hdisabled]

/-! ## Frames -/

theorem Shown.presentFrames {disabled : List String} (h : Shown disabled loads e)
    (tracker : DepthTracker) (frames : Nat) :
    Shown disabled loads (presentFrames tracker frames e) := by
  induction frames with
  | zero => exact h
  | succ frames ih =>
    change Shown disabled loads (presentFrame tracker (CommandLine.presentFrames tracker frames e))
    generalize CommandLine.presentFrames tracker frames e = e' at ih ⊢
    rw [presentFrame]
    rcases hb : e'.backbuffer with _ | b
    · rw [Engine.present, hb]
      exact ⟨ih.effects, ih.techniques⟩
    · obtain ⟨techniques, cs, -, hmeasures, hpresent⟩ := Engine.present_eq hb tracker
      rw [hpresent]
      exact ⟨ih.effects, forall₂_trans ih.techniques hmeasures .measures⟩

end CommandLine

end EffectChain
