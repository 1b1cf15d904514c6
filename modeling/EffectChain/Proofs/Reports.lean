import EffectChain.Proofs.DurationText
import EffectChain.Proofs.Loads
import EffectChain.Proofs.Simulation

/-!
# What a run reports

A run that reaches its report loads its modules in order, disables names, and presents frames of a
synthetic scene (`CommandLine.Executes`). Its report says what was executed, line by line
(`CommandLine.Reports`): which effects and techniques run, that the depth buffer of the main view
was selected, how many draws and vertices the last frame had, and for every technique that runs the
duration of its passes, as soon as there was a frame to collect it in. This holds of every run,
whatever modules it loads and whatever it disables (`CommandLine.run_accurate`).
-/

namespace EffectChain.CommandLine

/-! ## What is executed -/

/-- What the application does with its depth buffers in a frame: few large draws into the shadow
map, and a prepass, a clear and the geometry in the depth buffer of the main view. -/
def sceneEvents (o : RunOptions) : List DepthEvent :=
  .bind ⟨2⟩ (.depthBuffer 2048 2048 1) :: List.replicate 4 (.draw 6000)
    ++ .bind ⟨3⟩ (.depthBuffer o.width o.height 1) :: List.replicate 8 (.draw 3000)
    ++ .clear ⟨3⟩ none :: List.replicate 24 (.draw 1500) ++ [.unbind]

/-- A frame of the scene is presented, and the device moves on to the next one. -/
def frame (o : RunOptions) (e : Engine) : Engine :=
  let e := e.present ((sceneEvents o).foldl DepthTracker.step {})
  { e with device := e.device.advanceFrame }

/-- What a run does, up to its report. -/
inductive Executes (files : String → Option Entry) (yaml : Yaml.Library) (o : RunOptions)
    (config : Config) (loads : List Loaded) : Engine → Prop
  /-- The settings are read, the engine is prepared, modules are loaded, names are disabled, and
  frames are presented. -/
  | intro {start loaded : Engine} : (o.config = none → config = {}) →
    (∀ path, o.config = some path → Config.load (files path) yaml = .ok config) →
    Starts o config start → Loads files yaml start loads loaded →
    loads.map (·.path) = o.modules →
    Executes files yaml o config loads ((frame o)^[o.frames.toNat] { loaded with
      techniques := loaded.techniques.map fun t ↦
        if t.name ∈ o.disabled then { t with enabled := false } else t })

/-- The declared techniques that run: those that are enabled, are not disabled by name, and belong
to an active effect. -/
def running (o : RunOptions) (loads : List Loaded) : List TechniqueDecl :=
  ((loads.flatMap Loaded.techniques).filter fun x ↦
    x.1.enabled && x.2 && x.1.name ∉ o.disabled).map (·.1)

def passCount (o : RunOptions) (loads : List Loaded) : ℕ :=
  ((running o loads).map (·.passes.length)).sum

/-- The number of vertices of these passes. -/
def vertexCount (o : RunOptions) (loads : List Loaded) : ℕ :=
  ((running o loads).map fun d ↦ (d.passes.map (·.vertexCount.toNat)).sum).sum

/-- The ticks of all passes, a thousand for each, fit the clock of the device. -/
def Timely (o : RunOptions) (loads : List Loaded) : Prop :=
  o.frames.toNat * (passCount o loads * 1000) < 2 ^ 64

/-! ## What is reported -/

/-- What is said of a technique. -/
inductive Status (o : RunOptions) (timely : Prop) (d : TechniqueDecl) (active : Bool) :
    String → Prop
  /-- It is not enabled, or was disabled. -/
  | disabled : d.enabled = false ∨ d.name ∈ o.disabled → Status o timely d active "disabled"
  /-- Its effect is not active. -/
  | inactive : d.enabled = true → d.name ∉ o.disabled → active = false →
    Status o timely d active "inactive"
  /-- It runs, and the duration of its passes was measured: 100 microseconds for each, except that
  nothing was measured yet after the first frame. -/
  | measured {n : UInt64} : d.enabled = true → d.name ∉ o.disabled → active = true →
    (timely → 100000 * d.passes.length < 2 ^ 64 →
      n.toNat = if o.frames = 1 then 0 else 100000 * d.passes.length) →
    (timely → 100000 * d.passes.length < 2 ^ 53 →
      durationText n = passesText (if o.frames = 1 then 0 else d.passes.length)) →
    Status o timely d active (durationText n)

def IsTechniqueLine (o : RunOptions) (timely : Prop) (x : TechniqueDecl × Bool) (line : String) :
    Prop :=
  ∃ status, Status o timely x.1 x.2 status ∧
    line = "  " ++ x.1.name ++ String.ofList (List.replicate (24 - x.1.name.length) ' ') ++ " "
      ++ toString x.1.passes.length ++ " pass(es)  " ++ status

/-- What a run says of what was executed. -/
structure Reports (o : RunOptions) (config : Config) (loads : List Loaded) (verbose : Bool)
    (outcome : Outcome) : Prop where
  /-- It complains of the modules that were not loaded with success. -/
  errors : outcome.errors
    = String.join ((loads.filterMap Loaded.complaint?).map (· ++ "\n"))
  /-- It lists the effects and the techniques, the selected depth buffer and the statistics. -/
  output : ∃ techniques textures objects : List String,
    List.Forall₂ (IsTechniqueLine o (Timely o loads)) (loads.flatMap Loaded.techniques) techniques ∧
    (verbose = false → textures = []) ∧
    outcome.output = String.join ((
      ["Resolution: " ++ toString o.width.toNat ++ "x" ++ toString o.height.toNat, "Effects:"]
      ++ loads.map (fun l ↦
        "  " ++ l.module.name ++ (if l.isActive then " (active)" else " (failed)"))
      ++ ["Techniques:"] ++ techniques ++ textures
      ++ ["Depth buffer: scene depth (#3)"
          ++ (if config.depth.preserve then ", snapshot at clear 1" else ""),
        "Scene stats: " ++ toString (min (36 + passCount o loads) (2 ^ 32 - 1)) ++ " draw calls, "
          ++ toString (min (84000 + vertexCount o loads) (2 ^ 32 - 1)) ++ " vertices"]
      ++ objects).map (· ++ "\n"))

/-! ## Running techniques -/

variable {files : String → Option Entry} {yaml : Yaml.Library} {o : RunOptions} {config : Config}
  {loads : List Loaded} {e : Engine}

theorem Shown.map_passes_running (h : Shown o.disabled loads e) :
    e.running.map (·.passes) = (running o loads).map (·.passes) := by
  rw [Engine.running, running, List.map_map]
  have htechniques := h.techniques
  generalize loads.flatMap Loaded.techniques = declared at htechniques ⊢
  generalize e.techniques = techniques at htechniques ⊢
  induction htechniques with
  | nil => rfl
  | @cons x t _ _ hx _ ih =>
    have hsame : (t.enabled && t.isActive) = (x.1.enabled && x.2 && x.1.name ∉ o.disabled) := by
      rw [Bool.eq_iff_iff]
      simp only [Bool.and_eq_true, hx.enabled, hx.active, decide_eq_true_eq]
      tauto
    rw [List.filter_cons, List.filter_cons, hsame]
    split
    · rw [List.map_cons, List.map_cons, ih, hx.passes]
      rfl
    · exact ih

theorem Shown.passCount_eq (h : Shown o.disabled loads e) : e.passCount = passCount o loads := by
  have hlengths := congrArg (List.map List.length) h.map_passes_running
  rw [List.map_map, List.map_map] at hlengths
  exact congrArg List.sum hlengths

theorem Shown.vertexCounts_eq (h : Shown o.disabled loads e) :
    (e.running.map fun t ↦ (t.passes.map (·.vertexCount.toNat)).sum).sum = vertexCount o loads := by
  have hcounts := congrArg (List.map fun passes ↦ (passes.map (·.vertexCount.toNat)).sum)
    h.map_passes_running
  rw [List.map_map, List.map_map] at hcounts
  exact congrArg List.sum hcounts

/-! ## Lines -/

theorem map_effectLine {disabled : List String} (h : Shown disabled loads e) :
    (e.effects.filterMap id).map effectLine = loads.map fun l ↦
      "  " ++ l.module.name ++ (if l.isActive then " (active)" else " (failed)") := by
  obtain ⟨heffects, -⟩ := h
  generalize e.effects = effects at heffects ⊢
  induction heffects with
  | nil => rfl
  | cons hfirst _ ih =>
    obtain ⟨x, rfl, hname, hactive⟩ := hfirst
    change effectLine x :: (List.filterMap id _).map effectLine = _
    rw [ih, effectLine, hname, hactive]
    rfl

/-- What is said of a technique, if it has the samples of all frames but the first. -/
theorem isTechniqueLine {timely : Prop} {x : TechniqueDecl × Bool} {t : Technique}
    (h : t.Shows o.disabled x)
    (hsampled : timely → t.enabled = true → t.isActive = true → t.duration.get
      = if o.frames = 1 then 0 else UInt64.ofNat (100000 * t.passes.length)) :
    IsTechniqueLine o timely x (techniqueLine t) := by
  rw [techniqueLine, h.name, h.passes]
  refine ⟨_, ?_, rfl⟩
  rcases henabled : t.enabled with _ | _
  · refine .disabled ?_
    have hnot := mt h.enabled.mpr (by simp [henabled])
    by_cases hdeclared : x.1.enabled = true
    · exact Or.inr (not_not.mp fun hname ↦ hnot ⟨hdeclared, hname⟩)
    · exact Or.inl (Bool.eq_false_iff.mpr hdeclared)
  · obtain ⟨hdeclared, hname⟩ := h.enabled.mp henabled
    rcases hactive : t.isActive with _ | _
    · exact .inactive hdeclared hname (h.active ▸ hactive)
    · refine .measured hdeclared hname (h.active ▸ hactive) ?_ ?_
      · intro htimely hfits
        rw [hsampled htimely henabled hactive, h.passes]
        split
        · rfl
        · exact UInt64.toNat_ofNat_of_lt' hfits
      · intro htimely hfits
        rw [hsampled htimely henabled hactive, h.passes]
        split
        · exact durationText_passes (by decide) rfl
        · exact durationText_passes hfits (UInt64.toNat_ofNat_of_lt' (hfits.trans (by decide)))

theorem selectionLine_mainScene (o : RunOptions) (preserve : Bool) :
    selectionLine (mainScene o) (some ⟨⟨3⟩, ⟨3⟩, if preserve then some 1 else none⟩)
      = "Depth buffer: scene depth (#3)" ++ (if preserve then ", snapshot at clear 1" else "") := by
  rcases preserve with _ | _ <;> rfl

/-! ## Frames -/

theorem tracker_mainScene (o : RunOptions) :
    (mainScene o).tracker = (sceneEvents o).foldl DepthTracker.step {} := by
  have hdraws (count : ℕ) (vertices : UInt32) (t : DepthTracker) :
      DemoScene.draws count vertices t
        = (List.replicate count (.draw vertices)).foldl DepthTracker.step t := by
    rw [DemoScene.draws, ← List.map_replicate, List.foldl_map]
    rfl
  rw [sceneEvents, DemoScene.tracker]
  simp only [List.cons_append, List.foldl_cons, List.foldl_append, ← hdraws]
  rfl

theorem presentFrames_eq (o : RunOptions) (frames : ℕ) (e : Engine) :
    presentFrames (mainScene o).tracker frames e = (frame o)^[frames] e := by
  induction frames with
  | zero => rfl
  | succ frames ih =>
    rw [Function.iterate_succ_apply', ← ih, tracker_mainScene]
    rfl

theorem exists_reportLines (e : Engine) (scene : DemoScene) (verbose : Bool) :
    ∃ textures objects : List String, (verbose = false → textures = []) ∧
      reportLines e scene verbose =
        ["Resolution: " ++ wordText e.resolution.1 ++ "x" ++ wordText e.resolution.2, "Effects:"]
        ++ (e.effects.filterMap id).map effectLine
        ++ ["Techniques:"] ++ e.techniques.map techniqueLine ++ textures
        ++ [selectionLine scene e.selection,
          "Scene stats: " ++ wordText e.stats.drawCalls ++ " draw calls, "
            ++ wordText e.stats.vertices ++ " vertices"] ++ objects := by
  refine ⟨if verbose then "Textures:" :: e.textures.map tableTextureLine else [], ?objects, ?quiet,
    ?lines⟩
  case quiet =>
    rintro rfl
    rfl
  case lines =>
    rw [reportLines]
    simp only [List.append_assoc, List.cons_append, List.nil_append]
    rfl

theorem counts_presentFrames (h : Prepared o config e) (hshown : Shown o.disabled loads e)
    {frames : Nat} (hframes : frames ≠ 0) :
    let stats := (presentFrames (mainScene o).tracker frames e).stats
    stats.drawCalls.toNat = min (36 + passCount o loads) (2 ^ 32 - 1) ∧
      stats.vertices.toNat = min (84000 + vertexCount o loads) (2 ^ 32 - 1) := by
  have hstats := stats_presentFrames h (mainScene o).tracker hframes
  have htotal : (mainScene o).tracker.total = ⟨84000, 36⟩ := by
    rw [DemoScene.tracker_eq (Nat.lt_succ_self 2)]
  rw [htotal] at hstats
  have hshown := hshown.presentFrames (mainScene o).tracker frames
  intro stats
  constructor
  · change (presentFrames _ _ _).stats.drawCalls.toNat = _
    rw [hstats, DrawStats.drawCalls_foldl_record, List.length_flatMap, ← hshown.passCount_eq]
    simp only [List.length_map]
    rfl
  · change (presentFrames _ _ _).stats.vertices.toNat = _
    rw [hstats, DrawStats.vertices_foldl_record, List.map_flatMap, List.flatMap_def,
      List.sum_flatten, List.map_map, ← hshown.vertexCounts_eq]
    simp only [Function.comp_def, List.map_map]
    rfl

theorem techniqueLines_presentFrames (h : Prepared o config e) (hshown : Shown o.disabled loads e)
    (hframes : o.frames ≠ 0) :
    List.Forall₂ (IsTechniqueLine o (Timely o loads)) (loads.flatMap Loaded.techniques)
      ((presentFrames (mainScene o).tracker o.frames.toNat e).techniques.map techniqueLine) := by
  have hpositive : o.frames.toNat ≠ 0 := fun hzero ↦ hframes (UInt32.toNat_inj.mp hzero)
  have hone : o.frames.toNat = 1 ↔ o.frames = 1 := UInt32.toNat_inj (b := 1)
  have hsampled := sampled_of_passCount h (mainScene o).tracker o.frames.toNat
  have hshown := hshown.presentFrames (mainScene o).tracker o.frames.toNat
  obtain ⟨-, -, -, -, htiming, -⟩ :=
    presented_presentFrames h (mainScene o).tracker o.frames.toNat
  rw [List.forall₂_map_right_iff]
  refine ((List.forall₂_and_left _ _).mpr ⟨fun t ht ↦ ht, hshown.techniques.flip⟩).flip.imp ?_
  rintro x t ⟨ht, hx⟩
  refine isTechniqueLine hx ?_
  intro htimely henabled hactive
  rw [Timely, ← hshown.passCount_eq] at htimely
  have hrunning : t ∈ (presentFrames (mainScene o).tracker o.frames.toNat e).running :=
    List.mem_filter.mpr ⟨ht, by rw [henabled, hactive]; rfl⟩
  rw [((hsampled htimely).2 t hrunning).get hpositive, htiming, sample_default]
  simp only [hone]

/-- **Frames of the scene are reported as they were presented.** -/
theorem reports_presentFrames (h : Prepared o config e) (hshown : Shown o.disabled loads e)
    (hwidth : o.width ≠ 0) (hheight : o.height ≠ 0) (hframes : o.frames ≠ 0) (verbose : Bool) :
    Reports o config loads verbose {
      output := joinLines (reportLines (presentFrames (mainScene o).tracker o.frames.toNat e)
        (mainScene o) verbose)
      errors := joinLines (loads.filterMap Loaded.complaint?) } := by
  have hpositive : o.frames.toNat ≠ 0 := fun hzero ↦ hframes (UInt32.toNat_inj.mp hzero)
  have hlines := techniqueLines_presentFrames h hshown hframes
  obtain ⟨hdrawCalls, hvertices⟩ := counts_presentFrames h hshown hpositive
  have hselection := selection_presentFrames h hwidth hheight hpositive
  have hshown := hshown.presentFrames (mainScene o).tracker o.frames.toNat
  obtain ⟨-, hbackbuffer, -⟩ := presented_presentFrames h (mainScene o).tracker o.frames.toNat
  obtain ⟨-, ⟨b, hb, hbwidth, hbheight⟩, -⟩ := h
  generalize presentFrames (mainScene o).tracker o.frames.toNat e = e'
    at hlines hdrawCalls hvertices hselection hshown hbackbuffer ⊢
  have hresolution : e'.resolution = (o.width, o.height) := by
    rw [Engine.resolution, hbackbuffer, hb, Option.elim_some, hbwidth, hbheight]
  obtain ⟨textures, objects, htextures, hreport⟩ := exists_reportLines e' (mainScene o) verbose
  refine ⟨rfl, e'.techniques.map techniqueLine, textures, objects, hlines, htextures, ?_⟩
  rw [hreport, hresolution, map_effectLine hshown, hselection, selectionLine_mainScene]
  simp only [wordText, hdrawCalls, hvertices]
  rfl

/-! ## Runs -/

theorem readConfig_eq_ok {path? : Option String} (h : readConfig files yaml path? = .ok config) :
    (path? = none → config = {}) ∧
      ∀ path, path? = some path → Config.load (files path) yaml = .ok config := by
  rcases path? with _ | path
  · cases h
    exact ⟨fun _ ↦ rfl, nofun⟩
  · refine ⟨nofun, ?_⟩
    intro _ hpath
    cases hpath
    rw [readConfig] at h
    rcases hload : Config.load (files path) yaml with cause | config' <;> rw [hload] at h <;>
      cases h
    rfl

/-- **Reports are accurate.** Every run that succeeds executes what it is asked to, and reports what
it executed. If the ticks of all passes fit the clock, then that is what the clock counted. -/
theorem run_accurate {verbose : Bool} (hsamples : o.samples = 1) (hframes : o.frames ≠ 0)
    (hcode : (run files verbose o yaml).code = 0) :
    ∃ config loads e, Executes files yaml o config loads e ∧
      Reports o config loads verbose (run files verbose o yaml) ∧
      (Timely o loads → e.device.clock.toNat = o.frames.toNat * (passCount o loads * 1000)) := by
  rw [run] at hcode ⊢
  split at hcode
  · cases hcode
  rename_i hsize
  rw [if_neg hsize]
  rw [not_or] at hsize
  rcases hconfig : readConfig files yaml o.config with failure | config <;> rw [hconfig] at hcode
  · cases hcode
  dsimp only [Except.bind] at hcode ⊢
  rcases hprepare : prepareEngine o config with failure | ⟨start, scene⟩ <;>
    rw [hprepare] at hcode
  · cases hcode
  dsimp only at hcode ⊢
  rcases hmodules : loadModules files yaml start o.modules with ⟨lines, failure | loaded⟩ <;>
    rw [hmodules] at hcode
  · cases hcode
  obtain ⟨hstarts, hprepared, rfl⟩ := prepareEngine_eq_ok hsamples hprepare
  obtain ⟨loads, hloads, hpaths, rfl⟩ := exists_loads hmodules
  obtain ⟨hloaded, hshown⟩ := hloads.prepared_shown hprepared hstarts.shown
  rw [List.nil_append] at hshown
  have hready := prepared_disableAll hloaded o.disabled
  have hready' := hshown.disableAll o.disabled
  obtain ⟨hnone, hsome⟩ := readConfig_eq_ok hconfig
  refine ⟨config, loads, _, .intro hnone hsome hstarts hloads hpaths,
    reports_presentFrames hready hready' hsize.1 hsize.2 hframes verbose, fun htimely ↦ ?_⟩
  rw [← disableAll_eq, ← presentFrames_eq]
  have hpasses := (hready'.presentFrames (mainScene o).tracker o.frames.toNat).passCount_eq
  rw [Timely, ← hpasses] at htimely
  rw [← hpasses]
  exact (sampled_of_passCount hready (mainScene o).tracker o.frames.toNat htimely).1

/-- A module file with one technique of one pass. -/
def smallFile : Entry :=
  .file (String.toUTF8 (
    "name: a\n"
    ++ "entry_points: [\x7bname: v, stage: vertex, bytecode: [1]\x7d, "
    ++ "\x7bname: p, stage: pixel, bytecode: [1]\x7d]\n"
    ++ "techniques: [\x7bname: t, passes: [\x7bvs_entry_point: v, ps_entry_point: p\x7d]\x7d]\n"))

/-- Two frames of that technique. -/
theorem run_accurate_small :
    let files : String → Option Entry := fun _ ↦ some smallFile
    let o : RunOptions := { modules := ["a.yaml"], frames := 2, width := 4, height := 4 }
    (run files false o).code = 0 ∧
    (run files false o).output = "Resolution: 4x4\nEffects:\n  a (active)\nTechniques:\n"
      ++ "  t                        1 pass(es)  100.0 us\nDepth buffer: scene depth (#3)\n"
      ++ "Scene stats: 37 draw calls, 84003 vertices\n"
      ++ "State objects: 0 samplers, 1 blend, 1 depth-stencil\n" ∧
    ∃ config loads e, Executes files .builtin o config loads e ∧
      Reports o config loads false (run files false o) ∧
      (Timely o loads → e.device.clock.toNat = o.frames.toNat * (passCount o loads * 1000)) := by
  intro files o
  have hrun : run files false o = {
      output := "Resolution: 4x4\nEffects:\n  a (active)\nTechniques:\n"
        ++ "  t                        1 pass(es)  100.0 us\nDepth buffer: scene depth (#3)\n"
        ++ "Scene stats: 37 draw calls, 84003 vertices\n"
        ++ "State objects: 0 samplers, 1 blend, 1 depth-stencil\n" } := by decide +kernel
  have hcode : (run files false o).code = 0 := by rw [hrun]
  exact ⟨hcode, by rw [hrun], run_accurate rfl (by decide) hcode⟩

end EffectChain.CommandLine
