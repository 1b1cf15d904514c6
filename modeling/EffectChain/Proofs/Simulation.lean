import EffectChain.Proofs.Frame.Pipeline
import EffectChain.Proofs.Preparation
import EffectChain.Proofs.Selection

/-!
# Frames of a synthetic scene

A run presents frames of the same scene. No frame changes which techniques run, or with which
passes, so what the engine says after the last one can be told from the engine it speaks of: the
statistics are those of the scene and of the passes that run (`CommandLine.stats_presentFrames`),
the depth buffer of the main view is selected (`CommandLine.selection_presentFrames`), and every
technique that runs has the samples of all frames but the first, as long as the clock does not
overflow (`CommandLine.sampled_of_passCount`).
-/

namespace EffectChain

/-! ## Statistics -/

namespace DrawStats

theorem drawCalls_foldl_record (s : DrawStats) (vertices : List UInt32) :
    (vertices.foldl record s).drawCalls.toNat
      = min (s.drawCalls.toNat + vertices.length) (UInt32.size - 1) := by
  induction vertices generalizing s with
  | nil =>
    have hlt := s.drawCalls.toNat_lt
    rw [List.foldl_nil, List.length_nil, UInt32.size]
    omega
  | cons v rest ih =>
    rw [List.foldl_cons, ih, record, toNat_satAdd, List.length_cons, UInt32.size, UInt32.toNat_one]
    omega

theorem vertices_foldl_record (s : DrawStats) (vertices : List UInt32) :
    (vertices.foldl record s).vertices.toNat
      = min (s.vertices.toNat + (vertices.map UInt32.toNat).sum) (UInt32.size - 1) := by
  induction vertices generalizing s with
  | nil =>
    have hlt := s.vertices.toNat_lt
    rw [List.foldl_nil, List.map_nil, List.sum_nil, UInt32.size]
    omega
  | cons v rest ih =>
    rw [List.foldl_cons, ih, record, toNat_satAdd, List.map_cons, List.sum_cons, UInt32.size]
    omega

end DrawStats

namespace Engine

/-- The techniques that run in a frame: those that are enabled and active. -/
def running (e : Engine) : List Technique := e.techniques.filter fun t ↦ t.enabled && t.isActive

theorem mem_running_iff {e : Engine} (hloaded : ∀ t ∈ e.techniques, (e.effect? t.effect).isSome)
    {t : Technique} : t ∈ e.running ↔ t ∈ e.techniques ∧ (t.runnable? e.effect?).isSome := by
  rw [running, List.mem_filter]
  refine and_congr_right fun ht ↦ ?_
  obtain ⟨effect, heffect⟩ := Option.isSome_iff_exists.mp (hloaded t ht)
  rw [Technique.runnable?, heffect, Technique.isActive]
  cases t.enabled <;> cases t.state <;> simp

/-- The passes of a frame draw what the running techniques declare. -/
theorem map_vertexCount_framePasses {e : Engine}
    (hloaded : ∀ t ∈ e.techniques, (e.effect? t.effect).isSome) (hsound : e.Sound) :
    e.framePasses.map (·.vertexCount)
      = e.running.flatMap fun t ↦ t.passes.map (·.vertexCount) := by
  have hrecords : (drawnPasses e.techniques).map (·.record) = e.framePasses := by
    rw [framePasses]
    generalize e.techniques = techniques at hloaded
    induction techniques with
    | nil => rfl
    | cons t rest ih =>
      rw [List.forall_mem_cons] at hloaded
      rw [List.flatMap_cons, ← ih hloaded.2]
      rcases hrun : t.runnable? e.effect? with _ | ⟨state, effect⟩
      · rw [drawnPasses_of_not_runnable hloaded.1 hrun]
        rfl
      · rw [drawnPasses_of_runnable hrun, List.map_append, List.map_map]
        exact congrArg (· ++ _) (List.map_id _)
  rw [running, ← map_vertexCount_drawnPasses hsound, ← hrecords, List.map_map]
  rfl

/-- The number of passes that run in a frame. -/
def passCount (e : Engine) : Nat := (e.running.map (·.passes.length)).sum

theorem length_framePasses {e : Engine}
    (hloaded : ∀ t ∈ e.techniques, (e.effect? t.effect).isSome) (hsound : e.Sound) :
    e.framePasses.length = e.passCount := by
  have hlength := congrArg List.length (map_vertexCount_framePasses hloaded hsound)
  simpa [passCount, List.length_flatMap] using hlength

theorem running_present {e : Engine} {b : Backbuffer} (hb : e.backbuffer = some b)
    (tracker : DepthTracker) :
    (e.present tracker).running.map (·.passes) = e.running.map (·.passes) := by
  obtain ⟨techniques, cs, -, hmeasures, hpresent⟩ := present_eq hb tracker
  rw [hpresent, running, running]
  clear hpresent
  dsimp only
  generalize e.techniques = before at hmeasures
  induction hmeasures with
  | nil => rfl
  | @cons t t' rest rest' hfirst _ ih =>
    have hsame : t'.enabled = t.enabled ∧ t'.isActive = t.isActive ∧ t'.passes = t.passes := by
      cases hfirst with
      | idle => exact ⟨rfl, rfl, rfl⟩
      | ran hstate hqueries => exact ⟨rfl, by simp [Technique.isActive, hstate], rfl⟩
    obtain ⟨henabled, hactive, hpasses⟩ := hsame
    rw [List.filter_cons, List.filter_cons, henabled, hactive]
    split
    · rw [List.map_cons, List.map_cons, ih, hpasses]
    · exact ih

/-- **What a frame counts**: the draws of the application and those of the running techniques. -/
theorem stats_present {e : Engine} (hloaded : ∀ t ∈ e.techniques, (e.effect? t.effect).isSome)
    (hsound : e.Sound) {b : Backbuffer} (hb : e.backbuffer = some b) (tracker : DepthTracker) :
    (e.present tracker).stats
      = ((e.present tracker).running.flatMap fun t ↦ t.passes.map (·.vertexCount)).foldl
        DrawStats.record tracker.total := by
  have hdrawn {techniques techniques' : List Technique}
      (h : techniques.map (·.passes) = techniques'.map (·.passes)) :
      (techniques.flatMap fun t ↦ t.passes.map (·.vertexCount))
        = techniques'.flatMap fun t ↦ t.passes.map (·.vertexCount) := by
    have hflat := congrArg (List.flatMap fun passes ↦ passes.map (·.vertexCount)) h
    rwa [List.flatMap_map, List.flatMap_map] at hflat
  rw [hdrawn (running_present hb tracker), ← map_vertexCount_framePasses hloaded hsound,
    List.foldl_map, present, hb]

end Engine

/-! ## Durations -/

/-- A technique reports no duration after its first frame, and from then on that of its passes. -/
theorem Technique.Sampled.get {d : Device} {t : Technique} {frames : Nat}
    (h : t.Sampled d frames) (hframes : frames ≠ 0) :
    t.duration.get = if frames = 1 then 0 else t.sample d.timing := by
  have hduration : t.duration = ⟨List.replicate (min (frames - 1) durationWindow)
      (t.sample d.timing)⟩ := congrArg MovingAverage.mk h.recent
  have hwindow : min (frames - 1) durationWindow = 0 ↔ frames = 1 := by
    rw [durationWindow]
    omega
  rw [hduration, MovingAverage.get_replicate]
  simp only [hwindow]

/-! ## Frames -/

namespace CommandLine

/-- The engine of a session, after frames of a scene. -/
structure Presented (e e' : Engine) : Prop where
  /-- It is the engine of a session. -/
  session : ∃ host, (Session.mk e' host).Reachable Event.Lawful
  /-- It has the same backbuffer. -/
  backbuffer : e'.backbuffer = e.backbuffer
  /-- It has the same settings. -/
  config : e'.config = e.config
  /-- The selection is left to it. -/
  depthOverride : e'.depthOverride = none
  /-- Time is counted as it is by default. -/
  timing : e'.device.timing = {}
  /-- A frame runs the same passes. -/
  framePasses : e'.framePasses = e.framePasses

variable {o : RunOptions} {config : Config} {e : Engine}

theorem presented_presentFrames (h : Prepared o config e) (tracker : DepthTracker) (frames : Nat) :
    Presented e (presentFrames tracker frames e) := by
  obtain ⟨⟨host, hfresh⟩, ⟨b, hb, -⟩, -⟩ := h
  induction frames with
  | zero =>
    refine ⟨⟨host, hfresh.reachable.mono fun s event hallowed ↦ ?_⟩, rfl, rfl,
      hfresh.depthOverride, hfresh.timing, rfl⟩
    cases event with
    | release refs => exact hallowed
    | _ => trivial
  | succ frames ih =>
    obtain ⟨⟨host, hs⟩, hbackbuffer, hconfig, hnone, htiming, hpasses⟩ := ih
    change Presented e (presentFrame tracker (presentFrames tracker frames e))
    generalize presentFrames tracker frames e = e'
      at hs hbackbuffer hconfig hnone htiming hpasses ⊢
    have hworks := (Session.mk e' host).works_step (.present tracker)
    have hpresented : ((Session.mk e' host).step (.present tracker)).Reachable Event.Lawful :=
      hs.step trivial
    have hadvanced : (((Session.mk e' host).step (.present tracker)).step .advanceFrame).Reachable
      Event.Lawful := hpresented.step trivial
    refine ⟨⟨host, hadvanced⟩, ?_, ?_, ?_, hworks.timing_eq.trans htiming, ?_⟩
    · rw [← hbackbuffer, presentFrame, Engine.present]
      split <;> rfl
    · rw [← hconfig, presentFrame, Engine.present]
      split <;> rfl
    · rw [← hnone, presentFrame, Engine.present]
      split <;> rfl
    · exact (Engine.framePasses_present (hbackbuffer.trans hb) tracker).trans hpasses

/-- **Every frame of a run samples the techniques**, as long as the clock does not overflow. -/
theorem sampled_presentFrames (h : Prepared o config e) (tracker : DepthTracker) (frames : Nat)
    (hclock : frames * (e.framePasses.length * 1000) < 2 ^ 64) :
    (presentFrames tracker frames e).Sampled frames := by
  induction frames with
  | zero =>
    obtain ⟨⟨host, hfresh⟩, -⟩ := h
    exact hfresh.sampled
  | succ frames ih =>
    rw [Nat.succ_mul] at hclock
    -- the clock had room for fewer frames
    have hsampled := ih (by omega)
    obtain ⟨⟨host, hs⟩, hbackbuffer, -, -, htiming, hpasses⟩ :=
      presented_presentFrames h tracker frames
    obtain ⟨-, ⟨b, hb, -⟩, -⟩ := h
    change (presentFrame tracker (presentFrames tracker frames e)).Sampled (frames + 1)
    generalize presentFrames tracker frames e = e' at hsampled hpasses hs hbackbuffer htiming ⊢
    obtain ⟨strays, howns, -⟩ := hs.owns fun _ _ h ↦ h
    have hroom : e'.device.clock.toNat
        + e'.framePasses.length * e'.device.timing.ticksPerDraw.toNat < 2 ^ 64 := by
      rw [hsampled.clock, hpasses, htiming]
      exact hclock
    exact hsampled.present howns hs.numbered hs.sound.records (hbackbuffer.trans hb) tracker hroom

theorem exists_last (tracker : DepthTracker) {frames : Nat} (hframes : frames ≠ 0) :
    ∃ n, presentFrames tracker frames e = presentFrame tracker (presentFrames tracker n e) := by
  obtain ⟨n, rfl⟩ := Nat.exists_eq_succ_of_ne_zero hframes
  exact ⟨n, rfl⟩

theorem stats_presentFrames (h : Prepared o config e) (tracker : DepthTracker) {frames : Nat}
    (hframes : frames ≠ 0) :
    (presentFrames tracker frames e).stats
      = ((presentFrames tracker frames e).running.flatMap fun t ↦
          t.passes.map (·.vertexCount)).foldl DrawStats.record tracker.total := by
  obtain ⟨n, hn⟩ := exists_last (e := e) tracker hframes
  obtain ⟨⟨_, hs⟩, hbackbuffer, -⟩ := presented_presentFrames h tracker n
  obtain ⟨-, ⟨b, hb, -⟩, -⟩ := h
  rw [hn]
  exact Engine.stats_present hs.tables.loaded hs.sound (hbackbuffer.trans hb) tracker

/-- The depth buffer of the main view is selected, for itself. It was cleared once, and if clears
are preserved that is the one. -/
theorem selection_presentFrames (h : Prepared o config e) (hwidth : o.width ≠ 0)
    (hheight : o.height ≠ 0) {frames : Nat} (hframes : frames ≠ 0) :
    (presentFrames (mainScene o).tracker frames e).selection
      = some ⟨⟨3⟩, ⟨3⟩, if config.depth.preserve then some 1 else none⟩ := by
  obtain ⟨n, hn⟩ := exists_last (e := e) (mainScene o).tracker hframes
  obtain ⟨-, hbackbuffer, hconfig, hnone, -⟩ := presented_presentFrames h (mainScene o).tracker n
  obtain ⟨-, ⟨b, hb, hbwidth, hbheight⟩, rfl⟩ := h
  have hselection : (presentFrames (mainScene o).tracker frames e).selection
      = (presentFrames (mainScene o).tracker n e).selectDepth b (mainScene o).tracker := by
    rw [hn, presentFrame, Engine.present, hbackbuffer, hb]
  have hclear : (DepthSelector.ofConfig e.config.depth).clearNumber.map (fun _ ↦ 1)
      = if e.config.depth.preserve then some (1 : UInt32) else none := by
    rw [DepthSelector.ofConfig, DepthConfig.effectiveClear?]
    cases e.config.depth.preserve <;> rfl
  rw [hselection, Engine.selectDepth, hbwidth, hbheight, hconfig,
    DemoScene.select_tracker (s := mainScene o) (Nat.lt_succ_self 2) hwidth hheight rfl hnone]
  exact congrArg (fun n ↦ some (DepthSelection.mk _ _ n)) hclear

/-- The clock counted the passes that are reported, and every technique that runs has the samples of
all frames but the first. -/
theorem sampled_of_passCount (h : Prepared o config e) (tracker : DepthTracker) (frames : Nat)
    (hclock : frames * ((presentFrames tracker frames e).passCount * 1000) < 2 ^ 64) :
    (presentFrames tracker frames e).device.clock.toNat
        = frames * ((presentFrames tracker frames e).passCount * 1000) ∧
      ∀ t ∈ (presentFrames tracker frames e).running,
        t.Sampled (presentFrames tracker frames e).device frames := by
  obtain ⟨⟨_, hs⟩, -, -, -, htiming, hpasses⟩ := presented_presentFrames h tracker frames
  have hcount := Engine.length_framePasses hs.tables.loaded hs.sound
  have hsampled := sampled_presentFrames h tracker frames (by rwa [← hpasses, hcount])
  refine ⟨?_, fun t ht ↦ ?_⟩
  · rw [hsampled.clock, htiming, hcount]
    rfl
  · obtain ⟨ht, hrunnable⟩ := (Engine.mem_running_iff hs.tables.loaded).mp ht
    exact hsampled.techniques t ht hrunnable

theorem sample_default (t : Technique) : t.sample {} = UInt64.ofNat (100000 * t.passes.length) := by
  change UInt64.ofNat (t.passes.length * 1000 * 1000000000 / 10000000) = _
  congr 1
  omega

end CommandLine

end EffectChain
