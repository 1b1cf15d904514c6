import EffectChain.CommandLine.Program
import EffectChain.Proofs.Housekeeping
import EffectChain.Proofs.Sampling

/-!
# The preparation of a run

Ahead of its first frame, a run creates what the application brings along, prepares the engine for
the swapchain, loads modules, and disables techniques. So its engine is that of a session in which
nothing was presented yet (`Session.Fresh`): no time has passed, no technique was measured, and no
depth buffer was chosen by hand. Every step of the preparation keeps this (`Session.Fresh.step`),
whether an effect can be activated or not, and the backbuffer has the size that was asked for.
-/

namespace EffectChain

/-! ## Ahead of the first frame -/

/-- What a host may do ahead of its first frame. -/
def Event.Prepares : Event → Prop
  | .create .. | .init _ | .load _ | .setEnabled .. => True
  | _ => False

namespace Session

/-- Nothing was presented yet, and there is no choice by hand. -/
structure Fresh (s : Session) : Prop where
  /-- The host kept to what is asked of it. -/
  reachable : s.Reachable Event.Timely
  /-- The device counts time as it does by default. -/
  timing : s.device.timing = {}
  /-- No time has passed. -/
  clock : s.device.clock = 0
  /-- No interval will count as interrupted. -/
  interruptNext : s.device.interruptNext = false
  /-- The selection is left to the engine. -/
  depthOverride : s.engine.depthOverride = none
  /-- No technique was measured. -/
  techniques : ∀ t ∈ s.engine.techniques, t.Accords s.device {}

namespace Fresh

variable {s : Session} {event : Event}

theorem start (config : Config) : (Session.start {} config).Fresh where
  reachable := .start {} config
  timing := rfl
  clock := rfl
  interruptNext := rfl
  depthOverride := rfl
  techniques := List.forall_mem_nil _

end Fresh

theorem waits_step (s : Session) {event : Event} (hevent : event.Prepares) :
    s.device.Waits (s.step event).device := by
  cases event with
  | init swapchain => exact s.engine.device_init Device.Waits.housekeeping swapchain
  | load m =>
    exact s.engine.device_load Device.Waits.housekeeping m fun c hc d ↦
      Device.waits_of_isOpening hc d
  | setEnabled name enabled => exact refl_of Device.Waits _
  | create kind content =>
    change s.device.Waits (s.create kind content).engine.device
    rw [engine_create]
    exact Device.Waits.housekeeping.create content s.device
  | _ => exact hevent.elim

theorem chronicles_of_prepares {s : Session} {event : Event} (hevent : event.Prepares)
    {ks : List Chronicle} (hks : ∀ k ∈ ks, k = {}) : ∀ k ∈ event.chronicles s ks, k = {} := by
  cases event with
  | init swapchain =>
    rw [Event.chronicles]
    split
    · exact List.forall_mem_nil _
    · exact hks
  | load m =>
    rw [Event.chronicles]
    split
    · exact hks
    · refine List.forall_mem_append.mpr ⟨hks, fun k hk ↦ ?_⟩
      obtain ⟨_, -, rfl⟩ := List.mem_map.mp hk
      rfl
  | setEnabled | create => exact hks
  | _ => exact hevent.elim

end Session

/-- Activation leaves the settings and the choice by hand alone. -/
theorem Engine.settings_activate (e : Engine) (index : Nat) :
    (e.activate index).2.config = e.config ∧
      (e.activate index).2.depthOverride = e.depthOverride := by
  rw [activate]
  rcases e.effect? index with _ | effect
  · exact ⟨rfl, rfl⟩
  · have hrun := e.build_run index effect
    dsimp only
    rcases hbuild : e.build index effect with ⟨_ | _, e'⟩ <;> rw [hbuild] at hrun <;>
      cases hrun <;> exact ⟨rfl, rfl⟩

namespace Session

theorem depthOverride_step {s : Session} {event : Event} (hevent : event.Prepares)
    (hnone : s.engine.depthOverride = none) : (s.step event).engine.depthOverride = none := by
  cases event with
  | init swapchain =>
    have hvacated : s.engine.vacated.depthOverride = none :=
      Engine.vacated_induction (P := fun e ↦ e.depthOverride = none) hnone rfl
    change (s.engine.init swapchain).2.depthOverride = none
    rcases s.engine.init_cases swapchain with ⟨cause, d, -, hinit⟩ | ⟨b, d, -, hinit⟩ <;>
      rwa [hinit]
  | load m =>
    change (s.engine.load m).2.depthOverride = none
    rcases s.engine.load_cases m with ⟨-, hrun⟩ | ⟨-, hrun⟩ <;> rw [hrun]
    · exact hnone
    · exact (Engine.settings_activate (s.engine.register m.reserveSlots) _).2.trans hnone
  | setEnabled => exact hnone
  | create kind content =>
    change (s.create kind content).engine.depthOverride = none
    rw [engine_create]
    exact hnone
  | _ => exact hevent.elim

/-- **A preparation presents nothing.** -/
theorem Fresh.step {s : Session} (h : s.Fresh) (event : Event) (hevent : event.Prepares) :
    (s.step event).Fresh := by
  have hallowed : event.Timely s := by
    cases event with
    | init | load | setEnabled | create => trivial
    | _ => exact hevent.elim
  have hwaits := s.waits_step hevent
  have haccords : List.Forall₂ (Technique.Accords s.device) s.engine.techniques
      (s.engine.techniques.map fun _ ↦ {}) :=
    List.forall₂_map_right_iff.mpr (List.forall₂_same.mpr h.techniques)
  refine ⟨h.reachable.step hallowed, hwaits.timing.trans h.timing, hwaits.clock.trans h.clock,
    hwaits.interruptNext.trans h.interruptNext, depthOverride_step hevent h.depthOverride,
    fun t ht ↦ ?_⟩
  obtain ⟨k, hk, hstep⟩ := exists_of_forall₂_left (accords_step h.reachable hallowed haccords) ht
  have hempty : k = {} := by
    refine chronicles_of_prepares hevent (fun k hk ↦ ?_) k hk
    obtain ⟨_, -, rfl⟩ := List.mem_map.mp hk
    rfl
  exact hempty ▸ hstep

/-- A technique that was never measured has no sample, and nothing to collect. -/
theorem Fresh.sampled {s : Session} (h : s.Fresh) : s.engine.Sampled 0 where
  prompt := by
    refine ⟨?_, ?_, h.interruptNext⟩ <;> rw [show s.engine.device.timing = {} from h.timing]
    decide
  clock := by
    rw [show s.engine.device.clock = 0 from h.clock, Nat.zero_mul]
    rfl
  techniques t ht _ := by
    have haccords := h.techniques t ht
    refine ⟨haccords.recent, fun state hstate ↦ ?_⟩
    obtain ⟨hwired, hrecording, hflight⟩ := haccords.timer state hstate
    have hidle : state.timer.state = .idle := by
      rcases hcase : state.timer.state with _ | _ | _
      · rfl
      · exact absurd hcase hrecording
      · obtain ⟨m, rest, hmeasurements, -⟩ := hflight hcase
        cases hmeasurements
    refine ⟨hwired, ?_⟩
    rw [Timer.poll_of_ne (by rw [hidle]; decide), if_pos rfl, ← hidle]

/-- What a host creates ahead of its first frame gets the next number. -/
theorem Fresh.create {e : Engine} {host : List ObjectRef} (h : (Session.mk e host).Fresh)
    {kind : ObjectKind}
    {content : Device → Except DeviceError kind.Content} {x : Handle kind} {d : Device}
    (run : Device.create kind content e.device = (.ok x, d)) :
    x = ⟨e.device.lastId + 1⟩ ∧ d.lastId = e.device.lastId + 1 ∧
      ∃ host, (Session.mk { e with device := d } host).Fresh := by
  obtain ⟨_, _, -, hx, hd⟩ := Device.create_eq_ok run
  have hstep := h.step (.create kind content) trivial
  change ((Session.mk e host).create kind content).Fresh at hstep
  rw [Session.create, show Device.create kind content e.device = _ from run] at hstep
  exact ⟨hx, congrArg Device.lastId hd, _, hstep⟩

end Session

/-! ## The start of a run -/

namespace CommandLine

/-- The scene of a run: the shadow map was created ahead of the depth buffer of the main view. -/
def mainScene (o : RunOptions) : DemoScene where
  shadowMap := ⟨⟨2⟩, .depthBuffer 2048 2048 1⟩
  depthBuffer := ⟨⟨3⟩, .depthBuffer o.width o.height 1⟩

/-- How a run starts: the application creates the swapchain's buffer and the depth buffers of the
scene, and the engine is prepared for the swapchain. -/
inductive Starts (o : RunOptions) (config : Config) : Engine → Prop
  /-- None of this was refused. -/
  | intro {d₁ d₂ d₃ : Device} {e : Engine} :
    Device.createBackbuffer o.width o.height .rgba8Unorm o.samples {} = (.ok ⟨1⟩, d₁) →
    Device.createDepthBuffer 2048 2048 1 d₁ = (.ok ⟨2⟩, d₂) →
    Device.createDepthBuffer o.width o.height o.samples d₂ = (.ok ⟨3⟩, d₃) →
    Engine.init { device := d₃, config } {
      buffer := ⟨1⟩, width := o.width, height := o.height, format := .rgba8Unorm
      sampleCount := o.samples } = (.ok (), e) →
    Starts o config e

/-- An engine that is prepared for a run, and presented nothing yet. -/
structure Prepared (o : RunOptions) (config : Config) (e : Engine) : Prop where
  /-- It is the engine of a session. -/
  fresh : ∃ host, (Session.mk e host).Fresh
  /-- It has a backbuffer of the size that was asked for. -/
  backbuffer : ∃ b, e.backbuffer = some b ∧ b.width = o.width ∧ b.height = o.height
  /-- It has the settings. -/
  config : e.config = config

variable {o : RunOptions} {config : Config} {e : Engine}

theorem prepareEngine_eq_ok (hsamples : o.samples = 1) {scene : DemoScene}
    (run : prepareEngine o config = .ok (e, scene)) :
    Starts o config e ∧ Prepared o config e ∧ scene = mainScene o := by
  rw [prepareEngine] at run
  rcases htargets : (createTargets o) {} with ⟨failure | ⟨buffer, scene'⟩, d⟩ <;>
    rw [htargets] at run
  · cases run
  obtain ⟨buffer', d₁, hbuffer, htargets⟩ := bind_eq_ok htargets
  obtain ⟨scene'', d₂, hscene, htargets⟩ := bind_eq_ok htargets
  cases htargets
  obtain ⟨shadowMap, d₃, hshadow, hscene⟩ := bind_eq_ok hscene
  obtain ⟨depthBuffer, d₄, hdepth, hscene⟩ := bind_eq_ok hscene
  cases hscene
  have hbuffer : Device.createTexture _ (Session.start {} config).device = (.ok buffer, d₁) :=
    named_eq_ok hbuffer
  have hshadow : Device.createTexture _ d₁ = (.ok shadowMap, d₃) := named_eq_ok hshadow
  have hdepth : Device.createTexture _ d₃ = (.ok depthBuffer, d) := named_eq_ok hdepth
  -- every object gets the next number
  obtain ⟨hfirst, hid₁, host₁, hfresh₁⟩ := (Session.Fresh.start config).create hbuffer
  obtain ⟨hsecond, hid₃, host₃, hfresh₃⟩ := hfresh₁.create hshadow
  obtain ⟨hthird, -, host₄, hfresh₄⟩ := hfresh₃.create hdepth
  obtain rfl : buffer = ⟨1⟩ := hfirst
  obtain rfl : shadowMap = ⟨2⟩ := hsecond.trans (by rw [hid₁])
  obtain rfl : depthBuffer = ⟨3⟩ := hthird.trans (by rw [hid₃, hid₁])
  dsimp only at run
  generalize hswapchain : Swapchain.mk ⟨1⟩ o.width o.height .rgba8Unorm o.samples = swapchain
    at run
  have hfresh := hfresh₄.step (.init swapchain) trivial
  change (Session.mk (Engine.init _ swapchain).2 host₄).Fresh at hfresh
  rcases hinit : Engine.init { device := d, config } swapchain with ⟨cause | _, e'⟩ <;>
    rw [hinit] at run hfresh <;> cases run
  refine ⟨.intro hbuffer hshadow hdepth (hswapchain ▸ hinit), ?_, ?_⟩
  · rcases Engine.init_cases { device := d, config } swapchain with
      ⟨cause, d', -, hcase⟩ | ⟨b, d', hcreate, hcase⟩ <;> rw [hinit] at hcase <;> cases hcase
    obtain ⟨-, -, -, -, hwidth, hheight⟩ := Backbuffer.create_eq_ok hcreate
    subst hswapchain
    exact ⟨⟨host₄, hfresh⟩, ⟨b, rfl, hwidth, hheight⟩, rfl⟩
  · rw [mainScene, ← hsamples]
    rfl

/-- An effect that is loaded leaves the engine prepared, whether it can be activated or not. -/
theorem Prepared.load (h : Prepared o config e) (m : EffectModule) :
    Prepared o config (e.load m).2 := by
  obtain ⟨⟨host, hfresh⟩, ⟨b, hb, hsize⟩, hconfig⟩ := h
  obtain ⟨-, hrun⟩ := (e.load_cases m).resolve_left fun h ↦ by simp [hb] at h
  refine ⟨⟨host, hfresh.step (.load m) trivial⟩, ⟨b, ?_, hsize⟩, ?_⟩ <;> rw [hrun]
  · exact (Engine.depth_activate (e.register m.reserveSlots) _).2.trans hb
  · exact (Engine.settings_activate (e.register m.reserveSlots) _).1.trans hconfig

theorem Prepared.setEnabled (h : Prepared o config e) (name : String) (enabled : Bool) :
    Prepared o config (e.setEnabled name enabled).2 := by
  obtain ⟨⟨host, hfresh⟩, hb, hconfig⟩ := h
  exact ⟨⟨host, hfresh.step (.setEnabled name enabled) trivial⟩, hb, hconfig⟩

end CommandLine

end EffectChain
