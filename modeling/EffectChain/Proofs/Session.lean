import EffectChain.Engine.Frame
import EffectChain.Engine.Loading

/-!
# Sessions

An engine and its host share one device. The host drives the engine through its operations, in any
order and whether they succeed or not, and besides works on the device itself: it creates and
releases objects of its own, draws, makes creations fail, and lets time pass. A session is the
engine together with what the host holds, and a run of it is any finite sequence of such events
(`Session.Reachable`).

The one thing that is asked of a host is that it does not release what the engine records as its own
(`Event.Lawful`). What properties need beyond this is stated with them.
-/

namespace EffectChain

/-- Something that the host of an engine does. -/
inductive Event
  /-- Prepares for a swapchain. -/
  | init (swapchain : Swapchain)
  /-- Unloads everything and leaves the swapchain. -/
  | reset
  /-- Loads an effect. -/
  | load (m : EffectModule)
  /-- Activates an effect again. -/
  | reload (index : Nat)
  /-- Unloads an effect. -/
  | unload (index : Nat)
  /-- Unloads all effects. -/
  | unloadAll
  /-- Replaces the texels of a texture. -/
  | upload (name : String) (pixels : Bytes)
  /-- Writes into the uniform storage of an effect. -/
  | writeUniforms (index offset : Nat) (data : Bytes)
  /-- Enables or disables techniques. -/
  | setEnabled (name : String) (enabled : Bool)
  /-- Chooses the depth buffer by hand. -/
  | overrideDepth (texture : Option (Handle .texture))
  /-- Replaces the settings. -/
  | configure (config : Config)
  /-- Runs the techniques over a frame. -/
  | present (tracker : DepthTracker)
  /-- Creates an object of its own, with whatever content the device accepts. -/
  | create (kind : ObjectKind) (content : Device → Except DeviceError kind.Content)
  /-- Releases objects. -/
  | release (refs : List ObjectRef)
  /-- Issues a command of its own. -/
  | issue (c : Command)
  /-- Overwrites texels. -/
  | write (texture : Handle .texture) (level : Nat) (data : Bytes)
  /-- Has a creation refused. -/
  | failAfter (kind : ObjectKind) (after : Nat)
  /-- Has the next interval count as interrupted. -/
  | markInterrupted
  /-- Moves to the next frame. -/
  | advanceFrame
  /-- Takes the log. -/
  | takeLog

/-- An engine and what its host holds on the device. -/
structure Session where
  /-- The engine, with the device. -/
  engine : Engine
  /-- The objects that the host created and did not release. -/
  host : List ObjectRef := []

namespace Session

def device (s : Session) : Device := s.engine.device

/-- The session after the host worked on the device. -/
def mapDevice (s : Session) (f : Device → Device) : Session :=
  { s with engine := { s.engine with device := f s.engine.device } }

/-- The session after an operation of the engine. -/
def mapEngine (s : Session) (f : Engine → Engine) : Session := { s with engine := f s.engine }

def start (timing : DeviceTiming) (config : Config) : Session :=
  { engine := { device := { timing }, config } }

/-- The session after the host created an object, if the device let it. -/
def create (s : Session) (kind : ObjectKind)
    (content : Device → Except DeviceError kind.Content) : Session :=
  match Device.create kind content s.engine.device with
  | (.ok h, d) => { engine := { s.engine with device := d }, host := h.ref :: s.host }
  | (.error _, d) => { s with engine := { s.engine with device := d } }

def step (s : Session) : Event → Session
  | .init swapchain => s.mapEngine fun e ↦ (e.init swapchain).2
  | .reset => s.mapEngine Engine.reset
  | .load m => s.mapEngine fun e ↦ (e.load m).2
  | .reload index => s.mapEngine fun e ↦ (e.reload index).2
  | .unload index => s.mapEngine fun e ↦ (e.unload index).2
  | .unloadAll => s.mapEngine Engine.unloadAll
  | .upload name pixels => s.mapEngine fun e ↦ (e.upload name pixels).2
  | .writeUniforms index offset data => s.mapEngine fun e ↦ (e.writeUniforms index offset data).2
  | .setEnabled name enabled => s.mapEngine fun e ↦ (e.setEnabled name enabled).2
  | .overrideDepth texture => s.mapEngine fun e ↦ e.overrideDepth texture
  | .configure config => s.mapEngine fun e ↦ e.configure config
  | .present tracker => s.mapEngine fun e ↦ e.present tracker
  | .create kind content => s.create kind content
  | .release refs =>
    { s.mapDevice fun d ↦ d.release refs with host := s.host.filter (· ∉ refs) }
  | .issue c => s.mapDevice fun d ↦ d.issue c
  | .write texture level data => s.mapDevice fun d ↦ (d.writeTexels texture level data).2
  | .failAfter kind after => s.mapDevice fun d ↦ d.failAfter kind after
  | .markInterrupted => s.mapDevice Device.markInterrupted
  | .advanceFrame => s.mapDevice Device.advanceFrame
  | .takeLog => s.mapDevice fun d ↦ d.takeLog.2

/-- What the engine has when the host tried to create an object. -/
theorem engine_create (s : Session) (kind : ObjectKind)
    (content : Device → Except DeviceError kind.Content) :
    (s.create kind content).engine
      = { s.engine with device := (Device.create kind content s.engine.device).2 } := by
  rw [create]
  split <;> rename_i hrun <;> rw [hrun]

end Session

/-- The host does not release what the engine records. -/
def Event.Lawful (s : Session) : Event → Prop
  | .release refs => ∀ r ∈ refs, r ∉ s.engine.refs
  | _ => True

/-- The sessions that a run of allowed events leads to. -/
inductive Session.Reachable (allowed : Session → Event → Prop) : Session → Prop
  /-- A new session. -/
  | start (timing : DeviceTiming) (config : Config) :
    Reachable allowed (Session.start timing config)
  /-- One more event. -/
  | step {s : Session} {event : Event} : Reachable allowed s → allowed s event →
    Reachable allowed (s.step event)

theorem Session.Reachable.mono {allowed allowed' : Session → Event → Prop} {s : Session}
    (hs : s.Reachable allowed) (h : ∀ s event, allowed s event → allowed' s event) :
    s.Reachable allowed' := by
  induction hs with
  | start timing config => exact .start timing config
  | step _ hallowed ih => exact .step ih (h _ _ hallowed)

/-! ## A small session -/

/-- An effect with one technique of one pass, which draws into the named textures. -/
def EffectModule.single (name : String) (textures : List TextureDecl) (samplers : List SamplerDecl)
    (targetNames : List String) : EffectModule :=
  { name, textures, samplers
    entryPoints := [⟨"vertex", .vertex, Bytes.zeros 1⟩, ⟨"pixel", .pixel, Bytes.zeros 1⟩]
    techniques :=
      [{ name, passes := [{ vertexEntry := "vertex", pixelEntry := "pixel", targetNames }] }] }

namespace Session

def smallSwapchain : Swapchain :=
  { buffer := ⟨1⟩, width := 4, height := 4, format := .rgba8Unorm, sampleCount := 4 }

/-- A session whose host created the buffer of a swapchain and prepared for it. -/
def small : Session :=
  ((start {} {}).step (.create .texture fun _ ↦ Texture.make {
    width := 4, height := 4, format := .rgba8Unorm, sampleCount := 4, usage := .targetOnly })).step
      (.init smallSwapchain)

end Session

end EffectChain
