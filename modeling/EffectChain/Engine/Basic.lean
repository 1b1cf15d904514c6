import EffectChain.Config
import EffectChain.Depth.Selector
import EffectChain.Engine.Backbuffer
import EffectChain.Engine.OwnedTexture
import EffectChain.StateCache
import EffectChain.Timing.Timer

/-!
# The engine's state

An engine runs the techniques of loaded effects over the backbuffer. It keeps the effects by the
index they were loaded under, one table of textures and one of techniques for all of them, the
caches of state objects, and the alias of the scene depth. Every device object that the engine
created is recorded in exactly one place of this state, and `Engine.refs` lists them all: what is
unloaded is released by that list.

An effect is active if its device objects were built, and then each of its techniques has one
`PassRecord` per declared pass; one that could not be activated stays loaded with the failure that
kept it from it.
-/

namespace EffectChain

/-! ## What activation builds -/

/-- What a pass needs in order to run. -/
structure PassRecord where
  /-- Vertex shader. -/
  vertexShader : Handle .shader
  /-- Pixel shader. -/
  pixelShader : Handle .shader
  /-- The views to draw into, from slot 0 on. -/
  targets : List (Handle .renderTargetView)
  /-- Views of the mipmapped targets, whose levels are regenerated after the draw. -/
  mipViews : List (Handle .shaderView)
  /-- Inputs, without those that conflict with the targets. -/
  inputs : List ViewSlot
  /-- Blend state. -/
  blend : Handle .blendState
  /-- Depth-stencil state. -/
  depthStencil : Handle .depthStencilState
  /-- Reference value of the stencil test. -/
  stencilReference : UInt32
  /-- Whether the stencil test is on. -/
  stencilEnable : Bool
  /-- Whether the targets are zeroed before the draw. -/
  clearsTargets : Bool
  /-- Width and height of the viewport. -/
  viewport : UInt32 × UInt32
  /-- Vertices of the draw. -/
  vertexCount : UInt32
  deriving DecidableEq

/-- The targets of a pass with the slots that stay empty. -/
def PassRecord.targetSlots (p : PassRecord) : List (Option (Handle .renderTargetView)) :=
  p.targets.map some ++ List.replicate (maxRenderTargets - p.targets.length) none

/-- What a technique needs in order to run. -/
structure TechniqueState where
  /-- The sampler states of its effect, by slot. -/
  samplers : List (Option (Handle .sampler))
  /-- The texture bindings of its effect, by slot. -/
  bindings : List ViewSlot
  /-- Its passes, in order. -/
  passes : List PassRecord
  /-- Measures how long it takes. -/
  timer : Timer
  deriving DecidableEq

/-- The references to the objects of one technique alone. -/
def TechniqueState.refs (s : TechniqueState) : List ObjectRef := s.timer.refs

/-- The device objects that the techniques of one effect share. -/
structure EffectObjects where
  /-- The shaders of the entry points, by name. -/
  shaders : List (String × Handle .shader)
  /-- The buffer for uniform data. -/
  uniformBuffer : Option (Handle .buffer)
  deriving DecidableEq

namespace EffectObjects

def shader? (o : EffectObjects) (name : String) : Option (Handle .shader) := o.shaders.lookup name

def refs (o : EffectObjects) : List ObjectRef :=
  o.shaders.map (·.2.ref) ++ o.uniformBuffer.toList.map Handle.ref

end EffectObjects

/-! ## Tables -/

/-- A loaded effect. -/
structure Effect where
  /-- What it was loaded from. -/
  module : EffectModule
  /-- Its uniform storage. -/
  uniforms : Bytes
  /-- Why it is not active. -/
  failure : Option EngineError := none
  /-- Its device objects, if it is active. -/
  objects : Option EffectObjects := none

namespace Effect

/-- Whether the device objects of the effect exist. -/
def isActive (e : Effect) : Bool := e.objects.isSome

/-- What is reported about the last activation; empty after a success. -/
def errors (e : Effect) : String := e.failure.elim "" EngineError.message

/-- The references to the objects of the effect. -/
def refs (e : Effect) : List ObjectRef := e.objects.toList.flatMap EffectObjects.refs

end Effect

/-- An entry of the texture table. -/
structure TableTexture where
  /-- The first declaration of its name. -/
  decl : TextureDecl
  /-- Its device objects. -/
  owned : Option OwnedTexture := none
  /-- The indices of the effects that declare it. -/
  effects : List Nat
  deriving DecidableEq

/-- The references to the objects of the texture. -/
def TableTexture.refs (t : TableTexture) : List ObjectRef :=
  t.owned.toList.flatMap OwnedTexture.refs

/-- An entry of the technique table. -/
structure Technique where
  /-- Name shown to the user. -/
  name : String
  /-- The index of its effect. -/
  effect : Nat
  /-- The declared passes. -/
  passes : List PassDecl
  /-- Whether it runs. -/
  enabled : Bool
  /-- The average of its measured durations. -/
  duration : DurationAverage := {}
  /-- What it needs in order to run, if its effect is active. -/
  state : Option TechniqueState := none
  deriving DecidableEq

namespace Technique

/-- A technique as its module declares it. -/
def ofDecl (effect : Nat) (t : TechniqueDecl) : Technique :=
  { name := t.name, effect, passes := t.passes, enabled := t.enabled }

def isActive (t : Technique) : Bool := t.state.isSome

/-- The references to the objects of the technique. -/
def refs (t : Technique) : List ObjectRef := t.state.toList.flatMap TechniqueState.refs

end Technique

/-! ## The scene depth -/

/-- What stands for the scene depth: a texture, and a view of it if one could be created. -/
structure DepthAlias where
  /-- The texture that was selected last. -/
  texture : Option (Handle .texture) := none
  /-- A view of the texture. -/
  view : Option (Handle .shaderView) := none
  deriving DecidableEq

namespace DepthAlias

/-- The references to the objects of the alias. -/
def refs (a : DepthAlias) : List ObjectRef := a.view.toList.map Handle.ref

/-- A view for shaders to read a depth buffer through, if the device knows it, lets shaders read it
and creates the view. -/
def createView (texture : Handle .texture) (d : Device) : Option (Handle .shaderView) × Device :=
  match d.textureDesc? texture with
  | none => (none, d)
  | some desc =>
    if desc.usage.shaderResource then
      match (Device.createShaderView texture desc.format.linear 1).on d with
      | (.ok view, d) => (some view, d)
      | (.error _, d) => (none, d)
    else (none, d)

/-- Points the alias at a texture, or at nothing. An alias of that texture already stays as it
is. -/
def point (a : DepthAlias) (texture : Option (Handle .texture)) (d : Device) :
    DepthAlias × Device :=
  if a.texture = texture then (a, d)
  else
    let d := d.release a.refs
    match texture with
    | none => ({}, d)
    | some t =>
      let (view, d) := createView t d
      ({ texture, view }, d)

end DepthAlias

/-! ## The engine -/

/-- The part of the engine's state that activation works on: the device, the texture table and the
caches. -/
structure Assets where
  /-- The device. -/
  device : Device := {}
  /-- The texture table, in the order of first declaration. -/
  textures : List TableTexture := []
  /-- The caches of state objects. -/
  states : StateObjects := {}

instance : HasDevice Assets where
  device a := a.device
  mapDevice f a := { a with device := f a.device }

namespace Assets

def texture? (a : Assets) (name : String) : Option TableTexture :=
  a.textures.find? fun t ↦ t.decl.name = name

theorem mem_of_texture? {a : Assets} {name : String} {t : TableTexture}
    (h : a.texture? name = some t) : t ∈ a.textures ∧ t.decl.name = name :=
  ⟨List.mem_of_find?_eq_some h, by simpa using List.find?_some h⟩

/-- The table with the device objects of a texture replaced. -/
def setOwned (a : Assets) (name : String) (owned : OwnedTexture) : Assets :=
  { a with
    textures := a.textures.map fun t ↦
      if t.decl.name = name then { t with owned := some owned } else t }

end Assets

/-- An engine. -/
structure Engine extends Assets where
  /-- The settings. -/
  config : Config := {}
  /-- The objects made for the swapchain, while there is one. -/
  backbuffer : Option Backbuffer := none
  /-- The effects by index; unloading leaves a gap. -/
  effects : List (Option Effect) := []
  /-- The technique table, in the order of execution. -/
  techniques : List Technique := []
  /-- The alias of the scene depth. -/
  depth : DepthAlias := {}
  /-- The depth buffer chosen by hand. -/
  depthOverride : Option (Handle .texture) := none
  /-- The outcome of the last selection. -/
  selection : Option DepthSelection := none
  /-- The draws of the last frame, those of the application included. -/
  stats : DrawStats := {}

namespace Engine

def effect? (e : Engine) (index : Nat) : Option Effect := (e.effects[index]?).join

def technique? (e : Engine) (name : String) : Option Technique :=
  e.techniques.find? fun t ↦ t.name = name

/-- Width and height of the backbuffer, zero without one. -/
def resolution (e : Engine) : UInt32 × UInt32 :=
  e.backbuffer.elim (0, 0) fun b ↦ (b.width, b.height)

/-- The view that a slot stands for at the moment. -/
def resolveSlot? (e : Engine) (slot : ViewSlot) : Option (Handle .shaderView) :=
  e.backbuffer.bind fun b ↦ b.resolveSlot e.depth.view slot

/-- The references to what loading effects created. -/
def loadedRefs (e : Engine) : List ObjectRef :=
  e.techniques.flatMap Technique.refs
    ++ e.effects.flatMap (fun effect ↦ effect.toList.flatMap Effect.refs)
    ++ e.textures.flatMap TableTexture.refs ++ e.states.refs

/-- The references to all that the engine created, each once. -/
def refs (e : Engine) : List ObjectRef :=
  e.backbuffer.toList.flatMap Backbuffer.refs ++ e.loadedRefs ++ e.depth.refs

end Engine

end EffectChain
