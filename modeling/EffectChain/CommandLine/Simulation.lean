import EffectChain.CommandLine.Arguments
import EffectChain.CommandLine.Failure
import EffectChain.Engine.Frame
import EffectChain.Engine.Loading
import EffectChain.Module.Document

/-!
# Simulated frames

A run loads modules into an engine over a fresh device and presents frames of a synthetic scene,
which is the same in every frame: a shadow map drawn with few large draws, then a depth buffer of
the backbuffer's size with a prepass, a clear and the geometry. The report says what became of
effects and techniques, and which depth buffer was selected.
-/

namespace EffectChain.CommandLine

/-! ## The synthetic scene -/

def shadowMapSize : UInt32 := 2048

/-- A depth buffer of the scene. -/
structure SceneBuffer where
  /-- The texture. -/
  texture : Handle .texture
  /-- What it was made from. -/
  desc : TextureDesc

/-- The depth buffers of the scene. -/
structure DemoScene where
  /-- The shadow map. -/
  shadowMap : SceneBuffer
  /-- The depth buffer of the main view. -/
  depthBuffer : SceneBuffer

namespace DemoScene

/-- Creates the depth buffers for a backbuffer of the given size. -/
def create (width height samples : UInt32) : ExceptT Failure (StateM Device) DemoScene := do
  let shadowMap ← (Device.createDepthBuffer shadowMapSize shadowMapSize 1).named .shadowMap
  let depthBuffer ← (Device.createDepthBuffer width height samples).named .depthBuffer
  return {
    shadowMap := ⟨shadowMap, .depthBuffer shadowMapSize shadowMapSize 1⟩
    depthBuffer := ⟨depthBuffer, .depthBuffer width height samples⟩ }

def draws (count : Nat) (vertices : UInt32) (t : DepthTracker) : DepthTracker :=
  (List.replicate count vertices).foldl DepthTracker.draw t

/-- The use of the depth buffers in a frame. -/
def tracker (s : DemoScene) : DepthTracker :=
  let t : DepthTracker := {}
  let t := draws 4 6000 (t.bind s.shadowMap.texture s.shadowMap.desc)
  let t := draws 8 3000 (t.bind s.depthBuffer.texture s.depthBuffer.desc)
  let t := draws 24 1500 (t.clear s.depthBuffer.texture none)
  t.unbind

/-- What a texture is called in the report. -/
def nameOf (s : DemoScene) (texture : Handle .texture) : String :=
  if texture = s.shadowMap.texture then "shadow map"
  else if texture = s.depthBuffer.texture then "scene depth"
  else "unknown"

end DemoScene

/-! ## The run -/

/-- Creates the swapchain's buffer and the depth buffers of the scene. -/
def createTargets (o : RunOptions) :
    ExceptT Failure (StateM Device) (Handle .texture × DemoScene) := do
  let buffer ←
    (Device.createBackbuffer o.width o.height .rgba8Unorm o.samples).named .backbuffer
  return (buffer, ← DemoScene.create o.width o.height o.samples)

/-- An engine prepared for the backbuffer of a run, and the scene. -/
def prepareEngine (o : RunOptions) (config : Config) : Except Failure (Engine × DemoScene) :=
  match (createTargets o) {} with
  | (.error f, _) => .error f
  | (.ok (buffer, scene), device) =>
    let swapchain : Swapchain :=
      { buffer, width := o.width, height := o.height, format := .rgba8Unorm
        sampleCount := o.samples }
    match { device, config : Engine }.init swapchain with
    | (.error cause, _) => .error (.engine cause)
    | (.ok (), engine) => .ok (engine, scene)

/-- Loads module files in order: a line for each effect that could not be activated, and the engine,
unless a file is no valid module. -/
def loadModules (files : String → Option Entry) (yaml : Yaml.Library) :
    Engine → List String → List String × Except Failure Engine
  | e, [] => ([], .ok e)
  | e, path :: rest =>
    match EffectModule.load path (files path) (EffectModule.read yaml) with
    | .error cause => ([], .error (.module path cause))
    | .ok m =>
      let (outcome, e) := e.load m
      let (lines, result) := loadModules files yaml e rest
      match outcome with
      | .ok _ => (lines, result)
      | .error cause => ((path ++ ": " ++ cause.message) :: lines, result)

def disableAll (e : Engine) (names : List String) : Engine :=
  names.foldl (fun e name ↦ (e.setEnabled name false).2) e

/-- Presents a frame of the scene, and moves the device to the next one. -/
def presentFrame (tracker : DepthTracker) (e : Engine) : Engine :=
  let e := e.present tracker
  { e with device := e.device.advanceFrame }

/-- Presents so many frames of the scene. -/
def presentFrames (tracker : DepthTracker) (frames : Nat) (e : Engine) : Engine :=
  Nat.repeat (presentFrame tracker) frames e

/-! ## The report -/

def effectLine (e : Effect) : String :=
  "  " ++ e.module.name ++ (if e.isActive then " (active)" else " (failed)")

def techniqueLine (t : Technique) : String :=
  let status :=
    if !t.enabled then "disabled"
    else if t.isActive then durationText t.duration.get
    else "inactive"
  "  " ++ padTo 24 t.name ++ " " ++ toString t.passes.length ++ " pass(es)  " ++ status

def tableTextureLine (t : TableTexture) : String :=
  "  " ++ padTo 24 t.decl.name ++ " " ++
    match t.owned with
    | some o =>
      wordText t.decl.width ++ "x" ++ wordText t.decl.height ++ " "
        ++ Enumeration.title t.decl.format ++ " (#" ++ toString o.resource.id ++ ")"
    | none => Enumeration.title t.decl.reference

/-- The line of the selected depth buffer. -/
def selectionLine (scene : DemoScene) : Option DepthSelection → String
  | none => "Depth buffer: none"
  | some s =>
    "Depth buffer: " ++ scene.nameOf s.depthBuffer ++ " (#" ++ toString s.depthBuffer.id ++ ")"
      ++ s.clearNumber.elim "" fun n ↦ ", snapshot at clear " ++ wordText n

def reportLines (e : Engine) (scene : DemoScene) (verbose : Bool) : List String :=
  let (width, height) := e.resolution
  ["Resolution: " ++ wordText width ++ "x" ++ wordText height, "Effects:"]
  ++ (e.effects.filterMap id).map effectLine
  ++ ["Techniques:"] ++ e.techniques.map techniqueLine
  ++ (if verbose then "Textures:" :: e.textures.map tableTextureLine else [])
  ++ [selectionLine scene e.selection,
    "Scene stats: " ++ wordText e.stats.drawCalls ++ " draw calls, " ++ wordText e.stats.vertices
      ++ " vertices",
    "State objects: " ++ toString e.states.samplers.size ++ " samplers, "
      ++ toString e.states.blends.size ++ " blend, " ++ toString e.states.depthStencils.size
      ++ " depth-stencil"]
  ++ (if verbose then
      ["Sampler cache: " ++ toString e.states.samplers.hits ++ " hits, "
        ++ toString e.states.samplers.misses ++ " misses",
        "Live device objects: " ++ toString e.device.live.length]
    else [])

end EffectChain.CommandLine
