import EffectChain.Engine.Activation

/-!
# Loading effects

The operations between frames. Loading registers an effect, its techniques and its textures first
and activates it afterwards, so an effect that fails stays loaded with its failure and can be
reloaded. A texture is shared by all effects that declare its name: the first declaration counts,
the first activation creates its device objects, and it leaves the table with the last effect that
declares it.
-/

namespace EffectChain

/-! ## The texture table -/

/-- Enters one declaration of an effect into the texture table. -/
def registerTexture (index : Nat) (decl : TextureDecl) : List TableTexture → List TableTexture
  | [] => [{ decl, effects := [index] }]
  | t :: rest =>
    if t.decl.name = decl.name then
      -- the first declaration counts, however a later one differs
      (if index ∈ t.effects then t else { t with effects := t.effects ++ [index] }) :: rest
    else t :: registerTexture index decl rest

/-- Enters the declarations of an effect into the texture table. -/
def registerTextures (index : Nat) (decls : List TextureDecl) (table : List TableTexture) :
    List TableTexture :=
  decls.foldl (fun table decl ↦ registerTexture index decl table) table

/-- Whether an effect needs device objects that the texture does not have yet. -/
def TableTexture.awaits (t : TableTexture) (index : Nat) : Bool :=
  t.owned.isNone && t.decl.reference = .owned && index ∈ t.effects

/-- Creates the device objects that an effect's textures lack, or none of them. -/
def materialize (index : Nat) :
    List TableTexture → ExceptT EngineError (StateM Device) (List TableTexture)
  | [] => return []
  | t :: rest =>
    if t.awaits index then do
      let owned ← OwnedTexture.create t.decl
      keeping owned.refs do
        return { t with owned := some owned } :: (← materialize index rest)
    else do
      return t :: (← materialize index rest)

/-- Removes an effect from the texture table, and with it the textures that no other effect
declares: the table, and the references to the objects of those textures. -/
def withdrawTextures (index : Nat) (table : List TableTexture) :
    List TableTexture × List ObjectRef :=
  let table := table.map fun t ↦ { t with effects := t.effects.filter (· ≠ index) }
  let (kept, dropped) := table.partition fun t ↦ !t.effects.isEmpty
  (kept, dropped.flatMap TableTexture.refs)

namespace Engine

/-! ## Activation -/

def setEffect (e : Engine) (index : Nat) (effect : Effect) : Engine :=
  { e with effects := e.effects.set index (some effect) }

/-- Builds an effect: validation, then its textures, then its objects and techniques. Textures that
were created stay, whatever happens afterwards. -/
def build (e : Engine) (index : Nat) (effect : Effect) : Except EngineError Unit × Engine :=
  match effect.module.validate with
  | .error cause => (.error (.module cause), e)
  | .ok () =>
    match (materialize index e.textures) e.device with
    | (.error cause, device) => (.error cause, { e with device })
    | (.ok textures, device) =>
      let e := { e with device, textures }
      match e.backbuffer with
      | none => (.error .notInitialized, e)
      | some backbuffer =>
        let scene : Scene := { backbuffer, depthView := e.depth.view }
        match (buildEffect scene index effect e.techniques) e.toAssets with
        | (.error cause, assets) => (.error cause, { e with toAssets := assets })
        | (.ok (objects, techniques), assets) =>
          let e := { e with toAssets := assets, techniques }
          (.ok (), e.setEffect index { effect with objects := some objects })

/-- Activates a loaded effect and records the outcome with it. -/
def activate (e : Engine) (index : Nat) : Except EngineError Unit × Engine :=
  match e.effect? index with
  | none => (.error (.invalidEffect index), e)
  | some effect =>
    match e.build index effect with
    | (.ok (), e) =>
      (.ok (), { e with
        effects := e.effects.modify index (Option.map fun effect ↦ { effect with
          failure := none }) })
    | (.error cause, e) =>
      (.error cause, { e with
        effects := e.effects.modify index (Option.map fun effect ↦ { effect with
          failure := some cause }) })

/-- Releases the objects of an effect and of its techniques; it stays loaded. -/
def deactivate (e : Engine) (index : Nat) : Engine :=
  let own := e.techniques.filter fun t ↦ t.effect = index
  let refs := own.flatMap Technique.refs ++ (e.effect? index).toList.flatMap Effect.refs
  { e with
    device := e.device.release refs
    techniques := e.techniques.map fun t ↦ if t.effect = index then { t with state := none } else t
    effects := e.effects.modify index (Option.map fun effect ↦ { effect with objects := none }) }

/-! ## Loading and unloading -/

/-- Registers an effect, its techniques and its textures under the next index. -/
def register (e : Engine) (m : EffectModule) : Engine :=
  let index := e.effects.length
  { e with
    techniques := e.techniques ++ m.techniques.map (Technique.ofDecl index)
    effects := e.effects ++ [some { module := m, uniforms := m.uniformData }]
    textures := registerTextures index m.textures e.textures }

/-- Loads an effect and activates it: its index, or the failure. An effect that fails stays
loaded. -/
def load (e : Engine) (m : EffectModule) : Except EngineError Nat × Engine :=
  if e.backbuffer.isNone then (.error .notInitialized, e)
  else
    let index := e.effects.length
    let (outcome, e) := (e.register m.reserveSlots).activate index
    (outcome.map fun () ↦ index, e)

/-- Activates a loaded effect again, from the start. -/
def reload (e : Engine) (index : Nat) : Except EngineError Unit × Engine :=
  match e.effect? index with
  | none => (.error (.invalidEffect index), e)
  | some effect =>
    let e := e.deactivate index
    { e with textures := registerTextures index effect.module.textures e.textures }.activate index

/-- Unloads an effect, its techniques, and the textures that no other effect declares. -/
def unload (e : Engine) (index : Nat) : Except EngineError Unit × Engine :=
  match e.effect? index with
  | none => (.error (.invalidEffect index), e)
  | some _ =>
    let e := e.deactivate index
    let (textures, gone) := withdrawTextures index e.textures
    (.ok (), { e with
      device := e.device.release gone
      techniques := e.techniques.filter fun t ↦ t.effect ≠ index
      textures
      effects := e.effects.set index none })

/-- Unloads all effects, and clears the caches. -/
def unloadAll (e : Engine) : Engine :=
  { e with
    device := e.device.release e.loadedRefs
    techniques := [], effects := [], textures := [], states := {} }

/-! ## The swapchain -/

/-- Points the alias of the scene depth at a texture, or at nothing. -/
def pointDepth (e : Engine) (texture : Option (Handle .texture)) : Engine :=
  let (depth, device) := e.depth.point texture e.device
  { e with depth, device }

/-- Unloads all effects and releases what was made for the swapchain. -/
def reset (e : Engine) : Engine :=
  let e := e.unloadAll.pointDepth none
  { e with
    device := e.device.release (e.backbuffer.toList.flatMap Backbuffer.refs)
    backbuffer := none, depthOverride := none, selection := none }

/-- Prepares for a swapchain; what was there for an earlier one is released first. -/
def init (e : Engine) (swapchain : Swapchain) : Except EngineError Unit × Engine :=
  let e := if e.backbuffer.isSome then e.reset else e
  match (Backbuffer.create swapchain) e.device with
  | (.ok backbuffer, device) => (.ok (), { e with device, backbuffer := some backbuffer })
  | (.error cause, device) => (.error cause, { e with device })

/-! ## Settings and data -/

/-- Replaces the settings, from the next frame on. -/
def configure (e : Engine) (config : Config) : Engine := { e with config }

/-- Chooses the depth buffer by hand, from the next frame on, or leaves it to the selection. -/
def overrideDepth (e : Engine) (texture : Option (Handle .texture)) : Engine :=
  { e with depthOverride := texture }

/-- Enables or disables every technique of a name: whether there is one. -/
def setEnabled (e : Engine) (name : String) (enabled : Bool) : Bool × Engine :=
  (e.techniques.any fun t ↦ t.name = name,
    { e with
      techniques := e.techniques.map fun t ↦
        if t.name = name then { t with enabled } else t })

/-- Writes into the uniform storage of an effect; the whole write must lie in it. -/
def writeUniforms (e : Engine) (index offset : Nat) (data : Bytes) :
    Except EngineError Unit × Engine :=
  match e.effect? index with
  | none => (.error (.invalidEffect index), e)
  | some effect =>
    let size := effect.uniforms.size
    if offset + data.size ≤ size then
      (.ok (), e.setEffect index { effect with uniforms := effect.uniforms.overlay offset data })
    else (.error (.uniformRange offset data.size size), e)

/-- Replaces the texels of a texture by four-channel 8-bit pixels, and regenerates its levels. -/
def upload (e : Engine) (name : String) (pixels : Bytes) : Except EngineError Unit × Engine :=
  match e.texture? name with
  | none => (.error (.unknownTexture name), e)
  | some t =>
    if t.decl.reference ≠ .owned then (.error (.referenceTexture name), e)
    else
      match t.owned with
      | none => (.error (.unknownTexture name), e)
      | some o =>
        match packUpload t.decl pixels with
        | .error cause => (.error cause, e)
        | .ok data =>
          let rowPitch := data.size / (max t.decl.height 1).toNat
          let mips := if o.hasMips e.device then [Command.generateMips o.views.linear] else []
          (.ok (), { e with
            device := e.device.issueAll (.updateTexture o.resource data rowPitch :: mips) })

end Engine

end EffectChain
