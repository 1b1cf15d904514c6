import EffectChain.Engine.Basic

/-!
# Activation

Activating an effect creates its shaders and its uniform buffer, fills the slot tables that all its
techniques share, and builds one record per declared pass. Every function here that creates objects
for the effect releases them again if it fails later on (`keeping`). Two things outlive a failure,
since they belong to all effects: cached state objects, and views created to draw into a texture of
the table.
-/

namespace EffectChain

/-- An action on the assets that may fail. -/
abbrev BuildM : Type → Type := ExceptT EngineError (StateM Assets)

namespace BuildM

/-- An action on the device of the assets. -/
def onDevice {α : Type} (action : ExceptT EngineError (StateM Device) α) : BuildM α :=
  ExceptT.mk fun a ↦
    let (outcome, device) := action a.device
    (outcome, { a with device })

/-- The cached state object of a descriptor. -/
def state {δ : Type} {kind : ObjectKind} [DecidableEq δ] [CachedDescriptor δ kind] (desc : δ)
    (wrap : DeviceError → EngineError) : BuildM (Handle kind) :=
  ExceptT.mk fun a ↦
    let (outcome, states, device) := a.states.request desc a.device
    (outcome.mapError wrap, { a with device, states })

end BuildM

/-! ## Shaders and uniform buffer -/

/-- Creates the shader of every entry point. -/
def createShaders : List EntryPoint → BuildM (List (String × Handle .shader))
  | [] => return []
  | e :: rest => do
    let shader ← BuildM.onDevice <|
      (Device.createShader e.stage e.bytecode).named (.shaderCreation e.name e.stage)
    keeping [shader.ref] do
      return (e.name, shader) :: (← createShaders rest)

/-- The size of the buffer for so many bytes of uniform data: the next multiple of 16. -/
def uniformBufferSize (bytes : Nat) : Nat := (bytes + 15) / 16 * 16

/-- Creates the buffer for uniform data, if there is any. -/
def createUniformBuffer (e : Effect) : BuildM (Option (Handle .buffer)) :=
  if e.uniforms.size = 0 then return none
  else do
    let size := uniformBufferSize e.uniforms.size
    let buffer ← BuildM.onDevice <|
      (Device.createConstantBuffer size).named (.constantBufferCreation e.module.name size)
    return some buffer

/-! ## Slot tables -/

/-- The sampler states and texture bindings of an effect, by slot. -/
structure SlotTables where
  /-- Sampler states. -/
  samplers : List (Option (Handle .sampler))
  /-- Texture bindings. -/
  bindings : List ViewSlot

namespace SlotTables

/-- Tables with nothing bound, as long as the module and the device allow. -/
def ofModule (m : EffectModule) : SlotTables :=
  { samplers := List.replicate (min m.samplerSlots.toNat maxSamplerSlots) none
    bindings := List.replicate (min m.textureSlots.toNat maxTextureSlots) .empty }

def slotOf (a : Assets) (s : SamplerDecl) : Option ViewSlot :=
  (a.texture? s.textureName).bind fun t ↦
    match t.decl.reference with
    | .backBuffer => some (.backbuffer s.gamma)
    | .depthBuffer => some .depth
    | .owned => t.owned.map fun o ↦ .view (o.views.pick s.gamma)

/-- Binds a sampler. Of samplers that share a sampler slot the first one sets the state, of those
that share a texture slot the last one sets the texture. -/
def bind (tables : SlotTables) (s : SamplerDecl) : BuildM SlotTables := do
  if maxSamplerSlots ≤ s.binding.toNat then throw (.samplerSlotLimit s.name s.binding)
  if maxTextureSlots ≤ s.textureBinding.toNat then
    throw (.textureSlotLimit s.textureName s.textureBinding)
  match slotOf (← get) s with
  | none => throw (.unknownTexture s.textureName)
  | some slot =>
    -- the texture is bound even where the sampler slot is taken already
    let bindings := tables.bindings.set s.textureBinding.toNat slot
    if (tables.samplers[s.binding.toNat]?.join).isSome then return { tables with bindings }
    let desc := SamplerDesc.ofDecl s
    let state ← BuildM.state desc (.samplerCreation s.name desc)
    return { samplers := tables.samplers.set s.binding.toNat (some state), bindings }

def bindAll (tables : SlotTables) : List SamplerDecl → BuildM SlotTables
  | [] => return tables
  | s :: rest => do bindAll (← tables.bind s) rest

end SlotTables

/-! ## Passes -/

/-- The objects outside an effect that its passes are built against. -/
structure Scene where
  /-- The objects made for the swapchain. -/
  backbuffer : Backbuffer
  /-- The view of the scene depth, at the time of activation. -/
  depthView : Option (Handle .shaderView)

/-- What a pass draws into through one of its target slots. -/
structure PassTarget where
  /-- The view to draw into. -/
  view : Handle .renderTargetView
  /-- Width and height of the target. -/
  size : UInt32 × UInt32
  /-- The view to regenerate the levels of the target through, if it has several. -/
  mipView : Option (Handle .shaderView) := none

namespace PassTarget

def ofBackbuffer (b : Backbuffer) (gamma : Bool) : PassTarget :=
  { view := b.targets.pick gamma, size := (b.width, b.height) }

/-- A texture of the table as a target, whose view is created if this is the first pass to ask for
it. -/
def ofTexture (place : PassPlace) (gamma : Bool) (name : String) : BuildM PassTarget := do
  match (← get).texture? name with
  | none => throw (.unknownRenderTarget place name)
  | some t =>
    if t.decl.reference ≠ .owned then throw (.invalidRenderTarget place name)
    match t.owned with
    | none => throw (.unknownRenderTarget place name)
    | some o =>
      let (view, o) ← BuildM.onDevice (o.target name gamma)
      modify fun a ↦ a.setOwned name o
      return {
        view, size := (t.decl.width, t.decl.height)
        mipView := if o.hasMips (← get).device then some o.views.linear else none }

/-- Textures of the table as targets, in order. -/
def ofTextures (place : PassPlace) (gamma : Bool) : List String → BuildM (List PassTarget)
  | [] => return []
  | name :: rest => do
    let target ← ofTexture place gamma name
    return target :: (← ofTextures place gamma rest)

def ofPass (scene : Scene) (place : PassPlace) (p : PassDecl) : BuildM (List PassTarget) :=
  if p.targetsBackbuffer then return [ofBackbuffer scene.backbuffer p.gammaWrite]
  else ofTextures place p.gammaWrite p.targetNames

end PassTarget

/-- The shader of an entry point that a pass names. -/
def passShader (objects : EffectObjects) (place : PassPlace) (name : String) :
    BuildM (Handle .shader) :=
  match objects.shader? name with
  | some shader => return shader
  | none => throw (.unknownEntryPoint place name)

def buildPass (scene : Scene) (objects : EffectObjects) (bindings : List ViewSlot)
    (place : PassPlace) (p : PassDecl) : BuildM PassRecord := do
  let vertexShader ← passShader objects place p.vertexEntry
  let pixelShader ← passShader objects place p.pixelEntry
  if maxRenderTargets < p.targetNames.length then
    throw (.module (.tooManyRenderTargets place.technique place.pass p.targetNames.length))
  let targets ← PassTarget.ofPass scene place p
  let views := targets.map (·.view)
  let blend ← BuildM.state (BlendDesc.ofDecl p) (.blendStateCreation place)
  let depthStencil ← BuildM.state (DepthStencilDesc.ofDecl p) (.depthStencilStateCreation place)
  let (_, inputs) := resolveHazards (← get).device bindings (views.map some)
    (scene.backbuffer.resolveSlot scene.depthView)
  return {
    vertexShader, pixelShader, targets := views, inputs, blend, depthStencil
    mipViews := (targets.filterMap (·.mipView)).eraseDups
    stencilReference := p.stencilReference, stencilEnable := p.stencilEnable
    clearsTargets := p.clearsTargets, vertexCount := p.vertexCount
    viewport := p.explicitViewport?.getD ((targets.head?.map (·.size)).getD (0, 0)) }

/-- Builds the records of passes, the first of which has the given number. -/
def buildPasses (scene : Scene) (objects : EffectObjects) (bindings : List ViewSlot)
    (technique : String) : Nat → List PassDecl → BuildM (List PassRecord)
  | _, [] => return []
  | number, p :: rest => do
    let record ← buildPass scene objects bindings ⟨technique, number⟩ p
    return record :: (← buildPasses scene objects bindings technique (number + 1) rest)

/-! ## Techniques and effects -/

/-- Builds what a technique needs in order to run. -/
def buildTechnique (scene : Scene) (objects : EffectObjects) (tables : SlotTables)
    (t : Technique) : BuildM TechniqueState := do
  let timer ← BuildM.onDevice (Timer.create.named (.queryCreation t.name))
  keeping timer.refs do
    let passes ← buildPasses scene objects tables.bindings t.name 0 t.passes
    return { samplers := tables.samplers, bindings := tables.bindings, passes, timer }

/-- The technique table with the states of the techniques of one effect built. -/
def buildTechniques (scene : Scene) (objects : EffectObjects) (tables : SlotTables)
    (index : Nat) : List Technique → BuildM (List Technique)
  | [] => return []
  | t :: rest =>
    if t.effect = index then do
      let state ← buildTechnique scene objects tables t
      keeping state.refs do
        return { t with state := some state }
          :: (← buildTechniques scene objects tables index rest)
    else do
      return t :: (← buildTechniques scene objects tables index rest)

/-- Creates the device objects of an effect and builds its techniques: the objects and the technique
table with the techniques. -/
def buildEffect (scene : Scene) (index : Nat) (e : Effect) (techniques : List Technique) :
    BuildM (EffectObjects × List Technique) := do
  let shaders ← createShaders e.module.entryPoints
  keeping (shaders.map (·.2.ref)) do
    let uniformBuffer ← createUniformBuffer e
    keeping (uniformBuffer.toList.map Handle.ref) do
      let objects : EffectObjects := { shaders, uniformBuffer }
      let tables ← (SlotTables.ofModule e.module).bindAll e.module.samplers
      let techniques ← buildTechniques scene objects tables index techniques
      return (objects, techniques)

end EffectChain
