import EffectChain.Device.Execution
import EffectChain.Device.Ownership
import EffectChain.Engine.Error
import EffectChain.Engine.Variants

/-!
# Textures of the chain's own

A texture that an effect declares gets a resource, typeless where its format allows, and shader
views of both variants over all of its levels. A view to draw into it is created when a pass first
asks for that variant, and the texture is zeroed then. Pixels come in as four 8-bit channels and are
packed to the channels of the format (`packUpload`).
-/

namespace EffectChain

/-- The device objects of a declared texture. -/
structure OwnedTexture where
  /-- The texture itself. -/
  resource : Handle .texture
  /-- Views for shaders. -/
  views : Variants (Handle .shaderView)
  /-- Views to draw into, as far as they were asked for. -/
  targets : Variants (Option (Handle .renderTargetView)) := ⟨none, none⟩
  deriving DecidableEq

namespace OwnedTexture

/-- Creates the texture and its shader views. -/
def create (t : TextureDecl) : ExceptT EngineError (StateM Device) OwnedTexture := do
  let format := t.format.deviceFormat
  let view (texture : Handle .texture) (format : Format) (levels : UInt32) :=
    (Device.createShaderView texture format levels).named (.shaderViewCreation t.name format)
  let resource ←
    (Device.createTexture
      { width := t.width, height := t.height, levels := t.levels, format,
        usage := .effectTexture }).named (.textureCreation t)
  keeping [resource.ref] do
    let levels := ((← get).textureDesc? resource).elim (max t.levels 1) (·.levels)
    let linear ← view resource format.linear levels
    keeping [linear.ref] do
      let gamma ←
        if format.gamma = format.linear then pure linear else view resource format.gamma levels
      return { resource, views := ⟨linear, gamma⟩ }

/-- The view to draw into the texture, and the texture with it. A view that is created is cleared to
transparent black. -/
def target (o : OwnedTexture) (name : String) (gamma : Bool) :
    ExceptT EngineError (StateM Device) (Handle .renderTargetView × OwnedTexture) := do
  match o.targets.pick gamma with
  | some view => return (view, o)
  | none =>
    match (← get).textureDesc? o.resource with
    | none => throw (.unknownTexture name)
    | some desc =>
      let format := if gamma then desc.format.gamma else desc.format.linear
      let view ←
        (Device.createRenderTargetView o.resource format).named
          (.renderTargetViewCreation name format)
      -- issued at once, whatever becomes of the pass that asked for the view
      modify fun d ↦ d.issue (.clearRenderTarget view .transparent)
      return (view, { o with targets := o.targets.set gamma (some view) })

/-- Whether the texture has more than one level. -/
def hasMips (o : OwnedTexture) (d : Device) : Bool :=
  (d.textureDesc? o.resource).any fun desc ↦ 1 < desc.levels

theorem hasMips_of_get? {o : OwnedTexture} {d : Device} {c : Texture}
    (h : d.get? o.resource = some c) : o.hasMips d = decide (1 < c.desc.levels) := by
  rw [hasMips, Device.textureDesc?, h]
  rfl

/-- The references to the objects of the texture, each once. -/
def refs (o : OwnedTexture) : List ObjectRef :=
  o.resource.ref :: (o.views.distinct.map Handle.ref
    ++ ([o.targets.linear, o.targets.gamma].filterMap id).map Handle.ref)

theorem mem_refs_of_view (o : OwnedTexture) (gamma : Bool) :
    (o.views.pick gamma).ref ∈ o.refs :=
  List.mem_cons_of_mem _ (List.mem_append_left _ (List.mem_map_of_mem
    (o.views.pick_mem_distinct gamma)))

theorem mem_refs_of_target (o : OwnedTexture) {gamma : Bool} {view : Handle .renderTargetView}
    (h : o.targets.pick gamma = some view) : view.ref ∈ o.refs := by
  refine List.mem_cons_of_mem _ (List.mem_append_right _ (List.mem_map_of_mem ?_))
  cases gamma <;> simp_all [Variants.pick]

end OwnedTexture

/-! ## Uploads -/

/-- Four-channel 8-bit pixels packed to the channels of a declared texture. -/
def packUpload (t : TextureDecl) (pixels : Bytes) : Except EngineError Bytes :=
  match t.format.uploadChannels? with
  | none => .error (.unsupportedUpload t.name t.format.deviceFormat)
  | some channels =>
    let texels := t.width.toNat * t.height.toNat
    if pixels.size ≠ texels * 4 then .error (.uploadSize t.name (texels * 4) pixels.size)
    else
      .ok (Bytes.tabulate (texels * channels) fun i ↦
        pixels.byteAt (i / channels * 4 + i % channels))

end EffectChain
