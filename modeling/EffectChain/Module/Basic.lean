import EffectChain.Bytes
import EffectChain.Format
import EffectChain.Module.Pass
import EffectChain.Saturating
import EffectChain.Single

/-!
# Effect modules

A module is one compiled effect: its entry points, the textures and samplers it declares with the
slots they bind to, its techniques, and the initial contents of its uniform storage. Names refer to
declarations by first match (`EffectModule.entryPoint?`, `EffectModule.texture?`), and
`EffectModule.reserveSlots` makes the declared slot counts cover every slot in use.
-/

namespace EffectChain

/-- The stage that an entry point is compiled for. -/
inductive ShaderStage
  | vertex
  | pixel
  deriving DecidableEq

instance : Enumeration ShaderStage where
  members := [.vertex, .pixel]
  name
    | .vertex => "vertex"
    | .pixel => "pixel"

/-- A compiled entry point. -/
structure EntryPoint where
  /-- Function name. -/
  name : String
  /-- Stage it was compiled for. -/
  stage : ShaderStage
  /-- Compiled code. -/
  bytecode : Bytes := .empty

/-! ## Textures -/

/-- What a texture declaration stands for. -/
inductive TextureReference
  /-- A texture of the chain's own. -/
  | owned
  /-- The current frame. -/
  | backBuffer
  /-- The selected scene depth buffer. -/
  | depthBuffer
  deriving DecidableEq

instance : Enumeration TextureReference where
  members := [.owned, .backBuffer, .depthBuffer]
  name
    | .owned => "none"
    | .backBuffer => "back_buffer"
    | .depthBuffer => "depth_buffer"

/-- A texture declaration. Size, levels and format mean nothing for a reference. -/
structure TextureDecl where
  /-- Name, shared by all loaded effects. -/
  name : String
  /-- Width in texels. -/
  width : UInt32 := 1
  /-- Height in texels. -/
  height : UInt32 := 1
  /-- Mip levels; zero asks for all that fit. -/
  levels : UInt32 := 1
  /-- Texel format. -/
  format : TextureFormat := .rgba8
  /-- What the declaration stands for. -/
  reference : TextureReference := .owned
  deriving DecidableEq

/-- A one-texel declaration that stands for the frame or the scene depth. -/
def TextureDecl.alias (name : String) (reference : TextureReference) : TextureDecl :=
  { name, reference }

/-! ## Samplers -/

/-- Filtering of a sampler: point or linear for minification, magnification and between mips. -/
inductive FilterMode
  | minMagMipPoint
  | minMagPointMipLinear
  | minPointMagLinearMipPoint
  | minPointMagMipLinear
  | minLinearMagMipPoint
  | minLinearMagPointMipLinear
  | minMagLinearMipPoint
  | minMagMipLinear
  | anisotropic
  deriving DecidableEq

instance : Enumeration FilterMode where
  members :=
    [.minMagMipPoint, .minMagPointMipLinear, .minPointMagLinearMipPoint, .minPointMagMipLinear,
      .minLinearMagMipPoint, .minLinearMagPointMipLinear, .minMagLinearMipPoint, .minMagMipLinear,
      .anisotropic]
  name
    | .minMagMipPoint => "min_mag_mip_point"
    | .minMagPointMipLinear => "min_mag_point_mip_linear"
    | .minPointMagLinearMipPoint => "min_point_mag_linear_mip_point"
    | .minPointMagMipLinear => "min_point_mag_mip_linear"
    | .minLinearMagMipPoint => "min_linear_mag_mip_point"
    | .minLinearMagPointMipLinear => "min_linear_mag_point_mip_linear"
    | .minMagLinearMipPoint => "min_mag_linear_mip_point"
    | .minMagMipLinear => "min_mag_mip_linear"
    | .anisotropic => "anisotropic"

/-- The device code of a filter: bit 0 for linear mips, bit 2 for linear magnification, bit 4 for
linear minification, bit 6 for anisotropy. -/
def FilterMode.deviceCode : FilterMode → UInt32
  | .minMagMipPoint => 0x00
  | .minMagPointMipLinear => 0x01
  | .minPointMagLinearMipPoint => 0x04
  | .minPointMagMipLinear => 0x05
  | .minLinearMagMipPoint => 0x10
  | .minLinearMagPointMipLinear => 0x11
  | .minMagLinearMipPoint => 0x14
  | .minMagMipLinear => 0x15
  | .anisotropic => 0x55

/-- Treatment of texture coordinates outside the texture. -/
inductive AddressMode
  | wrap
  | mirror
  | clamp
  | border
  deriving DecidableEq

instance : Enumeration AddressMode where
  members := [.wrap, .mirror, .clamp, .border]
  name
    | .wrap => "wrap"
    | .mirror => "mirror"
    | .clamp => "clamp"
    | .border => "border"

/-- The device code of an addressing mode. -/
def AddressMode.deviceCode : AddressMode → UInt32
  | .wrap => 1
  | .mirror => 2
  | .clamp => 3
  | .border => 4

/-- A sampler declaration: a texture and a filtering state, each bound to a slot. -/
structure SamplerDecl where
  /-- Sampler name. -/
  name : String
  /-- Name of the texture it reads. -/
  textureName : String
  /-- Sampler slot. -/
  binding : UInt32
  /-- Texture slot. -/
  textureBinding : UInt32
  /-- Whether it reads through the gamma-decoding view. -/
  gamma : Bool := false
  /-- Filter. -/
  filter : FilterMode := .minMagMipLinear
  /-- Addressing in the first direction. -/
  addressU : AddressMode := .clamp
  /-- Addressing in the second direction. -/
  addressV : AddressMode := .clamp
  /-- Addressing in the third direction. -/
  addressW : AddressMode := .clamp
  /-- Offset added to the computed mip level. -/
  lodBias : Single := .zero
  /-- Smallest mip level in use. -/
  minLod : Single := .zero
  /-- Largest mip level in use. -/
  maxLod : Single := .maxFinite
  deriving DecidableEq

/-! ## Techniques and modules -/

/-- A technique declaration: passes that run one after the other. -/
structure TechniqueDecl where
  /-- Name shown to the user. -/
  name : String
  /-- Passes, in order of execution. -/
  passes : List PassDecl
  /-- Whether it runs right after loading. -/
  enabled : Bool := true
  deriving DecidableEq

/-- A compiled effect. -/
structure EffectModule where
  /-- Name used in reports. -/
  name : String := ""
  /-- Compiled entry points. -/
  entryPoints : List EntryPoint := []
  /-- Texture declarations. -/
  textures : List TextureDecl := []
  /-- Sampler declarations. -/
  samplers : List SamplerDecl := []
  /-- Technique declarations. -/
  techniques : List TechniqueDecl := []
  /-- Number of sampler slots. -/
  samplerSlots : UInt32 := 0
  /-- Number of texture slots. -/
  textureSlots : UInt32 := 0
  /-- Initial contents of the uniform storage. -/
  uniformData : Bytes := .empty

namespace EffectModule

def entryPoint? (m : EffectModule) (name : String) : Option EntryPoint :=
  m.entryPoints.find? fun e ↦ e.name = name

/-- The first texture declaration of a name. -/
def texture? (m : EffectModule) (name : String) : Option TextureDecl :=
  m.textures.find? fun t ↦ t.name = name

/-- The smallest slot count that is at least `count` and covers every slot of `slots`. Counts stop
at the largest word, so the largest slot is covered by no count. -/
def coverSlots (count : UInt32) (slots : List UInt32) : UInt32 :=
  slots.foldl (fun n slot ↦ max n (satAdd slot 1)) count

/-- The module with slot counts that cover every declared slot. -/
def reserveSlots (m : EffectModule) : EffectModule :=
  { m with
    samplerSlots := coverSlots m.samplerSlots (m.samplers.map (·.binding))
    textureSlots := coverSlots m.textureSlots (m.samplers.map (·.textureBinding)) }

end EffectModule

end EffectChain
