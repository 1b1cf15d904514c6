import EffectChain.Device.Basic
import EffectChain.Module.Validation

/-!
# Errors of the effect chain

Every failed creation names the element it was for and what it was to be made from, so a report says
exactly what went wrong; `EngineError.message` has the wording.
-/

namespace EffectChain

/-- The objects made for a backbuffer. -/
inductive BackbufferPart
  | resolveTexture
  | copyTexture
  | shaderView
  | renderTargetView
  | depthStencilTexture
  | depthStencilView
  deriving DecidableEq

def BackbufferPart.description : BackbufferPart → String
  | resolveTexture => "resolve texture"
  | copyTexture => "copy texture"
  | shaderView => "shader resource view"
  | renderTargetView => "render target view"
  | depthStencilTexture => "depth-stencil texture"
  | depthStencilView => "depth-stencil view"

/-- A pass of a technique, for messages. -/
structure PassPlace where
  /-- Name of the technique. -/
  technique : String
  /-- Position of the pass. -/
  pass : Nat
  deriving DecidableEq

def PassPlace.text (p : PassPlace) : String :=
  "pass " ++ toString p.pass ++ " in technique '" ++ p.technique ++ "'"

/-- Why an operation of the chain failed. -/
inductive EngineError
  /-- There is no backbuffer yet. -/
  | notInitialized
  /-- An object of the backbuffer could not be created. -/
  | backbuffer (part : BackbufferPart) (cause : DeviceError)
  /-- A declared texture could not be created. -/
  | textureCreation (texture : TextureDecl) (cause : DeviceError)
  /-- A shader view of a declared texture could not be created. -/
  | shaderViewCreation (texture : String) (format : Format) (cause : DeviceError)
  /-- A render target view of a declared texture could not be created. -/
  | renderTargetViewCreation (texture : String) (format : Format) (cause : DeviceError)
  /-- A sampler state could not be created. -/
  | samplerCreation (sampler : String) (desc : SamplerDesc) (cause : DeviceError)
  /-- A blend state could not be created. -/
  | blendStateCreation (place : PassPlace) (cause : DeviceError)
  /-- A depth-stencil state could not be created. -/
  | depthStencilStateCreation (place : PassPlace) (cause : DeviceError)
  /-- A shader could not be created. -/
  | shaderCreation (name : String) (stage : ShaderStage) (cause : DeviceError)
  /-- A constant buffer could not be created. -/
  | constantBufferCreation (effect : String) (size : Nat) (cause : DeviceError)
  /-- The queries of a timer could not be created. -/
  | queryCreation (technique : String) (cause : DeviceError)
  /-- A sampler is bound to a slot that does not exist. -/
  | samplerSlotLimit (sampler : String) (binding : UInt32)
  /-- A texture is bound to a slot that does not exist. -/
  | textureSlotLimit (texture : String) (binding : UInt32)
  /-- No such texture is loaded. -/
  | unknownTexture (name : String)
  /-- A pass draws with an entry point that the effect does not have. -/
  | unknownEntryPoint (place : PassPlace) (name : String)
  /-- A pass draws into a texture that is not loaded. -/
  | unknownRenderTarget (place : PassPlace) (name : String)
  /-- A pass draws into the frame or the scene depth by name. -/
  | invalidRenderTarget (place : PassPlace) (name : String)
  /-- Textures of the format take no upload. -/
  | unsupportedUpload (texture : String) (format : Format)
  /-- An upload has the wrong size. -/
  | uploadSize (texture : String) (expected actual : Nat)
  /-- The texture stands for the frame or the scene depth and cannot be written. -/
  | referenceTexture (name : String)
  /-- There is no effect of the index. -/
  | invalidEffect (index : Nat)
  /-- A write goes beyond the uniform storage. -/
  | uniformRange (offset length size : Nat)
  /-- The module is not valid. -/
  | module (cause : ModuleError)
  deriving DecidableEq

namespace EngineError

def message : EngineError → String
  | notInitialized => "runtime is not initialized"
  | backbuffer part cause =>
    "failed to create " ++ part.description ++ " for the backbuffer: " ++ cause.message
  | textureCreation t cause =>
    "failed to create texture '" ++ t.name ++ "' (width = " ++ toString t.width.toNat
      ++ ", height = " ++ toString t.height.toNat ++ ", levels = " ++ toString t.levels.toNat
      ++ ", format = " ++ t.format.deviceFormat.name ++ "): " ++ cause.message
  | shaderViewCreation texture format cause =>
    "failed to create shader resource view for texture '" ++ texture ++ "' (format = "
      ++ format.name ++ "): " ++ cause.message
  | renderTargetViewCreation texture format cause =>
    "failed to create render target view for texture '" ++ texture ++ "' (format = "
      ++ format.name ++ "): " ++ cause.message
  | samplerCreation sampler desc cause =>
    "failed to create sampler state for sampler '" ++ sampler ++ "' (" ++ desc.text ++ "): "
      ++ cause.message
  | blendStateCreation place cause =>
    "failed to create blend state for " ++ place.text ++ ": " ++ cause.message
  | depthStencilStateCreation place cause =>
    "failed to create depth-stencil state for " ++ place.text ++ ": " ++ cause.message
  | shaderCreation name stage cause =>
    "failed to create " ++ Enumeration.name stage ++ " shader for entry point '" ++ name ++ "': "
      ++ cause.message
  | constantBufferCreation effect size cause =>
    "failed to create constant buffer for effect '" ++ effect ++ "' (" ++ toString size
      ++ " bytes): " ++ cause.message
  | queryCreation technique cause =>
    "failed to create timestamp queries for technique '" ++ technique ++ "': " ++ cause.message
  | samplerSlotLimit sampler binding =>
    "cannot bind sampler '" ++ sampler
      ++ "' since it exceeds the maximum number of allowed sampler slots ("
      ++ toString binding.toNat ++ ", allowed are up to " ++ toString maxSamplerSlots ++ ")"
  | textureSlotLimit texture binding =>
    "cannot bind texture '" ++ texture
      ++ "' since it exceeds the maximum number of allowed resource slots ("
      ++ toString binding.toNat ++ ", allowed are up to " ++ toString maxTextureSlots ++ ")"
  | unknownTexture name => "texture '" ++ name ++ "' is not loaded"
  | unknownEntryPoint place name =>
    place.text ++ " uses unknown entry point '" ++ name ++ "'"
  | unknownRenderTarget place name =>
    place.text ++ " renders to unknown texture '" ++ name ++ "'"
  | invalidRenderTarget place name =>
    place.text ++ " cannot render to reference texture '" ++ name ++ "'"
  | unsupportedUpload texture format =>
    "texture upload is not supported for format " ++ format.name ++ " (texture '" ++ texture
      ++ "')"
  | uploadSize texture expected actual =>
    "texture upload for '" ++ texture ++ "' expects " ++ toString expected ++ " bytes, got "
      ++ toString actual
  | referenceTexture name =>
    "texture '" ++ name ++ "' references another resource and cannot be written"
  | invalidEffect index => "effect index " ++ toString index ++ " is out of range"
  | uniformRange offset length size =>
    "uniform write of " ++ toString length ++ " bytes at offset " ++ toString offset
      ++ " exceeds storage of " ++ toString size ++ " bytes"
  | module cause => cause.message

end EngineError

end EffectChain
