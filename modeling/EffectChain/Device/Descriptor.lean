import EffectChain.Decimal
import EffectChain.Fnv
import EffectChain.Module.Basic

/-!
# Descriptors

What a texture, a sampler or a fixed-function state is made from. State descriptors have a 32-bit
content hash, by which the caches find them, and an equality, which for the single precision fields
of a sampler is equality of bits.
-/

namespace EffectChain

def maxSamplerSlots : Nat := 16

def maxTextureSlots : Nat := 128

/-! ## Textures -/

/-- How a texture may be bound. -/
structure TextureUsage where
  /-- Read by shaders. -/
  shaderResource : Bool := false
  /-- Drawn into. -/
  renderTarget : Bool := false
  /-- Bound as depth and stencil. -/
  depthStencil : Bool := false
  /-- Mip levels regenerated by the device. -/
  generateMips : Bool := false
  deriving DecidableEq

namespace TextureUsage

def readOnly : TextureUsage := { shaderResource := true }

def targetOnly : TextureUsage := { renderTarget := true }

/-- Drawn into, read, and mipmapped: a texture that an effect declares. -/
def effectTexture : TextureUsage :=
  { shaderResource := true, renderTarget := true, generateMips := true }

def stencilOnly : TextureUsage := { depthStencil := true }

/-- Bound as depth and read by shaders: an application's depth buffer. -/
def readableDepth : TextureUsage := { shaderResource := true, depthStencil := true }

end TextureUsage

/-- What a two-dimensional texture is made from. -/
structure TextureDesc where
  /-- Width in texels. -/
  width : UInt32
  /-- Height in texels. -/
  height : UInt32
  /-- Mip levels; zero asks for all that fit. -/
  levels : UInt32 := 1
  /-- Texel format. -/
  format : Format
  /-- Samples of a texel. -/
  sampleCount : UInt32 := 1
  /-- How it may be bound. -/
  usage : TextureUsage
  deriving DecidableEq

/-- A depth buffer of an application that lets shaders read it. -/
def TextureDesc.depthBuffer (width height sampleCount : UInt32) : TextureDesc :=
  { width, height, format := .r24g8Typeless, sampleCount, usage := .readableDepth }

/-- How many mip levels fit: down to one texel, halving the larger side. -/
def TextureDesc.fullLevels (d : TextureDesc) : Nat :=
  (max (max d.width.toNat d.height.toNat) 1).log2 + 1

/-! ## Sampler states -/

/-- What a sampler state is made from. -/
structure SamplerDesc where
  /-- Filter. -/
  filter : FilterMode := .minMagMipPoint
  /-- Addressing in the first direction. -/
  addressU : AddressMode := .clamp
  /-- Addressing in the second direction. -/
  addressV : AddressMode := .clamp
  /-- Addressing in the third direction. -/
  addressW : AddressMode := .clamp
  /-- Offset added to the computed mip level. -/
  lodBias : Single := .zero
  /-- Limit of the anisotropic filter. -/
  maxAnisotropy : UInt32 := 1
  /-- Comparison of a comparing filter. -/
  comparison : ComparisonFunc := .never
  /-- Smallest mip level in use. -/
  minLod : Single := .zero
  /-- Largest mip level in use. -/
  maxLod : Single := .maxFinite
  deriving DecidableEq

namespace SamplerDesc

def ofDecl (s : SamplerDecl) : SamplerDesc :=
  { filter := s.filter, addressU := s.addressU, addressV := s.addressV, addressW := s.addressW,
    lodBias := s.lodBias, minLod := s.minLod, maxLod := s.maxLod }

/-- The descriptor as it is shown in messages. -/
def text (d : SamplerDesc) : String :=
  "Filter = 0x" ++ String.ofList (Nat.toDigits 16 d.filter.deviceCode.toNat)
    ++ ", AddressU = " ++ toString d.addressU.deviceCode.toNat
    ++ ", AddressV = " ++ toString d.addressV.deviceCode.toNat
    ++ ", AddressW = " ++ toString d.addressW.deviceCode.toNat
    ++ ", MipLODBias = " ++ d.lodBias.text
    ++ ", MinLOD = " ++ d.minLod.text
    ++ ", MaxLOD = " ++ d.maxLod.text

/-- The fields as words, in the order of hashing. -/
def words (d : SamplerDesc) : List UInt32 :=
  [d.filter.deviceCode, d.addressU.deviceCode, d.addressV.deviceCode, d.addressW.deviceCode,
    d.lodBias.bits, d.maxAnisotropy, (Enumeration.code d.comparison).toUInt32, d.minLod.bits,
    d.maxLod.bits]

def contentHash (d : SamplerDesc) : UInt32 := Fnv.hash (d.words.flatMap Bytes.ofWord32)

end SamplerDesc

/-! ## Blend states -/

/-- What a blend state is made from: the attachments differ in enabling and masks only. -/
structure BlendDesc where
  /-- Whether blending is on, for each attachment. -/
  enable : Vector Bool maxRenderTargets := .replicate _ false
  /-- Weight of the source colour. -/
  srcBlend : BlendFactor := .one
  /-- Weight of the destination colour. -/
  destBlend : BlendFactor := .zero
  /-- Combination of the weighted colours. -/
  blendOp : BlendOp := .add
  /-- Weight of the source alpha. -/
  srcBlendAlpha : BlendFactor := .one
  /-- Weight of the destination alpha. -/
  destBlendAlpha : BlendFactor := .zero
  /-- Combination of the weighted alphas. -/
  blendOpAlpha : BlendOp := .add
  /-- Which channels are written, for each attachment. -/
  writeMask : Vector UInt8 maxRenderTargets := .replicate _ 0x0F
  deriving DecidableEq

namespace BlendDesc

/-- The state of a declared pass: all attachments alike. -/
def ofDecl (p : PassDecl) : BlendDesc :=
  { enable := .replicate _ p.blendEnable, srcBlend := p.srcBlend, destBlend := p.destBlend,
    blendOp := p.blendOp, srcBlendAlpha := p.srcBlendAlpha, destBlendAlpha := p.destBlendAlpha,
    blendOpAlpha := p.blendOpAlpha, writeMask := .replicate _ p.colorWriteMask }

/-- The fields as bytes, in the order of hashing. -/
def bytes (d : BlendDesc) : List UInt8 :=
  (d.enable.toList.zip d.writeMask.toList).flatMap (fun (enable, mask) ↦ [enable.toUInt8, mask])
    ++ [Enumeration.code d.srcBlend, Enumeration.code d.destBlend, Enumeration.code d.blendOp,
      Enumeration.code d.srcBlendAlpha, Enumeration.code d.destBlendAlpha,
      Enumeration.code d.blendOpAlpha]

def contentHash (d : BlendDesc) : UInt32 := Fnv.hash d.bytes

end BlendDesc

/-! ## Depth-stencil states -/

/-- The stencil operations of one face. -/
structure StencilFace where
  /-- What happens where the stencil test fails. -/
  fail : StencilOp := .keep
  /-- What happens where the depth test fails. -/
  depthFail : StencilOp := .keep
  /-- What happens where both pass. -/
  pass : StencilOp := .keep
  /-- Comparison of the stencil test. -/
  func : ComparisonFunc := .always
  deriving DecidableEq

/-- The operations as bytes, in the order of hashing. -/
def StencilFace.bytes (f : StencilFace) : List UInt8 :=
  [Enumeration.code f.fail, Enumeration.code f.depthFail, Enumeration.code f.pass,
    Enumeration.code f.func]

/-- What a depth-stencil state is made from. -/
structure DepthStencilDesc where
  /-- Whether the depth test is on. -/
  depthEnable : Bool := false
  /-- Whether depth is written. -/
  depthWrite : Bool := false
  /-- Comparison of the depth test. -/
  depthFunc : ComparisonFunc := .always
  /-- Whether the stencil test is on. -/
  stencilEnable : Bool := false
  /-- Bits of the stencil value that are compared. -/
  readMask : UInt8 := 0xFF
  /-- Bits of the stencil value that are written. -/
  writeMask : UInt8 := 0xFF
  /-- Operations of front faces. -/
  front : StencilFace := {}
  /-- Operations of back faces. -/
  back : StencilFace := {}
  deriving DecidableEq

namespace DepthStencilDesc

/-- The state of a declared pass: no depth test, and both faces alike. -/
def ofDecl (p : PassDecl) : DepthStencilDesc :=
  let face : StencilFace :=
    { fail := p.stencilFail, depthFail := p.stencilDepthFail, pass := p.stencilPass,
      func := p.stencilFunc }
  { stencilEnable := p.stencilEnable, readMask := p.stencilReadMask,
    writeMask := p.stencilWriteMask, front := face, back := face }

/-- The fields as bytes, in the order of hashing. -/
def bytes (d : DepthStencilDesc) : List UInt8 :=
  [d.depthEnable.toUInt8, d.depthWrite.toUInt8, Enumeration.code d.depthFunc,
    d.stencilEnable.toUInt8, d.readMask, d.writeMask] ++ d.front.bytes ++ d.back.bytes

def contentHash (d : DepthStencilDesc) : UInt32 := Fnv.hash d.bytes

end DepthStencilDesc

end EffectChain
