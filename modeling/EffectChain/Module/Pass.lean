import EffectChain.Enumeration

/-!
# Pass declarations

A pass draws once, into named textures or into the backbuffer, under a fixed-function state that is
spelled out by small enumerations. Depth testing cannot be declared: an effect never writes a depth
buffer. The default values are those of a pass that names nothing but its shaders.
-/

namespace EffectChain

/-- How many render targets can be bound at once. -/
def maxRenderTargets : Nat := 8

/-! ## Fixed-function vocabulary -/

/-- A weight of the source or destination colour in blending. -/
inductive BlendFactor
  | zero
  | one
  | srcColor
  | srcAlpha
  | invSrcColor
  | invSrcAlpha
  | dstColor
  | dstAlpha
  | invDstColor
  | invDstAlpha
  deriving DecidableEq

instance : Enumeration BlendFactor where
  members :=
    [.zero, .one, .srcColor, .srcAlpha, .invSrcColor, .invSrcAlpha, .dstColor, .dstAlpha,
      .invDstColor, .invDstAlpha]
  name
    | .zero => "zero"
    | .one => "one"
    | .srcColor => "src_color"
    | .srcAlpha => "src_alpha"
    | .invSrcColor => "inv_src_color"
    | .invSrcAlpha => "inv_src_alpha"
    | .dstColor => "dst_color"
    | .dstAlpha => "dst_alpha"
    | .invDstColor => "inv_dst_color"
    | .invDstAlpha => "inv_dst_alpha"

/-- How weighted source and destination are combined. -/
inductive BlendOp
  | add
  | subtract
  | revSubtract
  | min
  | max
  deriving DecidableEq

instance : Enumeration BlendOp where
  members := [.add, .subtract, .revSubtract, .min, .max]
  name
    | .add => "add"
    | .subtract => "subtract"
    | .revSubtract => "rev_subtract"
    | .min => "min"
    | .max => "max"

/-- What a stencil test does to the stored value. -/
inductive StencilOp
  | keep
  | zero
  | invert
  | replace
  | incr
  | incrSat
  | decr
  | decrSat
  deriving DecidableEq

instance : Enumeration StencilOp where
  members := [.keep, .zero, .invert, .replace, .incr, .incrSat, .decr, .decrSat]
  name
    | .keep => "keep"
    | .zero => "zero"
    | .invert => "invert"
    | .replace => "replace"
    | .incr => "incr"
    | .incrSat => "incr_sat"
    | .decr => "decr"
    | .decrSat => "decr_sat"

/-- A comparison of a reference value with a stored one. -/
inductive ComparisonFunc
  | never
  | less
  | equal
  | lessEqual
  | greater
  | notEqual
  | greaterEqual
  | always
  deriving DecidableEq

instance : Enumeration ComparisonFunc where
  members :=
    [.never, .less, .equal, .lessEqual, .greater, .notEqual, .greaterEqual, .always]
  name
    | .never => "never"
    | .less => "less"
    | .equal => "equal"
    | .lessEqual => "less_equal"
    | .greater => "greater"
    | .notEqual => "not_equal"
    | .greaterEqual => "greater_equal"
    | .always => "always"

/-! ## The declaration -/

/-- One declared pass of a technique. -/
structure PassDecl where
  /-- Name of the vertex entry point. -/
  vertexEntry : String := ""
  /-- Name of the pixel entry point. -/
  pixelEntry : String := ""
  /-- Names of the target textures, in attachment order; none means the backbuffer. -/
  targetNames : List String := []
  /-- Viewport width; zero leaves the size of the first target. -/
  viewportWidth : UInt32 := 0
  /-- Viewport height; zero leaves the size of the first target. -/
  viewportHeight : UInt32 := 0
  /-- Vertices of the draw. -/
  vertexCount : UInt32 := 3
  /-- Whether the targets are zeroed before the draw. -/
  clearsTargets : Bool := false
  /-- Whether the targets are written through their gamma-encoding views. -/
  gammaWrite : Bool := false
  /-- Whether blending is on, for all attachments. -/
  blendEnable : Bool := false
  /-- Weight of the source colour. -/
  srcBlend : BlendFactor := .one
  /-- Weight of the destination colour. -/
  destBlend : BlendFactor := .zero
  /-- Combination of the weighted colours. -/
  blendOp : BlendOp := .add
  /-- Weight of the source alpha. -/
  srcBlendAlpha : BlendFactor := .one
  /-- Weight of the destination alpha. -/
  destBlendAlpha : BlendFactor := .zero
  /-- Combination of the weighted alphas. -/
  blendOpAlpha : BlendOp := .add
  /-- Which channels are written, red in the lowest bit. -/
  colorWriteMask : UInt8 := 0x0F
  /-- Whether the stencil test is on. -/
  stencilEnable : Bool := false
  /-- Bits of the stencil value that are compared. -/
  stencilReadMask : UInt8 := 0xFF
  /-- Bits of the stencil value that are written. -/
  stencilWriteMask : UInt8 := 0xFF
  /-- Reference value of the stencil test. -/
  stencilReference : UInt32 := 0
  /-- Comparison of the stencil test. -/
  stencilFunc : ComparisonFunc := .always
  /-- What happens where the test passes. -/
  stencilPass : StencilOp := .keep
  /-- What happens where the test fails. -/
  stencilFail : StencilOp := .keep
  /-- What happens where the depth test fails. -/
  stencilDepthFail : StencilOp := .keep
  deriving DecidableEq

namespace PassDecl

/-- Whether the pass draws into the backbuffer. -/
def targetsBackbuffer (p : PassDecl) : Bool := p.targetNames.isEmpty

/-- The explicit viewport, which takes both dimensions to be set. -/
def explicitViewport? (p : PassDecl) : Option (UInt32 × UInt32) :=
  if p.viewportWidth ≠ 0 ∧ p.viewportHeight ≠ 0 then some (p.viewportWidth, p.viewportHeight)
  else none

end PassDecl

end EffectChain
