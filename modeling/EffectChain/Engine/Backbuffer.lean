import EffectChain.Device.Ownership
import EffectChain.Engine.Error
import EffectChain.Engine.Hazard
import EffectChain.Engine.Variants

/-!
# The backbuffer

What the chain makes for a swapchain: a target that effects draw into, which is the swapchain's own
buffer unless that is multisampled or cannot be viewed linearly; a copy of the scene that shaders
can read; views of both; and a stencil surface shared by all effects.
-/

namespace EffectChain

/-- A swapchain. -/
structure Swapchain where
  /-- Its buffer. -/
  buffer : Handle .texture
  /-- Width in texels. -/
  width : UInt32
  /-- Height in texels. -/
  height : UInt32
  /-- Texel format. -/
  format : Format
  /-- Samples of a texel. -/
  sampleCount : UInt32 := 1

/-- The objects made for a swapchain. -/
structure Backbuffer where
  /-- The swapchain's buffer. -/
  buffer : Handle .texture
  /-- The single-sampled scene target, the swapchain's buffer unless that must be resolved. -/
  resolved : Handle .texture
  /-- The copy of the scene. -/
  copy : Handle .texture
  /-- Views of the copy for shaders. -/
  views : Variants (Handle .shaderView)
  /-- Views of the scene target. -/
  targets : Variants (Handle .renderTargetView)
  /-- The stencil surface. -/
  stencil : Handle .texture
  /-- The view of the stencil surface. -/
  stencilView : Handle .depthStencilView
  /-- Texel format. -/
  format : Format
  /-- Width in texels. -/
  width : UInt32
  /-- Height in texels. -/
  height : UInt32

namespace Backbuffer

abbrev Creation : Type → Type := ExceptT EngineError (StateM Device)

/-- Both variants of a view, or one view for both if the formats agree. -/
def createVariants {kind : ObjectKind} {α : Type} (format : Format)
    (view : Format → Creation (Handle kind)) (rest : Variants (Handle kind) → Creation α) :
    Creation α := do
  let linear ← view format.linear
  keeping [linear.ref] do
    if format.gamma = format.linear then rest ⟨linear, linear⟩
    else
      let gamma ← view format.gamma
      keeping [gamma.ref] (rest ⟨linear, gamma⟩)

/-- The scene target: the swapchain's buffer, or a texture to resolve it into. -/
def createResolved {α : Type} (s : Swapchain) (rest : Handle .texture → Creation α) :
    Creation α := do
  if 1 < s.sampleCount ∨ s.format.linear ≠ s.format then
    let resolved ←
      (Device.createTexture
        { width := s.width, height := s.height, format := s.format.typeless,
          usage := .targetOnly }).named (.backbuffer .resolveTexture)
    keeping [resolved.ref] (rest resolved)
  else rest s.buffer

/-- Creates the objects for a swapchain, or none of them. -/
def create (s : Swapchain) : Creation Backbuffer :=
  createResolved s fun resolved ↦ do
    let copy ←
      (Device.createTexture
        { width := s.width, height := s.height, format := s.format.typeless,
          usage := .readOnly }).named (.backbuffer .copyTexture)
    keeping [copy.ref] do
      createVariants s.format
        (fun format ↦ (Device.createShaderView copy format 1).named (.backbuffer .shaderView))
        fun views ↦ createVariants s.format
          (fun format ↦
            (Device.createRenderTargetView resolved format).named (.backbuffer .renderTargetView))
          fun targets ↦ do
            let stencil ←
              (Device.createTexture
                { width := s.width, height := s.height, format := .d24UnormS8Uint,
                  usage := .stencilOnly }).named (.backbuffer .depthStencilTexture)
            keeping [stencil.ref] do
              let stencilView ←
                (Device.createDepthStencilView stencil).named (.backbuffer .depthStencilView)
              return {
                buffer := s.buffer, resolved, copy, views, targets, stencil, stencilView
                format := s.format, width := s.width, height := s.height }

/-- Whether the swapchain's buffer must be resolved into the scene target. -/
def needsResolve (b : Backbuffer) : Bool := b.resolved ≠ b.buffer

/-- The references to the objects made for the swapchain, each once. -/
def refs (b : Backbuffer) : List ObjectRef :=
  (if b.needsResolve then [b.resolved.ref] else [])
    ++ b.copy.ref :: (b.views.distinct.map Handle.ref ++ b.targets.distinct.map Handle.ref
      ++ [b.stencil.ref, b.stencilView.ref])

theorem mem_refs_of_view (b : Backbuffer) (gamma : Bool) : (b.views.pick gamma).ref ∈ b.refs := by
  have hmem := List.mem_map_of_mem (f := Handle.ref) (b.views.pick_mem_distinct gamma)
  simp [refs, hmem]

theorem mem_refs_of_target (b : Backbuffer) (gamma : Bool) :
    (b.targets.pick gamma).ref ∈ b.refs := by
  have hmem := List.mem_map_of_mem (f := Handle.ref) (b.targets.pick_mem_distinct gamma)
  simp [refs, hmem]

/-- The view that a slot stands for, given the view of the scene depth. -/
def resolveSlot (b : Backbuffer) (depthView : Option (Handle .shaderView)) :
    ViewSlot → Option (Handle .shaderView)
  | .empty => none
  | .view view => some view
  | .backbuffer gamma => some (b.views.pick gamma)
  | .depth => depthView

end Backbuffer

end EffectChain
