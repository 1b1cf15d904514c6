/-!
# Device objects and their handles

Ten kinds of object live on a device. A handle carries the kind of its object in its type, so a
sampler cannot be bound as a texture, while its number comes from one counter shared by all kinds.
-/

namespace EffectChain

/-- The kinds of device object. -/
inductive ObjectKind
  | texture
  | shaderView
  | renderTargetView
  | depthStencilView
  | sampler
  | blendState
  | depthStencilState
  | shader
  | buffer
  | query
  deriving DecidableEq

/-- What an object of the kind is called in messages. -/
def ObjectKind.description : ObjectKind → String
  | texture => "texture"
  | shaderView => "shader resource view"
  | renderTargetView => "render target view"
  | depthStencilView => "depth-stencil view"
  | sampler => "sampler state"
  | blendState => "blend state"
  | depthStencilState => "depth-stencil state"
  | shader => "shader"
  | buffer => "buffer"
  | query => "query"

/-- A reference to a device object of a kind. -/
structure Handle (kind : ObjectKind) where
  /-- The number that the device gave the object. -/
  id : Nat
  deriving DecidableEq

/-- A reference to a device object of any kind. -/
structure ObjectRef where
  /-- The kind of the object. -/
  kind : ObjectKind
  /-- The number that the device gave the object. -/
  id : Nat
  deriving DecidableEq

/-- A handle without its kind in the type. -/
def Handle.ref {kind : ObjectKind} (h : Handle kind) : ObjectRef := ⟨kind, h.id⟩

theorem Handle.ref_inj {kind : ObjectKind} {h₁ h₂ : Handle kind} :
    h₁.ref = h₂.ref ↔ h₁ = h₂ := by
  cases h₁
  cases h₂
  simp [Handle.ref]

end EffectChain
