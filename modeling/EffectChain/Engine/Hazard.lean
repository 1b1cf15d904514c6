import EffectChain.Device.Basic

/-!
# Hazards

A pass must not read a texture that it draws into. Inputs and outputs are compared by the texture
behind their views, so the linear and the gamma-encoded view of one texture conflict too, and an
input that conflicts is emptied. An input may be an alias of the frame or of the scene depth, which
stands for a view only at a given moment.
-/

namespace EffectChain

/-- What is bound to an input slot of a pass. -/
inductive ViewSlot
  /-- Nothing. -/
  | empty
  /-- A fixed view. -/
  | view (view : Handle .shaderView)
  /-- The current frame, through one of its two views. -/
  | backbuffer (gamma : Bool)
  /-- The scene depth buffer of the moment. -/
  | depth
  deriving DecidableEq

/-- The textures that are drawn into through the given views. -/
def writtenTextures (d : Device) (outputs : List (Option (Handle .renderTargetView))) :
    List (Handle .texture) :=
  outputs.filterMap fun output ↦ output.bind d.targetTexture?

/-- Whether a slot stands for a view of one of the written textures. -/
def ViewSlot.conflicts (slot : ViewSlot) (d : Device) (written : List (Handle .texture))
    (resolve : ViewSlot → Option (Handle .shaderView)) : Bool :=
  ((resolve slot).bind d.viewTexture?).any fun texture ↦ texture ∈ written

/-- Empties the inputs that conflict with the outputs, and counts them. -/
def resolveHazards (d : Device) (inputs : List ViewSlot)
    (outputs : List (Option (Handle .renderTargetView)))
    (resolve : ViewSlot → Option (Handle .shaderView)) : Nat × List ViewSlot :=
  let written := writtenTextures d outputs
  (inputs.countP fun slot ↦ slot.conflicts d written resolve,
    inputs.map fun slot ↦ if slot.conflicts d written resolve then .empty else slot)

end EffectChain
