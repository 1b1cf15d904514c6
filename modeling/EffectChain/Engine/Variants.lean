/-!
# Linear and gamma-encoded variants

Views of a texture come in pairs, one that reads or writes texels as they are and one that converts
from or to the gamma-encoded form. A format without a gamma-encoded variant uses one view for both.
-/

namespace EffectChain

/-- A linear and a gamma-encoded variant of something. -/
structure Variants (α : Type) where
  /-- The linear variant. -/
  linear : α
  /-- The gamma-encoded variant. -/
  gamma : α
  deriving DecidableEq

namespace Variants

variable {α : Type}

def pick (v : Variants α) (gamma : Bool) : α := if gamma then v.gamma else v.linear

def set (v : Variants α) (gamma : Bool) (a : α) : Variants α :=
  if gamma then { v with gamma := a } else { v with linear := a }

/-- The different ones among the variants, the linear one first. -/
def distinct [DecidableEq α] (v : Variants α) : List α :=
  if v.gamma = v.linear then [v.linear] else [v.linear, v.gamma]

theorem pick_mem_distinct [DecidableEq α] (v : Variants α) (gamma : Bool) :
    v.pick gamma ∈ v.distinct := by
  unfold distinct
  cases gamma <;> split <;> simp_all [pick]

theorem pick_set_self (v : Variants α) (gamma : Bool) (a : α) :
    (v.set gamma a).pick gamma = a := by
  cases gamma <;> rfl

theorem pick_set_other (v : Variants α) (gamma : Bool) (a : α) :
    (v.set gamma a).pick (!gamma) = v.pick (!gamma) := by
  cases gamma <;> rfl

end Variants

end EffectChain
