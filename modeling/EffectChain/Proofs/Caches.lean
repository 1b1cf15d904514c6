import EffectChain.Proofs.Persistence
import EffectChain.StateCache
import Mathlib.Algebra.Order.Group.Multiset
import Mathlib.Tactic.Abel

/-!
# The three caches as one

Activation requests state objects from three caches, one for each type of descriptor. What it relies
on is the same for all: a request puts back the cache it took and leaves the other two alone
(`LawfulCache`), so a cached object is only ever joined by others (`StateObjects.Grows`). What is
behind a cached object is what its descriptor makes (`StateObjects.Sound`).
-/

namespace EffectChain

/-- Each cache holds what it held before. -/
structure StateObjects.Grows (s s' : StateObjects) : Prop where
  /-- Sampler states. -/
  samplers : s.samplers.entries ⊆ s'.samplers.entries
  /-- Blend states. -/
  blends : s.blends.entries ⊆ s'.blends.entries
  /-- Depth-stencil states. -/
  depthStencils : s.depthStencils.entries ⊆ s'.depthStencils.entries

namespace StateObjects.Grows

protected theorem refl (s : StateObjects) : s.Grows s where
  samplers := List.Subset.refl _
  blends := List.Subset.refl _
  depthStencils := List.Subset.refl _

protected theorem trans {s₁ s₂ s₃ : StateObjects} (h₁₂ : s₁.Grows s₂) (h₂₃ : s₂.Grows s₃) :
    s₁.Grows s₃ where
  samplers := List.Subset.trans h₁₂.samplers h₂₃.samplers
  blends := List.Subset.trans h₁₂.blends h₂₃.blends
  depthStencils := List.Subset.trans h₁₂.depthStencils h₂₃.depthStencils

end StateObjects.Grows

/-! ## What is behind a cached object -/

/-- The device accepts the descriptor, and this is what it makes of it. -/
def StateDescriptor.Makes {δ : Type} {kind : ObjectKind} [StateDescriptor δ kind] (desc : δ)
    (x : kind.Content) : Prop :=
  StateDescriptor.create desc = Device.create kind fun _ ↦ .ok x

/-- The cached objects were made of their descriptors. -/
def StateCache.Sound {δ : Type} {kind : ObjectKind} [StateDescriptor δ kind] (d : Device)
    (c : StateCache δ kind) : Prop :=
  ∀ entry ∈ c.entries, ∃ x, StateDescriptor.Makes entry.desc x ∧ d.Made entry.handle x

theorem StateCache.Sound.evolves {δ : Type} {kind : ObjectKind} [StateDescriptor δ kind]
    {d d' : Device} {c : StateCache δ kind} (h : c.Sound d) (hd : d.Evolves d') : c.Sound d' := by
  intro entry hentry
  obtain ⟨x, hmakes, hmade⟩ := h entry hentry
  exact ⟨x, hmakes, hmade.evolves hd⟩

/-- The objects of all three caches were made of their descriptors. -/
structure StateObjects.Sound (d : Device) (s : StateObjects) : Prop where
  /-- Sampler states. -/
  samplers : s.samplers.Sound d
  /-- Blend states. -/
  blends : s.blends.Sound d
  /-- Depth-stencil states. -/
  depthStencils : s.depthStencils.Sound d

namespace StateObjects.Sound

theorem evolves {d d' : Device} {s : StateObjects} (h : s.Sound d) (hd : d.Evolves d') :
    s.Sound d' where
  samplers := h.samplers.evolves hd
  blends := h.blends.evolves hd
  depthStencils := h.depthStencils.evolves hd

theorem empty (d : Device) : ({} : StateObjects).Sound d where
  samplers := List.forall_mem_nil _
  blends := List.forall_mem_nil _
  depthStencils := List.forall_mem_nil _

end StateObjects.Sound

/-! ## One cache of three -/

open CachedDescriptor (cache withCache)

/-- Descriptors whose cache is one of three that do not overlap. -/
class LawfulCache (δ : Type) (kind : outParam ObjectKind) [CachedDescriptor δ kind] : Prop where
  /-- State objects are no textures. -/
  kind_ne : kind ≠ .texture
  /-- State objects are created like all objects. -/
  create_eq : ∀ desc : δ,
    ∃ content, StateDescriptor.create desc = Device.create kind fun _ ↦ content
  /-- What is put in is there. -/
  cache_withCache : ∀ (s : StateObjects) (c : StateCache δ kind), cache (withCache s c) = c
  /-- The references of a cache are exchanged for others. -/
  refs_withCache : ∀ (s : StateObjects) (c : StateCache δ kind),
    (↑(withCache s c).refs : Multiset ObjectRef) + ↑(cache s : StateCache δ kind).refs
      = ↑c.refs + ↑s.refs
  /-- The other caches stay. -/
  grows_withCache : ∀ (s : StateObjects) (c : StateCache δ kind),
    (cache s).entries ⊆ c.entries → s.Grows (withCache s c)
  /-- The cache is as sound as the three are. -/
  sound_cache : ∀ {d : Device} {s : StateObjects}, s.Sound d → (cache s : StateCache δ kind).Sound d
  /-- The three are as sound as the cache that is put in. -/
  sound_withCache : ∀ {d : Device} {s : StateObjects} {c : StateCache δ kind}, s.Sound d →
    c.Sound d → (withCache s c).Sound d

theorem StateObjects.coe_refs (s : StateObjects) :
    (↑s.refs : Multiset ObjectRef) = ↑s.samplers.refs + ↑s.blends.refs + ↑s.depthStencils.refs := by
  rw [Multiset.coe_add, Multiset.coe_add]
  rfl

instance : LawfulCache SamplerDesc .sampler where
  kind_ne := nofun
  create_eq desc := by
    change ∃ content, Device.createSampler desc = _
    rw [Device.createSampler]
    exact ⟨_, rfl⟩
  cache_withCache _ _ := rfl
  refs_withCache s c := by
    rw [StateObjects.coe_refs, StateObjects.coe_refs s]
    change (↑c.refs : Multiset ObjectRef) + ↑s.blends.refs + ↑s.depthStencils.refs
      + ↑s.samplers.refs = _
    abel
  grows_withCache _ _ h :=
    { samplers := h, blends := List.Subset.refl _, depthStencils := List.Subset.refl _ }
  sound_cache h := h.samplers
  sound_withCache h hc := ⟨hc, h.blends, h.depthStencils⟩

instance : LawfulCache BlendDesc .blendState where
  kind_ne := nofun
  create_eq desc := by
    change ∃ content, Device.createBlendState desc = _
    rw [Device.createBlendState]
    exact ⟨_, rfl⟩
  cache_withCache _ _ := rfl
  refs_withCache s c := by
    rw [StateObjects.coe_refs, StateObjects.coe_refs s]
    change (↑s.samplers.refs : Multiset ObjectRef) + ↑c.refs + ↑s.depthStencils.refs
      + ↑s.blends.refs = _
    abel
  grows_withCache _ _ h :=
    { samplers := List.Subset.refl _, blends := h, depthStencils := List.Subset.refl _ }
  sound_cache h := h.blends
  sound_withCache h hc := ⟨h.samplers, hc, h.depthStencils⟩

instance : LawfulCache DepthStencilDesc .depthStencilState where
  kind_ne := nofun
  create_eq desc := by
    change ∃ content, Device.createDepthStencilState desc = _
    rw [Device.createDepthStencilState]
    exact ⟨_, rfl⟩
  cache_withCache _ _ := rfl
  refs_withCache s c := by
    rw [StateObjects.coe_refs, StateObjects.coe_refs s]
    change (↑s.samplers.refs : Multiset ObjectRef) + ↑s.blends.refs + ↑c.refs
      + ↑s.depthStencils.refs = _
    abel
  grows_withCache _ _ h :=
    { samplers := List.Subset.refl _, blends := List.Subset.refl _, depthStencils := h }
  sound_cache h := h.depthStencils
  sound_withCache h hc := ⟨h.samplers, h.blends, hc⟩

namespace StateDescriptor

variable {δ : Type} {kind : ObjectKind} [CachedDescriptor δ kind] [LawfulCache δ kind] {desc : δ}

theorem makes_of_create {d d' : Device} {h : Handle kind}
    (run : StateDescriptor.create desc d = (.ok h, d')) :
    ∃ x, Makes desc x ∧ d'.get? h = some x ∧ d'.Made h x := by
  obtain ⟨content, hcreate⟩ := LawfulCache.create_eq desc
  rw [hcreate] at run
  obtain ⟨-, x, rfl, hget, hmade⟩ := Device.made_of_create run
  exact ⟨x, hcreate, hget, hmade⟩

omit [LawfulCache δ kind] in
theorem Makes.content_eq {content : Except DeviceError kind.Content} {x : kind.Content}
    (h : Makes desc x)
    (hcreate : StateDescriptor.create desc = Device.create kind fun _ ↦ content) :
    content = .ok x := by
  -- on a new device the outcome of a creation is its content
  have hsame := congrFun (hcreate.symm.trans h) ({} : Device)
  rcases content with e | y
  · cases congrArg Prod.fst hsame
  · have hget := congrArg (fun run ↦ run.2.get? (⟨1⟩ : Handle kind)) hsame
    have hstored (z : kind.Content) : (Device.create kind (fun _ ↦ .ok z) {}).2.get?
        (⟨1⟩ : Handle kind) = some z := Store.get?_insert_self _ _ _
    rw [show y = x from Option.some.inj ((hstored y).symm.trans (hget.trans (hstored x)))]

end StateDescriptor

/-! The descriptor itself is what is stored. -/

theorem SamplerDesc.eq_of_makes {desc x : SamplerDesc} (h : StateDescriptor.Makes desc x) :
    x = desc := by
  have hcontent : (if desc.maxLod.lt desc.minLod then
      .error (DeviceError.invalidArgument (.lodRange desc.maxLod desc.minLod)) else .ok desc)
        = Except.ok x := h.content_eq rfl
  split at hcontent <;> cases hcontent
  rfl

theorem BlendDesc.eq_of_makes {desc x : BlendDesc} (h : StateDescriptor.Makes desc x) :
    x = desc :=
  (Except.ok.inj (h.content_eq rfl)).symm

theorem DepthStencilDesc.eq_of_makes {desc x : DepthStencilDesc}
    (h : StateDescriptor.Makes desc x) : x = desc :=
  (Except.ok.inj (h.content_eq rfl)).symm

theorem StateCache.Sound.insert {δ : Type} {kind : ObjectKind} [CachedDescriptor δ kind]
    [LawfulCache δ kind] {c : StateCache δ kind} {desc : δ} {d d' : Device} {h : Handle kind}
    (hc : c.Sound d') (run : StateDescriptor.create desc d = (.ok h, d')) :
    (c.insert desc h).Sound d' := by
  obtain ⟨x, hmakes, -, hmade⟩ := StateDescriptor.makes_of_create run
  exact List.forall_mem_cons.mpr ⟨⟨x, hmakes, hmade⟩, hc⟩

end EffectChain
