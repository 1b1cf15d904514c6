import EffectChain.Proofs.Backbuffer

/-!
# What the record of a pass refers to

The record of a pass holds bare handles. What they refer to is recorded elsewhere: shaders with the
effect, state objects in the caches, views in the texture table or with the backbuffer
(`PassRecord.Sound`, `TechniqueState.Sound`). The owner of each can change while the record stays,
so these properties have to survive all that happens to the assets in the meantime
(`TechniqueState.Sound.follows`).

An entry of the texture table lasts as long as some effect declares it (`Assets.Follows`). The
inputs of an effect are textures that it declares itself. A target may belong to other effects only,
and what can be said of it then is just that it was a view of the entry of its name, which is there
still unless the view is gone (`Assets.TargetOf`).
-/

namespace EffectChain

/-! ## Views that stay apart -/

namespace Device

variable {d d' : Device} {v : Handle .shaderView} {t : Handle .renderTargetView}
  {x : Handle .texture}

theorem Evolves.viewTexture? (h : d.Evolves d') (hid : v.id ≤ d.lastId)
    (hx : d'.viewTexture? v = some x) : d.viewTexture? v = some x := by
  obtain ⟨view', hget', rfl⟩ := Option.map_eq_some_iff.mp hx
  obtain ⟨view, hget, halike⟩ := h.get? hid hget'
  rw [Device.viewTexture?, hget]
  exact congrArg (fun view ↦ some (View.texture view)) (Eq.symm halike)

theorem Evolves.targetTexture? (h : d.Evolves d') (hid : t.id ≤ d.lastId)
    (hx : d'.targetTexture? t = some x) : d.targetTexture? t = some x := by
  obtain ⟨view', hget', rfl⟩ := Option.map_eq_some_iff.mp hx
  obtain ⟨view, hget, halike⟩ := h.get? hid hget'
  rw [Device.targetTexture?, hget]
  exact congrArg (fun view ↦ some (View.texture view)) (Eq.symm halike)

/-- The views are not, and never were, views of one texture. -/
structure Apart (d : Device) (v : Handle .shaderView) (t : Handle .renderTargetView) : Prop where
  /-- The view for shaders was given out. -/
  shown : v.id ≤ d.lastId
  /-- The view to draw into was given out. -/
  drawn : t.id ≤ d.lastId
  /-- They are not views of one texture. -/
  ne : ∀ x, d.viewTexture? v = some x → d.targetTexture? t ≠ some x

theorem Apart.evolves (h : d.Apart v t) (hd : d.Evolves d') : d'.Apart v t where
  shown := h.shown.trans hd.lastId_le
  drawn := h.drawn.trans hd.lastId_le
  ne x hv ht := h.ne x (hd.viewTexture? h.shown hv) (hd.targetTexture? h.drawn ht)

end Device

/-! ## Assets as an effect sees them -/

/-- The entry of the texture table stays for an effect. -/
structure TableTexture.Keeps (index : Nat) (t t' : TableTexture) : Prop where
  /-- The declaration stays. -/
  decl : t'.decl = t.decl
  /-- The effect still declares it. -/
  effects : index ∈ t.effects → index ∈ t'.effects
  /-- Its device objects stay. -/
  owned : ∀ o, t.owned = some o → ∃ o', t'.owned = some o' ∧ o.Grows o'

theorem TableTexture.Grows.keeps {t t' : TableTexture} (h : t.Grows t') (index : Nat) :
    t.Keeps index t' where
  decl := h.decl
  effects hmem := h.effects hmem
  owned := h.owned

namespace Assets

/-- The assets later on: what an effect declares stays in the table, and what leaves the table is
gone. -/
structure Follows (index : Nat) (a a' : Assets) : Prop where
  /-- The device evolves. -/
  device : a.device.Evolves a'.device
  /-- Cached states stay. -/
  states : a.states.Grows a'.states
  /-- An entry stays, or is gone if the effect does not declare it. -/
  textures : ∀ t ∈ a.textures, (∃ t' ∈ a'.textures, t.Keeps index t') ∨
    (index ∉ t.effects ∧ ∀ r ∈ t.refs, r ∉ a'.device.live)

theorem Grows.follows {a a' : Assets} (h : a.Grows a') (index : Nat) : a.Follows index a' where
  device := h.device
  states := h.states
  textures t ht := by
    obtain ⟨t', ht', hgrows⟩ := exists_of_forall₂_left h.textures ht
    exact Or.inl ⟨t', ht', hgrows.keeps index⟩

/-- The view is one of a texture that the effect declares. -/
def Serves (a : Assets) (index : Nat) (v : Handle .shaderView) : Prop :=
  ∃ t ∈ a.textures, index ∈ t.effects ∧
    ∃ o gamma, t.owned = some o ∧ o.views.pick gamma = v

/-- The texture table has a texture of the name, which the effect declares. -/
def Declares (a : Assets) (index : Nat) (name : String) : Prop :=
  ∃ t ∈ a.textures, t.decl.name = name ∧ index ∈ t.effects

theorem Declares.grows {index : Nat} {name : String} {a a' : Assets} (h : a.Declares index name)
    (hgrows : a.Grows a') : a'.Declares index name := by
  obtain ⟨t, ht, hname, hindex⟩ := h
  obtain ⟨t', ht', hgrows'⟩ := exists_of_forall₂_left hgrows.textures ht
  exact ⟨t', ht', hgrows'.name.trans hname, hgrows'.effects hindex⟩

/-- The texture table has the texture of a name, with the objects it had, and perhaps more. -/
def Has (a : Assets) (name : String) (o : OwnedTexture) (effects : List Nat → Prop) : Prop :=
  ∃ t ∈ a.textures, t.decl.name = name ∧ effects t.effects ∧ ∃ o', t.owned = some o' ∧ o.Grows o'

/-- The view was created to draw into the texture of a name, which had these objects then. -/
structure TargetOf (a : Assets) (index : Nat) (declared : List String) (name : String)
    (gamma : Bool) (view : Handle .renderTargetView) (o : OwnedTexture) : Prop where
  /-- It is the view for the wanted encoding. -/
  pick : o.targets.pick gamma = some view
  /-- It was given out. -/
  given : view.id ≤ a.device.lastId
  /-- The texture is in the table, or the view is gone. -/
  kept : a.Has name o (fun _ ↦ True) ∨ view.ref ∉ a.device.live
  /-- A texture that the effect declares is in the table. -/
  own : name ∈ declared → a.Has name o (index ∈ ·)

/-- The levels of the texture are regenerated through one of the views, if there are several. -/
structure Regenerates (a : Assets) (mipViews : List (Handle .shaderView)) (o : OwnedTexture) :
    Prop where
  /-- The texture was given out. -/
  given : o.resource.id ≤ a.device.lastId
  /-- Its view for shaders is among the views. -/
  mem : ∀ c : Texture, a.device.get? o.resource = some c → 1 < c.desc.levels →
    o.views.linear ∈ mipViews

/-- The views were created to draw into the textures that a pass names, and the others are views of
these textures, of all that have several levels. -/
def TargetsOf (a : Assets) (index : Nat) (declared : List String) (p : PassDecl)
    (views : List (Handle .renderTargetView)) (mipViews : List (Handle .shaderView)) : Prop :=
  ∃ sources : List (Handle .renderTargetView × OwnedTexture), views = sources.map (·.1) ∧
    List.Forall₂ (fun name s ↦ a.TargetOf index declared name p.gammaWrite s.1 s.2) p.targetNames
      sources ∧
    mipViews ⊆ sources.map (·.2.views.linear) ∧ ∀ s ∈ sources, a.Regenerates mipViews s.2

variable {index : Nat} {declared : List String} {a a' : Assets}

theorem Serves.follows {v : Handle .shaderView} (h : a.Serves index v) (hf : a.Follows index a') :
    a'.Serves index v := by
  obtain ⟨t, ht, hindex, o, gamma, howned, rfl⟩ := h
  rcases hf.textures t ht with ⟨t', ht', hkeeps⟩ | ⟨hnot, -⟩
  · obtain ⟨o', howned', hgrows⟩ := hkeeps.owned o howned
    exact ⟨t', ht', hkeeps.effects hindex, o', gamma, howned', by rw [hgrows.views]⟩
  · exact absurd hindex hnot

theorem TargetOf.follows {name : String} {gamma : Bool} {view : Handle .renderTargetView}
    {o : OwnedTexture} (h : a.TargetOf index declared name gamma view o)
    (hf : a.Follows index a') : a'.TargetOf index declared name gamma view o where
  pick := h.pick
  given := h.given.trans hf.device.lastId_le
  kept := by
    rcases h.kept with ⟨t, ht, hname, -, o₁, howned, hgrows⟩ | hgone
    · rcases hf.textures t ht with ⟨t', ht', hkeeps⟩ | ⟨-, hgone⟩
      · obtain ⟨o₂, howned₂, hgrows₂⟩ := hkeeps.owned o₁ howned
        exact Or.inl ⟨t', ht', by rw [hkeeps.decl, hname], trivial, o₂, howned₂,
          hgrows.trans hgrows₂⟩
      · refine Or.inr (hgone _ ?_)
        have hview := o₁.mem_refs_of_target (hgrows.targets gamma view h.pick)
        simpa [TableTexture.refs, howned] using hview
    · exact Or.inr (hf.device.not_mem_live h.given hgone)
  own hmem := by
    obtain ⟨t, ht, hname, hindex, o₁, howned, hgrows⟩ := h.own hmem
    rcases hf.textures t ht with ⟨t', ht', hkeeps⟩ | ⟨hnot, -⟩
    · obtain ⟨o₂, howned₂, hgrows₂⟩ := hkeeps.owned o₁ howned
      exact ⟨t', ht', by rw [hkeeps.decl, hname], hkeeps.effects hindex, o₂, howned₂,
        hgrows.trans hgrows₂⟩
    · exact absurd hindex hnot

theorem Regenerates.follows {mipViews : List (Handle .shaderView)} {o : OwnedTexture}
    (h : a.Regenerates mipViews o) (hf : a.Follows index a') : a'.Regenerates mipViews o where
  given := h.given.trans hf.device.lastId_le
  mem c' hc' hlevels := by
    obtain ⟨c, hc, halike⟩ := hf.device.get? h.given hc'
    exact h.mem c hc (lt_of_lt_of_eq hlevels (congrArg TextureDesc.levels halike))

theorem TargetsOf.follows {p : PassDecl} {views : List (Handle .renderTargetView)}
    {mipViews : List (Handle .shaderView)} (h : a.TargetsOf index declared p views mipViews)
    (hf : a.Follows index a') : a'.TargetsOf index declared p views mipViews := by
  obtain ⟨sources, hviews, hsources, hmips, hregenerates⟩ := h
  exact ⟨sources, hviews, hsources.imp fun _ _ hof ↦ hof.follows hf, hmips,
    fun s hs ↦ (hregenerates s hs).follows hf⟩

end Assets

/-! ## Records -/

/-- What the record of a pass refers to. -/
structure PassRecord.Sound (a : Assets) (b : Backbuffer) (objects : EffectObjects) (index : Nat)
    (declared : List String) (bindings : List ViewSlot) (p : PassDecl) (r : PassRecord) :
    Prop where
  /-- It draws with the declared shaders. -/
  vertexShader : objects.shader? p.vertexEntry = some r.vertexShader
  pixelShader : objects.shader? p.pixelEntry = some r.pixelShader
  /-- Its states are cached. -/
  blend : r.blend ∈ a.states.blends.handles
  depthStencil : r.depthStencil ∈ a.states.depthStencils.handles
  /-- It draws as many vertices as declared. -/
  vertexCount : r.vertexCount = p.vertexCount
  /-- It has no more targets than there are slots. -/
  length_le : r.targets.length ≤ maxRenderTargets
  /-- It draws into the backbuffer if no texture is named. -/
  backbuffer : p.targetsBackbuffer = true →
    r.targets = [b.targets.pick p.gammaWrite] ∧ r.mipViews = []
  /-- It draws into the named textures, whose levels are regenerated. -/
  textures : p.targetsBackbuffer = false → a.TargetsOf index declared p r.targets r.mipViews
  /-- It reads what the effect binds. -/
  inputs : ∀ slot ∈ r.inputs, slot = .empty ∨ slot ∈ bindings
  /-- No input but the scene depth is a view of a texture that it draws into. -/
  apart : ∀ slot ∈ r.inputs, slot ≠ .depth → ∀ v, b.resolveSlot none slot = some v →
    ∀ t ∈ r.targets, a.device.Apart v t

/-- What the state of a technique refers to. -/
structure TechniqueState.Sound (a : Assets) (b : Backbuffer) (objects : EffectObjects)
    (index : Nat) (declared : List String) (passes : List PassDecl) (s : TechniqueState) :
    Prop where
  /-- Its samplers are cached. -/
  samplers : ∀ h, some h ∈ s.samplers → h ∈ a.states.samplers.handles
  /-- It reads textures that its effect declares. -/
  bindings : ∀ v, ViewSlot.view v ∈ s.bindings → a.Serves index v
  /-- It has a record for every declared pass. -/
  passes : List.Forall₂ (PassRecord.Sound a b objects index declared s.bindings) passes s.passes

section Follows

variable {index : Nat} {declared : List String} {a a' : Assets} {b : Backbuffer}
  {objects : EffectObjects}

theorem handles_subset {δ : Type} {kind : ObjectKind} {c c' : StateCache δ kind}
    (h : c.entries ⊆ c'.entries) : c.handles ⊆ c'.handles :=
  List.map_subset _ h

theorem PassRecord.Sound.follows {bindings : List ViewSlot} {p : PassDecl} {r : PassRecord}
    (h : r.Sound a b objects index declared bindings p) (hf : a.Follows index a') :
    r.Sound a' b objects index declared bindings p where
  vertexShader := h.vertexShader
  pixelShader := h.pixelShader
  blend := handles_subset hf.states.blends h.blend
  depthStencil := handles_subset hf.states.depthStencils h.depthStencil
  vertexCount := h.vertexCount
  length_le := h.length_le
  backbuffer := h.backbuffer
  textures hp := (h.textures hp).follows hf
  inputs := h.inputs
  apart slot hslot hdepth v hv t ht := (h.apart slot hslot hdepth v hv t ht).evolves hf.device

/-- **What a technique refers to stays**, as its effect sees it. -/
theorem TechniqueState.Sound.follows {passes : List PassDecl} {s : TechniqueState}
    (h : s.Sound a b objects index declared passes) (hf : a.Follows index a') :
    s.Sound a' b objects index declared passes where
  samplers sampler hmem := handles_subset hf.states.samplers (h.samplers sampler hmem)
  bindings v hv := (h.bindings v hv).follows hf
  passes := h.passes.imp fun _ _ hr ↦ hr.follows hf

theorem TechniqueState.Sound.withTimer {passes : List PassDecl} {s : TechniqueState}
    (h : s.Sound a b objects index declared passes) (timer : Timer) :
    ({ s with timer } : TechniqueState).Sound a b objects index declared passes :=
  ⟨h.samplers, h.bindings, h.passes⟩

end Follows

end EffectChain
