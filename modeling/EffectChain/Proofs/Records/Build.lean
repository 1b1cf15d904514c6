import EffectChain.Proofs.Activation
import EffectChain.Proofs.Hazards
import EffectChain.Proofs.Records.Sound

/-!
# What activation builds is sound

The records that activation returns refer to what it found or created (`sound_of_buildTechnique`).
Each fact is read off the run of the function that returned the handle, and carried from there to
the end of the activation by the growth of the assets.

That an effect's inputs are textures that it declares itself is what validation is for
(`EffectModule.exists_of_validate`).
-/

namespace EffectChain

theorem EffectModule.exists_of_validate {m : EffectModule} (h : m.validate = .ok ())
    {s : SamplerDecl} (hs : s ∈ m.samplers) :
    ∃ decl ∈ m.textures, decl.name = s.textureName := by
  rw [validate_eq_ok_iff, violations, List.append_eq_nil_iff, List.flatMap_eq_nil_iff] at h
  have hnone : m.samplerViolations s = [] := h.2 s hs
  rw [samplerViolations] at hnone
  split at hnone
  · rename_i hsome
    obtain ⟨decl, hdecl⟩ := Option.isSome_iff_exists.mp hsome
    exact ⟨decl, List.mem_of_find?_eq_some hdecl, by simpa using List.find?_some hdecl⟩
  · cases hnone

open Assets (Between)

variable {a a' : Assets} {index : Nat} {declared : List String}

/-! ## State objects -/

open CachedDescriptor (cache withCache) in
theorem mem_handles_of_state {δ : Type} {kind : ObjectKind} [DecidableEq δ]
    [CachedDescriptor δ kind] [LawfulCache δ kind] {desc : δ} {wrap : DeviceError → EngineError}
    {h : Handle kind} (run : BuildM.state desc wrap a = (.ok h, a')) :
    h ∈ (cache a'.states : StateCache δ kind).handles := by
  rw [run_state] at run
  rcases (cache a.states).request_cases desc a.device with
    ⟨h', hfind, hreq⟩ | ⟨h', d, hcreate, hreq⟩ | ⟨e, d, hcreate, hreq⟩ <;> rw [hreq] at run <;>
    cases run
  · rw [LawfulCache.cache_withCache]
    obtain ⟨entry, hentry, -, rfl⟩ := StateCache.mem_entries_of_find? hfind
    exact List.mem_map_of_mem hentry
  · rw [LawfulCache.cache_withCache]
    exact List.mem_cons_self

/-! ## Slot tables -/

/-- The texture that is found for a declared name is declared by the effect. -/
theorem mem_effects_of_texture? {name : String} {t : TableTexture} (hs : a.Sound)
    (hdeclares : a.Declares index name) (hfind : a.texture? name = some t) :
    index ∈ t.effects := by
  obtain ⟨hmem, hname⟩ := Assets.mem_of_texture? hfind
  obtain ⟨u, hu, huname, hindex⟩ := hdeclares
  rwa [List.inj_on_of_nodup_map hs.names hmem hu (hname.trans huname.symm)]

namespace SlotTables

/-- The samplers are cached and the textures declared by the effect. -/
structure Sound (a : Assets) (index : Nat) (tables : SlotTables) : Prop where
  /-- The samplers are cached. -/
  samplers : ∀ h, some h ∈ tables.samplers → h ∈ a.states.samplers.handles
  /-- The textures are declared by the effect. -/
  bindings : ∀ v, ViewSlot.view v ∈ tables.bindings → a.Serves index v

theorem Sound.grows {tables : SlotTables} (h : tables.Sound a index) (hgrows : a.Grows a') :
    tables.Sound a' index where
  samplers sampler hmem := handles_subset hgrows.states.samplers (h.samplers sampler hmem)
  bindings v hv := (h.bindings v hv).follows (hgrows.follows index)

theorem sound_ofModule (a : Assets) (index : Nat) (m : EffectModule) :
    (ofModule m).Sound a index where
  samplers h hmem := by
    cases List.eq_of_mem_replicate hmem
  bindings v hv := by
    cases List.eq_of_mem_replicate hv

theorem serves_of_slotOf {s : SamplerDecl} {v : Handle .shaderView} (hs : a.Sound)
    (hdeclares : a.Declares index s.textureName) (hslot : slotOf a s = some (.view v)) :
    a.Serves index v := by
  obtain ⟨t, hfind, hslot⟩ := Option.bind_eq_some_iff.mp hslot
  split at hslot
  · cases hslot
  · cases hslot
  · obtain ⟨o, howned, hview⟩ := Option.map_eq_some_iff.mp hslot
    cases hview
    exact ⟨t, (Assets.mem_of_texture? hfind).1, mem_effects_of_texture? hs hdeclares hfind, o,
      s.gamma, howned, rfl⟩

theorem sound_of_bind {tables tables' : SlotTables} {s : SamplerDecl} (hs : a.Sound)
    (hdeclares : a.Declares index s.textureName) (htables : tables.Sound a index)
    (run : tables.bind s a = (.ok tables', a')) : tables'.Sound a' index := by
  have hgrows : a.Grows a' := (((builds_bind tables s).run run).toExtends hs).1
  rcases tables.bind_cases s a with
    ⟨-, e, hrun⟩ | ⟨slot, hbinds, ⟨-, hrun⟩ | ⟨-, hrun⟩⟩ <;> rw [hrun] at run
  · cases run
  all_goals
    have hbindings : ∀ v, ViewSlot.view v ∈ tables.bindings.set s.textureBinding.toNat slot →
        a'.Serves index v := by
      intro v hv
      rcases List.mem_or_eq_of_mem_set hv with hv | rfl
      · exact (htables.grows hgrows).bindings v hv
      · exact (serves_of_slotOf hs hdeclares hbinds.slot).follows (hgrows.follows index)
  · -- the sampler slot is taken, and only the texture is bound
    cases run
    exact ⟨htables.samplers, hbindings⟩
  · rcases hstate : BuildM.state (SamplerDesc.ofDecl s)
        (.samplerCreation s.name (SamplerDesc.ofDecl s)) a with ⟨e | state, a₁⟩ <;>
      rw [hstate] at run <;> cases run
    refine ⟨fun h hmem ↦ ?_, hbindings⟩
    rcases List.mem_or_eq_of_mem_set hmem with hmem | heq
    · exact (htables.grows hgrows).samplers h hmem
    · cases heq
      exact mem_handles_of_state hstate

theorem sound_of_bindAll {tables tables' : SlotTables} {samplers : List SamplerDecl}
    (hs : a.Sound) (hdeclares : ∀ s ∈ samplers, a.Declares index s.textureName)
    (htables : tables.Sound a index) (run : tables.bindAll samplers a = (.ok tables', a')) :
    tables'.Sound a' index := by
  induction samplers generalizing a tables with
  | nil =>
    cases run
    exact htables
  | cons s rest ih =>
    obtain ⟨tables₁, a₁, hfirst, hrest⟩ := bind_eq_ok run
    obtain ⟨hgrows, hs₁⟩ := ((builds_bind tables s).run hfirst).toExtends hs
    refine ih hs₁ (fun r hr ↦ (hdeclares r (List.mem_cons_of_mem s hr)).grows hgrows) ?_ hrest
    exact sound_of_bind hs (hdeclares s List.mem_cons_self) htables hfirst

end SlotTables

/-! ## Targets -/

namespace PassTarget

theorem targetOf_of_ofTexture {place : PassPlace} {gamma : Bool} {name : String}
    {target : PassTarget} (hs : a.Sound) (hdeclares : name ∈ declared → a.Declares index name)
    (run : ofTexture place gamma name a = (.ok target, a')) :
    ∃ o, a'.TargetOf index declared name gamma target.view o ∧
      o.resource.id ≤ a'.device.lastId ∧
      target.mipView = if o.hasMips a'.device then some o.views.linear else none := by
  rcases ofTexture_cases place gamma name a with
    ⟨-, e, hrun⟩ | ⟨t, o, ⟨hfind, -, howned⟩, ⟨e, d, -, hrun⟩ | ⟨view, o', d, hstep, hrun⟩⟩ <;>
    rw [hrun] at run <;> cases run
  -- the view that is returned is recorded with the texture before anything else can fail
  obtain ⟨-, hpick, hsound⟩ := OwnedTexture.target_eq_ok hstep
  obtain ⟨hmem, hname⟩ := Assets.mem_of_texture? hfind
  have howner := hsound t.decl (hs.owned t hmem o howned)
  obtain ⟨format, hmade⟩ := howner.targets gamma view hpick
  have hentry : { t with owned := some o' }
      ∈ (({ a with device := d } : Assets).setOwned name o').textures :=
    List.mem_map.mpr ⟨t, hmem, if_pos hname⟩
  have hindex : name ∈ declared → index ∈ t.effects :=
    fun hdeclared ↦ mem_effects_of_texture? hs (hdeclares hdeclared) hfind
  exact ⟨o', {
    pick := hpick
    given := hmade.id_le
    kept := Or.inl ⟨_, hentry, hname, trivial, o', rfl, OwnedTexture.Grows.refl o'⟩
    own := fun hdeclared ↦ ⟨_, hentry, hname, hindex hdeclared, o', rfl,
      OwnedTexture.Grows.refl o'⟩ }, howner.given, rfl⟩

theorem sources_of_ofTextures {place : PassPlace} {gamma : Bool} {names : List String}
    {targets : List PassTarget} (hs : a.Sound)
    (hdeclares : ∀ name ∈ declared, a.Declares index name)
    (run : ofTextures place gamma names a = (.ok targets, a')) :
    ∃ sources : List (Handle .renderTargetView × OwnedTexture),
      targets.map (·.view) = sources.map (·.1) ∧
      List.Forall₂ (fun name s ↦ a'.TargetOf index declared name gamma s.1 s.2) names sources ∧
      targets.filterMap (·.mipView) ⊆ sources.map (·.2.views.linear) ∧
      ∀ s ∈ sources, a'.Regenerates (targets.filterMap (·.mipView)) s.2 := by
  have hbetween := ofTextures_eq_ok run
  clear run
  induction hbetween with
  | nil => exact ⟨[], rfl, List.Forall₂.nil, List.Subset.refl _, nofun⟩
  | @cons name target names targets hfirst _ ih =>
    obtain ⟨sources, hviews, hsources, hmips, hregenerates⟩ := ih
    obtain ⟨a₁, a₂, hbefore, hrun, hafter⟩ := hfirst
    obtain ⟨hgrows₁, hs₁⟩ := hbefore.toExtends hs
    obtain ⟨-, hs₂⟩ := ((builds_ofTexture place gamma name).run hrun).toExtends hs₁
    have hfollows := (hafter.toExtends hs₂).1.follows index
    obtain ⟨o, hof, hid, hmip⟩ := targetOf_of_ofTexture hs₁
      (fun hdeclared ↦ (hdeclares name hdeclared).grows hgrows₁) hrun
    refine ⟨(target.view, o) :: sources, by rw [List.map_cons, List.map_cons, hviews],
      List.Forall₂.cons (hof.follows hfollows) hsources, fun v hv ↦ ?_,
      List.forall_mem_cons.mpr ⟨?_, fun s hs ↦ ⟨(hregenerates s hs).given, fun c hc hlevels ↦ ?_⟩⟩⟩
    · obtain ⟨u, hu, hview⟩ := List.mem_filterMap.mp hv
      rcases List.mem_cons.mp hu with rfl | hu
      · rw [hmip] at hview
        split at hview <;> cases hview
        exact List.mem_cons_self
      · exact List.mem_cons_of_mem _ (hmips (List.mem_filterMap.mpr ⟨u, hu, hview⟩))
    · -- a texture has several levels from the start
      refine ⟨hid.trans hfollows.device.lastId_le, fun c hc hlevels ↦ ?_⟩
      obtain ⟨c₂, hc₂, halike⟩ := hfollows.device.get? hid hc
      have hdesc : c.desc = c₂.desc := halike
      have hseveral : o.hasMips a₂.device = true := by
        rw [OwnedTexture.hasMips_of_get? hc₂, ← hdesc]
        exact decide_eq_true hlevels
      exact List.mem_filterMap.mpr ⟨target, List.mem_cons_self, by rw [hmip, if_pos hseveral]⟩
    · obtain ⟨u, hu, hview⟩ := List.mem_filterMap.mp ((hregenerates s hs).mem c hc hlevels)
      exact List.mem_filterMap.mpr ⟨u, List.mem_cons_of_mem _ hu, hview⟩

theorem targetsOf_of_ofPass {scene : Scene} {place : PassPlace} {p : PassDecl}
    {targets : List PassTarget} (hs : a.Sound)
    (hdeclares : ∀ name ∈ declared, a.Declares index name)
    (run : ofPass scene place p a = (.ok targets, a')) :
    (p.targetsBackbuffer = true → targets = [ofBackbuffer scene.backbuffer p.gammaWrite]) ∧
      (p.targetsBackbuffer = false → a'.TargetsOf index declared p (targets.map (·.view))
        (targets.filterMap (·.mipView))) := by
  rw [ofPass] at run
  rcases hp : p.targetsBackbuffer with _ | _
  · rw [if_neg (by simp [hp])] at run
    exact ⟨fun h ↦ absurd h Bool.false_ne_true, fun _ ↦ sources_of_ofTextures hs hdeclares run⟩
  · rw [if_pos hp] at run
    cases run
    exact ⟨fun _ ↦ rfl, fun h ↦ absurd h.symm Bool.false_ne_true⟩

end PassTarget

/-! ## Hazards -/

theorem mem_resolveHazards {d : Device} {inputs : List ViewSlot}
    {outputs : List (Option (Handle .renderTargetView))}
    {resolve : ViewSlot → Option (Handle .shaderView)} {slot : ViewSlot}
    (h : slot ∈ (resolveHazards d inputs outputs resolve).2) :
    slot = .empty ∨
      (slot ∈ inputs ∧ slot.conflicts d (writtenTextures d outputs) resolve = false) := by
  obtain ⟨input, hinput, hslot⟩ := List.mem_map.mp h
  split at hslot
  · exact Or.inl hslot.symm
  · rename_i hconflicts
    subst hslot
    exact Or.inr ⟨hinput, by simpa using hconflicts⟩

/-- A slot conflicts if it stands for a view of a texture that is drawn into. -/
theorem ViewSlot.conflicts_iff {slot : ViewSlot} {d : Device}
    {views : List (Handle .renderTargetView)} {resolve : ViewSlot → Option (Handle .shaderView)} :
    slot.conflicts d (writtenTextures d (views.map some)) resolve = true ↔
      ∃ v x, resolve slot = some v ∧ d.viewTexture? v = some x ∧
        ∃ t ∈ views, d.targetTexture? t = some x := by
  rw [conflicts_iff_hazardous]
  simp only [Hazardous, DrawnInto, List.mem_map, Option.some.injEq, exists_eq_right]

theorem Backbuffer.resolveSlot_of_ne_depth (b : Backbuffer)
    (depthView : Option (Handle .shaderView)) {slot : ViewSlot} (h : slot ≠ .depth) :
    b.resolveSlot depthView slot = b.resolveSlot none slot := by
  cases slot
  case depth => exact absurd rfl h
  all_goals rfl

/-! ## Passes and techniques -/

theorem id_le_of_resolveSlot {b : Backbuffer} {bindings : List ViewSlot} {slot : ViewSlot}
    {v : Handle .shaderView} (hs : a.Sound) (hb : b.Sound a.device)
    (hbindings : ∀ v, ViewSlot.view v ∈ bindings → a.Serves index v) (hslot : slot ∈ bindings)
    (hv : b.resolveSlot none slot = some v) : v.id ≤ a.device.lastId := by
  cases slot with
  | empty => cases hv
  | view view =>
    cases hv
    obtain ⟨t, ht, -, o, gamma, howned, rfl⟩ := hbindings _ hslot
    obtain ⟨format, hmade⟩ := (hs.owned t ht o howned).views gamma
    exact hmade.id_le
  | backbuffer gamma =>
    cases hv
    obtain ⟨format, hmade⟩ := hb.views gamma
    exact hmade.id_le
  | depth => cases hv

theorem passShader_eq_ok {objects : EffectObjects} {place : PassPlace} {name : String}
    {shader : Handle .shader} (run : passShader objects place name a = (.ok shader, a')) :
    objects.shader? name = some shader ∧ a' = a := by
  rw [passShader] at run
  rcases hshader : objects.shader? name with _ | s <;> rw [hshader] at run <;> cases run
  exact ⟨rfl, rfl⟩

/-- The steps of building the record of a pass, and what becomes of their results. -/
theorem buildPass_eq_ok {scene : Scene} {objects : EffectObjects} {bindings : List ViewSlot}
    {place : PassPlace} {p : PassDecl} {r : PassRecord}
    (run : buildPass scene objects bindings place p a = (.ok r, a')) :
    ∃ targets a₁ a₂, PassTarget.ofPass scene place p a = (.ok targets, a₁) ∧
      BuildM.state (BlendDesc.ofDecl p) (.blendStateCreation place) a₁ = (.ok r.blend, a₂) ∧
      BuildM.state (DepthStencilDesc.ofDecl p) (.depthStencilStateCreation place) a₂
        = (.ok r.depthStencil, a') ∧
      objects.shader? p.vertexEntry = some r.vertexShader ∧
      objects.shader? p.pixelEntry = some r.pixelShader ∧
      r.targets = targets.map (·.view) ∧
      r.mipViews = (targets.filterMap (·.mipView)).eraseDups ∧
      r.inputs = (resolveHazards a'.device bindings (r.targets.map some)
        (scene.backbuffer.resolveSlot scene.depthView)).2 ∧
      r.vertexCount = p.vertexCount ∧ p.targetNames.length ≤ maxRenderTargets ∧
      r.stencilReference = p.stencilReference ∧ r.stencilEnable = p.stencilEnable ∧
      r.clearsTargets = p.clearsTargets ∧
      r.viewport = p.explicitViewport?.getD ((targets.head?.map (·.size)).getD (0, 0)) := by
  rw [buildPass] at run
  obtain ⟨vertexShader, a₁, hvertex, hrest⟩ := bind_eq_ok run
  clear run
  obtain ⟨hvertexShader, rfl⟩ := passShader_eq_ok hvertex
  obtain ⟨pixelShader, a₂, hpixel, run⟩ := bind_eq_ok hrest
  clear hrest
  obtain ⟨hpixelShader, rfl⟩ := passShader_eq_ok hpixel
  dsimp only at run
  split at run
  · rw [throw_bind] at run
    cases run
  · rename_i hlength
    obtain ⟨targets, a₃, htargets, run⟩ := bind_eq_ok run
    obtain ⟨blend, a₄, hblend, run⟩ := bind_eq_ok run
    obtain ⟨depthStencil, a₅, hdepthStencil, run⟩ := bind_eq_ok run
    obtain ⟨a₆, a₇, hget, run⟩ := bind_eq_ok run
    -- inputs are resolved last, when the views to draw into are known
    cases hget
    cases run
    exact ⟨targets, a₃, a₄, htargets, hblend, hdepthStencil, hvertexShader, hpixelShader,
      rfl, rfl, rfl, rfl, Nat.le_of_not_lt hlength, rfl, rfl, rfl, rfl⟩

theorem id_le_of_target {b : Backbuffer} {p : PassDecl} {views : List (Handle .renderTargetView)}
    {mipViews : List (Handle .shaderView)} (hb : b.Sound a.device)
    (hbackbuffer : p.targetsBackbuffer = true → views = [b.targets.pick p.gammaWrite])
    (htextures : p.targetsBackbuffer = false → a.TargetsOf index declared p views mipViews)
    {t : Handle .renderTargetView} (ht : t ∈ views) : t.id ≤ a.device.lastId := by
  rcases hp : p.targetsBackbuffer with _ | _
  · obtain ⟨sources, hviews, hsources, -⟩ := htextures hp
    rw [hviews] at ht
    obtain ⟨s, hs, rfl⟩ := List.mem_map.mp ht
    obtain ⟨name, -, hof⟩ := exists_of_forall₂_right hsources hs
    exact hof.given
  · rw [hbackbuffer hp] at ht
    obtain rfl := List.mem_singleton.mp ht
    obtain ⟨format, hmade⟩ := hb.targets p.gammaWrite
    exact hmade.id_le

/-- What the techniques of an effect are built on: sound assets, in which the effect declares its
textures, and slot tables for it. -/
structure Assets.Hosts (a : Assets) (b : Backbuffer) (index : Nat) (declared : List String)
    (tables : SlotTables) : Prop where
  /-- The assets are sound. -/
  assets : a.Sound
  /-- The backbuffer is sound. -/
  backbuffer : b.Sound a.device
  /-- The effect declares its textures. -/
  declares : ∀ name ∈ declared, a.Declares index name
  /-- The slot tables are sound. -/
  tables : tables.Sound a index

theorem Assets.Hosts.builds {b : Backbuffer} {tables : SlotTables}
    (h : a.Hosts b index declared tables) (hbuilds : a.Builds a') :
    a'.Hosts b index declared tables := by
  obtain ⟨hgrows, hs⟩ := hbuilds.toExtends h.assets
  exact ⟨hs, h.backbuffer.evolves hgrows.device,
    fun name hname ↦ (h.declares name hname).grows hgrows, h.tables.grows hgrows⟩

section Hosts

variable {scene : Scene} {objects : EffectObjects} {tables : SlotTables}

theorem sound_of_buildPass {place : PassPlace} {p : PassDecl} {r : PassRecord}
    (h : a.Hosts scene.backbuffer index declared tables)
    (run : buildPass scene objects tables.bindings place p a = (.ok r, a')) :
    r.Sound a' scene.backbuffer objects index declared tables.bindings p := by
  have h' := h.builds ((builds_buildPass scene objects tables.bindings place p).run run)
  obtain ⟨targets, a₁, a₂, htargets, hblend, hdepthStencil, hvertexShader, hpixelShader,
    hviews, hmips, hinputs, hcount, hlength, -⟩ := buildPass_eq_ok run
  obtain ⟨-, hs₁⟩ := ((PassTarget.builds_ofPass scene place p).run htargets).toExtends h.assets
  obtain ⟨hgrows₂, hs₂⟩ := ((builds_state _ _).run hblend).toExtends hs₁
  obtain ⟨hgrows₃, -⟩ := ((builds_state _ _).run hdepthStencil).toExtends hs₂
  -- what the targets are, as of the end of the run
  obtain ⟨hbackbuffer, htextures₁⟩ := PassTarget.targetsOf_of_ofPass h.assets h.declares htargets
  have hbackbuffer : p.targetsBackbuffer = true →
      r.targets = [scene.backbuffer.targets.pick p.gammaWrite] ∧ r.mipViews = [] := fun hp ↦ by
    rw [hviews, hmips, hbackbuffer hp]
    exact ⟨rfl, rfl⟩
  have htextures : p.targetsBackbuffer = false →
      a'.TargetsOf index declared p r.targets r.mipViews := fun hp ↦ by
    obtain ⟨sources, hsame, hsources, hlevels, hregenerates⟩ :=
      (htextures₁ hp).follows ((hgrows₂.trans hgrows₃).follows index)
    have hmem : ∀ v, v ∈ r.mipViews ↔ v ∈ targets.filterMap (·.mipView) := fun v ↦ by
      rw [hmips, List.mem_eraseDups]
    exact ⟨sources, hviews.trans hsame, hsources, fun v hv ↦ hlevels ((hmem v).mp hv),
      fun s hs ↦ ⟨(hregenerates s hs).given, fun c hc hseveral ↦
        (hmem _).mpr ((hregenerates s hs).mem c hc hseveral)⟩⟩
  exact {
    vertexShader := hvertexShader
    pixelShader := hpixelShader
    blend := handles_subset hgrows₃.states.blends (mem_handles_of_state hblend)
    depthStencil := mem_handles_of_state hdepthStencil
    vertexCount := hcount
    length_le := by
      rcases hp : p.targetsBackbuffer with _ | _
      · obtain ⟨sources, hsame, hsources, -⟩ := htextures hp
        rwa [hsame, List.length_map, ← hsources.length_eq]
      · rw [(hbackbuffer hp).1]
        exact Nat.le_add_left 1 7
    backbuffer := hbackbuffer
    textures := htextures
    inputs := fun slot hslot ↦ by
      rw [hinputs] at hslot
      exact (mem_resolveHazards hslot).imp_right And.left
    apart := fun slot hslot hdepth v hv t ht ↦ by
      rw [hinputs] at hslot
      rcases mem_resolveHazards hslot with rfl | ⟨hmem, hconflicts⟩
      · cases hv
      · refine ⟨?_, ?_, fun x hx htx ↦ ?_⟩
        · exact id_le_of_resolveSlot h'.assets h'.backbuffer h'.tables.bindings hmem hv
        · exact id_le_of_target h'.backbuffer (fun hp ↦ (hbackbuffer hp).1) htextures ht
        · rw [← Backbuffer.resolveSlot_of_ne_depth _ scene.depthView hdepth] at hv
          rw [ViewSlot.conflicts_iff.mpr ⟨v, x, hv, hx, t, ht, htx⟩] at hconflicts
          cases hconflicts }

/-- **The state of a technique is sound when it is built.** -/
theorem sound_of_buildTechnique {t : Technique} {state : TechniqueState}
    (h : a.Hosts scene.backbuffer index declared tables)
    (run : buildTechnique scene objects tables t a = (.ok state, a')) :
    state.Sound a' scene.backbuffer objects index declared t.passes := by
  have h' := h.builds ((builds_buildTechnique scene objects tables t).run run)
  obtain ⟨hsamplers, hbindings, hpasses⟩ := buildTechnique_eq_ok run
  refine ⟨hsamplers ▸ h'.tables.samplers, hbindings ▸ h'.tables.bindings, ?_⟩
  rw [hbindings]
  refine hpasses.imp fun p r ⟨place, a₁, a₂, hbefore, hrun, hafter⟩ ↦ ?_
  have h₁ := h.builds hbefore
  have h₂ := h₁.builds ((builds_buildPass _ _ _ _ _).run hrun)
  exact (sound_of_buildPass h₁ hrun).follows ((hafter.toExtends h₂.assets).1.follows index)

end Hosts

end EffectChain
