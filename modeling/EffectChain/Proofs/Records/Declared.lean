import EffectChain.Proofs.Created
import EffectChain.Proofs.Records.Liveness

/-!
# Records implement their declarations

What activation builds is determined by the module, the texture table and the backbuffer, up to the
handles that the device gives out. This is spelled out here once for each part. A sampler slot has a
state for the first sampler declared for it, a texture slot what the last sampler declared for it
reads (`SlotTables.Implements`), and a record has the views that the table provides under the
declared names, states made of the declared descriptors, and the declared numbers
(`PassRecord.Implements`).

All of this is stated for the assets in which activation ends, although a record is built from the
assets of an earlier moment. It makes no difference, since building changes nothing of an entry but
the views to draw into its texture, and replaces none of them (`Assets.Builds.targetView?`).
-/

namespace EffectChain

open Assets (Between Builds)

/-! ## The texture table as passes see it -/

namespace Assets

/-- Width and height of the texture of a name. -/
def size? (a : Assets) (name : String) : Option (UInt32 × UInt32) :=
  (a.texture? name).map fun t ↦ (t.decl.width, t.decl.height)

/-- The view through which the levels of the texture of a name are regenerated, if it has
several. -/
def mipView? (a : Assets) (name : String) : Option (Handle .shaderView) :=
  ((a.texture? name).bind (·.owned)).bind fun o ↦
    if o.hasMips a.device then some o.views.linear else none

variable {a a' : Assets}

namespace Builds

theorem size? (h : a.Builds a') (hs : a.Sound) (name : String) : a'.size? name = a.size? name := by
  rw [Assets.size?, Assets.size?]
  rcases h.texture?_cases hs name with ⟨hfind, hfind'⟩ | ⟨t, t', hfind, hfind', hcore⟩ <;>
    rw [hfind, hfind']
  rw [Option.map_some, Option.map_some, (TableTexture.eq_of_core hcore).1]

theorem slotOf (h : a.Builds a') (hs : a.Sound) (s : SamplerDecl) :
    SlotTables.slotOf a' s = SlotTables.slotOf a s := by
  rw [SlotTables.slotOf, SlotTables.slotOf]
  rcases h.texture?_cases hs s.textureName with ⟨hfind, hfind'⟩ | ⟨t, t', hfind, hfind', hcore⟩ <;>
    rw [hfind, hfind']
  obtain ⟨hdecl, -, ⟨howned, howned'⟩ | ⟨o, o', howned, howned', -, hviews⟩⟩ :=
    TableTexture.eq_of_core hcore
  · rw [Option.bind_some, Option.bind_some, hdecl, howned, howned']
  · rw [Option.bind_some, Option.bind_some, hdecl, howned, howned', Option.map_some,
      Option.map_some, hviews]

theorem mipView? (h : a.Builds a') (hs : a.Sound) (name : String) :
    a'.mipView? name = a.mipView? name := by
  rw [Assets.mipView?, Assets.mipView?]
  rcases h.texture?_cases hs name with ⟨hfind, hfind'⟩ | ⟨t, t', hfind, hfind', hcore⟩ <;>
    rw [hfind, hfind']
  · rfl
  obtain ⟨-, -, ⟨howned, howned'⟩ | ⟨o, o', howned, howned', hresource, hviews⟩⟩ :=
    TableTexture.eq_of_core hcore <;> rw [Option.bind_some, Option.bind_some, howned, howned']
  · rfl
  have hid := (hs.owned t (mem_of_texture? hfind).1 o howned).given
  rw [Option.bind_some, Option.bind_some, OwnedTexture.hasMips, OwnedTexture.hasMips, hresource,
    h.textureDesc? hid, hviews]

theorem targetView? (h : a.Builds a') (hs : a.Sound) {gamma : Bool} {name : String}
    {view : Handle .renderTargetView} (hview : a.targetView? gamma name = some view) :
    a'.targetView? gamma name = some view := by
  obtain ⟨hgrows, hs'⟩ := h.toExtends hs
  obtain ⟨o, hentry, hpick⟩ := Option.bind_eq_some_iff.mp hview
  obtain ⟨t, hfind, howned⟩ := Option.bind_eq_some_iff.mp hentry
  obtain ⟨hmem, rfl⟩ := mem_of_texture? hfind
  obtain ⟨t', ht', hgrows'⟩ := exists_of_forall₂_left hgrows.textures hmem
  obtain ⟨o', howned', hgrowso⟩ := hgrows'.owned o howned
  rw [Assets.targetView?, ← hgrows'.name, texture?_of_mem hs' ht', Option.bind_some, howned']
  exact hgrowso.targets gamma view hpick

end Builds

end Assets

variable {a a' : Assets}

/-! ## States -/

open CachedDescriptor (cache withCache) in
theorem makes_of_state {δ : Type} {kind : ObjectKind} [DecidableEq δ] [CachedDescriptor δ kind]
    [LawfulCache δ kind] {desc : δ} {wrap : DeviceError → EngineError} {h : Handle kind}
    (hs : a.Sound) (run : BuildM.state desc wrap a = (.ok h, a')) :
    ∃ x, StateDescriptor.Makes desc x ∧ a'.device.Made h x := by
  rw [run_state] at run
  rcases (cache a.states).request_cases desc a.device with
    ⟨h', hfind, hreq⟩ | ⟨h', d, hcreate, hreq⟩ | ⟨e, d, hcreate, hreq⟩ <;> rw [hreq] at run <;>
    cases run
  · obtain ⟨entry, hentry, rfl, rfl⟩ := StateCache.mem_entries_of_find? hfind
    exact LawfulCache.sound_cache hs.states entry hentry
  · obtain ⟨x, hmakes, -, hmade⟩ := StateDescriptor.makes_of_create hcreate
    exact ⟨x, hmakes, hmade⟩

/-! ## Slot tables -/

section Forall₂

variable {α β : Type} {R : α → β → Prop}

theorem forall₂_set {l : List α} {l' : List β} (h : List.Forall₂ R l l') (i : Nat) {x : α} {y : β}
    (hxy : R x y) : List.Forall₂ R (l.set i x) (l'.set i y) := by
  induction h generalizing i with
  | nil => exact List.Forall₂.nil
  | cons hR hrest ih =>
    cases i with
    | zero => exact List.Forall₂.cons hxy hrest
    | succ i => exact List.Forall₂.cons hR (ih i)

theorem isSome_join_getElem? {l : List (Option α)} {l' : List (Option β)}
    (h : List.Forall₂ (Option.Rel R) l l') (i : Nat) :
    (l[i]?.join).isSome = (l'[i]?.join).isSome := by
  induction h generalizing i with
  | nil => rfl
  | cons hR _ ih =>
    cases i with
    | zero => cases hR <;> rfl
    | succ i => exact ih i

end Forall₂

namespace SlotTables

/-- A table of sampler descriptors with those of declared samplers entered: of samplers that share a
slot the first one counts. -/
def samplerDescs (table : List (Option SamplerDesc)) (samplers : List SamplerDecl) :
    List (Option SamplerDesc) :=
  samplers.foldl (fun table s ↦
    if (table[s.binding.toNat]?.join).isSome then table
    else table.set s.binding.toNat (some (SamplerDesc.ofDecl s))) table

/-- A table of slots with what declared samplers read entered: of samplers that share a slot the
last one counts. -/
def readSlots (a : Assets) (table : List ViewSlot) (samplers : List SamplerDecl) : List ViewSlot :=
  samplers.foldl (fun table s ↦
    table.set s.textureBinding.toNat ((slotOf a s).getD .empty)) table

def Of (d : Device) (states : List (Option (Handle .sampler)))
    (descs : List (Option SamplerDesc)) : Prop :=
  List.Forall₂ (Option.Rel fun state desc ↦ d.Made state desc) states descs

/-- The tables have what a module declares. -/
structure Implements (a : Assets) (m : EffectModule) (tables : SlotTables) : Prop where
  /-- The sampler slots. -/
  samplers : Of a.device tables.samplers
    (samplerDescs (List.replicate (min m.samplerSlots.toNat maxSamplerSlots) none) m.samplers)
  /-- The texture slots. -/
  bindings : tables.bindings = readSlots a (ofModule m).bindings m.samplers

variable {tables tables' : SlotTables}

theorem Of.evolves {d d' : Device} {states : List (Option (Handle .sampler))}
    {descs : List (Option SamplerDesc)} (h : Of d states descs) (hd : d.Evolves d') :
    Of d' states descs :=
  h.imp fun _ _ hrel ↦ by
    rcases hrel with hmade | _
    · exact .some (hmade.evolves hd)
    · exact .none

theorem of_replicate (d : Device) (n : Nat) :
    Of d (List.replicate n none) (List.replicate n none) := by
  induction n with
  | zero => exact List.Forall₂.nil
  | succ n ih => exact List.Forall₂.cons .none ih

theorem implements_of_bind {descs : List (Option SamplerDesc)} {s : SamplerDecl} (hs : a.Sound)
    (hdescs : Of a.device tables.samplers descs) (run : tables.bind s a = (.ok tables', a')) :
    Of a'.device tables'.samplers (samplerDescs descs [s]) ∧
      tables'.bindings = readSlots a tables.bindings [s] := by
  have htaken := isSome_join_getElem? hdescs s.binding.toNat
  rw [samplerDescs, readSlots, List.foldl_cons, List.foldl_nil, List.foldl_cons, List.foldl_nil]
  rcases tables.bind_cases s a with
    ⟨-, e, hrun⟩ | ⟨slot, hbinds, ⟨hsome, hrun⟩ | ⟨hnone, hrun⟩⟩ <;> rw [hrun] at run
  · cases run
  · cases run
    rw [if_pos (htaken.symm.trans hsome), hbinds.slot]
    exact ⟨hdescs, rfl⟩
  · rcases hstate : BuildM.state (SamplerDesc.ofDecl s)
        (.samplerCreation s.name (SamplerDesc.ofDecl s)) a with ⟨e | state, a₁⟩ <;>
      rw [hstate] at run <;> cases run
    obtain ⟨x, hmakes, hmade⟩ := makes_of_state hs hstate
    rw [SamplerDesc.eq_of_makes hmakes] at hmade
    rw [if_neg (by simp [← htaken, hnone]), hbinds.slot]
    exact ⟨forall₂_set (hdescs.evolves ((builds_state _ _).run hstate).evolves) _ (.some hmade),
      rfl⟩

theorem implements_of_bindAll {descs : List (Option SamplerDesc)} {samplers : List SamplerDecl}
    (hs : a.Sound) (hdescs : Of a.device tables.samplers descs)
    (run : tables.bindAll samplers a = (.ok tables', a')) :
    Of a'.device tables'.samplers (samplerDescs descs samplers) ∧
      tables'.bindings = readSlots a' tables.bindings samplers := by
  induction samplers generalizing a tables descs with
  | nil =>
    cases run
    exact ⟨hdescs, rfl⟩
  | cons s rest ih =>
    have hbuilds := (builds_bindAll tables (s :: rest)).run run
    obtain ⟨tables₁, a₁, hfirst, hrest⟩ := bind_eq_ok run
    obtain ⟨-, hs₁⟩ := ((builds_bind tables s).run hfirst).toExtends hs
    obtain ⟨hdescs₁, hbindings₁⟩ := implements_of_bind hs hdescs hfirst
    obtain ⟨hdescs', hbindings'⟩ := ih hs₁ hdescs₁ hrest
    refine ⟨hdescs', hbindings'.trans ?_⟩
    rw [hbindings₁, readSlots, readSlots, readSlots, List.foldl_cons, List.foldl_nil,
      List.foldl_cons, hbuilds.slotOf hs]

/-- **The slot tables have what the module declares.** -/
theorem implements_of_ofModule {m : EffectModule} (hs : a.Sound)
    (run : (ofModule m).bindAll m.samplers a = (.ok tables, a')) : tables.Implements a' m := by
  obtain ⟨hsamplers, hbindings⟩ := implements_of_bindAll hs (of_replicate _ _) run
  exact ⟨hsamplers, hbindings⟩

theorem Implements.builds {m : EffectModule} (h : tables.Implements a m) (hs : a.Sound)
    (hbuilds : a.Builds a') : tables.Implements a' m := by
  refine ⟨h.samplers.evolves hbuilds.evolves, h.bindings.trans ?_⟩
  rw [readSlots, readSlots]
  simp only [hbuilds.slotOf hs]

end SlotTables

/-! ## Passes -/

/-- The target is what the texture table provides under a name. -/
structure PassTarget.Implements (a : Assets) (gamma : Bool) (name : String) (target : PassTarget) :
    Prop where
  /-- The view to draw into. -/
  view : a.targetView? gamma name = some target.view
  /-- The size. -/
  size : a.size? name = some target.size
  /-- The view to regenerate levels through. -/
  mipView : a.mipView? name = target.mipView

/-- The record is what its pass declares. -/
structure PassRecord.Implements (a : Assets) (b : Backbuffer) (p : PassDecl) (r : PassRecord) :
    Prop where
  /-- Its targets are the scene target, or what the table provides under the declared names. -/
  targets : r.targets.map some =
    if p.targetsBackbuffer then [some (b.targets.pick p.gammaWrite)]
    else p.targetNames.map (a.targetView? p.gammaWrite)
  /-- It regenerates each target with several levels once. -/
  mipViews : r.mipViews =
    if p.targetsBackbuffer then [] else (p.targetNames.filterMap a.mipView?).eraseDups
  /-- Its viewport is the declared one, or as large as the first target. -/
  viewport : r.viewport = p.explicitViewport?.getD
    (if p.targetsBackbuffer then (b.width, b.height)
    else (p.targetNames.head?.bind a.size?).getD (0, 0))
  /-- Its blend state was made of the declared descriptor. -/
  blend : a.device.Made r.blend (BlendDesc.ofDecl p)
  /-- Its depth-stencil state was made of the declared descriptor. -/
  depthStencil : a.device.Made r.depthStencil (DepthStencilDesc.ofDecl p)
  /-- The numbers and switches are the declared ones. -/
  stencilReference : r.stencilReference = p.stencilReference
  stencilEnable : r.stencilEnable = p.stencilEnable
  clearsTargets : r.clearsTargets = p.clearsTargets
  vertexCount : r.vertexCount = p.vertexCount

namespace PassTarget

variable {place : PassPlace} {gamma : Bool}

theorem Implements.builds {name : String} {target : PassTarget}
    (h : target.Implements a gamma name) (hs : a.Sound) (hbuilds : a.Builds a') :
    target.Implements a' gamma name where
  view := hbuilds.targetView? hs h.view
  size := (hbuilds.size? hs name).trans h.size
  mipView := (hbuilds.mipView? hs name).trans h.mipView

theorem implements_of_ofTexture {name : String} {target : PassTarget} (hs : a.Sound)
    (run : ofTexture place gamma name a = (.ok target, a')) : target.Implements a' gamma name := by
  obtain ⟨-, hs'⟩ := ((builds_ofTexture place gamma name).run run).toExtends hs
  rcases ofTexture_cases place gamma name a with
    ⟨-, e, hrun⟩ | ⟨t, o, ⟨hfind, -, howned⟩, ⟨e, d, -, hrun⟩ | ⟨view, o', d, hstep, hrun⟩⟩ <;>
    rw [hrun] at run <;> cases run
  obtain ⟨-, hpick, -⟩ := OwnedTexture.target_eq_ok hstep
  obtain ⟨hmem, rfl⟩ := Assets.mem_of_texture? hfind
  have hentry : { t with owned := some o' }
      ∈ (({ a with device := d } : Assets).setOwned t.decl.name o').textures :=
    List.mem_map.mpr ⟨t, hmem, if_pos rfl⟩
  have hfind' := Assets.texture?_of_mem hs' hentry
  dsimp only at hfind'
  refine ⟨?_, ?_, ?_⟩
  · rw [Assets.targetView?, hfind']
    exact hpick
  · rw [Assets.size?, hfind']
    rfl
  · rw [Assets.mipView?, hfind']
    rfl

theorem implements_of_ofTextures {names : List String} {targets : List PassTarget} (hs : a.Sound)
    (run : ofTextures place gamma names a = (.ok targets, a')) :
    List.Forall₂ (fun name target ↦ target.Implements a' gamma name) names targets :=
  (ofTextures_eq_ok run).imp fun name target ⟨a₁, a₂, hbefore, hrun, hafter⟩ ↦ by
    obtain ⟨-, hs₁⟩ := hbefore.toExtends hs
    obtain ⟨-, hs₂⟩ := ((builds_ofTexture place gamma name).run hrun).toExtends hs₁
    exact (implements_of_ofTexture hs₁ hrun).builds hs₂ hafter

section Targets

variable {names : List String} {targets : List PassTarget}

theorem map_targetView?_of_implements
    (h : List.Forall₂ (fun name target ↦ target.Implements a gamma name) names targets) :
    (targets.map (·.view)).map some = names.map (a.targetView? gamma) := by
  induction h with
  | nil => rfl
  | cons hfirst _ ih => rw [List.map_cons, List.map_cons, List.map_cons, ih, hfirst.view]

theorem filterMap_mipView?_of_implements
    (h : List.Forall₂ (fun name target ↦ target.Implements a gamma name) names targets) :
    targets.filterMap (·.mipView) = names.filterMap a.mipView? := by
  induction h with
  | nil => rfl
  | cons hfirst _ ih => rw [List.filterMap_cons, List.filterMap_cons, hfirst.mipView, ih]

theorem head?_size?_of_implements
    (h : List.Forall₂ (fun name target ↦ target.Implements a gamma name) names targets) :
    targets.head?.map (·.size) = names.head?.bind a.size? := by
  cases h with
  | nil => rfl
  | cons hfirst _ => exact hfirst.size.symm

end Targets

end PassTarget

namespace PassRecord

variable {b : Backbuffer} {p : PassDecl} {r : PassRecord}

theorem Implements.builds (h : r.Implements a b p) (hs : a.Sound) (hbuilds : a.Builds a') :
    r.Implements a' b p where
  targets := by
    rw [h.targets]
    split
    · rfl
    · rename_i hp
      have hsome := h.targets
      rw [if_neg hp] at hsome
      refine List.map_congr_left fun name hname ↦ ?_
      obtain ⟨view, -, hview⟩ := List.mem_map.mp (hsome ▸ List.mem_map_of_mem hname)
      rw [← hview, hbuilds.targetView? hs hview.symm]
  mipViews := by
    rw [h.mipViews, funext (hbuilds.mipView? hs)]
  viewport := by
    rw [h.viewport, funext (hbuilds.size? hs)]
  blend := h.blend.evolves hbuilds.evolves
  depthStencil := h.depthStencil.evolves hbuilds.evolves
  stencilReference := h.stencilReference
  stencilEnable := h.stencilEnable
  clearsTargets := h.clearsTargets
  vertexCount := h.vertexCount

theorem implements_of_buildPass {scene : Scene} {objects : EffectObjects}
    {bindings : List ViewSlot} {place : PassPlace} (hs : a.Sound)
    (run : buildPass scene objects bindings place p a = (.ok r, a')) :
    r.Implements a' scene.backbuffer p := by
  obtain ⟨targets, a₁, a₂, htargets, hblend, hdepthStencil, -, -, hviews, hmips, -, hcount, -,
    hreference, henable, hclears, hviewport⟩ := buildPass_eq_ok run
  have hs₁ := (((PassTarget.builds_ofPass scene place p).run htargets).toExtends hs).2
  have hbuilds₂ := (builds_state _ _).run hblend
  have hs₂ := (hbuilds₂.toExtends hs₁).2
  have hbuilds₃ := (builds_state _ _).run hdepthStencil
  obtain ⟨x, hmakes, hmade⟩ := makes_of_state hs₁ hblend
  obtain ⟨y, hmakes', hmade'⟩ := makes_of_state hs₂ hdepthStencil
  rw [BlendDesc.eq_of_makes hmakes] at hmade
  rw [DepthStencilDesc.eq_of_makes hmakes'] at hmade'
  -- targets are picked before the states are created, and stay what they were
  obtain ⟨htargets, hmipTargets, hsize⟩ : targets.map (some ·.view) = (if p.targetsBackbuffer
        then [some (scene.backbuffer.targets.pick p.gammaWrite)]
        else p.targetNames.map (a'.targetView? p.gammaWrite)) ∧
      targets.filterMap (·.mipView) = (if p.targetsBackbuffer then []
        else p.targetNames.filterMap a'.mipView?) ∧
      targets.head?.map (·.size) = (if p.targetsBackbuffer
        then some (scene.backbuffer.width, scene.backbuffer.height)
        else p.targetNames.head?.bind a'.size?) := by
    rw [PassTarget.ofPass] at htargets
    split at htargets
    · rename_i hp
      cases htargets
      rw [if_pos hp, if_pos hp, if_pos hp]
      exact ⟨rfl, rfl, rfl⟩
    · rename_i hp
      have himplements := (PassTarget.implements_of_ofTextures hs htargets).imp fun _ _ h ↦
        h.builds hs₁ (hbuilds₂.trans hbuilds₃)
      rw [if_neg hp, if_neg hp, if_neg hp,
        ← PassTarget.map_targetView?_of_implements himplements, List.map_map,
        PassTarget.filterMap_mipView?_of_implements himplements,
        PassTarget.head?_size?_of_implements himplements]
      exact ⟨rfl, rfl, rfl⟩
  refine ⟨?_, ?_, ?_, hmade.evolves hbuilds₃.evolves, hmade', hreference, henable, hclears, hcount⟩
  · rw [hviews, List.map_map]
    exact htargets
  · rw [hmips, hmipTargets]
    split <;> rfl
  · rw [hviewport, hsize]
    split <;> rfl

/-- **The techniques of an effect have a record for each declared pass.** -/
theorem implements_of_buildTechnique {scene : Scene} {objects : EffectObjects}
    {tables : SlotTables} {t : Technique} {state : TechniqueState} (hs : a.Sound)
    (run : buildTechnique scene objects tables t a = (.ok state, a')) :
    List.Forall₂ (fun p r ↦ r.Implements a' scene.backbuffer p) t.passes state.passes := by
  obtain ⟨-, -, hpasses⟩ := buildTechnique_eq_ok run
  refine hpasses.imp fun p r ⟨place, a₁, a₂, hbefore, hrun, hafter⟩ ↦ ?_
  obtain ⟨-, hs₁⟩ := hbefore.toExtends hs
  obtain ⟨-, hs₂⟩ :=
    ((builds_buildPass scene objects tables.bindings place p).run hrun).toExtends hs₁
  exact (implements_of_buildPass hs₁ hrun).builds hs₂ hafter

end PassRecord

/-! ## Effects -/

/-- The state of a technique is what its effect and its passes declare. -/
structure TechniqueState.Implements (a : Assets) (b : Backbuffer) (m : EffectModule)
    (passes : List PassDecl) (s : TechniqueState) : Prop where
  /-- Its slots. -/
  tables : SlotTables.Implements a m ⟨s.samplers, s.bindings⟩
  /-- Its records. -/
  passes : List.Forall₂ (fun p r ↦ r.Implements a b p) passes s.passes

/-- **What activation builds is what is declared.** -/
theorem Engine.implements_activate {e e' : Engine} {index : Nat} {effect : Effect} {b : Backbuffer}
    (hs : e.toAssets.Sound) (heffect : e.effect? index = some effect)
    (hbackbuffer : e.backbuffer = some b) (run : e.activate index = (.ok (), e')) :
    List.Forall₂ (fun t t' ↦ t.effect = index ∧ (∃ state, t' = { t with state := some state } ∧
        state.Implements e'.toAssets b effect.module t.passes) ∨ t.effect ≠ index ∧ t' = t)
      e.techniques e'.techniques := by
  obtain ⟨effect', textures, d, b', objects, heffect', -, htextures, hbackbuffer', hbuild, -⟩ :=
    activate_eq_ok run
  cases heffect.symm.trans heffect'
  cases hbackbuffer.symm.trans hbackbuffer'
  obtain ⟨-, hs₀⟩ := extends_materialize htextures hs
  obtain ⟨tables, a₁, a₂, hbuilds₁, htables, htechniques⟩ := buildEffect_eq_ok hbuild
  obtain ⟨-, hs₁⟩ := hbuilds₁.toExtends hs₀
  obtain ⟨-, hs₂⟩ := ((SlotTables.builds_bindAll _ _).run htables).toExtends hs₁
  have himplements := (SlotTables.implements_of_ofModule hs₁ htables).builds hs₂
    ((builds_buildTechniques _ _ _ _ _).run htechniques)
  refine (buildTechniques_eq_ok htechniques).imp fun t t' hby ↦ ?_
  cases hby with
  | @own state hindex hbetween =>
    obtain ⟨a₃, a₄, hbefore, hrun, hafter⟩ := hbetween
    obtain ⟨-, hs₃⟩ := hbefore.toExtends hs₂
    obtain ⟨-, hs₄⟩ := ((builds_buildTechnique _ _ tables t).run hrun).toExtends hs₃
    obtain ⟨hsamplers, hbindings, -⟩ := buildTechnique_eq_ok hrun
    refine Or.inl ⟨hindex, state, rfl, ?_, ?_⟩
    · rw [hsamplers, hbindings]
      exact himplements
    · exact (PassRecord.implements_of_buildTechnique hs₃ hrun).imp fun _ _ h ↦ h.builds hs₄ hafter
  | other hindex => exact Or.inr ⟨hindex, rfl⟩

end EffectChain
