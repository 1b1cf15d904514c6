import EffectChain.Proofs.Activation
import EffectChain.Proofs.TextureTable

/-!
# What activation does to an engine

An attempt to activate an effect can end in five ways, of which four are failures that leave the
tables of effects and techniques alone (`Engine.BuildRun`). All properties of loading and reloading
are proved by going through these five.
-/

namespace EffectChain

/-- What pointing at a texture can do: nothing, or it creates a view or fails to. -/
theorem DepthAlias.createView_cases (texture : Handle .texture) (d : Device) :
    createView texture d = (none, d) ∨ ∃ content,
      (∃ v d', Device.create .shaderView content d = (.ok v, d') ∧
        createView texture d = (some v, d')) ∨
      ∃ cause d', Device.create .shaderView content d = (.error cause, d') ∧
        createView texture d = (none, d') := by
  rw [createView]
  rcases d.textureDesc? texture with _ | desc
  · exact Or.inl rfl
  · dsimp only
    split
    · obtain ⟨content, hcontent⟩ : ∃ content, Device.createShaderView texture desc.format.linear 1
          = Device.create .shaderView content := ⟨_, rfl⟩
      refine Or.inr ⟨content, ?_⟩
      rw [DeviceM.on, hcontent]
      rcases Device.create .shaderView content d with ⟨cause | v, d'⟩
      · exact Or.inr ⟨cause, d', rfl, rfl⟩
      · exact Or.inl ⟨v, d', rfl, rfl⟩
    · exact Or.inl rfl

/-- What a release and a creation keep is kept when the alias is pointed. -/
theorem DepthAlias.point_induction {P : Device → Prop} (a : DepthAlias)
    (texture : Option (Handle .texture)) {d : Device} (hd : P d)
    (hrelease : ∀ d, P d → P (d.release a.refs))
    (hcreate : ∀ content d, P d → P (Device.create .shaderView content d).2) :
    P (a.point texture d).2 := by
  have hview : ∀ t d, P d → P (createView t d).2 := by
    intro t d hd
    rcases createView_cases t d with
      hrun | ⟨content, ⟨v, d', hstep, hrun⟩ | ⟨cause, d', hstep, hrun⟩⟩ <;> rw [hrun]
    · exact hd
    · have hcreated := hcreate content d hd
      rwa [hstep] at hcreated
    · have hcreated := hcreate content d hd
      rwa [hstep] at hcreated
  rw [point]
  split
  · exact hd
  · rcases texture with _ | t
    · exact hrelease d hd
    · exact hview t _ (hrelease d hd)

namespace Engine

/-! ## The effect of an index -/

variable {e : Engine} {index j : Nat}

theorem effect?_lt {effect : Effect} (h : e.effect? index = some effect) :
    index < e.effects.length := by
  rw [effect?, Option.join_eq_some_iff] at h
  exact (List.getElem?_eq_some_iff.mp h).1

theorem effect?_modify (e : Engine) (index j : Nat) (f : Effect → Effect) :
    { e with effects := e.effects.modify index (Option.map f) }.effect? j
      = if index = j then (e.effect? j).map f else e.effect? j := by
  unfold effect?
  rw [List.getElem?_modify]
  split
  · rcases e.effects[j]? with _ | _ | effect <;> rfl
  · rcases e.effects[j]? with _ | effect <;> rfl

theorem effect?_set (e : Engine) (h : index < e.effects.length) (j : Nat)
    (effect : Option Effect) :
    { e with effects := e.effects.set index effect }.effect? j
      = if index = j then effect else e.effect? j := by
  rw [effect?, List.getElem?_set]
  split
  · rename_i heq
    subst heq
    rfl
  · rfl

/-- A change of a loaded effect is a replacement by the changed one. -/
theorem setEffect_eq_modify {effect : Effect} (h : e.effect? index = some effect)
    (f : Effect → Effect) :
    e.setEffect index (f effect)
      = { e with effects := e.effects.modify index (Option.map f) } := by
  rw [effect?, Option.join_eq_some_iff] at h
  rw [setEffect, List.modify_eq_set_getElem?, h]
  rfl

theorem effect?_append (e : Engine) (effect : Effect) (j : Nat) :
    { e with effects := e.effects ++ [some effect] }.effect? j
      = if e.effects.length = j then some effect else e.effect? j := by
  unfold effect?
  rcases Nat.lt_trichotomy e.effects.length j with hlt | rfl | hlt
  · rw [if_neg (Nat.ne_of_lt hlt), List.getElem?_eq_none (Nat.le_of_lt hlt),
      List.getElem?_eq_none (by simpa using Nat.succ_le_of_lt hlt)]
  · simp
  · rw [if_neg (Nat.ne_of_gt hlt), List.getElem?_append_left hlt]

/-! ## Entering and deactivating an effect -/

theorem state_of_mem_register (hlt : ∀ t ∈ e.techniques, t.effect < e.effects.length)
    (m : EffectModule) {t : Technique} (ht : t ∈ (e.register m).techniques)
    (hindex : t.effect = e.effects.length) : t.state = none := by
  rcases List.mem_append.mp ht with ht | ht
  · exact absurd hindex (Nat.ne_of_lt (hlt t ht))
  · obtain ⟨decl, -, rfl⟩ := List.mem_map.mp ht
    rfl

theorem state_of_mem_deactivate {t : Technique} (ht : t ∈ (e.deactivate index).techniques)
    (hindex : t.effect = index) : t.state = none := by
  obtain ⟨u, -, rfl⟩ := List.mem_map.mp ht
  split at hindex
  · rename_i hu
    rw [if_pos hu]
  · rename_i hu
    exact absurd hindex hu

theorem filter_deactivate (e : Engine) (index : Nat) :
    ((e.deactivate index).techniques.filter fun t ↦ t.effect ≠ index)
      = e.techniques.filter fun t ↦ t.effect ≠ index := by
  rw [Engine.deactivate]
  induction e.techniques with
  | nil => rfl
  | cons t techniques ih =>
    rw [List.map_cons, List.filter_cons, List.filter_cons, ih]
    by_cases h : t.effect = index <;> simp [h]

theorem effect?_deactivate (e : Engine) (index j : Nat) :
    (e.deactivate index).effect? j
      = if index = j then (e.effect? j).map fun effect ↦ { effect with objects := none }
        else e.effect? j :=
  effect?_modify e index j fun effect ↦ { effect with objects := none }

theorem effect?_deactivate_self {effect : Effect} (h : e.effect? index = some effect) :
    (e.deactivate index).effect? index = some { effect with objects := none } := by
  rw [effect?_deactivate, if_pos rfl, h]
  rfl

theorem effect?_register (e : Engine) (m : EffectModule) :
    (e.register m).effect? e.effects.length
      = some { module := m, uniforms := m.uniformData } :=
  (effect?_append e _ _).trans (if_pos rfl)

/-! ## Building an effect -/

/-- How an attempt to build an effect can end. -/
inductive BuildRun (e : Engine) (index : Nat) (effect : Effect) :
    Except EngineError Unit → Engine → Prop
  /-- The module is inconsistent. -/
  | invalid {cause : ModuleError} (hvalidate : effect.module.validate = .error cause) :
    BuildRun e index effect (.error (.module cause)) e
  /-- A texture cannot be created. -/
  | refused {cause : EngineError} {d : Device}
    (htextures : materialize index e.textures e.device = (.error cause, d)) :
    BuildRun e index effect (.error cause) { e with device := d }
  /-- There is no swapchain. -/
  | homeless {textures : List TableTexture} {d : Device}
    (htextures : materialize index e.textures e.device = (.ok textures, d))
    (hbackbuffer : e.backbuffer = none) :
    BuildRun e index effect (.error .notInitialized) { e with device := d, textures }
  /-- An object of the effect cannot be created, or a name leads nowhere. -/
  | failed {textures : List TableTexture} {d : Device} {b : Backbuffer} {cause : EngineError}
    {a : Assets} (htextures : materialize index e.textures e.device = (.ok textures, d))
    (hbackbuffer : e.backbuffer = some b)
    (hbuild : buildEffect ⟨b, e.depth.view⟩ index effect e.techniques
      { e.toAssets with device := d, textures } = (.error cause, a)) :
    BuildRun e index effect (.error cause) { e with toAssets := a }
  /-- The effect is built. -/
  | built {textures : List TableTexture} {d : Device} {b : Backbuffer} {objects : EffectObjects}
    {techniques : List Technique} {a : Assets} (hvalidate : effect.module.validate = .ok ())
    (htextures : materialize index e.textures e.device = (.ok textures, d))
    (hbackbuffer : e.backbuffer = some b)
    (hbuild : buildEffect ⟨b, e.depth.view⟩ index effect e.techniques
      { e.toAssets with device := d, textures } = (.ok (objects, techniques), a)) :
    BuildRun e index effect (.ok ())
      ({ e with toAssets := a, techniques }.setEffect index
        { effect with objects := some objects })

theorem build_run (e : Engine) (index : Nat) (effect : Effect) :
    e.BuildRun index effect (e.build index effect).1 (e.build index effect).2 := by
  obtain ⟨⟨device, table, states⟩, config, backbuffer, effects, techniques, depth⟩ := e
  rw [build]
  rcases hvalidate : effect.module.validate with cause | _
  · exact BuildRun.invalid hvalidate
  · rcases htextures : (materialize index table) device with ⟨cause | textures, d⟩
    · dsimp only
      exact BuildRun.refused htextures
    · dsimp only
      rcases backbuffer with _ | b
      · exact BuildRun.homeless htextures rfl
      · rcases hbuild : (buildEffect ⟨b, depth.view⟩ index effect techniques)
            ⟨d, textures, states⟩ with ⟨cause | ⟨objects, techniques⟩, a⟩
        · simp only [hbuild]
          exact BuildRun.failed htextures rfl hbuild
        · simp only [hbuild]
          exact BuildRun.built hvalidate htextures rfl hbuild

/-- A failure leaves the tables of effects and techniques alone. -/
theorem BuildRun.tables_eq {effect : Effect} {cause : EngineError} {e' : Engine}
    (h : e.BuildRun index effect (.error cause) e') :
    e'.effects = e.effects ∧ e'.techniques = e.techniques := by
  cases h <;> exact ⟨rfl, rfl⟩

/-- What an attempt to build an effect does to the assets: nothing, or it creates textures and goes
on as far as it gets. -/
theorem BuildRun.assets {effect : Effect} {outcome : Except EngineError Unit} {e' : Engine}
    (h : e.BuildRun index effect outcome e') :
    e'.toAssets = e.toAssets ∨ ∃ result d, materialize index e.textures e.device = (result, d) ∧
      (e'.toAssets = { e.toAssets with device := d } ∨ ∃ textures, result = .ok textures ∧
        ({ e.toAssets with device := d, textures } : Assets).Builds e'.toAssets) := by
  cases h with
  | invalid => exact Or.inl rfl
  | refused htextures => exact Or.inr ⟨_, _, htextures, Or.inl rfl⟩
  | homeless htextures =>
    exact Or.inr ⟨_, _, htextures, Or.inr ⟨_, rfl, Relation.ReflTransGen.refl⟩⟩
  | failed htextures _ hbuild | built _ htextures _ hbuild =>
    exact Or.inr ⟨_, _, htextures, Or.inr ⟨_, rfl, (builds_buildEffect _ _ _ _).run hbuild⟩⟩

/-! ## Activating an effect -/

/-- Activating an effect is building it, as far as the assets are concerned. -/
theorem assets_activate {effect : Effect} (heffect : e.effect? index = some effect) :
    (e.activate index).2.toAssets = (e.build index effect).2.toAssets := by
  rw [activate, heffect]
  dsimp only
  rcases e.build index effect with ⟨_ | _, e'⟩ <;> rfl

theorem activate_eq_ok {e' : Engine} (run : e.activate index = (.ok (), e')) :
    ∃ effect textures d b objects, e.effect? index = some effect ∧
      effect.module.validate = .ok () ∧
      materialize index e.textures e.device = (.ok textures, d) ∧ e.backbuffer = some b ∧
      buildEffect ⟨b, e.depth.view⟩ index effect e.techniques
        { e.toAssets with device := d, textures } = (.ok (objects, e'.techniques), e'.toAssets) ∧
      (∀ i, e'.effect? i =
        if index = i then some { effect with failure := none, objects := some objects }
        else e.effect? i) ∧
      e'.backbuffer = e.backbuffer ∧ e'.depth = e.depth := by
  rcases heffect : e.effect? index with _ | effect <;> rw [activate, heffect] at run
  · cases run
  · have hrun := e.build_run index effect
    dsimp only at run
    rcases houtcome : e.build index effect with ⟨cause | _, e₁⟩ <;> rw [houtcome] at run hrun <;>
      cases run
    cases hrun with
    | @built textures d b objects techniques a hvalidate htextures hbackbuffer hbuild =>
      refine ⟨effect, textures, d, b, objects, rfl, hvalidate, htextures, hbackbuffer, hbuild,
        fun i ↦ ?_, rfl, rfl⟩
      have hset := effect?_set { e with toAssets := a, techniques } (effect?_lt heffect) i
        (some { effect with objects := some objects })
      refine (effect?_modify (setEffect _ index _) index i _).trans ?_
      rw [setEffect, hset]
      split <;> rfl

/-- What is left of an attempt to activate an effect that failed. -/
theorem activate_eq_error {cause : EngineError} {e' : Engine}
    (run : e.activate index = (.error cause, e')) :
    (∀ i, e'.effect? i =
      if index = i then (e.effect? i).map fun effect ↦ { effect with failure := some cause }
      else e.effect? i) ∧ e'.techniques = e.techniques := by
  rcases heffect : e.effect? index with _ | effect <;> rw [activate, heffect] at run
  · cases run
    refine ⟨fun i ↦ ?_, rfl⟩
    split
    · rename_i hi
      rw [← hi, heffect]
      rfl
    · rfl
  · have hrun := e.build_run index effect
    dsimp only at run
    rcases houtcome : e.build index effect with ⟨cause | _, e₁⟩ <;> rw [houtcome] at run hrun <;>
      cases run
    obtain ⟨heffects, htechniques⟩ := hrun.tables_eq
    refine ⟨fun i ↦ ?_, htechniques⟩
    rw [effect?_modify, show e₁.effect? i = e.effect? i by rw [effect?, heffects, effect?]]

/-- What an attempt to activate an effect makes of the tables. -/
inductive Activated (e : Engine) (index : Nat) (effect : Effect) (e' : Engine) : Prop
  /-- It failed, which is recorded with the effect and leaves the techniques alone. -/
  | failed (cause : EngineError)
    (htextures : List.Forall₂ TableTexture.Equips e.textures e'.textures)
    (heffects : ∀ i, e'.effect? i =
      if index = i then some { effect with failure := some cause } else e.effect? i)
    (htechniques : e'.techniques = e.techniques)
  /-- It succeeded, so the effect has its objects, its techniques their states, and its textures
  theirs. -/
  | built (objects : EffectObjects)
    (htextures : List.Forall₂ TableTexture.Equips e.textures e'.textures)
    (hequipped : ∀ t ∈ e'.textures, index ∈ t.effects → t.decl.reference = .owned → t.owned.isSome)
    (heffects : ∀ i, e'.effect? i =
      if index = i then some { effect with failure := none, objects := some objects }
      else e.effect? i)
    (htechniques : List.Forall₂ (fun t t' ↦
        t.effect = index ∧ (∃ state, t' = { t with state := some state }) ∨
          t.effect ≠ index ∧ t' = t) e.techniques e'.techniques)

theorem BuildRun.equips {effect : Effect} {outcome : Except EngineError Unit} {e' : Engine}
    (h : e.BuildRun index effect outcome e') (hs : e.toAssets.Sound) :
    List.Forall₂ TableTexture.Equips e.textures e'.textures := by
  have hsame : List.Forall₂ TableTexture.Equips e.textures e.textures :=
    List.forall₂_same.mpr fun t _ ↦ TableTexture.Equips.refl t
  rcases h.assets with heq | ⟨result, d, hrun, heq | ⟨textures, rfl, hbuilds⟩⟩
  · rwa [heq]
  · rwa [heq]
  · obtain ⟨-, hs'⟩ := extends_materialize hrun hs
    exact forall₂_trans (equips_materialize hrun).1 (hbuilds.equips hs') TableTexture.Equips.trans

theorem activated {effect : Effect} (hs : e.toAssets.Sound)
    (heffect : e.effect? index = some effect) :
    e.Activated index effect (e.activate index).2 := by
  rw [activate, heffect]
  have hrun := e.build_run index effect
  dsimp only
  rcases houtcome : e.build index effect with ⟨cause | _, e'⟩ <;> rw [houtcome] at hrun
  · obtain ⟨heffects, htechniques⟩ := hrun.tables_eq
    refine .failed cause (hrun.equips hs) (fun i ↦ ?_) htechniques
    dsimp only
    rw [effect?_modify, show e'.effect? i = e.effect? i by rw [effect?, heffects, effect?]]
    split
    · rename_i hi
      rw [← hi, heffect]
      rfl
    · rfl
  · cases hrun with
    | @built textures d b objects techniques a hvalidate htextures hbackbuffer hbuild =>
      obtain ⟨-, hs'⟩ := extends_materialize htextures hs
      obtain ⟨hequips, hequipped⟩ := equips_materialize htextures
      have hbuilt := ((builds_buildEffect _ _ _ _).run hbuild).equips hs'
      -- of the technique table, building replaces the states of the effect alone
      obtain ⟨tables, a₁, a₂, -, -, htechniques⟩ := buildEffect_eq_ok hbuild
      refine .built objects (forall₂_trans hequips hbuilt TableTexture.Equips.trans)
        (fun t' ht' hindex href ↦ ?_) (fun i ↦ ?_)
        ((buildTechniques_eq_ok htechniques).imp fun t t' h ↦ ?_)
      · obtain ⟨t, ht, h⟩ := exists_of_forall₂_right hbuilt ht'
        exact h.stays (hequipped t ht (h.effects ▸ hindex) (h.decl ▸ href))
      · have hset := effect?_set { e with toAssets := a, techniques } (effect?_lt heffect) i
          (some { effect with objects := some objects })
        refine (effect?_modify (setEffect _ index _) index i _).trans ?_
        rw [setEffect, hset]
        split <;> rfl
      · cases h with
        | own hindex _ => exact Or.inl ⟨hindex, _, rfl⟩
        | other hindex => exact Or.inr ⟨hindex, rfl⟩

/-! ## Loading and unloading -/

theorem load_cases (e : Engine) (m : EffectModule) :
    (e.backbuffer = none ∧ e.load m = (.error .notInitialized, e)) ∨
      e.backbuffer.isSome ∧
        e.load m = (((e.register m.reserveSlots).activate e.effects.length).1.map
            fun _ ↦ e.effects.length,
          ((e.register m.reserveSlots).activate e.effects.length).2) := by
  rw [load]
  rcases hb : e.backbuffer with _ | b
  · exact Or.inl ⟨rfl, rfl⟩
  · exact Or.inr ⟨rfl, rfl⟩

/-- Reloading is entering the textures of a deactivated effect once more and activating it. -/
theorem reload_cases (e : Engine) (index : Nat) :
    (e.effect? index = none ∧ e.reload index = (.error (.invalidEffect index), e)) ∨
      ∃ effect, e.effect? index = some effect ∧
        e.reload index = Engine.activate { e.deactivate index with
          textures := registerTextures index effect.module.textures e.textures } index := by
  rw [reload]
  rcases heffect : e.effect? index with _ | effect
  · exact Or.inl ⟨rfl, rfl⟩
  · exact Or.inr ⟨effect, rfl, rfl⟩

/-- The engine without what an effect has in the tables. -/
def withdraw (e : Engine) (index : Nat) : Engine :=
  { e with
    device := e.device.release (withdrawTextures index e.textures).2
    techniques := e.techniques.filter fun t ↦ t.effect ≠ index
    textures := (withdrawTextures index e.textures).1
    effects := e.effects.set index none }

theorem effect?_withdraw (hindex : index < e.effects.length) (i : Nat) :
    (e.withdraw index).effect? i = if index = i then none else e.effect? i :=
  effect?_set e hindex i none

theorem unload_cases (e : Engine) (index : Nat) :
    (e.effect? index = none ∧ e.unload index = (.error (.invalidEffect index), e)) ∨
      ∃ effect, e.effect? index = some effect ∧
        e.unload index = (.ok (), (e.deactivate index).withdraw index) := by
  rw [unload]
  rcases heffect : e.effect? index with _ | effect
  · exact Or.inl ⟨rfl, rfl⟩
  · exact Or.inr ⟨effect, rfl, rfl⟩

theorem load_eq_ok {m : EffectModule} {i : Nat} (run : e.load m = (.ok i, e')) :
    i = e.effects.length ∧
      (e.register m.reserveSlots).activate e.effects.length = (.ok (), e') := by
  rcases e.load_cases m with ⟨-, hload⟩ | ⟨-, hload⟩ <;> rw [hload] at run
  · cases run
  · rcases hactivate : (e.register m.reserveSlots).activate e.effects.length with ⟨_ | _, e₁⟩ <;>
      rw [hactivate] at run <;> cases run
    exact ⟨rfl, rfl⟩

theorem load_eq_error {m : EffectModule} {cause : EngineError} (hb : e.backbuffer.isSome)
    (run : e.load m = (.error cause, e')) :
    (e.register m.reserveSlots).activate e.effects.length = (.error cause, e') := by
  rcases e.load_cases m with ⟨hnone, -⟩ | ⟨-, hload⟩
  · rw [hnone] at hb
    cases hb
  · rw [hload] at run
    rcases hactivate : (e.register m.reserveSlots).activate e.effects.length with ⟨_ | _, e₁⟩ <;>
      rw [hactivate] at run <;> cases run
    rfl

theorem effect?_activate_of_ne {i : Nat} (hne : index ≠ i) :
    (e.activate index).2.effect? i = e.effect? i := by
  rcases hrun : e.activate index with ⟨cause | _, e'⟩
  · rw [(activate_eq_error hrun).1 i, if_neg hne]
  · obtain ⟨effect, textures, d, b, objects, -, -, -, -, -, heffects, -⟩ := activate_eq_ok hrun
    rw [heffects i, if_neg hne]

theorem effect?_unload (e : Engine) (index i : Nat) :
    (e.unload index).2.effect? i = if index = i then none else e.effect? i := by
  rcases e.unload_cases index with ⟨heffect, hrun⟩ | ⟨effect, heffect, hrun⟩ <;> rw [hrun]
  · split
    · rename_i hi
      rw [← hi, heffect]
    · rfl
  · refine (effect?_withdraw (effect?_lt (effect?_deactivate_self heffect)) i).trans ?_
    split
    · rfl
    · rename_i hi
      rw [effect?_deactivate, if_neg hi]

/-! ## Uploading pixels -/

/-- The commands of an upload into a texture of the chain's own. -/
def uploadCommands (e : Engine) (o : OwnedTexture) (data : Bytes) (rowPitch : Nat) :
    List Command :=
  .updateTexture o.resource data rowPitch ::
    if o.hasMips e.device then [.generateMips o.views.linear] else []

/-- An upload fails, or issues its commands on the texture of the name. -/
theorem upload_cases (e : Engine) (name : String) (pixels : Bytes) :
    (∃ cause, e.upload name pixels = (.error cause, e)) ∨
    ∃ t o data rowPitch, e.texture? name = some t ∧ t.owned = some o ∧
      e.upload name pixels =
        (.ok (), { e with device := e.device.issueAll (e.uploadCommands o data rowPitch) }) := by
  rw [upload]
  rcases hfind : e.texture? name with _ | t
  · exact Or.inl ⟨_, rfl⟩
  · dsimp only
    by_cases href : t.decl.reference = .owned
    · rw [if_neg (not_not_intro href)]
      rcases howned : t.owned with _ | o
      · exact Or.inl ⟨_, rfl⟩
      · dsimp only
        rcases packUpload t.decl pixels with cause | data
        · exact Or.inl ⟨cause, rfl⟩
        · exact Or.inr ⟨t, o, data, _, rfl, howned, rfl⟩
    · rw [if_pos href]
      exact Or.inl ⟨_, rfl⟩

/-! ## Writing uniform data -/

/-- A write changes nothing, or it lies in the storage and changes that. -/
theorem writeUniforms_cases (e : Engine) (index offset : Nat) (data : Bytes) :
    (∃ cause, e.writeUniforms index offset data = (.error cause, e) ∧
      ∀ effect, e.effect? index = some effect → effect.uniforms.size < offset + data.size) ∨
    ∃ effect, e.effect? index = some effect ∧ offset + data.size ≤ effect.uniforms.size ∧
      e.writeUniforms index offset data = (.ok (), { e with
        effects := e.effects.modify index (Option.map fun effect ↦ { effect with
          uniforms := effect.uniforms.overlay offset data }) }) := by
  rw [writeUniforms]
  rcases heffect : e.effect? index with _ | effect
  · exact Or.inl ⟨_, rfl, by simp⟩
  · dsimp only
    split
    · rename_i hfits
      refine Or.inr ⟨effect, rfl, hfits, ?_⟩
      rw [setEffect_eq_modify heffect fun effect ↦ { effect with
        uniforms := effect.uniforms.overlay offset data }]
    · rename_i hpast
      refine Or.inl ⟨_, rfl, fun other hother ↦ ?_⟩
      cases hother
      exact Nat.lt_of_not_le hpast

/-! ## Preparing for a swapchain -/

/-- The engine without what was made for an earlier swapchain. -/
def vacated (e : Engine) : Engine := if e.backbuffer.isSome then e.reset else e

theorem backbuffer_vacated (e : Engine) : e.vacated.backbuffer = none := by
  rw [vacated]
  rcases hb : e.backbuffer with _ | b
  · exact hb
  · rfl

/-- What holds before, and after a reset, holds of the engine without an earlier swapchain. -/
theorem vacated_induction {P : Engine → Prop} (he : P e) (hreset : P e.reset) : P e.vacated := by
  rw [vacated]
  split
  · exact hreset
  · exact he

theorem init_cases (e : Engine) (s : Swapchain) :
    (∃ cause d, Backbuffer.create s e.vacated.device = (.error cause, d) ∧
      e.init s = (.error cause, { e.vacated with device := d })) ∨
    ∃ b d, Backbuffer.create s e.vacated.device = (.ok b, d) ∧
      e.init s = (.ok (), { e.vacated with device := d, backbuffer := some b }) := by
  rw [init, ← vacated]
  dsimp only
  rcases hrun : Backbuffer.create s e.vacated.device with ⟨cause | b, d⟩
  · exact Or.inl ⟨cause, d, rfl, rfl⟩
  · exact Or.inr ⟨b, d, rfl, rfl⟩

theorem lastId_reset (e : Engine) : e.reset.device.lastId = e.device.lastId := by
  change (e.depth.point none (e.device.release e.loadedRefs)).2.lastId = _
  rw [DepthAlias.point]
  split <;> rfl

end Engine

end EffectChain
