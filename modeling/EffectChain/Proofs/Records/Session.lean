import EffectChain.Proofs.Records.Build
import EffectChain.Proofs.Tables

/-!
# Records stay sound

In every session that can be reached, the state of a technique refers to what is recorded with its
effect, in the caches, in the texture table and with the backbuffer (`Engine.Sound`). The reason is
that whoever takes one of these away takes the state of the technique away first, with one
exception: the targets of a pass, which may belong to other effects.
-/

namespace EffectChain

open Assets (Follows)

/-! ## Moves, as an effect sees them -/

section Follows

variable {a a' : Assets} {i : Nat}

theorem follows_registerTextures (a : Assets) (index : Nat) (decls : List TextureDecl) (i : Nat) :
    a.Follows i { a with textures := registerTextures index decls a.textures } where
  device := Device.Evolves.refl _
  states := StateObjects.Grows.refl _
  textures t ht := by
    obtain ⟨t', ht', hgrows⟩ := exists_of_mem_registerTextures index decls ht
    exact Or.inl ⟨t', ht', hgrows.keeps i⟩

/-- Withdrawing an effect leaves the others with what they declare. -/
theorem follows_withdrawTextures (a : Assets) {index : Nat} (hne : i ≠ index) :
    a.Follows i { a with
      device := a.device.release (withdrawTextures index a.textures).2
      textures := (withdrawTextures index a.textures).1 } where
  device := Device.Evolves.release _ _
  states := StateObjects.Grows.refl _
  textures t ht := by
    rcases withdrawTextures_cases index ht with hkept | ⟨hall, hgone⟩
    · refine Or.inl ⟨t.without index, hkept, rfl, fun hmem ↦ ?_,
        (TableTexture.Grows.refl t).owned⟩
      exact List.mem_filter.mpr ⟨hmem, by simpa using hne⟩
    · refine Or.inr ⟨fun hmem ↦ hne (hall i hmem), fun r hr hlive ↦ ?_⟩
      rw [Device.live, Device.release, Store.refs_erase] at hlive
      have hnot := (List.mem_filter.mp hlive).2
      simp [hgone hr] at hnot

end Follows

/-! ## Engines -/

namespace Engine

/-- The names of the textures that the effect of an index declares. -/
def declaredNames (e : Engine) (index : Nat) : List String :=
  ((e.effect? index).map (·.module)).elim [] fun m ↦ m.textures.map (·.name)

/-- The state of a technique is sound, for the backbuffer and the objects that there are. -/
def Backs (e : Engine) (t : Technique) (state : TechniqueState) : Prop :=
  ∃ b objects, e.backbuffer = some b ∧ e.objects? t.effect = some objects ∧
    state.Sound e.toAssets b objects t.effect (e.declaredNames t.effect) t.passes

/-- What is recorded with the backbuffer and with techniques is sound. -/
structure Sound (e : Engine) : Prop where
  /-- The backbuffer is sound. -/
  backbuffer : ∀ b, e.backbuffer = some b → b.Sound e.device
  /-- The state of every technique is sound. -/
  techniques : ∀ t ∈ e.techniques, ∀ state, t.state = some state → e.Backs t state

theorem Backs.follows {e e' : Engine} {t : Technique} {state : TechniqueState}
    (h : e.Backs t state) (hbackbuffer : e'.backbuffer = e.backbuffer)
    (hobjects : e'.objects? t.effect = e.objects? t.effect)
    (hmodule : (e'.effect? t.effect).map (·.module) = (e.effect? t.effect).map (·.module))
    (hf : e.toAssets.Follows t.effect e'.toAssets) : e'.Backs t state := by
  obtain ⟨b, objects, hb, ho, hstate⟩ := h
  have hdeclared : e'.declaredNames t.effect = e.declaredNames t.effect := by
    rw [declaredNames, hmodule, declaredNames]
  refine ⟨b, objects, hbackbuffer.trans hb, hobjects.trans ho, ?_⟩
  rw [hdeclared]
  exact hstate.follows hf

namespace Sound

variable {e e' : Engine}

theorem continues (h : e.Sound) (htables : e.Tables) (hcontinues : e.Continues e') :
    e'.Sound := by
  obtain ⟨hgrows, -⟩ := hcontinues.assets htables.assets
  refine ⟨fun b hb ↦ ?_, fun t' ht' state' hstate' ↦ ?_⟩
  · rw [hcontinues.backbuffer] at hb
    exact (h.backbuffer b hb).evolves hgrows.device
  · obtain ⟨t, ht, hkeeps⟩ := hcontinues.techniques t' ht'
    obtain ⟨state, timer, hstate, rfl⟩ := hkeeps.state state' hstate'
    have hobjects := hcontinues.objects t' ht' (Option.isSome_of_eq_some hstate')
    rw [hkeeps.effect] at hobjects
    obtain ⟨b, objects, hb, ho, hsound⟩ := (h.techniques t ht state hstate).follows
      hcontinues.backbuffer hobjects (hcontinues.modules _) (hgrows.follows _)
    refine ⟨b, objects, hb, ?_, ?_⟩
    · rw [hkeeps.effect]
      exact ho
    · rw [hkeeps.effect, hkeeps.passes]
      exact hsound.withTimer timer

/-- The techniques of an effect that is built are built on sound assets that have what it needs. -/
theorem exists_hosts (h : e.Sound) (htables : e.Tables) {index : Nat} {effect : Effect}
    {textures : List TableTexture} {d : Device} {b : Backbuffer} {objects : EffectObjects}
    {techniques : List Technique} {a : Assets} (heffect : e.effect? index = some effect)
    (hvalidate : effect.module.validate = .ok ())
    (htextures : materialize index e.textures e.device = (.ok textures, d))
    (hbackbuffer : e.backbuffer = some b)
    (hbuild : buildEffect ⟨b, e.depth.view⟩ index effect e.techniques
      { e.toAssets with device := d, textures } = (.ok (objects, techniques), a)) :
    ∃ tables a₁, a₁.Hosts b index (effect.module.textures.map (·.name)) tables ∧
      e.device.Evolves a₁.device ∧
      buildTechniques ⟨b, e.depth.view⟩ objects tables index e.techniques a₁
        = (.ok techniques, a) := by
  obtain ⟨hgrows₀, hs₀⟩ := extends_materialize htextures htables.assets
  obtain ⟨tables, a₁, a₂, hbuilds₁, hbind, hbuilt⟩ := buildEffect_eq_ok hbuild
  obtain ⟨hgrows₁, hs₁⟩ := hbuilds₁.toExtends hs₀
  obtain ⟨hgrows₂, hs₂⟩ := ((SlotTables.builds_bindAll _ _).run hbind).toExtends hs₁
  have hevolves := ((hgrows₀.trans hgrows₁).trans hgrows₂).device
  have hdeclares : ∀ name ∈ effect.module.textures.map (·.name), a₁.Declares index name := by
    intro name hname
    obtain ⟨decl, hdecl, rfl⟩ := List.mem_map.mp hname
    have hdeclared : e.toAssets.Declares index decl.name :=
      htables.declared index effect heffect decl hdecl
    exact hdeclared.grows (hgrows₀.trans hgrows₁)
  -- the inputs of the effect are textures that it declares, which is why they stay
  have hinputs : ∀ s ∈ effect.module.samplers, a₁.Declares index s.textureName := by
    intro s hs
    obtain ⟨decl, hdecl, hname⟩ := EffectModule.exists_of_validate hvalidate hs
    exact hdeclares _ (hname ▸ List.mem_map_of_mem hdecl)
  exact ⟨tables, a₂, {
    assets := hs₂
    backbuffer := (h.backbuffer b hbackbuffer).evolves hevolves
    declares := fun name hname ↦ (hdeclares name hname).grows hgrows₂
    tables := SlotTables.sound_of_bindAll hs₁ hinputs
      (SlotTables.sound_ofModule a₁ index effect.module) hbind }, hevolves, hbuilt⟩

/-- The records of an effect that is built are sound, and those of other effects stay so. -/
theorem built (h : e.Sound) (htables : e.Tables) {index : Nat} {effect : Effect}
    {textures : List TableTexture} {d : Device} {b : Backbuffer} {objects : EffectObjects}
    {techniques : List Technique} {a : Assets} (heffect : e.effect? index = some effect)
    (hvalidate : effect.module.validate = .ok ())
    (htextures : materialize index e.textures e.device = (.ok textures, d))
    (hbackbuffer : e.backbuffer = some b)
    (hbuild : buildEffect ⟨b, e.depth.view⟩ index effect e.techniques
      { e.toAssets with device := d, textures } = (.ok (objects, techniques), a)) :
    ({ e with toAssets := a, techniques }.setEffect index
      { effect with objects := some objects }).Sound := by
  obtain ⟨hgrows₀, hs₀⟩ := extends_materialize htextures htables.assets
  obtain ⟨hgrows, -⟩ := ((builds_buildEffect _ index effect e.techniques).run hbuild).toExtends hs₀
  obtain ⟨tables, a₁, hhosts, -, hbuilt⟩ :=
    h.exists_hosts htables heffect hvalidate htextures hbackbuffer hbuild
  have hset (i : Nat) :
      ({ e with toAssets := a, techniques }.setEffect index
        { effect with objects := some objects }).effect? i
        = if index = i then some { effect with objects := some objects } else e.effect? i :=
    effect?_set { e with toAssets := a, techniques } (effect?_lt heffect) i _
  refine ⟨fun b' hb' ↦ (h.backbuffer b' hb').evolves (hgrows₀.trans hgrows).device,
    fun t' ht' state hstate ↦ ?_⟩
  obtain ⟨t, ht, hby⟩ := exists_of_forall₂_right (buildTechniques_eq_ok hbuilt) ht'
  cases hby with
  -- a technique of the effect was built at some point of the activation, and its record stays
  | @own state' hindex hbetween =>
    cases hstate
    obtain ⟨a₃, a₄, hbefore, hrun, hafter⟩ := hbetween
    have hhosts₃ := hhosts.builds hbefore
    have hhosts₄ := hhosts₃.builds ((builds_buildTechnique _ objects tables t).run hrun)
    have hsound := sound_of_buildTechnique hhosts₃ hrun
    refine ⟨b, objects, hbackbuffer, ?_, ?_⟩
    · rw [objects?, hset, if_pos hindex.symm]
      rfl
    · dsimp only
      rw [declaredNames, hset, hindex, if_pos rfl]
      exact hsound.follows ((hafter.toExtends hhosts₄.assets).1.follows index)
  | other hne =>
    refine (h.techniques _ ht state hstate).follows rfl ?_ ?_ ((hgrows₀.trans hgrows).follows _)
    · rw [objects?, hset, if_neg (Ne.symm hne), objects?]
    · rw [hset, if_neg (Ne.symm hne)]

/-- **Records stay sound.** -/
theorem move (h : e.Sound) (htables : e.Tables) (hmove : e.Move e') : e'.Sound := by
  cases hmove with
  | continues hcontinues => exact h.continues htables hcontinues
  | built heffect hvalidate htextures hbackbuffer hbuild =>
    exact h.built htables heffect hvalidate htextures hbackbuffer hbuild
  | registered m =>
    refine ⟨h.backbuffer, fun t ht state hstate ↦ ?_⟩
    rcases List.mem_append.mp ht with ht | ht
    · -- the new index is above those in use
      have hsame : (e.register m).effect? t.effect = e.effect? t.effect := by
        change Engine.effect? { e with effects := e.effects ++ [some _] } t.effect = _
        rw [effect?_append, if_neg (Nat.ne_of_gt (htables.effect_lt ht))]
      refine (h.techniques t ht state hstate).follows rfl ?_ ?_ (follows_registerTextures _ _ _ _)
      · rw [objects?, hsame, objects?]
      · rw [hsame]
    · obtain ⟨decl, -, rfl⟩ := List.mem_map.mp ht
      cases hstate
  | declared heffect =>
    exact ⟨h.backbuffer, fun t ht state hstate ↦ (h.techniques t ht state hstate).follows rfl rfl
      rfl (follows_registerTextures _ _ _ _)⟩
  | withdrawn index hindex =>
    -- the techniques of the effect leave with it, so only others have to be followed
    refine ⟨fun b hb ↦ (h.backbuffer b hb).evolves (Device.Evolves.release _ _),
      fun t ht state hstate ↦ ?_⟩
    obtain ⟨ht, hne⟩ := List.mem_filter.mp ht
    have hne : t.effect ≠ index := by simpa using hne
    have hsame : Engine.effect? { e with effects := e.effects.set index none } t.effect
        = e.effect? t.effect := by
      rw [effect?_set e hindex, if_neg (Ne.symm hne)]
    refine (h.techniques t ht state hstate).follows rfl ?_ ?_ (follows_withdrawTextures _ hne)
    · exact congrArg (Option.bind · (·.objects)) hsame
    · exact congrArg (Option.map (·.module)) hsame
  | emptied device textures _ effects techniques backbuffer =>
    refine ⟨fun b hb ↦ (h.backbuffer b (backbuffer b hb)).evolves device, fun t ht ↦ ?_⟩
    rw [techniques] at ht
    cases ht
  | prepared hnone hcreate =>
    refine ⟨fun b hb ↦ ?_, fun t ht state hstate ↦ ?_⟩
    · cases hb
      obtain ⟨-, -, -, hsound, -⟩ := Backbuffer.create_eq_ok hcreate
      exact hsound
    · obtain ⟨b, _, hb, -⟩ := h.techniques t ht state hstate
      cases hnone.symm.trans hb

theorem present (h : e.Sound) (htables : e.Tables) (tracker : DepthTracker) {t : Technique}
    (ht : t ∈ e.techniques) {state : TechniqueState} (hstate : t.state = some state) :
    ∃ b objects, e.backbuffer = some b ∧ e.objects? t.effect = some objects ∧
      state.Sound (e.present tracker).toAssets b objects t.effect (e.declaredNames t.effect)
        t.passes := by
  obtain ⟨b, objects, hb, hobjects, hsound⟩ := h.techniques t ht state hstate
  obtain ⟨hgrows, -⟩ := (Continues.present e tracker).assets htables.assets
  exact ⟨b, objects, hb, hobjects, hsound.follows (hgrows.follows t.effect)⟩

end Sound

end Engine

theorem Session.Reachable.sound {allowed : Session → Event → Prop} {s : Session}
    (hs : s.Reachable allowed) : s.engine.Sound := by
  have hboth : s.engine.Tables ∧ s.engine.Sound :=
    hs.invariant (P := fun e ↦ e.Tables ∧ e.Sound)
      (fun timing config ↦ ⟨(Session.Reachable.start timing config : Reachable allowed _).tables,
        ⟨nofun, nofun⟩⟩)
      fun h hmove ↦ ⟨h.1.move hmove, h.2.move h.1 hmove⟩
  exact hboth.2

end EffectChain
