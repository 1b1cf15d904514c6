import EffectChain.Proofs.Operations
import EffectChain.Proofs.Recovery.Repetition

/-!
# Attempts to activate an effect

An attempt that is refused something leaves the engine where another one can start: with the same
effect to be activated, the same techniques without states, and a texture table that lacks the same
device objects or fewer (`Engine.Resumes`). So an effect that would be activated if nothing were
refused is activated, or there are fewer refusals to come and it can be tried again
(`Engine.Resumes.activate`).
-/

namespace EffectChain

/-! ## Creating the textures of an effect -/

/-- The face of an entry once the textures of an effect are created. -/
def Face.equip (index : Nat) (f : Face) : Face :=
  { f with equipped := f.equipped || (f.decl.reference = .owned && index ∈ f.effects) }

theorem Face.equip_equip (index : Nat) (f : Face) :
    (f.equip index).equip index = f.equip index := by
  rw [equip, equip]
  dsimp only
  rw [Bool.or_assoc, Bool.or_self]

theorem TableTexture.equip_face (t : TableTexture) (index : Nat) :
    t.face.equip index = ⟨t.decl, t.effects, t.owned.isSome || t.awaits index⟩ := by
  rw [face, Face.equip, awaits]
  rcases t.owned with _ | o <;> simp

namespace Assets

variable {a : Assets} {fs : List Face} {drawn : Bool → String → Prop} {index : Nat}
  {textures : List TableTexture} {d : Device}

/-- Once the textures of the effect are created, the assets are ready to build it from. -/
theorem Ready.materialize (h : a.Ready fs)
    (run : EffectChain.materialize index a.textures a.device = (.ok textures, d)) :
    ({ a with device := d, textures } : Assets).Ready (fs.map (Face.equip index)) := by
  have hcreated := created_of_materialize run
  have hspared := spared_of_materialize run
  refine ⟨(extends_materialize run h.sound).2, ?_, fun t' ht' o howned ↦ ?_⟩
  · rw [← h.faces, Assets.faces, Assets.faces, List.map_map]
    refine map_eq_of_forall₂ (hcreated.imp fun t t' hcase ↦ ?_)
    rw [Function.comp_apply, t.equip_face]
    rcases hcase with ⟨hawaits, rfl⟩ | ⟨hawaits, o, rfl, -⟩
    · rw [hawaits, Bool.or_false]
      rfl
    · rw [hawaits, Bool.or_true]
      rfl
  · obtain ⟨t, ht, ⟨-, rfl⟩ | ⟨-, o', rfl, -, -, c, hpristine⟩⟩ :=
      exists_of_forall₂_right hcreated ht'
    · rw [Device.textureDesc?, hspared.get? (h.sound.owned t' ht o howned).given]
      exact h.stands t' ht o howned
    · cases howned
      rw [Device.textureDesc?, hpristine.get?]
      rfl

theorem Confined.materialize (h : a.Confined fs drawn)
    (run : EffectChain.materialize index a.textures a.device = (.ok textures, d)) :
    ({ a with device := d, textures } : Assets).Confined (fs.map (Face.equip index)) drawn := by
  refine ⟨h.toReady.materialize run, fun t' ht' gamma hoffers ↦ ?_⟩
  obtain ⟨t, ht, ⟨-, rfl⟩ | ⟨-, o', rfl, -, -, c, hpristine⟩⟩ :=
    exists_of_forall₂_right (created_of_materialize run) ht'
  · exact h.within t' ht gamma hoffers
  · rw [TableTexture.offers, Option.bind_some, hpristine.targets] at hoffers
    cases gamma <;> cases hoffers

theorem Confined.yields_materialize {a' : Assets} {fs' : List Face} (h : a.Confined fs drawn)
    (h' : a'.Confined fs' drawn) (hsame : fs'.map (Face.equip index) = fs.map (Face.equip index))
    (run : EffectChain.materialize index a.textures a.device = (.ok textures, d)) :
    Yields (fun _ : Device ↦ True) (EffectChain.materialize index a'.textures) fun _ ↦ True := by
  refine EffectChain.yields_materialize fun t' ht' hawaits' ↦ ?_
  have hmem : t'.face.equip index ∈ fs.map (Face.equip index) := by
    rw [← hsame, ← h'.faces]
    exact List.mem_map_of_mem (List.mem_map_of_mem ht')
  rw [← h.faces, faces, List.map_map] at hmem
  obtain ⟨t, ht, hface⟩ := List.mem_map.mp hmem
  rw [Function.comp_apply, t.equip_face, t'.equip_face, hawaits', Bool.or_true] at hface
  obtain ⟨hdecl, -, hequipped⟩ := Face.mk.inj hface
  rw [← hdecl]
  rcases howned : t.owned with _ | o
  · rw [howned] at hequipped
    exact make_of_materialize run ht hequipped
  · obtain ⟨c, hmake, -⟩ := (h.sound.owned t ht o howned).made
    exact ⟨c, hmake⟩

end Assets

/-! ## Attempts -/

namespace Engine

/-- The engine can go on where the first one was, with an effect that could not be activated. -/
structure Resumes (index : Nat) (drawn : Bool → String → Prop) (e e' : Engine) : Prop where
  /-- The effects are those that there were, with another failure of the one. -/
  effects : ∃ failure, ∀ i, e'.effect? i =
    if index = i then (e.effect? i).map fun effect ↦ { effect with failure } else e.effect? i
  /-- The techniques are those that there were. -/
  techniques : e'.techniques = e.techniques
  /-- The backbuffer is the same. -/
  backbuffer : e'.backbuffer = e.backbuffer
  /-- The alias of the scene depth is the same. -/
  depth : e'.depth = e.depth
  /-- The table has few views to draw into textures. -/
  assets : e'.toAssets.Confined e'.faces drawn
  /-- The same textures will be there once those of the effect are created. -/
  faces : e'.faces.map (Face.equip index) = e.faces.map (Face.equip index)

variable {e e' direct : Engine} {index : Nat} {drawn : Bool → String → Prop}

theorem Resumes.fail (h : e.Resumes index drawn e') {a : Assets}
    (hassets : a.Confined a.faces drawn)
    (hfaces : a.faces.map (Face.equip index) = e.faces.map (Face.equip index))
    (cause : EngineError) :
    e.Resumes index drawn { e' with
      toAssets := a
      effects := e'.effects.modify index (Option.map fun effect ↦ { effect with
        failure := some cause }) } where
  effects := by
    obtain ⟨failure, heffects⟩ := h.effects
    refine ⟨some cause, fun i ↦ ?_⟩
    refine (effect?_modify e' index i _).trans ?_
    rw [heffects i]
    split
    · rw [Option.map_map]
      rfl
    · rfl
  techniques := h.techniques
  backbuffer := h.backbuffer
  depth := h.depth
  assets := hassets
  faces := hfaces

/-- **An effect that would be activated if nothing were refused is activated, or something was
refused and it can be tried again.** -/
theorem Resumes.activate (h : e.Resumes index drawn e')
    (hassets : e.toAssets.Confined e.faces drawn)
    (hdrawn : ∀ t ∈ e.techniques, ∀ gamma name, t.Draws index gamma name → drawn gamma name)
    (hdirect : e.activate index = (.ok (), direct)) :
    (∃ e'', e'.activate index = (.ok (), e'') ∧
      e''.toAssets.Confined (e.faces.map (Face.equip index)) drawn) ∨
    ∃ cause e'', e'.activate index = (.error cause, e'') ∧ e.Resumes index drawn e'' ∧
      e''.device.pending < e'.device.pending := by
  obtain ⟨effect, textures, d, b, objects, heffect, hvalidate, htextures, hbackbuffer, hbuild, -⟩ :=
    activate_eq_ok hdirect
  -- what the direct attempt did can be repeated from any state between
  have hyields := repeats_buildEffect ⟨b, e.depth.view⟩ index effect hdrawn _ _ _
    (hassets.materialize htextures).toReady hbuild
  have hcreates := hassets.yields_materialize h.assets h.faces htextures
  obtain ⟨failure, heffects⟩ := h.effects
  have heffect' : e'.effect? index = some { effect with failure } := by
    rw [heffects, if_pos rfl, heffect]
    rfl
  have hrun := e'.build_run index { effect with failure }
  rw [Engine.activate, heffect']
  dsimp only
  rcases houtcome : e'.build index { effect with failure } with ⟨cause | _, e₁⟩ <;>
    rw [houtcome] at hrun
  · refine Or.inr ⟨cause, _, rfl, ?_⟩
    cases hrun with
    -- the module is the same one, so it is as valid as it was
    | invalid hinvalid => cases hvalidate.symm.trans hinvalid
    | @refused cause d' hrefused =>
      -- textures that were created ahead of the refusal stay, and are not asked for again
      obtain ⟨-, hpending⟩ := hcreates.error trivial hrefused
      have hspared := spared_of_materialize hrefused
      have hevolves := (evolves_materialize index e'.textures).run hrefused
      have hconfined : ({ e'.toAssets with device := d' } : Assets).Confined e'.faces drawn := by
        refine ⟨⟨(Assets.Extends.of_device hevolves h.assets.sound).2, rfl, ?_⟩, h.assets.within⟩
        intro t ht o howned
        rw [Device.textureDesc?, hspared.get? (h.assets.sound.owned t ht o howned).given]
        exact h.assets.stands t ht o howned
      exact ⟨h.fail (a := { e'.toAssets with device := d' }) hconfined h.faces cause, hpending⟩
    -- the backbuffer is still that of the direct attempt
    | homeless _ hnone =>
      rw [h.backbuffer, hbackbuffer] at hnone
      cases hnone
    | @failed textures' d' b' cause a htextures' hbackbuffer' hfailed =>
      obtain ⟨-, -, hle⟩ := hcreates.ok trivial htextures'
      have hready := h.assets.materialize htextures'
      rw [h.backbuffer, hbackbuffer] at hbackbuffer'
      cases hbackbuffer'
      rw [h.depth, h.techniques] at hfailed
      rw [h.faces] at hready
      obtain ⟨hconfined, hpending⟩ := hyields.error hready hfailed
      refine ⟨h.fail (hconfined.faces.symm ▸ hconfined) ?_ cause, hpending.trans_le hle⟩
      rw [hconfined.faces, List.map_map]
      exact List.map_congr_left fun f _ ↦ f.equip_equip index
  · refine Or.inl ⟨_, rfl, ?_⟩
    cases hrun with
    | @built textures' d' b' objects' techniques' a _ htextures' hbackbuffer' hbuilt =>
      have hready := h.assets.materialize htextures'
      rw [h.backbuffer, hbackbuffer] at hbackbuffer'
      cases hbackbuffer'
      rw [h.depth, h.techniques] at hbuilt
      rw [h.faces] at hready
      exact (hyields.ok hready hbuilt).1

end Engine

end EffectChain
