import EffectChain.Proofs.Mips
import EffectChain.Proofs.Recovery.Alike
import EffectChain.Proofs.Recovery.Outcome

/-!
# A failed load can be made up for

An effect that could have been loaded, had the device not refused something, is loaded by reloading
it (`Session.Reachable.recovers`). What the attempt that failed leaves behind, textures, views to
draw into them, cached states, cannot be told from what the reload creates itself: in the end there
is what loading at once would have led to, except that things have other numbers (`Engine.Matches`).

Both ways are outcomes of attempts that start from the same engine, and two outcomes always match
(`Engine.Outcome.matches_outcome`).
-/

namespace EffectChain

/-! ## What matches -/

/-- An effect that was activated in two ways. -/
structure Effect.Matches (effect effect' : Effect) : Prop where
  /-- It was loaded from the same module. -/
  module : effect'.module = effect.module
  /-- Its uniform storage is the same. -/
  uniforms : effect'.uniforms = effect.uniforms
  /-- Nothing is reported about it. -/
  errors : effect.errors = "" ∧ effect'.errors = ""
  /-- It is active. -/
  active : effect.isActive = true ∧ effect'.isActive = true

/-- A technique after an effect was activated in two ways: it has matching states if it belongs to
the effect. -/
def Technique.Matches (index : Nat) (a a' : Assets) (b : Backbuffer) (t t' : Technique) : Prop :=
  t.effect ≠ index ∧ t' = t ∨
    t.effect = index ∧ ∃ s s', t.state = some s ∧ t' = { t with state := some s' } ∧
      s.Matches a a' b s'

/-- Two engines after an effect was activated in two ways, when the last number that was given out
before was `n`. -/
structure Engine.Matches (n : Nat) (index : Nat) (e e' : Engine) : Prop where
  /-- The backbuffer is the same. -/
  backbuffer : e'.backbuffer = e.backbuffer
  /-- The alias of the scene depth is the same. -/
  depth : e'.depth = e.depth
  /-- The effect is active in both. -/
  effect : ∃ effect effect', e.effect? index = some effect ∧ e'.effect? index = some effect' ∧
    effect.Matches effect'
  /-- The other effects are the same. -/
  others : ∀ i, i ≠ index → e'.effect? i = e.effect? i
  /-- The techniques match. -/
  techniques : ∃ b, e.backbuffer = some b ∧
    List.Forall₂ (Technique.Matches index e.toAssets e'.toAssets b) e.techniques e'.techniques
  /-- The textures of effects match. -/
  textures : List.Forall₂ (TableTexture.Matches n e.device e'.device) e.textures e'.textures
  /-- Textures that were there before are there with the same texels. -/
  old : ∀ x : Handle .texture, x.id ≤ n → e'.device.get? x = e.device.get? x
  /-- Textures that were not are textures of effects. -/
  new : ∀ x : Handle .texture, n < x.id → (x.ref ∈ e.device.live → x ∈ e.resources) ∧
    (x.ref ∈ e'.device.live → x ∈ e'.resources)

/-! ## Outcomes match -/

namespace Engine

variable {g e e' : Engine} {n index : Nat} {others : Multiset ObjectRef}

/-- The textures that an engine records are those of the swapchain and those of effects. -/
theorem mem_resources_of_mem_refs {x : Handle .texture} (h : x.ref ∈ e.refs) :
    (∃ b, e.backbuffer = some b ∧ x.ref ∈ b.refs) ∨ x ∈ e.resources := by
  simp only [refs, loadedRefs, List.mem_append, List.mem_flatMap] at h
  rcases h with (⟨b, hb, hx⟩ | ((⟨t, -, hx⟩ | ⟨effect, -, hx⟩) | ⟨t, ht, hx⟩) | hx) | hx
  · exact Or.inl ⟨b, Option.mem_toList.mp hb, hx⟩
  · simp [Technique.refs, TechniqueState.refs, Timer.refs, Handle.ref] at hx
  · simp [Effect.refs, EffectObjects.refs, Handle.ref] at hx
  · obtain ⟨o, howned, hx⟩ := List.mem_flatMap.mp hx
    rcases List.mem_cons.mp hx with heq | hx
    · exact Or.inr (Assets.mem_resources.mpr
        ⟨t, ht, o, Option.mem_toList.mp howned, (Handle.ref_inj.mp heq).symm⟩)
    · simp [Handle.ref] at hx
  · simp [StateObjects.refs, StateCache.refs, Handle.ref] at hx
  · simp [DepthAlias.refs, Handle.ref] at hx

namespace Outcome

/-- Textures match, since what they hold is settled by the views to draw into them. -/
theorem matches_textures (h : Outcome n others index g e) (h' : Outcome n others index g e') :
    List.Forall₂ (TableTexture.Matches n e.device e'.device) e.textures e'.textures := by
  have hfaces :
      List.Forall₂ (fun t t' : TableTexture ↦ t.face = t'.face) e.textures e'.textures := by
    rw [← List.forall₂_map_right_iff, ← List.forall₂_map_left_iff, List.forall₂_eq_eq_eq]
    exact h.faces.trans h'.faces.symm
  refine hfaces.mp (S := TableTexture.Matches n e.device e'.device) ?_ (forall₂_of_common
    (R := fun t t' ↦ t.face = t'.face → t.Matches n e.device e'.device t') h.develops.textures
    h'.develops.textures ?_)
  · exact fun t t' hface hmatches ↦ hmatches hface
  intro t₀ t t' ht ht' hd hd' hface
  have hdecl : t'.decl = t.decl := hd'.decl.trans hd.decl.symm
  have hoffers : t'.offers = t.offers := by
    funext gamma
    rw [Bool.eq_iff_iff, h.offers t ht gamma, h'.offers t' ht' gamma, hdecl]
  -- a view that either attempt added has cleared the texture in both
  have hcontent : t'.content? e'.device = t.content? e.device := by
    by_cases hsame : t.offers = t₀.offers
    · rw [hd.kept hsame, hd'.kept (hoffers.trans hsame)]
    · rw [hd.zeroed hsame, hd'.zeroed (hoffers ▸ hsame)]
  have hequipped : t.owned.isSome = t'.owned.isSome := congrArg Face.equipped hface
  refine ⟨hdecl, hd'.effects.trans hd.effects.symm, ?_⟩
  rcases howned : t.owned with _ | o <;> rcases howned' : t'.owned with _ | o' <;>
    rw [howned, howned'] at hequipped
  · exact .none
  · cases hequipped
  · cases hequipped
  · have hlive := h.kept.owns.assets_live.owned ht howned _ List.mem_cons_self
    obtain ⟨c, hget⟩ := Device.get?_of_mem_live hlive
    rw [TableTexture.content?, TableTexture.content?, howned, howned'] at hcontent
    have hresource : t.resource? = some o.resource := congrArg (Option.map _) howned
    have hresource' : t'.resource? = some o'.resource := congrArg (Option.map _) howned'
    refine .some ⟨⟨c, hget, hcontent.trans hget⟩, ?_, fun gamma ↦ ?_⟩
    · rcases hd.resource with hold | ⟨hnone, hlater⟩ <;>
        rcases hd'.resource with hold' | ⟨hnone', hlater'⟩
      · exact Or.inl (Option.some.inj
          (hresource'.symm.trans (hold'.trans (hold.symm.trans hresource))))
      · cases hresource.symm.trans (hold.trans hnone')
      · cases hresource'.symm.trans (hold'.trans hnone)
      · exact Or.inr ⟨hlater _ hresource, hlater' _ hresource'⟩
    · have hpick := congrFun hoffers gamma
      rwa [TableTexture.offers, TableTexture.offers, howned, howned'] at hpick

/-- **The assets of two outcomes are aligned.** -/
theorem aligned (h : Outcome n others index g e) (h' : Outcome n others index g e') :
    Assets.Aligned n e.toAssets e'.toAssets where
  sound := h.kept.tables.assets
  sound' := h'.kept.tables.assets
  live := h.kept.owns.assets_live
  live' := h'.kept.owns.assets_live
  distinct := h.kept.distinct
  distinct' := h'.kept.distinct
  textures := h.matches_textures h'
  get? hprivate htexture hid :=
    (h'.develops.get? hprivate htexture hid).trans (h.develops.get? hprivate htexture hid).symm

theorem get?_old (h : Outcome n others index g e) (h' : Outcome n others index g e')
    {x : Handle .texture} (hid : x.id ≤ n) : e'.device.get? x = e.device.get? x := by
  by_cases hx : x ∈ g.resources
  · obtain ⟨t₀, ht₀, o₀, howned₀, rfl⟩ := Assets.mem_resources.mp hx
    obtain ⟨t, ht, hd⟩ := exists_of_forall₂_left h.develops.textures ht₀
    have hsome : t₀.resource? = some o₀.resource := congrArg (Option.map _) howned₀
    have hresource : t.resource? = some o₀.resource :=
      (hd.resource.resolve_right fun hnone ↦ by cases hsome.symm.trans hnone.1).trans hsome
    obtain ⟨o, howned, heq⟩ := TableTexture.resource?_eq_some.mp hresource
    obtain ⟨t', -, hmatches⟩ := exists_of_forall₂_left (h.matches_textures h') ht
    have hrel := hmatches.owned
    rw [howned] at hrel
    obtain ⟨hnone, -⟩ | ⟨_, o', hsome, -, ho⟩ := rel_cases hrel
    · cases hnone
    · cases hsome
      obtain ⟨c, hget, hget'⟩ := ho.content
      have hsame : o'.resource = o.resource :=
        ho.resource.resolve_right fun hlater ↦ Nat.not_lt.mpr hid (heq ▸ hlater.1)
      rw [← heq, hget, ← hsame, hget']
  · exact (h'.develops.others hid hx).trans (h.develops.others hid hx).symm

theorem scene_old (h : Outcome n others index g e) {b : Backbuffer}
    (hscene : Scene.Old n g.device ⟨b, g.depth.view⟩) :
    Scene.Old n e.device ⟨b, g.depth.view⟩ where
  shown hview hresolve := by
    obtain ⟨hid, htexture⟩ := hscene.shown hview hresolve
    rw [Device.viewTexture?, h.develops.get? rfl (by decide) hid]
    exact ⟨hid, htexture⟩
  drawn gamma := by
    obtain ⟨hid, htexture⟩ := hscene.drawn gamma
    rw [Device.targetTexture?, h.develops.get? rfl (by decide) hid]
    exact ⟨hid, htexture⟩

theorem matches_techniques (h : Outcome n others index g e) (h' : Outcome n others index g e')
    {effect : Effect} (heffect : g.effect? index = some effect) {b : Backbuffer}
    (hb : g.backbuffer = some b) (hscene : Scene.Old n g.device ⟨b, g.depth.view⟩) :
    List.Forall₂ (Technique.Matches index e.toAssets e'.toAssets b) e.techniques e'.techniques := by
  have haligned := h.aligned h'
  have hresolved {e : Engine} (h : Outcome n others index g e) {t : Technique}
      (ht : t ∈ e.techniques) (hindex : t.effect = index) {s : TechniqueState}
      (hs : t.state = some s) : (∀ r ∈ s.passes, r.Resolved e.device ⟨b, g.depth.view⟩ s.bindings) ∧
        s.SourcesLive e.device := by
    obtain ⟨b', hb', hresolves⟩ := h.resolves t ht hindex s hs
    obtain ⟨-, -, hlive, -⟩ := h.kept.sound.live_iff h.kept.tables h.kept.owns ht hs
    cases hb'.symm.trans (h.backbuffer.trans hb)
    rw [h.depth] at hresolves
    exact ⟨hresolves, hlive⟩
  refine forall₂_of_common (h.techniques effect b heffect hb) (h'.techniques effect b heffect hb)
    fun {t₀ t t'} ht ht' hby hby' ↦ ?_
  rcases hby with ⟨hindex, s, rfl, hs⟩ | ⟨hne, rfl⟩
  · obtain ⟨-, s', rfl, hs'⟩ | ⟨hne, -⟩ := hby'
    · obtain ⟨hinputs, hlive⟩ := hresolved h ht hindex rfl
      obtain ⟨hinputs', hlive'⟩ := hresolved h' ht' hindex rfl
      exact Or.inr ⟨hindex, s, s', rfl, rfl,
        haligned.state (h.scene_old hscene) hs hs' hinputs hinputs' hlive hlive'⟩
    · exact absurd hindex hne
  · obtain ⟨hindex, -⟩ | ⟨-, rfl⟩ := hby'
    · exact absurd hindex hne
    · exact Or.inl ⟨hne, rfl⟩

theorem mem_resources_of_new (h : Outcome n others index g e) (hothers : ∀ r ∈ others, r.id ≤ n)
    (hbackbuffer : ∀ b, g.backbuffer = some b → ∀ r ∈ b.refs, r.id ≤ n) {x : Handle .texture}
    (hid : n < x.id) (hlive : x.ref ∈ e.device.live) : x ∈ e.resources := by
  have hnot : ¬x.ref.id ≤ n := Nat.not_le.mpr hid
  rcases Multiset.mem_add.mp ((Device.Owns.mem_live h.kept.owns).mp hlive) with hx | hx
  · exact absurd (hothers _ hx) hnot
  · rcases mem_resources_of_mem_refs (Multiset.mem_coe.mp hx) with ⟨b, hb, hx⟩ | hx
    · exact absurd (hbackbuffer b (h.backbuffer ▸ hb) _ hx) hnot
    · exact hx

/-- **Two outcomes match.** -/
theorem matches_outcome (h : Outcome n others index g e) (h' : Outcome n others index g e')
    {effect : Effect} (heffect : g.effect? index = some effect) {b : Backbuffer}
    (hb : g.backbuffer = some b) (hscene : Scene.Old n g.device ⟨b, g.depth.view⟩)
    (hothers : ∀ r ∈ others, r.id ≤ n) (hrefs : ∀ r ∈ b.refs, r.id ≤ n) :
    e.Matches n index e' where
  backbuffer := h'.backbuffer.trans h.backbuffer.symm
  depth := h'.depth.trans h.depth.symm
  effect := by
    obtain ⟨objects, heffects⟩ := h.effects
    obtain ⟨objects', heffects'⟩ := h'.effects
    refine ⟨_, _, (heffects index).trans ((if_pos rfl).trans (congrArg _ heffect)),
      (heffects' index).trans ((if_pos rfl).trans (congrArg _ heffect)), rfl, rfl, ⟨rfl, rfl⟩,
      rfl, rfl⟩
  others i hi := by
    obtain ⟨objects, heffects⟩ := h.effects
    obtain ⟨objects', heffects'⟩ := h'.effects
    rw [heffects, heffects', if_neg (Ne.symm hi), if_neg (Ne.symm hi)]
  techniques := ⟨b, h.backbuffer.trans hb, h.matches_techniques h' heffect hb hscene⟩
  textures := h.matches_textures h'
  old _ hid := h.get?_old h' hid
  new x hid := by
    have hbackbuffer : ∀ b, g.backbuffer = some b → ∀ r ∈ b.refs, r.id ≤ n := by
      intro b' hb'
      cases hb.symm.trans hb'
      exact hrefs
    exact ⟨h.mem_resources_of_new hothers hbackbuffer hid,
      h'.mem_resources_of_new hothers hbackbuffer hid⟩

end Outcome

end Engine

/-! ## Sessions -/

namespace Session

variable {s : Session}

/-- What belongs to the scene was there before what is loaded next. -/
theorem Reachable.scene_old {allowed : Session → Event → Prop} (hs : s.Reachable allowed)
    {b : Backbuffer} (hb : s.engine.backbuffer = some b) :
    Scene.Old s.device.lastId s.device ⟨b, s.engine.depth.view⟩ where
  shown {slot v} hview hresolve := by
    cases slot with
    | empty => cases hresolve
    | view v => exact absurd rfl (hview v)
    | backbuffer gamma =>
      cases hresolve
      have hshows := (hs.sound.backbuffer b hb).views gamma
      refine ⟨hshows.elim fun _ hmade ↦ hmade.id_le, fun x hx ↦ ?_⟩
      rw [hshows.eq hx]
      exact (hs.placed b hb).surfaces _ (by simp [Backbuffer.surfaces])
    | depth =>
      obtain ⟨t, ht, hshows⟩ := hs.aliases.sound v hresolve
      refine ⟨hshows.elim fun _ hmade ↦ hmade.id_le, fun x hx ↦ ?_⟩
      rw [hshows.eq hx]
      exact hs.depth_given v t hresolve ht
  drawn gamma := by
    have hdraws := (hs.sound.backbuffer b hb).targets gamma
    refine ⟨hdraws.elim fun _ hmade ↦ hmade.id_le, fun x hx ↦ ?_⟩
    rw [hdraws.eq hx]
    exact (hs.placed b hb).surfaces _ (by simp [Backbuffer.surfaces])

/-- **An effect that something was refused to is loaded by a reload**, with the result that loading
it at once would have had. In every session whose host is lawful, let a module be such that loading
it succeeds if nothing is refused, and let any creation be refused instead, such that loading it
fails. Then nothing is left to be refused, reloading the effect succeeds, and what there is then
matches what direct loading leads to. -/
theorem Reachable.recovers (hs : s.Reachable Event.Lawful) {m : EffectModule} {index : Nat}
    {direct : Engine} (hdirect : (s.engine.refusing []).load m = (.ok index, direct))
    {refusal : Refusal} {cause : EngineError} {failed : Engine}
    (hfailed : (s.engine.refusing [refusal]).load m = (.error cause, failed)) :
    failed.device.refusals = [] ∧ ∃ retried, failed.reload index = (.ok (), retried) ∧
      direct.Matches s.device.lastId index retried := by
  obtain ⟨strays, howns, -⟩ := hs.owns fun _ _ h ↦ h
  have hkept : s.engine.Kept (↑s.host + strays) := ⟨hs.tables, hs.sound, hs.aliases, howns⟩
  obtain ⟨hindex, hactivate⟩ := Engine.load_eq_ok hdirect
  obtain ⟨effect, -, -, b, -, heffect, -, -, hb, -⟩ := Engine.activate_eq_ok hactivate
  have hrefused := Engine.load_eq_error (e := s.engine.refusing [refusal])
    (Option.isSome_of_eq_some hb) hfailed
  -- both loads start from one engine, but for the refusal
  obtain ⟨houtcome, hnone, retried, hretry, houtcome'⟩ :=
    ((hkept.refusing []).register m.reserveSlots).outcome_of_failed
      ((hkept.refusing []).idle_register m.reserveSlots) rfl hactivate hrefused
  have hscene := hs.scene_old hb
  subst hindex
  refine ⟨hnone, retried, hretry, houtcome.matches_outcome houtcome' heffect hb
    ⟨hscene.shown, hscene.drawn⟩ (fun r hr ↦ howns.given r (Multiset.mem_add.mpr (Or.inl hr)))
    fun r hr ↦ howns.given r (Multiset.mem_add.mpr (Or.inr (Multiset.mem_coe.mpr ?_)))⟩
  have hbackbuffer : s.engine.backbuffer = some b := hb
  rw [Engine.refs, hbackbuffer]
  exact List.mem_append_left _ (List.mem_append_left _ (by simpa using hr))

/-- A blend state is refused to an effect that reads and draws into a texture of its own, which has
been created by then, and so has a view to draw into it. -/
theorem recovers_small :
    let m := EffectModule.single "paint" [{ name := "canvas" }] [{
      name := "sampler", textureName := "canvas", binding := 0, textureBinding := 0 }] ["canvas"]
    ∃ direct cause failed retried, (small.engine.refusing []).load m = (.ok 0, direct) ∧
      (small.engine.refusing [⟨.blendState, 0⟩]).load m = (.error cause, failed) ∧
      failed.reload 0 = (.ok (), retried) ∧ direct.Matches small.device.lastId 0 retried := by
  intro m
  have hs : small.Reachable Event.Lawful := .step (.step (.start {} {}) trivial) trivial
  have hsucceeds : ((small.engine.refusing []).load m).1.toOption = some 0 := by decide +kernel
  have hfails : ((small.engine.refusing [⟨.blendState, 0⟩]).load m).1.isOk = false := by
    decide +kernel
  rcases hdirect : (small.engine.refusing []).load m with ⟨_ | index, direct⟩ <;>
    rw [hdirect] at hsucceeds <;> cases hsucceeds
  rcases hfailed : (small.engine.refusing [⟨.blendState, 0⟩]).load m with ⟨cause | _, failed⟩ <;>
    rw [hfailed] at hfails
  · obtain ⟨-, retried, hretry, hmatches⟩ := Reachable.recovers hs hdirect hfailed
    exact ⟨direct, cause, failed, retried, rfl, rfl, hretry, hmatches⟩
  · cases hfails

end Session

end EffectChain
