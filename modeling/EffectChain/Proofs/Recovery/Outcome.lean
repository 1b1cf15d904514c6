import EffectChain.Proofs.Records.Resolved
import EffectChain.Proofs.Recovery.Attempts
import EffectChain.Proofs.Recovery.Contents

/-!
# What attempts lead to

However many attempts it takes to activate an effect, what is there in the end is determined by the
engine before the first one, up to the numbers of what was created on the way (`Engine.Outcome`).
The techniques of the effect are built as declared, the texture table offers views to draw into the
variants that it offered before or that the effect asks for, and all that is known of engines in
sessions is known of this one (`Engine.Kept`).
-/

namespace EffectChain

open Assets (Builds)

/-! ## What is kept on the way -/

/-- Different entries stand for different textures, since their objects are listed once. -/
theorem sublist_resources (table : List TableTexture) :
    List.Sublist ((table.filterMap (·.resource?)).map Handle.ref)
      (table.flatMap TableTexture.refs) := by
  induction table with
  | nil => exact List.Sublist.refl _
  | cons t rest ih =>
    rw [List.filterMap_cons, List.flatMap_cons, TableTexture.resource?, TableTexture.refs]
    rcases t.owned with _ | o
    · exact ih
    · rw [Option.map_some, List.map_cons, Option.toList_some, List.flatMap_singleton,
        OwnedTexture.refs, List.cons_append]
      exact (ih.trans (List.sublist_append_right _ _)).cons_cons _

namespace Engine

variable {e e' : Engine} {index : Nat} {others : Multiset ObjectRef}

/-- The effect is waiting to be activated. -/
structure Idle (index : Nat) (e : Engine) : Prop where
  /-- Its techniques have no states. -/
  techniques : ∀ t ∈ e.techniques, t.effect = index → t.state = none
  /-- It has no objects. -/
  objects : ∀ effect, e.effect? index = some effect → effect.objects = none

theorem Idle.deactivate_eq (h : e.Idle index) : e.deactivate index = e := by
  have hown : (e.techniques.filter fun t ↦ t.effect = index).flatMap Technique.refs = [] := by
    refine List.flatMap_eq_nil_iff.mpr fun t ht ↦ ?_
    obtain ⟨ht, hindex⟩ := List.mem_filter.mp ht
    rw [Technique.refs, h.techniques t ht (by simpa using hindex)]
    rfl
  have heffect : (e.effect? index).toList.flatMap Effect.refs = [] := by
    rcases heffect : e.effect? index with _ | effect
    · rfl
    · rw [Option.toList_some, List.flatMap_singleton, Effect.refs, h.objects effect heffect]
      rfl
  have hdevice : e.device.release [] = e.device := by
    rw [Device.release, Store.erase, List.filter_eq_self.mpr (by simp)]
  have htechniques : (e.techniques.map fun t ↦
      if t.effect = index then { t with state := none } else t) = e.techniques := by
    refine (List.map_congr_left fun t ht ↦ ?_).trans (List.map_id' _)
    split
    · rename_i hindex
      rw [← h.techniques t ht hindex]
    · rfl
  have heffects : e.effects.modify index (Option.map fun effect ↦ { effect with objects := none })
      = e.effects := by
    refine List.ext_getElem? fun i ↦ ?_
    rw [List.getElem?_modify]
    split
    · rename_i hi
      subst hi
      rcases heffect : e.effects[index]? with _ | _ | effect
      · rfl
      · rfl
      · have hnone := h.objects effect (by rw [effect?, heffect]; rfl)
        change some (some { effect with objects := none }) = _
        rw [← hnone]
    · exact id_map _
  rw [deactivate, hown, heffect, List.append_nil, hdevice, htechniques, heffects]

/-- The engine with other refusals to come. -/
def refusing (e : Engine) (refusals : List Refusal) : Engine :=
  { e with device := { e.device with refusals } }

/-- What is known of an engine in a session. -/
structure Kept (others : Multiset ObjectRef) (e : Engine) : Prop where
  /-- The tables fit together. -/
  tables : e.Tables
  /-- Records are sound. -/
  sound : e.Sound
  /-- The alias of the scene depth is sound. -/
  aliases : e.Aliases
  /-- What is alive is accounted for. -/
  owns : e.Owns others

namespace Kept

theorem evolves (h : e.Kept others) (hmoves : e.Moves e') :
    e'.Tables ∧ e'.Sound ∧ e.device.Evolves e'.device := by
  induction hmoves with
  | refl => exact ⟨h.tables, h.sound, Device.Evolves.refl _⟩
  | tail _ hlast ih =>
    obtain ⟨htables, hsound, hevolves⟩ := ih
    exact ⟨htables.move hlast, hsound.move htables hlast, hevolves.trans (hlast.evolves htables)⟩

theorem moves (h : e.Kept others) (hmoves : e.Moves e')
    (hdepth : e'.depth = e.depth ∧ e'.backbuffer = e.backbuffer) (howns : e'.Owns others) :
    e'.Kept others := by
  obtain ⟨htables, hsound, hevolves⟩ := h.evolves hmoves
  exact ⟨htables, hsound, h.aliases.movesDepth hevolves (.of_eq hdepth), howns⟩

theorem activate (h : e.Kept others) (hidle : e.Idle index) :
    (e.activate index).2.Kept others :=
  h.moves (e.moves_activate index) (e.depth_activate index)
    (h.owns.activate h.tables.assets.names hidle.techniques hidle.objects)

theorem register (h : e.Kept others) (m : EffectModule) : (e.register m).Kept others :=
  h.moves (Relation.ReflTransGen.single (.registered m)) ⟨rfl, rfl⟩ (h.owns.register m)

theorem distinct (h : e.Kept others) : e.resources.Nodup :=
  ((sublist_resources e.textures).nodup h.owns.nodup_tables.2.2).of_map _

theorem refusing (h : e.Kept others) (refusals : List Refusal) :
    (e.refusing refusals).Kept others :=
  h.moves (Continues.of_device (d := { e.device with refusals })
    (Device.Evolves.of_eq rfl rfl)).moves ⟨rfl, rfl⟩ (h.owns.congr rfl rfl rfl)

end Kept

/-! ## Before the first attempt -/

/-- The variants of textures that can be drawn into once an effect is active: those that could be
before, and those that its passes draw into. -/
def Drawn (e : Engine) (index : Nat) (gamma : Bool) (name : String) : Prop :=
  (∃ t ∈ e.textures, t.offers gamma = true ∧ t.decl.name = name) ∨
    ∃ t ∈ e.techniques, t.Draws index gamma name

theorem Kept.confined (h : e.Kept others) (index : Nat) :
    e.toAssets.Confined e.faces (e.Drawn index) where
  toReady := .of_owns h.tables.assets h.owns
  within t ht _ hoffers := Or.inl ⟨t, ht, hoffers, rfl⟩

theorem Kept.idle_register (h : e.Kept others) (m : EffectModule) :
    (e.register m).Idle e.effects.length where
  techniques t ht hindex := state_of_mem_register (fun _ ↦ h.tables.effect_lt) m ht hindex
  objects effect heffect := by
    cases (effect?_register e m).symm.trans heffect
    rfl

/-! ## From attempt to attempt -/

/-- An engine after attempts to activate an effect that failed. -/
structure Tried (n : Nat) (others : Multiset ObjectRef) (index : Nat) (e e' : Engine) : Prop where
  /-- The effect can be tried again. -/
  resumes : e.Resumes index (e.Drawn index) e'
  /-- What is known of engines is known of this one. -/
  kept : e'.Kept others
  /-- Textures changed as they do in attempts. -/
  develops : e.toAssets.Develops n e'.toAssets
  /-- No number is given out twice. -/
  later : n ≤ e'.device.lastId

/-- An engine in which an effect was activated, perhaps not at once. -/
structure Outcome (n : Nat) (others : Multiset ObjectRef) (index : Nat) (e e' : Engine) : Prop where
  /-- What is known of engines is known of this one. -/
  kept : e'.Kept others
  /-- Textures changed as they do in attempts. -/
  develops : e.toAssets.Develops n e'.toAssets
  /-- The textures of the effect are there. -/
  faces : e'.faces = e.faces.map (Face.equip index)
  /-- The table has the views to draw into textures that there were, and those of the effect. -/
  offers : ∀ t ∈ e'.textures, ∀ gamma, t.offers gamma = true ↔ e.Drawn index gamma t.decl.name
  /-- The effect is active. -/
  effects : ∃ objects, ∀ i, e'.effect? i = if index = i
    then (e.effect? i).map fun effect ↦ { effect with failure := none, objects := some objects }
    else e.effect? i
  /-- Its techniques are what they are declared to be. -/
  techniques : ∀ effect b, e.effect? index = some effect → e.backbuffer = some b →
    List.Forall₂ (fun t t' ↦ t.effect = index ∧ (∃ state, t' = { t with state := some state } ∧
        state.Implements e'.toAssets b effect.module t.passes) ∨ t.effect ≠ index ∧ t' = t)
      e.techniques e'.techniques
  /-- Their inputs are resolved. -/
  resolves : ∀ t ∈ e'.techniques, t.effect = index → ∀ state, t.state = some state →
    e'.Resolves state
  /-- The backbuffer is the same. -/
  backbuffer : e'.backbuffer = e.backbuffer
  /-- The alias of the scene depth is the same. -/
  depth : e'.depth = e.depth

variable {n : Nat} {direct : Engine}

theorem Tried.idle (h : Tried n others index e e') (hidle : e.Idle index) : e'.Idle index where
  techniques := h.resumes.techniques ▸ hidle.techniques
  objects effect heffect := by
    obtain ⟨failure, heffects⟩ := h.resumes.effects
    rw [heffects, if_pos rfl] at heffect
    obtain ⟨effect₀, heffect₀, rfl⟩ := Option.map_eq_some_iff.mp heffect
    exact hidle.objects effect₀ heffect₀

theorem Kept.tried (h : e.Kept others) (index : Nat) (refusals : List Refusal) :
    Tried e.device.lastId others index e (e.refusing refusals) where
  resumes := {
    effects := by
      refine ⟨(e.effect? index).bind (·.failure), fun i ↦ ?_⟩
      change e.effect? i = _
      split
      · rename_i hi
        subst hi
        rcases e.effect? index with _ | effect <;> rfl
      · rfl
    techniques := rfl
    backbuffer := rfl
    depth := rfl
    assets := (h.refusing refusals).confined index
    faces := rfl }
  kept := h.refusing refusals
  develops := .of_get? (d := { e.device with refusals }) (fun _ _ _ _ ↦ rfl) fun _ _ ↦ rfl
  later := Nat.le_refl _

theorem Tried.activate (h : Tried n others index e e') (hidle : e.Idle index) :
    (e'.activate index).2.Kept others ∧ e.toAssets.Develops n (e'.activate index).2.toAssets ∧
      n ≤ (e'.activate index).2.device.lastId := by
  have hkept := h.kept.activate (h.idle hidle)
  obtain ⟨-, -, hevolves⟩ := h.kept.evolves (e'.moves_activate index)
  exact ⟨hkept, h.develops.trans (develops_activate h.kept.tables.assets hkept.distinct h.later),
    h.later.trans hevolves.lastId_le⟩

/-- An attempt that fails can be followed by another one, with fewer refusals to come. -/
theorem Tried.error (h : Tried n others index e e') (hkept : e.Kept others) (hidle : e.Idle index)
    (hdirect : e.activate index = (.ok (), direct)) {cause : EngineError} {e'' : Engine}
    (run : e'.activate index = (.error cause, e'')) :
    Tried n others index e e'' ∧ e''.device.pending < e'.device.pending := by
  obtain ⟨hkept', hdevelops, hlater⟩ := h.activate hidle
  rw [run] at hkept' hdevelops hlater
  rcases h.resumes.activate (hkept.confined index)
    (fun t ht gamma name hdraws ↦ Or.inr ⟨t, ht, hdraws⟩) hdirect with
    ⟨_, hrun, -⟩ | ⟨_, _, hrun, hresumes, hpending⟩ <;> cases run.symm.trans hrun
  exact ⟨⟨hresumes, hkept', hdevelops, hlater⟩, hpending⟩

/-- The views to draw into textures that were there are there, and so are those that the records
name. -/
theorem offers_of_implements {a : Assets} {b : Backbuffer} {effect : Effect} (hs : a.Sound)
    (hdevelops : e.toAssets.Develops n a) {techniques : List Technique}
    (himplements : List.Forall₂ (fun t t' ↦
        t.effect = index ∧ (∃ state, t' = { t with state := some state } ∧
          state.Implements a b effect.module t.passes) ∨ t.effect ≠ index ∧ t' = t)
      e.techniques techniques)
    {t : TableTexture} (ht : t ∈ a.textures) {gamma : Bool}
    (hdrawn : e.Drawn index gamma t.decl.name) : t.offers gamma = true := by
  rcases hdrawn with ⟨t₀, ht₀, hoffers, hname⟩ | ⟨u, hu, hindex, p, hp, hbackbuffer, rfl, hname⟩
  · obtain ⟨t', ht', hdevelops'⟩ := exists_of_forall₂_left hdevelops.textures ht₀
    obtain rfl : t' = t :=
      List.inj_on_of_nodup_map hs.names ht' ht (hdevelops'.decl ▸ hname)
    exact hdevelops'.offers gamma hoffers
  · obtain ⟨u', -, ⟨-, state, -, hstate⟩ | ⟨hne, -⟩⟩ := exists_of_forall₂_left himplements hu
    · obtain ⟨r, -, hr⟩ := exists_of_forall₂_left hstate.passes hp
      have htargets := hr.targets
      rw [if_neg (by simp [hbackbuffer])] at htargets
      obtain ⟨view, -, hview⟩ := List.mem_map.mp (htargets ▸ List.mem_map_of_mem hname)
      rw [Assets.targetView?, Assets.texture?_of_mem hs ht, Option.bind_some] at hview
      rw [TableTexture.offers, ← hview]
      rfl
    · exact absurd hindex hne

/-- **An attempt that nothing is refused to succeeds.** -/
theorem Tried.ok (h : Tried n others index e e') (hkept : e.Kept others) (hidle : e.Idle index)
    (hdirect : e.activate index = (.ok (), direct)) (hpending : e'.device.pending = 0) :
    ∃ e'', e'.activate index = (.ok (), e'') ∧ Outcome n others index e e'' := by
  -- a failure would use up a refusal, and there is none left
  rcases h.resumes.activate (hkept.confined index)
    (fun t ht gamma name hdraws ↦ Or.inr ⟨t, ht, hdraws⟩) hdirect with
    ⟨e'', hrun, hconfined⟩ | ⟨_, _, -, -, hless⟩
  · obtain ⟨hkept', hdevelops, -⟩ := h.activate hidle
    have hresolves : ∀ t ∈ (e'.activate index).2.techniques, t.effect = index →
        ∀ state, t.state = some state → (e'.activate index).2.Resolves state :=
      fun _ ht hindex _ hstate ↦ resolves_activate h.kept.sound h.kept.tables h.kept.aliases
        (h.idle hidle).techniques ht hindex hstate
    rw [hrun] at hkept' hdevelops hresolves
    obtain ⟨effect', _, _, b, objects, heffect', -, -, hbackbuffer, -, heffects, hsame, hdepth⟩ :=
      activate_eq_ok hrun
    obtain ⟨failure, hfailed⟩ := h.resumes.effects
    obtain ⟨effect, heffect, rfl⟩ : ∃ effect, e.effect? index = some effect ∧
        { effect with failure } = effect' := by
      rw [hfailed, if_pos rfl] at heffect'
      exact Option.map_eq_some_iff.mp heffect'
    have himplements := implements_activate h.kept.tables.assets heffect' hbackbuffer hrun
    rw [h.resumes.techniques] at himplements
    refine ⟨e'', hrun, hkept', hdevelops, hconfined.faces,
      fun t ht gamma ↦ ⟨hconfined.within t ht gamma,
        offers_of_implements hkept'.tables.assets hdevelops himplements ht⟩,
      ⟨objects, fun i ↦ ?_⟩, ?_, hresolves, hsame.trans h.resumes.backbuffer,
      hdepth.trans h.resumes.depth⟩
    · rw [heffects, hfailed]
      split
      · rename_i hi
        rw [← hi, heffect]
        rfl
      · rfl
    · intro effect₀ b₀ heffect₀ hb₀
      cases heffect.symm.trans heffect₀
      cases hbackbuffer.symm.trans (h.resumes.backbuffer.trans hb₀)
      exact himplements
  · rw [hpending] at hless
    exact absurd hless (Nat.not_lt_zero _)

/-- **After an attempt that something was refused to, reloading the effect leads to an outcome**,
just as activating it at once does. -/
theorem Kept.outcome_of_failed (h : e.Kept others) (hidle : e.Idle index)
    (hpending : e.device.pending = 0) (hdirect : e.activate index = (.ok (), direct))
    {refusal : Refusal} {cause : EngineError} {failed : Engine}
    (hfailed : (e.refusing [refusal]).activate index = (.error cause, failed)) :
    Outcome e.device.lastId others index e direct ∧ failed.device.refusals = [] ∧
      ∃ retried, failed.reload index = (.ok (), retried) ∧
        Outcome e.device.lastId others index e retried := by
  obtain ⟨_, hrun, houtcome⟩ := (h.tried index e.device.refusals).ok h hidle hdirect hpending
  cases hdirect.symm.trans hrun
  obtain ⟨htried, hless⟩ := (h.tried index [refusal]).error h hidle hdirect hfailed
  have hnone : failed.device.pending = 0 := Nat.lt_one_iff.mp hless
  obtain ⟨retried, hretry, houtcome'⟩ := htried.ok h hidle hdirect hnone
  obtain ⟨effect, -, -, -, -, heffect, -⟩ := activate_eq_ok hretry
  have hreload := htried.kept.tables.reload_eq heffect
  rw [(htried.idle hidle).deactivate_eq] at hreload
  exact ⟨houtcome, List.length_eq_zero_iff.mp hnone, retried, hreload.trans hretry, houtcome'⟩

end Engine

end EffectChain
