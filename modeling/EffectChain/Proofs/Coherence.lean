import EffectChain.Proofs.DepthAlias
import EffectChain.Proofs.Outline
import EffectChain.Proofs.Ownership.Operations
import EffectChain.Proofs.Records.Session

/-!
# The tables agree with each other

What is active, built and created is spread over three tables: an effect has its objects, its
techniques have their states, its textures have theirs. Everything that changes one of the tables
changes the others to match, so an effect is active with all that belongs to it or not at all
(`Engine.Settled`), and the agreement of the tables (`Engine.Coherent`) holds in every session.

Two operations are not that tidy half-way. Loading enters an effect that has neither objects nor a
failure, and reloading takes the objects away first. Activation is therefore described from an
engine in which one effect is dormant and all others are settled (`Engine.Dormant`).

An effect without techniques is the reason why activity cannot be read off the techniques alone: all
of its techniques are built even if it failed (`inactive_of_bare`).
-/

namespace EffectChain

/-! ## Reported failures -/

theorem append_ne_empty {a b : String} (h : a ≠ "") : a ++ b ≠ "" :=
  fun heq ↦ h (String.append_eq_empty_iff.mp heq).1

theorem ModuleError.message_ne_empty (e : ModuleError) : e.message ≠ "" := by
  cases e
  all_goals repeat first
    | decide
    | refine append_ne_empty ?_

theorem EngineError.message_ne_empty (e : EngineError) : e.message ≠ "" := by
  cases e
  case module cause => exact cause.message_ne_empty
  all_goals repeat first
    | decide
    | refine append_ne_empty ?_

theorem Effect.errors_eq_empty_iff (e : Effect) : e.errors = "" ↔ e.failure = none := by
  rw [errors]
  rcases e.failure with _ | cause
  · exact iff_of_true rfl rfl
  · exact iff_of_false cause.message_ne_empty nofun

namespace Engine

variable {e e' : Engine} {index i : Nat} {effect effect' : Effect}

/-! ## Settled effects -/

/-- The effect is active with all that belongs to it, or failed. -/
structure Settled (e : Engine) (i : Nat) (effect : Effect) : Prop where
  /-- It is active unless it failed. -/
  failure : effect.isActive ↔ effect.failure = none
  /-- Its techniques are as active as it is. -/
  techniques : ∀ t ∈ e.techniques, t.effect = i → t.isActive = effect.isActive
  /-- If it is active its textures have their device objects. -/
  textures : effect.isActive → ∀ t ∈ e.textures, i ∈ t.effects → t.decl.reference = .owned →
    t.owned.isSome

/-- An effect stays settled if what it finds in the tables was there. -/
theorem Settled.of_tables (h : e.Settled i effect) (isActive : effect'.isActive = effect.isActive)
    (failure : effect'.failure = effect.failure)
    (techniques : ∀ t' ∈ e'.techniques, t'.effect = i →
      ∃ t ∈ e.techniques, t.effect = i ∧ t'.isActive = t.isActive)
    (textures : ∀ t' ∈ e'.textures, i ∈ t'.effects →
      ∃ t ∈ e.textures, i ∈ t.effects ∧ t'.decl = t.decl ∧ (t.owned.isSome → t'.owned.isSome)) :
    e'.Settled i effect' where
  failure := by
    rw [isActive, failure]
    exact h.failure
  techniques t' ht' hi := by
    obtain ⟨t, ht, hti, hactive⟩ := techniques t' ht' hi
    rw [hactive, isActive]
    exact h.techniques t ht hti
  textures hactive t' ht' hi href := by
    obtain ⟨t, ht, hti, hdecl, howned⟩ := textures t' ht' hi
    exact howned (h.textures (isActive ▸ hactive) t ht hti (hdecl ▸ href))

/-- Every effect is settled, and only textures of the chain's own have device objects. -/
structure AllSettled (e : Engine) : Prop where
  effects : ∀ i effect, e.effect? i = some effect → e.Settled i effect
  reference : ∀ t ∈ e.textures, t.owned.isSome → t.decl.reference = .owned

/-- One effect is not active in any respect, and all others are settled. -/
structure Dormant (e : Engine) (index : Nat) : Prop where
  /-- The others. -/
  others : ∀ i effect, i ≠ index → e.effect? i = some effect → e.Settled i effect
  /-- The effect has no objects. -/
  effect : ∀ effect, e.effect? index = some effect → effect.isActive = false
  /-- Its techniques have no states. -/
  techniques : ∀ t ∈ e.techniques, t.effect = index → t.isActive = false
  reference : ∀ t ∈ e.textures, t.owned.isSome → t.decl.reference = .owned

theorem Dormant.activate (h : e.Dormant index) (hs : e.toAssets.Sound)
    (heffect : e.effect? index = some effect) : (e.activate index).2.AllSettled := by
  have hactivated := activated hs heffect
  have hnone : effect.isActive = false := h.effect effect heffect
  have hinactive : ¬effect.isActive = true := Bool.eq_false_iff.mp hnone
  -- the texture table only gains device objects, whatever comes of the attempt
  have hequipped {e' : Engine} (htextures : List.Forall₂ TableTexture.Equips e.textures e'.textures)
      {i : Nat} : ∀ t' ∈ e'.textures, i ∈ t'.effects → ∃ t ∈ e.textures, i ∈ t.effects ∧
        t'.decl = t.decl ∧ (t.owned.isSome → t'.owned.isSome) := by
    intro t' ht' hi
    obtain ⟨t, ht, hequips⟩ := exists_of_forall₂_right htextures ht'
    exact ⟨t, ht, hequips.effects ▸ hi, hequips.decl, hequips.stays⟩
  have hreference {e' : Engine}
      (htextures : List.Forall₂ TableTexture.Equips e.textures e'.textures) :
      ∀ t' ∈ e'.textures, t'.owned.isSome → t'.decl.reference = .owned := by
    intro t' ht' howned
    obtain ⟨t, ht, hequips⟩ := exists_of_forall₂_right htextures ht'
    rw [hequips.decl]
    exact (hequips.reference howned).elim (h.reference t ht) id
  cases hactivated with
  | failed cause htextures heffects htechniques =>
    refine ⟨fun i effect' heffect' ↦ ?_, hreference htextures⟩
    rw [heffects] at heffect'
    split at heffect'
    · rename_i hi
      cases heffect'
      -- the effect is as inactive as its techniques were
      refine ⟨iff_of_false hinactive nofun, fun t ht hti ↦ ?_,
        fun hactive ↦ absurd hactive hinactive⟩
      rw [htechniques] at ht
      exact (h.techniques t ht (hti.trans hi.symm)).trans hnone.symm
    · rename_i hi
      refine (h.others i effect' (Ne.symm hi) heffect').of_tables rfl rfl (fun t ht hti ↦ ?_)
        (hequipped htextures)
      exact ⟨t, htechniques ▸ ht, hti, rfl⟩
  | built objects htextures hown heffects htechniques =>
    refine ⟨fun i effect' heffect' ↦ ?_, hreference htextures⟩
    rw [heffects] at heffect'
    split at heffect'
    · rename_i hi
      cases heffect'
      -- all of its techniques got a state
      refine ⟨iff_of_true rfl rfl, fun t' ht' hti ↦ ?_, fun _ t ht hti ↦ hown t ht (hi ▸ hti)⟩
      obtain ⟨t, -, ⟨-, state, rfl⟩ | ⟨hne, rfl⟩⟩ := exists_of_forall₂_right htechniques ht'
      · rfl
      · exact absurd (hti.trans hi.symm) hne
    · rename_i hi
      refine (h.others i effect' (Ne.symm hi) heffect').of_tables rfl rfl (fun t' ht' hti ↦ ?_)
        (hequipped htextures)
      obtain ⟨t, ht, ⟨hindex, state, rfl⟩ | ⟨-, rfl⟩⟩ := exists_of_forall₂_right htechniques ht'
      · exact absurd (hindex.symm.trans hti) hi
      · exact ⟨t', ht, hti, rfl⟩

namespace AllSettled

theorem rests (h : e.AllSettled) (hrests : e.Rests e') : e'.AllSettled := by
  obtain ⟨f, heffects⟩ := hrests.effects
  refine ⟨fun i effect' heffect' ↦ ?_, hrests.textures ▸ h.reference⟩
  rw [heffects] at heffect'
  obtain ⟨effect, heffect, rfl⟩ := Option.map_eq_some_iff.mp heffect'
  refine (h.effects i effect heffect).of_tables rfl rfl (fun t' ht' hi ↦ ?_) fun t' ht' hi ↦ ?_
  · obtain ⟨t, ht, hrest⟩ := exists_of_forall₂_right hrests.techniques ht'
    exact ⟨t, ht, hrest.effect ▸ hi, hrest.isActive⟩
  · exact ⟨t', hrests.textures ▸ ht', hi, rfl, id⟩

theorem deactivate (h : e.AllSettled) (index : Nat) : (e.deactivate index).Dormant index where
  others i effect hne heffect := by
    rw [effect?_deactivate, if_neg (Ne.symm hne)] at heffect
    refine (h.effects i effect heffect).of_tables rfl rfl (fun t' ht' hi ↦ ?_)
      fun t ht hi ↦ ⟨t, ht, hi, rfl, id⟩
    obtain ⟨t, ht, rfl⟩ := List.mem_map.mp ht'
    by_cases hindex : t.effect = index
    · rw [if_pos hindex] at hi
      exact absurd (hi.symm.trans hindex) hne
    · rw [if_neg hindex] at hi ⊢
      exact ⟨t, ht, hi, rfl⟩
  effect effect heffect := by
    rw [effect?_deactivate, if_pos rfl] at heffect
    obtain ⟨old, -, rfl⟩ := Option.map_eq_some_iff.mp heffect
    rfl
  techniques t ht hindex := by
    rw [Technique.isActive, state_of_mem_deactivate ht hindex]
    rfl
  reference := h.reference

theorem register (h : e.AllSettled) (htables : e.Tables) (m : EffectModule) :
    (e.register m).Dormant e.effects.length where
  others i effect hne heffect := by
    have heffect := (effect?_append e _ i).symm.trans heffect
    rw [if_neg (Ne.symm hne)] at heffect
    refine (h.effects i effect heffect).of_tables rfl rfl (fun t ht hi ↦ ?_) ?_
    · rcases List.mem_append.mp ht with ht | ht
      · exact ⟨t, ht, hi, rfl⟩
      · obtain ⟨decl, -, rfl⟩ := List.mem_map.mp ht
        exact absurd hi.symm hne
    · refine registerTextures_induction (fun decl _ hi ↦ ?_) (fun t ht decl _ _ _ hi ↦ ?_)
        fun t ht hi ↦ ⟨t, ht, hi, rfl, id⟩
      · exact absurd (List.mem_singleton.mp hi) hne
      · exact ht ((List.mem_append.mp hi).resolve_right fun hi ↦
          hne (List.mem_singleton.mp hi))
  effect effect heffect := by
    have heffect := (effect?_append e _ _).symm.trans heffect
    rw [if_pos rfl] at heffect
    cases heffect
    rfl
  techniques t ht hindex := by
    rw [Technique.isActive, state_of_mem_register (fun _ ↦ htables.effect_lt) m ht hindex]
    rfl
  reference t' ht' howned := by
    obtain ⟨o, ho⟩ := Option.isSome_iff_exists.mp howned
    obtain ⟨t, ht, hdecl, hto⟩ := owned_of_mem_registerTextures ht' ho
    rw [← hdecl]
    exact h.reference t ht (Option.isSome_of_eq_some hto)

theorem load (h : e.AllSettled) (htables : e.Tables) (m : EffectModule) :
    (e.load m).2.AllSettled := by
  rcases e.load_cases m with ⟨-, hrun⟩ | ⟨-, hrun⟩ <;> rw [hrun]
  · exact h
  · refine (h.register htables m.reserveSlots).activate (htables.registered _).assets
      (effect?_register e _)

theorem reload (h : e.AllSettled) (htables : e.Tables) (index : Nat) :
    (e.reload index).2.AllSettled := by
  rcases htables.reload_cases index with ⟨-, hrun⟩ | ⟨effect, heffect, hrun⟩ <;> rw [hrun]
  · exact h
  · exact (h.deactivate index).activate (htables.deactivated index).assets
      (effect?_deactivate_self heffect)

theorem unload (h : e.AllSettled) (index : Nat) : (e.unload index).2.AllSettled := by
  rcases e.unload_cases index with ⟨-, hrun⟩ | ⟨effect, heffect, hrun⟩ <;> rw [hrun]
  · exact h
  · have hdormant := h.deactivate index
    refine ⟨fun i effect' heffect' ↦ ?_, fun t' ht' howned ↦ ?_⟩
    · rw [effect?_withdraw (effect?_lt (effect?_deactivate_self heffect))] at heffect'
      split at heffect'
      · cases heffect'
      · rename_i hne
        refine (hdormant.others i effect' (Ne.symm hne) heffect').of_tables rfl rfl
          (fun t ht hi ↦ ⟨t, (List.mem_filter.mp ht).1, hi, rfl⟩) fun t' ht' hi ↦ ?_
        obtain ⟨t, ht, rfl⟩ := exists_of_mem_withdrawTextures ht'
        exact ⟨t, ht, (List.mem_filter.mp hi).1, rfl, id⟩
    · obtain ⟨t, ht, rfl⟩ := exists_of_mem_withdrawTextures ht'
      exact hdormant.reference t ht howned

theorem empty (effects : e.effects = []) (textures : e.textures = []) : e.AllSettled := by
  refine ⟨fun i effect heffect ↦ ?_, textures ▸ nofun⟩
  rw [effect?, effects] at heffect
  cases heffect

theorem init (h : e.AllSettled) (s : Swapchain) : (e.init s).2.AllSettled := by
  have hvacated : e.vacated.AllSettled :=
    vacated_induction (P := AllSettled) h (empty rfl rfl)
  rcases e.init_cases s with ⟨cause, d, -, hinit⟩ | ⟨b, d, -, hinit⟩ <;> rw [hinit]
  · exact hvacated.rests (Rests.of_eq rfl rfl rfl rfl rfl)
  · exact ⟨fun i effect heffect ↦ ⟨(hvacated.effects i effect heffect).failure,
      (hvacated.effects i effect heffect).techniques,
      (hvacated.effects i effect heffect).textures⟩, hvacated.reference⟩

end AllSettled

/-! ## Coherence -/

end Engine

/-- It has a state, with one record for each declared pass. -/
def Technique.IsBuilt (t : Technique) : Prop :=
  ∃ state, t.state = some state ∧ state.passes.length = t.passes.length

/-- The tables of an engine agree with each other. -/
structure Engine.Coherent (e : Engine) : Prop where
  /-- The effect of a technique is loaded. -/
  loaded : ∀ t ∈ e.techniques, (e.effect? t.effect).isSome
  /-- An effect has the techniques of its module, in the order of declaration. -/
  own : ∀ i effect, e.effect? i = some effect →
    (e.techniques.filter fun t ↦ t.effect = i).map (fun t ↦ (t.name, t.passes))
      = effect.module.techniques.map fun t ↦ (t.name, t.passes)
  /-- Techniques of different effects are in the order of loading. -/
  order : e.techniques.Pairwise fun t u ↦ t.effect ≤ u.effect
  /-- An effect is active unless a failure is reported for it. -/
  errors : ∀ i effect, e.effect? i = some effect → (effect.isActive ↔ effect.errors = "")
  /-- An effect with techniques is active if all of them are built. -/
  active : ∀ i effect, e.effect? i = some effect → effect.module.techniques ≠ [] →
    (effect.isActive ↔ ∀ t ∈ e.techniques, t.effect = i → t.IsBuilt)
  /-- No technique of an inactive effect is built. -/
  inactive : ∀ i effect, e.effect? i = some effect → effect.isActive = false →
    ∀ t ∈ e.techniques, t.effect = i → t.state = none
  /-- The names of textures differ. -/
  names : (e.textures.map (·.decl.name)).Nodup
  /-- A texture lists effects, each once. -/
  nodup : ∀ t ∈ e.textures, t.effects.Nodup ∧ t.effects ≠ []
  /-- They are the loaded effects whose modules declare the name. -/
  effects : ∀ t ∈ e.textures, ∀ i, i ∈ t.effects ↔
    ∃ effect, e.effect? i = some effect ∧ t.decl.name ∈ effect.module.textures.map (·.name)
  /-- A texture that stands for something else has no device objects. -/
  reference : ∀ t ∈ e.textures, t.owned.isSome → t.decl.reference = .owned
  /-- The textures of an active effect have their device objects. -/
  owned : ∀ i effect, e.effect? i = some effect → effect.isActive →
    ∀ t ∈ e.textures, i ∈ t.effects → t.decl.reference = .owned → t.owned.isSome
  /-- Without a swapchain there is nothing. -/
  vacant : e.backbuffer = none →
    e.effects = [] ∧ e.techniques = [] ∧ e.textures = [] ∧ e.states = {} ∧ e.depth = {}

namespace Engine

variable {e : Engine}

theorem Sound.isBuilt (h : e.Sound) {t : Technique} (ht : t ∈ e.techniques)
    (hactive : t.isActive = true) : t.IsBuilt := by
  obtain ⟨state, hstate⟩ := Option.isSome_iff_exists.mp hactive
  obtain ⟨b, objects, -, -, hsound⟩ := h.techniques t ht state hstate
  exact ⟨state, hstate, hsound.passes.length_eq.symm⟩

/-- The agreement of the tables is made up of what was proved of each. -/
theorem coherent_of_settled (hsettled : e.AllSettled) (hconsistent : e.outline.Consistent)
    (htables : e.Tables) (hsound : e.Sound) (htidy : e.Tidy) (haliases : e.Aliases) :
    e.Coherent := by
  have hown : ∀ i effect, e.effect? i = some effect →
      (e.techniques.filter fun t ↦ t.effect = i).map (fun t ↦ (t.name, t.passes))
        = effect.module.techniques.map fun t ↦ (t.name, t.passes) := by
    intro i effect heffect
    rw [← hconsistent.own i effect.module (by rw [module?_outline, heffect]; rfl), outline,
      List.filter_map, List.map_map]
    rfl
  have horder := hconsistent.order
  rw [outline, List.pairwise_map] at horder
  have hlists : ∀ t ∈ e.textures, Outline.Lists e.outline.module? t.listing :=
    List.forall_mem_map.mp hconsistent.textures
  refine {
    loaded := htables.loaded
    own := hown
    order := horder
    errors := fun i effect heffect ↦ by
      rw [effect.errors_eq_empty_iff]
      exact (hsettled.effects i effect heffect).failure
    active := fun i effect heffect hne ↦ ⟨fun hactive t ht hi ↦ ?_, fun hall ↦ ?_⟩
    inactive := fun i effect heffect hinactive t ht hi ↦ ?_
    names := htables.assets.names
    nodup := fun t ht ↦ ⟨(hlists t ht).nodup, (hlists t ht).ne_nil⟩
    effects := fun t ht i ↦ ⟨fun hi ↦ ?_, ?_⟩
    reference := hsettled.reference
    owned := fun i effect heffect ↦ (hsettled.effects i effect heffect).textures
    vacant := fun hb ↦ ?_ }
  · refine hsound.isBuilt ht ?_
    rw [(hsettled.effects i effect heffect).techniques t ht hi, hactive]
  · -- some technique is listed, and it is as active as the effect
    have hlisted : e.techniques.filter (fun t ↦ t.effect = i) ≠ [] := fun hnil ↦ by
      have hempty := hown i effect heffect
      rw [hnil] at hempty
      exact hne (List.map_eq_nil_iff.mp hempty.symm)
    obtain ⟨t, ht⟩ := List.exists_mem_of_ne_nil _ hlisted
    obtain ⟨hmem, hi⟩ := List.mem_filter.mp ht
    have hi : t.effect = i := by simpa using hi
    obtain ⟨state, hstate, -⟩ := hall t hmem hi
    rw [← (hsettled.effects i effect heffect).techniques t hmem hi]
    exact Option.isSome_of_eq_some hstate
  · have hnone := (hsettled.effects i effect heffect).techniques t ht hi
    rw [hinactive] at hnone
    simpa [Technique.isActive] using hnone
  · obtain ⟨m, hm, hname⟩ := (hlists t ht).declares i hi
    obtain ⟨effect, heffect, rfl⟩ := Option.map_eq_some_iff.mp hm
    exact ⟨effect, heffect, hname⟩
  · rintro ⟨effect, heffect, hname⟩
    obtain ⟨decl, hdecl, hname⟩ := List.mem_map.mp hname
    obtain ⟨u, hu, huname, hi⟩ := htables.declared i effect heffect decl hdecl
    -- there is one entry of the name
    obtain rfl : u = t :=
      List.inj_on_of_nodup_map htables.assets.names hu ht (huname.trans hname)
    exact hi
  · obtain ⟨heffects, htechniques, htextures, hstates, -⟩ := htidy.bare hb
    exact ⟨heffects, htechniques, htextures, hstates, haliases.depth_eq hb⟩

end Engine

namespace Session

theorem allSettled_step {s : Session} (htables : s.engine.Tables) (h : s.engine.AllSettled)
    (event : Event) : (s.step event).engine.AllSettled := by
  by_cases hloads : event.loads = false
  · exact h.rests (s.rests_step hloads)
  · cases event with
    | init swapchain => exact h.init swapchain
    | reset => exact .empty rfl rfl
    | load m => exact h.load htables m
    | reload index => exact h.reload htables index
    | unload index => exact h.unload index
    | unloadAll => exact .empty rfl rfl
    | _ => exact absurd rfl hloads

theorem consistent_step {s : Session} (htables : s.engine.Tables)
    (h : s.engine.outline.Consistent) (event : Event) :
    (s.step event).engine.outline.Consistent := by
  by_cases hloads : event.loads = false
  · rw [(s.rests_step hloads).outline]
    exact h
  · cases event with
    | init swapchain => exact Engine.consistent_init h swapchain
    | reset => exact Engine.consistent_empty rfl rfl rfl
    | load m => exact Engine.consistent_load h htables m
    | reload index => exact Engine.consistent_reload h htables index
    | unload index => exact Engine.consistent_unload h index
    | unloadAll => exact Engine.consistent_empty rfl rfl rfl
    | _ => exact absurd rfl hloads

variable {allowed : Session → Event → Prop} {s : Session}

theorem Reachable.allSettled (hs : s.Reachable allowed) : s.engine.AllSettled := by
  induction hs with
  | start timing config => exact .empty rfl rfl
  | step hs _ ih => exact allSettled_step hs.tables ih _

theorem Reachable.consistent (hs : s.Reachable allowed) : s.engine.outline.Consistent := by
  induction hs with
  | start timing config => exact Engine.consistent_empty rfl rfl rfl
  | step hs _ ih => exact consistent_step hs.tables ih _

/-- **The tables agree with each other**, after any events. -/
theorem Reachable.coherent (hs : s.Reachable allowed) : s.engine.Coherent :=
  Engine.coherent_of_settled hs.allSettled hs.consistent hs.tables hs.sound hs.tidy hs.aliases

/-- An effect that failed beside one that did not, which declare the same texture. -/
theorem coherent_small :
    let s := (small.step (.load (.single "paint" [{ name := "canvas" }] [] ["canvas"]))).step
      (.load (.single "lost" [{ name := "canvas" }] [] ["canvas", "nowhere"]))
    s.Reachable Event.Lawful ∧ s.engine.Coherent ∧
      (s.engine.effect? 0).map (·.isActive) = some true ∧
      (s.engine.effect? 1).map (·.isActive) = some false ∧
      s.engine.textures.map (·.effects) = [[0, 1]] := by
  intro s
  have hs : s.Reachable Event.Lawful :=
    .step (.step (.step (.step (.start {} {}) trivial) trivial) trivial) trivial
  exact ⟨hs, hs.coherent, by decide +kernel, by decide +kernel, by decide +kernel⟩

/-- All techniques of an effect without techniques are built, also if the effect failed. -/
theorem inactive_of_bare :
    let m : EffectModule :=
      { name := "bare"
        entryPoints := [⟨"main", .vertex, Bytes.zeros 1⟩, ⟨"main", .pixel, Bytes.zeros 1⟩] }
    let s := small.step (.load m)
    s.Reachable Event.Lawful ∧ ∃ effect, s.engine.effect? 0 = some effect ∧
      ¬(effect.isActive ↔ ∀ t ∈ s.engine.techniques, t.effect = 0 → t.IsBuilt) := by
  intro m s
  have hs : s.Reachable Event.Lawful :=
    .step (.step (.step (.start {} {}) trivial) trivial) trivial
  obtain ⟨effect, heffect⟩ : ∃ effect, s.engine.effect? 0 = some effect :=
    Option.isSome_iff_exists.mp (by decide +kernel)
  have hinactive : ∀ effect ∈ s.engine.effect? 0, effect.isActive = false := by decide +kernel
  have hnone : s.engine.techniques = [] := by
    rw [← List.length_eq_zero_iff]
    decide +kernel
  refine ⟨hs, effect, heffect, fun hiff ↦ ?_⟩
  have hactive : effect.isActive := hiff.mpr (by rw [hnone]; nofun)
  rw [hinactive effect heffect] at hactive
  cases hactive

end Session

end EffectChain
