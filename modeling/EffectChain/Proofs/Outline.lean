import EffectChain.Proofs.Rests
import EffectChain.Proofs.Tables

/-!
# What the tables list

The outline of an engine is what its tables say without any device objects, states or switches: the
module of each loaded effect, the effect and the declaration of each technique, the name of each
texture and the effects that declare it. It changes when an effect is entered or withdrawn, and at
no other time; activation in particular leaves it alone, whatever comes of it.

The three lists are kept separately and changed by hand. That they agree nevertheless
(`Outline.Consistent`) is proved here for the outline, where an index is an index, and nothing has
to be said about what an operation does to objects.
-/

namespace EffectChain

def Technique.heading (t : Technique) : Nat × String × List PassDecl := (t.effect, t.name, t.passes)

def TableTexture.listing (t : TableTexture) : String × List Nat := (t.decl.name, t.effects)

/-- What the tables of an engine list. -/
@[ext]
structure Outline where
  /-- The module of the effect of an index. -/
  module? : Nat → Option EffectModule
  /-- The effect, the name and the passes of each technique. -/
  techniques : List (Nat × String × List PassDecl)
  /-- The name of each texture and the effects that declare it. -/
  textures : List (String × List Nat)

namespace Outline

/-- The effects of a texture are the loaded ones that declare it, each once, and there are some. -/
structure Lists (module? : Nat → Option EffectModule) (listing : String × List Nat) : Prop where
  nodup : listing.2.Nodup
  ne_nil : listing.2 ≠ []
  declares : ∀ i ∈ listing.2, ∃ m, module? i = some m ∧ listing.1 ∈ m.textures.map (·.name)

/-- The lists agree with the modules. -/
structure Consistent (o : Outline) : Prop where
  /-- An effect has the techniques of its module, in the order of declaration. -/
  own : ∀ i m, o.module? i = some m → (o.techniques.filter fun t ↦ t.1 = i).map (·.2)
    = m.techniques.map fun t ↦ (t.name, t.passes)
  /-- Techniques are in the order of their effects. -/
  order : o.techniques.Pairwise fun t u ↦ t.1 ≤ u.1
  /-- Textures list the effects that declare them. -/
  textures : ∀ t ∈ o.textures, Lists o.module? t

end Outline

namespace Engine

def outline (e : Engine) : Outline where
  module? i := (e.effect? i).map (·.module)
  techniques := e.techniques.map Technique.heading
  textures := e.textures.map TableTexture.listing

variable {e e' : Engine}

theorem module?_outline (e : Engine) (i : Nat) :
    e.outline.module? i = (e.effect? i).map (·.module) := rfl

/-! ## Operations that leave the outline alone -/

theorem Rests.outline (h : e.Rests e') : e'.outline = e.outline := by
  obtain ⟨f, heffects⟩ := h.effects
  refine Outline.ext (funext fun i ↦ ?_) ?_ ?_
  · rw [module?_outline, heffects, Option.map_map]
    rfl
  · exact map_eq_of_forall₂ (h.techniques.imp fun t t' ht ↦ by
      rw [Technique.heading, ht.effect, ht.name, ht.passes, Technique.heading])
  · rw [Engine.outline, h.textures, Engine.outline]

theorem outline_deactivate (e : Engine) (index : Nat) :
    (e.deactivate index).outline = e.outline := by
  refine Outline.ext (funext fun i ↦ ?_) ?_ rfl
  · exact (Continues.deactivate e index).modules i
  · refine (List.map_map ..).trans (List.map_congr_left fun t _ ↦ ?_)
    dsimp only [Function.comp_def]
    split <;> rfl

theorem Activated.outline {index : Nat} {effect : Effect} (heffect : e.effect? index = some effect)
    (h : e.Activated index effect e') : e'.outline = e.outline := by
  have hlistings (h : List.Forall₂ TableTexture.Equips e.textures e'.textures) :
      e'.textures.map TableTexture.listing = e.textures.map TableTexture.listing :=
    map_eq_of_forall₂ (h.imp fun t t' ht ↦ by
      rw [TableTexture.listing, ht.decl, ht.effects, TableTexture.listing])
  have hmodules {effect' : Effect}
      (heffects : ∀ i, e'.effect? i = if index = i then some effect' else e.effect? i)
      (hmodule : effect'.module = effect.module) (i : Nat) :
      (e'.effect? i).map (·.module) = (e.effect? i).map (·.module) := by
    rw [heffects]
    split
    · rename_i hi
      rw [← hi, heffect, Option.map_some, Option.map_some, hmodule]
    · rfl
  cases h with
  | failed cause htextures heffects htechniques =>
    refine Outline.ext (funext (hmodules heffects rfl)) ?_ (hlistings htextures)
    rw [Engine.outline, htechniques, Engine.outline]
  | built objects htextures _ heffects htechniques =>
    refine Outline.ext (funext (hmodules heffects rfl)) ?_ (hlistings htextures)
    refine map_eq_of_forall₂ (htechniques.imp fun t t' ht ↦ ?_)
    rcases ht with ⟨-, state, rfl⟩ | ⟨-, rfl⟩ <;> rfl

/-- **Activation leaves the outline alone**, whatever comes of it. -/
theorem outline_activate (hs : e.toAssets.Sound) (index : Nat) :
    (e.activate index).2.outline = e.outline := by
  rcases heffect : e.effect? index with _ | effect
  · rw [activate, heffect]
  · exact (activated hs heffect).outline heffect

/-! ## Entering and withdrawing an effect -/

theorem module?_register (e : Engine) (m : EffectModule) (i : Nat) :
    (e.register m).outline.module? i
      = if e.effects.length = i then some m else e.outline.module? i := by
  refine (congrArg (Option.map (·.module)) (effect?_append e _ i)).trans ?_
  split <;> rfl

theorem consistent_register (h : e.outline.Consistent) (htables : e.Tables) (m : EffectModule) :
    (e.register m).outline.Consistent := by
  have hmodule := e.module?_register m
  have htechniques : (e.register m).outline.techniques = e.outline.techniques
      ++ m.techniques.map fun t ↦ (e.effects.length, t.name, t.passes) := by
    refine (List.map_append ..).trans (congrArg _ ((List.map_map ..).trans ?_))
    rfl
  have hlt : ∀ t ∈ e.outline.techniques, t.1 < e.effects.length :=
    List.forall_mem_map.mpr fun t ht ↦ htables.effect_lt ht
  have hlisted {i : Nat} {m' : EffectModule} (hm : e.outline.module? i = some m') :
      (e.register m).outline.module? i = some m' := by
    obtain ⟨effect, heffect, -⟩ := Option.map_eq_some_iff.mp hm
    rwa [hmodule, if_neg (Nat.ne_of_gt (effect?_lt heffect))]
  refine ⟨fun i m' hm ↦ ?_, ?_, List.forall_mem_map.mpr ?_⟩
  · rw [hmodule] at hm
    rw [htechniques, List.filter_append, List.map_append]
    by_cases hi : e.effects.length = i
    · -- no technique was listed under the new index
      rw [if_pos hi] at hm
      cases hm
      have hold : e.outline.techniques.filter (fun t ↦ t.1 = i) = [] :=
        List.filter_eq_nil_iff.mpr fun t ht ↦ by
          simpa using Nat.ne_of_lt (hi ▸ hlt t ht)
      rw [hold, hi, List.map_nil, List.nil_append, List.filter_eq_self.mpr (by simp), List.map_map]
      rfl
    · rw [if_neg hi] at hm
      rw [h.own i m' hm, List.filter_eq_nil_iff.mpr (by simpa using fun _ _ ↦ hi), List.map_nil,
        List.append_nil]
  · rw [htechniques]
    refine List.pairwise_append.mpr ⟨h.order, List.pairwise_map.mpr ?_, fun t ht u hu ↦ ?_⟩
    · exact List.pairwise_of_forall fun _ _ ↦ Nat.le_refl _
    · obtain ⟨decl, -, rfl⟩ := List.mem_map.mp hu
      exact Nat.le_of_lt (hlt t ht)
  · refine registerTextures_induction (fun decl hdecl ↦ ?_) (fun t ht decl hdecl hname hnew ↦ ?_)
      fun t ht ↦ ?_
    · refine ⟨List.nodup_singleton _, List.cons_ne_nil _ _, List.forall_mem_singleton.mpr ?_⟩
      exact ⟨m, by rw [hmodule, if_pos rfl], List.mem_map_of_mem hdecl⟩
    · refine ⟨ht.nodup.append (List.nodup_singleton _) (List.disjoint_singleton.mpr hnew),
        List.append_ne_nil_of_right_ne_nil _ (List.cons_ne_nil _ _), ?_⟩
      refine List.forall_mem_append.mpr ⟨ht.declares, List.forall_mem_singleton.mpr ?_⟩
      exact ⟨m, by rw [hmodule, if_pos rfl], List.mem_map.mpr ⟨decl, hdecl, hname.symm⟩⟩
    · have hold := h.textures _ (List.mem_map_of_mem ht)
      refine ⟨hold.nodup, hold.ne_nil, fun i hi ↦ ?_⟩
      obtain ⟨m', hm', hname⟩ := hold.declares i hi
      exact ⟨m', hlisted hm', hname⟩

theorem consistent_withdraw (h : e.outline.Consistent) {index : Nat}
    (hindex : index < e.effects.length) : (e.withdraw index).outline.Consistent := by
  have hmodule (i : Nat) : (e.withdraw index).outline.module? i
      = if index = i then none else e.outline.module? i := by
    rw [module?_outline, effect?_withdraw hindex]
    split <;> rfl
  have htechniques : (e.techniques.filter fun t ↦ t.effect ≠ index).map Technique.heading
      = e.outline.techniques.filter fun t ↦ t.1 ≠ index := by
    rw [outline, List.filter_map]
    rfl
  refine ⟨fun i m hm ↦ ?_, ?_, List.forall_mem_map.mpr fun t ht ↦ ?_⟩
  · rw [hmodule] at hm
    split at hm
    · cases hm
    · rename_i hne
      refine Eq.trans ?_ (h.own i m hm)
      change (((e.techniques.filter fun t ↦ t.effect ≠ index).map Technique.heading).filter _).map _
        = _
      rw [htechniques, List.filter_filter]
      refine congrArg _ (List.filter_congr fun t _ ↦ ?_)
      by_cases ht : t.1 = i <;> simp [ht, Ne.symm hne]
  · change ((e.techniques.filter fun t ↦ t.effect ≠ index).map Technique.heading).Pairwise _
    rw [htechniques]
    exact h.order.filter _
  · obtain ⟨u, hu, rfl⟩ := exists_of_mem_withdrawTextures ht
    have hold := h.textures _ (List.mem_map_of_mem hu)
    -- an entry that is kept is declared by another effect
    refine ⟨hold.nodup.filter _, ne_nil_of_mem_withdrawTextures ht, fun i hi ↦ ?_⟩
    obtain ⟨hmem, hne⟩ := List.mem_filter.mp hi
    obtain ⟨m, hm, hname⟩ := hold.declares i hmem
    refine ⟨m, (hmodule i).trans ?_, hname⟩
    rwa [if_neg fun heq ↦ by simp [heq] at hne]

theorem consistent_empty (effects : e.effects = []) (techniques : e.techniques = [])
    (textures : e.textures = []) : e.outline.Consistent := by
  rw [outline, techniques, textures]
  refine ⟨fun i m hm ↦ ?_, List.Pairwise.nil, nofun⟩
  simp [effect?, effects] at hm

/-! ## Operations of the engine -/

theorem consistent_load (h : e.outline.Consistent) (htables : e.Tables) (m : EffectModule) :
    (e.load m).2.outline.Consistent := by
  rcases e.load_cases m with ⟨-, hrun⟩ | ⟨-, hrun⟩ <;> rw [hrun]
  · exact h
  · have hactivate := outline_activate (htables.registered m.reserveSlots).assets e.effects.length
    exact hactivate ▸ consistent_register h htables m.reserveSlots

theorem consistent_reload (h : e.outline.Consistent) (htables : e.Tables) (index : Nat) :
    (e.reload index).2.outline.Consistent := by
  rcases htables.reload_cases index with ⟨-, hrun⟩ | ⟨effect, -, hrun⟩ <;> rw [hrun]
  · exact h
  · rwa [outline_activate (htables.deactivated index).assets, outline_deactivate]

theorem consistent_unload (h : e.outline.Consistent) (index : Nat) :
    (e.unload index).2.outline.Consistent := by
  rcases e.unload_cases index with ⟨-, hrun⟩ | ⟨effect, heffect, hrun⟩ <;> rw [hrun]
  · exact h
  · exact consistent_withdraw (by rwa [outline_deactivate])
      (effect?_lt (effect?_deactivate_self heffect))

theorem consistent_init (h : e.outline.Consistent) (s : Swapchain) :
    (e.init s).2.outline.Consistent := by
  have hvacated : e.vacated.outline.Consistent :=
    vacated_induction (P := fun e ↦ e.outline.Consistent) h (consistent_empty rfl rfl rfl)
  rcases e.init_cases s with ⟨cause, d, -, hinit⟩ | ⟨b, d, -, hinit⟩ <;> rw [hinit] <;>
    exact hvacated

end Engine

end EffectChain
