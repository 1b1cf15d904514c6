import EffectChain.Proofs.Moves

/-!
# The tables fit together

In every session that can be reached, the names of the texture table differ and its views are views
of its textures, every technique belongs to an effect that is loaded, and every texture that a
loaded effect declares has an entry that lists the effect (`Engine.Tables`).
-/

namespace EffectChain

namespace Engine

/-- The tables fit together. -/
structure Tables (e : Engine) : Prop where
  /-- The texture table is what it seems to be. -/
  assets : e.toAssets.Sound
  /-- The effect of a technique is loaded. -/
  loaded : ∀ t ∈ e.techniques, (e.effect? t.effect).isSome
  /-- The texture table has what loaded effects declare. -/
  declared : ∀ i effect, e.effect? i = some effect → ∀ decl ∈ effect.module.textures,
    ∃ t ∈ e.textures, t.decl.name = decl.name ∧ i ∈ t.effects

namespace Tables

variable {e e' : Engine}

theorem effect_lt (h : e.Tables) {t : Technique} (ht : t ∈ e.techniques) :
    t.effect < e.effects.length := by
  obtain ⟨effect, heffect⟩ := Option.isSome_iff_exists.mp (h.loaded t ht)
  exact effect?_lt heffect

theorem of_extends (h : e.Tables) (assets : e.toAssets.Extends e'.toAssets)
    (modules : ∀ i, (e'.effect? i).map (·.module) = (e.effect? i).map (·.module))
    (techniques : ∀ t' ∈ e'.techniques, ∃ t ∈ e.techniques, t'.effect = t.effect) :
    e'.Tables := by
  obtain ⟨hgrows, hsound⟩ := assets h.assets
  refine ⟨hsound, fun t' ht' ↦ ?_, fun i effect' heffect' decl hdecl ↦ ?_⟩
  · obtain ⟨t, ht, heffect⟩ := techniques t' ht'
    rw [heffect, ← Option.isSome_map, modules, Option.isSome_map]
    exact h.loaded t ht
  · have hmodule := modules i
    rw [heffect'] at hmodule
    obtain ⟨effect, heffect, heq⟩ := Option.map_eq_some_iff.mp hmodule.symm
    obtain ⟨t, ht, hname, hmem⟩ := h.declared i effect heffect decl (heq ▸ hdecl)
    obtain ⟨t', ht', hgrows'⟩ := exists_of_forall₂_left hgrows.textures ht
    exact ⟨t', ht', hgrows'.name.trans hname, hgrows'.effects hmem⟩

theorem sound_registerTextures {a : Assets} (h : a.Sound) (index : Nat)
    (decls : List TextureDecl) :
    ({ a with textures := registerTextures index decls a.textures } : Assets).Sound where
  names := nodup_registerTextures h.names
  owned t' ht' o ho := by
    obtain ⟨t, ht, hdecl, howned⟩ := owned_of_mem_registerTextures ht' ho
    exact hdecl ▸ h.owned t ht o howned
  states := h.states

theorem registered (h : e.Tables) (m : EffectModule) : (e.register m).Tables := by
  refine ⟨sound_registerTextures h.assets _ _, fun t ht ↦ ?_, fun i effect heffect decl hdecl ↦ ?_⟩
  · change (Engine.effect? { e with effects := e.effects ++ [some _] } t.effect).isSome
    rw [effect?_append]
    split
    · rfl
    · rename_i hindex
      rcases List.mem_append.mp ht with ht | ht
      · exact h.loaded t ht
      · obtain ⟨decl, -, rfl⟩ := List.mem_map.mp ht
        exact absurd rfl hindex
  · change Engine.effect? { e with effects := e.effects ++ [some _] } i = some effect at heffect
    rw [effect?_append] at heffect
    split at heffect
    · rename_i hindex
      cases heffect
      rw [← hindex]
      exact declared_registerTextures hdecl
    · obtain ⟨t, ht, hname, hmem⟩ := h.declared i effect heffect decl hdecl
      obtain ⟨t', ht', hgrows⟩ := exists_of_mem_registerTextures e.effects.length m.textures ht
      exact ⟨t', ht', hgrows.name.trans hname, hgrows.effects hmem⟩

theorem withdrawn (h : e.Tables) {index : Nat} (hindex : index < e.effects.length) :
    (e.withdraw index).Tables := by
  refine ⟨⟨nodup_withdrawTextures index h.assets.names, fun t' ht' o ho ↦ ?_,
    h.assets.states.evolves (Device.Evolves.release _ _)⟩, fun t ht ↦ ?_,
    fun i effect hi decl hdecl ↦ ?_⟩
  · obtain ⟨t, ht, rfl⟩ := exists_of_mem_withdrawTextures ht'
    exact (h.assets.owned t ht o ho).evolves (Device.Evolves.release _ _)
  · obtain ⟨ht, hne⟩ := List.mem_filter.mp ht
    have hne : t.effect ≠ index := by simpa using hne
    rw [effect?_withdraw hindex, if_neg hne.symm]
    exact h.loaded t ht
  · rw [effect?_withdraw hindex] at hi
    split at hi
    · cases hi
    · rename_i hne
      obtain ⟨t, ht, hname, hmem⟩ := h.declared i effect hi decl hdecl
      rcases withdrawTextures_cases index ht with hkept | ⟨hall, -⟩
      · refine ⟨t.without index, hkept, hname, List.mem_filter.mpr ⟨hmem, ?_⟩⟩
        simpa using Ne.symm hne
      · exact absurd (hall i hmem).symm hne

/-- **The tables keep fitting together.** -/
theorem move (h : e.Tables) (hmove : e.Move e') : e'.Tables := by
  cases hmove with
  | continues hcontinues =>
    refine h.of_extends hcontinues.assets hcontinues.modules fun t' ht' ↦ ?_
    obtain ⟨t, ht, hkeeps⟩ := hcontinues.techniques t' ht'
    exact ⟨t, ht, hkeeps.effect⟩
  | @built index effect textures d b objects techniques a heffect hvalidate htextures hbackbuffer
      hbuild =>
    obtain ⟨tables, a₁, a₂, -, -, htechniques⟩ := buildEffect_eq_ok hbuild
    have hextends := (extends_materialize htextures).trans
      ((builds_buildEffect _ index effect e.techniques).run hbuild).toExtends
    refine h.of_extends hextends (fun i ↦ ?_) fun t' ht' ↦ ?_
    · rw [setEffect_eq_modify (e := { e with toAssets := a, techniques }) heffect fun effect ↦
        { effect with objects := some objects }, effect?_modify]
      split
      · rw [Option.map_map]
        rfl
      · rfl
    · obtain ⟨t, ht, hbuilt⟩ := exists_of_forall₂_right (buildTechniques_eq_ok htechniques) ht'
      exact ⟨t, ht, hbuilt.effect⟩
  | registered m => exact h.registered m
  | @declared index effect heffect =>
    refine ⟨sound_registerTextures h.assets _ _, h.loaded, fun i other hi decl hdecl ↦ ?_⟩
    obtain ⟨t, ht, hname, hmem⟩ := h.declared i other hi decl hdecl
    obtain ⟨t', ht', hgrows⟩ := exists_of_mem_registerTextures index effect.module.textures ht
    exact ⟨t', ht', hgrows.name.trans hname, hgrows.effects hmem⟩
  | withdrawn index hindex => exact h.withdrawn hindex
  | emptied device textures states effects techniques backbuffer =>
    refine ⟨⟨?_, ?_, ?_⟩, ?_, ?_⟩
    · rw [textures]
      exact List.nodup_nil
    · rw [textures]
      nofun
    · rw [states]
      exact StateObjects.Sound.empty _
    · rw [techniques]
      nofun
    · intro i effect heffect
      rw [effect?, effects] at heffect
      cases heffect
  | prepared hnone hcreate =>
    exact h.of_extends
      (Assets.Extends.of_device ((Backbuffer.upholds_create _).run hcreate).evolves)
      (fun _ ↦ rfl) fun t ht ↦ ⟨t, ht, rfl⟩

theorem deactivated (h : e.Tables) (index : Nat) : (e.deactivate index).Tables :=
  h.move (.continues (Continues.deactivate e index))

/-- Reloading does not enter the textures of the effect again: they are entered already. -/
theorem reload_eq (h : e.Tables) {index : Nat} {effect : Effect}
    (heffect : e.effect? index = some effect) :
    e.reload index = (e.deactivate index).activate index := by
  have hsame : registerTextures index effect.module.textures (e.deactivate index).textures
      = (e.deactivate index).textures :=
    registerTextures_eq_self h.assets.names (h.declared index effect heffect)
  rw [reload, heffect]
  dsimp only
  rw [hsame]

theorem reload_cases (h : e.Tables) (index : Nat) :
    (e.effect? index = none ∧ e.reload index = (.error (.invalidEffect index), e)) ∨
      ∃ effect, e.effect? index = some effect ∧
        e.reload index = (e.deactivate index).activate index := by
  rcases e.reload_cases index with hnone | ⟨effect, heffect, -⟩
  · exact Or.inl hnone
  · exact Or.inr ⟨effect, heffect, h.reload_eq heffect⟩

end Tables

theorem Move.evolves {e e' : Engine} (h : e.Tables) (hmove : e.Move e') :
    e.device.Evolves e'.device := by
  cases hmove with
  | continues hcontinues => exact (hcontinues.assets h.assets).1.device
  | built heffect hvalidate htextures hbackbuffer hbuild =>
    exact ((evolves_materialize _ _).run htextures).trans
      ((builds_buildEffect _ _ _ _).run hbuild).evolves
  | registered m => exact Device.Evolves.refl _
  | declared heffect => exact Device.Evolves.refl _
  | withdrawn index hindex => exact Device.Evolves.release _ _
  | emptied device => exact device
  | prepared hnone hcreate => exact ((Backbuffer.upholds_create _).run hcreate).evolves

end Engine

theorem Session.Reachable.tables {allowed : Session → Event → Prop} {s : Session}
    (hs : s.Reachable allowed) : s.engine.Tables :=
  hs.invariant
    (fun timing config ↦ {
      assets := ⟨List.nodup_nil, nofun, StateObjects.Sound.empty _⟩
      loaded := nofun
      declared := fun i effect heffect ↦ by cases heffect })
    fun h hmove ↦ h.move hmove

theorem Session.Reachable.evolves_step {allowed : Session → Event → Prop} {s : Session}
    (hs : s.Reachable allowed) (event : Event) : s.device.Evolves (s.step event).device := by
  suffices h : ∀ e' : Engine, s.engine.Moves e' → e'.Tables ∧ s.device.Evolves e'.device from
    (h _ (s.moves_step event)).2
  intro e' hmoves
  induction hmoves with
  | refl => exact ⟨hs.tables, Device.Evolves.refl _⟩
  | tail _ hlast ih => exact ⟨ih.1.move hlast, ih.2.trans (hlast.evolves ih.1)⟩

theorem Session.Reachable.numbered {allowed : Session → Event → Prop} {s : Session}
    (hs : s.Reachable allowed) : s.device.Numbered := by
  induction hs with
  | start timing config => exact nofun
  | step hs _ ih => exact (hs.evolves_step _).numbered ih

end EffectChain
