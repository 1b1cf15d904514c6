import EffectChain.Proofs.Failures.Reasons
import EffectChain.Proofs.SlotCounts

/-!
# Why loading an effect fails

Validation sees a module by itself, and activation looks things up in tables that all effects share.
The two fit together: what a valid module declares is in the texture table, under a declaration that
may be another effect's, and what the table lacks for it is created ahead of the look-up
(`SlotTables.isSome_slotOf_of_materialize`). So in a session with a swapchain, loading a valid
module fails for a creation, for a slot that the device does not have, or for a name to draw into,
and for nothing else (`Session.Reachable.activates_load`). Errors that would mean that a table is
wrong do not occur (`Session.Reachable.no_internal_failure`).
-/

namespace EffectChain

/-! ## What samplers read -/

/-- **The samplers of a valid module read something** once the textures of its effect are
created. -/
theorem SlotTables.isSome_slotOf_of_materialize {e : Engine} (htables : e.Tables) {index : Nat}
    {effect : Effect} (heffect : e.effect? index = some effect)
    (hvalidate : effect.module.validate = .ok ()) {textures : List TableTexture} {d : Device}
    (run : materialize index e.textures e.device = (.ok textures, d)) {s : SamplerDecl}
    (hs : s ∈ effect.module.samplers) :
    (slotOf { e.toAssets with device := d, textures } s).isSome := by
  obtain ⟨decl, hdecl, hname⟩ := EffectModule.exists_of_validate hvalidate hs
  obtain ⟨t, ht, htname, hindex⟩ := htables.declared index effect heffect decl hdecl
  obtain ⟨hequips, hequipped⟩ := equips_materialize run
  obtain ⟨t', ht', hface⟩ := exists_of_forall₂_left hequips ht
  have hname' : t'.decl.name = s.textureName := by rw [hface.decl, htname, hname]
  have hfind := Assets.texture?_of_mem (extends_materialize run htables.assets).2 ht'
  rw [hname'] at hfind
  rw [slotOf, hfind, Option.bind_some]
  split
  · rfl
  · rfl
  · rename_i hreference
    rw [Option.isSome_map]
    exact hequipped t' ht' (hface.effects ▸ hindex) hreference

/-! ## Engines -/

namespace Engine

variable {e e' : Engine} {index : Nat} {effect : Effect}

/-- A technique of an effect has the passes of a technique of its module. -/
theorem exists_decl_of_consistent (h : e.outline.Consistent)
    (heffect : e.effect? index = some effect) {t : Technique} (ht : t ∈ e.techniques)
    (hindex : t.effect = index) : ∃ decl ∈ effect.module.techniques, t.passes = decl.passes := by
  have hown := h.own index effect.module (by rw [module?_outline, heffect]; rfl)
  have hmem : (t.name, t.passes) ∈ (e.outline.techniques.filter fun t ↦ t.1 = index).map (·.2) :=
    List.mem_map.mpr ⟨t.heading, List.mem_filter.mpr ⟨List.mem_map_of_mem ht, by simpa⟩, rfl⟩
  rw [hown] at hmem
  obtain ⟨decl, hdecl, heq⟩ := List.mem_map.mp hmem
  exact ⟨decl, hdecl, (congrArg Prod.snd heq).symm⟩

theorem activate_of_invalid (heffect : e.effect? index = some effect) {cause : ModuleError}
    (hvalidate : effect.module.validate = .error cause) :
    (e.activate index).1 = .error (.module cause) := by
  rw [activate, heffect]
  dsimp only
  rw [build, hvalidate]

/-- **Activation fails for three reasons** if the module is valid. -/
theorem fails_of_activate (hready : e.toAssets.Ready e.faces) (htables : e.Tables)
    (hconsistent : e.outline.Consistent) (hb : e.backbuffer.isSome)
    (heffect : e.effect? index = some effect) (hvalidate : effect.module.validate = .ok ())
    {cause : EngineError} (run : e.activate index = (.error cause, e')) :
    ActivationFailure effect.module.samplers cause := by
  rw [activate, heffect] at run
  have hrun := e.build_run index effect
  dsimp only at run
  rcases houtcome : e.build index effect with ⟨cause' | _, e₁⟩ <;> rw [houtcome] at run hrun <;>
    cases run
  cases hrun with
  | invalid hinvalid => cases hvalidate.symm.trans hinvalid
  | refused htextures =>
    exact .creation (failsFor_materialize index e.textures e.device trivial _ _ htextures)
  | homeless _ hnone =>
    rw [hnone] at hb
    cases hb
  | failed htextures _ hbuild =>
    have hready' := hready.materialize htextures
    refine failsFor_buildEffect _ hvalidate (fun s hs a ha ↦ ?_)
      (fun t ht hindex ↦ exists_decl_of_consistent hconsistent heffect ht hindex) _ hready' _ _
      hbuild
    rw [ha.isSome_slotOf hready']
    exact SlotTables.isSome_slotOf_of_materialize htables heffect hvalidate htextures hs

/-- An effect that is activated has no sampler with a slot that the device does not have. -/
theorem not_beyond_of_activate (heffect : e.effect? index = some effect)
    (run : e.activate index = (.ok (), e')) : ∀ s ∈ effect.module.samplers, ¬ s.Beyond := by
  obtain ⟨effect', textures, d, b, objects, heffect', -, -, -, hbuild, -⟩ := activate_eq_ok run
  cases heffect.symm.trans heffect'
  obtain ⟨tables, a₁, a₂, -, hbind, -⟩ := buildEffect_eq_ok hbuild
  exact SlotTables.not_beyond_of_bindAll hbind

end Engine

/-! ## Sessions -/

/-- How activating the effect of a module comes out: the module is invalid, or activation fails for
another reason, or the device has all slots of its samplers. -/
inductive EffectModule.Activates (m : EffectModule) {α : Type} : Except EngineError α → Prop
  /-- The module is invalid, which is reported. -/
  | invalid {cause : ModuleError} (hvalidate : m.validate = .error cause) :
    m.Activates (.error (.module cause))
  /-- The module is valid, and activation fails. -/
  | failed {cause : EngineError} (hvalidate : m.validate = .ok ())
    (hcause : ActivationFailure m.samplers cause) : m.Activates (.error cause)
  /-- The module is valid, and its effect is activated. -/
  | activated {x : α} (hvalidate : m.validate = .ok ())
    (hsamplers : ∀ s ∈ m.samplers, ¬ s.Beyond) : m.Activates (.ok x)

namespace EffectModule.Activates

variable {m : EffectModule} {α β : Type} {outcome : Except EngineError α}

theorem map (h : m.Activates outcome) (f : α → β) : m.Activates (outcome.map f) := by
  cases h with
  | invalid hvalidate => exact .invalid hvalidate
  | failed hvalidate hcause => exact .failed hvalidate hcause
  | activated hvalidate hsamplers => exact .activated hvalidate hsamplers

theorem of_reserveSlots (h : m.reserveSlots.Activates outcome) : m.Activates outcome := by
  cases h with
  | invalid hvalidate => exact .invalid hvalidate
  | failed hvalidate hcause => exact .failed hvalidate hcause
  | activated hvalidate hsamplers => exact .activated hvalidate hsamplers

end EffectModule.Activates

theorem Engine.activates_activate {e : Engine} {index : Nat} {effect : Effect}
    (hready : e.toAssets.Ready e.faces) (htables : e.Tables) (hconsistent : e.outline.Consistent)
    (hb : e.backbuffer.isSome) (heffect : e.effect? index = some effect) :
    effect.module.Activates (e.activate index).1 := by
  rcases hvalidate : effect.module.validate with cause | _
  · rw [activate_of_invalid heffect hvalidate]
    exact .invalid hvalidate
  · rcases hrun : e.activate index with ⟨cause | _, e'⟩
    · exact .failed hvalidate
        (fails_of_activate hready htables hconsistent hb heffect hvalidate hrun)
    · exact .activated hvalidate (not_beyond_of_activate heffect hrun)

namespace Session

variable {s : Session}

/-- **How loading comes out** in a session with a swapchain. -/
theorem Reachable.activates_load (hs : s.Reachable Event.Lawful)
    (hb : s.engine.backbuffer.isSome) (m : EffectModule) :
    m.Activates (s.engine.load m).1 := by
  obtain ⟨strays, howns, -⟩ := hs.owns fun _ _ h ↦ h
  have htables := hs.tables.registered m.reserveSlots
  have hactivates := Engine.activates_activate
    (.of_owns htables.assets (howns.register m.reserveSlots)) htables
    (Engine.consistent_register hs.consistent hs.tables m.reserveSlots) hb
    (Engine.effect?_register s.engine _)
  rcases s.engine.load_cases m with ⟨hnone, -⟩ | ⟨-, hload⟩
  · rw [hnone] at hb
    cases hb
  · rw [hload]
    exact hactivates.of_reserveSlots.map _

/-- **How reloading comes out** in a session with a swapchain. -/
theorem Reachable.activates_reload (hs : s.Reachable Event.Lawful)
    (hb : s.engine.backbuffer.isSome) {index : Nat} {effect : Effect}
    (heffect : s.engine.effect? index = some effect) :
    effect.module.Activates (s.engine.reload index).1 := by
  obtain ⟨strays, howns, -⟩ := hs.owns fun _ _ h ↦ h
  have htables := hs.tables.deactivated index
  have hconsistent : (s.engine.deactivate index).outline.Consistent := by
    rw [Engine.outline_deactivate]
    exact hs.consistent
  rw [hs.tables.reload_eq heffect]
  have hactivates := Engine.activates_activate
    (.of_owns htables.assets (howns.deactivate index)) htables hconsistent hb
    (Engine.effect?_deactivate_self heffect)
  exact hactivates

end Session

/-! ## Slot limits -/

/-- A slot limit is reported exactly if a sampler has a slot that the device does not have, and then
for the first such sampler. -/
structure EffectModule.ReportsSlots (m : EffectModule) {α : Type} (outcome : Except EngineError α) :
    Prop where
  /-- There is a report if there is such a sampler, and only then. -/
  reported : (∃ cause, outcome = .error cause ∧ cause.isSlotLimit) ↔ ∃ s ∈ m.samplers, s.Beyond
  /-- It names the first one, or its texture. -/
  first : ∀ before s after, m.samplers = before ++ s :: after → (∀ s' ∈ before, ¬ s'.Beyond) →
    s.Beyond → outcome = .error s.slotLimit

theorem SamplerDecl.isSlotLimit_slotLimit (s : SamplerDecl) : s.slotLimit.isSlotLimit := by
  rw [slotLimit]
  split <;> rfl

theorem EngineError.not_isSlotLimit_of_isTarget {cause : EngineError} (h : cause.isTarget) :
    cause.isSlotLimit = false := by
  cases cause <;> first | rfl | exact absurd h Bool.false_ne_true

namespace EffectModule

variable {m : EffectModule} {α : Type} {outcome : Except EngineError α}

theorem reportsSlots_of_not_beyond (hnone : ∀ s ∈ m.samplers, ¬ s.Beyond)
    (hlimit : ∀ cause, outcome = .error cause → cause.isSlotLimit = false) :
    m.ReportsSlots outcome where
  reported := by
    constructor
    · rintro ⟨cause, hcause, hreports⟩
      rw [hlimit cause hcause] at hreports
      cases hreports
    · rintro ⟨s, hmem, hs⟩
      exact absurd hs (hnone s hmem)
  first := by
    intro before s after hsplit _ hs
    exact absurd hs (hnone s (by simp [hsplit]))

theorem reportsSlots_of_first {before after : List SamplerDecl} {s : SamplerDecl}
    (hsplit : m.samplers = before ++ s :: after) (hbefore : ∀ s' ∈ before, ¬ s'.Beyond)
    (hs : s.Beyond) : m.ReportsSlots (α := α) (.error s.slotLimit) where
  reported :=
    ⟨fun _ ↦ ⟨s, by simp [hsplit], hs⟩, fun _ ↦ ⟨_, rfl, s.isSlotLimit_slotLimit⟩⟩
  first := by
    intro before' s' after' hsplit' hbefore' hs'
    have hfind {before s after} (hsplit : m.samplers = before ++ s :: after)
        (hbefore : ∀ s' ∈ before, ¬ s'.Beyond) (hs : s.Beyond) :
        m.samplers.find? (fun s ↦ s.Beyond) = some s :=
      List.find?_eq_some_iff_append.mpr
        ⟨decide_eq_true hs, before, after, hsplit, by simpa using hbefore⟩
    cases (hfind hsplit hbefore hs).symm.trans (hfind hsplit' hbefore' hs')
    rfl

/-- **Slot limits are reported as they should**, if the module is valid and no creation fails. -/
theorem Activates.reportsSlots (h : m.Activates outcome) (hvalidate : m.validate = .ok ())
    (hcreated : ∀ cause, outcome = .error cause → cause.isCreation = false) :
    m.ReportsSlots outcome := by
  cases h with
  | invalid hinvalid => cases hvalidate.symm.trans hinvalid
  | activated _ hsamplers =>
    exact reportsSlots_of_not_beyond hsamplers fun cause hcause ↦ by cases hcause
  | failed _ hcause =>
    cases hcause with
    | creation hcreation =>
      rw [hcreated _ rfl] at hcreation
      cases hcreation
    | slotLimit hsplit hbefore hs => exact reportsSlots_of_first hsplit hbefore hs
    | target hsamplers htarget =>
      refine reportsSlots_of_not_beyond hsamplers fun cause hcause ↦ ?_
      cases hcause
      exact EngineError.not_isSlotLimit_of_isTarget htarget

end EffectModule

/-! ## Internal errors -/

/-- The error says that a look-up failed which validation and loading have provided for. -/
def EngineError.isInternal : EngineError → Bool
  | notInitialized | unknownTexture _ | unknownEntryPoint .. => true
  | _ => false

theorem ActivationFailure.not_internal {samplers : List SamplerDecl} {cause : EngineError}
    (h : ActivationFailure samplers cause) :
    cause.isInternal = false ∧ ∀ c, cause ≠ .module c := by
  cases h with
  | creation h =>
    cases cause <;>
      first | exact absurd h Bool.false_ne_true | exact ⟨rfl, fun c hc ↦ by cases hc⟩
  | slotLimit =>
    rw [SamplerDecl.slotLimit]
    split <;> exact ⟨rfl, fun c hc ↦ by cases hc⟩
  | target _ h =>
    cases cause <;>
      first | exact absurd h Bool.false_ne_true | exact ⟨rfl, fun c hc ↦ by cases hc⟩

theorem EffectModule.Activates.not_internal {m : EffectModule} {α : Type}
    {outcome : Except EngineError α} (h : m.Activates outcome) {cause : EngineError}
    (hcause : outcome = .error cause) :
    cause.isInternal = false ∧ (m.validate = .ok () → ∀ c, cause ≠ .module c) := by
  cases h with
  | invalid hinvalid =>
    cases hcause
    exact ⟨rfl, fun hvalidate ↦ by cases hvalidate.symm.trans hinvalid⟩
  | failed _ hfailure =>
    cases hcause
    exact ⟨hfailure.not_internal.1, fun _ ↦ hfailure.not_internal.2⟩
  | activated => cases hcause

/-- The tables in which a sampler of the module is bound have the sizes that the counts of the
module give them, whatever was bound before, and they have the slots of the sampler, unless the
device does not have them. -/
def EffectModule.SlotsInRange (m : EffectModule) : Prop :=
  ∀ before s after, m.samplers = before ++ s :: after → ∀ a a' tables,
    (SlotTables.ofModule m).bindAll before a = (.ok tables, a') →
    tables.samplers.length = min m.samplerSlots.toNat maxSamplerSlots ∧
      tables.bindings.length = min m.textureSlots.toNat maxTextureSlots ∧
      (¬ s.Beyond → s.binding.toNat < tables.samplers.length ∧
        s.textureBinding.toNat < tables.bindings.length)

theorem EffectModule.slotsInRange_of_reserved {m : EffectModule} (hm : m.reserveSlots = m) :
    m.SlotsInRange := by
  intro before s after hsamplers a a' tables run
  obtain ⟨hlength, hlength'⟩ := SlotTables.length_bindAll run
  have hs : s ∈ m.samplers := by simp [hsamplers]
  obtain ⟨hsampler, htexture⟩ := SlotTables.lt_length_of_bindAll hm run hs
  refine ⟨hlength.trans List.length_replicate, hlength'.trans List.length_replicate, ?_⟩
  intro hbeyond
  rw [SamplerDecl.Beyond, not_or, Nat.not_le, Nat.not_le] at hbeyond
  exact ⟨hsampler hbeyond.1, htexture hbeyond.2⟩

namespace Session

/-- **Internal errors do not occur.** In a session with a swapchain, whatever module is loaded or
reloaded and whatever the device refuses, no look-up fails that validation and loading have provided
for; a valid module is not found invalid later on; and all slots that samplers are bound to are in
the tables. -/
theorem Reachable.no_internal_failure {s : Session} (hs : s.Reachable Event.Lawful)
    (hb : s.engine.backbuffer.isSome) :
    (∀ m cause e, s.engine.load m = (.error cause, e) →
      cause.isInternal = false ∧ (m.validate = .ok () → ∀ c, cause ≠ .module c)) ∧
    (∀ index cause e, s.engine.reload index = (.error cause, e) →
      cause.isInternal = false ∧ ∀ effect, s.engine.effect? index = some effect →
        effect.module.validate = .ok () → ∀ c, cause ≠ .module c) ∧
    (∀ m : EffectModule, m.reserveSlots.SlotsInRange) ∧
    ∀ index effect, s.engine.effect? index = some effect → effect.module.SlotsInRange := by
  refine ⟨fun m cause e run ↦ ?_, fun index cause e run ↦ ?_, fun m ↦ ?_,
    fun index effect heffect ↦ ?_⟩
  · exact (hs.activates_load hb m).not_internal (congrArg Prod.fst run)
  · rcases heffect : s.engine.effect? index with _ | effect
    · rw [Engine.reload, heffect] at run
      cases run
      exact ⟨rfl, fun effect heffect ↦ by cases heffect⟩
    · obtain ⟨hinternal, hmodule⟩ :=
        (hs.activates_reload hb heffect).not_internal (congrArg Prod.fst run)
      refine ⟨hinternal, fun effect' heffect' ↦ ?_⟩
      cases heffect'
      exact hmodule
  · exact EffectModule.slotsInRange_of_reserved m.reserveSlots_reserveSlots
  · exact EffectModule.slotsInRange_of_reserved (hs.reserved heffect)

/-- An effect with a sampler at the largest word, whose module counts one sampler slot. The count is
raised as far as it goes, and reloading fails for the slot. -/
theorem no_internal_failure_small :
    let m : EffectModule := { EffectModule.single "wrap" [{ name := "canvas" }] [
        { name := "near", textureName := "canvas", binding := 7, textureBinding := 0 },
        { name := "far", textureName := "canvas", binding := maxWord, textureBinding := 3 }] []
      with samplerSlots := 1 }
    let s := small.step (.load m)
    s.Reachable Event.Lawful ∧ s.engine.backbuffer.isSome ∧
      (s.engine.effect? 0).map (·.module.samplerSlots) = some maxWord ∧
      m.reserveSlots.SlotsInRange ∧
      ∃ e, s.engine.reload 0 = (.error (.samplerSlotLimit "far" maxWord), e) ∧
        (EngineError.samplerSlotLimit "far" maxWord).isInternal = false := by
  intro m s
  have hs : s.Reachable Event.Lawful :=
    .step (.step (.step (.start {} {}) trivial) trivial) trivial
  have hb : s.engine.backbuffer.isSome := by decide +kernel
  have hcause : (s.engine.reload 0).1 = .error (.samplerSlotLimit "far" maxWord) := by
    decide +kernel
  obtain ⟨-, hreload, hrange, -⟩ := Reachable.no_internal_failure hs hb
  rcases hrun : s.engine.reload 0 with ⟨outcome, e⟩
  rw [hrun] at hcause
  obtain rfl : outcome = _ := hcause
  exact ⟨hs, hb, by decide +kernel, hrange m, e, rfl, (hreload 0 _ e hrun).1⟩

end Session

end EffectChain
