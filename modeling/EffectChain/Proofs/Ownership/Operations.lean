import EffectChain.Proofs.Frame.Run
import EffectChain.Proofs.Operations
import EffectChain.Proofs.Ownership.Activation

/-!
# Operations leave everything accounted for

An engine *owns* its device up to others if what is alive is what it records and besides exactly
these others (`Engine.Owns`). Every operation keeps this, whether it succeeds or fails, and the
others are never touched: they are the host's.

Loading relies on two facts about the tables: the names of the texture table differ, and no
technique of another effect has the index that an effect is loaded under. An index that is in use
would have the states of its techniques built a second time.
-/

namespace EffectChain

open Ledger (Balances)

namespace Engine

/-! ## What an engine records -/

/-- The references to the objects of an effect that may have been unloaded. -/
def effectRefs (effect : Option Effect) : List ObjectRef := effect.toList.flatMap Effect.refs

/-- The references to what the engine records besides its assets. -/
def heldRefs (e : Engine) : Multiset ObjectRef :=
  ↑(e.backbuffer.toList.flatMap Backbuffer.refs) + ↑(e.techniques.flatMap Technique.refs)
    + ↑(e.effects.flatMap effectRefs) + ↑e.depth.refs

theorem coe_refs (e : Engine) :
    (↑e.refs : Multiset ObjectRef) = e.heldRefs + e.toAssets.recordedRefs := by
  have hloaded : (↑e.loadedRefs : Multiset ObjectRef)
      = ↑(e.techniques.flatMap Technique.refs) + ↑(e.effects.flatMap effectRefs)
        + ↑(e.textures.flatMap TableTexture.refs) + ↑e.states.refs := by
    rw [Multiset.coe_add, Multiset.coe_add, Multiset.coe_add]
    rfl
  rw [refs, ← Multiset.coe_add, ← Multiset.coe_add, hloaded, heldRefs, Assets.recordedRefs]
  abel

/-- What is alive besides the others is what the engine records. -/
def Owns (e : Engine) (others : Multiset ObjectRef) : Prop :=
  e.device.Owns (others + ↑e.refs)

theorem owns_iff {e : Engine} {others : Multiset ObjectRef} :
    e.Owns others ↔ e.device.Owns (others + e.heldRefs + e.toAssets.recordedRefs) := by
  rw [Owns, coe_refs, add_assoc]

variable {e : Engine} {index : Nat} {others : Multiset ObjectRef}

theorem Owns.nodup_refs (h : e.Owns others) : e.refs.Nodup :=
  Multiset.coe_nodup.mp (Multiset.nodup_add.mp h.nodup).2.1

theorem Owns.nodup_tables (h : e.Owns others) :
    (e.techniques.flatMap Technique.refs).Nodup ∧
      (e.effects.flatMap fun effect ↦ effect.toList.flatMap Effect.refs).Nodup ∧
      (e.textures.flatMap TableTexture.refs).Nodup := by
  have hnodup := h.nodup_refs
  rw [refs, loadedRefs] at hnodup
  simp only [List.nodup_append] at hnodup
  exact ⟨hnodup.1.2.1.1.1.1, hnodup.1.2.1.1.1.2.1, hnodup.1.2.1.1.2.1⟩

/-- An engine that records the same on a device with the same objects. -/
theorem Owns.congr {e' : Engine} (h : e.Owns others) (refs : e'.refs = e.refs)
    (live : e'.device.live = e.device.live) (lastId : e'.device.lastId = e.device.lastId) :
    e'.Owns others := by
  have hd : e'.device.Owns (others + ↑e.refs) := Device.Owns.congr h live lastId
  rwa [Owns, refs]

/-! ## The effects

What the effect of one index owns can be exchanged without regard to the rest. -/

theorem coe_effectRefs (effects : List (Option Effect)) (index : Nat) :
    ∃ rest : Multiset ObjectRef,
      (↑(effects.flatMap effectRefs) : Multiset ObjectRef)
        = ↑(effectRefs effects[index]?.join) + rest ∧
      (∀ effect, index < effects.length →
        (↑((effects.set index effect).flatMap effectRefs) : Multiset ObjectRef)
          = ↑(effectRefs effect) + rest) ∧
      ∀ f : Effect → Effect,
        (↑((effects.modify index (Option.map f)).flatMap effectRefs) : Multiset ObjectRef)
          = ↑(effectRefs (effects[index]?.join.map f)) + rest := by
  induction effects generalizing index with
  | nil =>
    refine ⟨0, rfl, fun _ h ↦ absurd h (Nat.not_lt_zero index), fun f ↦ ?_⟩
    rw [List.modify_nil]
    rfl
  | cons effect effects ih =>
    cases index with
    | zero =>
      refine ⟨↑(effects.flatMap effectRefs), ?_, fun _ _ ↦ ?_, fun f ↦ ?_⟩
      all_goals
        rw [Multiset.coe_add]
        rfl
    | succ index =>
      obtain ⟨rest, hold, hset, hmodify⟩ := ih index
      refine ⟨↑(effectRefs effect) + rest, ?_, fun new hlt ↦ ?_, fun f ↦ ?_⟩
      · rw [List.flatMap_cons, ← Multiset.coe_add, hold, List.getElem?_cons_succ, add_left_comm]
      · rw [List.set_cons_succ, List.flatMap_cons, ← Multiset.coe_add,
          hset new (Nat.lt_of_succ_lt_succ hlt), add_left_comm]
      · rw [List.modify_succ_cons, List.flatMap_cons, ← Multiset.coe_add, hmodify f,
          List.getElem?_cons_succ, add_left_comm]

/-- Exchanging an effect that has no objects adds those of the new one. -/
theorem coe_effectRefs_set {old : Effect} (hold : e.effect? index = some old)
    (hobjects : old.objects = none) (new : Option Effect) :
    (↑((e.effects.set index new).flatMap effectRefs) : Multiset ObjectRef)
      = ↑(effectRefs new) + ↑(e.effects.flatMap effectRefs) := by
  obtain ⟨rest, heffects, hset, -⟩ := coe_effectRefs e.effects index
  have hnone : effectRefs e.effects[index]?.join = [] := by
    rw [← effect?, hold, effectRefs]
    simp [Effect.refs, hobjects]
  rw [hnone, Multiset.coe_nil, zero_add] at heffects
  rw [hset new (effect?_lt hold), heffects]

theorem heldRefs_modify (e : Engine) (index : Nat) {f : Effect → Effect}
    (hf : ∀ effect, (f effect).refs = effect.refs) :
    ({ e with effects := e.effects.modify index (Option.map f) } : Engine).heldRefs
      = e.heldRefs := by
  obtain ⟨rest, hold, -, hmodify⟩ := coe_effectRefs e.effects index
  have hsame : effectRefs (e.effects[index]?.join.map f) = effectRefs e.effects[index]?.join := by
    rcases e.effects[index]?.join with _ | effect
    · rfl
    · simp [effectRefs, hf]
  rw [heldRefs, hmodify f, hsame, ← hold, heldRefs]

/-! ## Activation -/

theorem Owns.build (effect : Effect) {old : Effect} (hnames : (e.textures.map (·.decl.name)).Nodup)
    (hbare : ∀ t ∈ e.techniques, t.effect = index → t.state = none)
    (hold : e.effect? index = some old) (hobjects : old.objects = none) (h : e.Owns others) :
    (e.build index effect).2.Owns others := by
  have hown := owns_iff.mp h
  -- to the device, what the engine records besides the texture table is like any other object
  have htable : e.device.Owns (↑(e.textures.flatMap TableTexture.refs)
      + (others + e.heldRefs + ↑e.states.refs)) := by
    rwa [Assets.recordedRefs, add_left_comm] at hown
  have hmaterialized {textures : List TableTexture} {d : Device}
      (htextures : materialize index e.textures e.device = (.ok textures, d)) :
      Balances ({ e.toAssets with device := d, textures } : Assets) (others + e.heldRefs) := by
    have hd : d.Owns _ := (accounts_materialize index e.textures).ok htable htextures
    refine ⟨?_, ?_⟩
    · rw [(materialize_eq_ok htextures).1.map_name]
      exact hnames
    · rwa [Assets.recordedRefs, add_left_comm]
  -- activation replaces the techniques, and everything else that is held stays
  have hheld : others + e.heldRefs = ↑(e.techniques.flatMap Technique.refs)
      + (others + ↑(e.backbuffer.toList.flatMap Backbuffer.refs) + ↑(e.effects.flatMap effectRefs)
        + ↑e.depth.refs) := by
    rw [heldRefs]
    abel
  have hrun := e.build_run index effect
  generalize (e.build index effect).1 = outcome, (e.build index effect).2 = e' at hrun ⊢
  cases hrun with
  | invalid hvalidate => exact h
  | refused htextures =>
    have hd : Device.Owns _ _ := (accounts_materialize index e.textures).error htable htextures
    refine owns_iff.mpr ?_
    rwa [Assets.recordedRefs, add_left_comm]
  | homeless htextures hbackbuffer => exact owns_iff.mpr (hmaterialized htextures).2
  | failed htextures hbackbuffer hbuild =>
    have ha := hmaterialized htextures
    rw [hheld] at ha
    have ha' := (accounts_buildEffect _ index effect e.techniques hbare).error ha hbuild
    rw [← hheld] at ha'
    exact owns_iff.mpr ha'.2
  | built hvalidate htextures hbackbuffer hbuild =>
    rename_i textures d b objects techniques a
    have ha := hmaterialized htextures
    rw [hheld] at ha
    have ha' := (accounts_buildEffect _ index effect e.techniques hbare).ok ha hbuild
    have heffects := coe_effectRefs_set hold hobjects (some { effect with objects := some objects })
    have hnew : effectRefs (some { effect with objects := some objects }) = objects.refs := by
      simp [effectRefs, Effect.refs]
    have hheld' : others + (({ e with toAssets := a, techniques } : Engine).setEffect index
        { effect with objects := some objects }).heldRefs
          = ↑objects.refs + ↑(techniques.flatMap Technique.refs)
            + (others + ↑(e.backbuffer.toList.flatMap Backbuffer.refs)
              + ↑(e.effects.flatMap effectRefs) + ↑e.depth.refs) := by
      rw [heldRefs, setEffect, heffects, hnew]
      abel
    refine owns_iff.mpr ?_
    rw [hheld']
    exact ha'.2

theorem Owns.modifyEffect {f : Effect → Effect} (hf : ∀ effect, (f effect).refs = effect.refs)
    (h : e.Owns others) :
    ({ e with effects := e.effects.modify index (Option.map f) } : Engine).Owns others := by
  refine owns_iff.mpr ?_
  rw [heldRefs_modify e index hf]
  exact owns_iff.mp h

theorem Owns.activate (hnames : (e.textures.map (·.decl.name)).Nodup)
    (hbare : ∀ t ∈ e.techniques, t.effect = index → t.state = none)
    (hobjects : ∀ effect, e.effect? index = some effect → effect.objects = none)
    (h : e.Owns others) : (e.activate index).2.Owns others := by
  rw [Engine.activate]
  rcases heffect : e.effect? index with _ | effect
  · exact h
  · have hbuild := Owns.build effect hnames hbare heffect (hobjects effect heffect) h
    dsimp only
    rcases hrun : e.build index effect with ⟨_ | _, e'⟩ <;> rw [hrun] at hbuild
    all_goals exact hbuild.modifyEffect fun _ ↦ rfl

/-- What the techniques of an effect own is taken from the rest. -/
theorem coe_refs_techniques (techniques : List Technique) (index : Nat) :
    (↑(techniques.flatMap Technique.refs) : Multiset ObjectRef)
      = ↑((techniques.filter fun t ↦ t.effect = index).flatMap Technique.refs)
        + ↑((techniques.map fun t ↦
          if t.effect = index then { t with state := none } else t).flatMap Technique.refs) := by
  induction techniques with
  | nil => rfl
  | cons t techniques ih =>
    by_cases hindex : t.effect = index
    · have hnone : ({ t with state := none } : Technique).refs = [] := rfl
      rw [List.map_cons, if_pos hindex, List.filter_cons_of_pos (by simpa using hindex),
        List.flatMap_cons, List.flatMap_cons, List.flatMap_cons, hnone, List.nil_append,
        ← Multiset.coe_add, ← Multiset.coe_add, ih, add_assoc]
    · rw [List.map_cons, if_neg hindex, List.filter_cons_of_neg (by simpa using hindex),
        List.flatMap_cons, List.flatMap_cons, ← Multiset.coe_add, ← Multiset.coe_add, ih,
        add_left_comm]

theorem Owns.deactivate (index : Nat) (h : e.Owns others) : (e.deactivate index).Owns others := by
  obtain ⟨rest, heffects, -, hmodify⟩ := coe_effectRefs e.effects index
  have htechniques := coe_refs_techniques e.techniques index
  have hnone : effectRefs (e.effects[index]?.join.map fun effect ↦ { effect with objects := none })
      = [] := by
    rcases e.effects[index]?.join with _ | effect <;> rfl
  have hnew := hmodify fun effect ↦ { effect with objects := none }
  rw [hnone] at hnew
  have hown := owns_iff.mp h
  -- what is released, then everything else
  have hheld : others + e.heldRefs + e.toAssets.recordedRefs
      = ↑((e.techniques.filter fun t ↦ t.effect = index).flatMap Technique.refs
          ++ effectRefs (e.effect? index))
        + (others + (e.deactivate index).heldRefs + e.toAssets.recordedRefs) := by
    rw [heldRefs, heldRefs, Engine.deactivate, hnew, heffects, htechniques, ← Multiset.coe_add,
      Multiset.coe_nil, effect?]
    abel
  rw [hheld] at hown
  exact owns_iff.mpr hown.release

/-! ## Loading and unloading -/

theorem Owns.register (m : EffectModule) (h : e.Owns others) : (e.register m).Owns others := by
  refine Owns.congr h ?_ rfl rfl
  have htechniques : (m.techniques.map (Technique.ofDecl e.effects.length)).flatMap Technique.refs
      = [] := by
    rw [List.flatMap_map, List.flatMap_eq_nil_iff]
    exact fun t _ ↦ rfl
  have htextures := refs_registerTextures e.effects.length m.textures e.textures
  unfold Engine.refs Engine.loadedRefs Engine.register
  dsimp only
  rw [List.flatMap_append, htechniques, List.append_nil, List.flatMap_append, htextures,
    List.flatMap_singleton]
  simp [Effect.refs]

theorem Owns.load (m : EffectModule) (hnames : (e.textures.map (·.decl.name)).Nodup)
    (hindex : ∀ t ∈ e.techniques, t.effect < e.effects.length) (h : e.Owns others) :
    (e.load m).2.Owns others := by
  rcases e.load_cases m with ⟨-, hrun⟩ | ⟨-, hrun⟩ <;> rw [hrun]
  · exact h
  · refine Owns.activate (nodup_registerTextures hnames)
      (fun t ht ↦ state_of_mem_register hindex _ ht) (fun effect heffect ↦ ?_)
      (h.register m.reserveSlots)
    obtain rfl := Option.some.inj (heffect.symm.trans (effect?_register e _))
    rfl

theorem Owns.reload (index : Nat) (hnames : (e.textures.map (·.decl.name)).Nodup)
    (h : e.Owns others) : (e.reload index).2.Owns others := by
  rcases e.reload_cases index with ⟨-, hrun⟩ | ⟨effect, heffect, hrun⟩ <;> rw [hrun]
  · exact h
  · have hdeactivated := h.deactivate index
    have htextures := refs_registerTextures index effect.module.textures e.textures
    refine Owns.activate (nodup_registerTextures hnames)
      (fun t ht ↦ state_of_mem_deactivate ht) (fun effect' heffect' ↦ ?_) ?_
    · have hnew := effect?_deactivate e index index
      rw [if_pos rfl, heffect] at hnew
      obtain rfl := Option.some.inj (heffect'.symm.trans hnew)
      rfl
    · refine hdeactivated.congr ?_ rfl rfl
      unfold Engine.refs Engine.loadedRefs
      rw [show (e.deactivate index).textures = e.textures from rfl, htextures]

theorem refs_filter_techniques {techniques : List Technique} {index : Nat}
    (hbare : ∀ t ∈ techniques, t.effect = index → t.state = none) :
    (techniques.filter fun t ↦ t.effect ≠ index).flatMap Technique.refs
      = techniques.flatMap Technique.refs := by
  induction techniques with
  | nil => rfl
  | cons t techniques ih =>
    have hrest := ih fun u hu ↦ hbare u (List.mem_cons_of_mem t hu)
    by_cases hindex : t.effect = index
    · have hrefs : t.refs = [] := by
        rw [Technique.refs, hbare t List.mem_cons_self hindex]
        rfl
      rw [List.filter_cons_of_neg (by simpa using hindex), List.flatMap_cons, hrefs,
        List.nil_append, hrest]
    · rw [List.filter_cons_of_pos (by simpa using hindex), List.flatMap_cons, List.flatMap_cons,
        hrest]

theorem Owns.withdraw {effect : Effect}
    (hbare : ∀ t ∈ e.techniques, t.effect = index → t.state = none)
    (heffect : e.effect? index = some effect) (hobjects : effect.objects = none)
    (h : e.Owns others) :
    (e.withdraw index).Owns others := by
  have hown := owns_iff.mp h
  have hheld : others + e.heldRefs + e.toAssets.recordedRefs
      = ↑(withdrawTextures index e.textures).2
        + (others
          + (↑(e.backbuffer.toList.flatMap Backbuffer.refs)
            + ↑((e.techniques.filter fun t ↦ t.effect ≠ index).flatMap Technique.refs)
            + ↑((e.effects.set index none).flatMap effectRefs) + ↑e.depth.refs)
          + (↑((withdrawTextures index e.textures).1.flatMap TableTexture.refs)
            + ↑e.states.refs)) := by
    rw [heldRefs, Assets.recordedRefs, coe_refs_withdrawTextures index e.textures,
      refs_filter_techniques hbare, coe_effectRefs_set heffect hobjects none,
      show effectRefs none = [] from rfl, Multiset.coe_nil]
    abel
  rw [hheld] at hown
  exact owns_iff.mpr hown.release

theorem Owns.unload (index : Nat) (h : e.Owns others) : (e.unload index).2.Owns others := by
  rcases e.unload_cases index with ⟨-, hrun⟩ | ⟨effect, heffect, hrun⟩ <;> rw [hrun]
  · exact h
  · exact (h.deactivate index).withdraw (fun t ht ↦ state_of_mem_deactivate ht)
      (effect?_deactivate_self heffect) rfl

theorem Owns.unloadAll (h : e.Owns others) : e.unloadAll.Owns others := by
  have hnothing : e.unloadAll.loadedRefs = [] := rfl
  have hgone : others + ↑e.refs = ↑e.loadedRefs + (others + ↑e.unloadAll.refs) := by
    rw [Engine.refs, Engine.refs, hnothing, List.append_nil, ← Multiset.coe_add,
      ← Multiset.coe_add, ← Multiset.coe_add]
    change _ = _ + (others + (↑(e.backbuffer.toList.flatMap Backbuffer.refs) + ↑e.depth.refs))
    abel
  have hown : e.device.Owns (others + ↑e.refs) := h
  rw [hgone] at hown
  exact hown.release

/-! ## The swapchain -/

end Engine

namespace DepthAlias

theorem owns_createView (texture : Handle .texture) {d : Device} {others : Multiset ObjectRef}
    (h : d.Owns others) :
    (createView texture d).2.Owns (↑((createView texture d).1.toList.map Handle.ref) + others) := by
  rcases createView_cases texture d with
    hnone | ⟨content, ⟨v, d', hrun, hview⟩ | ⟨cause, d', hrun, hnone⟩⟩
  · rw [hnone]
    simpa using h
  · rw [hview]
    exact h.create_ok hrun
  · rw [hnone]
    simpa using h.create_error hrun

theorem owns_point {d : Device} {a : DepthAlias} {others : Multiset ObjectRef}
    (texture : Option (Handle .texture)) (h : d.Owns (others + ↑a.refs)) :
    (a.point texture d).2.Owns (others + ↑(a.point texture d).1.refs) := by
  rw [point]
  split
  · exact h
  · -- the old view is released first, whether or not a new one can be created
    rw [add_comm] at h
    have hreleased := h.release
    rcases texture with _ | t
    · simpa [refs] using hreleased
    · have hview := owns_createView t hreleased
      rw [add_comm]
      exact hview

end DepthAlias

namespace Engine

variable {e : Engine} {others : Multiset ObjectRef}

theorem coe_refs_depth (e : Engine) (others : Multiset ObjectRef) :
    others + ↑e.refs = others + ↑(e.backbuffer.toList.flatMap Backbuffer.refs) + ↑e.loadedRefs
      + ↑e.depth.refs := by
  rw [Engine.refs, ← Multiset.coe_add, ← Multiset.coe_add]
  abel

theorem Owns.setDepth {texture : Option (Handle .texture)} {depth : DepthAlias} {d : Device}
    (hpoint : e.depth.point texture e.device = (depth, d)) (h : e.Owns others) :
    ({ e with depth, device := d } : Engine).Owns others := by
  have hown : e.device.Owns (others + ↑e.refs) := h
  rw [coe_refs_depth] at hown
  have hpointed := DepthAlias.owns_point texture hown
  rw [hpoint] at hpointed
  rw [Owns, coe_refs_depth]
  exact hpointed

theorem Owns.reset (h : e.Owns others) : e.reset.Owns others := by
  have hpointed : (e.unloadAll.pointDepth none).Owns others := Owns.setDepth rfl h.unloadAll
  have hown : (e.unloadAll.pointDepth none).device.Owns
      (others + ↑(e.unloadAll.pointDepth none).refs) := hpointed
  have hrefs : (e.unloadAll.pointDepth none).refs
      = e.backbuffer.toList.flatMap Backbuffer.refs ++ e.reset.refs := by
    rw [Engine.refs, List.append_assoc]
    rfl
  rw [hrefs, ← Multiset.coe_add, add_left_comm] at hown
  exact hown.release

/-- Whether the host names, as the buffer of a swapchain that must be resolved, another texture than
the one that the device creates next. -/
def Expects (e : Engine) (s : Swapchain) : Prop :=
  s.resolves → s.buffer.id ≠ e.device.lastId + 1

theorem strays_eq_nil {s : Swapchain} {b : Backbuffer} {d : Device} (hexpects : e.Expects s)
    (run : Backbuffer.create s e.vacated.device = (.ok b, d)) : b.strays s = [] := by
  have hlast : e.vacated.device.lastId = e.device.lastId :=
    vacated_induction (P := fun e' ↦ e'.device.lastId = e.device.lastId) rfl (lastId_reset e)
  obtain ⟨hbuffer, hresolved, -⟩ := Backbuffer.create_eq_ok run
  refine if_neg fun ⟨hres, heq⟩ ↦ hexpects hres ?_
  rw [hbuffer, hresolved hres] at heq
  rw [← heq, hlast]

/-- Preparing for a swapchain leaves nothing behind, unless it succeeds with a buffer that was not
to be expected. -/
theorem Owns.init (s : Swapchain) (h : e.Owns others) :
    ∃ strays : Multiset ObjectRef, (e.init s).2.Owns (others + strays) ∧
      (e.Expects s ∨ (∃ cause, (e.init s).1 = .error cause) → strays = 0) := by
  have hown : e.vacated.device.Owns (0 + (others + ↑e.vacated.refs)) := by
    rw [zero_add]
    exact vacated_induction (P := fun e ↦ e.Owns others) h h.reset
  rcases e.init_cases s with ⟨cause, d, hrun, hinit⟩ | ⟨b, d, hrun, hinit⟩ <;> rw [hinit]
  · refine ⟨0, ?_, fun _ ↦ rfl⟩
    have hleft : d.Owns _ := (Backbuffer.accounts_create s).error hown hrun
    rw [zero_add] at hleft
    rw [add_zero]
    exact hleft
  · refine ⟨↑(b.strays s), ?_, fun hnone ↦ ?_⟩
    · have hmade : d.Owns _ := (Backbuffer.accounts_create s).ok hown hrun
      have hrefs : (↑({ e.vacated with device := d, backbuffer := some b } : Engine).refs :
          Multiset ObjectRef) = ↑b.refs + ↑e.vacated.refs := by
        rw [Engine.refs, Engine.refs, backbuffer_vacated, Multiset.coe_add, List.append_assoc,
          List.append_assoc]
        simp [Engine.loadedRefs]
      have hsum : others + ↑(b.strays s)
          + ↑({ e.vacated with device := d, backbuffer := some b } : Engine).refs
            = ↑(b.strays s) + ↑b.refs + (others + ↑e.vacated.refs) := by
        rw [hrefs]
        abel
      rw [Owns, hsum]
      exact hmade
    · rcases hnone with hexpects | ⟨cause, hcause⟩
      · rw [strays_eq_nil hexpects hrun]
        rfl
      · cases hcause

/-! ## Frames -/

theorem refs_of_measures {techniques techniques' : List Technique}
    (h : List.Forall₂ Technique.Measures techniques techniques') :
    techniques'.flatMap Technique.refs = techniques.flatMap Technique.refs := by
  induction h with
  | nil => rfl
  | cons hmeasures _ ih =>
    rw [List.flatMap_cons, List.flatMap_cons, ih]
    rcases hmeasures with _ | ⟨hstate, hqueries⟩
    · rfl
    · rw [Technique.refs, Technique.refs, hstate]
      simp [TechniqueState.refs, Timer.refs, hqueries]

theorem Owns.present (tracker : DepthTracker) (h : e.Owns others) :
    (e.present tracker).Owns others := by
  rcases hb : e.backbuffer with _ | b
  · rwa [Engine.present, hb]
  · obtain ⟨techniques, cs, -, hmeasures, hpresent⟩ := present_eq hb tracker
    rw [hpresent]
    have hpointed : Engine.Owns { e with
        depth := (e.pointed b tracker).1, device := (e.pointed b tracker).2 } others :=
      h.setDepth rfl
    refine Owns.congr hpointed ?_ (Device.live_issueAll _ _) (Device.lastId_issueAll _ _)
    unfold Engine.refs Engine.loadedRefs
    dsimp only
    rw [refs_of_measures hmeasures]

/-! ## Settings and data -/

theorem Owns.upload (name : String) (pixels : Bytes) (h : e.Owns others) :
    (e.upload name pixels).2.Owns others := by
  rcases e.upload_cases name pixels with ⟨cause, hrun⟩ | ⟨t, o, data, rowPitch, -, -, hrun⟩ <;>
    rw [hrun]
  · exact h
  · exact Device.Owns.issueAll h _

theorem Owns.writeUniforms (index offset : Nat) (data : Bytes) (h : e.Owns others) :
    (e.writeUniforms index offset data).2.Owns others := by
  rcases e.writeUniforms_cases index offset data with ⟨cause, hrun, -⟩ | ⟨effect, -, -, hrun⟩ <;>
    rw [hrun]
  · exact h
  · exact h.modifyEffect fun _ ↦ rfl

theorem Owns.setEnabled (name : String) (enabled : Bool) (h : e.Owns others) :
    (e.setEnabled name enabled).2.Owns others := by
  refine Owns.congr h ?_ rfl rfl
  have htechniques : (e.techniques.map fun t ↦
      if t.name = name then { t with enabled } else t).flatMap Technique.refs
      = e.techniques.flatMap Technique.refs := by
    rw [List.flatMap_map]
    refine List.flatMap_congr fun t _ ↦ ?_
    split <;> rfl
  unfold Engine.refs Engine.loadedRefs Engine.setEnabled
  dsimp only
  rw [htechniques]

end Engine

end EffectChain
