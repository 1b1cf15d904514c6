import EffectChain.Proofs.Records.Liveness
import EffectChain.Proofs.Texels

/-!
# Effects are isolated from each other

All effects share one table of textures and one of techniques, and loading, reloading or unloading
one of them sweeps through both. What belongs to another effect is not touched on the way, whether
the operation succeeds or not (`Engine.Isolates`). The effect is the same to the last field, and so
are its techniques, with the records and the timers of their passes, in their order. The textures
that it declares stay in the table under their declarations. What device objects they have they
keep; all they can gain is a view to draw into them, which the other effect has asked for.
-/

namespace EffectChain

/-- What is done to the techniques of one effect does not show among the others. -/
theorem filter_eq_of_forall₂ {index : Nat} {techniques techniques' : List Technique}
    (h : List.Forall₂ (fun t t' ↦ t.effect = index ∧ t'.effect = index ∨ t' = t)
      techniques techniques') :
    techniques'.filter (fun t ↦ t.effect ≠ index) = techniques.filter fun t ↦ t.effect ≠ index := by
  induction h with
  | nil => rfl
  | cons ht _ ih =>
    rw [List.filter_cons, List.filter_cons, ih]
    rcases ht with ⟨hown, hown'⟩ | rfl
    · simp [hown, hown']
    · rfl

namespace Engine

/-- An operation on one effect leaves the others alone. -/
structure Isolates (index : Nat) (e e' : Engine) : Prop where
  /-- The other effects are what they were. -/
  effects : ∀ j, j ≠ index → e'.effect? j = e.effect? j
  /-- So are their techniques, in the same order. -/
  techniques : e'.techniques.filter (fun t ↦ t.effect ≠ index)
    = e.techniques.filter fun t ↦ t.effect ≠ index
  /-- The textures that they declare stay, with the device objects that they have. -/
  textures : ∀ j effect, j ≠ index → e.effect? j = some effect → ∀ decl ∈ effect.module.textures,
    ∃ t t', e.texture? decl.name = some t ∧ e'.texture? decl.name = some t' ∧
      j ∈ t.effects ∧ j ∈ t'.effects ∧ t'.decl = t.decl ∧
      ∀ o, t.owned = some o → ∃ o', t'.owned = some o' ∧ o.Grows o'

variable {e e' : Engine} {index : Nat}

theorem Tables.moves (h : e.Tables) (hmoves : e.Moves e') : e'.Tables := by
  induction hmoves with
  | refl => exact h
  | tail _ hlast ih => exact ih.move hlast

/-- The textures of other effects stay if entries that other effects declare do. -/
theorem Isolates.of_entries (htables : e.Tables) (htables' : e'.Tables)
    (effects : ∀ j, j ≠ index → e'.effect? j = e.effect? j)
    (techniques : e'.techniques.filter (fun t ↦ t.effect ≠ index)
      = e.techniques.filter fun t ↦ t.effect ≠ index)
    (entries : ∀ t ∈ e.textures, ∀ j ∈ t.effects, j ≠ index → ∃ t' ∈ e'.textures,
      j ∈ t'.effects ∧ t'.decl = t.decl ∧
        ∀ o, t.owned = some o → ∃ o', t'.owned = some o' ∧ o.Grows o') :
    Isolates index e e' where
  effects := effects
  techniques := techniques
  textures j effect hj heffect decl hdecl := by
    obtain ⟨t, ht, hname, hmem⟩ := htables.declared j effect heffect decl hdecl
    obtain ⟨t', ht', hmem', hdecl', howned⟩ := entries t ht j hmem hj
    refine ⟨t, t', ?_, ?_, hmem, hmem', hdecl', howned⟩
    · rw [← hname]
      exact Assets.texture?_of_mem htables.assets ht
    · rw [← hname, ← hdecl']
      exact Assets.texture?_of_mem htables'.assets ht'

/-- Where no entry is lost, those that other effects declare stay. -/
theorem Isolates.of_retains (htables : e.Tables) (htables' : e'.Tables)
    (effects : ∀ j, j ≠ index → e'.effect? j = e.effect? j)
    (techniques : e'.techniques.filter (fun t ↦ t.effect ≠ index)
      = e.techniques.filter fun t ↦ t.effect ≠ index)
    (retains : e.Retains e') : Isolates index e e' := by
  refine .of_entries htables htables' effects techniques fun t ht j hmem _ ↦ ?_
  obtain ⟨t', ht', hgrows⟩ := retains t ht
  exact ⟨t', ht', hgrows.effects hmem, hgrows.decl, hgrows.owned⟩

theorem filter_activate (hs : e.toAssets.Sound) (index : Nat) :
    (e.activate index).2.techniques.filter (fun t ↦ t.effect ≠ index)
      = e.techniques.filter fun t ↦ t.effect ≠ index := by
  rcases heffect : e.effect? index with _ | effect
  · rw [activate, heffect]
  · cases activated hs heffect with
    | failed cause htextures heffects htechniques => rw [htechniques]
    | built objects htextures hequipped heffects htechniques =>
      refine filter_eq_of_forall₂ (htechniques.imp fun t t' h ↦ ?_)
      rcases h with ⟨hown, state, rfl⟩ | ⟨-, rfl⟩
      · exact Or.inl ⟨hown, hown⟩
      · exact Or.inr rfl

theorem isolates_load (h : e.Tables) (m : EffectModule) :
    Isolates e.effects.length e (e.load m).2 := by
  refine .of_retains h (h.moves (e.moves_load m)) (fun j hj ↦ ?_) ?_ (retains_load h m)
  · rcases e.load_cases m with ⟨-, hrun⟩ | ⟨-, hrun⟩ <;> rw [hrun]
    refine (effect?_activate_of_ne hj.symm).trans ((effect?_append e _ j).trans ?_)
    rw [if_neg hj.symm]
  · rcases e.load_cases m with ⟨-, hrun⟩ | ⟨-, hrun⟩ <;> rw [hrun]
    refine (filter_activate (h.registered m.reserveSlots).assets _).trans ?_
    have hnew : (m.reserveSlots.techniques.map (Technique.ofDecl e.effects.length)).filter
        (fun t ↦ t.effect ≠ e.effects.length) = [] := by
      refine List.filter_eq_nil_iff.mpr fun t ht ↦ ?_
      obtain ⟨decl, -, rfl⟩ := List.mem_map.mp ht
      simp [Technique.ofDecl]
    change (e.techniques ++ _).filter _ = _
    rw [List.filter_append, hnew, List.append_nil]

theorem isolates_reload (h : e.Tables) (index : Nat) : Isolates index e (e.reload index).2 := by
  refine .of_retains h (h.moves (e.moves_reload index)) (fun j hj ↦ ?_) ?_ (retains_reload h index)
  · rcases h.reload_cases index with ⟨-, hrun⟩ | ⟨effect, -, hrun⟩ <;> rw [hrun]
    rw [effect?_activate_of_ne hj.symm, effect?_deactivate, if_neg hj.symm]
  · rcases h.reload_cases index with ⟨-, hrun⟩ | ⟨effect, -, hrun⟩ <;> rw [hrun]
    rw [filter_activate (h.deactivated index).assets, filter_deactivate]

theorem isolates_unload (h : e.Tables) (index : Nat) : Isolates index e (e.unload index).2 := by
  refine .of_entries h (h.moves (e.moves_unload index)) (fun j hj ↦ ?_) ?_ fun t ht j hmem hj ↦ ?_
  · rw [effect?_unload, if_neg hj.symm]
  · rcases e.unload_cases index with ⟨-, hrun⟩ | ⟨effect, -, hrun⟩
    · rw [hrun]
    · rw [hrun]
      change ((e.deactivate index).techniques.filter _).filter _ = _
      rw [filter_deactivate, List.filter_filter]
      simp
  · rcases e.unload_cases index with ⟨-, hrun⟩ | ⟨effect, -, hrun⟩ <;> rw [hrun]
    · exact ⟨t, ht, hmem, rfl, fun o howned ↦ ⟨o, howned, OwnedTexture.Grows.refl o⟩⟩
    · rcases withdrawTextures_cases index ht with hkept | ⟨hall, -⟩
      · refine ⟨t.without index, hkept, List.mem_filter.mpr ⟨hmem, by simpa using hj⟩, rfl,
          fun o howned ↦ ⟨o, howned, OwnedTexture.Grows.refl o⟩⟩
      · exact absurd (hall j hmem) hj

end Engine

/-- The index of the effect that the event loads, reloads or unloads, or tries to. -/
def Event.subject? (s : Session) : Event → Option Nat
  | .load _ => some s.engine.effects.length
  | .reload index | .unload index => some index
  | _ => none

/-- **Effects are isolated.** Loading, reloading or unloading an effect, with whatever success,
leaves every other effect and its techniques exactly as they were, and the textures that it declares
in the table, with the device objects that they had. -/
theorem Session.Reachable.isolates {allowed : Session → Event → Prop} {s : Session}
    (hs : s.Reachable allowed) {event : Event} {index : Nat}
    (hevent : event.subject? s = some index) :
    Engine.Isolates index s.engine (s.step event).engine := by
  cases event with
  | load m =>
    cases hevent
    exact Engine.isolates_load hs.tables m
  | reload index =>
    cases hevent
    exact Engine.isolates_reload hs.tables index
  | unload index =>
    cases hevent
    exact Engine.isolates_unload hs.tables index
  | _ => cases hevent

/-- An effect that cannot be activated again, and another one that draws into the texture that both
of them declare. -/
theorem Session.isolates_small :
    let s := ((small.step (.load (.single "show" [{ name := "canvas" }] [] ["canvas"]))).step
      (.load (.single "paint" [{ name := "canvas" }] [] ["canvas"]))).step (.failAfter .shader 0)
    (s.engine.reload 0).1.isOk = false ∧
      (s.step (.reload 0)).engine.effect? 1 = s.engine.effect? 1 ∧
      (∃ t ∈ (s.step (.reload 0)).engine.techniques, t.name = "paint" ∧ t.isActive = true ∧
        t ∈ s.engine.techniques) ∧
      ∃ t t' o o', s.engine.texture? "canvas" = some t ∧ t.owned = some o ∧
        (s.step (.reload 0)).engine.texture? "canvas" = some t' ∧ t'.owned = some o' ∧
        o.Grows o' := by
  intro s
  have hs : s.Reachable Event.Lawful :=
    .step (.step (.step (.step (.step (.start {} {}) trivial) trivial) trivial) trivial) trivial
  have hsubject : Event.subject? s (.reload 0) = some 0 := rfl
  have h := hs.isolates hsubject
  have hpaint : ∃ t ∈ s.engine.techniques.filter (fun t ↦ t.effect ≠ 0),
      t.name = "paint" ∧ t.isActive = true := by decide +kernel
  have hfails : (s.engine.reload 0).1.isOk = false := by decide +kernel
  have hloaded : (s.engine.effect? 1).isSome := by decide +kernel
  have hcanvas : ∀ effect ∈ s.engine.effect? 1, { name := "canvas" } ∈ effect.module.textures := by
    decide +kernel
  have howned : ∀ t ∈ s.engine.texture? "canvas", t.owned.isSome := by decide +kernel
  obtain ⟨t, ht, hname, hactive⟩ := hpaint
  obtain ⟨effect, heffect⟩ := Option.isSome_iff_exists.mp hloaded
  obtain ⟨u, u', hfind, hfind', -, -, -, hgrows⟩ :=
    h.textures 1 effect (by decide) heffect _ (hcanvas effect heffect)
  obtain ⟨o, ho⟩ := Option.isSome_iff_exists.mp (howned u hfind)
  obtain ⟨o', ho', hgrow⟩ := hgrows o ho
  have ht' := ht
  rw [← h.techniques] at ht'
  exact ⟨hfails, h.effects 1 (by decide),
    ⟨t, List.mem_of_mem_filter ht', hname, hactive, List.mem_of_mem_filter ht⟩,
    u, u', o, o', hfind, ho, hfind', ho', hgrow⟩

end EffectChain
