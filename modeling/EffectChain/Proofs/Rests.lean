import EffectChain.Proofs.Moves

/-!
# Events that leave the tables alone

Of the twenty kinds of events only six load or unload anything (`Event.loads`). During all others
the tables rest: the texture table, the caches and the backbuffer stay the very same, an effect may
get other uniform data, and a technique may be switched, measured or averaged differently
(`Session.rests_step`). Statements about the tables are therefore proved for six kinds of events.

`Engine.Continues` is too coarse for this. It lets a technique give up its state and leaves open
whether an effect is active, since it is also what deactivating and failing do.
-/

namespace EffectChain

/-- The technique apart from its switch and its measurements. -/
def Technique.Rests (t t' : Technique) : Prop :=
  ∃ enabled duration, ∃ f : Timer → Timer, t' = { t with
    enabled, duration, state := t.state.map fun s ↦ { s with timer := f s.timer } }

namespace Technique.Rests

variable {t t' : Technique}

protected theorem refl (t : Technique) : t.Rests t :=
  ⟨t.enabled, t.duration, id, by rcases t with ⟨_, _, _, _, _, _ | _⟩ <;> rfl⟩

theorem of_measures (h : t.Measures t') : t.Rests t' := by
  rcases h with _ | ⟨hstate, -⟩
  · exact Rests.refl t
  · exact ⟨_, _, fun _ ↦ _, by rw [hstate]; rfl⟩

theorem name (h : t.Rests t') : t'.name = t.name := by
  obtain ⟨_, _, _, rfl⟩ := h
  rfl

theorem effect (h : t.Rests t') : t'.effect = t.effect := by
  obtain ⟨_, _, _, rfl⟩ := h
  rfl

theorem passes (h : t.Rests t') : t'.passes = t.passes := by
  obtain ⟨_, _, _, rfl⟩ := h
  rfl

theorem isActive (h : t.Rests t') : t'.isActive = t.isActive := by
  obtain ⟨_, _, _, rfl⟩ := h
  exact Option.isSome_map

theorem keeps (h : t.Rests t') : t.Keeps t' := by
  refine ⟨h.effect, h.passes, fun s' hs' ↦ ?_⟩
  obtain ⟨_, _, _, rfl⟩ := h
  obtain ⟨s, hs, rfl⟩ := Option.map_eq_some_iff.mp hs'
  exact ⟨s, _, hs, rfl⟩

end Technique.Rests

namespace Engine

/-- The engine with tables that were left alone. -/
structure Rests (e e' : Engine) : Prop where
  /-- The texture table is the same. -/
  textures : e'.textures = e.textures
  /-- The caches are the same. -/
  states : e'.states = e.states
  /-- The backbuffer is the same. -/
  backbuffer : e'.backbuffer = e.backbuffer
  /-- An effect may have other uniform data. -/
  effects : ∃ f : Nat → Bytes → Bytes, ∀ i,
    e'.effect? i = (e.effect? i).map fun effect ↦ { effect with uniforms := f i effect.uniforms }
  /-- A technique may have other switches and measurements. -/
  techniques : List.Forall₂ Technique.Rests e.techniques e'.techniques

namespace Rests

variable {e : Engine}

theorem of_techniques {e' : Engine} (textures : e'.textures = e.textures)
    (states : e'.states = e.states) (backbuffer : e'.backbuffer = e.backbuffer)
    (effects : e'.effects = e.effects)
    (techniques : List.Forall₂ Technique.Rests e.techniques e'.techniques) : e.Rests e' where
  textures := textures
  states := states
  backbuffer := backbuffer
  effects := ⟨fun _ uniforms ↦ uniforms, fun i ↦ by simp [effect?, effects]⟩
  techniques := techniques

theorem of_eq {e' : Engine} (textures : e'.textures = e.textures) (states : e'.states = e.states)
    (backbuffer : e'.backbuffer = e.backbuffer) (effects : e'.effects = e.effects)
    (techniques : e'.techniques = e.techniques) : e.Rests e' :=
  of_techniques textures states backbuffer effects
    (techniques ▸ List.forall₂_same.mpr fun t _ ↦ Technique.Rests.refl t)

theorem present (e : Engine) (tracker : DepthTracker) : e.Rests (e.present tracker) := by
  rcases hb : e.backbuffer with _ | b
  · rw [Engine.present, hb]
    exact of_eq rfl rfl rfl rfl rfl
  · obtain ⟨techniques, cs, -, hmeasures, hpresent⟩ := present_eq hb tracker
    rw [hpresent]
    exact of_techniques rfl rfl rfl rfl
      (hmeasures.imp fun _ _ ↦ Technique.Rests.of_measures)

theorem upload (e : Engine) (name : String) (pixels : Bytes) :
    e.Rests (e.upload name pixels).2 := by
  rcases e.upload_cases name pixels with ⟨cause, hrun⟩ | ⟨t, o, data, rowPitch, -, -, hrun⟩ <;>
    rw [hrun] <;> exact of_eq rfl rfl rfl rfl rfl

theorem writeUniforms (e : Engine) (index offset : Nat) (data : Bytes) :
    e.Rests (e.writeUniforms index offset data).2 := by
  rcases e.writeUniforms_cases index offset data with ⟨cause, hrun, -⟩ | ⟨effect, -, -, hrun⟩ <;>
    rw [hrun]
  · exact of_eq rfl rfl rfl rfl rfl
  · refine ⟨rfl, rfl, rfl, ⟨fun i uniforms ↦
      if index = i then uniforms.overlay offset data else uniforms, fun i ↦ ?_⟩,
      List.forall₂_same.mpr fun t _ ↦ Technique.Rests.refl t⟩
    rw [effect?_modify]
    by_cases hi : index = i <;> simp [hi]

theorem setEnabled (e : Engine) (name : String) (enabled : Bool) :
    e.Rests (e.setEnabled name enabled).2 := by
  refine of_techniques rfl rfl rfl rfl (List.forall₂_map_right_iff.mpr ?_)
  refine List.forall₂_same.mpr fun t _ ↦ ?_
  split
  · obtain ⟨_, duration, f, ht⟩ := Technique.Rests.refl t
    exact ⟨enabled, duration, f, congrArg (fun t : Technique ↦ { t with enabled }) ht⟩
  · exact Technique.Rests.refl t

end Rests

end Engine

/-- Whether the event loads or unloads effects, or would. -/
def Event.loads : Event → Bool
  | .init _ | .reset | .load _ | .reload _ | .unload _ | .unloadAll => true
  | _ => false

/-- The index of the effect that the event activates, or tries to. -/
def Event.activates (s : Session) : Event → Option Nat
  | .load _ => some s.engine.effects.length
  | .reload index => some index
  | _ => none

/-- **The tables rest** unless something is loaded or unloaded. -/
theorem Session.rests_step (s : Session) {event : Event} (h : event.loads = false) :
    s.engine.Rests (s.step event).engine := by
  cases event with
  | upload name pixels => exact Engine.Rests.upload _ name pixels
  | writeUniforms index offset data => exact Engine.Rests.writeUniforms _ index offset data
  | setEnabled name enabled => exact Engine.Rests.setEnabled _ name enabled
  | present tracker => exact Engine.Rests.present _ tracker
  | create kind content =>
    change s.engine.Rests (s.create kind content).engine
    rw [Session.engine_create]
    exact Engine.Rests.of_eq rfl rfl rfl rfl rfl
  | overrideDepth | configure | release | issue | write | failAfter | markInterrupted | advanceFrame
  | takeLog => exact Engine.Rests.of_eq rfl rfl rfl rfl rfl
  | init | reset | load | reload | unload | unloadAll => cases h

end EffectChain
