import EffectChain.Proofs.Backbuffer
import EffectChain.Proofs.Frame.Run
import EffectChain.Proofs.Operations
import EffectChain.Proofs.Session
import Mathlib.Logic.Relation

/-!
# The moves of an engine

A session has twenty kinds of event, but what an engine's tables go through is made of a few moves
(`Engine.Move`). Most events only let the engine continue: no entry of a table is replaced, and a
technique keeps its record or loses it (`Engine.Continues`). The others build an effect, enter or
withdraw one, empty the tables, or bring in a backbuffer.

An invariant of the tables is therefore proved for the moves, and holds of every session that can be
reached (`Session.Reachable.invariant`).
-/

namespace EffectChain

/-! ## Device work outside the engine -/

namespace Device

theorem evolves_writeTexels (d : Device) (t : Handle .texture) (level : Nat) (data : Bytes) :
    d.Evolves (d.writeTexels t level data).2 := by
  rw [writeTexels]
  repeat' split
  · exact Evolves.modify d t fun _ ↦ rfl
  · exact Evolves.refl d
  · exact Evolves.refl d

end Device

theorem DepthAlias.evolves_point (a : DepthAlias) (texture : Option (Handle .texture))
    (d : Device) : d.Evolves (a.point texture d).2 :=
  a.point_induction texture (Device.Evolves.refl d)
    (fun _ h ↦ h.trans (Device.Evolves.release _ _))
    fun _ _ h ↦ h.trans (Device.Evolves.create _)

theorem DepthAlias.get?_point {kind : ObjectKind} (hkind : kind ≠ .shaderView) (a : DepthAlias)
    (texture : Option (Handle .texture)) {d : Device} {h : Handle kind} {c : kind.Content}
    (hd : d.Numbered) (hget : d.get? h = some c) : (a.point texture d).2.get? h = some c := by
  refine (a.point_induction (P := fun d ↦ d.Numbered ∧ d.get? h = some c) texture ⟨hd, hget⟩
    (fun d hboth ↦ ⟨(Device.Evolves.release d _).numbered hboth.1, ?_⟩)
    fun content d hboth ↦ ⟨(Device.Evolves.create d).numbered hboth.1, ?_⟩).2
  · rw [Device.get?_release, if_neg, hboth.2]
    simp [refs, Handle.ref, Ne.symm hkind]
  · exact (d.get?_create content (hboth.1.id_le hboth.2)).trans hboth.2

/-! ## Continuing -/

/-- The technique with the record it had, or without one. -/
structure Technique.Keeps (t t' : Technique) : Prop where
  /-- It belongs to the same effect. -/
  effect : t'.effect = t.effect
  /-- It has the same declaration. -/
  passes : t'.passes = t.passes
  /-- Its timer is all that may have changed. -/
  state : ∀ s', t'.state = some s' → ∃ s timer, t.state = some s ∧ s' = { s with timer }

namespace Technique.Keeps

protected theorem refl (t : Technique) : t.Keeps t :=
  ⟨rfl, rfl, fun s hs ↦ ⟨s, s.timer, hs, rfl⟩⟩

protected theorem trans {t₁ t₂ t₃ : Technique} (h₁₂ : t₁.Keeps t₂) (h₂₃ : t₂.Keeps t₃) :
    t₁.Keeps t₃ := by
  refine ⟨h₂₃.effect.trans h₁₂.effect, h₂₃.passes.trans h₁₂.passes, fun s₃ hs₃ ↦ ?_⟩
  obtain ⟨s₂, timer, hs₂, rfl⟩ := h₂₃.state s₃ hs₃
  obtain ⟨s₁, _, hs₁, rfl⟩ := h₁₂.state s₂ hs₂
  exact ⟨s₁, timer, hs₁, rfl⟩

theorem of_measures {t t' : Technique} (h : t.Measures t') : t.Keeps t' := by
  rcases h with _ | ⟨hstate, hqueries⟩
  · exact Keeps.refl t
  · refine ⟨rfl, rfl, fun s' hs' ↦ ?_⟩
    cases hs'
    exact ⟨_, _, hstate, rfl⟩

end Technique.Keeps

namespace Engine

/-- The objects of the effect of an index. -/
def objects? (e : Engine) (index : Nat) : Option EffectObjects :=
  (e.effect? index).bind (·.objects)

/-- The engine with tables that keep what is recorded in them. -/
structure Continues (e e' : Engine) : Prop where
  /-- The assets grow. -/
  assets : e.toAssets.Extends e'.toAssets
  /-- The backbuffer stays. -/
  backbuffer : e'.backbuffer = e.backbuffer
  /-- The same effects are loaded. -/
  modules : ∀ i, (e'.effect? i).map (·.module) = (e.effect? i).map (·.module)
  /-- No technique is new. -/
  techniques : ∀ t' ∈ e'.techniques, ∃ t ∈ e.techniques, t.Keeps t'
  /-- A technique that keeps its record keeps the objects of its effect. -/
  objects : ∀ t' ∈ e'.techniques, t'.state.isSome → e'.objects? t'.effect = e.objects? t'.effect

namespace Continues

variable {e : Engine}

theorem of_assets {a : Assets} (h : e.toAssets.Extends a) :
    e.Continues { e with toAssets := a } where
  assets := h
  backbuffer := rfl
  modules _ := rfl
  techniques t ht := ⟨t, ht, Technique.Keeps.refl t⟩
  objects _ _ _ := rfl

theorem of_device {d : Device} (h : e.device.Evolves d) :
    e.Continues { e with device := d } :=
  of_assets (Assets.Extends.of_device h)

/-- Only an effect changes, and it keeps its module and its objects. -/
theorem modifyEffect (e : Engine) (index : Nat) {f : Effect → Effect}
    (hmodule : ∀ effect, (f effect).module = effect.module)
    (hobjects : ∀ effect, (f effect).objects = effect.objects) :
    e.Continues { e with effects := e.effects.modify index (Option.map f) } where
  assets := Assets.Extends.refl _
  backbuffer := rfl
  modules i := by
    rw [effect?_modify]
    split
    · rw [Option.map_map]
      exact congrArg (Option.map · _) (funext hmodule)
    · rfl
  techniques t ht := ⟨t, ht, Technique.Keeps.refl t⟩
  objects t _ _ := by
    rw [objects?, effect?_modify]
    split
    · rw [Option.bind_map]
      exact congrArg (Option.bind (e.effect? t.effect)) (funext hobjects)
    · rfl

theorem deactivate (e : Engine) (index : Nat) : e.Continues (e.deactivate index) where
  assets := Assets.Extends.of_device (Device.Evolves.release _ _)
  backbuffer := rfl
  modules i := by
    rw [effect?_deactivate]
    split
    · rw [Option.map_map]
      rfl
    · rfl
  techniques t' ht' := by
    obtain ⟨t, ht, rfl⟩ := List.mem_map.mp ht'
    refine ⟨t, ht, ?_⟩
    split
    · exact ⟨rfl, rfl, nofun⟩
    · exact Technique.Keeps.refl t
  objects t' ht' hstate := by
    obtain ⟨t, -, rfl⟩ := List.mem_map.mp ht'
    split at hstate
    · cases hstate
    · rename_i hindex
      rw [if_neg hindex, objects?, objects?, effect?_deactivate, if_neg (Ne.symm hindex)]

theorem present (e : Engine) (tracker : DepthTracker) : e.Continues (e.present tracker) := by
  rcases hb : e.backbuffer with _ | b
  · rw [Engine.present, hb]
    exact of_device (Device.Evolves.refl _)
  · obtain ⟨techniques, cs, -, hmeasures, hpresent⟩ := present_eq hb tracker
    rw [hpresent]
    refine {
      assets := Assets.Extends.of_device
        ((e.depth.evolves_point _ e.device).trans (Device.Evolves.issueAll _ _))
      backbuffer := rfl
      modules := fun _ ↦ rfl
      techniques := fun t' ht' ↦ ?_
      objects := fun _ _ _ ↦ rfl }
    obtain ⟨t, ht, hmeasured⟩ := exists_of_forall₂_right hmeasures ht'
    exact ⟨t, ht, Technique.Keeps.of_measures hmeasured⟩

end Continues

/-! ## Moves -/

/-- What the tables of an engine go through at a time. -/
inductive Move (e : Engine) : Engine → Prop
  /-- What is recorded is kept, or given up by a technique. -/
  | continues {e' : Engine} (h : e.Continues e') : Move e e'
  /-- An effect is built. -/
  | built {index : Nat} {effect : Effect} {textures : List TableTexture} {d : Device}
    {b : Backbuffer} {objects : EffectObjects} {techniques : List Technique} {a : Assets}
    (heffect : e.effect? index = some effect) (hvalidate : effect.module.validate = .ok ())
    (htextures : materialize index e.textures e.device = (.ok textures, d))
    (hbackbuffer : e.backbuffer = some b)
    (hbuild : buildEffect ⟨b, e.depth.view⟩ index effect e.techniques
      { e.toAssets with device := d, textures } = (.ok (objects, techniques), a)) :
    Move e ({ e with toAssets := a, techniques }.setEffect index
      { effect with objects := some objects })
  /-- An effect is entered under the next index. -/
  | registered (m : EffectModule) : Move e (e.register m)
  /-- The textures of an effect are entered again. -/
  | declared {index : Nat} {effect : Effect} (heffect : e.effect? index = some effect) :
    Move e { e with textures := registerTextures index effect.module.textures e.textures }
  /-- An effect is taken out of the tables. -/
  | withdrawn (index : Nat) (hindex : index < e.effects.length) :
    Move e { e with
      device := e.device.release (withdrawTextures index e.textures).2
      techniques := e.techniques.filter fun t ↦ t.effect ≠ index
      textures := (withdrawTextures index e.textures).1
      effects := e.effects.set index none }
  /-- Nothing is loaded any more. -/
  | emptied {e' : Engine} (device : e.device.Evolves e'.device) (textures : e'.textures = [])
    (states : e'.states = {}) (effects : e'.effects = []) (techniques : e'.techniques = [])
    (backbuffer : ∀ b, e'.backbuffer = some b → e.backbuffer = some b) : Move e e'
  /-- Objects for a swapchain are created where there were none. -/
  | prepared {s : Swapchain} {b : Backbuffer} {d : Device} (hnone : e.backbuffer = none)
    (hcreate : Backbuffer.create s e.device = (.ok b, d)) :
    Move e { e with device := d, backbuffer := some b }

abbrev Moves : Engine → Engine → Prop := Relation.ReflTransGen Move

theorem Continues.moves {e e' : Engine} (h : e.Continues e') : e.Moves e' :=
  Relation.ReflTransGen.single (Move.continues h)

section Operations

variable (e : Engine)

theorem moves_activate (index : Nat) : e.Moves (e.activate index).2 := by
  rw [activate]
  rcases heffect : e.effect? index with _ | effect
  · exact Relation.ReflTransGen.refl
  · have hbuild : e.Moves (e.build index effect).2 := by
      have hrun := e.build_run index effect
      generalize (e.build index effect).1 = outcome, (e.build index effect).2 = e' at hrun ⊢
      cases hrun with
      | invalid hvalidate => exact Relation.ReflTransGen.refl
      | refused htextures =>
        exact (Continues.of_device ((evolves_materialize index e.textures).run htextures)).moves
      | homeless htextures hbackbuffer =>
        exact (Continues.of_assets (extends_materialize htextures)).moves
      | failed htextures hbackbuffer hbuild =>
        have hbuilds := (builds_buildEffect _ index effect e.techniques).run hbuild
        exact (Continues.of_assets ((extends_materialize htextures).trans hbuilds.toExtends)).moves
      | built hvalidate htextures hbackbuffer hbuild =>
        exact Relation.ReflTransGen.single
          (Move.built heffect hvalidate htextures hbackbuffer hbuild)
    dsimp only
    rcases hrun : e.build index effect with ⟨_ | _, e'⟩ <;> rw [hrun] at hbuild
    all_goals
      refine hbuild.trans (Continues.moves ?_)
      dsimp only
      exact Continues.modifyEffect e' index (fun _ ↦ rfl) fun _ ↦ rfl

theorem moves_load (m : EffectModule) : e.Moves (e.load m).2 := by
  rcases e.load_cases m with ⟨-, hrun⟩ | ⟨-, hrun⟩
  · rw [hrun]
  · rw [hrun]
    exact (Relation.ReflTransGen.single (Move.registered m.reserveSlots)).trans
      (moves_activate _ _)

theorem moves_reload (index : Nat) : e.Moves (e.reload index).2 := by
  rcases e.reload_cases index with ⟨-, hrun⟩ | ⟨effect, heffect, hrun⟩
  · rw [hrun]
  · rw [hrun]
    have hdeclared := Move.declared (effect?_deactivate_self heffect)
    exact (Continues.deactivate e index).moves.trans
      ((Relation.ReflTransGen.single hdeclared).trans (moves_activate _ index))

theorem moves_unload (index : Nat) : e.Moves (e.unload index).2 := by
  rcases e.unload_cases index with ⟨-, hrun⟩ | ⟨effect, heffect, hrun⟩
  · rw [hrun]
  · rw [hrun]
    exact (Continues.deactivate e index).moves.trans (Relation.ReflTransGen.single
      (Move.withdrawn index (effect?_lt (effect?_deactivate_self heffect))))

theorem moves_unloadAll : e.Moves e.unloadAll :=
  Relation.ReflTransGen.single
    (Move.emptied (Device.Evolves.release _ _) rfl rfl rfl rfl fun _ hb ↦ hb)

theorem moves_reset : e.Moves e.reset := by
  refine Relation.ReflTransGen.single (Move.emptied ?_ rfl rfl rfl rfl nofun)
  exact ((Device.Evolves.release _ _).trans (e.depth.evolves_point none _)).trans
    (Device.Evolves.release _ _)

theorem moves_init (s : Swapchain) : e.Moves (e.init s).2 := by
  have hvacated : e.Moves e.vacated :=
    vacated_induction (P := fun e' ↦ e.Moves e') Relation.ReflTransGen.refl e.moves_reset
  rcases e.init_cases s with ⟨cause, d, hrun, hinit⟩ | ⟨b, d, hrun, hinit⟩ <;> rw [hinit]
  · exact hvacated.trans
      (Continues.of_device ((Backbuffer.upholds_create s).run hrun).evolves).moves
  · exact hvacated.trans (Relation.ReflTransGen.single (Move.prepared e.backbuffer_vacated hrun))

theorem continues_upload (name : String) (pixels : Bytes) :
    e.Continues (e.upload name pixels).2 := by
  rcases e.upload_cases name pixels with ⟨cause, hrun⟩ | ⟨t, o, data, rowPitch, -, -, hrun⟩ <;>
    rw [hrun]
  · exact Continues.of_device (Device.Evolves.refl _)
  · exact Continues.of_device (Device.Evolves.issueAll _ _)

theorem continues_writeUniforms (index offset : Nat) (data : Bytes) :
    e.Continues (e.writeUniforms index offset data).2 := by
  rcases e.writeUniforms_cases index offset data with ⟨cause, hrun, -⟩ | ⟨effect, -, -, hrun⟩ <;>
    rw [hrun]
  · exact Continues.of_device (Device.Evolves.refl _)
  · exact Continues.modifyEffect e index (fun _ ↦ rfl) fun _ ↦ rfl

theorem continues_setEnabled (name : String) (enabled : Bool) :
    e.Continues (e.setEnabled name enabled).2 where
  assets := Assets.Extends.refl _
  backbuffer := rfl
  modules _ := rfl
  techniques t' ht' := by
    obtain ⟨t, ht, rfl⟩ := List.mem_map.mp ht'
    refine ⟨t, ht, ?_⟩
    split
    · exact ⟨rfl, rfl, (Technique.Keeps.refl t).state⟩
    · exact Technique.Keeps.refl t
  objects _ _ _ := rfl

theorem continues_settings (config : Config) (depthOverride : Option (Handle .texture)) :
    e.Continues { e with config, depthOverride } where
  assets := Assets.Extends.refl _
  backbuffer := rfl
  modules _ := rfl
  techniques t ht := ⟨t, ht, Technique.Keeps.refl t⟩
  objects _ _ _ := rfl

end Operations

end Engine

/-! ## Sessions -/

namespace Session

theorem moves_step (s : Session) (event : Event) : s.engine.Moves (s.step event).engine := by
  have hdevice : ∀ f : Device → Device, s.device.Evolves (f s.device) →
      s.engine.Moves (s.mapDevice f).engine := fun f hf ↦ (Engine.Continues.of_device hf).moves
  have hsame : ∀ f : Device → Device, (f s.device).objects = s.device.objects →
      (f s.device).lastId = s.device.lastId → s.engine.Moves (s.mapDevice f).engine :=
    fun f objects lastId ↦ hdevice f (Device.Evolves.of_eq objects lastId)
  cases event with
  | init swapchain => exact s.engine.moves_init swapchain
  | reset => exact s.engine.moves_reset
  | load m => exact s.engine.moves_load m
  | reload index => exact s.engine.moves_reload index
  | unload index => exact s.engine.moves_unload index
  | unloadAll => exact s.engine.moves_unloadAll
  | upload name pixels => exact (s.engine.continues_upload name pixels).moves
  | writeUniforms index offset data =>
    exact (s.engine.continues_writeUniforms index offset data).moves
  | setEnabled name enabled => exact (s.engine.continues_setEnabled name enabled).moves
  | overrideDepth texture => exact (s.engine.continues_settings s.engine.config texture).moves
  | configure config => exact (s.engine.continues_settings config s.engine.depthOverride).moves
  | present tracker => exact (Engine.Continues.present s.engine tracker).moves
  | create kind content =>
    change s.engine.Moves (s.create kind content).engine
    rw [engine_create]
    exact (Engine.Continues.of_device (Device.Evolves.create s.engine.device)).moves
  | release refs => exact (Engine.Continues.of_device (Device.Evolves.release _ refs)).moves
  | issue c => exact hdevice _ (Device.Evolves.issue _ c)
  | write texture level data =>
    exact hdevice (fun d ↦ (d.writeTexels texture level data).2)
      (Device.evolves_writeTexels _ texture level data)
  -- the rest sets switches of the device
  | failAfter kind after => exact hsame _ rfl rfl
  | markInterrupted => exact hsame _ rfl rfl
  | advanceFrame => exact hsame _ rfl rfl
  | takeLog => exact hsame _ rfl rfl

/-- What holds of a new engine and is kept by every move holds in every session. -/
theorem Reachable.invariant {allowed : Session → Event → Prop} {P : Engine → Prop}
    (hstart : ∀ timing config, P (Session.start timing config).engine)
    (hmove : ∀ {e e' : Engine}, P e → e.Move e' → P e') {s : Session}
    (hs : s.Reachable allowed) : P s.engine := by
  induction hs with
  | start timing config => exact hstart timing config
  | @step s event _ _ ih =>
    have hmoves := s.moves_step event
    generalize (s.step event).engine = e' at hmoves ⊢
    induction hmoves with
    | refl => exact ih
    | tail _ hlast ih => exact hmove ih hlast

end Session

end EffectChain
