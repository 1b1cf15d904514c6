import EffectChain.Proofs.Operations
import EffectChain.Proofs.Session

/-!
# An engine without a swapchain records nothing

Loading takes a swapchain, and leaving the swapchain unloads everything. So as long as there is no
backbuffer, the tables and caches are empty and the alias of the scene depth has no view
(`Session.Reachable.refs_eq_nil`). That a failed preparation leaves nothing behind rests on this.
-/

namespace EffectChain

def DepthAlias.Tidy (a : DepthAlias) : Prop := a.texture = none → a.view = none

theorem DepthAlias.tidy_point {a : DepthAlias} (h : a.Tidy) (texture : Option (Handle .texture))
    (d : Device) : (a.point texture d).1.Tidy := by
  rw [point]
  split
  · exact h
  · rcases texture with _ | t
    · exact fun _ ↦ rfl
    · intro htexture
      cases htexture

namespace Engine

/-- Nothing is loaded, cached or aliased. -/
structure Bare (e : Engine) : Prop where
  effects : e.effects = []
  techniques : e.techniques = []
  textures : e.textures = []
  states : e.states = {}
  view : e.depth.view = none

/-- Nothing is loaded, cached or aliased without a backbuffer. -/
structure Tidy (e : Engine) : Prop where
  depth : e.depth.Tidy
  bare : e.backbuffer = none → e.Bare

variable {e e' : Engine}

namespace Bare

theorem effect? (h : e.Bare) (index : Nat) : e.effect? index = none := by
  rw [Engine.effect?, h.effects]
  rfl

theorem texture? (h : e.Bare) (name : String) : e.texture? name = none := by
  rw [Assets.texture?, h.textures]
  rfl

theorem refs_eq_nil (h : e.Bare) (hb : e.backbuffer = none) : e.refs = [] := by
  rw [refs, loadedRefs, hb, h.effects, h.techniques, h.textures, h.states, DepthAlias.refs, h.view]
  rfl

end Bare

/-! ## Activation leaves the backbuffer and the alias alone -/

theorem depth_build (e : Engine) (index : Nat) (effect : Effect) :
    (e.build index effect).2.depth = e.depth ∧
      (e.build index effect).2.backbuffer = e.backbuffer := by
  have hrun := e.build_run index effect
  generalize (e.build index effect).1 = outcome, (e.build index effect).2 = e' at hrun ⊢
  cases hrun <;> exact ⟨rfl, rfl⟩

theorem depth_activate (e : Engine) (index : Nat) :
    (e.activate index).2.depth = e.depth ∧ (e.activate index).2.backbuffer = e.backbuffer := by
  rw [activate]
  rcases e.effect? index with _ | effect
  · exact ⟨rfl, rfl⟩
  · have hbuild := e.depth_build index effect
    dsimp only
    rcases hrun : e.build index effect with ⟨_ | _, e'⟩ <;> rw [hrun] at hbuild <;> exact hbuild

namespace Tidy

theorem of_depth (h : e.Tidy) (hdepth : e'.depth = e.depth ∧ e'.backbuffer = e.backbuffer)
    (hbare : e.backbuffer = none → e.Bare → e'.Bare) : e'.Tidy where
  depth := by
    rw [hdepth.1]
    exact h.depth
  bare hb := by
    rw [hdepth.2] at hb
    exact hbare hb (h.bare hb)

theorem load (h : e.Tidy) (m : EffectModule) : (e.load m).2.Tidy := by
  rcases e.load_cases m with ⟨-, hrun⟩ | ⟨hb, hrun⟩ <;> rw [hrun]
  · exact h
  · -- loading is refused without a backbuffer
    refine h.of_depth ((e.register m.reserveSlots).depth_activate _) fun hnone ↦ ?_
    rw [hnone] at hb
    cases hb

theorem reload (h : e.Tidy) (index : Nat) : (e.reload index).2.Tidy := by
  rcases e.reload_cases index with ⟨-, hrun⟩ | ⟨effect, heffect, hrun⟩ <;> rw [hrun]
  · exact h
  · refine h.of_depth (depth_activate _ _) fun _ hbare ↦ ?_
    rw [hbare.effect?] at heffect
    cases heffect

theorem unload (h : e.Tidy) (index : Nat) : (e.unload index).2.Tidy := by
  rcases e.unload_cases index with ⟨-, hrun⟩ | ⟨effect, heffect, hrun⟩ <;> rw [hrun]
  · exact h
  · refine h.of_depth ⟨rfl, rfl⟩ fun _ hbare ↦ ?_
    rw [hbare.effect?] at heffect
    cases heffect

theorem unloadAll (h : e.Tidy) : e.unloadAll.Tidy :=
  h.of_depth ⟨rfl, rfl⟩ fun _ hbare ↦ ⟨rfl, rfl, rfl, rfl, hbare.view⟩

theorem reset (h : e.Tidy) : e.reset.Tidy := by
  have hdepth : e.reset.depth.Tidy := e.depth.tidy_point h.depth none _
  have hnone : e.reset.depth.texture = none := by
    change (e.depth.point none _).1.texture = none
    rw [DepthAlias.point]
    split
    · assumption
    · rfl
  exact ⟨hdepth, fun _ ↦ ⟨rfl, rfl, rfl, rfl, hdepth hnone⟩⟩

theorem vacated (h : e.Tidy) : e.vacated.Tidy :=
  vacated_induction (P := fun e ↦ e.Tidy) h h.reset

theorem init (h : e.Tidy) (s : Swapchain) : (e.init s).2.Tidy := by
  rcases e.init_cases s with ⟨cause, d, -, hinit⟩ | ⟨b, d, -, hinit⟩ <;> rw [hinit]
  · refine h.vacated.of_depth ⟨rfl, rfl⟩ fun _ hbare ↦ ?_
    exact ⟨hbare.effects, hbare.techniques, hbare.textures, hbare.states, hbare.view⟩
  · exact ⟨h.vacated.depth, nofun⟩

theorem upload (h : e.Tidy) (name : String) (pixels : Bytes) : (e.upload name pixels).2.Tidy := by
  rcases e.upload_cases name pixels with
    ⟨cause, hrun⟩ | ⟨t, o, data, rowPitch, htexture, -, hrun⟩ <;> rw [hrun]
  · exact h
  · refine h.of_depth ⟨rfl, rfl⟩ fun _ hbare ↦ ?_
    rw [hbare.texture?] at htexture
    cases htexture

theorem writeUniforms (h : e.Tidy) (index offset : Nat) (data : Bytes) :
    (e.writeUniforms index offset data).2.Tidy := by
  rcases e.writeUniforms_cases index offset data with
    ⟨cause, hrun, -⟩ | ⟨effect, heffect, -, hrun⟩ <;> rw [hrun]
  · exact h
  · refine h.of_depth ⟨rfl, rfl⟩ fun _ hbare ↦ ?_
    rw [hbare.effect?] at heffect
    cases heffect

theorem setEnabled (h : e.Tidy) (name : String) (enabled : Bool) :
    (e.setEnabled name enabled).2.Tidy := by
  refine h.of_depth ⟨rfl, rfl⟩ fun _ hbare ↦
    ⟨hbare.effects, ?_, hbare.textures, hbare.states, hbare.view⟩
  rw [Engine.setEnabled, hbare.techniques]
  rfl

theorem present (h : e.Tidy) (tracker : DepthTracker) : (e.present tracker).Tidy := by
  rw [Engine.present]
  rcases hb : e.backbuffer with _ | b
  · exact h
  · exact ⟨e.depth.tidy_point h.depth _ _, nofun⟩

theorem device (h : e.Tidy) (d : Device) : ({ e with device := d } : Engine).Tidy :=
  h.of_depth ⟨rfl, rfl⟩ fun _ hbare ↦
    ⟨hbare.effects, hbare.techniques, hbare.textures, hbare.states, hbare.view⟩

theorem settings (h : e.Tidy) (config : Config) (depthOverride : Option (Handle .texture)) :
    ({ e with config, depthOverride } : Engine).Tidy :=
  h.of_depth ⟨rfl, rfl⟩ fun _ hbare ↦
    ⟨hbare.effects, hbare.techniques, hbare.textures, hbare.states, hbare.view⟩

end Tidy

end Engine

namespace Session

theorem tidy_step {s : Session} (h : s.engine.Tidy) (event : Event) :
    (s.step event).engine.Tidy := by
  cases event with
  | init swapchain => exact h.init swapchain
  | reset => exact h.reset
  | load m => exact h.load m
  | reload index => exact h.reload index
  | unload index => exact h.unload index
  | unloadAll => exact h.unloadAll
  | upload name pixels => exact h.upload name pixels
  | writeUniforms index offset data => exact h.writeUniforms index offset data
  | setEnabled name enabled => exact h.setEnabled name enabled
  | overrideDepth texture => exact h.settings s.engine.config texture
  | configure config => exact h.settings config s.engine.depthOverride
  | present tracker => exact h.present tracker
  | create kind content =>
    change (s.create kind content).engine.Tidy
    rw [engine_create]
    exact h.device _
  | release refs => exact h.device _
  | issue c => exact h.device _
  | write texture level data => exact h.device _
  | failAfter kind after => exact h.device _
  | markInterrupted => exact h.device _
  | advanceFrame => exact h.device _
  | takeLog => exact h.device _

theorem Reachable.tidy {allowed : Session → Event → Prop} {s : Session}
    (hs : s.Reachable allowed) : s.engine.Tidy := by
  induction hs with
  | start timing config => exact ⟨fun _ ↦ rfl, fun _ ↦ ⟨rfl, rfl, rfl, rfl, rfl⟩⟩
  | step _ _ ih => exact tidy_step ih _

/-- **Without a backbuffer the engine records nothing.** -/
theorem Reachable.refs_eq_nil {allowed : Session → Event → Prop} {s : Session}
    (hs : s.Reachable allowed) (hb : s.engine.backbuffer = none) : s.engine.refs = [] :=
  (hs.tidy.bare hb).refs_eq_nil hb

end Session

end EffectChain
