import EffectChain.Proofs.Ownership.Vacancy
import EffectChain.Proofs.Rests
import EffectChain.Proofs.Tables

/-!
# The alias of the scene depth

The alias is pointed by every frame, at what was selected, and once more at nothing when the
swapchain is left. No other event touches it (`Session.pointsDepth_step`), so what holds of the
alias at any time is read off what pointing it does.

A view of the alias is a view of the texture it stands for, and stays one, since pointing replaces
both or neither. The converse is not an invariant: an alias whose view could not be created keeps
its texture without one.
-/

namespace EffectChain

namespace DepthAlias

variable {a : DepthAlias} {d d' : Device} {t : Handle .texture} {v : Handle .shaderView}

theorem shows_of_createView (run : createView t d = (some v, d')) : d'.Shows v t := by
  rw [createView] at run
  rcases hdesc : d.textureDesc? t with _ | desc <;> rw [hdesc] at run
  · cases run
  · dsimp only at run
    split at run
    · rw [DeviceM.on] at run
      rcases hcreate : Device.createShaderView t desc.format.linear 1 d with ⟨cause | v', d₁⟩ <;>
        rw [hcreate] at run <;> cases run
      exact Device.shows_of_createShaderView hcreate
    · cases run

/-- What pointing at a texture can do: the alias stays, or its view is released first. -/
theorem point_cases (a : DepthAlias) (texture : Option (Handle .texture)) (d : Device) :
    (a.texture = texture ∧ a.point texture d = (a, d)) ∨
    (a.texture ≠ texture ∧ texture = none ∧ a.point texture d = ({}, d.release a.refs)) ∨
    ∃ t view d', a.texture ≠ texture ∧ texture = some t ∧
      createView t (d.release a.refs) = (view, d') ∧
      a.point texture d = (⟨some t, view⟩, d') := by
  rw [point]
  by_cases hsame : a.texture = texture
  · exact Or.inl ⟨hsame, if_pos hsame⟩
  · rw [if_neg hsame]
    rcases texture with _ | t
    · exact Or.inr (Or.inl ⟨hsame, rfl, rfl⟩)
    · exact Or.inr (Or.inr ⟨t, _, _, hsame, rfl, rfl, rfl⟩)

theorem texture_point (a : DepthAlias) (texture : Option (Handle .texture)) (d : Device) :
    (a.point texture d).1.texture = texture := by
  rcases a.point_cases texture d with
    ⟨hsame, hpoint⟩ | ⟨-, rfl, hpoint⟩ | ⟨t, view, d', -, rfl, -, hpoint⟩ <;> rw [hpoint]
  exact hsame

def Sound (a : DepthAlias) (d : Device) : Prop :=
  ∀ v, a.view = some v → ∃ t, a.texture = some t ∧ d.Shows v t

theorem Sound.evolves (h : a.Sound d) (hd : d.Evolves d') : a.Sound d' := by
  intro v hv
  obtain ⟨t, ht, hshows⟩ := h v hv
  exact ⟨t, ht, hshows.evolves hd⟩

theorem Sound.point (h : a.Sound d) (texture : Option (Handle .texture)) :
    (a.point texture d).1.Sound (a.point texture d).2 := by
  rcases a.point_cases texture d with
    ⟨-, hpoint⟩ | ⟨-, -, hpoint⟩ | ⟨t, view, d', -, -, hview, hpoint⟩ <;> rw [hpoint]
  · exact h
  · nofun
  · intro v hv
    obtain rfl : view = some v := hv
    exact ⟨t, rfl, shows_of_createView hview⟩

/-- The texture behind the view was given out. -/
def Given (a : DepthAlias) (d : Device) : Prop :=
  ∀ v t, a.view = some v → a.texture = some t → t.id ≤ d.lastId

theorem Given.evolves (h : a.Given d) (hd : d.Evolves d') : a.Given d' :=
  fun v t hv ht ↦ (h v t hv ht).trans hd.lastId_le

theorem id_le_of_createView (hd : d.Numbered) (run : createView t d = (some v, d')) :
    t.id ≤ d.lastId := by
  rw [createView] at run
  rcases hdesc : d.textureDesc? t with _ | desc <;> rw [hdesc] at run
  · cases run
  · obtain ⟨c, hget, -⟩ := Option.map_eq_some_iff.mp hdesc
    exact hd.id_le hget

theorem Given.point (h : a.Given d) (hd : d.Numbered) (texture : Option (Handle .texture)) :
    (a.point texture d).1.Given (a.point texture d).2 := by
  have hevolves := a.evolves_point texture d
  rcases a.point_cases texture d with
    ⟨-, hpoint⟩ | ⟨-, -, hpoint⟩ | ⟨t, view, d', -, -, hview, hpoint⟩ <;> rw [hpoint] at hevolves ⊢
  · exact h
  · nofun
  · intro v u hv hu
    obtain rfl : view = some v := hv
    obtain rfl : t = u := Option.some.inj hu
    have hreleased := (Device.Evolves.release d a.refs).numbered hd
    exact (id_le_of_createView hreleased hview).trans hevolves.lastId_le

end DepthAlias

namespace Engine

/-- The engine with its alias pointed at a texture on the way, at nothing unless there is still a
swapchain. -/
def PointsDepth (e e' : Engine) : Prop :=
  ∃ texture d, e.device.Evolves d ∧ (e.depth.point texture d).2.Evolves e'.device ∧
    e'.depth = (e.depth.point texture d).1 ∧ (e'.backbuffer = none → texture = none)

def MovesDepth (e e' : Engine) : Prop :=
  (e'.depth = e.depth ∧ (e'.backbuffer = none → e.backbuffer = none)) ∨ e.PointsDepth e'

variable {e e' : Engine}

theorem MovesDepth.of_eq (h : e'.depth = e.depth ∧ e'.backbuffer = e.backbuffer) :
    e.MovesDepth e' :=
  Or.inl ⟨h.1, fun hnone ↦ h.2 ▸ hnone⟩

theorem pointsDepth_present {b : Backbuffer} (hb : e.backbuffer = some b) (tracker : DepthTracker) :
    e.PointsDepth (e.present tracker) := by
  obtain ⟨techniques, cs, -, -, hpresent⟩ := present_eq hb tracker
  rw [hpresent]
  refine ⟨(e.selectDepth b tracker).map (·.texture), e.device, Device.Evolves.refl _,
    Device.Evolves.issueAll _ _, rfl, fun hnone ↦ ?_⟩
  cases hb.symm.trans hnone

theorem pointsDepth_reset (e : Engine) : e.PointsDepth e.reset :=
  ⟨none, e.unloadAll.device, Device.Evolves.release _ _, Device.Evolves.release _ _, rfl,
    fun _ ↦ rfl⟩

theorem movesDepth_init (e : Engine) (s : Swapchain) : e.MovesDepth (e.init s).2 := by
  have hvacated : e.vacated = e ∨ e.PointsDepth e.vacated := by
    rw [vacated]
    split
    · exact Or.inr e.pointsDepth_reset
    · exact Or.inl rfl
  -- whether the objects for the swapchain can be created does not matter to the alias
  have hinit : ∃ d backbuffer, e.vacated.device.Evolves d ∧
      (e.init s).2 = { e.vacated with device := d, backbuffer } := by
    rcases e.init_cases s with ⟨cause, d, hrun, hinit⟩ | ⟨b, d, hrun, hinit⟩ <;> rw [hinit]
    · exact ⟨d, _, ((Backbuffer.upholds_create s).run hrun).evolves, rfl⟩
    · exact ⟨d, _, ((Backbuffer.upholds_create s).run hrun).evolves, rfl⟩
  obtain ⟨d, backbuffer, hevolves, hinit⟩ := hinit
  rw [hinit]
  rcases hvacated with hsame | ⟨texture, d₀, hbefore, hafter, hdepth, hnone⟩
  · rw [hsame]
    exact Or.inl ⟨rfl, fun _ ↦ hsame ▸ e.backbuffer_vacated⟩
  · exact Or.inr ⟨texture, d₀, hbefore, hafter.trans hevolves, hdepth,
      fun _ ↦ hnone e.backbuffer_vacated⟩

/-- The alias of an engine is sound, and stands for nothing without a swapchain. -/
structure Aliases (e : Engine) : Prop where
  sound : e.depth.Sound e.device
  vacant : e.backbuffer = none → e.depth.texture = none

theorem Aliases.movesDepth (h : e.Aliases) (hevolves : e.device.Evolves e'.device)
    (hmoves : e.MovesDepth e') : e'.Aliases := by
  rcases hmoves with ⟨hdepth, hnone⟩ | ⟨texture, d, hbefore, hafter, hdepth, hnone⟩
  · refine ⟨?_, fun hb ↦ ?_⟩ <;> rw [hdepth]
    · exact h.sound.evolves hevolves
    · exact h.vacant (hnone hb)
  · refine ⟨?_, fun hb ↦ ?_⟩ <;> rw [hdepth]
    · exact ((h.sound.evolves hbefore).point texture).evolves hafter
    · rw [DepthAlias.texture_point, hnone hb]

theorem given_movesDepth (h : e.depth.Given e.device) (hd : e.device.Numbered)
    (hevolves : e.device.Evolves e'.device) (hmoves : e.MovesDepth e') :
    e'.depth.Given e'.device := by
  rcases hmoves with ⟨hdepth, -⟩ | ⟨texture, d, hbefore, hafter, hdepth, -⟩ <;> rw [hdepth]
  · exact h.evolves hevolves
  · exact ((h.evolves hbefore).point (hbefore.numbered hd) texture).evolves hafter

theorem Aliases.depth_eq (h : e.Aliases) (hb : e.backbuffer = none) : e.depth = {} := by
  have htexture := h.vacant hb
  have hview : e.depth.view = none := by
    by_contra hne
    obtain ⟨v, hv⟩ := Option.ne_none_iff_exists'.mp hne
    obtain ⟨t, ht, -⟩ := h.sound v hv
    cases htexture.symm.trans ht
  rcases hdepth : e.depth with ⟨texture, view⟩
  rw [hdepth] at htexture hview
  obtain rfl : texture = none := htexture
  obtain rfl : view = none := hview
  rfl

end Engine

namespace Session

/-- The alias is pointed by frames and when the swapchain is left, and otherwise stays. -/
theorem movesDepth_step (s : Session) (event : Event) :
    s.engine.MovesDepth (s.step event).engine := by
  cases event with
  | init swapchain => exact s.engine.movesDepth_init swapchain
  | reset => exact Or.inr s.engine.pointsDepth_reset
  | load m =>
    change s.engine.MovesDepth (s.engine.load m).2
    rcases s.engine.load_cases m with ⟨-, hrun⟩ | ⟨-, hrun⟩ <;> rw [hrun]
    · exact .of_eq ⟨rfl, rfl⟩
    · exact .of_eq ((s.engine.register m.reserveSlots).depth_activate _)
  | reload index =>
    change s.engine.MovesDepth (s.engine.reload index).2
    rcases s.engine.reload_cases index with ⟨-, hrun⟩ | ⟨effect, -, hrun⟩ <;> rw [hrun]
    · exact .of_eq ⟨rfl, rfl⟩
    · exact .of_eq (Engine.depth_activate _ _)
  | unload index =>
    change s.engine.MovesDepth (s.engine.unload index).2
    rcases s.engine.unload_cases index with ⟨-, hrun⟩ | ⟨effect, -, hrun⟩ <;> rw [hrun] <;>
      exact .of_eq ⟨rfl, rfl⟩
  | present tracker =>
    change s.engine.MovesDepth (s.engine.present tracker)
    rcases hb : s.engine.backbuffer with _ | b
    · rw [Engine.present, hb]
      exact .of_eq ⟨rfl, rfl⟩
    · exact Or.inr (Engine.pointsDepth_present hb tracker)
  | upload name pixels =>
    change s.engine.MovesDepth (s.engine.upload name pixels).2
    rcases s.engine.upload_cases name pixels with
      ⟨cause, hrun⟩ | ⟨t, o, data, rowPitch, -, -, hrun⟩ <;> rw [hrun] <;> exact .of_eq ⟨rfl, rfl⟩
  | writeUniforms index offset data =>
    change s.engine.MovesDepth (s.engine.writeUniforms index offset data).2
    rcases s.engine.writeUniforms_cases index offset data with
      ⟨cause, hrun, -⟩ | ⟨effect, -, -, hrun⟩ <;> rw [hrun] <;> exact .of_eq ⟨rfl, rfl⟩
  | create kind content =>
    change s.engine.MovesDepth (s.create kind content).engine
    rw [engine_create]
    exact .of_eq ⟨rfl, rfl⟩
  | unloadAll | setEnabled | overrideDepth | configure | release | issue | write | failAfter
  | markInterrupted | advanceFrame | takeLog => exact .of_eq ⟨rfl, rfl⟩

theorem Reachable.aliases {allowed : Session → Event → Prop} {s : Session}
    (hs : s.Reachable allowed) : s.engine.Aliases := by
  induction hs with
  | start timing config => exact ⟨nofun, fun _ ↦ rfl⟩
  | step hs _ ih => exact ih.movesDepth (hs.evolves_step _) (Session.movesDepth_step _ _)

theorem Reachable.depth_given {allowed : Session → Event → Prop} {s : Session}
    (hs : s.Reachable allowed) : s.engine.depth.Given s.engine.device := by
  induction hs with
  | start timing config => nofun
  | step hs _ ih =>
    exact Engine.given_movesDepth ih hs.numbered (hs.evolves_step _) (Session.movesDepth_step _ _)

end Session

end EffectChain
