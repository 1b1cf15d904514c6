import EffectChain.Proofs.DepthAlias
import EffectChain.Proofs.Ownership.Session
import EffectChain.Proofs.Records.Liveness

/-!
# Which texture stands for the scene depth in a frame

A frame points the alias at the texture it selected, and leaves it alone if it points there already.
The texture of the alias is therefore always the selected one. Its view is a view of that texture
because a view is never kept when the texture changes; whether there is one, however, was decided
when the alias was last pointed elsewhere. A texture that could not be viewed then stays without a
view for as long as it is selected, whatever becomes of the reason
(`Session.Reachable.depth_present`).

That a readable texture can be viewed at all takes that it has a level to view. The device makes no
texture without one, and no session of a host that creates textures through it has one
(`Session.Reachable.leveled`).
-/

namespace EffectChain

/-! ## Textures have levels -/

theorem DepthAlias.upholds_point (a : DepthAlias) (texture : Option (Handle .texture))
    (d : Device) : d.Upholds (a.point texture d).2 :=
  a.point_induction texture (Device.Upholds.refl d)
    (fun _ h ↦ h.trans (Device.Upholds.release _ _))
    fun _ _ h ↦ h.trans (Device.Upholds.create (by decide) _)

/-- Textures are created from descriptions. -/
def Event.Proper : Event → Prop
  | .create .texture content => ∃ desc, content = fun _ ↦ Texture.make desc
  | _ => True

namespace Engine

theorem upholds_activate (e : Engine) (index : Nat) :
    e.device.Upholds (e.activate index).2.device := by
  rcases heffect : e.effect? index with _ | effect
  · rw [activate, heffect]
    exact Device.Upholds.refl _
  · rw [assets_activate heffect]
    rcases (e.build_run index effect).assets with heq | ⟨result, d, hrun, heq | ⟨_, -, hbuilds⟩⟩
    · rw [heq]
      exact Device.Upholds.refl _
    · rw [heq]
      exact (upholds_materialize _ _).run hrun
    · exact ((upholds_materialize _ _).run hrun).trans hbuilds.upholds

theorem upholds_reset (e : Engine) : e.device.Upholds e.reset.device :=
  ((Device.Upholds.release _ _).trans (e.depth.upholds_point none _)).trans
    (Device.Upholds.release _ _)

theorem upholds_init (e : Engine) (s : Swapchain) : e.device.Upholds (e.init s).2.device := by
  have hvacated : e.device.Upholds e.vacated.device :=
    vacated_induction (P := fun e' ↦ e.device.Upholds e'.device) (Device.Upholds.refl _)
      e.upholds_reset
  rcases e.init_cases s with ⟨cause, d, hrun, hinit⟩ | ⟨b, d, hrun, hinit⟩ <;> rw [hinit]
  · exact hvacated.trans ((Backbuffer.upholds_create s).run hrun)
  · exact hvacated.trans ((Backbuffer.upholds_create s).run hrun)

theorem upholds_present (e : Engine) (tracker : DepthTracker) :
    e.device.Upholds (e.present tracker).device := by
  rcases hb : e.backbuffer with _ | b
  · rw [Engine.present, hb]
    exact Device.Upholds.refl _
  · obtain ⟨techniques, cs, -, -, hpresent⟩ := present_eq hb tracker
    rw [hpresent]
    exact (e.depth.upholds_point _ e.device).trans (Device.Upholds.issueAll _ _)

end Engine

namespace Session

variable {s : Session}

theorem upholds_step (s : Session) {event : Event} (hproper : event.Proper) :
    s.device.Upholds (s.step event).device := by
  have hsame {d : Device} (objects : d.objects = s.device.objects)
      (lastId : d.lastId = s.device.lastId) : s.device.Upholds d :=
    Device.Upholds.of_lastId_eq (Device.Evolves.of_eq objects lastId) lastId
  cases event with
  | init swapchain => exact s.engine.upholds_init swapchain
  | reset => exact s.engine.upholds_reset
  | load m =>
    change s.engine.device.Upholds (s.engine.load m).2.device
    rcases s.engine.load_cases m with ⟨-, hrun⟩ | ⟨-, hrun⟩ <;> rw [hrun]
    · exact Device.Upholds.refl _
    · exact (s.engine.register m.reserveSlots).upholds_activate _
  | reload index =>
    change s.engine.device.Upholds (s.engine.reload index).2.device
    rcases s.engine.reload_cases index with ⟨-, hrun⟩ | ⟨effect, -, hrun⟩ <;> rw [hrun]
    · exact Device.Upholds.refl _
    · exact (Device.Upholds.release _ _).trans
        (Engine.upholds_activate { s.engine.deactivate index with textures := _ } index)
  | unload index =>
    change s.engine.device.Upholds (s.engine.unload index).2.device
    rcases s.engine.unload_cases index with ⟨-, hrun⟩ | ⟨effect, -, hrun⟩ <;> rw [hrun]
    · exact Device.Upholds.refl _
    · exact (Device.Upholds.release _ _).trans (Device.Upholds.release _ _)
  | unloadAll => exact Device.Upholds.release _ _
  | upload name pixels =>
    change s.engine.device.Upholds (s.engine.upload name pixels).2.device
    rcases s.engine.upload_cases name pixels with
      ⟨cause, hrun⟩ | ⟨t, o, data, rowPitch, -, -, hrun⟩ <;> rw [hrun]
    · exact Device.Upholds.refl _
    · exact Device.Upholds.issueAll _ _
  | writeUniforms index offset data =>
    change s.engine.device.Upholds (s.engine.writeUniforms index offset data).2.device
    rcases s.engine.writeUniforms_cases index offset data with
      ⟨cause, hrun, -⟩ | ⟨effect, -, -, hrun⟩ <;> rw [hrun] <;> exact Device.Upholds.refl _
  | present tracker => exact s.engine.upholds_present tracker
  | create kind content =>
    have hcreate : Steady Device.Upholds (Device.create kind content) := by
      by_cases hkind : kind = .texture
      · subst hkind
        obtain ⟨desc, rfl⟩ := hproper
        exact Device.Upholds.createTexture desc
      · exact Device.Upholds.create hkind
    change s.engine.device.Upholds (s.create kind content).engine.device
    rw [engine_create]
    exact hcreate s.engine.device
  | release refs => exact Device.Upholds.release _ refs
  | issue c => exact Device.Upholds.issue _ c
  | write texture level data =>
    exact Device.Upholds.of_lastId_eq (Device.evolves_writeTexels _ texture level data)
      (Device.live_writeTexels _ texture level data).2
  | setEnabled | overrideDepth | configure | failAfter | markInterrupted | advanceFrame | takeLog =>
    exact hsame rfl rfl

theorem Reachable.leveled {allowed : Session → Event → Prop}
    (hproper : ∀ s event, allowed s event → event.Proper) (hs : s.Reachable allowed) :
    s.device.Leveled := by
  induction hs with
  | start timing config => exact nofun
  | @step s event hs hallowed ih =>
    exact (s.upholds_step (hproper s event hallowed)).leveled hs.numbered ih

end Session

/-! ## Views of readable textures -/

namespace Device

variable {d : Device}

/-- A readable texture can be viewed by shaders, unless the view is refused. -/
theorem createShaderView_of_readable {t : Handle .texture} {c : Texture}
    (hget : d.get? t = some c) (hreadable : c.desc.usage.shaderResource = true)
    (hlevels : c.desc.levels ≠ 0)
    (hrefused : (takeRefusal .shaderView d.refusals).1 = false) :
    ∃ v d', createShaderView t c.desc.format.linear 1 d = (.ok v, d') := by
  have hviewable (refusals : List Refusal) :
      ({ d with refusals } : Device).viewable .shaderView t c.desc.format.linear = .ok c := by
    rw [viewable, show ({ d with refusals } : Device).get? t = some c from hget]
    exact if_pos (Format.bytesPerTexel_linear _)
  refine create_of_content hrefused (c := ⟨t, c.desc.format.linear⟩) ?_
  simp [hviewable, bind, Except.bind, hreadable, hlevels]
  rfl

end Device

/-- The alias gets a view of a readable texture, unless the view is refused. -/
theorem DepthAlias.createView_of_readable {d : Device} {t : Handle .texture} {c : Texture}
    (hget : d.get? t = some c) (hreadable : c.desc.usage.shaderResource = true)
    (hlevels : c.desc.levels ≠ 0)
    (hrefused : (Device.takeRefusal .shaderView d.refusals).1 = false) :
    ∃ v d', createView t d = (some v, d') := by
  obtain ⟨v, d', hcreate⟩ := Device.createShaderView_of_readable hget hreadable hlevels hrefused
  refine ⟨v, d', ?_⟩
  rw [createView, Device.textureDesc?, hget]
  dsimp only [Option.map_some]
  rw [if_pos hreadable, DeviceM.on, hcreate]

/-! ## Frames -/

namespace DepthAlias

variable {a : DepthAlias} {d : Device}

theorem evolves_createView (t : Handle .texture) (d : Device) :
    d.Evolves (createView t d).2 := by
  rcases createView_cases t d with
    hrun | ⟨content, ⟨v, d', hstep, hrun⟩ | ⟨cause, d', hstep, hrun⟩⟩ <;> rw [hrun]
  · exact Device.Evolves.refl d
  · exact Device.Evolves.create.run hstep
  · exact Device.Evolves.create.run hstep

theorem not_mem_live_of_point (h : a.Sound d) {v : Handle .shaderView} (hv : a.view = some v)
    (texture : Option (Handle .texture)) :
    (a.point texture d).1.view = some v ∨ v.ref ∉ (a.point texture d).2.live := by
  obtain ⟨_, -, _, hmade⟩ := h v hv
  have hgone : v.ref ∉ (d.release a.refs).live := by
    rw [Device.live, Device.release, Store.refs_erase, refs, hv]
    simp
  rcases a.point_cases texture d with
    ⟨-, hpoint⟩ | ⟨-, -, hpoint⟩ | ⟨t, view, d', -, -, hview, hpoint⟩ <;> rw [hpoint]
  · exact Or.inl hv
  · exact Or.inr hgone
  · have hevolves := evolves_createView t (d.release a.refs)
    rw [hview] at hevolves
    exact Or.inr (hevolves.not_mem_live hmade.id_le hgone)

/-- The alias of a readable texture has a view, unless there was none when it was pointed there. -/
theorem view_point_eq_none_iff {t : Handle .texture} {c : Texture} (hget : d.get? t = some c)
    (hreadable : c.desc.usage.shaderResource = true) (hlevels : c.desc.levels ≠ 0)
    (hrefused : (Device.takeRefusal .shaderView d.refusals).1 = false) :
    (a.point (some t) d).1.view = none ↔ a = ⟨some t, none⟩ := by
  rcases a.point_cases (some t) d with
    ⟨hsame, hpoint⟩ | ⟨-, hnone, -⟩ | ⟨u, view, d', hne, hu, hview, hpoint⟩
  · rw [hpoint]
    obtain ⟨texture, view⟩ := a
    obtain rfl : texture = some t := hsame
    simp
  · cases hnone
  · cases hu
    have hspared : (d.release a.refs).get? t = some c := by
      rw [Device.get?_release, if_neg, hget]
      intro hmem
      obtain ⟨v, -, heq⟩ := List.mem_map.mp hmem
      cases congrArg ObjectRef.kind heq
    obtain ⟨v, d₁, hcreated⟩ := createView_of_readable hspared hreadable hlevels hrefused
    rw [hpoint, ← show some v = view from congrArg Prod.fst (hcreated.symm.trans hview)]
    refine iff_of_false nofun fun heq ↦ hne ?_
    rw [heq]

end DepthAlias

namespace Session

variable {s : Session}

/-- **A frame points the alias at the texture it selects**, if there is one, and a view that is
no longer needed is released. The view of the alias is alive and shows the selected texture, and
if that can be read there is one, unless the alias stood for that very texture without a view
before. -/
theorem Reachable.depth_present (hs : s.Reachable fun s event ↦ event.Lawful s ∧ event.Proper)
    {b : Backbuffer} (hb : s.engine.backbuffer = some b) (tracker : DepthTracker) :
    let e := s.engine.present tracker
    let selected := (s.engine.selectDepth b tracker).map (·.texture)
    e.depth.texture = selected ∧ (selected = none → e.depth = {}) ∧
      (∀ v, e.depth.view = some v → ∃ t, selected = some t ∧ e.device.viewTexture? v = some t) ∧
      (∀ v, s.engine.depth.view = some v → e.depth.view = some v ∨ v.ref ∉ e.device.live) ∧
      ∀ t c, selected = some t → s.device.get? t = some c → c.desc.usage.shaderResource →
        (Device.takeRefusal .shaderView s.device.refusals).1 = false →
        (e.depth.view = none ↔ s.engine.depth = ⟨some t, none⟩) := by
  intro e selected
  have hs' : (s.step (.present tracker)).Reachable fun s event ↦ event.Lawful s ∧ event.Proper :=
    hs.step ⟨trivial, trivial⟩
  obtain ⟨strays, howns, -⟩ := hs'.owns fun _ _ h ↦ h.1
  obtain ⟨techniques, cs, -, -, hpresent⟩ := Engine.present_eq hb tracker
  -- the alias is pointed ahead of the techniques, and their commands leave it alone
  have hdepth : e.depth = (s.engine.depth.point selected s.device).1 :=
    congrArg Engine.depth hpresent
  have hlive : e.device.live = (s.engine.depth.point selected s.device).2.live := by
    rw [show e = _ from hpresent]
    exact Device.live_issueAll _ _
  have htexture : e.depth.texture = selected := by
    rw [hdepth, DepthAlias.texture_point]
  have hview : ∀ v, e.depth.view = some v →
      ∃ t, selected = some t ∧ e.device.viewTexture? v = some t := by
    intro v hv
    obtain ⟨t, ht, hshows⟩ := hs'.aliases.sound v hv
    have hv : (s.step (.present tracker)).engine.depth.view = some v := hv
    exact ⟨t, htexture.symm.trans ht,
      hshows.viewTexture? (howns.mem_live (by simp [Engine.refs, DepthAlias.refs, hv]))⟩
  refine ⟨htexture, fun hnone ↦ ?_, hview, fun v hv ↦ ?_,
    fun t c hselected hget hreadable hrefused ↦ ?_⟩
  · rcases hpair : e.depth with ⟨texture, view⟩
    rw [hpair] at htexture hview
    obtain rfl : texture = none := htexture.trans hnone
    rcases view with _ | v
    · rfl
    · obtain ⟨t, ht, -⟩ := hview v rfl
      cases hnone.symm.trans ht
  · rw [hdepth, hlive]
    exact DepthAlias.not_mem_live_of_point hs.aliases.sound hv selected
  · rw [hdepth, hselected]
    exact DepthAlias.view_point_eq_none_iff hget hreadable
      (hs.leveled (fun _ _ h ↦ h.2) t c hget) hrefused

/-- A depth buffer that was chosen by hand gets a view. -/
theorem depth_present_small :
    let s := (small.step (.create .texture fun _ ↦ Texture.make (.depthBuffer 4 4 1))).step
      (.overrideDepth (some ⟨10⟩))
    (s.engine.present {}).depth.texture = some ⟨10⟩ ∧ ∃ v,
      (s.engine.present {}).depth.view = some v ∧
      (s.engine.present {}).device.viewTexture? v = some ⟨10⟩ := by
  intro s
  have hs : s.Reachable fun s event ↦ event.Lawful s ∧ event.Proper :=
    .step (.step (.step (.step (.start {} {}) ⟨trivial, _, rfl⟩) ⟨trivial, trivial⟩)
      ⟨trivial, _, rfl⟩) ⟨trivial, trivial⟩
  obtain ⟨b, hb⟩ : ∃ b, s.engine.backbuffer = some b :=
    Option.isSome_iff_exists.mp (by decide +kernel)
  obtain ⟨c, hget⟩ : ∃ c : Texture, s.device.get? (⟨10⟩ : Handle .texture) = some c :=
    Option.isSome_iff_exists.mp (by decide +kernel)
  have hreadable : ∀ c ∈ s.device.get? (⟨10⟩ : Handle .texture),
      c.desc.usage.shaderResource = true := by decide +kernel
  obtain ⟨htexture, -, hview, -, hiff⟩ := Reachable.depth_present hs hb {}
  have hselected : (s.engine.selectDepth b {}).map (·.texture) = some ⟨10⟩ := rfl
  have hsome : (s.engine.present {}).depth.view ≠ none := by
    rw [Ne, hiff ⟨10⟩ c hselected hget (hreadable c hget) rfl]
    decide +kernel
  obtain ⟨v, hv⟩ := Option.ne_none_iff_exists'.mp hsome
  obtain ⟨t, ht, hshown⟩ := hview v hv
  cases hselected.symm.trans ht
  exact ⟨htexture.trans hselected, v, hv, hshown⟩

/-- If the view of a depth buffer was refused once, later frames go without it, although they select
the same readable texture and nothing is refused any more. -/
theorem view_eq_none_of_refused :
    let s := (((small.step (.create .texture fun _ ↦ Texture.make (.depthBuffer 4 4 1))).step
      (.failAfter .shaderView 0)).step (.overrideDepth (some ⟨10⟩))).step (.present {})
    (s.Reachable fun s event ↦ event.Lawful s ∧ event.Proper) ∧
      (∃ b, s.engine.backbuffer = some b ∧
        (s.engine.selectDepth b {}).map (·.texture) = some ⟨10⟩) ∧
      (s.device.textureDesc? ⟨10⟩).map (·.usage.shaderResource) = some true ∧
      s.device.refusals = [] ∧ (s.engine.present {}).depth = ⟨some ⟨10⟩, none⟩ := by
  intro s
  obtain ⟨b, hb⟩ : ∃ b, s.engine.backbuffer = some b :=
    Option.isSome_iff_exists.mp (by decide +kernel)
  refine ⟨?_, ⟨b, hb, rfl⟩, by decide +kernel, by decide +kernel, by decide +kernel⟩
  exact .step (.step (.step (.step (.step (.step (.start {} {}) ⟨trivial, _, rfl⟩)
    ⟨trivial, trivial⟩) ⟨trivial, _, rfl⟩) ⟨trivial, trivial⟩) ⟨trivial, trivial⟩)
    ⟨trivial, trivial⟩

end Session

end EffectChain
