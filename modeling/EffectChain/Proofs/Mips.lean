import EffectChain.Proofs.Alignment
import EffectChain.Proofs.Created
import EffectChain.Proofs.Frame.Levels

/-!
# Levels of the textures of effects

Whoever writes the first level of a texture of an effect owes it the others. An upload generates
them, and so does a pass for what it draws into. The one writer that does not is the creation of a
view to draw into a texture that was there before: it clears the first level, and the others stay
what they were, until the next upload or the next pass that draws into the texture
(`Session.Reachable.filtered_or_blanked`).

So every texture of an effect is filtered, or zeros over levels that are filtered among themselves.
That is what every event preserves, as long as the host keeps away from the textures of effects
(`Event.Aloof`). None of the textures that a frame touches on behalf of the swapchain is one of
them, since they are later than these.
-/

namespace EffectChain

/-! ## Surfaces of a swapchain -/

namespace Backbuffer

variable {d d' : Device} {b : Backbuffer} {t : Handle .texture}

/-- The textures that a frame touches on behalf of the swapchain. -/
def surfaces (b : Backbuffer) : List (Handle .texture) := [b.resolved, b.copy, b.stencil]

/-- The surfaces were given out, and the view of the stencil surface is that. -/
structure Placed (d : Device) (b : Backbuffer) : Prop where
  /-- The surfaces. -/
  surfaces : ∀ t ∈ b.surfaces, t.id ≤ d.lastId
  /-- The view. -/
  view : d.Made b.stencilView b.stencil

theorem Placed.evolves (h : b.Placed d) (hd : d.Evolves d') : b.Placed d' :=
  ⟨fun t ht ↦ (h.surfaces t ht).trans hd.lastId_le, h.view.evolves hd⟩

theorem Placed.avoids (h : b.Placed d) (hlater : ∀ u ∈ b.surfaces, u.id < t.id) : b.Avoids d t := by
  have hne {u : Handle .texture} (hu : u ∈ b.surfaces) : t ≠ u := by
    rintro rfl
    exact Nat.lt_irrefl _ (hlater _ hu)
  simp only [Backbuffer.surfaces, List.mem_cons] at hne
  exact ⟨hne (by simp), hne (by simp), hne (by simp), h.view⟩

/-- What is created for a swapchain has its place before everything that comes later. -/
theorem placed_of_create {s : Swapchain} (hd : d.Numbered) (run : create s d = (.ok b, d')) :
    b.Placed d' := by
  obtain ⟨d₁, d₂, d₃, d₄, -, hcopy, hviews, hresolved, hstencil, hstencilView⟩ :=
    textures_of_create run
  obtain ⟨_, _, -, -, hcopyMade⟩ := Device.made_of_create hcopy
  obtain ⟨_, _, -, -, hstencilMade⟩ := Device.made_of_create hstencil
  have hspared₄ := (Device.spared_of_create hstencil).1
  have hspared₅ := (Device.spared_of_create hstencilView).1
  have hrest := hspared₄.lastId_le.trans hspared₅.lastId_le
  refine ⟨?_, Device.made_of_createDepthStencilView hstencilView⟩
  simp only [Backbuffer.surfaces, List.forall_mem_cons]
  exact ⟨(hresolved hd).trans hrest, (hcopyMade.id_le.trans hviews.lastId_le).trans hrest,
    hstencilMade.id_le.trans hspared₅.lastId_le, nofun⟩

end Backbuffer

/-! ## Levels -/

/-- The texture has all its levels. In an 8-bit format they are filtered, or zeros over filtered
ones, which then has a reason. -/
def Device.Graded (d : Device) (t : Handle .texture) (reason : Texture → Prop) : Prop :=
  ∃ c, d.get? t = some c ∧ c.Laid ∧
    (c.desc.format.is8BitUnorm → c.Filtered ∨ c.Blanked ∧ reason c)

theorem Device.Graded.imp {d : Device} {t : Handle .texture} {P Q : Texture → Prop}
    (h : d.Graded t P) (hPQ : ∀ c, P c → c.Filtered ∨ Q c) : d.Graded t Q := by
  obtain ⟨c, hget, hlaid, hgrades⟩ := h
  refine ⟨c, hget, hlaid, fun hformat ↦ ?_⟩
  rcases hgrades hformat with hfiltered | ⟨hblanked, hreason⟩
  · exact Or.inl hfiltered
  · exact (hPQ c hreason).imp id fun hQ ↦ ⟨hblanked, hQ⟩

namespace Assets

variable {a : Assets} {n : Nat} {t : Handle .texture} {c : Texture}

theorem Live.resources (h : a.Live) (ht : t ∈ a.resources) : t.ref ∈ a.device.live := by
  obtain ⟨u, hu, o, howned, rfl⟩ := mem_resources.mp ht
  exact h.owned hu howned _ List.mem_cons_self

theorem mem_resources_of_register {index : Nat} {decls : List TextureDecl}
    (ht : t ∈ ({ a with textures := registerTextures index decls a.textures } : Assets).resources) :
    t ∈ a.resources := by
  obtain ⟨u', hu', o, howned, rfl⟩ := mem_resources.mp ht
  obtain ⟨u, hu, -, howned⟩ := owned_of_mem_registerTextures hu' howned
  exact mem_resources.mpr ⟨u, hu, o, howned, rfl⟩

/-- Clearing a texture through a new view keeps what is below the first level. -/
theorem Keeps.graded (h : a.Keeps n t c) (hlaid : c.Laid)
    (hgrades : c.desc.format.is8BitUnorm → c.Filtered ∨ c.Blanked) :
    a.device.Graded t fun c' ↦ c' = c ∨ ∃ view, a.Opens n t view := by
  have hsame (hget : a.device.get? t = some c) :
      a.device.Graded t fun c' ↦ c' = c ∨ ∃ view, a.Opens n t view :=
    ⟨c, hget, hlaid, fun hformat ↦ (hgrades hformat).imp id fun h ↦ ⟨h, Or.inl rfl⟩⟩
  rcases h with hintact | ⟨view, format, hopens, -, hget⟩
  · exact hsame hintact.get?
  · rcases c.fill_transparent format with hfill | hfill
    · exact hsame (hfill ▸ hget)
    · refine ⟨_, hget, (Texture.Edit.fill _).laid hlaid, fun hformat ↦ ?_⟩
      rw [Texture.desc_fill] at hformat
      refine Or.inr ⟨hfill ?_, Or.inr ⟨view, hopens⟩⟩
      rcases hgrades hformat with hfiltered | hblanked
      · exact hfiltered.mono (Nat.zero_le 1)
      · exact hblanked.rest

end Assets

/-! ## Operations -/

namespace Engine

variable {e : Engine} {index : Nat} {t : Handle .texture}

/-- A texture that activation creates is filtered, unless a view to draw into it cleared it. -/
theorem graded_of_activate (hs : e.toAssets.Sound) (ht : t ∈ (e.activate index).2.resources) :
    t ∈ e.resources ∨ e.device.lastId < t.id ∧ (e.activate index).2.device.Graded t fun _ ↦
      ∃ view, (e.activate index).2.Opens e.device.lastId t view := by
  rcases heffect : e.effect? index with _ | effect
  · rw [activate, heffect] at ht
    exact Or.inl ht
  · have hassets := assets_activate heffect
    rw [show (e.activate index).2.device = (e.activate index).2.toAssets.device from rfl]
    rw [show (e.activate index).2.resources = (e.activate index).2.toAssets.resources from rfl]
      at ht
    rw [hassets] at ht ⊢
    rcases (e.build_run index effect).assets with hsame | ⟨result, d, hrun, hrest⟩
    · exact Or.inl (by rwa [hsame] at ht)
    · rcases hrest with hsame | ⟨textures, rfl, hbuilds⟩
      · exact Or.inl (by rwa [hsame] at ht)
      · obtain ⟨hgrows, hs₁⟩ := extends_materialize hrun hs
        rw [hbuilds.resources hs₁] at ht
        obtain ⟨u', hu', o, howned, rfl⟩ := Assets.mem_resources.mp ht
        obtain ⟨u, hu, ⟨-, rfl⟩ | ⟨-, o', rfl, hlater, hid, c, hpristine⟩⟩ :=
          exists_of_forall₂_right (created_of_materialize hrun) hu'
        · exact Or.inl (Assets.mem_resources.mpr ⟨_, hu, o, howned, rfl⟩)
        · cases howned
          obtain ⟨hfiltered, hlaid⟩ := Texture.filtered_of_make hpristine.make
          have hkeeps := hbuilds.keeps hs₁ (Nat.le_refl _) hid
            (Or.inl (Assets.intact_of_get? hs₁ hpristine.get?))
          refine Or.inr ⟨hlater, (hkeeps.graded hlaid fun _ ↦ Or.inl hfiltered).imp ?_⟩
          rintro c' (rfl | ⟨view, hlater', hopens⟩)
          · exact Or.inl hfiltered
          · exact Or.inr ⟨view, hgrows.device.lastId_le.trans_lt hlater', hopens⟩

theorem graded_of_load (htables : e.Tables) (m : EffectModule)
    (ht : t ∈ (e.load m).2.resources) :
    t ∈ e.resources ∨ e.device.lastId < t.id ∧ (e.load m).2.device.Graded t fun _ ↦
      ∃ view, (e.load m).2.Opens e.device.lastId t view := by
  rcases e.load_cases m with ⟨-, hrun⟩ | ⟨-, hrun⟩ <;> rw [hrun] at ht ⊢
  · exact Or.inl ht
  · exact (graded_of_activate (htables.registered m.reserveSlots).assets ht).imp
      Assets.mem_resources_of_register id

theorem graded_of_reload (htables : e.Tables) (ht : t ∈ (e.reload index).2.resources) :
    t ∈ e.resources ∨ e.device.lastId < t.id ∧ (e.reload index).2.device.Graded t fun _ ↦
      ∃ view, (e.reload index).2.Opens e.device.lastId t view := by
  rcases htables.reload_cases index with ⟨-, hrun⟩ | ⟨effect, -, hrun⟩ <;> rw [hrun] at ht ⊢
  · exact Or.inl ht
  · exact graded_of_activate (htables.deactivated index).assets ht

/-- The commands of an upload are about the texture of the name. -/
theorem touched?_uploadCommands {others : Multiset ObjectRef} (hs : e.toAssets.Sound)
    (howns : e.Owns others) {u : TableTexture} (hmem : u ∈ e.textures) {o : OwnedTexture}
    (howned : u.owned = some o) (data : Bytes) (rowPitch : Nat) :
    ∀ c ∈ e.uploadCommands o data rowPitch, c.touched? e.device = some o.resource.ref := by
  have hview : e.device.viewTexture? o.views.linear = some o.resource :=
    howns.assets_live.viewTexture? hs hmem howned false
  rw [uploadCommands]
  refine List.forall_mem_cons.mpr ⟨rfl, ?_⟩
  split
  · refine List.forall_mem_singleton.mpr ?_
    rw [Command.touched?, hview]
    rfl
  · exact List.forall_mem_nil _

/-- **An upload generates the levels**, of the texture that it is about. -/
theorem graded_upload {others : Multiset ObjectRef} (hs : e.toAssets.Sound) (howns : e.Owns others)
    (hgraded : e.device.Graded t fun _ ↦ True) (name : String) (pixels : Bytes) :
    (e.upload name pixels).2.device.Graded t fun c ↦ e.device.get? t = some c := by
  obtain ⟨c, hget, hlaid, hgrades⟩ := hgraded
  have hsame : e.device.Graded t fun c ↦ e.device.get? t = some c :=
    ⟨c, hget, hlaid, fun hformat ↦ (hgrades hformat).imp id fun h ↦ ⟨h.1, hget⟩⟩
  rcases e.upload_cases name pixels with ⟨cause, hrun⟩ | ⟨u, o, data, rowPitch, hfind, howned, hrun⟩
  · rwa [hrun]
  · rw [hrun]
    obtain ⟨hmem, -⟩ := Assets.mem_of_texture? hfind
    have hview : e.device.viewTexture? o.views.linear = some o.resource :=
      howns.assets_live.viewTexture? hs hmem howned false
    by_cases hself : o.resource = t
    · subst hself
      obtain ⟨c', hget', hedits⟩ :=
        Device.exists_issueAll hget (e.uploadCommands o data rowPitch)
      refine ⟨c', hget', hedits.laid hlaid, fun hformat ↦ Or.inl ?_⟩
      rw [uploadCommands, OwnedTexture.hasMips_of_get? hget] at hget'
      -- a texture with one level has nothing to generate
      by_cases hlevels : 1 < c.desc.levels
      · rw [if_pos (decide_eq_true hlevels)] at hget'
        obtain ⟨c₁, hget₁, hedits₁⟩ :=
          Device.exists_issueAll hget [.updateTexture o.resource data rowPitch]
        obtain ⟨c₂, hget₂, hfiltered⟩ := Device.filtered_generateMips hget₁
          (by rwa [hedits₁.desc, ← hedits.desc]) (List.mem_singleton_self o.views.linear)
          (by rwa [Device.viewTexture?_issueAll])
        cases hget'.symm.trans hget₂
        exact hfiltered
      · exact (hedits.laid hlaid).filtered (by rwa [hedits.desc])
    · -- both commands are about the texture of the name
      have huntouched : ∀ command ∈ e.uploadCommands o data rowPitch,
          command.touched? e.device ≠ some t.ref := fun command hcommand ↦ by
        rw [touched?_uploadCommands hs howns hmem howned data rowPitch command hcommand]
        exact fun h ↦ hself (Handle.ref_inj.mp (Option.some.inj h))
      obtain ⟨c', hget', hrest⟩ := hsame
      exact ⟨c', (Device.get?_issueAll_of_ne huntouched).trans hget', hrest⟩

theorem graded_present {others : Multiset ObjectRef} (h : e.Sound) (htables : e.Tables)
    (howns : e.Owns others) (hnumbered : e.device.Numbered)
    (hplaced : ∀ b, e.backbuffer = some b → b.Placed e.device ∧ ∀ u ∈ b.surfaces, u.id < t.id)
    (hgraded : e.device.Graded t fun _ ↦ True) (tracker : DepthTracker) :
    (e.present tracker).device.Graded t fun c ↦ e.device.get? t = some c := by
  obtain ⟨c, hget, hlaid, hgrades⟩ := hgraded
  rcases hb : e.backbuffer with _ | b
  · rw [present, hb]
    exact ⟨c, hget, hlaid, fun hformat ↦ (hgrades hformat).imp id fun h ↦ ⟨h.1, hget⟩⟩
  · obtain ⟨hplace, hlater⟩ := hplaced b hb
    obtain ⟨c', hget', hlaid', hcases⟩ := filtered_or_same_present h htables howns hnumbered hb
      tracker (hplace.avoids hlater) hget hlaid
    refine ⟨c', hget', hlaid', fun hformat ↦ ?_⟩
    rcases hcases hformat with hfiltered | rfl
    · exact Or.inl hfiltered
    · exact (hgrades hformat).imp id fun h ↦ ⟨h.1, hget⟩

theorem get?_of_release {d : Device} {refs : List ObjectRef} {c : Texture}
    (hget : (d.release refs).get? t = some c) : d.get? t = some c := by
  rw [Device.get?_release] at hget
  split at hget
  · cases hget
  · exact hget

/-- Unloading an effect releases textures, and leaves those that the table still has. -/
theorem get?_unload {others : Multiset ObjectRef} (howns : e.Owns others)
    (ht : t ∈ (e.unload index).2.resources) :
    t ∈ e.resources ∧ (e.unload index).2.device.get? t = e.device.get? t := by
  have hlive := (howns.unload index).assets_live.resources ht
  rcases e.unload_cases index with ⟨-, hrun⟩ | ⟨effect, -, hrun⟩ <;> rw [hrun] at ht hlive ⊢
  · exact ⟨ht, rfl⟩
  · refine ⟨?_, ?_⟩
    · obtain ⟨u', hu', o, howned, rfl⟩ := Assets.mem_resources.mp ht
      obtain ⟨u, hu, rfl⟩ := exists_of_mem_withdrawTextures hu'
      exact Assets.mem_resources.mpr ⟨u, hu, o, howned, rfl⟩
    · obtain ⟨c, hget⟩ := Device.get?_of_mem_live hlive
      exact hget.trans (get?_of_release (get?_of_release hget)).symm

end Engine

/-! ## Sessions -/

/-- The host keeps to itself: it releases nothing that the engine records, and writes nothing into
the textures of effects. -/
def Event.Aloof (s : Session) : Event → Prop
  | .release refs => ∀ r ∈ refs, r ∉ s.engine.refs
  | .issue c => ∀ t ∈ s.engine.resources, c.touched? s.device ≠ some t.ref
  | .write t _ _ => t ∉ s.engine.resources
  | _ => True

theorem Event.Aloof.lawful {s : Session} {event : Event} (h : event.Aloof s) : event.Lawful s := by
  cases event with
  | release refs => exact h
  | _ => trivial

namespace Session

variable {s : Session} {event : Event} {t : Handle .texture}

/-- The event activates an effect, and a view to draw into the texture is created on the way. -/
def Reopens (s : Session) (event : Event) (t : Handle .texture) : Prop :=
  (event.activates s).isSome ∧ ∃ view, (s.step event).engine.Opens s.device.lastId t view

/-- The textures of effects are later than the surfaces of the swapchain, and graded. -/
structure Levelled (s : Session) : Prop where
  /-- The surfaces have their place. -/
  placed : ∀ b, s.engine.backbuffer = some b → b.Placed s.device
  /-- The textures are later. -/
  later : ∀ b, s.engine.backbuffer = some b → ∀ t ∈ s.engine.resources, ∀ u ∈ b.surfaces,
    u.id < t.id
  /-- The textures are graded. -/
  graded : ∀ t ∈ s.engine.resources, s.device.Graded t fun _ ↦ True

theorem Reachable.placed_step {allowed : Session → Event → Prop} (hs : s.Reachable allowed)
    (h : ∀ b, s.engine.backbuffer = some b → b.Placed s.device) (b : Backbuffer)
    (hb : (s.step event).engine.backbuffer = some b) : b.Placed (s.step event).device := by
  by_cases hinit : ∃ swapchain, event = .init swapchain
  · obtain ⟨swapchain, rfl⟩ := hinit
    change (s.engine.init swapchain).2.backbuffer = some b at hb
    change b.Placed (s.engine.init swapchain).2.device
    rcases s.engine.init_cases swapchain with ⟨_, d, -, heq⟩ | ⟨b', d, hrun, heq⟩ <;>
      rw [heq] at hb ⊢
    · cases s.engine.backbuffer_vacated.symm.trans hb
    · cases hb
      exact Backbuffer.placed_of_create hs.vacated.1 hrun
  · exact (h b (backbuffer_of_step (fun swapchain h ↦ hinit ⟨swapchain, h⟩) hb)).evolves
      (hs.evolves_step event)

theorem Reachable.placed {allowed : Session → Event → Prop} (hs : s.Reachable allowed) :
    ∀ b, s.engine.backbuffer = some b → b.Placed s.device := by
  induction hs with
  | start timing config => nofun
  | step hs _ ih => exact hs.placed_step ih

theorem Reachable.resources_init {allowed : Session → Event → Prop} (hs : s.Reachable allowed)
    (swapchain : Swapchain) : (s.step (.init swapchain)).engine.resources = [] := by
  have hbare := (hs.tidy.vacated).bare s.engine.backbuffer_vacated
  change (s.engine.init swapchain).2.resources = []
  rcases s.engine.init_cases swapchain with ⟨_, d, -, hinit⟩ | ⟨b, d, -, hinit⟩ <;>
    rw [hinit, Assets.resources, hbare.textures, List.filterMap_nil]

/-- A texture that the table has after an event it had before, or it is a new one. -/
theorem Reachable.graded_of_new {allowed : Session → Event → Prop} (hs : s.Reachable allowed)
    {others : Multiset ObjectRef} (howns : s.engine.Owns others)
    (ht : t ∈ (s.step event).engine.resources) : t ∈ s.engine.resources ∨
      s.device.lastId < t.id ∧ (s.step event).device.Graded t fun _ ↦ s.Reopens event t := by
  rcases hloads : event.loads with _ | _
  · refine Or.inl ?_
    rwa [Assets.resources, (rests_step s hloads).textures] at ht
  · cases event with
    | init swapchain =>
      rw [hs.resources_init] at ht
      cases ht
    | reset | unloadAll => cases ht
    | unload index =>
      exact Or.inl (Engine.get?_unload howns ht).1
    | load m =>
      exact (Engine.graded_of_load hs.tables m ht).imp id fun h ↦
        ⟨h.1, h.2.imp fun _ hopens ↦ Or.inr ⟨rfl, hopens⟩⟩
    | reload index =>
      exact (Engine.graded_of_reload hs.tables ht).imp id fun h ↦
        ⟨h.1, h.2.imp fun _ hopens ↦ Or.inr ⟨rfl, hopens⟩⟩
    | _ => cases hloads

/-- A texture that the table had and has after an event of an aloof host. -/
theorem Levelled.graded_of_old (h : s.Levelled) {allowed : Session → Event → Prop}
    (hs : s.Reachable allowed) {others : Multiset ObjectRef} (howns : s.engine.Owns others)
    (hallowed : event.Aloof s) (hbefore : t ∈ s.engine.resources)
    (ht : t ∈ (s.step event).engine.resources) :
    (s.step event).device.Graded t fun c ↦ s.device.get? t = some c ∨ s.Reopens event t := by
  obtain ⟨c, hget, hlaid, hgrades⟩ := h.graded t hbefore
  have hsame (hget' : (s.step event).device.get? t = s.device.get? t) :
      (s.step event).device.Graded t fun c ↦ s.device.get? t = some c ∨ s.Reopens event t :=
    ⟨c, hget'.trans hget, hlaid, fun hformat ↦
      (hgrades hformat).imp id fun h ↦ ⟨h.1, Or.inl hget⟩⟩
  -- loading keeps a texture, or clears it through a new view
  have hkeeps (hevent : (event.activates s).isSome)
      (hkeeps : (s.step event).engine.Keeps s.device.lastId t c) :
      (s.step event).device.Graded t fun c ↦ s.device.get? t = some c ∨ s.Reopens event t := by
    refine (hkeeps.graded hlaid fun hformat ↦ (hgrades hformat).imp id And.left).imp ?_
    rintro c' (rfl | hopens)
    · exact Or.inr (Or.inl hget)
    · exact Or.inr (Or.inr ⟨hevent, hopens⟩)
  have hintact := Assets.intact_of_get? hs.tables.assets hget
  have hid : t.id ≤ s.device.lastId := hs.numbered.id_le hget
  cases event with
  | init swapchain =>
    rw [hs.resources_init] at ht
    cases ht
  | reset | unloadAll => cases ht
  | load m => exact hkeeps rfl (Engine.keeps_load hs.tables (Nat.le_refl _) hid hintact m)
  | reload index =>
    exact hkeeps rfl (Engine.keeps_reload hs.tables (Nat.le_refl _) hid hintact index)
  | unload index => exact hsame (Engine.get?_unload howns ht).2
  | upload name pixels =>
    exact (Engine.graded_upload hs.tables.assets howns (h.graded t hbefore) name pixels).imp
      fun _ hsame ↦ Or.inr (Or.inl hsame)
  | present tracker =>
    refine (Engine.graded_present hs.sound hs.tables howns hs.numbered (fun b hb ↦
      ⟨h.placed b hb, h.later b hb t hbefore⟩) (h.graded t hbefore) tracker).imp
      fun _ hsame ↦ Or.inr (Or.inl hsame)
  | writeUniforms index offset data =>
    refine hsame ?_
    change (s.engine.writeUniforms index offset data).2.device.get? t = s.device.get? t
    rcases s.engine.writeUniforms_cases index offset data with
      ⟨cause, hrun, -⟩ | ⟨effect, -, -, hrun⟩ <;> rw [hrun] <;> rfl
  | create kind content =>
    refine hsame ?_
    change (s.create kind content).engine.device.get? t = _
    rw [engine_create]
    exact Device.get?_create _ content hid
  | release refs =>
    obtain ⟨u, hu, o, howned, rfl⟩ := Assets.mem_resources.mp hbefore
    refine hsame ((Device.get?_release _ _ _).trans (if_neg fun hmem ↦ hallowed _ hmem ?_))
    rw [Engine.refs]
    exact List.mem_append_left _ (List.mem_append_right _
      (Engine.mem_loadedRefs_of_owned hu howned List.mem_cons_self))
  | issue c => exact hsame (Device.get?_issue_of_ne (hallowed t hbefore))
  | write u level data =>
    refine hsame (Device.get?_writeTexels_of_ne fun heq ↦ ?_)
    rw [Handle.ref_inj.mp heq] at hallowed
    exact hallowed hbefore
  | _ => exact hsame rfl

theorem Levelled.graded_step (h : s.Levelled) {allowed : Session → Event → Prop}
    (hs : s.Reachable allowed) {others : Multiset ObjectRef} (howns : s.engine.Owns others)
    (hallowed : event.Aloof s) (ht : t ∈ (s.step event).engine.resources) :
    (s.step event).device.Graded t fun c ↦ s.device.get? t = some c ∨ s.Reopens event t := by
  rcases hs.graded_of_new howns ht with hbefore | ⟨-, hgraded⟩
  · exact h.graded_of_old hs howns hallowed hbefore ht
  · exact hgraded.imp fun _ hopens ↦ Or.inr (Or.inr hopens)

/-- **An event of an aloof host keeps the levels.** -/
theorem Levelled.step (h : s.Levelled) {allowed : Session → Event → Prop}
    (hs : s.Reachable allowed) {others : Multiset ObjectRef} (howns : s.engine.Owns others)
    (hallowed : event.Aloof s) : (s.step event).Levelled := by
  have hgraded (t : Handle .texture) (ht : t ∈ (s.step event).engine.resources) :
      (s.step event).device.Graded t fun _ ↦ True :=
    (h.graded_step hs howns hallowed ht).imp fun _ _ ↦ Or.inr trivial
  refine ⟨hs.placed_step h.placed, ?_, hgraded⟩
  by_cases hinit : ∃ swapchain, event = .init swapchain
  · obtain ⟨swapchain, rfl⟩ := hinit
    intro b _ t ht
    rw [hs.resources_init] at ht
    cases ht
  · intro b hb t ht u hu
    have hbackbuffer : s.engine.backbuffer = some b :=
      backbuffer_of_step (fun swapchain h ↦ hinit ⟨swapchain, h⟩) hb
    rcases hs.graded_of_new howns ht with hbefore | ⟨hnew, -⟩
    · exact h.later b hbackbuffer t hbefore u hu
    · exact ((h.placed b hbackbuffer).surfaces u hu).trans_lt hnew

theorem Reachable.levelled (hs : s.Reachable Event.Aloof) :
    s.Levelled ∧ ∃ others, s.engine.Owns others := by
  obtain ⟨strays, howns, -⟩ := hs.owns fun _ _ h ↦ h.lawful
  refine ⟨?_, _, howns⟩
  clear howns strays
  induction hs with
  | start timing config => exact ⟨nofun, nofun, nofun⟩
  | step hs hallowed ih =>
    obtain ⟨strays, howns, -⟩ := hs.owns fun _ _ h ↦ h.lawful
    exact ih.step hs howns hallowed

/-- **The levels of a texture are those of its first one, unless a new view cleared that.** After
every event of every session whose host is aloof, a texture of an effect in an 8-bit format has each
level filtered from the one above, with one exception: the event created a view to draw into the
texture, or the texture is as it was before the event. Then the first level may be zeros, over
levels that are filtered among themselves. -/
theorem Reachable.filtered_or_blanked (hs : s.Reachable Event.Aloof) (hallowed : event.Aloof s)
    (ht : t ∈ (s.step event).engine.resources) :
    (s.step event).device.Graded t fun c ↦ s.device.get? t = some c ∨ s.Reopens event t := by
  obtain ⟨hlevelled, others, howns⟩ := hs.levelled
  exact hlevelled.graded_step hs howns hallowed ht

/-- An effect that draws into a texture of another one leaves it with levels of what it was, below
a first level that is cleared. -/
theorem blanked_small :
    let s := (small.step (.load (.single "show"
      [{ name := "canvas", width := 2, height := 2, levels := 2 }] [] []))).step
        (.upload "canvas" (Bytes.ofList (List.replicate 16 200)))
    let s' := s.step (.load (.single "paint" [] [] ["canvas"]))
    s.device.texels? ⟨10⟩ 1 = some (Bytes.ofList [200, 200, 200, 200]) ∧
      ∃ c : Texture, s'.device.get? (⟨10⟩ : Handle .texture) = some c ∧
        c.desc.format.is8BitUnorm ∧ 1 < c.desc.levels ∧ ¬c.Filtered ∧ c.Blanked ∧
        ∃ view, s'.engine.Opens s.device.lastId ⟨10⟩ view := by
  intro s s'
  have hs : s.Reachable Event.Aloof :=
    .step (.step (.step (.step (.start {} {}) trivial) trivial) trivial) trivial
  have hallowed : (Event.load (.single "paint" [] [] ["canvas"])).Aloof s := trivial
  have ht : (⟨10⟩ : Handle .texture) ∈ s'.engine.resources := by decide +kernel
  obtain ⟨c, hget, -, hgrades⟩ := Reachable.filtered_or_blanked hs hallowed ht
  have hcontent : ∀ c ∈ s'.device.get? (⟨10⟩ : Handle .texture),
      c.desc.format.is8BitUnorm ∧ 1 < c.desc.levels ∧
        c.mips = [Bytes.zeros 16, Bytes.ofList [200, 200, 200, 200]] ∧
        Bytes.ofList [200, 200, 200, 200] ≠ Mip.next c.desc 0 (Bytes.zeros 16) := by decide +kernel
  obtain ⟨hformat, hlevels, hmips, hnext⟩ := hcontent c hget
  have hstale : ¬c.Filtered := fun hfiltered ↦
    hnext (hfiltered 0 _ _ (Nat.le_refl 0) (by rw [hmips]; rfl) (by rw [hmips]; rfl))
  obtain ⟨hblanked, hreason⟩ := (hgrades hformat).resolve_left hstale
  refine ⟨by decide +kernel, c, hget, hformat, hlevels, hstale, hblanked, ?_⟩
  -- the first level was not zeros before
  refine (hreason.resolve_left fun hsame ↦ ?_).2
  have htexels : s.device.texels? ⟨10⟩ 0 = c.mips[0]? := by
    rw [Device.texels?, show s.device.get? ⟨10⟩ = some c from hsame]
    rfl
  rw [hmips] at htexels
  exact absurd htexels (by decide +kernel)

end Session

end EffectChain
