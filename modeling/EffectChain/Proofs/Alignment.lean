import EffectChain.Proofs.Edits
import EffectChain.Proofs.Ownership.Session
import EffectChain.Proofs.Ownership.Vacancy
import EffectChain.Proofs.Texels

/-!
# Textures of a swapchain

Copies and resolves do nothing between textures of different layouts, and say nothing about it. That
those of a frame always do something rests on the swapchain describing its buffer
(`Swapchain.Describes`): then the buffer, the scene target and the copy of the scene have one level
of the same size (`Backbuffer.Aligned`), whatever the format and the samples of the buffer are. No
edit of a texture changes that, so it holds for as long as the swapchain is there
(`Session.Reachable.aligned`).

The host of such a session is asked for a little more than a lawful one: it must not release the
buffer while the engine draws into it (`Event.Faithful`).
-/

namespace EffectChain

/-! ## Created for a swapchain -/

/-- A texture of one level as large as the swapchain. -/
def Swapchain.textureDesc (s : Swapchain) (usage : TextureUsage) : TextureDesc :=
  { width := s.width, height := s.height, format := s.format.typeless, usage }

theorem single_of_make {desc : TextureDesc} {c : Texture} (hlevels : desc.levels = 1)
    (h : Texture.make desc = .ok c) : c.Single (Mip.byteSize desc 0) := by
  have hone : (if desc.levels = 0 then desc.fullLevels else desc.levels.toNat) = 1 := by
    rw [hlevels]
    rfl
  rw [Texture.make, hone] at h
  repeat' split at h
  all_goals cases h
  exact congrArg (fun n ↦ [n]) (Bytes.size_zeros _)

namespace Device

variable {d d' : Device}

theorem Spared.trans {d₁ d₂ d₃ : Device} (h₁₂ : d₁.Spared d₂) (h₂₃ : d₂.Spared d₃) :
    d₁.Spared d₃ where
  lastId_le := h₁₂.lastId_le.trans h₂₃.lastId_le
  get? hid := (h₂₃.get? (hid.trans h₁₂.lastId_le)).trans (h₁₂.get? hid)

theorem spared_of_create {kind : ObjectKind} {content : Device → Except DeviceError kind.Content}
    {h : Handle kind} (run : create kind content d = (.ok h, d')) :
    d.Spared d' ∧ d.lastId < h.id := by
  have hspares : d.Spares (create kind content) fun h ↦ d.lastId < h.id := Spares.create
  obtain ⟨hspared, hlater⟩ := hspares d (Spared.refl d)
  rw [run] at hspared hlater
  exact ⟨hspared, hlater h rfl⟩

theorem Holds.spared {t : Handle .texture} {n : Nat} (h : d.Holds t n) (hd : d.Spared d') :
    d'.Holds t n where
  id_le := h.id_le.trans hd.lastId_le
  single c hc := h.single c ((hd.get? h.id_le).symm.trans hc)

theorem holds_of_createTexture {desc : TextureDesc} {t : Handle .texture}
    (hlevels : desc.levels = 1) (run : createTexture desc d = (.ok t, d')) :
    d'.Holds t (Mip.byteSize desc 0) := by
  obtain ⟨refusals, c, hmake, hget, hmade⟩ := made_of_create run
  refine ⟨hmade.id_le, fun c' hc' ↦ ?_⟩
  cases hget.symm.trans hc'
  exact single_of_make hlevels hmake

theorem made_of_createDepthStencilView {t : Handle .texture} {v : Handle .depthStencilView}
    (run : createDepthStencilView t d = (.ok v, d')) : d'.Made v t := by
  obtain ⟨refusals, c, hc, -, hmade⟩ := made_of_create run
  split at hc
  · cases hc
  · split at hc <;> cases hc
    exact hmade

end Device

namespace Backbuffer

theorem spared_of_createVariants {kind : ObjectKind} {α : Type} {format : Format}
    {content : Format → Device → Except DeviceError kind.Content} {wrap : DeviceError → EngineError}
    {rest : Variants (Handle kind) → Creation α} {d d' : Device} {x : α}
    (run : createVariants format (fun f ↦ (Device.create kind (content f)).named wrap) rest d
      = (.ok x, d')) :
    ∃ v d₁ d₂, Device.create kind (content format.linear) d = (.ok v.linear, d₁) ∧ d₁.Spared d₂ ∧
      d.Evolves d₂ ∧ rest v d₂ = (.ok x, d') := by
  rw [createVariants] at run
  obtain ⟨linear, d₁, hlinear, run⟩ := bind_eq_ok run
  have hevolves : d.Evolves d₁ := Device.Evolves.create.run (named_eq_ok hlinear)
  have run := keeping_eq_ok run
  split at run
  · exact ⟨_, d₁, d₁, named_eq_ok hlinear, Device.Spared.refl d₁, hevolves, run⟩
  · obtain ⟨gamma, d₂, hgamma, run⟩ := bind_eq_ok run
    exact ⟨_, d₁, d₂, named_eq_ok hlinear, (Device.spared_of_create (named_eq_ok hgamma)).1,
      hevolves.trans (Device.Evolves.create.run (named_eq_ok hgamma)), keeping_eq_ok run⟩

/-- A view to draw into a texture is created only if the texture is there. -/
theorem id_le_of_createRenderTargetView {t : Handle .texture} {format : Format}
    {view : Handle .renderTargetView} {d d' : Device} (hd : d.Numbered)
    (run : Device.createRenderTargetView t format d = (.ok view, d')) : t.id ≤ d.lastId := by
  obtain ⟨refusals, content, hcontent, -, -⟩ := Device.create_eq_ok run
  rcases hget : d.get? t with _ | c
  · rw [Device.viewable, show Device.get? { d with refusals } t = none from hget] at hcontent
    cases hcontent
  · exact hd.id_le hget

/-- The textures that are created for a swapchain, and the view of the stencil surface. -/
theorem textures_of_create {s : Swapchain} {b : Backbuffer} {d d' : Device}
    (run : create s d = (.ok b, d')) :
    ∃ d₁ d₂ d₃ d₄,
      (Device.createTexture (s.textureDesc .targetOnly) d = (.ok b.resolved, d₁) ∨
        b.resolved = s.buffer ∧ d₁ = d) ∧
      Device.createTexture (s.textureDesc .readOnly) d₁ = (.ok b.copy, d₂) ∧ d₂.Spared d₃ ∧
      (d.Numbered → b.resolved.id ≤ d₃.lastId) ∧
      Device.createTexture ⟨s.width, s.height, 1, .d24UnormS8Uint, 1, .stencilOnly⟩ d₃
        = (.ok b.stencil, d₄) ∧
      Device.createDepthStencilView b.stencil d₄ = (.ok b.stencilView, d') := by
  rw [create] at run
  obtain ⟨resolved, d₁, run, htarget⟩ := createResolved_eq_ok run
  have hresolved : Device.createTexture (s.textureDesc .targetOnly) d = (.ok resolved, d₁) ∨
      resolved = s.buffer ∧ d₁ = d := htarget.imp And.right And.right
  obtain ⟨copy, d₂, hcopy, run⟩ := bind_eq_ok run
  obtain ⟨views, d₃, d₄, hview, hviews, hevolves, run⟩ :=
    spared_of_createVariants (keeping_eq_ok run)
  obtain ⟨targets, d₅, d₆, htarget, htargets, -, run⟩ := spared_of_createVariants run
  obtain ⟨stencil, d₇, hstencil, run⟩ := bind_eq_ok run
  obtain ⟨stencilView, d₈, hstencilView, run⟩ := bind_eq_ok (keeping_eq_ok run)
  cases run
  -- what is created in between are views, and the textures stay as they are
  have hviewed := (Device.spared_of_create hview).1.trans hviews
  have hdrawn := (Device.spared_of_create htarget).1.trans htargets
  refine ⟨d₁, d₂, d₆, d₇, hresolved, named_eq_ok hcopy, hviewed.trans hdrawn, fun hd ↦ ?_,
    named_eq_ok hstencil, named_eq_ok hstencilView⟩
  have hnumbered₁ : d₁.Numbered := by
    rcases hresolved with hcreated | ⟨-, rfl⟩
    · exact (Device.Evolves.create.run hcreated).numbered hd
    · exact hd
  have hnumbered₂ : d₂.Numbered :=
    (Device.Evolves.create.run (named_eq_ok hcopy)).numbered hnumbered₁
  exact (id_le_of_createRenderTargetView (hevolves.numbered hnumbered₂) htarget).trans
    hdrawn.lastId_le

end Backbuffer

/-! ## Alignment -/

/-- The swapchain describes its buffer, a live texture of one level. -/
def Swapchain.Describes (s : Swapchain) (d : Device) : Prop :=
  ∃ c : Texture, d.get? s.buffer = some c ∧ c.desc.width = s.width ∧ c.desc.height = s.height ∧
    c.desc.format = s.format ∧ c.desc.sampleCount = s.sampleCount ∧ c.Single (Mip.byteSize c.desc 0)

/-- The buffer, the scene target and the copy are laid out alike, and the copy is none of the
others. -/
structure Backbuffer.Aligned (d : Device) (b : Backbuffer) : Prop where
  /-- They have one level of the same size. -/
  holds : ∃ n, d.Holds b.buffer n ∧ d.Holds b.resolved n ∧ d.Holds b.copy n
  /-- The copy is not the scene target. -/
  copy_ne : b.copy ≠ b.resolved
  /-- The copy is not behind the view of the stencil surface. -/
  stencil : b.stencil ≠ b.copy ∧ d.Made b.stencilView b.stencil

namespace Backbuffer

variable {d d' : Device} {b : Backbuffer}

theorem Aligned.works {ok : Command → Prop} (h : b.Aligned d) (hworks : d.Works ok d') :
    b.Aligned d' where
  holds := by
    obtain ⟨n, hbuffer, hresolved, hcopy⟩ := h.holds
    exact ⟨n, hbuffer.works hworks, hresolved.works hworks, hcopy.works hworks⟩
  copy_ne := h.copy_ne
  stencil := ⟨h.stencil.1, h.stencil.2.evolves hworks.evolves⟩

/-- What is created for a swapchain that describes its buffer is aligned with it. -/
theorem aligned_of_create {s : Swapchain} (hs : s.Describes d) (hd : d.Numbered)
    (run : create s d = (.ok b, d')) : b.Aligned d' := by
  obtain ⟨c, hget, hwidth, hheight, hformat, -, hsingle⟩ := hs
  obtain ⟨d₁, d₂, d₃, d₄, hresolved, hcopy, hviews, -, hstencil, hstencilView⟩ :=
    textures_of_create run
  obtain ⟨hbuffer, -⟩ := create_eq_ok run
  have hid : s.buffer.id ≤ d.lastId := hd.id_le hget
  -- a texture as large as the swapchain is as large as the buffer
  have hsize (usage : TextureUsage) :
      Mip.byteSize (s.textureDesc usage) 0 = Mip.byteSize c.desc 0 := by
    rw [Mip.byteSize, Mip.byteSize, Swapchain.textureDesc, Format.bytesPerTexel_typeless, hwidth,
      hheight, hformat]
  have hheld : d.Holds s.buffer (Mip.byteSize c.desc 0) := by
    refine ⟨hid, fun c' hc' ↦ ?_⟩
    cases hget.symm.trans hc'
    exact hsingle
  obtain ⟨hspared₁, hresolvedHeld⟩ :
      d.Spared d₁ ∧ d₁.Holds b.resolved (Mip.byteSize c.desc 0) := by
    rcases hresolved with hcreated | ⟨heq, rfl⟩
    · exact ⟨(Device.spared_of_create hcreated).1,
        hsize .targetOnly ▸ Device.holds_of_createTexture rfl hcreated⟩
    · exact ⟨Device.Spared.refl _, heq ▸ hheld⟩
  obtain ⟨hspared₂, hcopyLater⟩ := Device.spared_of_create hcopy
  obtain ⟨hspared₄, hstencilLater⟩ := Device.spared_of_create hstencil
  have hspared₅ := (Device.spared_of_create hstencilView).1
  have hcopyHeld : d₂.Holds b.copy (Mip.byteSize c.desc 0) :=
    hsize .readOnly ▸ Device.holds_of_createTexture rfl hcopy
  have hrest := (hviews.trans hspared₄).trans hspared₅
  have hall := hspared₁.trans (hspared₂.trans hrest)
  refine ⟨⟨Mip.byteSize c.desc 0, ?_, ?_, hcopyHeld.spared hrest⟩, ?_, ?_,
    Device.made_of_createDepthStencilView hstencilView⟩
  · exact hbuffer ▸ hheld.spared hall
  · exact hresolvedHeld.spared (hspared₂.trans hrest)
  · rintro heq
    have hle := hresolvedHeld.id_le
    rw [heq] at hcopyLater
    omega
  · rintro heq
    have hle := hcopyHeld.id_le.trans hviews.lastId_le
    rw [heq] at hstencilLater
    omega

end Backbuffer

/-! ## Sessions -/

/-- The host leaves the engine its objects and a swapchain its buffer, and a swapchain that it
prepares for describes its buffer at the time the engine uses it. -/
def Event.Faithful (s : Session) : Event → Prop
  | .init swapchain => swapchain.Describes s.engine.vacated.device
  | .release refs =>
    (∀ r ∈ refs, r ∉ s.engine.refs) ∧ ∀ b, s.engine.backbuffer = some b → b.buffer.ref ∉ refs
  | _ => True

namespace Session

variable {s : Session}

theorem backbuffer_of_step {event : Event} (hinit : ∀ swapchain, event ≠ .init swapchain)
    {b : Backbuffer} (hb : (s.step event).engine.backbuffer = some b) :
    s.engine.backbuffer = some b := by
  rcases hloads : event.loads with _ | _
  · exact (rests_step s hloads).backbuffer.symm.trans hb
  · cases event with
    | init swapchain => exact absurd rfl (hinit swapchain)
    | reset => cases hb
    | load m =>
      change (s.engine.load m).2.backbuffer = some b at hb
      rcases s.engine.load_cases m with ⟨-, hrun⟩ | ⟨-, hrun⟩ <;> rw [hrun] at hb
      · exact hb
      · exact (Engine.depth_activate (s.engine.register m.reserveSlots) _).2.symm.trans hb
    | reload index =>
      change (s.engine.reload index).2.backbuffer = some b at hb
      rcases s.engine.reload_cases index with ⟨-, hrun⟩ | ⟨effect, -, hrun⟩ <;> rw [hrun] at hb
      · exact hb
      · exact (Engine.depth_activate { s.engine.deactivate index with textures := _ }
          index).2.symm.trans hb
    | unload index =>
      change (s.engine.unload index).2.backbuffer = some b at hb
      rcases s.engine.unload_cases index with ⟨-, hrun⟩ | ⟨effect, -, hrun⟩ <;>
        rw [hrun] at hb <;> exact hb
    | unloadAll => exact hb
    | _ => cases hloads

theorem mem_host_step {event : Event} {r : ObjectRef} (hr : r ∈ s.host)
    (hrelease : ∀ refs, event = .release refs → r ∉ refs) : r ∈ (s.step event).host := by
  cases event with
  | release refs => exact List.mem_filter.mpr ⟨hr, by simpa using hrelease refs rfl⟩
  | create kind content =>
    change r ∈ (s.create kind content).host
    rw [Session.create]
    split
    · exact List.mem_cons_of_mem _ hr
    · exact hr
  | _ => exact hr

/-- What there is when the objects for a new swapchain are created. -/
theorem Reachable.vacated {allowed : Session → Event → Prop} (hs : s.Reachable allowed) :
    s.engine.vacated.device.Numbered ∧ s.engine.vacated.device.lastId = s.device.lastId ∧
      s.engine.vacated.refs = [] ∧
      ∀ others, s.engine.Owns others → s.engine.vacated.Owns others := by
  have hbare := (hs.tidy.vacated).bare s.engine.backbuffer_vacated
  have hworks : s.device.Works (fun _ ↦ False) s.engine.reset.device := s.engine.works_reset
  refine ⟨?_, ?_, hbare.refs_eq_nil s.engine.backbuffer_vacated, fun others h ↦ ?_⟩
  · exact Engine.vacated_induction (P := fun e ↦ e.device.Numbered) hs.numbered
      (hworks.evolves.numbered hs.numbered)
  · exact Engine.vacated_induction (P := fun e ↦ e.device.lastId = s.device.lastId) rfl
      s.engine.lastId_reset
  · exact Engine.vacated_induction (P := fun e ↦ e.Owns others) h h.reset

/-- A faithful host does not name as buffer what the device creates next. -/
theorem Reachable.expected (hs : s.Reachable Event.Faithful) :
    s.Reachable fun s event ↦ event.Lawful s ∧ event.Expected s := by
  induction hs with
  | start timing config => exact .start timing config
  | @step s event _ hallowed ih =>
    refine .step ih ⟨?_, ?_⟩
    · cases event with
      | release refs => exact hallowed.1
      | _ => trivial
    · cases event with
      | init swapchain =>
        obtain ⟨c, hget, -⟩ := (hallowed : swapchain.Describes s.engine.vacated.device)
        obtain ⟨hnumbered, hlast, -⟩ := ih.vacated
        intro _ hnext
        have hle := hnumbered.id_le hget
        rw [hlast, hnext] at hle
        exact Nat.not_succ_le_self _ hle
      | _ => trivial

theorem Reachable.owns_host (hs : s.Reachable Event.Faithful) : s.engine.Owns ↑s.host := by
  obtain ⟨strays, howns, hnone⟩ := hs.expected.owns fun _ _ h ↦ h.1
  rwa [hnone fun _ _ h ↦ h.2, add_zero] at howns

/-- What was made for a swapchain is aligned with its buffer, which the host holds. -/
theorem Reachable.aligned (hs : s.Reachable Event.Faithful) {b : Backbuffer}
    (hb : s.engine.backbuffer = some b) : b.Aligned s.device ∧ b.buffer.ref ∈ s.host := by
  induction hs generalizing b with
  | start timing config => cases hb
  | @step s event hreach hallowed ih =>
    by_cases hinit : ∃ swapchain, event = .init swapchain
    · obtain ⟨swapchain, rfl⟩ := hinit
      obtain ⟨hnumbered, -, hrefs, howns⟩ := hreach.vacated
      change (s.engine.init swapchain).2.backbuffer = some b at hb
      change b.Aligned (s.engine.init swapchain).2.device ∧ b.buffer.ref ∈ s.host
      rcases s.engine.init_cases swapchain with ⟨cause, d, -, heq⟩ | ⟨b', d, hrun, heq⟩ <;>
        rw [heq] at hb ⊢
      · cases s.engine.backbuffer_vacated.symm.trans hb
      · cases hb
        refine ⟨Backbuffer.aligned_of_create hallowed hnumbered hrun, ?_⟩
        -- all that is alive in between is the host's
        obtain ⟨c, hget, -⟩ := (hallowed : swapchain.Describes s.engine.vacated.device)
        have hlive := Device.mem_live_of_get? hget
        have hheld := (Device.Owns.mem_live (howns _ hreach.owns_host)).mp hlive
        rw [hrefs, (Backbuffer.create_eq_ok hrun).1.symm] at hheld
        simpa using hheld
    · have hbefore := backbuffer_of_step (fun swapchain h ↦ hinit ⟨swapchain, h⟩) hb
      obtain ⟨haligned, hhost⟩ := ih hbefore
      refine ⟨haligned.works (s.works_step event), mem_host_step hhost ?_⟩
      rintro refs rfl
      exact hallowed.2 b hbefore

end Session

instance (n : Nat) (c : Texture) : Decidable (c.Single n) :=
  inferInstanceAs (Decidable (c.sizes = [n]))

theorem Session.faithful_small : small.Reachable Event.Faithful := by
  refine .step (.step (.start {} {}) trivial) ?_
  let s := (start {} {}).step (.create .texture fun _ ↦ Texture.make
    { width := 4, height := 4, format := .rgba8Unorm, sampleCount := 4, usage := .targetOnly })
  obtain ⟨c, hget⟩ : ∃ c, s.engine.vacated.device.get? smallSwapchain.buffer = some c :=
    Option.isSome_iff_exists.mp (by decide +kernel)
  have hdescribes : ∀ c ∈ s.engine.vacated.device.get? smallSwapchain.buffer,
      c.desc.width = smallSwapchain.width ∧ c.desc.height = smallSwapchain.height ∧
        c.desc.format = smallSwapchain.format ∧ c.desc.sampleCount = smallSwapchain.sampleCount ∧
        c.Single (Mip.byteSize c.desc 0) := by decide +kernel
  exact ⟨c, hget, hdescribes c hget⟩

end EffectChain
