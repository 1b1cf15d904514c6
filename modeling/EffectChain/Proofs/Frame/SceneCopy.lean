import EffectChain.Proofs.Alignment
import EffectChain.Proofs.Frame.Stages

/-!
# The copy of the scene

Effects draw into the scene target and read a copy of it. A frame copies the scene once before the
first pass, again at the start of every pass, and once more at the end. So a pass reads what the
pass before it left, with whatever that one cleared, and nothing of what it does itself
(`Session.Reachable.commits`).

Between the copy at the start of a pass and its draw only the stencil surface and the targets are
touched, and no target is a view of the copy, since targets are views of the scene target or of
textures of the table.
-/

namespace EffectChain

/-! ## What a pass reads -/

/-- Between commands that do not draw there is one place for a draw. -/
theorem eq_of_append_draw {l₁ l₂ pre post : List Command} {n m : UInt32}
    (h₁ : ∀ c ∈ l₁, c.isDraw = false) (h₂ : ∀ c ∈ l₂, c.isDraw = false)
    (h : l₁ ++ .draw n :: l₂ = pre ++ .draw m :: post) : pre = l₁ := by
  rcases List.append_eq_append_iff.mp h with ⟨between, rfl, hrest⟩ | ⟨between, rfl, hrest⟩
  · cases between with
    | nil => simp
    | cons c between =>
      have hmem : Command.draw m ∈ l₂ := by
        rw [(List.cons.inj hrest).2]
        simp
      exact absurd (h₂ _ hmem) (by simp [Command.isDraw])
  · cases between with
    | nil => simp
    | cons c between =>
      have hmem : Command.draw m ∈ pre ++ c :: between := by
        rw [← (List.cons.inj hrest).1]
        simp
      exact absurd (h₁ _ hmem) (by simp [Command.isDraw])

namespace Stage

variable {b : Backbuffer} {depthView : Option (Handle .shaderView)} {d : Device} {n : Nat}

/-- The commands of a stage ahead of the copy of the scene, which touch no texture. -/
def beforeCopy (x : Stage) : List Command :=
  x.setup ++ [.setShaders x.record.vertexShader x.record.pixelShader,
    .setBlendState x.record.blend,
    .setDepthStencilState x.record.depthStencil x.record.stencilReference]

/-- The commands of a stage from the copy of the scene to the draw. -/
def beforeDraw (b : Backbuffer) (depthView : Option (Handle .shaderView)) (x : Stage) :
    List Command :=
  [.setShaderResources (x.record.boundViews b depthView)]
  ++ (if x.clearsStencil then [.clearStencil b.stencilView 0] else [])
  ++ [.setRenderTargets x.record.targetSlots
    (if x.record.usesStencil b then some b.stencilView else none)]
  ++ (if x.record.clearsTargets then
    x.record.targets.map fun t ↦ .clearRenderTarget t .transparent else [])
  ++ [.setViewport x.record.viewport.1 x.record.viewport.2]

variable (b depthView) in
theorem commands_eq (x : Stage) : ∃ rest, (∀ c ∈ rest, c.isDraw = false) ∧
    x.commands b depthView = x.beforeCopy ++ .copyResource b.copy b.resolved ::
      x.beforeDraw b depthView ++ .draw x.record.vertexCount :: rest := by
  refine ⟨.setRenderTargets (List.replicate maxRenderTargets none) none ::
    .setShaderResources ((x.record.boundViews b depthView).map fun _ ↦ none) ::
      x.record.mipViews.map .generateMips, ?_, ?_⟩
  · simp [Command.isDraw]
  · rw [commands, PassRecord.commands, beforeCopy, beforeDraw]
    simp only [List.append_assoc, List.cons_append, List.nil_append]

theorem not_isDraw_beforeCopy {x : Stage} (hsetup : ∀ c ∈ x.setup, c.isSetup) :
    ∀ c ∈ x.beforeCopy, c.isDraw = false := by
  rw [beforeCopy, List.forall_mem_append]
  exact ⟨fun c hc ↦ Command.not_isDraw_of_isSetup (hsetup c hc), by simp [Command.isDraw]⟩

theorem not_isDraw_beforeDraw (x : Stage) :
    ∀ c ∈ x.beforeDraw b depthView, c.isDraw = false := by
  rw [beforeDraw]
  simp only [List.forall_mem_append, List.forall_mem_singleton]
  refine ⟨⟨⟨⟨rfl, ?_⟩, rfl⟩, ?_⟩, rfl⟩
  · split
    · exact List.forall_mem_singleton.mpr rfl
    · exact nofun
  · split
    · exact List.forall_mem_map.mpr fun _ _ ↦ rfl
    · exact nofun

variable (depthView) in
theorem touched?_beforeDraw {x : Stage} (haligned : b.Aligned d)
    (htargets : ∀ view ∈ x.record.targets, ∀ u, d.targetTexture? view = some u → u ≠ b.copy) :
    ∀ c ∈ x.beforeDraw b depthView, c.touched? d ≠ some b.copy.ref := by
  have hstencil : (Command.clearStencil b.stencilView 0).touched? d ≠ some b.copy.ref := by
    intro h
    obtain ⟨t, ht, hcopy⟩ := Option.map_eq_some_iff.mp h
    have hview : t = b.stencil := haligned.stencil.2.alike ht
    exact haligned.stencil.1 (hview ▸ Handle.ref_inj.mp hcopy)
  have hclear : ∀ view ∈ x.record.targets,
      (Command.clearRenderTarget view .transparent).touched? d ≠ some b.copy.ref := by
    intro view hview h
    obtain ⟨u, hu, hcopy⟩ := Option.map_eq_some_iff.mp h
    exact htargets view hview u hu (Handle.ref_inj.mp hcopy)
  rw [beforeDraw]
  simp only [List.forall_mem_append, List.forall_mem_singleton]
  refine ⟨⟨⟨⟨nofun, ?_⟩, nofun⟩, ?_⟩, nofun⟩
  · split
    · exact List.forall_mem_singleton.mpr hstencil
    · exact nofun
  · split
    · exact List.forall_mem_map.mpr hclear
    · exact nofun

/-- **A pass reads the scene as it was before its stage.** -/
theorem mips?_at_draw {x : Stage} (haligned : b.Aligned d) (hresolved : d.HasSingle b.resolved n)
    (hcopy : d.HasSingle b.copy n) (hsetup : ∀ c ∈ x.setup, c.isSetup)
    (htargets : ∀ view ∈ x.record.targets, ∀ u, d.targetTexture? view = some u → u ≠ b.copy)
    {pre post : List Command} {m : UInt32}
    (hsplit : x.commands b depthView = pre ++ .draw m :: post) :
    (d.issueAll pre).mips? b.copy = d.mips? b.resolved := by
  obtain ⟨rest, hrest, hcommands⟩ := x.commands_eq b depthView
  obtain rfl : pre = x.beforeCopy ++ .copyResource b.copy b.resolved ::
      x.beforeDraw b depthView := by
    refine eq_of_append_draw ?_ hrest (hcommands.symm.trans hsplit)
    exact List.forall_mem_append.mpr ⟨not_isDraw_beforeCopy hsetup,
      List.forall_mem_cons.mpr ⟨rfl, x.not_isDraw_beforeDraw⟩⟩
  have hbefore : ∀ c ∈ x.beforeCopy, c.touched? d ≠ some b.resolved.ref := by
    rw [beforeCopy, List.forall_mem_append]
    exact ⟨fun c hc ↦ Command.touched?_of_isSetup (hsetup c hc) d _, by simp [Command.touched?]⟩
  have hafter := touched?_beforeDraw depthView haligned htargets
  calc (d.issueAll (x.beforeCopy ++ .copyResource b.copy b.resolved ::
          x.beforeDraw b depthView)).mips? b.copy
      = (((d.issueAll x.beforeCopy).issue (.copyResource b.copy b.resolved)).issueAll
          (x.beforeDraw b depthView)).mips? b.copy := by
        rw [Device.issueAll_append]
        rfl
    _ = ((d.issueAll x.beforeCopy).issue (.copyResource b.copy b.resolved)).mips? b.copy := by
        refine Device.mips?_issueAll_of_ne fun c hc ↦ ?_
        rw [Device.touched?_issue, Device.touched?_issueAll]
        exact hafter c hc
    _ = (d.issueAll x.beforeCopy).mips? b.resolved :=
        Device.mips?_copyResource (hcopy.issueAll _) (hresolved.issueAll _)
    _ = d.mips? b.resolved := Device.mips?_issueAll_of_ne hbefore

end Stage

/-! ## Frames -/

theorem Engine.target_ne_copy {e : Engine} {others : Multiset ObjectRef} (h : e.Sound)
    (htables : e.Tables) (howns : e.Owns others) {b : Backbuffer} (hb : e.backbuffer = some b)
    (haligned : b.Aligned e.device) {r : PassRecord} (hr : r ∈ e.framePasses)
    {view : Handle .renderTargetView} (hview : view ∈ r.targets) {d : Device}
    (hd : e.device.Evolves d) : ∀ u, d.targetTexture? view = some u → u ≠ b.copy := by
  obtain ⟨t, ht, state, hstate, hpasses⟩ := mem_framePasses hr
  obtain ⟨b', objects, hb', -, hsound⟩ := h.techniques t ht state hstate
  cases hb.symm.trans hb'
  obtain ⟨p, -, hpass⟩ := exists_of_forall₂_right hsound.passes hpasses
  obtain ⟨hid, htexture⟩ := hpass.target_texture htables.assets (h.backbuffer b hb) hview
  intro u hu
  rcases htexture u (hd.targetTexture? hid hu) with rfl | ⟨entry, hentry, o, howned, rfl⟩
  · exact haligned.copy_ne.symm
  · have hcopy : b.copy.ref ∈ b.refs := by simp [Backbuffer.refs]
    refine fun heq ↦ howns.disjoint hb hcopy ?_
    rw [← heq]
    exact mem_loadedRefs_of_owned hentry howned List.mem_cons_self

/-- The opening of a frame leaves what the buffer of the swapchain holds in the scene target. -/
theorem Backbuffer.mips?_opening {b : Backbuffer} {d : Device} {n : Nat} (hne : b.copy ≠ b.resolved)
    (hbuffer : d.HasSingle b.buffer n) (hresolved : d.HasSingle b.resolved n) :
    (d.issueAll b.opening).mips? b.resolved = d.mips? b.buffer := by
  -- the copy that comes after the resolve does not change the scene target
  have hcopied : ∀ c ∈ [Command.setRenderTargets [some b.targets.linear] none,
      .copyResource b.copy b.resolved], ∀ d : Device, c.touched? d ≠ some b.resolved.ref := by
    simp [Command.touched?, Handle.ref_inj, hne]
  rw [opening, Device.issueAll_append, Device.mips?_issueAll_of_ne fun c hc ↦ hcopied c hc _]
  split
  · exact Device.mips?_resolve hresolved hbuffer b.format
  · rename_i hsame
    rw [show b.resolved = b.buffer by simpa [needsResolve] using hsame]
    rfl

/-- A frame commits the scene pass by pass: it is a device on which the scene depth was selected, an
opening, the stages of the passes that run, and a last copy, such that what shaders read is what the
scene target held at the end of the pass before. -/
structure Engine.Commits (e : Engine) (b : Backbuffer) (tracker : DepthTracker) (d : Device)
    (depthView : Option (Handle .shaderView)) (stages : List Stage) (rest : List Command) :
    Prop where
  /-- Selecting the scene depth changes no texture. -/
  selected : ∀ (t : Handle .texture) c, e.device.get? t = some c → d.get? t = some c
  /-- What is issued. -/
  device : (e.present tracker).device = d.issueAll (b.opening
    ++ stages.flatMap (Stage.commands b depthView) ++ rest ++ [.copyResource b.copy b.resolved])
  /-- There is one stage for every pass that runs, in order. -/
  records : stages.map (·.record) = e.framePasses
  /-- Before the first pass the scene target holds the application's frame. -/
  opened : (d.issueAll b.opening).mips? b.resolved = e.device.mips? b.buffer
  /-- At the draw of a pass the copy holds what the scene target held when the pass before was
  finished, or before the first pass. -/
  drawn : ∀ before x after, stages = before ++ x :: after → ∀ pre vertices post,
    x.commands b depthView = pre ++ .draw vertices :: post →
      ((d.issueAll (b.opening ++ before.flatMap (Stage.commands b depthView))).issueAll pre).mips?
          b.copy
        = (d.issueAll (b.opening ++ before.flatMap (Stage.commands b depthView))).mips? b.resolved
  /-- At the end the copy holds what the scene target holds. -/
  closed : (e.present tracker).device.mips? b.copy = (e.present tracker).device.mips? b.resolved
  /-- The buffer, the scene target and the copy are alive. -/
  alive : ∀ t ∈ [b.buffer, b.resolved, b.copy], ((e.present tracker).device.mips? t).isSome

/-- A frame of an engine whose backbuffer is aligned commits the scene. -/
theorem Engine.exists_commits {e : Engine} {others : Multiset ObjectRef} (h : e.Sound)
    (htables : e.Tables) (howns : e.Owns others) (hnumbered : e.device.Numbered) {b : Backbuffer}
    (hb : e.backbuffer = some b) (haligned : b.Aligned e.device)
    (hbuffer : b.buffer.ref ∈ e.device.live) (tracker : DepthTracker) :
    ∃ d depthView stages rest, e.Commits b tracker d depthView stages rest := by
  obtain ⟨n, hbufferHolds, hresolvedHolds, hcopyHolds⟩ := haligned.holds
  have hlive := howns.backbufferLive hb hbuffer
  obtain ⟨stages, rest, hrecords, hsetup, -, hdevice⟩ := exists_stages hb tracker
  have hselected (t : Handle .texture) (c : Texture) (hc : e.device.get? t = some c) :
      (e.pointed b tracker).2.get? t = some c := get?_pointed hnumbered b tracker (by decide) hc
  have hworks : e.device.Works (fun _ ↦ True) (e.pointed b tracker).2 :=
    e.depth.works_point _ e.device
  -- what is alive has one level, and keeps it
  have hsingle {t : Handle .texture} (ht : t.ref ∈ e.device.live) (hholds : e.device.Holds t n) :
      (e.pointed b tracker).2.HasSingle t n := by
    obtain ⟨c, hc⟩ := Device.get?_of_mem_live ht
    exact ⟨c, hselected t c hc, hholds.single c hc⟩
  have hbufferSingle := hsingle hbuffer hbufferHolds
  have hresolvedSingle := hsingle hlive.resolved hresolvedHolds
  have hcopySingle := hsingle (hlive.refs _ (by simp [Backbuffer.refs])) hcopyHolds
  refine ⟨_, _, stages, rest, ⟨hselected, hdevice, hrecords, ?_, ?_, ?_, ?_⟩⟩
  · obtain ⟨c, hc⟩ := Device.get?_of_mem_live hbuffer
    rw [Backbuffer.mips?_opening haligned.copy_ne hbufferSingle hresolvedSingle, Device.mips?,
      hselected _ c hc, Device.mips?, show e.device.get? b.buffer = some c from hc]
  · intro before x after hsplit pre vertices post hdraw
    have hx : x ∈ stages := by simp [hsplit]
    have hrecord : x.record ∈ e.framePasses := hrecords ▸ List.mem_map_of_mem hx
    refine x.mips?_at_draw
      (haligned.works (hworks.trans (Device.Works.issueAll _ fun _ _ ↦ trivial)))
      (hresolvedSingle.issueAll _) (hcopySingle.issueAll _) (hsetup x hx)
      (fun view hview ↦ target_ne_copy h htables howns hb haligned hrecord hview ?_) hdraw
    exact hworks.evolves.trans (Device.Evolves.issueAll _ _)
  · rw [hdevice, Device.issueAll_append _ _ [_]]
    refine (Device.mips?_copyResource (hcopySingle.issueAll _) (hresolvedSingle.issueAll _)).trans
      (Device.mips?_issueAll_of_ne ?_).symm
    simp [Command.touched?, Handle.ref_inj, haligned.copy_ne]
  · have hsome {t : Handle .texture} (ht : (e.pointed b tracker).2.HasSingle t n) :
        ((e.present tracker).device.mips? t).isSome := by
      rw [hdevice]
      obtain ⟨c, hc, -⟩ := ht.issueAll _
      rw [Device.mips?, hc]
      rfl
    simp only [List.forall_mem_cons]
    exact ⟨hsome hbufferSingle, hsome hresolvedSingle, hsome hcopySingle, List.forall_mem_nil _⟩

namespace Session

/-- **The copy of the scene is the scene as the last pass left it.** In every frame of every session
whose host is faithful, the scene target holds the application's frame before the first pass; at
every draw, shaders read the texels that the scene target had when the pass before was finished, of
whatever technique; and when the frame is done, the copy is the scene target. -/
theorem Reachable.commits {s : Session} (hs : s.Reachable Event.Faithful) {b : Backbuffer}
    (hb : s.engine.backbuffer = some b) (tracker : DepthTracker) :
    ∃ d depthView stages rest, s.engine.Commits b tracker d depthView stages rest := by
  obtain ⟨haligned, hhost⟩ := hs.aligned hb
  have hbuffer : b.buffer.ref ∈ s.device.live :=
    (Device.Owns.mem_live hs.owns_host).mpr (Multiset.mem_add.mpr (Or.inl hhost))
  exact Engine.exists_commits hs.sound hs.tables hs.owns_host hs.numbered hb haligned hbuffer
    tracker

/-- A frame with one pass, which draws into the backbuffer. -/
theorem commits_small :
    let s := small.step (.load (.single "show" [] [] []))
    ∃ b, s.engine.backbuffer = some b ∧ s.engine.framePasses.length = 1 ∧
      ∃ d depthView stages rest, s.engine.Commits b {} d depthView stages rest := by
  intro s
  have hs : s.Reachable Event.Faithful := .step faithful_small trivial
  obtain ⟨b, hb⟩ : ∃ b, s.engine.backbuffer = some b :=
    Option.isSome_iff_exists.mp (by decide +kernel)
  exact ⟨b, hb, by decide +kernel, Reachable.commits hs hb {}⟩

end Session

end EffectChain
