import EffectChain.Proofs.Growth

/-!
# What is made for a swapchain

The views of a backbuffer show its copy of the scene and draw into its scene target
(`Backbuffer.Sound`). The scene target is the first object created, if one has to be created at all
(`Backbuffer.create_eq_ok`).
-/

namespace EffectChain

/-- Whether the swapchain's buffer cannot be drawn into by effects. -/
def Swapchain.resolves (s : Swapchain) : Prop := 1 < s.sampleCount ∨ s.format.linear ≠ s.format

instance (s : Swapchain) : Decidable s.resolves := by
  unfold Swapchain.resolves
  infer_instance

namespace Backbuffer

/-- The views are views of the textures they were made for, in the formats of the variants they
stand for. -/
structure Sound (d : Device) (b : Backbuffer) : Prop where
  /-- Shaders read the copy of the scene. -/
  shown : ∀ gamma, d.Made (b.views.pick gamma) ⟨b.copy, b.format.variant gamma⟩
  /-- Effects draw into the scene target. -/
  drawn : ∀ gamma, d.Made (b.targets.pick gamma) ⟨b.resolved, b.format.variant gamma⟩

theorem Sound.evolves {d d' : Device} {b : Backbuffer} (h : b.Sound d) (hd : d.Evolves d') :
    b.Sound d' where
  shown gamma := (h.shown gamma).evolves hd
  drawn gamma := (h.drawn gamma).evolves hd

theorem Sound.views {d : Device} {b : Backbuffer} (h : b.Sound d) (gamma : Bool) :
    d.Shows (b.views.pick gamma) b.copy :=
  ⟨_, h.shown gamma⟩

theorem Sound.targets {d : Device} {b : Backbuffer} (h : b.Sound d) (gamma : Bool) :
    d.Draws (b.targets.pick gamma) b.resolved :=
  ⟨_, h.drawn gamma⟩

section Variants

variable {kind : ObjectKind} {α : Type} {format : Format} {view : Format → Creation (Handle kind)}
  {rest : Variants (Handle kind) → Creation α}

theorem upholds_createVariants (hview : ∀ f, Steady Device.Upholds (view f))
    (hrest : ∀ v, Steady Device.Upholds (rest v)) :
    Steady Device.Upholds (createVariants format view rest) := by
  rw [createVariants]
  refine Steady.bind (hview _) fun linear ↦ ?_
  refine Steady.keeping ?_ fun d ↦ Device.Upholds.release d _
  split
  · exact hrest _
  · refine Steady.bind (hview _) fun gamma ↦ ?_
    exact Steady.keeping (hrest _) fun d ↦ Device.Upholds.release d _

/-- If both variants are created, each is what its creation returned, and the rest follows. -/
theorem createVariants_eq_ok {d d' : Device} {a : α} (made : Device → Handle kind → Format → Prop)
    (hview : ∀ f, Steady Device.Evolves (view f))
    (hmade : ∀ {f d₁ d₂ h}, view f d₁ = (.ok h, d₂) → made d₂ h f)
    (hevolves : ∀ {d₁ d₂ h f}, made d₁ h f → d₁.Evolves d₂ → made d₂ h f)
    (run : createVariants format view rest d = (.ok a, d')) :
    ∃ v d₁, (∀ gamma, made d₁ (v.pick gamma) (format.variant gamma)) ∧ d.Evolves d₁ ∧
      rest v d₁ = (.ok a, d') := by
  rw [createVariants] at run
  obtain ⟨linear, d₁, hlinear, run⟩ := bind_eq_ok run
  have run := keeping_eq_ok run
  split at run
  · rename_i hsame
    refine ⟨⟨linear, linear⟩, d₁, fun b ↦ ?_, (hview _).run hlinear, run⟩
    cases b
    · exact hmade hlinear
    · -- one view stands for both
      have hmade := hmade hlinear
      rwa [← hsame] at hmade
  · obtain ⟨gamma, d₂, hgamma, run⟩ := bind_eq_ok run
    have hevolves₂ := (hview _).run hgamma
    refine ⟨⟨linear, gamma⟩, d₂, fun b ↦ ?_, ((hview _).run hlinear).trans hevolves₂,
      keeping_eq_ok run⟩
    cases b
    · exact hevolves (hmade hlinear) hevolves₂
    · exact hmade hgamma

end Variants

theorem upholds_create (s : Swapchain) : Steady Device.Upholds (create s) := by
  have hrest : ∀ (rest : Handle .texture → Creation Backbuffer),
      (∀ t, Steady Device.Upholds (rest t)) → Steady Device.Upholds (createResolved s rest) := by
    intro rest hrest
    rw [createResolved]
    split
    · refine Steady.bind (Device.Upholds.createTexture _).named fun resolved ↦ ?_
      exact Steady.keeping (hrest _) fun d ↦ Device.Upholds.release d _
    · exact hrest _
  rw [create]
  refine hrest _ fun resolved ↦ ?_
  refine Steady.bind (Device.Upholds.createTexture _).named fun copy ↦ ?_
  refine Steady.keeping ?_ fun d ↦ Device.Upholds.release d _
  refine upholds_createVariants
    (fun _ ↦ (Device.Upholds.createShaderView _ _ _).named) fun views ↦ ?_
  refine upholds_createVariants
    (fun _ ↦ (Device.Upholds.createRenderTargetView _ _).named) fun targets ↦ ?_
  refine Steady.bind (Device.Upholds.createTexture _).named fun stencil ↦ ?_
  refine Steady.keeping ?_ fun d ↦ Device.Upholds.release d _
  exact Steady.bind (Device.Upholds.createDepthStencilView _).named fun stencilView ↦ Steady.pure _

/-- The scene target is a new texture, or the buffer of the swapchain itself. -/
theorem createResolved_eq_ok {s : Swapchain} {α : Type} {rest : Handle .texture → Creation α}
    {x : α} {d d' : Device} (run : createResolved s rest d = (.ok x, d')) :
    ∃ resolved d₁, rest resolved d₁ = (.ok x, d') ∧
      (s.resolves ∧ Device.createTexture {
          width := s.width, height := s.height, format := s.format.typeless
          usage := .targetOnly } d = (.ok resolved, d₁) ∨
        ¬s.resolves ∧ resolved = s.buffer ∧ d₁ = d) := by
  rw [createResolved] at run
  split at run
  · obtain ⟨resolved, d₁, hresolved, run⟩ := bind_eq_ok run
    exact ⟨resolved, d₁, keeping_eq_ok run, Or.inl ⟨‹_›, named_eq_ok hresolved⟩⟩
  · exact ⟨s.buffer, d, run, Or.inr ⟨‹_›, rfl, rfl⟩⟩

theorem create_eq_ok {s : Swapchain} {b : Backbuffer} {d d' : Device}
    (run : create s d = (.ok b, d')) :
    b.buffer = s.buffer ∧ (s.resolves → b.resolved = ⟨d.lastId + 1⟩) ∧
      (¬s.resolves → b.resolved = s.buffer) ∧ b.Sound d' ∧
      b.width = s.width ∧ b.height = s.height := by
  rw [create] at run
  obtain ⟨resolved, d₁, run, htarget⟩ := createResolved_eq_ok run
  have hres : s.resolves → resolved = ⟨d.lastId + 1⟩ := by
    intro hres
    rcases htarget with ⟨-, hresolved⟩ | ⟨hnot, -⟩
    · obtain ⟨_, _, -, rfl, -⟩ := Device.create_eq_ok hresolved
      rfl
    · exact absurd hres hnot
  have hnot : ¬s.resolves → resolved = s.buffer := fun hnot ↦
    (htarget.resolve_left fun h ↦ hnot h.1).2.1
  obtain ⟨copy, d₂, -, run⟩ := bind_eq_ok run
  obtain ⟨views, d₃, hviews, -, run⟩ := createVariants_eq_ok
    (fun d (h : Handle .shaderView) format ↦ d.Made h ⟨copy, format⟩)
    (fun _ ↦ Device.Evolves.create.named)
    (fun h ↦ Device.made_of_createShaderView (named_eq_ok h)) Device.Made.evolves
    (keeping_eq_ok run)
  obtain ⟨targets, d₄, htargets, hevolves₄, run⟩ := createVariants_eq_ok
    (fun d (h : Handle .renderTargetView) format ↦ d.Made h ⟨resolved, format⟩)
    (fun _ ↦ Device.Evolves.create.named)
    (fun h ↦ (Device.made_of_createRenderTargetView (named_eq_ok h)).2) Device.Made.evolves run
  obtain ⟨stencil, d₅, hstencil, run⟩ := bind_eq_ok run
  obtain ⟨stencilView, d₆, hstencilView, run⟩ := bind_eq_ok (keeping_eq_ok run)
  cases run
  have hevolves₅ : d₄.Evolves d₅ := Device.Evolves.create.run (named_eq_ok hstencil)
  have hevolves₆ : d₅.Evolves d' := Device.Evolves.create.run (named_eq_ok hstencilView)
  have hevolves := hevolves₅.trans hevolves₆
  exact ⟨rfl, hres, hnot, ⟨fun gamma ↦ (hviews gamma).evolves (hevolves₄.trans hevolves),
    fun gamma ↦ (htargets gamma).evolves hevolves⟩, rfl, rfl⟩

end Backbuffer

end EffectChain
