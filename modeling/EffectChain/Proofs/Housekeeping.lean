import EffectChain.Proofs.Moves

/-!
# Housekeeping

Between frames an engine creates objects and releases them, and clears a texture when it is first
asked for a view to draw into it. It does nothing else to the device, whether an operation succeeds
or fails. Whatever creations and releases keep of a device is therefore kept by preparing for a
swapchain (`Engine.device_init`), and, if such clears keep it as well, by loading an effect
(`Engine.device_load`).

What they keep above all is time (`Device.Waits`): the clock stands still, and no interval is marked
as interrupted.
-/

namespace EffectChain

/-- Creations and releases go through the relation. -/
structure Device.Housekeeping (R : Device → Device → Prop) : Prop where
  create : ∀ {kind : ObjectKind} (content : Device → Except DeviceError kind.Content) (d : Device),
    R d (Device.create kind content d).2
  release : ∀ (d : Device) (refs : List ObjectRef), R d (d.release refs)

open Device (Housekeeping)

/-- A view that was created to draw into a texture of the chain's own clears it. -/
def Command.isOpening (c : Command) : Prop := ∃ view, c = .clearRenderTarget view .transparent

section Housekeeping

variable {R : Device → Device → Prop} [Std.Refl R] [IsTrans Device R] (hR : Housekeeping R)

include hR

theorem OwnedTexture.steady_create (t : TextureDecl) : Steady R (create t) := by
  rw [create]
  dsimp only
  refine Steady.bind (Steady.named (hR.create _)) fun resource ↦ ?_
  refine Steady.keeping ?_ fun d ↦ hR.release d _
  refine Steady.bind Steady.get fun d ↦ ?_
  refine Steady.bind (Steady.named (hR.create _)) fun linear ↦ ?_
  refine Steady.keeping ?_ fun d ↦ hR.release d _
  split
  · exact Steady.bind (Steady.pure _) fun gamma ↦ Steady.pure _
  · exact Steady.bind (Steady.named (hR.create _)) fun gamma ↦ Steady.pure _

theorem steady_materialize (index : Nat) (table : List TableTexture) :
    Steady R (materialize index table) := by
  induction table with
  | nil => exact Steady.pure _
  | cons t rest ih =>
    rw [materialize]
    split
    · refine Steady.bind (OwnedTexture.steady_create hR t.decl) fun owned ↦ ?_
      exact Steady.keeping (Steady.bind ih fun table ↦ Steady.pure _) fun d ↦ hR.release d _
    · exact Steady.bind ih fun table ↦ Steady.pure _

theorem Assets.Builds.device {a a' : Assets} (h : a.Builds a')
    (hopening : ∀ c : Command, c.isOpening → ∀ d, R d (d.issue c)) : R a.device a'.device := by
  induction h with
  | refl => exact refl_of R _
  | tail _ hlast ih =>
    refine trans_of R ih ?_
    cases hlast with
    | device h =>
      cases h with
      | create hkind content => exact hR.create content _
      | release hprivate => exact hR.release _ _
    | cache h _ => exact refl_of R _
    | @draw name gamma t o o' d view hfind howned run =>
      rename_i a _
      rcases o.target_cases name gamma a.device with ⟨v, -, hrun⟩ | ⟨-, e, hrun⟩ |
        ⟨-, format, -, ⟨cause, e, d₁, -, hrun⟩ | ⟨v, d₁, hstep, hrun⟩⟩ <;> cases run.symm.trans hrun
      · exact refl_of R _
      · exact trans_of R (Steady.run (hR.create _) hstep) (hopening _ ⟨_, rfl⟩ _)

omit [Std.Refl R] in
theorem Backbuffer.steady_createVariants {kind : ObjectKind} {α : Type} {format : Format}
    {view : Format → Creation (Handle kind)} {rest : Variants (Handle kind) → Creation α}
    (hview : ∀ f, Steady R (view f)) (hrest : ∀ v, Steady R (rest v)) :
    Steady R (createVariants format view rest) := by
  rw [createVariants]
  refine Steady.bind (hview _) fun linear ↦ ?_
  refine Steady.keeping ?_ fun d ↦ hR.release d _
  split
  · exact hrest _
  · refine Steady.bind (hview _) fun gamma ↦ ?_
    exact Steady.keeping (hrest _) fun d ↦ hR.release d _

theorem Backbuffer.steady_create (s : Swapchain) : Steady R (create s) := by
  have hrest : ∀ (rest : Handle .texture → Creation Backbuffer),
      (∀ t, Steady R (rest t)) → Steady R (createResolved s rest) := by
    intro rest hrest
    rw [createResolved]
    split
    · refine Steady.bind (Steady.named (hR.create _)) fun resolved ↦ ?_
      exact Steady.keeping (hrest _) fun d ↦ hR.release d _
    · exact hrest _
  rw [create]
  refine hrest _ fun resolved ↦ ?_
  refine Steady.bind (Steady.named (hR.create _)) fun copy ↦ ?_
  refine Steady.keeping ?_ fun d ↦ hR.release d _
  refine steady_createVariants hR (fun _ ↦ Steady.named (hR.create _)) fun views ↦ ?_
  refine steady_createVariants hR (fun _ ↦ Steady.named (hR.create _)) fun targets ↦ ?_
  refine Steady.bind (Steady.named (hR.create _)) fun stencil ↦ ?_
  refine Steady.keeping ?_ fun d ↦ hR.release d _
  exact Steady.bind (Steady.named (hR.create _)) fun stencilView ↦ Steady.pure _

theorem DepthAlias.device_point (a : DepthAlias) (texture : Option (Handle .texture)) (d : Device) :
    R d (a.point texture d).2 :=
  a.point_induction texture (refl_of R d) (fun _ h ↦ trans_of R h (hR.release _ _))
    fun content _ h ↦ trans_of R h (hR.create content _)

/-- What activation does to the device: housekeeping, and the clearing of new targets. -/
theorem Engine.device_activate (e : Engine) (index : Nat)
    (hopening : ∀ c : Command, c.isOpening → ∀ d, R d (d.issue c)) :
    R e.device (e.activate index).2.device := by
  rcases heffect : e.effect? index with _ | effect
  · rw [activate, heffect]
    exact refl_of R _
  · rw [assets_activate heffect]
    rcases (e.build_run index effect).assets with hsame | ⟨result, d, hrun, hrest⟩
    · rw [hsame]
      exact refl_of R _
    · have hmaterialized : R e.device d := (steady_materialize hR index e.textures).run hrun
      rcases hrest with hsame | ⟨textures, -, hbuilds⟩
      · rw [hsame]
        exact hmaterialized
      · exact trans_of R hmaterialized (hbuilds.device hR hopening)

theorem Engine.device_load (e : Engine) (m : EffectModule)
    (hopening : ∀ c : Command, c.isOpening → ∀ d, R d (d.issue c)) :
    R e.device (e.load m).2.device := by
  rcases e.load_cases m with ⟨-, hrun⟩ | ⟨-, hrun⟩ <;> rw [hrun]
  · exact refl_of R _
  · exact device_activate hR (e.register m.reserveSlots) _ hopening

theorem Engine.device_reset (e : Engine) : R e.device e.reset.device :=
  trans_of R (trans_of R (hR.release _ _) (e.depth.device_point hR none _)) (hR.release _ _)

theorem Engine.device_init (e : Engine) (s : Swapchain) : R e.device (e.init s).2.device := by
  have hvacated : R e.device e.vacated.device :=
    vacated_induction (P := fun e' ↦ R e.device e'.device) (refl_of R _) (e.device_reset hR)
  rcases e.init_cases s with ⟨cause, d, hrun, hinit⟩ | ⟨b, d, hrun, hinit⟩
  all_goals
    rw [hinit]
    exact trans_of R hvacated ((Backbuffer.steady_create hR s).run hrun)

end Housekeeping

/-! ## Time -/

namespace Device

/-- No time passes. -/
structure Waits (d d' : Device) : Prop where
  /-- Time is counted in the same way. -/
  timing : d'.timing = d.timing
  /-- It is the same frame. -/
  frame : d'.frame = d.frame
  /-- The clock stands still. -/
  clock : d'.clock = d.clock
  /-- The mark of an interruption stays. -/
  interruptNext : d'.interruptNext = d.interruptNext

instance : Std.Refl Waits := ⟨fun _ ↦ ⟨rfl, rfl, rfl, rfl⟩⟩

instance : IsTrans Device Waits :=
  ⟨fun _ _ _ h h' ↦ ⟨h'.timing.trans h.timing, h'.frame.trans h.frame, h'.clock.trans h.clock,
    h'.interruptNext.trans h.interruptNext⟩⟩

theorem Waits.housekeeping : Housekeeping Waits where
  create {kind} content d := by
    rcases hrun : create kind content d with ⟨e | h, d'⟩
    · obtain rfl := create_eq_error hrun
      exact ⟨rfl, rfl, rfl, rfl⟩
    · obtain ⟨_, _, -, -, rfl⟩ := create_eq_ok hrun
      exact ⟨rfl, rfl, rfl, rfl⟩
  release d refs := ⟨rfl, rfl, rfl, rfl⟩

end Device

end EffectChain
