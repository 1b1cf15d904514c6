import EffectChain.Proofs.Frame.Pipeline
import EffectChain.Proofs.Records.Resolved

/-!
# Slots for the scene depth

An effect binds the scene depth to a slot by name, and a frame resolves all names anew. A slot of
the scene depth therefore follows the alias wherever it is pointed, if it is there at all: it is
taken out of the record of a pass if the alias stood for a texture that the pass draws into when the
effect was last activated, and does not come back when the alias moves on
(`Session.Reachable.emptied_or_current`).
-/

namespace EffectChain

/-- The scene depth is a view of a texture that the pass draws into. -/
def Engine.depthConflicts (e : Engine) (r : PassRecord) : Bool :=
  ViewSlot.depth.conflicts e.device (writtenTextures e.device (r.targets.map some)) e.resolveSlot?

theorem Engine.Resolves.input_depth {e : Engine} {state : TechniqueState} (h : e.Resolves state)
    {r : PassRecord} (hr : r ∈ state.passes) {j : Nat} (hj : state.bindings[j]? = some .depth) :
    r.inputs[j]? = some (if e.depthConflicts r then .empty else .depth) := by
  obtain ⟨b, hb, hresolved⟩ := h
  have hresolve : e.resolveSlot? = b.resolveSlot e.depth.view :=
    funext fun slot ↦ by rw [resolveSlot?, hb, Option.bind_some]
  rw [(hresolved r hr).inputs, resolveHazards, List.getElem?_map, hj, depthConflicts, hresolve]
  rfl

namespace Session

/-- **A slot of the scene depth is empty or current.** Interpreted from a pipeline without views for
shaders, a draw of a frame has the view of the alias of that frame in every slot to which its effect
binds the scene depth, unless the alias was a view of a texture that the pass draws into when the
effect was last activated. Then, and whatever became of the alias since, it has no view there. -/
theorem Reachable.emptied_or_current {allowed : Session → Event → Prop} {s : Session}
    (hs : s.Reachable allowed) {b : Backbuffer} (hb : s.engine.backbuffer = some b)
    (tracker : DepthTracker) {p : Pipeline} (hviews : ∀ k, p.views k = none) :
    ∃ cs, (s.engine.present tracker).device.log = s.device.log ++ cs ∧
      List.Forall₂ (fun x draw ↦ (∃ s₁, ActivatedAt allowed x.technique.effect s₁ s) ∧
          ∀ s₁, ActivatedAt allowed x.technique.effect s₁ s →
            ∀ j, x.state.bindings[j]? = some .depth →
              draw.2.views j = if s₁.engine.depthConflicts x.record then none
                else (s.engine.present tracker).depth.view)
        (drawnPasses s.engine.techniques) (p.draws cs) := by
  obtain ⟨cs, hlog, hdraws, -⟩ := Engine.draws_eq hs.tables hb tracker hviews
  refine ⟨cs, hlog, ?_⟩
  have hdrawn := (List.forall₂_and_left _ _).mpr ⟨fun x hx ↦ mem_drawnPasses_iff.mp hx, hdraws⟩
  refine hdrawn.imp fun x draw ⟨⟨ht, _, hstate, hr⟩, hmakes⟩ ↦ ?_
  refine ⟨hs.exists_activatedAt ht, fun s₁ hactivated j hj ↦ ?_⟩
  have hresolves := hactivated.resolves ht rfl hstate
  rw [hmakes.2.views, hresolves.input_depth hr hj, Option.bind_some]
  split <;> rfl

/-- A pass that was built while the scene depth was its own target does not get the scene depth back
when another depth buffer is chosen. -/
theorem emptied_small :
    let s₁ := (((small.step (.load (.single "paint" [{ name := "canvas" }] [] ["canvas"]))).step
      (.overrideDepth (some ⟨10⟩))).step (.present {})).step
        (.load (.single "melt" [{ name := "canvas" }, .alias "scene" .depthBuffer]
          [{ name := "depth", textureName := "scene", binding := 0, textureBinding := 0 }]
          ["canvas"]))
    let s := (s₁.step (.create .texture fun _ ↦ Texture.make (.depthBuffer 4 4 1))).step
      (.overrideDepth (some ⟨28⟩))
    (s.engine.present {}).depth.view = some ⟨29⟩ ∧
      (drawnPasses s.engine.techniques).map (·.technique.name) = ["paint", "melt"] ∧
      ∃ cs, (s.engine.present {}).device.log = s.device.log ++ cs ∧
        List.Forall₂ (fun x draw ↦ x.technique.name = "melt" → x.state.bindings[0]? = some .depth ∧
            (s.engine.present {}).depthConflicts x.record = false ∧ draw.2.views 0 = none)
          (drawnPasses s.engine.techniques) (Pipeline.draws {} cs) := by
  intro s₁ s
  have hs₀ : (((small.step (.load (.single "paint" [{ name := "canvas" }] [] ["canvas"]))).step
      (.overrideDepth (some ⟨10⟩))).step (.present {})).Reachable Event.Lawful :=
    .step (.step (.step (.step (.step (.start {} {}) trivial) trivial) trivial) trivial) trivial
  have hactivated : ActivatedAt Event.Lawful 1 s₁ s :=
    .later (.later (.now hs₀ trivial (by decide +kernel)) trivial (by simp [Event.activates]))
      trivial (by simp [Event.activates])
  obtain ⟨b, hb⟩ : ∃ b, s.engine.backbuffer = some b :=
    Option.isSome_iff_exists.mp (by decide +kernel)
  obtain ⟨cs, hlog, hdraws⟩ :=
    Reachable.emptied_or_current hactivated.reachable hb {} (p := {}) fun _ ↦ rfl
  have hmelt : ∀ x ∈ drawnPasses s.engine.techniques, x.technique.name = "melt" →
      x.technique.effect = 1 ∧ x.state.bindings[0]? = some .depth ∧
        s₁.engine.depthConflicts x.record = true ∧
        (s.engine.present {}).depthConflicts x.record = false := by decide +kernel
  refine ⟨by decide +kernel, by decide +kernel, cs, hlog, ?_⟩
  have hboth := (List.forall₂_and_left _ _).mpr ⟨hmelt, hdraws⟩
  refine hboth.imp fun x draw ⟨hx, _, hviews⟩ hname ↦ ?_
  obtain ⟨heffect, hbinding, hthen, hnow⟩ := hx hname
  have hempty := hviews s₁ (heffect ▸ hactivated) 0 hbinding
  rw [if_pos hthen] at hempty
  exact ⟨hbinding, hnow, hempty⟩

end Session

end EffectChain
