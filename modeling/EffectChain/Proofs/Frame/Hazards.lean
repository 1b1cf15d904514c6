import EffectChain.Proofs.Frame.Pipeline

/-!
# Hazards at draws

Inputs that conflict with the targets of a pass are emptied when its record is built. What they are
compared by, the texture behind a view, never changes, and the views of the backbuffer are the same
for as long as the record lasts; so fixed inputs and inputs that stand for the frame do not conflict
later either. An input that stands for the scene depth is compared by the view of the alias at that
time, and the alias may be pointed at another texture afterwards. That is the one way for a draw to
read what it writes (`Session.Reachable.hazard_iff`), and it does happen (`hazard_small`).
-/

namespace EffectChain

/-- A view for shaders and a view to draw into are bound, and are views of one texture. -/
def Pipeline.Hazard (p : Pipeline) (d : Device) : Prop :=
  ∃ j v k t x, p.views j = some v ∧ k < maxRenderTargets ∧ p.targets k = some t ∧
    d.viewTexture? v = some x ∧ d.targetTexture? t = some x

/-- The pass reads the scene depth, and would not if its record were built now: the alias is a view
of a texture that it draws into. -/
def PassRecord.DepthConflicts (r : PassRecord) (b : Backbuffer) (d : Device)
    (depthView : Option (Handle .shaderView)) : Prop :=
  ViewSlot.depth ∈ r.inputs ∧
    ViewSlot.depth.conflicts d (writtenTextures d (r.targets.map some)) (b.resolveSlot depthView)

instance (r : PassRecord) (b : Backbuffer) (d : Device) (depthView : Option (Handle .shaderView)) :
    Decidable (r.DepthConflicts b d depthView) := by
  unfold PassRecord.DepthConflicts
  infer_instance

theorem hazard_iff_of_runs {a : Assets} {b : Backbuffer} {objects : EffectObjects}
    {index : Nat} {declared : List String} {bindings : List ViewSlot} {decl : PassDecl}
    {r : PassRecord} (hr : r.Sound a b objects index declared bindings decl) {p : Pipeline}
    {depthView : Option (Handle .shaderView)} {samplers : List (Option (Handle .sampler))}
    {buffer : Option (Handle .buffer)} (h : p.Runs b depthView samplers buffer r) :
    p.Hazard a.device ↔ r.DepthConflicts b a.device depthView := by
  rw [PassRecord.DepthConflicts, ViewSlot.conflicts_iff]
  constructor
  · rintro ⟨j, v, k, t, x, hv, hk, ht, hvx, htx⟩
    rw [h.views] at hv
    obtain ⟨slot, hslot, hv⟩ := Option.bind_eq_some_iff.mp hv
    rw [h.targets k hk] at ht
    have hmem : slot ∈ r.inputs := List.mem_of_getElem? hslot
    by_cases hdepth : slot = .depth
    · subst hdepth
      exact ⟨hmem, v, x, hv, hvx, t, List.mem_of_getElem? ht, htx⟩
    · -- any other slot stood for the same view when the record was built
      rw [b.resolveSlot_of_ne_depth depthView hdepth] at hv
      exact absurd htx ((hr.apart slot hmem hdepth v hv t (List.mem_of_getElem? ht)).ne x hvx)
  · rintro ⟨hmem, v, x, hv, hvx, t, ht, htx⟩
    obtain ⟨j, hj, hslot⟩ := List.getElem_of_mem hmem
    obtain ⟨k, hk, htarget⟩ := List.getElem_of_mem ht
    have hlt : k < maxRenderTargets := hk.trans_le hr.length_le
    refine ⟨j, v, k, t, x, ?_, hlt, ?_, hvx, htx⟩
    · rw [h.views, List.getElem?_eq_getElem hj, hslot]
      exact hv
    · rw [h.targets k hlt, List.getElem?_eq_getElem hk, htarget]

theorem Engine.Sound.of_mem_drawnPasses {e : Engine} (h : e.Sound) (htables : e.Tables)
    (tracker : DepthTracker) {x : DrawnPass} (hx : x ∈ drawnPasses e.techniques) :
    ∃ b objects index declared decl, e.backbuffer = some b ∧
      x.record.Sound (e.present tracker).toAssets b objects index declared x.state.bindings
        decl := by
  obtain ⟨ht, -, hstate, hr⟩ := mem_drawnPasses_iff.mp hx
  obtain ⟨b, objects, hb, -, hsound⟩ := h.present htables tracker ht hstate
  obtain ⟨decl, -, hrecord⟩ := exists_of_forall₂_right hsound.passes hr
  exact ⟨b, objects, x.technique.effect, _, decl, hb, hrecord⟩

namespace Session

/-- **A draw reads what it writes exactly if its scene depth is what it writes.** Interpreted from a
pipeline without views for shaders, a draw of a frame has a hazard if and only if its pass reads the
scene depth while the alias is a view of a texture that the pass draws into. -/
theorem Reachable.hazard_iff {allowed : Session → Event → Prop} {s : Session}
    (hs : s.Reachable allowed) {b : Backbuffer} (hb : s.engine.backbuffer = some b)
    (tracker : DepthTracker) {p : Pipeline} (hviews : ∀ k, p.views k = none) :
    ∃ cs, (s.engine.present tracker).device.log = s.device.log ++ cs ∧
      List.Forall₂ (fun x draw ↦ draw.2.Hazard (s.engine.present tracker).device ↔
          x.record.DepthConflicts b (s.engine.present tracker).device
            (s.engine.present tracker).depth.view)
        (drawnPasses s.engine.techniques) (p.draws cs) := by
  obtain ⟨cs, hlog, hdraws, -⟩ := Engine.draws_eq hs.tables hb tracker hviews
  refine ⟨cs, hlog, ?_⟩
  have hsound := (List.forall₂_and_left _ _).mpr
    ⟨fun x hx ↦ hs.sound.of_mem_drawnPasses hs.tables tracker hx, hdraws⟩
  refine hsound.imp fun x draw h ↦ ?_
  obtain ⟨⟨b', objects, index, declared, decl, hb', hrecord⟩, hmakes⟩ := h
  obtain rfl : b = b' := Option.some.inj (hb.symm.trans hb')
  exact hazard_iff_of_runs hrecord hmakes.2

/-- If the depth buffer chosen by hand is a texture of the chain's own, an effect that reads the
scene depth and draws into that texture reads what it writes. -/
theorem hazard_small :
    let s := (small.step (.load (.single "melt" [{ name := "canvas" }, .alias "scene" .depthBuffer]
      [{ name := "depth", textureName := "scene", binding := 0, textureBinding := 0 }]
      ["canvas"]))).step (.overrideDepth (some ⟨10⟩))
    ∃ cs, (s.engine.present {}).device.log = s.device.log ++ cs ∧
      ∃ draw ∈ Pipeline.draws {} cs, draw.2.Hazard (s.engine.present {}).device := by
  intro s
  have hs : s.Reachable Event.Lawful :=
    .step (.step (.step (.step (.start {} {}) trivial) trivial) trivial) trivial
  obtain ⟨b, hb⟩ : ∃ b, s.engine.backbuffer = some b :=
    Option.isSome_iff_exists.mp (by decide +kernel)
  obtain ⟨cs, hlog, hdraws⟩ := Reachable.hazard_iff hs hb {} (p := {}) fun _ ↦ rfl
  obtain ⟨x, hx, hconflicts⟩ : ∃ x ∈ drawnPasses s.engine.techniques,
      x.record.DepthConflicts b (s.engine.present {}).device (s.engine.present {}).depth.view := by
    have hall : ∀ b ∈ s.engine.backbuffer, (drawnPasses s.engine.techniques).any fun x ↦
        x.record.DepthConflicts b (s.engine.present {}).device
          (s.engine.present {}).depth.view := by decide +kernel
    simpa using hall b hb
  obtain ⟨draw, hdraw, hiff⟩ := exists_of_forall₂_left hdraws hx
  exact ⟨cs, hlog, draw, hdraw, hiff.mpr hconflicts⟩

end Session

end EffectChain
