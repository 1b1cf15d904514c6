import EffectChain.Proofs.Frame.Pipeline
import EffectChain.Proofs.Ownership.Session
import EffectChain.Proofs.Records.Liveness

/-!
# Frames name live objects

The commands of a frame name what the records name, the views of the backbuffer, and the view of the
scene depth. So they name live objects only (`Device.Admits`) exactly if the targets of all passes
that are drawn are provided (`Session.Reachable.admits_present_iff`). A frame that draws into a
texture which went away with the last effect that declares it names a view that is gone
(`not_admits_present_small`).
-/

namespace EffectChain

/-- The references to the objects that a command names. -/
def Command.refs : Command → List ObjectRef
  | .updateTexture texture _ _ => [texture.ref]
  | .updateConstantBuffer buffer _ => [buffer.ref]
  | .generateMips view => [view.ref]
  | .copyResource target source | .resolve target source _ => [target.ref, source.ref]
  | .clearRenderTarget view _ => [view.ref]
  | .clearStencil view _ => [view.ref]
  | .setShaders vertex pixel => [vertex.ref, pixel.ref]
  | .setSamplers samplers => (samplers.filterMap id).map Handle.ref
  | .setShaderResources views => (views.filterMap id).map Handle.ref
  | .setConstantBuffer buffer => buffer.toList.map Handle.ref
  | .setBlendState state => [state.ref]
  | .setDepthStencilState state _ => [state.ref]
  | .setRenderTargets targets depthStencil =>
    (targets.filterMap id).map Handle.ref ++ depthStencil.toList.map Handle.ref
  | .setViewport _ _ | .draw _ => []
  | .beginQuery query | .endQuery query => [query.ref]

/-- All objects that the commands name are alive. -/
def Device.Admits (d : Device) (cs : List Command) : Prop := ∀ c ∈ cs, ∀ r ∈ c.refs, r ∈ d.live

instance (d : Device) (cs : List Command) : Decidable (d.Admits cs) := by
  unfold Device.Admits
  infer_instance

namespace Device

variable {d : Device} {cs cs' : List Command}

theorem admits_nil : d.Admits [] := nofun

theorem admits_cons {c : Command} :
    d.Admits (c :: cs) ↔ (∀ r ∈ c.refs, r ∈ d.live) ∧ d.Admits cs :=
  List.forall_mem_cons

theorem admits_append : d.Admits (cs ++ cs') ↔ d.Admits cs ∧ d.Admits cs' :=
  List.forall_mem_append

end Device

/-! ## Passes -/

/-- What every pass of a frame may use is alive. -/
structure Backbuffer.Live (d : Device) (depthView : Option (Handle .shaderView)) (b : Backbuffer) :
    Prop where
  /-- What was made for the swapchain. -/
  refs : ∀ r ∈ b.refs, r ∈ d.live
  /-- The scene target. -/
  resolved : b.resolved.ref ∈ d.live
  /-- The view of the scene depth. -/
  depth : ∀ v, depthView = some v → v.ref ∈ d.live

/-- The views that the pass draws into, and regenerates levels through, are alive. -/
def PassRecord.Drawable (d : Device) (r : PassRecord) : Prop :=
  (∀ t ∈ r.targets, t.ref ∈ d.live) ∧ ∀ v ∈ r.mipViews, v.ref ∈ d.live

section Passes

variable {d : Device} {b : Backbuffer} {depthView : Option (Handle .shaderView)}

theorem Backbuffer.Live.resolveSlot (hb : b.Live d depthView) {r : PassRecord}
    (hr : r.SourcesLive d) {slot : ViewSlot} (hslot : slot ∈ r.inputs) {v : Handle .shaderView}
    (hv : b.resolveSlot depthView slot = some v) : v.ref ∈ d.live := by
  cases slot with
  | empty => cases hv
  | view view =>
    cases hv
    exact (hr.inputs _ hslot).1
  | backbuffer gamma =>
    cases hv
    exact hb.refs _ (b.mem_refs_of_view gamma)
  | depth => exact hb.depth v hv

theorem Backbuffer.Live.admits_copy (hb : b.Live d depthView) :
    d.Admits [.copyResource b.copy b.resolved] := by
  have hcopy : b.copy.ref ∈ d.live := hb.refs _ (by simp [Backbuffer.refs])
  simp [Device.Admits, Command.refs, hcopy, hb.resolved]

theorem Backbuffer.Live.admits_opening (hb : b.Live d depthView)
    (hbuffer : b.buffer.ref ∈ d.live) : d.Admits b.opening := by
  have htarget : b.targets.linear.ref ∈ d.live := hb.refs _ (b.mem_refs_of_target false)
  rw [opening, Device.admits_append, Device.admits_cons]
  refine ⟨?_, by simpa [Command.refs] using htarget, hb.admits_copy⟩
  split
  · simp [Device.Admits, Command.refs, hb.resolved, hbuffer]
  · exact Device.admits_nil

/-- The commands of a pass name live objects if its views are alive. -/
theorem PassRecord.admits_commands_iff (hb : b.Live d depthView) {r : PassRecord}
    (hr : r.SourcesLive d) (clearsStencil : Bool) :
    d.Admits (r.commands b depthView clearsStencil) ↔ r.Drawable d := by
  have hstencil : b.stencilView.ref ∈ d.live := hb.refs _ (by simp [Backbuffer.refs])
  have hviews : ∀ ref ∈ (Command.setShaderResources (r.boundViews b depthView)).refs,
      ref ∈ d.live := by
    intro ref href
    simp only [Command.refs, boundViews, List.mem_map, List.mem_filterMap, id] at href
    obtain ⟨v, ⟨_, ⟨slot, hslot, rfl⟩, hv⟩, rfl⟩ := href
    exact hb.resolveSlot hr hslot hv
  -- the commands ahead of the targets name what the pass draws with
  have hopening : d.Admits [.setShaders r.vertexShader r.pixelShader, .setBlendState r.blend,
      .setDepthStencilState r.depthStencil r.stencilReference, .copyResource b.copy b.resolved,
      .setShaderResources (r.boundViews b depthView)] := by
    simp only [Device.admits_cons, Device.admits_nil, and_true]
    refine ⟨?_, ?_, ?_, (Device.admits_cons.mp hb.admits_copy).1, hviews⟩
    · simp [Command.refs, hr.vertexShader, hr.pixelShader]
    · simp [Command.refs, hr.blend]
    · simp [Command.refs, hr.depthStencil]
  have hclears : d.Admits (if clearsStencil then [.clearStencil b.stencilView 0] else []) := by
    split <;> simp [Device.Admits, Command.refs, hstencil]
  have htargets : d.Admits [.setRenderTargets r.targetSlots
      (if r.usesStencil b then some b.stencilView else none)] ↔
        ∀ t ∈ r.targets, t.ref ∈ d.live := by
    have hslots : r.targetSlots.filterMap id = r.targets := by
      simp [targetSlots]
    rw [Device.admits_cons, Command.refs, hslots, List.forall_mem_append, List.forall_mem_map]
    split <;> simp [Device.admits_nil, hstencil]
  -- the targets are named a second time where they are cleared
  have hzeroes : (∀ t ∈ r.targets, t.ref ∈ d.live) → d.Admits (if r.clearsTargets then
      r.targets.map fun t ↦ .clearRenderTarget t .transparent else []) := by
    intro hlive
    split
    · simpa [Device.Admits, Command.refs] using hlive
    · exact Device.admits_nil
  have hclosing : d.Admits [.setViewport r.viewport.1 r.viewport.2, .draw r.vertexCount,
      .setRenderTargets (List.replicate maxRenderTargets none) none,
      .setShaderResources ((r.boundViews b depthView).map fun _ ↦ none)] := by
    simp [Device.Admits, Command.refs]
  have hmips : d.Admits (r.mipViews.map .generateMips) ↔ ∀ v ∈ r.mipViews, v.ref ∈ d.live := by
    simp [Device.Admits, Command.refs]
  rw [commands]
  simp only [Device.admits_append, htargets, hmips]
  constructor
  · rintro ⟨⟨⟨⟨-, hlive⟩, -⟩, -⟩, hlevels⟩
    exact ⟨hlive, hlevels⟩
  · rintro ⟨hlive, hlevels⟩
    exact ⟨⟨⟨⟨⟨hopening, hclears⟩, hlive⟩, hzeroes hlive⟩, hclosing⟩, hlevels⟩

theorem admits_passCommands_iff (hb : b.Live d depthView) {records : List PassRecord}
    (hrecords : ∀ r ∈ records, r.SourcesLive d) (cleared : Bool) :
    d.Admits (passCommands b depthView cleared records) ↔ ∀ r ∈ records, r.Drawable d := by
  induction records generalizing cleared with
  | nil => simp [passCommands, Device.admits_nil]
  | cons r rest ih =>
    obtain ⟨hr, hrest⟩ := List.forall_mem_cons.mp hrecords
    rw [passCommands, Device.admits_append, r.admits_commands_iff hb hr, ih hrest,
      List.forall_mem_cons]

/-! ## Techniques -/

/-- Around its passes, a technique names its samplers and the buffer of its effect. -/
theorem TechniqueState.admits_commands_iff (hb : b.Live d depthView) {s : TechniqueState}
    (hs : s.SourcesLive d) {e : Effect}
    (hbuffer : ∀ h, e.objects.bind (·.uniformBuffer) = some h → h.ref ∈ d.live) :
    d.Admits (s.commands b depthView e) ↔ ∀ r ∈ s.passes, r.Drawable d := by
  have hsamplers : d.Admits [.setSamplers s.samplers] := by
    simpa [Device.Admits, Command.refs] using hs.samplers
  have hbuffers : d.Admits ((e.objects.bind (·.uniformBuffer)).toList.map fun h ↦
      .updateConstantBuffer h e.uniforms) ∧
      d.Admits [.setConstantBuffer (e.objects.bind (·.uniformBuffer))] := by
    rcases hsome : e.objects.bind (·.uniformBuffer) with _ | h
    · simp [Device.Admits, Command.refs]
    · simp [Device.Admits, Command.refs, hbuffer h hsome]
  rw [commands]
  simp only [Device.admits_append, hsamplers, hbuffers, true_and,
    admits_passCommands_iff hb hs.passes]

theorem Device.admits_of_measures {queries : List (Handle .query)}
    (hqueries : ∀ q ∈ queries, q.ref ∈ d.live) {cs : List Command}
    (h : ∀ c ∈ cs, c.measures queries) : d.Admits cs := by
  intro c hc ref href
  have hmeasures := h c hc
  cases c with
  | beginQuery q | endQuery q =>
    obtain rfl : ref = q.ref := by simpa [Command.refs] using href
    exact hqueries q (by simpa [Command.measures] using hmeasures)
  | _ => cases hmeasures

/-- Techniques name live objects if the views of the passes that they draw are alive. -/
theorem admits_issuedBy_iff (hb : b.Live d depthView) {e : Engine} {techniques : List Technique}
    {cs : List Command} (hissued : IssuedBy b depthView e.effect? techniques cs)
    (hloaded : ∀ t ∈ techniques, (e.effect? t.effect).isSome)
    (hsources : ∀ t ∈ techniques, ∀ state, t.state = some state → state.SourcesLive d)
    (hbuffers : ∀ t ∈ techniques, ∀ h, e.uniformBuffer? t.effect = some h → h.ref ∈ d.live) :
    d.Admits cs ↔ ∀ x ∈ drawnPasses techniques, x.record.Drawable d := by
  induction hissued with
  | nil => simp [drawnPasses, Device.admits_nil]
  | @cons t rest cs cs' hfirst hrest ih =>
    obtain ⟨hloaded, hloadedRest⟩ := List.forall_mem_cons.mp hloaded
    obtain ⟨hsource, hsourcesRest⟩ := List.forall_mem_cons.mp hsources
    obtain ⟨hbuffer, hbuffersRest⟩ := List.forall_mem_cons.mp hbuffers
    rw [Device.admits_append, ih hloadedRest hsourcesRest hbuffersRest]
    rw [Technique.Issues] at hfirst
    rcases hrun : t.runnable? e.effect? with _ | ⟨state, effect⟩ <;> rw [hrun] at hfirst
    · rw [hfirst, drawnPasses_of_not_runnable hloaded hrun]
      exact and_iff_right Device.admits_nil
    · obtain ⟨opening, closing, rfl, hopening, hclosing⟩ := hfirst
      obtain ⟨-, hstate, heffect⟩ := Technique.state_of_runnable? hrun
      have hs := hsource state hstate
      have hown := state.admits_commands_iff (e := effect) hb hs fun h hsome ↦ hbuffer h (by
        rw [Engine.uniformBuffer?, Engine.objects?, heffect]
        exact hsome)
      rw [drawnPasses_of_runnable hrun, List.forall_mem_append, List.forall_mem_map]
      simp only [Device.admits_append, hown, Device.admits_of_measures hs.queries hopening,
        Device.admits_of_measures hs.queries hclosing, true_and, and_true]

end Passes

/-! ## Frames -/

theorem DepthAlias.mem_live_point (a : DepthAlias) (texture : Option (Handle .texture)) {d : Device}
    {t : Handle .texture} (ht : t.ref ∈ d.live) : t.ref ∈ (a.point texture d).2.live := by
  refine a.point_induction (P := fun d ↦ t.ref ∈ d.live) texture ht (fun d hd ↦ ?_)
    fun content d hd ↦ ?_
  · rw [Device.live, Device.release, Store.refs_erase]
    refine List.mem_filter.mpr ⟨hd, ?_⟩
    -- the alias holds a view, and this is a texture
    simp [refs, Handle.ref]
  · rcases hrun : Device.create .shaderView content d with ⟨cause | v, d'⟩
    · obtain rfl := Device.create_eq_error hrun
      exact hd
    · obtain ⟨_, _, -, -, rfl⟩ := Device.create_eq_ok hrun
      exact List.mem_cons_of_mem _ hd

namespace Engine

variable {e : Engine} {others : Multiset ObjectRef} {b : Backbuffer}

/-- What is made for a swapchain is alive, if the buffer of the swapchain is. -/
theorem Owns.backbufferLive (h : e.Owns others) (hb : e.backbuffer = some b)
    (hbuffer : b.buffer.ref ∈ e.device.live) : b.Live e.device e.depth.view where
  refs := h.backbuffer_live hb
  resolved := by
    by_cases hresolves : b.needsResolve = true
    · exact h.backbuffer_live hb _ (by simp [Backbuffer.refs, hresolves])
    · have hsame : b.resolved = b.buffer := by simpa [Backbuffer.needsResolve] using hresolves
      rwa [hsame]
  depth v hv := h.mem_live (by simp [refs, DepthAlias.refs, hv])

theorem mem_live_present (e : Engine) (tracker : DepthTracker) {t : Handle .texture}
    (ht : t.ref ∈ e.device.live) : t.ref ∈ (e.present tracker).device.live := by
  rcases hb : e.backbuffer with _ | b
  · rwa [present, hb]
  · obtain ⟨techniques, cs, -, -, hpresent⟩ := present_eq hb tracker
    rw [hpresent, Device.live_issueAll]
    exact e.depth.mem_live_point _ ht

theorem tables_present (e : Engine) (tracker : DepthTracker) :
    (e.present tracker).textures = e.textures ∧ (e.present tracker).effects = e.effects := by
  rw [present]
  split <;> exact ⟨rfl, rfl⟩

theorem Owns.queries_present (h : e.Owns others) (tracker : DepthTracker)
    (hb : e.backbuffer = some b) {t : Technique} (ht : t ∈ e.techniques) {state : TechniqueState}
    (hstate : t.state = some state) :
    ∀ q ∈ state.timer.queries, q.ref ∈ (e.present tracker).device.live := by
  have howns := h.present tracker
  obtain ⟨techniques, cs, -, hmeasures, hpresent⟩ := present_eq hb tracker
  obtain ⟨t', ht', hmeasured⟩ := exists_of_forall₂_left hmeasures ht
  have hmem : t' ∈ (e.present tracker).techniques := by rwa [hpresent]
  intro q hq
  cases hmeasured with
  | idle => exact howns.queries_live hmem hstate hq
  | ran hran hqueries =>
    obtain rfl := Option.some.inj (hstate.symm.trans hran)
    exact howns.queries_live hmem rfl (hqueries ▸ hq)

end Engine

theorem PassRecord.Sound.drawable_iff {a : Assets} {b : Backbuffer} {objects : EffectObjects}
    {index : Nat} {declared : List String} {bindings : List ViewSlot} {p : PassDecl}
    {r : PassRecord} (h : r.Sound a b objects index declared bindings p) (hs : a.Sound)
    (hl : a.Live) (hb : b.Sound a.device)
    (htargets : ∀ gamma, (b.targets.pick gamma).ref ∈ a.device.live)
    (hresolved : b.resolved.ref ∈ a.device.live) : r.Drawable a.device ↔ a.Provides b p r := by
  constructor
  · exact fun hr ↦ (h.provides_iff hs hl htargets).mpr ⟨hr.1, fun _ ↦ hresolved⟩
  · intro hprovides
    have hlive := (h.targetsLive_iff hs hl hb htargets).mpr hprovides
    exact ⟨fun t ht ↦ (hlive.targets t ht).1, fun v hv ↦ (hlive.mipViews v hv).1⟩

theorem forall_mem_drawnPasses {techniques : List Technique} {P : PassRecord → Prop} :
    (∀ x ∈ drawnPasses techniques, P x.record) ↔ ∀ t ∈ techniques, t.enabled = true →
      ∀ state, t.state = some state → ∀ r ∈ state.passes, P r := by
  constructor
  · intro h t ht henabled state hstate r hr
    exact h ⟨t, state, r⟩ (mem_drawnPasses_iff.mpr ⟨ht, henabled, hstate, hr⟩)
  · intro h x hx
    obtain ⟨ht, henabled, hstate, hr⟩ := mem_drawnPasses_iff.mp hx
    exact h _ ht henabled _ hstate _ hr

theorem forall_mem_iff_forall₂ {α β : Type} {R S : α → β → Prop} {P : β → Prop} {l : List α}
    {l' : List β} (h : List.Forall₂ R l l') (hiff : ∀ a b, R a b → (P b ↔ S a b)) :
    (∀ b ∈ l', P b) ↔ List.Forall₂ S l l' := by
  induction h with
  | nil => simp
  | cons hR _ ih => rw [List.forall_mem_cons, List.forall₂_cons, hiff _ _ hR, ih]

/-- **A frame names live objects exactly if the targets of what it draws are provided.** -/
theorem Engine.admits_present_iff {e : Engine} {others : Multiset ObjectRef} (h : e.Sound)
    (htables : e.Tables) (howns : e.Owns others) {b : Backbuffer} (hb : e.backbuffer = some b)
    (hbuffer : b.buffer.ref ∈ e.device.live) (tracker : DepthTracker) :
    ∃ cs, (e.present tracker).device.log = e.device.log ++ cs ∧
      ((e.present tracker).device.Admits cs ↔ ∀ t ∈ e.techniques, t.enabled = true →
        ∀ state, t.state = some state →
          List.Forall₂ (e.Provides b) t.passes state.passes) := by
  have hcontinues := Continues.present e tracker
  obtain ⟨hgrows, hs⟩ := hcontinues.assets htables.assets
  have howns' := howns.present tracker
  have hb' : (e.present tracker).backbuffer = some b := hcontinues.backbuffer.trans hb
  have hsound := (h.backbuffer b hb).evolves hgrows.device
  have hlive := howns'.backbufferLive hb' (e.mem_live_present tracker hbuffer)
  obtain ⟨htextures, heffects⟩ := e.tables_present tracker
  have hobjects (index : Nat) : (e.present tracker).objects? index = e.objects? index := by
    rw [objects?, effect?, heffects, objects?, effect?]
  -- what each technique names, as of the end of the frame
  have hsources : ∀ t ∈ e.techniques, ∀ state, t.state = some state →
      state.SourcesLive (e.present tracker).device := by
    intro t ht state hstate
    obtain ⟨_, objects, -, hobj, hstateSound⟩ := h.present htables tracker ht hstate
    exact hstateSound.sourcesLive hs howns'.assets_live
      (howns'.objects_live ((hobjects t.effect).trans hobj))
      (howns.queries_present tracker hb ht hstate)
  have hbuffers : ∀ t ∈ e.techniques, ∀ h, e.uniformBuffer? t.effect = some h →
      h.ref ∈ (e.present tracker).device.live := by
    intro t _ h hbuffer
    obtain ⟨objects, hobj, hsome⟩ := Option.bind_eq_some_iff.mp hbuffer
    refine howns'.objects_live ((hobjects t.effect).trans hobj) _ ?_
    simp [EffectObjects.refs, hsome]
  -- the frame changes neither the texture table nor what is alive of the backbuffer
  have hprovides : ∀ p r, (e.present tracker).Provides b p r ↔ e.Provides b p r := by
    intro p r
    unfold Assets.Provides Assets.targetView? Assets.texture?
    rw [htextures, iff_true_intro hlive.resolved,
      iff_true_intro (howns.backbufferLive hb hbuffer).resolved]
  have hdrawable : ∀ t ∈ e.techniques, ∀ state, t.state = some state →
      ((∀ r ∈ state.passes, r.Drawable (e.present tracker).device) ↔
        List.Forall₂ (e.Provides b) t.passes state.passes) := by
    intro t ht state hstate
    obtain ⟨b', _, hsame, -, hstateSound⟩ := h.present htables tracker ht hstate
    obtain rfl := Option.some.inj (hb.symm.trans hsame)
    refine forall_mem_iff_forall₂ hstateSound.passes fun p r hr ↦ ?_
    rw [← hprovides]
    exact hr.drawable_iff hs howns'.assets_live hsound (howns'.targets_live hb') hlive.resolved
  obtain ⟨cs, hissued, hlog⟩ := log_present hb tracker
  refine ⟨_, hlog, ?_⟩
  rw [Device.admits_append, Device.admits_append, admits_issuedBy_iff hlive hissued htables.loaded
    hsources hbuffers, forall_mem_drawnPasses, and_iff_left hlive.admits_copy,
    and_iff_right (hlive.admits_opening (e.mem_live_present tracker hbuffer))]
  constructor
  · exact fun hall t ht henabled state hstate ↦
      (hdrawable t ht state hstate).mp (hall t ht henabled state hstate)
  · exact fun hall t ht henabled state hstate ↦
      (hdrawable t ht state hstate).mpr (hall t ht henabled state hstate)

namespace Session

/-- **Handles dangle only where targets are not provided.** What an active technique names is alive,
with the textures behind its views, but for targets that belong to other effects and are not
provided any more. The commands of a frame name live objects exactly if it draws into no such
target. -/
theorem Reachable.targetsLive_iff_provides {s : Session} (hs : s.Reachable Event.Lawful) :
    (∀ t ∈ s.engine.techniques, ∀ state, t.state = some state →
      ∃ b, s.engine.backbuffer = some b ∧ state.SourcesLive s.device ∧
        List.Forall₂ (fun p r ↦ (r.TargetsLive s.device ↔ s.engine.Provides b p r) ∧
            (p.targetsBackbuffer = false → p.targetNames ⊆ s.engine.declaredNames t.effect →
              s.engine.Provides b p r))
          t.passes state.passes) ∧
    ∀ b, s.engine.backbuffer = some b → b.buffer.ref ∈ s.device.live → ∀ tracker,
      ∃ cs, (s.engine.present tracker).device.log = s.device.log ++ cs ∧
        ((s.engine.present tracker).device.Admits cs ↔ ∀ t ∈ s.engine.techniques,
          t.enabled = true → ∀ state, t.state = some state →
            List.Forall₂ (s.engine.Provides b) t.passes state.passes) := by
  obtain ⟨_, howns, -⟩ := hs.owns fun _ _ h ↦ h
  exact ⟨fun t ht state hstate ↦ hs.sound.live_iff hs.tables howns ht hstate,
    fun b hb hbuffer tracker ↦
      Engine.admits_present_iff hs.sound hs.tables howns hb hbuffer tracker⟩

/-- An effect that draws into a texture of another effect keeps its view when the other is unloaded,
and the next frame names it. -/
theorem not_targetsLive_small :
    let s := ((small.step (.load (.single "paint" [{ name := "canvas" }] [] ["canvas"]))).step
      (.load (.single "visit" [] [] ["canvas"]))).step (.unload 0)
    (∃ t ∈ s.engine.techniques, ∃ state, t.state = some state ∧ state.SourcesLive s.device ∧
      ∃ r ∈ state.passes, ¬r.TargetsLive s.device) ∧
    ∃ cs, (s.engine.present {}).device.log = s.device.log ++ cs ∧
      ¬(s.engine.present {}).device.Admits cs := by
  intro s
  have hs : s.Reachable Event.Lawful :=
    .step (.step (.step (.step (.step (.start {} {}) trivial) trivial) trivial) trivial) trivial
  obtain ⟨hstates, hframes⟩ := Reachable.targetsLive_iff_provides hs
  obtain ⟨b, hb⟩ : ∃ b, s.engine.backbuffer = some b :=
    Option.isSome_iff_exists.mp (by decide +kernel)
  have hbuffer : ∀ b ∈ s.engine.backbuffer, b.buffer.ref ∈ s.device.live := by decide +kernel
  obtain ⟨t, ht, henabled, state, hstate, p, r, hpair, hnot⟩ : ∃ t ∈ s.engine.techniques,
      t.enabled = true ∧ ∃ state, t.state = some state ∧
        ∃ p r, (p, r) ∈ t.passes.zip state.passes ∧ ¬s.engine.Provides b p r := by
    have hall : ∀ b ∈ s.engine.backbuffer, s.engine.techniques.any fun t ↦ t.enabled &&
        t.state.any fun state ↦ (t.passes.zip state.passes).any fun x ↦
          ¬s.engine.Provides b x.1 x.2 := by decide +kernel
    simpa [Option.any_eq_true] using hall b hb
  refine ⟨⟨t, ht, state, hstate, ?_⟩, ?_⟩
  · obtain ⟨b', hsame, hsources, hrecords⟩ := hstates t ht state hstate
    obtain rfl := Option.some.inj (hb.symm.trans hsame)
    have hrecord := (List.forall₂_iff_zip.mp hrecords).2 hpair
    exact ⟨hsources, r, (List.of_mem_zip hpair).2, fun hlive ↦ hnot (hrecord.1.mp hlive)⟩
  · obtain ⟨cs, hlog, hadmits⟩ := hframes b hb (hbuffer b hb) {}
    refine ⟨cs, hlog, fun h ↦ hnot ?_⟩
    exact (List.forall₂_iff_zip.mp (hadmits.mp h t ht henabled state hstate)).2 hpair

end Session

end EffectChain
