import EffectChain.Proofs.Frame.Run
import EffectChain.Proofs.Records.Session

/-!
# A frame draws what the records say

Commands that set state only matter for the draws that follow them, so a list of commands is read as
changes of a pipeline (`Pipeline.apply`), and what it draws is what the pipeline is at each of its
draws (`Pipeline.draws`).

Between passes the pipeline is *ready*: no view for shaders is bound, and the samplers and the
constant buffer are those of the technique (`Pipeline.Ready`). From there the commands of a pass
make one draw, at which the pipeline is as the record says, whatever was left of earlier passes
(`Pipeline.draws_pass`), and leave the pipeline ready again. So by induction the draws of a frame
match its records one by one (`Session.Reachable.draws_present`).
-/

namespace EffectChain

/-! ## Pipelines -/

/-- The state that a draw depends on. -/
structure Pipeline where
  /-- Vertex and pixel shader. -/
  shaders : Option (Handle .shader × Handle .shader) := none
  /-- Blend state. -/
  blend : Option (Handle .blendState) := none
  /-- Depth-stencil state and reference value of the stencil test. -/
  depthStencil : Option (Handle .depthStencilState × UInt32) := none
  /-- Width and height of the viewport. -/
  viewport : Option (UInt32 × UInt32) := none
  /-- Samplers, by slot. -/
  samplers : Nat → Option (Handle .sampler) := fun _ ↦ none
  /-- Views for shaders, by slot. -/
  views : Nat → Option (Handle .shaderView) := fun _ ↦ none
  /-- Views to draw into, by slot. -/
  targets : Nat → Option (Handle .renderTargetView) := fun _ ↦ none
  /-- The depth-stencil surface. -/
  stencilView : Option (Handle .depthStencilView) := none
  /-- The constant buffer. -/
  constantBuffer : Option (Handle .buffer) := none

/-- Slots with others bound from slot 0 on; those after the last one keep what they have. -/
def bindSlots {α : Type} (slots : Nat → Option α) (bound : List (Option α)) : Nat → Option α :=
  fun k ↦ bound[k]?.getD (slots k)

theorem bindSlots_of_lt {α : Type} {slots : Nat → Option α} {bound : List (Option α)} {k : Nat}
    (h : k < bound.length) : bindSlots slots bound k = bound[k] := by
  rw [bindSlots, List.getElem?_eq_getElem h, Option.getD_some]

theorem bindSlots_of_le {α : Type} {slots : Nat → Option α} {bound : List (Option α)} {k : Nat}
    (h : bound.length ≤ k) : bindSlots slots bound k = slots k := by
  rw [bindSlots, List.getElem?_eq_none h, Option.getD_none]

namespace Pipeline

def apply (p : Pipeline) : Command → Pipeline
  | .setShaders vertex pixel => { p with shaders := some (vertex, pixel) }
  | .setSamplers samplers => { p with samplers := bindSlots p.samplers samplers }
  | .setShaderResources views => { p with views := bindSlots p.views views }
  | .setConstantBuffer buffer => { p with constantBuffer := buffer }
  | .setBlendState state => { p with blend := some state }
  | .setDepthStencilState state reference => { p with depthStencil := some (state, reference) }
  | .setRenderTargets targets stencilView =>
    { p with targets := bindSlots p.targets targets, stencilView }
  | .setViewport width height => { p with viewport := some (width, height) }
  | .updateTexture .. | .updateConstantBuffer .. | .generateMips _ | .copyResource ..
  | .resolve .. | .clearRenderTarget .. | .clearStencil .. | .draw _ | .beginQuery _
  | .endQuery _ => p

def after (p : Pipeline) (cs : List Command) : Pipeline := cs.foldl apply p

/-- The draws among commands: how many vertices, and the pipeline at the time. -/
def draws (p : Pipeline) : List Command → List (UInt32 × Pipeline)
  | [] => []
  | .draw vertices :: rest => (vertices, p) :: p.draws rest
  | c :: rest => (p.apply c).draws rest

theorem after_nil (p : Pipeline) : p.after [] = p := rfl

theorem after_cons (p : Pipeline) (c : Command) (cs : List Command) :
    p.after (c :: cs) = (p.apply c).after cs := rfl

theorem after_append (p : Pipeline) (cs cs' : List Command) :
    p.after (cs ++ cs') = (p.after cs).after cs' := by
  unfold after
  rw [List.foldl_append]

theorem draws_append (p : Pipeline) (cs cs' : List Command) :
    p.draws (cs ++ cs') = p.draws cs ++ (p.after cs).draws cs' := by
  induction cs generalizing p with
  | nil => rfl
  | cons c cs ih => cases c <;> simpa [draws, after, apply] using ih _

end Pipeline

/-! ## Commands that leave the pipeline alone -/

/-- Whether the command neither draws nor changes the pipeline. -/
def Command.isNeutral : Command → Bool
  | .updateTexture .. | .updateConstantBuffer .. | .generateMips _ | .copyResource ..
  | .resolve .. | .clearRenderTarget .. | .clearStencil .. | .beginQuery _ | .endQuery _ => true
  | _ => false

theorem Command.isNeutral_of_measures {queries : List (Handle .query)} {c : Command}
    (h : c.measures queries) : c.isNeutral := by
  cases c <;> first | rfl | cases h

namespace Pipeline

variable {p : Pipeline} {cs : List Command}

theorem neutral (h : ∀ c ∈ cs, c.isNeutral) : p.draws cs = [] ∧ p.after cs = p := by
  induction cs with
  | nil => exact ⟨rfl, rfl⟩
  | cons c cs ih =>
    have hrest := ih fun d hd ↦ h d (List.mem_cons_of_mem c hd)
    have hc := h c List.mem_cons_self
    cases c <;> first | exact hrest | cases hc

theorem draws_between (p : Pipeline) (cs : List Command) {opening closing : List Command}
    (hopening : ∀ c ∈ opening, c.isNeutral) (hclosing : ∀ c ∈ closing, c.isNeutral) :
    p.draws (opening ++ cs ++ closing) = p.draws cs ∧
      p.after (opening ++ cs ++ closing) = p.after cs := by
  obtain ⟨hdraws, hafter⟩ := neutral (p := p) hopening
  obtain ⟨hdraws', hafter'⟩ := neutral (p := p.after cs) hclosing
  simp only [draws_append, after_append, hdraws, hafter, hdraws', hafter', List.nil_append,
    List.append_nil, and_self]

/-! ## Passes -/

/-- The pipeline between the passes of a technique. -/
structure Ready (p : Pipeline) (samplers : List (Option (Handle .sampler)))
    (buffer : Option (Handle .buffer)) : Prop where
  /-- No view for shaders is bound. -/
  views : ∀ k, p.views k = none
  /-- The samplers are those of the technique. -/
  samplers : ∀ k, (h : k < samplers.length) → p.samplers k = samplers[k]
  /-- The constant buffer is that of its effect. -/
  constantBuffer : p.constantBuffer = buffer

/-- The pipeline is as the record of a pass says. -/
structure Runs (p : Pipeline) (b : Backbuffer) (depthView : Option (Handle .shaderView))
    (samplers : List (Option (Handle .sampler))) (buffer : Option (Handle .buffer))
    (r : PassRecord) : Prop where
  /-- Its shaders. -/
  shaders : p.shaders = some (r.vertexShader, r.pixelShader)
  /-- Its blend state. -/
  blend : p.blend = some r.blend
  /-- Its depth-stencil state and reference value. -/
  depthStencil : p.depthStencil = some (r.depthStencil, r.stencilReference)
  /-- Its viewport. -/
  viewport : p.viewport = some r.viewport
  /-- Its targets, and no others. -/
  targets : ∀ k < maxRenderTargets, p.targets k = r.targets[k]?
  /-- The stencil surface, if it uses it and has its size. -/
  stencilView : p.stencilView =
    if r.stencilEnable ∧ r.viewport = (b.width, b.height) then some b.stencilView else none
  /-- What its inputs stand for, and nothing else. -/
  views : ∀ k, p.views k = r.inputs[k]?.bind (b.resolveSlot depthView)
  /-- The constant buffer of its effect. -/
  constantBuffer : p.constantBuffer = buffer
  /-- The samplers of its technique. -/
  samplers : ∀ k, (h : k < samplers.length) → p.samplers k = samplers[k]

theorem bindSlots_targetSlots (r : PassRecord) (slots : Nat → Option (Handle .renderTargetView))
    {k : Nat} (hk : k < maxRenderTargets) : bindSlots slots r.targetSlots k = r.targets[k]? := by
  rw [bindSlots, PassRecord.targetSlots, List.getElem?_append, List.length_map]
  split
  · rename_i hlt
    rw [List.getElem?_map, List.getElem?_eq_getElem hlt]
    rfl
  · rename_i hle
    rw [List.getElem?_eq_none (Nat.le_of_not_lt hle), List.getElem?_replicate, if_pos (by omega)]
    rfl

theorem bindSlots_views {slots : Nat → Option (Handle .shaderView)} (h : ∀ k, slots k = none)
    (inputs : List ViewSlot) (f : ViewSlot → Option (Handle .shaderView)) (k : Nat) :
    bindSlots slots (inputs.map f) k = inputs[k]?.bind f := by
  rw [bindSlots, List.getElem?_map, h]
  rcases inputs[k]? with _ | slot <;> rfl

theorem bindSlots_none {slots : Nat → Option (Handle .shaderView)} (h : ∀ k, slots k = none)
    (views : List (Option (Handle .shaderView))) (k : Nat) :
    bindSlots (bindSlots slots views) (views.map fun _ ↦ none) k = none := by
  rcases Nat.lt_or_ge k views.length with hlt | hge
  · rw [bindSlots_of_lt (by rwa [List.length_map]), List.getElem_map]
  · rw [bindSlots_of_le (by rwa [List.length_map]), bindSlots_of_le hge, h]

variable {b : Backbuffer} {depthView : Option (Handle .shaderView)}
  {samplers : List (Option (Handle .sampler))} {buffer : Option (Handle .buffer)}

/-- **A pass makes one draw**, at which the pipeline is as its record says, and leaves the pipeline
ready for the next one. -/
theorem draws_pass (h : p.Ready samplers buffer) (r : PassRecord) (clearsStencil : Bool) :
    (∃ q : Pipeline, p.draws (r.commands b depthView clearsStencil) = [(r.vertexCount, q)] ∧
      q.Runs b depthView samplers buffer r) ∧
    (p.after (r.commands b depthView clearsStencil)).Ready samplers buffer := by
  have hstencil : ∀ c ∈ (if clearsStencil then [.clearStencil b.stencilView 0] else [] :
      List Command), c.isNeutral := by
    split <;> simp [Command.isNeutral]
  have hclears : ∀ c ∈ (if r.clearsTargets then r.targets.map fun t ↦
      .clearRenderTarget t .transparent else [] : List Command), c.isNeutral := by
    split <;> simp [Command.isNeutral]
  have hmips : ∀ c ∈ r.mipViews.map Command.generateMips, c.isNeutral := by
    simp [Command.isNeutral]
  rw [PassRecord.commands]
  simp only [draws_append, after_append, neutral hstencil, neutral hclears, neutral hmips,
    List.append_nil, List.nil_append, draws, after_nil, after_cons, apply]
  refine ⟨⟨_, rfl, ?_⟩, ⟨?_, h.samplers, h.constantBuffer⟩⟩
  · exact {
      shaders := rfl
      blend := rfl
      depthStencil := rfl
      viewport := rfl
      targets := fun k hk ↦ bindSlots_targetSlots r _ hk
      stencilView := by simp [PassRecord.usesStencil]
      views := fun k ↦ bindSlots_views h.views _ _ k
      constantBuffer := h.constantBuffer
      samplers := h.samplers }
  · -- as many slots are emptied as were bound
    exact fun k ↦ bindSlots_none h.views _ k

variable (b depthView)

theorem draws_passes (h : p.Ready samplers buffer) (cleared : Bool) (records : List PassRecord) :
    List.Forall₂ (fun r draw ↦ draw.1 = r.vertexCount ∧ draw.2.Runs b depthView samplers buffer r)
      records (p.draws (passCommands b depthView cleared records)) ∧
    (p.after (passCommands b depthView cleared records)).Ready samplers buffer := by
  induction records generalizing p cleared with
  | nil => exact ⟨List.Forall₂.nil, h⟩
  | cons r rest ih =>
    rw [passCommands]
    obtain ⟨⟨q, hdraws, hruns⟩, hready⟩ := draws_pass h r (r.usesStencil b && !cleared)
    obtain ⟨hrest, hafter⟩ := ih hready (cleared || r.usesStencil b)
    rw [draws_append, after_append, hdraws]
    exact ⟨List.Forall₂.cons ⟨rfl, hruns⟩ hrest, hafter⟩

/-! ## Techniques -/

/-- The samplers and the constant buffer are bound before the first pass. -/
theorem draws_technique (hviews : ∀ k, p.views k = none) (s : TechniqueState) (e : Effect) :
    List.Forall₂ (fun r draw ↦ draw.1 = r.vertexCount ∧
        draw.2.Runs b depthView s.samplers (e.objects.bind (·.uniformBuffer)) r)
      s.passes (p.draws (s.commands b depthView e)) ∧
    ∀ k, (p.after (s.commands b depthView e)).views k = none := by
  have hupdates : ∀ c ∈ (e.objects.bind (·.uniformBuffer)).toList.map fun h ↦
      Command.updateConstantBuffer h e.uniforms, c.isNeutral := by
    simp [Command.isNeutral]
  have hready : ({ p with
      samplers := bindSlots p.samplers s.samplers
      constantBuffer := e.objects.bind (·.uniformBuffer) } : Pipeline).Ready s.samplers
        (e.objects.bind (·.uniformBuffer)) :=
    ⟨hviews, fun k hk ↦ bindSlots_of_lt hk, rfl⟩
  obtain ⟨hdraws, hafter⟩ := draws_passes b depthView hready false s.passes
  rw [TechniqueState.commands]
  simp only [draws_append, after_append, neutral hupdates, List.nil_append, draws, after_nil,
    after_cons, apply]
  exact ⟨hdraws, hafter.views⟩

end Pipeline

/-- A pass that a frame draws. -/
structure DrawnPass where
  /-- Its technique. -/
  technique : Technique
  /-- The state of the technique. -/
  state : TechniqueState
  /-- The record of the pass. -/
  record : PassRecord

/-- The passes that a frame draws: those of the techniques that are enabled and active, in order. -/
def drawnPasses (techniques : List Technique) : List DrawnPass :=
  (techniques.filter (·.enabled)).flatMap fun t ↦ t.state.toList.flatMap fun s ↦
    s.passes.map fun r ↦ ⟨t, s, r⟩

theorem mem_drawnPasses_iff {techniques : List Technique} {x : DrawnPass} :
    x ∈ drawnPasses techniques ↔ x.technique ∈ techniques ∧ x.technique.enabled = true ∧
      x.technique.state = some x.state ∧ x.record ∈ x.state.passes := by
  obtain ⟨t, s, r⟩ := x
  simp only [drawnPasses, List.mem_flatMap, List.mem_filter, Option.mem_toList, List.mem_map,
    DrawnPass.mk.injEq]
  constructor
  · rintro ⟨t', ⟨ht, henabled⟩, s', hs, r', hr, rfl, rfl, rfl⟩
    exact ⟨ht, henabled, hs, hr⟩
  · rintro ⟨ht, henabled, hs, hr⟩
    exact ⟨t, ⟨ht, henabled⟩, s, hs, r, hr, rfl, rfl, rfl⟩

/-- The constant buffer of the effect of an index. -/
def Engine.uniformBuffer? (e : Engine) (index : Nat) : Option (Handle .buffer) :=
  (e.objects? index).bind (·.uniformBuffer)

/-- The draw is that of a pass: as many vertices, with the pipeline that the record describes. -/
def DrawnPass.Makes (e : Engine) (b : Backbuffer) (depthView : Option (Handle .shaderView))
    (x : DrawnPass) (draw : UInt32 × Pipeline) : Prop :=
  draw.1 = x.record.vertexCount ∧
    draw.2.Runs b depthView x.state.samplers (e.uniformBuffer? x.technique.effect) x.record

section Techniques

variable {e : Engine} {t : Technique} {rest : List Technique}

theorem drawnPasses_of_not_runnable (hloaded : (e.effect? t.effect).isSome)
    (h : t.runnable? e.effect? = none) : drawnPasses (t :: rest) = drawnPasses rest := by
  obtain ⟨effect, heffect⟩ := Option.isSome_iff_exists.mp hloaded
  rw [Technique.runnable?, heffect] at h
  unfold drawnPasses
  rcases henabled : t.enabled with _ | _
  · rw [List.filter_cons_of_neg (by simp [henabled])]
  · rw [List.filter_cons_of_pos (by simp [henabled]), List.flatMap_cons]
    rcases hstate : t.state with _ | state
    · rfl
    · simp [henabled, hstate] at h

theorem drawnPasses_of_runnable {state : TechniqueState} {effect : Effect}
    (h : t.runnable? e.effect? = some (state, effect)) :
    drawnPasses (t :: rest) = (state.passes.map fun r ↦ ⟨t, state, r⟩) ++ drawnPasses rest := by
  obtain ⟨henabled, hstate, -⟩ := Technique.state_of_runnable? h
  unfold drawnPasses
  rw [List.filter_cons_of_pos (by simp [henabled]), List.flatMap_cons, hstate]
  simp

/-- The draws of techniques are those of the passes that can run, in order. -/
theorem draws_issuedBy {b : Backbuffer} {depthView : Option (Handle .shaderView)}
    {techniques : List Technique} {cs : List Command}
    (hloaded : ∀ t ∈ techniques, (e.effect? t.effect).isSome)
    (hissued : IssuedBy b depthView e.effect? techniques cs) {p : Pipeline}
    (hviews : ∀ k, p.views k = none) :
    List.Forall₂ (DrawnPass.Makes e b depthView) (drawnPasses techniques) (p.draws cs) ∧
      ∀ k, (p.after cs).views k = none := by
  induction hissued generalizing p with
  | nil => exact ⟨List.Forall₂.nil, hviews⟩
  | @cons t rest cs cs' hfirst hrest ih =>
    have hothers := fun u hu ↦ hloaded u (List.mem_cons_of_mem t hu)
    rw [Pipeline.draws_append, Pipeline.after_append]
    rw [Technique.Issues] at hfirst
    rcases hrun : t.runnable? e.effect? with _ | ⟨state, effect⟩ <;> rw [hrun] at hfirst
    · rw [hfirst, drawnPasses_of_not_runnable (hloaded t List.mem_cons_self) hrun]
      exact ih hothers hviews
    · obtain ⟨opening, closing, rfl, hopening, hclosing⟩ := hfirst
      obtain ⟨-, -, heffect⟩ := Technique.state_of_runnable? hrun
      have hbuffer : effect.objects.bind (·.uniformBuffer) = e.uniformBuffer? t.effect := by
        rw [Engine.uniformBuffer?, Engine.objects?, heffect]
        rfl
      obtain ⟨hdraws, hafter⟩ := p.draws_between (state.commands b depthView effect)
        (fun c hc ↦ Command.isNeutral_of_measures (hopening c hc))
        (fun c hc ↦ Command.isNeutral_of_measures (hclosing c hc))
      obtain ⟨hown, hready⟩ :=
        Pipeline.draws_technique b depthView hviews state effect
      rw [hbuffer] at hown
      obtain ⟨hrest, hend⟩ := ih hothers hready
      rw [hdraws, hafter, drawnPasses_of_runnable hrun]
      exact ⟨List.rel_append (List.forall₂_map_left_iff.mpr hown) hrest, hend⟩

end Techniques

/-! ## Frames -/

theorem DepthAlias.log_point (a : DepthAlias) (texture : Option (Handle .texture)) (d : Device) :
    (a.point texture d).2.log = d.log := by
  refine a.point_induction (P := fun d' ↦ d'.log = d.log) texture rfl (fun _ h ↦ h) ?_
  intro content d' hd'
  rw [Device.log_create, hd']

/-- The records of a technique draw as many vertices as its declared passes. -/
theorem map_vertexCount_drawnPasses {e : Engine} (h : e.Sound) :
    (drawnPasses e.techniques).map (·.record.vertexCount)
      = (e.techniques.filter fun t ↦ t.enabled && t.isActive).flatMap fun t ↦
          t.passes.map (·.vertexCount) := by
  have hrecords := h.techniques
  generalize e.techniques = techniques at hrecords ⊢
  induction techniques with
  | nil => rfl
  | cons t rest ih =>
    have hrest := ih fun u hu ↦ hrecords u (List.mem_cons_of_mem t hu)
    rw [drawnPasses] at hrest ⊢
    rcases henabled : t.enabled with _ | _
    · rw [List.filter_cons_of_neg (by simp [henabled]),
        List.filter_cons_of_neg (by simp [henabled])]
      exact hrest
    · rw [List.filter_cons_of_pos (by simp [henabled]), List.flatMap_cons, List.map_append, hrest]
      rcases hstate : t.state with _ | state
      · rw [List.filter_cons_of_neg (by simp [Technique.isActive, hstate])]
        rfl
      · rw [List.filter_cons_of_pos (by simp [Technique.isActive, henabled, hstate]),
          List.flatMap_cons]
        obtain ⟨b, objects, -, -, hsound⟩ := hrecords t List.mem_cons_self state hstate
        have hcounts : t.passes.map (·.vertexCount) = state.passes.map (·.vertexCount) := by
          have hpasses := hsound.passes
          generalize t.passes = passes, state.passes = records at hpasses ⊢
          induction hpasses with
          | nil => rfl
          | cons hr _ ih => rw [List.map_cons, List.map_cons, hr.vertexCount, ih]
        simp [hcounts]

/-- The commands of a frame: those of the techniques, between the frame's own. -/
theorem Engine.log_present {e : Engine} {b : Backbuffer} (hb : e.backbuffer = some b)
    (tracker : DepthTracker) :
    ∃ cs, IssuedBy b (e.present tracker).depth.view e.effect? e.techniques cs ∧
      (e.present tracker).device.log
        = e.device.log ++ (b.opening ++ cs ++ [.copyResource b.copy b.resolved]) := by
  obtain ⟨techniques, cs, hissued, -, hpresent⟩ := present_eq hb tracker
  rw [hpresent, Device.log_issueAll, pointed, DepthAlias.log_point]
  exact ⟨cs, hissued, rfl⟩

/-- The draws of a frame are those of the passes that can run, in order, and no view for shaders is
left bound. -/
theorem Engine.draws_eq {e : Engine} (htables : e.Tables) {b : Backbuffer}
    (hb : e.backbuffer = some b) (tracker : DepthTracker) {p : Pipeline}
    (hviews : ∀ k, p.views k = none) :
    ∃ cs, (e.present tracker).device.log = e.device.log ++ cs ∧
      List.Forall₂ (DrawnPass.Makes e b (e.present tracker).depth.view) (drawnPasses e.techniques)
        (p.draws cs) ∧
      ∀ k, (p.after cs).views k = none := by
  obtain ⟨cs, hissued, hlog⟩ := log_present hb tracker
  -- the frame's own commands set targets at most, which every pass sets again
  have hopening : p.draws b.opening = [] ∧ ∀ k, (p.after b.opening).views k = none := by
    rw [Backbuffer.opening]
    split <;> exact ⟨rfl, hviews⟩
  obtain ⟨hdraws, hafter⟩ := draws_issuedBy htables.loaded hissued hopening.2
  refine ⟨_, hlog, ?_, fun k ↦ ?_⟩
  · rw [Pipeline.draws_append, Pipeline.draws_append, hopening.1, List.nil_append]
    change List.Forall₂ _ _ (_ ++ [])
    rw [List.append_nil]
    exact hdraws
  · rw [Pipeline.after_append, Pipeline.after_append]
    exact hafter k

/-- **A frame draws exactly the pass records.** Interpreted from a pipeline without views for
shaders, the commands of a frame draw the passes of the techniques that are enabled and active, in
order, each with the pipeline that its record describes, and end without views for shaders. -/
theorem Session.Reachable.draws_present {allowed : Session → Event → Prop} {s : Session}
    (hs : s.Reachable allowed) {b : Backbuffer} (hb : s.engine.backbuffer = some b)
    (tracker : DepthTracker) {p : Pipeline} (hviews : ∀ k, p.views k = none) :
    ∃ cs, (s.engine.present tracker).device.log = s.device.log ++ cs ∧
      (p.draws cs).map (·.1)
        = ((s.engine.techniques.filter fun t ↦ t.enabled && t.isActive).flatMap fun t ↦
            t.passes.map (·.vertexCount)) ∧
      List.Forall₂ (DrawnPass.Makes s.engine b (s.engine.present tracker).depth.view)
        (drawnPasses s.engine.techniques) (p.draws cs) ∧
      ∀ k, (p.after cs).views k = none := by
  obtain ⟨cs, hlog, hdraws, hafter⟩ := Engine.draws_eq hs.tables hb tracker hviews
  refine ⟨cs, hlog, ?_, hdraws, hafter⟩
  rw [← map_vertexCount_drawnPasses hs.sound]
  generalize p.draws cs = draws, drawnPasses _ = passes at hdraws ⊢
  induction hdraws with
  | nil => rfl
  | cons hmakes _ ih => rw [List.map_cons, List.map_cons, hmakes.1, ih]

/-- A frame of a session with two effects, of which one is switched off. -/
theorem Session.draws_present_small :
    let s := ((small.step (.load (.single "paint" [{ name := "canvas" }] [] ["canvas"]))).step
      (.load (.single "show" [] [] []))).step (.setEnabled "paint" false)
    ∃ b cs, s.engine.backbuffer = some b ∧
      (s.engine.present {}).device.log = s.device.log ++ cs ∧
      (Pipeline.draws {} cs).map (·.1) = [3] ∧
      List.Forall₂ (DrawnPass.Makes s.engine b (s.engine.present {}).depth.view)
        (drawnPasses s.engine.techniques) (Pipeline.draws {} cs) := by
  intro s
  have hs : s.Reachable Event.Lawful :=
    .step (.step (.step (.step (.step (.start {} {}) trivial) trivial) trivial) trivial) trivial
  obtain ⟨b, hb⟩ : ∃ b, s.engine.backbuffer = some b :=
    Option.isSome_iff_exists.mp (by decide +kernel)
  obtain ⟨cs, hlog, hvertices, hdraws, -⟩ :=
    Reachable.draws_present hs hb {} (p := {}) fun _ ↦ rfl
  refine ⟨b, cs, hb, hlog, hvertices.trans ?_, hdraws⟩
  decide +kernel

end EffectChain
