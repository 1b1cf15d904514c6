import EffectChain.Proofs.Frame.Pipeline
import EffectChain.Proofs.Frame.Stages
import EffectChain.Proofs.Records.Declared
import EffectChain.Proofs.Records.Resolved

/-!
# The stencil surface in a frame

All techniques share one stencil surface. A pass has it bound if it enables the stencil and has a
viewport of the size of the backbuffer, and the first such pass of a technique clears it. So what a
technique finds in the surface is what it put there itself: its one clear comes after all that
earlier techniques draw with the surface, and before anything that it draws with the surface itself
(`Session.Reachable.stencil_present`).

Whether a pass clears depends on the passes before it, by a flag. The induction over the passes
of a technique is therefore on two statements: one for passes after the clear, or without need of
one, and one for passes that still have it ahead of them.
-/

namespace EffectChain

/-- Whether the command clears a stencil surface. -/
def Command.clearsStencil : Command → Bool
  | .clearStencil .. => true
  | _ => false

theorem Command.not_clearsStencil_of_isSetup {c : Command} (h : c.isSetup) :
    c.clearsStencil = false := by
  cases c <;> first | rfl | cases h

theorem Pipeline.draws_of_isSetup {cs : List Command} (h : ∀ c ∈ cs, c.isSetup) (p : Pipeline) :
    p.draws cs = [] := by
  induction cs generalizing p with
  | nil => rfl
  | cons c cs ih =>
    have hrest := fun p : Pipeline ↦ ih (fun c' hc' ↦ h c' (List.mem_cons_of_mem c hc')) p
    have hc := h c List.mem_cons_self
    cases c <;> first | exact hrest _ | cases hc

/-! ## Passes -/

namespace PassRecord

variable {b : Backbuffer} {depthView : Option (Handle .shaderView)} {r : PassRecord}

/-- The pass enables the stencil, and its viewport has the size of the backbuffer. -/
def Masks (b : Backbuffer) (r : PassRecord) : Prop :=
  r.stencilEnable = true ∧ r.viewport = (b.width, b.height)

instance (b : Backbuffer) (r : PassRecord) : Decidable (r.Masks b) := by
  unfold Masks
  infer_instance

theorem usesStencil_iff : r.usesStencil b = true ↔ r.Masks b := by
  simp [usesStencil, Masks]

/-- The draw is that of the pass, with its viewport, and has the surface bound if the pass is to
have it. -/
structure DrawnWith (b : Backbuffer) (r : PassRecord) (draw : UInt32 × Pipeline) : Prop where
  /-- It draws as many vertices. -/
  vertexCount : draw.1 = r.vertexCount
  /-- It has the viewport of the pass. -/
  viewport : draw.2.viewport = some r.viewport
  /-- The surface is bound for nothing but the stencil at full size. -/
  stencilView : draw.2.stencilView = if r.Masks b then some b.stencilView else none

variable (b depthView r) in
/-- The commands of a pass up to its clear of the surface, and from there on. -/
theorem commands_eq_append (clears : Bool) :
    ∃ before after, r.commands b depthView clears
        = before ++ ((if clears then [.clearStencil b.stencilView 0] else []) ++ after) ∧
      (∀ c ∈ before ++ after, c.clearsStencil = false) ∧
      (∀ p : Pipeline, p.draws before = []) ∧
      ∀ p : Pipeline, ∃ q, p.draws after = [(r.vertexCount, q)] ∧
        r.DrawnWith b (r.vertexCount, q) := by
  have hclears : ∀ c ∈ (if r.clearsTargets then r.targets.map fun t ↦
      .clearRenderTarget t .transparent else [] : List Command),
      c.isNeutral ∧ c.clearsStencil = false := by
    split <;> simp [Command.isNeutral, Command.clearsStencil]
  have hmips : ∀ c ∈ r.mipViews.map Command.generateMips,
      c.isNeutral ∧ c.clearsStencil = false := by
    simp [Command.isNeutral, Command.clearsStencil]
  refine ⟨[.setShaders r.vertexShader r.pixelShader, .setBlendState r.blend,
      .setDepthStencilState r.depthStencil r.stencilReference, .copyResource b.copy b.resolved,
      .setShaderResources (r.boundViews b depthView)],
    .setRenderTargets r.targetSlots (if r.usesStencil b then some b.stencilView else none) ::
      ((if r.clearsTargets then r.targets.map fun t ↦ .clearRenderTarget t .transparent else [])
        ++ ([.setViewport r.viewport.1 r.viewport.2, .draw r.vertexCount,
          .setRenderTargets (List.replicate maxRenderTargets none) none,
          .setShaderResources ((r.boundViews b depthView).map fun _ ↦ none)]
        ++ r.mipViews.map .generateMips)), ?_, ?_, fun p ↦ rfl, fun p ↦ ?_⟩
  · simp only [commands, List.append_assoc, List.cons_append, List.nil_append]
  · simp only [List.forall_mem_append, List.forall_mem_cons]
    exact ⟨⟨rfl, rfl, rfl, rfl, rfl, List.forall_mem_nil _⟩, rfl, fun c hc ↦ (hclears c hc).2,
      ⟨rfl, rfl, rfl, rfl, List.forall_mem_nil _⟩, fun c hc ↦ (hmips c hc).2⟩
  · simp only [Pipeline.draws_append, Pipeline.neutral fun c hc ↦ (hclears c hc).1,
      Pipeline.neutral fun c hc ↦ (hmips c hc).1, List.append_nil, List.nil_append, Pipeline.draws,
      Pipeline.apply]
    refine ⟨_, rfl, rfl, rfl, ?_⟩
    simp only [usesStencil_iff]

variable (b depthView r) in
theorem draws_commands (clears : Bool) (p : Pipeline) :
    ∃ draw, p.draws (r.commands b depthView clears) = [draw] ∧ r.DrawnWith b draw := by
  obtain ⟨before, after, hcommands, -, hbefore, hafter⟩ := r.commands_eq_append b depthView clears
  have hclear : ∀ c ∈ (if clears then [.clearStencil b.stencilView 0] else [] : List Command),
      c.isNeutral := by
    split <;> simp [Command.isNeutral]
  obtain ⟨q, hq, hdrawn⟩ := hafter (p.after before)
  refine ⟨(r.vertexCount, q), ?_, hdrawn⟩
  rw [hcommands, Pipeline.draws_append, Pipeline.draws_append, hbefore,
    (Pipeline.neutral hclear).1, (Pipeline.neutral hclear).2, hq]
  rfl

end PassRecord

/-! ## Passes of a technique -/

section Passes

variable {b : Backbuffer} {depthView : Option (Handle .shaderView)}

variable (b depthView) in
theorem forall₂_drawnWith (cleared : Bool) (records : List PassRecord) (p : Pipeline) :
    List.Forall₂ (PassRecord.DrawnWith b) records
      (p.draws (passCommands b depthView cleared records)) := by
  induction records generalizing cleared p with
  | nil => exact .nil
  | cons r rest ih =>
    obtain ⟨draw, hdraw, hdrawn⟩ := r.draws_commands b depthView (r.usesStencil b && !cleared) p
    rw [passCommands, Pipeline.draws_append, hdraw]
    exact .cons hdrawn (ih _ _)

/-- Passes do not clear if there is no need to, or not any more. -/
theorem not_clearsStencil_passCommands {cleared : Bool} {records : List PassRecord}
    (h : cleared = true ∨ ∀ r ∈ records, ¬ r.Masks b) :
    ∀ c ∈ passCommands b depthView cleared records, c.clearsStencil = false := by
  induction records generalizing cleared with
  | nil => nofun
  | cons r rest ih =>
    obtain ⟨before, after, hcommands, hothers, -, -⟩ :=
      r.commands_eq_append b depthView (r.usesStencil b && !cleared)
    have hspares : (r.usesStencil b && !cleared) = false := by
      rcases h with rfl | h
      · simp
      · have hr := h r List.mem_cons_self
        rw [← PassRecord.usesStencil_iff] at hr
        simp [hr]
    rw [passCommands, hcommands, hspares, List.forall_mem_append]
    refine ⟨hothers, ih ?_⟩
    rcases h with rfl | h
    · simp
    · exact Or.inr fun r hr ↦ h r (List.mem_cons_of_mem _ hr)

variable (depthView) in
/-- The first pass that has the surface bound clears it, ahead of its draw. -/
theorem passCommands_eq_append {records : List PassRecord} (h : ∃ r ∈ records, r.Masks b) :
    ∃ before after, passCommands b depthView false records
        = before ++ .clearStencil b.stencilView 0 :: after ∧
      (∀ c ∈ before ++ after, c.clearsStencil = false) ∧
      ∀ p : Pipeline, ∀ draw ∈ p.draws before, draw.2.stencilView = none := by
  induction records with
  | nil => simp at h
  | cons r rest ih =>
    rw [passCommands]
    -- the first pass that masks clears; those ahead of it do not have the surface bound
    by_cases hr : r.Masks b
    · have huses := PassRecord.usesStencil_iff.mpr hr
      obtain ⟨before, after, hcommands, hothers, hbefore, -⟩ :=
        r.commands_eq_append b depthView true
      rw [huses, Bool.not_false, Bool.and_true, Bool.or_true, hcommands]
      refine ⟨before, after ++ passCommands b depthView true rest, by simp, ?_, ?_⟩
      · rw [← List.append_assoc, List.forall_mem_append]
        exact ⟨hothers, not_clearsStencil_passCommands (Or.inl rfl)⟩
      · intro p draw hdraw
        rw [hbefore] at hdraw
        cases hdraw
    · have huses : r.usesStencil b = false := by
        rw [← PassRecord.usesStencil_iff] at hr
        simpa using hr
      obtain ⟨before, after, hcommands, hothers, hbefore⟩ := ih (by simpa [hr] using h)
      rw [huses, Bool.false_and, Bool.or_false, hcommands]
      refine ⟨r.commands b depthView false ++ before, after, (List.append_assoc _ _ _).symm, ?_, ?_⟩
      · obtain ⟨before', after', hcommands', hothers', -⟩ := r.commands_eq_append b depthView false
        rw [List.append_assoc, List.forall_mem_append, hcommands']
        exact ⟨hothers', hothers⟩
      · intro p draw hdraw
        rw [Pipeline.draws_append, List.mem_append] at hdraw
        rcases hdraw with hdraw | hdraw
        · obtain ⟨draw', hdraw', hdrawn⟩ := r.draws_commands b depthView false p
          obtain rfl := List.mem_singleton.mp (hdraw' ▸ hdraw)
          rw [hdrawn.stencilView, if_neg hr]
        · exact hbefore _ draw hdraw

end Passes

/-! ## Techniques -/

/-- What the commands `cs` of a technique do with the stencil surface, in a frame that issued
`start` ahead of them. -/
structure StencilRun (p : Pipeline) (b : Backbuffer) (start : List Command)
    (passes : List PassRecord) (cs : List Command) : Prop where
  /-- Its draws are those of its passes, in order. The surface is bound for those that enable the
  stencil and have a viewport of its size, and for no other. -/
  draws : List.Forall₂ (PassRecord.DrawnWith b) passes ((p.after start).draws cs)
  /-- If there is such a pass, the surface is cleared to zero, once. What the frame has drawn with
  the surface by then is what it drew ahead of the technique. -/
  cleared : (∃ r ∈ passes, r.Masks b) →
    ∃ before after, cs = before ++ .clearStencil b.stencilView 0 :: after ∧
      (∀ c ∈ before ++ after, c.clearsStencil = false) ∧
      (p.draws (start ++ before)).filter (·.2.stencilView.isSome)
        = (p.draws start).filter (·.2.stencilView.isSome)
  /-- If there is none, it is not cleared. -/
  spared : (∀ r ∈ passes, ¬ r.Masks b) → ∀ c ∈ cs, c.clearsStencil = false

/-- **A technique clears the surface once, if it needs it at all**, wherever it stands in a
frame. -/
theorem Technique.Issues.stencilRun {t : Technique} {b : Backbuffer}
    {depthView : Option (Handle .shaderView)} {effect? : Nat → Option Effect} {cs : List Command}
    {state : TechniqueState} {effect : Effect} (h : t.Issues b depthView effect? cs)
    (hrun : t.runnable? effect? = some (state, effect)) (p : Pipeline) (start : List Command) :
    StencilRun p b start state.passes cs := by
  obtain ⟨opening, closing, rfl, hopening, hclosing⟩ := h.exists_setup hrun
  have hsetup : ∀ c ∈ opening ++ closing, c.clearsStencil = false := fun c hc ↦
    Command.not_clearsStencil_of_isSetup ((List.mem_append.mp hc).elim (hopening c) (hclosing c))
  rw [List.forall_mem_append] at hsetup
  constructor
  · rw [Pipeline.draws_append, Pipeline.draws_append, Pipeline.draws_of_isSetup hopening,
      Pipeline.draws_of_isSetup hclosing, List.nil_append, List.append_nil]
    exact forall₂_drawnWith b depthView false state.passes _
  · intro hmasks
    obtain ⟨before, after, hcommands, hothers, hbefore⟩ := passCommands_eq_append depthView hmasks
    rw [List.forall_mem_append] at hothers
    refine ⟨opening ++ before, after ++ closing, ?_, ?_, ?_⟩
    · rw [hcommands]
      simp only [List.append_assoc, List.cons_append]
    · simp only [List.forall_mem_append]
      exact ⟨⟨hsetup.1, hothers.1⟩, hothers.2, hsetup.2⟩
    · -- nothing is drawn with the surface before it is cleared
      have hnone : ((p.after start).draws (opening ++ before)).filter (·.2.stencilView.isSome)
          = [] := by
        rw [Pipeline.draws_append, Pipeline.draws_of_isSetup hopening, List.nil_append,
          List.filter_eq_nil_iff]
        intro draw hdraw
        simp [hbefore _ draw hdraw]
      rw [Pipeline.draws_append, List.filter_append, hnone, List.append_nil]
  · intro hmasks
    simp only [List.forall_mem_append]
    exact ⟨⟨hsetup.1, not_clearsStencil_passCommands (Or.inr hmasks)⟩, hsetup.2⟩

/-- The commands of techniques, each with its own. Those that cannot run have none. -/
theorem IssuedBy.exists_runs {b : Backbuffer} {depthView : Option (Handle .shaderView)}
    {effect? : Nat → Option Effect} {techniques : List Technique} {cs : List Command}
    (h : IssuedBy b depthView effect? techniques cs) :
    ∃ runs : List (Technique × List Command),
      runs.map Prod.fst = (techniques.filter fun t ↦ (t.runnable? effect?).isSome) ∧
      cs = runs.flatMap Prod.snd ∧ ∀ x ∈ runs, x.1.Issues b depthView effect? x.2 := by
  induction h with
  | nil => exact ⟨[], rfl, rfl, nofun⟩
  | @cons t rest cs cs' hfirst _ ih =>
    obtain ⟨runs, htechniques, rfl, hissues⟩ := ih
    rcases hrun : t.runnable? effect? with _ | x
    · rw [Technique.Issues, hrun] at hfirst
      refine ⟨runs, ?_, by rw [hfirst, List.nil_append], hissues⟩
      rw [List.filter_cons_of_neg (by simp [hrun]), htechniques]
    · refine ⟨(t, cs) :: runs, ?_, rfl, List.forall_mem_cons.mpr ⟨hfirst, hissues⟩⟩
      rw [List.filter_cons_of_pos (by simp [hrun]), ← htechniques]
      rfl

theorem Technique.isSome_runnable? {t : Technique} {effect? : Nat → Option Effect}
    (h : (effect? t.effect).isSome) :
    (t.runnable? effect?).isSome = (t.enabled && t.isActive) := by
  obtain ⟨effect, heffect⟩ := Option.isSome_iff_exists.mp h
  rw [runnable?, heffect, isActive]
  rcases t.enabled with _ | _ <;> rcases t.state with _ | _ <;> rfl

/-! ## Declarations -/

/-- The record enables the stencil if its pass does, and has the viewport that its pass gives. -/
structure PassRecord.Takes (p : PassDecl) (r : PassRecord) : Prop where
  /-- It enables the stencil if its pass does. -/
  stencilEnable : r.stencilEnable = p.stencilEnable
  /-- It has the viewport that its pass gives, if it gives one. -/
  viewport : ∀ size, p.explicitViewport? = some size → r.viewport = size

/-- If the technique has records, they are of its passes. -/
def Technique.Takes (t : Technique) : Prop :=
  ∀ state, t.state = some state → List.Forall₂ PassRecord.Takes t.passes state.passes

theorem Technique.Takes.keeps {t t' : Technique} (h : t.Takes) (hkeeps : t.Keeps t') :
    t'.Takes := by
  intro state hstate
  obtain ⟨state₀, timer, hstate₀, rfl⟩ := hkeeps.state state hstate
  rw [hkeeps.passes]
  exact h state₀ hstate₀

theorem Engine.takes_activate {e : Engine} {index : Nat} (hs : e.toAssets.Sound)
    (hnone : ∀ t ∈ e.techniques, t.effect = index → t.state = none) {t : Technique}
    (ht : t ∈ (e.activate index).2.techniques) (hindex : t.effect = index) : t.Takes := by
  rcases hactivate : e.activate index with ⟨cause | _, e'⟩ <;> rw [hactivate] at ht
  · intro state hstate
    rw [(activate_eq_error hactivate).2] at ht
    cases (hnone t ht hindex).symm.trans hstate
  · obtain ⟨effect, -, -, b, -, heffect, -, -, hb, -⟩ := activate_eq_ok hactivate
    obtain ⟨t₀, -, ⟨-, state, rfl, himplements⟩ | ⟨hne, rfl⟩⟩ :=
      exists_of_forall₂_right (implements_activate hs heffect hb hactivate) ht
    · intro state' hstate'
      cases hstate'
      refine himplements.passes.imp fun p r hr ↦ ⟨hr.stencilEnable, fun size hsize ↦ ?_⟩
      rw [hr.viewport, hsize]
      rfl
    · exact absurd hindex hne

namespace Session

variable {allowed : Session → Event → Prop} {s : Session}

/-- **Records take over what their passes declare** of stencil and viewport, for as long as they
last. -/
theorem Reachable.takes (hs : s.Reachable allowed) {t : Technique}
    (ht : t ∈ s.engine.techniques) : t.Takes := by
  induction hs generalizing t with
  | start timing config => cases ht
  | @step s event hs hallowed ih =>
    have htables := hs.tables
    by_cases hactivates : event.activates s = some t.effect
    · cases event with
      | load m =>
        replace ht : t ∈ (s.engine.load m).2.techniques := ht
        rcases s.engine.load_cases m with ⟨-, hrun⟩ | ⟨-, hrun⟩ <;> rw [hrun] at ht
        · exact ih ht
        · exact Engine.takes_activate (htables.registered m.reserveSlots).assets
            (fun t ht ↦ Engine.state_of_mem_register (fun _ ↦ htables.effect_lt) _ ht) ht
            (Option.some.inj hactivates).symm
      | reload i =>
        replace ht : t ∈ (s.engine.reload i).2.techniques := ht
        rcases htables.reload_cases i with ⟨-, hrun⟩ | ⟨effect, -, hrun⟩ <;> rw [hrun] at ht
        · exact ih ht
        · exact Engine.takes_activate (htables.deactivated i).assets
            (fun t ht ↦ Engine.state_of_mem_deactivate ht) ht (Option.some.inj hactivates).symm
      | _ => cases hactivates
    · obtain ⟨u, hu, hkeeps⟩ := carries_step htables hactivates t ht rfl
      exact (ih hu).keeps hkeeps

/-! ## Frames -/

/-- **Stencil does not bleed between techniques.** A frame issues the commands of the techniques
that are enabled and active one after the other, between commands of its own that neither draw nor
clear the stencil surface. Interpreted from any pipeline, each of them clears the surface exactly
once if one of its passes needs it, and else not at all; it does so after everything that earlier
techniques draw with the surface, and before it draws with the surface itself. -/
theorem Reachable.stencil_present (hs : s.Reachable allowed) (tracker : DepthTracker)
    (p : Pipeline) :
    (s.engine.backbuffer = none → s.engine.present tracker = s.engine) ∧
    ∀ b, s.engine.backbuffer = some b →
      ∃ runs : List (Technique × List Command),
        runs.map Prod.fst = (s.engine.techniques.filter fun t ↦ t.enabled && t.isActive) ∧
        (s.engine.present tracker).device.log = s.device.log
          ++ (b.opening ++ runs.flatMap Prod.snd ++ [.copyResource b.copy b.resolved]) ∧
        (∀ c ∈ b.opening ++ [.copyResource b.copy b.resolved],
          c.isDraw = false ∧ c.clearsStencil = false) ∧
        ∀ earlier t cs later, runs = earlier ++ (t, cs) :: later →
          ∃ state, t.state = some state ∧
            List.Forall₂ PassRecord.Takes t.passes state.passes ∧
            StencilRun p b (b.opening ++ earlier.flatMap Prod.snd) state.passes cs := by
  constructor
  · intro hb
    rw [Engine.present, hb]
  · intro b hb
    obtain ⟨cs, hissued, hlog⟩ := Engine.log_present hb tracker
    obtain ⟨runs, htechniques, rfl, hissues⟩ := hissued.exists_runs
    refine ⟨runs, htechniques.trans (List.filter_congr fun t ht ↦
      Technique.isSome_runnable? (hs.tables.loaded t ht)), hlog, ?_, ?_⟩
    · rw [Backbuffer.opening]
      split <;> simp [Command.isDraw, Command.clearsStencil]
    · rintro earlier t cs later rfl
      have hmem : (t, cs) ∈ earlier ++ (t, cs) :: later := by simp
      have ht : t ∈ s.engine.techniques.filter fun t ↦ (t.runnable? s.engine.effect?).isSome :=
        htechniques ▸ List.mem_map_of_mem hmem
      obtain ⟨ht, hsome⟩ := List.mem_filter.mp ht
      obtain ⟨⟨state, effect⟩, hrun⟩ := Option.isSome_iff_exists.mp hsome
      have hstate := (Technique.state_of_runnable? hrun).2.1
      exact ⟨state, hstate, hs.takes ht state hstate, (hissues _ hmem).stencilRun hrun p _⟩

/-- A frame with two techniques that use the surface and one that does not. The first draws without
it, then at half size, and then twice with it. -/
theorem stencil_present_small :
    let pass : PassDecl := { vertexEntry := "vertex", pixelEntry := "pixel" }
    let masked : PassDecl := { pass with stencilEnable := true }
    let s := small.step (.load { EffectModule.single "mask" [] [] [] with
      techniques := [
        { name := "first", passes := [pass, { masked with viewportWidth := 2, viewportHeight := 2 },
          masked, masked] },
        { name := "second", passes := [pass] }, { name := "third", passes := [masked, pass] }] })
    ∃ b, s.engine.backbuffer = some b ∧
      ∃ runs : List (Technique × List Command),
        runs.map (·.1.name) = ["first", "second", "third"] ∧
        (s.engine.present {}).device.log = s.device.log
          ++ (b.opening ++ runs.flatMap Prod.snd ++ [.copyResource b.copy b.resolved]) ∧
        (s.engine.present {}).device.log.countP (·.clearsStencil) = 2 ∧
        ∀ earlier t cs later, runs = earlier ++ (t, cs) :: later →
          ∃ state, t.state = some state ∧
            StencilRun {} b (b.opening ++ earlier.flatMap Prod.snd) state.passes cs := by
  intro pass masked s
  have hs : s.Reachable Event.Lawful :=
    .step (.step (.step (.start {} {}) trivial) trivial) trivial
  obtain ⟨b, hb⟩ : ∃ b, s.engine.backbuffer = some b :=
    Option.isSome_iff_exists.mp (by decide +kernel)
  obtain ⟨runs, htechniques, hlog, -, hruns⟩ := (Reachable.stencil_present hs {} {}).2 b hb
  refine ⟨b, hb, runs, ?_, hlog, by decide +kernel, fun earlier t cs later h ↦ ?_⟩
  · have hnames : (s.engine.techniques.filter fun t ↦ t.enabled && t.isActive).map (·.name)
        = ["first", "second", "third"] := by decide +kernel
    rw [← hnames, ← htechniques, List.map_map]
    rfl
  · obtain ⟨state, hstate, -, hrun⟩ := hruns earlier t cs later h
    exact ⟨state, hstate, hrun⟩

end Session

end EffectChain
