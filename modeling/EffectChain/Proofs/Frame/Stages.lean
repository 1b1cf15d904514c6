import EffectChain.Proofs.Frame.Liveness
import EffectChain.Proofs.Works

/-!
# Stages of a frame

A frame is taken apart into stages, one for every pass that runs: what its technique sets up, and
the commands of the pass (`Stage`). Nothing that is set up touches a texture, so what becomes of a
texture in a frame is a matter of the passes alone. A pass draws into the scene target or into
textures of the table (`PassRecord.Sound.target_texture`), and these are never the same, since every
object is recorded once.
-/

namespace EffectChain

/-! ## Stages of a frame -/

/-- What is issued up to the end of a pass, from the end of the pass before: what its technique sets
up, and the pass. -/
structure Stage where
  /-- The commands ahead of the pass. -/
  setup : List Command
  /-- The record of the pass. -/
  record : PassRecord
  /-- Whether the pass is the one that clears the stencil surface. -/
  clearsStencil : Bool

def Stage.commands (b : Backbuffer) (depthView : Option (Handle .shaderView)) (x : Stage) :
    List Command :=
  x.setup ++ x.record.commands b depthView x.clearsStencil

/-- The command measures, or sets up samplers and the constant buffer. -/
def Command.isSetup : Command → Bool
  | .setSamplers _ | .updateConstantBuffer .. | .setConstantBuffer _ | .beginQuery _
  | .endQuery _ => true
  | _ => false

theorem Command.isSetup_of_measures {queries : List (Handle .query)} {c : Command}
    (h : c.measures queries) : c.isSetup := by
  cases c <;> first | rfl | cases h

theorem Command.touched?_of_isSetup {c : Command} (h : c.isSetup) (d : Device)
    (t : Handle .texture) : c.touched? d ≠ some t.ref := by
  cases c <;> simp_all [Command.isSetup, Command.touched?, Handle.ref]

theorem Command.not_isDraw_of_isSetup {c : Command} (h : c.isSetup) : c.isDraw = false := by
  cases c <;> first | rfl | cases h

/-- A technique that runs issues the commands of its passes, between some that set up. -/
theorem Technique.Issues.exists_setup {t : Technique} {b : Backbuffer}
    {depthView : Option (Handle .shaderView)} {effect? : Nat → Option Effect} {cs : List Command}
    {state : TechniqueState} {effect : Effect} (h : t.Issues b depthView effect? cs)
    (hrun : t.runnable? effect? = some (state, effect)) :
    ∃ opening closing, cs = opening ++ passCommands b depthView false state.passes ++ closing ∧
      (∀ c ∈ opening, c.isSetup) ∧ ∀ c ∈ closing, c.isSetup := by
  rw [Issues, hrun] at h
  obtain ⟨opening, closing, rfl, hopening, hclosing⟩ := h
  refine ⟨opening ++ ([.setSamplers state.samplers]
      ++ (((effect.objects.bind (·.uniformBuffer)).toList.map fun h ↦
        .updateConstantBuffer h effect.uniforms)
      ++ [.setConstantBuffer (effect.objects.bind (·.uniformBuffer))])), closing, ?_, ?_,
    fun c hc ↦ Command.isSetup_of_measures (hclosing c hc)⟩
  · rw [TechniqueState.commands]
    simp only [List.append_assoc]
  · simp only [List.forall_mem_append, List.forall_mem_singleton, List.forall_mem_map]
    exact ⟨fun c hc ↦ Command.isSetup_of_measures (hopening c hc), rfl, fun _ _ ↦ rfl, rfl⟩

/-- The commands are those of the stages of the passes, and some that set up what does not come
any more. -/
structure Staged (b : Backbuffer) (depthView : Option (Handle .shaderView)) (cs : List Command)
    (records : List PassRecord) (stages : List Stage) (rest : List Command) : Prop where
  commands : cs = stages.flatMap (Stage.commands b depthView) ++ rest
  records : stages.map (·.record) = records
  setup : ∀ x ∈ stages, ∀ c ∈ x.setup, c.isSetup
  rest : ∀ c ∈ rest, c.isSetup

namespace Staged

variable {b : Backbuffer} {depthView : Option (Handle .shaderView)}
  {cs cs' rest rest' : List Command}
  {records records' : List PassRecord} {stages stages' : List Stage}

/-- What is left over of some stages is set up ahead of the next. -/
theorem append (h : Staged b depthView cs records stages rest)
    (h' : Staged b depthView (rest ++ cs') records' stages' rest') :
    Staged b depthView (cs ++ cs') (records ++ records') (stages ++ stages') rest' where
  commands := by
    rw [h.commands, List.append_assoc, h'.commands, List.flatMap_append, List.append_assoc]
  records := by rw [List.map_append, h.records, h'.records]
  setup := List.forall_mem_append.mpr ⟨h.setup, h'.setup⟩
  rest := h'.rest

theorem of_setup (h : ∀ c ∈ cs, c.isSetup) : Staged b depthView cs [] [] cs where
  commands := rfl
  records := rfl
  setup := nofun
  rest := h

variable (b depthView) in
theorem exists_passCommands {pending : List Command} (hpending : ∀ c ∈ pending, c.isSetup)
    (cleared : Bool) (records : List PassRecord) :
    ∃ stages rest, Staged b depthView (pending ++ passCommands b depthView cleared records) records
      stages rest := by
  induction records generalizing pending cleared with
  | nil => exact ⟨[], pending ++ [], of_setup (by simpa [passCommands] using hpending)⟩
  | cons r records ih =>
    obtain ⟨stages, rest, h⟩ := @ih [] (List.forall_mem_nil _) (cleared || r.usesStencil b)
    refine ⟨⟨pending, r, r.usesStencil b && !cleared⟩ :: stages, rest, ?_⟩
    refine ⟨?_, congrArg (r :: ·) h.records, List.forall_mem_cons.mpr ⟨hpending, h.setup⟩, h.rest⟩
    have hrest := h.commands
    rw [List.nil_append] at hrest
    rw [passCommands, hrest, List.flatMap_cons, Stage.commands]
    simp only [List.append_assoc]

theorem exists_issuedBy {effect? : Nat → Option Effect} {techniques : List Technique}
    (h : IssuedBy b depthView effect? techniques cs) (pending : List Command)
    (hpending : ∀ c ∈ pending, c.isSetup) :
    ∃ stages rest, Staged b depthView (pending ++ cs)
      (techniques.flatMap fun t ↦
        match t.runnable? effect? with
        | none => []
        | some (state, _) => state.passes) stages rest := by
  induction h generalizing pending with
  | nil => exact ⟨[], pending ++ [], of_setup (by simpa using hpending)⟩
  | @cons t techniques cs cs' hfirst hrest ih =>
    rw [List.flatMap_cons]
    rcases hrun : t.runnable? effect? with _ | ⟨state, effect⟩
    · rw [Technique.Issues, hrun] at hfirst
      rw [hfirst, List.nil_append]
      exact ih pending hpending
    · -- the passes come after what the technique sets up, and before the end of its measurement
      obtain ⟨opening, closing, rfl, hopening, hclosing⟩ := hfirst.exists_setup hrun
      obtain ⟨stages, rest, hpasses⟩ := exists_passCommands b depthView
        (List.forall_mem_append.mpr ⟨hpending, hopening⟩) false state.passes
      obtain ⟨stages', rest', hlast⟩ :=
        ih (rest ++ closing) (List.forall_mem_append.mpr ⟨hpasses.rest, hclosing⟩)
      rw [List.append_assoc] at hlast
      refine ⟨stages ++ stages', rest', ?_⟩
      have happend := hpasses.append hlast
      simpa only [List.append_assoc] using happend

end Staged

/-! ## Targets -/

/-- What a pass draws into is the scene target or a texture of the table. -/
theorem PassRecord.Sound.target_texture {a : Assets} {b : Backbuffer} {objects : EffectObjects}
    {index : Nat} {declared : List String} {bindings : List ViewSlot} {p : PassDecl}
    {r : PassRecord} (h : r.Sound a b objects index declared bindings p) (hs : a.Sound)
    (hb : b.Sound a.device) {view : Handle .renderTargetView} (hview : view ∈ r.targets) :
    view.id ≤ a.device.lastId ∧ ∀ u, a.device.targetTexture? view = some u →
      u = b.resolved ∨ ∃ t ∈ a.textures, ∃ o, t.owned = some o ∧ o.resource = u := by
  rcases hp : p.targetsBackbuffer with _ | _
  · obtain ⟨sources, hviews, hsources, -⟩ := h.textures hp
    rw [hviews] at hview
    obtain ⟨⟨view, o⟩, hsource, rfl⟩ := List.mem_map.mp hview
    obtain ⟨name, -, hof⟩ := exists_of_forall₂_right hsources hsource
    refine ⟨hof.given, fun u hu ↦ ?_⟩
    have halive : view.ref ∈ a.device.live := by
      obtain ⟨c, hc, -⟩ := Option.map_eq_some_iff.mp hu
      exact Device.mem_live_of_get? hc
    obtain ⟨t, ht, -, -, o', howned, hgrows⟩ := hof.kept.resolve_right (not_not_intro halive)
    have hdraws := (hs.owned t ht o' howned).targets _ _ (hgrows.targets _ _ hof.pick)
    exact Or.inr ⟨t, ht, o', howned, (hdraws.eq hu).symm⟩
  · rw [(h.backbuffer hp).1] at hview
    rw [List.mem_singleton.mp hview]
    obtain ⟨format, hmade⟩ := hb.targets p.gammaWrite
    exact ⟨hmade.id_le, fun u hu ↦ Or.inl ((hb.targets p.gammaWrite).eq hu)⟩

theorem Engine.Owns.disjoint {e : Engine} {others : Multiset ObjectRef} (h : e.Owns others)
    {b : Backbuffer} (hb : e.backbuffer = some b) {r : ObjectRef} (hr : r ∈ b.refs) :
    r ∉ e.loadedRefs := by
  intro hloaded
  have hnodup := h.nodup_refs
  rw [refs, hb, List.nodup_append, List.nodup_append] at hnodup
  exact hnodup.1.2.2 r (by simpa using hr) r hloaded rfl

theorem Engine.mem_loadedRefs_of_owned {e : Engine} {t : TableTexture} (ht : t ∈ e.textures)
    {o : OwnedTexture} (howned : t.owned = some o) {r : ObjectRef} (hr : r ∈ o.refs) :
    r ∈ e.loadedRefs := by
  have hmem : r ∈ t.refs := by simpa [TableTexture.refs, howned] using hr
  simp only [loadedRefs, List.mem_append, List.mem_flatMap]
  exact Or.inl (Or.inr ⟨t, ht, hmem⟩)

theorem Engine.mem_framePasses {e : Engine} {r : PassRecord} (hr : r ∈ e.framePasses) :
    ∃ t ∈ e.techniques, ∃ state, t.state = some state ∧ r ∈ state.passes := by
  obtain ⟨t, ht, hpasses⟩ := List.mem_flatMap.mp hr
  rcases hrun : t.runnable? e.effect? with _ | ⟨state, effect⟩ <;> rw [hrun] at hpasses
  · cases hpasses
  · exact ⟨t, ht, state, (Technique.state_of_runnable? hrun).2.1, hpasses⟩

/-! ## Frames -/

theorem Engine.get?_pointed {e : Engine} (hnumbered : e.device.Numbered) (b : Backbuffer)
    (tracker : DepthTracker) {kind : ObjectKind} (hkind : kind ≠ .shaderView) {x : Handle kind}
    {content : kind.Content} (hget : e.device.get? x = some content) :
    (e.pointed b tracker).2.get? x = some content :=
  e.depth.get?_point hkind _ hnumbered hget

/-- **A frame is made of stages**: after an opening it issues those of the passes that run, in
order, what is set up without a pass behind it, and a last copy. -/
theorem Engine.exists_stages {e : Engine} {b : Backbuffer} (hb : e.backbuffer = some b)
    (tracker : DepthTracker) :
    ∃ (stages : List Stage) (rest : List Command), stages.map (·.record) = e.framePasses ∧
      (∀ x ∈ stages, ∀ c ∈ x.setup, c.isSetup) ∧ (∀ c ∈ rest, c.isSetup) ∧
      (e.present tracker).device = (e.pointed b tracker).2.issueAll (b.opening
        ++ stages.flatMap (Stage.commands b (e.pointed b tracker).1.view) ++ rest
        ++ [.copyResource b.copy b.resolved]) := by
  obtain ⟨techniques, cs, hissued, -, hpresent⟩ := present_eq hb tracker
  obtain ⟨stages, rest, hstaged⟩ := Staged.exists_issuedBy hissued [] nofun
  rw [List.nil_append] at hstaged
  refine ⟨stages, rest, hstaged.records, hstaged.setup, hstaged.rest, ?_⟩
  rw [hpresent, hstaged.commands]
  simp only [List.append_assoc]

end EffectChain
