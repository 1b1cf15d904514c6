import EffectChain.Proofs.Chronicles
import EffectChain.Proofs.Frame.Stages

/-!
# What a frame uploads

A draw reads the constant buffer as it is at that moment, so the draws of a frame are read off
together with the devices they find (`Pipeline.drawsOn`). Only uploads change buffers, and a
technique uploads the data of its effect once, ahead of its passes. So in whatever order the
techniques of several effects run, a buffer holds what it held when the frame began or the data of
its own effect, and at the draws of its own effect it holds the data (`Engine.drawsOn_eq`).
-/

namespace EffectChain

/-! ## Buffers -/

namespace Command

/-- The command replaces the contents of a constant buffer. -/
def isUpload : Command → Bool
  | .updateConstantBuffer .. => true
  | _ => false

theorem touched?_of_not_isUpload {c : Command} (h : c.isUpload = false) (d : Device)
    (x : Handle .buffer) : c.touched? d ≠ some x.ref := by
  intro htouched
  rcases Device.touched?_cases htouched with hkind | ⟨y, data, rfl, -⟩ | ⟨q, -, href⟩
  · cases hkind
  · cases h
  · cases congrArg ObjectRef.kind href

theorem not_isUpload_of_isOfPass {c : Command} (h : c.isOfPass) : c.isUpload = false := by
  cases c <;> first | rfl | cases h

theorem not_isUpload_of_measures {queries : List (Handle .query)} {c : Command}
    (h : c.measures queries) : c.isUpload = false := by
  cases c <;> first | rfl | cases h

end Command

namespace Device

variable {d : Device} {cs : List Command}

theorem get?_issueAll_of_not_isUpload (h : ∀ c ∈ cs, c.isUpload = false) (x : Handle .buffer) :
    (d.issueAll cs).get? x = d.get? x :=
  get?_issueAll_of_ne fun c hc ↦ Command.touched?_of_not_isUpload (h c hc) d x

theorem get?_upload (d : Device) (x : Handle .buffer) (data : Bytes) :
    (d.issue (.updateConstantBuffer x data)).get? x
      = (d.get? x).map fun content ↦ Bytes.fit content.size data :=
  d.objects.get?_modify_self x _

end Device

/-! ## Draws and the devices they find -/

namespace Pipeline

/-- The draws among commands, each with the device it finds. -/
def drawsOn (p : Pipeline) (d : Device) : List Command → List ((UInt32 × Pipeline) × Device)
  | [] => []
  | .draw vertices :: rest => ((vertices, p), d) :: p.drawsOn (d.issue (.draw vertices)) rest
  | c :: rest => (p.apply c).drawsOn (d.issue c) rest

variable {p : Pipeline} {d : Device} {cs : List Command}

theorem map_fst_drawsOn (p : Pipeline) (d : Device) (cs : List Command) :
    (p.drawsOn d cs).map (·.1) = p.draws cs := by
  induction cs generalizing p d with
  | nil => rfl
  | cons c cs ih => cases c <;> simp [drawsOn, draws, ih]

theorem map_fst_draws (p : Pipeline) (cs : List Command) :
    (p.draws cs).map (·.1) = drawnBy cs := by
  induction cs generalizing p with
  | nil => rfl
  | cons c cs ih =>
    cases c with
    | draw vertices => exact congrArg (vertices :: ·) (ih p)
    | _ => exact ih _

theorem length_drawsOn (p : Pipeline) (d : Device) (cs : List Command) :
    (p.drawsOn d cs).length = (drawnBy cs).length := by
  rw [← map_fst_draws p, ← map_fst_drawsOn p d, List.length_map, List.length_map]

theorem drawsOn_append (p : Pipeline) (d : Device) (cs cs' : List Command) :
    p.drawsOn d (cs ++ cs') = p.drawsOn d cs ++ (p.after cs).drawsOn (d.issueAll cs) cs' := by
  induction cs generalizing p d with
  | nil => rfl
  | cons c cs ih => cases c <;> simpa [drawsOn, after, apply, Device.issueAll] using ih _ _

theorem drawsOn_of_not_isDraw (h : ∀ c ∈ cs, c.isDraw = false) : p.drawsOn d cs = [] := by
  induction cs generalizing p d with
  | nil => rfl
  | cons c cs ih =>
    rw [List.forall_mem_cons] at h
    cases c with
    | draw => cases h.1
    | _ => exact ih h.2

/-- Draws with no upload before them find the buffers as they were. -/
theorem get?_of_mem_drawsOn (h : ∀ c ∈ cs, c.isUpload = false)
    {y : (UInt32 × Pipeline) × Device} (hy : y ∈ p.drawsOn d cs) (x : Handle .buffer) :
    y.2.get? x = d.get? x := by
  induction cs generalizing p d with
  | nil => cases hy
  | cons c cs ih =>
    rw [List.forall_mem_cons] at h
    have hkeeps : (d.issue c).get? x = d.get? x :=
      Device.get?_issue_of_ne (Command.touched?_of_not_isUpload h.1 d x)
    cases c with
    | draw vertices =>
      rcases List.mem_cons.mp hy with rfl | hy
      · rfl
      · exact (ih h.2 hy).trans hkeeps
    | _ => exact (ih h.2 hy).trans hkeeps

end Pipeline

/-! ## What is sent -/

/-- The buffers of effects hold what they held before, but for those of some indices, which got the
uniform data of their effects. -/
def Engine.Sent (e : Engine) (indices : List Nat) (d d' : Device) : Prop :=
  ∀ i effect buffer content, e.effect? i = some effect →
    effect.objects.bind (·.uniformBuffer) = some buffer → d.get? buffer = some content →
      d'.get? buffer
        = some (if i ∈ indices then Bytes.fit content.size effect.uniforms else content)

/-- No two effects share a constant buffer. -/
def Engine.SeparateBuffers (e : Engine) : Prop :=
  ∀ i j buffer, e.uniformBuffer? i = some buffer → e.uniformBuffer? j = some buffer → i = j

namespace Engine

variable {e : Engine} {indices indices' : List Nat} {d d' d'' : Device}

theorem uniformBuffer?_eq {i : Nat} {effect : Effect} (h : e.effect? i = some effect) :
    e.uniformBuffer? i = effect.objects.bind (·.uniformBuffer) := by
  rw [uniformBuffer?, objects?, h]
  rfl

theorem Sent.of_get? (h : ∀ (x : Handle .buffer) c, d.get? x = some c → d'.get? x = some c) :
    e.Sent [] d d' := by
  intro i effect buffer content _ _ hget
  rw [h buffer content hget, if_neg List.not_mem_nil]

theorem Sent.issueAll (d : Device) {cs : List Command} (h : ∀ c ∈ cs, c.isUpload = false) :
    e.Sent [] d (d.issueAll cs) :=
  Sent.of_get? fun x _ hc ↦ (Device.get?_issueAll_of_not_isUpload h x).trans hc

protected theorem Sent.trans (h : e.Sent indices d d') (h' : e.Sent indices' d' d'') :
    e.Sent (indices ++ indices') d d'' := by
  intro i effect buffer content heffect hbuffer hget
  rw [h' i effect buffer _ heffect hbuffer (h i effect buffer content heffect hbuffer hget)]
  -- sending the same data again changes nothing
  by_cases hi : i ∈ indices <;> by_cases hi' : i ∈ indices' <;> simp [hi, hi']

/-- What a technique sets up sends the data of its effect, and no other. -/
theorem sent_setup (hseparate : e.SeparateBuffers) {index : Nat} {effect : Effect}
    (heffect : e.effect? index = some effect) (d : Device) :
    e.Sent [index] d (d.issueAll ((effect.objects.bind (·.uniformBuffer)).toList.map fun x ↦
      .updateConstantBuffer x effect.uniforms)) := by
  intro i other buffer content hother hbuffer hget
  by_cases hi : i = index
  · subst hi
    cases heffect.symm.trans hother
    rw [hbuffer, if_pos List.mem_cons_self]
    exact (d.get?_upload buffer _).trans (by rw [hget]; rfl)
  · rw [if_neg (by simpa using hi)]
    refine (Device.get?_issueAll_of_ne fun c hc htouched ↦ hi ?_).trans hget
    obtain ⟨x, hx, rfl⟩ := List.mem_map.mp hc
    obtain rfl : x = buffer := Handle.ref_inj.mp (Option.some.inj htouched)
    exact hseparate i index x ((uniformBuffer?_eq hother).trans hbuffer)
      ((uniformBuffer?_eq heffect).trans (Option.mem_toList.mp hx))

end Engine

/-! ## Techniques -/

/-- The indices of the effects whose techniques can run, in order. -/
def runningEffects (effect? : Nat → Option Effect) (techniques : List Technique) : List Nat :=
  (techniques.filter fun t ↦ (t.runnable? effect?).isSome).map (·.effect)

section Techniques

variable {e : Engine} {b : Backbuffer} {depthView : Option (Handle .shaderView)}

/-- A technique sends the data of its effect before its first draw, and nothing afterwards. -/
theorem Technique.Issues.split (hseparate : e.SeparateBuffers) {t : Technique} {cs : List Command}
    (h : t.Issues b depthView e.effect? cs) {state : TechniqueState} {effect : Effect}
    (hrun : t.runnable? e.effect? = some (state, effect)) :
    ∃ setup rest, cs = setup ++ rest ∧ (∀ c ∈ setup, c.isDraw = false) ∧
      (∀ d : Device, e.Sent [t.effect] d (d.issueAll setup)) ∧ ∀ c ∈ rest, c.isUpload = false := by
  rw [Technique.Issues, hrun] at h
  obtain ⟨opening, closing, rfl, hopening, hclosing⟩ := h
  obtain ⟨-, -, heffect⟩ := Technique.state_of_runnable? hrun
  have hbefore : ∀ c ∈ opening ++ [.setSamplers state.samplers], c.isUpload = false := by
    rw [List.forall_mem_append, List.forall_mem_singleton]
    exact ⟨fun c hc ↦ Command.not_isUpload_of_measures (hopening c hc), rfl⟩
  refine ⟨(opening ++ [.setSamplers state.samplers])
      ++ ((effect.objects.bind (·.uniformBuffer)).toList.map fun x ↦
        .updateConstantBuffer x effect.uniforms),
    [.setConstantBuffer (effect.objects.bind (·.uniformBuffer))]
      ++ passCommands b depthView false state.passes ++ closing, ?_, ?_, fun d ↦ ?_, ?_⟩
  · rw [TechniqueState.commands]
    simp only [List.append_assoc]
  · simp only [List.forall_mem_append, List.forall_mem_singleton, List.forall_mem_map]
    exact ⟨⟨fun c hc ↦ Command.not_isDraw_of_isSetup (Command.isSetup_of_measures (hopening c hc)),
      rfl⟩, fun _ _ ↦ rfl⟩
  · rw [Device.issueAll_append]
    exact (Engine.Sent.issueAll d hbefore).trans (Engine.sent_setup hseparate heffect _)
  · simp only [List.forall_mem_append, List.forall_mem_singleton]
    exact ⟨⟨rfl, fun c hc ↦ Command.not_isUpload_of_isOfPass
        (isOfPass_passCommands false state.passes c hc)⟩,
      fun c hc ↦ Command.not_isUpload_of_measures (hclosing c hc)⟩

/-- The draw finds the data of its effect, and of every other effect what was there or its data. -/
def DrawnPass.Finds (e : Engine) (d : Device) (x : DrawnPass) (d' : Device) : Prop :=
  ∃ indices, x.technique.effect ∈ indices ∧ e.Sent indices d d'

/-- **What techniques send.** Every draw of techniques that run one after the other finds the data
of its effect. -/
theorem sent_issuedBy (hseparate : e.SeparateBuffers) {techniques : List Technique}
    {cs : List Command} (hloaded : ∀ t ∈ techniques, (e.effect? t.effect).isSome)
    (hissued : IssuedBy b depthView e.effect? techniques cs) (p : Pipeline) (d : Device) :
    List.Forall₂ (fun x y ↦ DrawnPass.Finds e d x y.2) (drawnPasses techniques) (p.drawsOn d cs) ∧
      e.Sent (runningEffects e.effect? techniques) d (d.issueAll cs) := by
  -- the induction is on the techniques of the frame, from any state of the device
  induction hissued generalizing p d with
  | nil => exact ⟨List.Forall₂.nil, Engine.Sent.of_get? fun _ _ hc ↦ hc⟩
  | @cons t rest cs cs' hfirst hrest ih =>
    rw [List.forall_mem_cons] at hloaded
    rcases hrun : t.runnable? e.effect? with _ | ⟨state, effect⟩
    · rw [Technique.Issues, hrun] at hfirst
      rw [hfirst, List.nil_append, drawnPasses_of_not_runnable hloaded.1 hrun, runningEffects,
        List.filter_cons_of_neg (by simp [hrun])]
      exact ih hloaded.2 p d
    · have hlength := hfirst.length_drawnBy
      rw [Technique.framePasses, hrun, ← p.length_drawsOn d] at hlength
      obtain ⟨setup, passes, rfl, hsetup, hsent, hpasses⟩ := hfirst.split hseparate hrun
      have hafter : e.Sent [t.effect] d (d.issueAll (setup ++ passes)) := by
        rw [Device.issueAll_append]
        exact (hsent d).trans (Engine.Sent.issueAll _ hpasses)
      obtain ⟨hothers, hend⟩ :=
        ih hloaded.2 (p.after (setup ++ passes)) (d.issueAll (setup ++ passes))
      rw [Pipeline.drawsOn_append, drawnPasses_of_runnable hrun,
        Device.issueAll_append d (setup ++ passes), runningEffects,
        List.filter_cons_of_pos (by simp [hrun]), List.map_cons]
      refine ⟨List.rel_append ?_ (hothers.imp fun x y hxy ↦ ?_), hafter.trans hend⟩
      · refine List.forall₂_iff_zip.mpr ⟨by rw [List.length_map, hlength], fun {x y} hmem ↦ ?_⟩
        obtain ⟨hx, hy⟩ := List.of_mem_zip hmem
        obtain ⟨r, -, rfl⟩ := List.mem_map.mp hx
        rw [Pipeline.drawsOn_append, Pipeline.drawsOn_of_not_isDraw hsetup, List.nil_append] at hy
        exact ⟨[t.effect], List.mem_cons_self, (hsent d).trans (Engine.Sent.of_get? fun x c hc ↦
          (Pipeline.get?_of_mem_drawsOn hpasses hy x).trans hc)⟩
      · obtain ⟨indices, hmem, hsent'⟩ := hxy
        exact ⟨[t.effect] ++ indices, List.mem_append_right _ hmem, hafter.trans hsent'⟩

end Techniques

/-! ## Frames -/

namespace Engine

variable {e : Engine} {others : Multiset ObjectRef}

/-- Every object is recorded once, so it is the buffer of one effect at most. -/
theorem Owns.separateBuffers (h : e.Owns others) : e.SeparateBuffers := by
  have hmem {i : Nat} {buffer : Handle .buffer} (hi : e.uniformBuffer? i = some buffer) :
      ∃ (hlt : i < e.effects.length), buffer.ref ∈ e.effects[i].toList.flatMap Effect.refs := by
    obtain ⟨objects, hobjects, hbuffer⟩ := Option.bind_eq_some_iff.mp hi
    obtain ⟨effect, heffect, hsome⟩ := Option.bind_eq_some_iff.mp hobjects
    obtain ⟨hlt, hget⟩ := List.getElem?_eq_some_iff.mp (Option.join_eq_some_iff.mp heffect)
    refine ⟨hlt, ?_⟩
    rw [hget]
    simp [Effect.refs, hsome, EffectObjects.refs, hbuffer]
  intro i j buffer hi hj
  obtain ⟨hi, hbuffer⟩ := hmem hi
  obtain ⟨hj, hbuffer'⟩ := hmem hj
  have hdisjoint := List.pairwise_iff_getElem.mp (List.nodup_flatMap.mp h.nodup_tables.2.1).2
  rcases Nat.lt_trichotomy i j with hlt | heq | hlt
  · exact absurd hbuffer' (hdisjoint i j hi hj hlt hbuffer)
  · exact heq
  · exact absurd hbuffer (hdisjoint j i hj hi hlt hbuffer')

/-- The device of a frame ahead of its first command: the alias of the scene depth is pointed. -/
def frameDevice (e : Engine) (b : Backbuffer) (tracker : DepthTracker) : Device :=
  (e.depth.point ((e.selectDepth b tracker).map (·.texture)) e.device).2

/-- Neither pointing the alias nor the frame's own commands change a buffer, so the frame sends what
its techniques send. -/
theorem sent_present (hloaded : ∀ t ∈ e.techniques, (e.effect? t.effect).isSome)
    (hseparate : e.SeparateBuffers) (hnumbered : e.device.Numbered) {b : Backbuffer}
    (hb : e.backbuffer = some b) (tracker : DepthTracker) :
    ∃ cs, (e.present tracker).device = (e.frameDevice b tracker).issueAll cs ∧
      (∀ p : Pipeline, List.Forall₂ (fun x y ↦ DrawnPass.Finds e e.device x y.2)
        (drawnPasses e.techniques) (p.drawsOn (e.frameDevice b tracker) cs)) ∧
      e.Sent (runningEffects e.effect? e.techniques) e.device (e.present tracker).device := by
  obtain ⟨techniques, cs, hissued, -, hpresent⟩ := present_eq hb tracker
  have hopening : (∀ c ∈ b.opening, c.isUpload = false) ∧ ∀ c ∈ b.opening, c.isDraw = false := by
    rw [Backbuffer.opening]
    split <;> simp [Command.isUpload, Command.isDraw]
  have hlast : (∀ c ∈ [Command.copyResource b.copy b.resolved], c.isUpload = false) ∧
      ∀ c ∈ [Command.copyResource b.copy b.resolved], c.isDraw = false :=
    ⟨List.forall_mem_singleton.mpr rfl, List.forall_mem_singleton.mpr rfl⟩
  have hbefore : e.Sent [] e.device ((e.pointed b tracker).2.issueAll b.opening) :=
    Sent.of_get? fun x c hc ↦ (Device.get?_issueAll_of_not_isUpload hopening.1 x).trans
      (get?_pointed hnumbered b tracker (by decide) hc)
  have hsent := sent_issuedBy hseparate hloaded hissued
  rw [frameDevice, ← pointed]
  refine ⟨b.opening ++ cs ++ [.copyResource b.copy b.resolved], by rw [hpresent], fun p ↦ ?_, ?_⟩
  · rw [Pipeline.drawsOn_append, Pipeline.drawsOn_append,
      Pipeline.drawsOn_of_not_isDraw hopening.2, List.nil_append,
      Pipeline.drawsOn_of_not_isDraw hlast.2, List.append_nil]
    refine (hsent _ _).1.imp fun x y hxy ↦ ?_
    obtain ⟨indices, hmem, hxy⟩ := hxy
    exact ⟨indices, hmem, hbefore.trans hxy⟩
  · have hall := (hbefore.trans (hsent {} _).2).trans (Sent.issueAll _ hlast.1)
    rw [List.nil_append, List.append_nil] at hall
    rw [hpresent, Device.issueAll_append, Device.issueAll_append]
    exact hall

theorem log_frameDevice (e : Engine) (b : Backbuffer) (tracker : DepthTracker) :
    (e.frameDevice b tracker).log = e.device.log := e.depth.log_point _ _

/-- **What a frame draws, and what the draws find.** The draws of a frame are those of the passes
that can run, in order, and each finds the data of its effect in the buffer. -/
theorem drawsOn_eq (htables : e.Tables) (hseparate : e.SeparateBuffers)
    (hnumbered : e.device.Numbered) {b : Backbuffer} (hb : e.backbuffer = some b)
    (tracker : DepthTracker) :
    ∃ cs, (e.present tracker).device = (e.frameDevice b tracker).issueAll cs ∧
      (∀ p : Pipeline, (∀ k, p.views k = none) →
        List.Forall₂ (fun x y ↦ DrawnPass.Makes e b (e.present tracker).depth.view x y.1 ∧
            DrawnPass.Finds e e.device x y.2)
          (drawnPasses e.techniques) (p.drawsOn (e.frameDevice b tracker) cs)) := by
  obtain ⟨cs, hdevice, hfinds, -⟩ :=
    sent_present htables.loaded hseparate hnumbered hb tracker
  refine ⟨cs, hdevice, fun p hviews ↦ ?_⟩
  obtain ⟨cs', hlog, hmakes, -⟩ := draws_eq htables hb tracker hviews
  obtain rfl : cs' = cs := by
    rw [hdevice, Device.log_issueAll, log_frameDevice] at hlog
    exact (List.append_cancel_left hlog).symm
  rw [← p.map_fst_drawsOn (e.frameDevice b tracker), List.forall₂_map_right_iff] at hmakes
  refine List.forall₂_iff_zip.mpr ⟨hmakes.length_eq, fun hmem ↦ ?_⟩
  exact ⟨(List.forall₂_iff_zip.mp hmakes).2 hmem, (List.forall₂_iff_zip.mp (hfinds p)).2 hmem⟩

end Engine

end EffectChain
