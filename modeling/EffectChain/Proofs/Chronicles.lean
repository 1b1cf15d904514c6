import EffectChain.Proofs.Timers

/-!
# Chronicles of techniques

What is measured of a technique is scattered over its timer, three queries of the device and an
average that forgets. A chronicle keeps all of it: how often the technique ran, every measurement
that was submitted, and every sample that was collected (`Chronicle`). It is a ghost: it is written
from what a run sees and does, and no run reads it.

That technique and chronicle accord (`Technique.Accords`) says that every sample is a measurement of
its own that was not interrupted, and that every measurement has the draws of the declared passes
between its readings, and no others. Running the techniques of a frame keeps them in accord
(`accords_runTechniques`), because a timer that is in flight holds the last measurement, and the
runs of other techniques issue no command on its queries.
-/

namespace EffectChain

/-- What is known of the measurements of a technique. -/
structure Chronicle where
  /-- How many frames ran it. -/
  frames : Nat := 0
  /-- The measurements that were submitted, last first. -/
  measurements : List Measurement := []
  /-- The samples that were collected, last first. -/
  samples : List UInt64 := []

namespace Technique

/-- The passes of the technique if it can run. -/
def framePasses (t : Technique) (effect? : Nat → Option Effect) : List PassRecord :=
  match t.runnable? effect? with
  | none => []
  | some (state, _) => state.passes

def queries (t : Technique) : List (Handle .query) := t.state.toList.flatMap (·.timer.queries)

/-- The chronicle after a run: a sample if one is collected, and a measurement if one is started,
with what the device knows when it ends. -/
def chronicle (t : Technique) (b : Backbuffer) (depthView : Option (Handle .shaderView))
    (effect? : Nat → Option Effect) (d : Device) (k : Chronicle) : Chronicle :=
  match t.runnable? effect? with
  | none => k
  | some (state, effect) =>
    let (taken, timer) := state.timer.poll d
    let (timing, _, opening) := timer.start
    let ended := d.issueAll (opening ++ state.commands b depthView effect)
    let measurement : Measurement :=
      ⟨d.clock, ended.clock, ended.interruptNext, drawnBy (ended.log.drop d.log.length)⟩
    { frames := k.frames + 1
      measurements := if timing then measurement :: k.measurements else k.measurements
      samples := taken.toList ++ k.samples }

/-- How many measurements were submitted and not yet polled. -/
def pending (t : Technique) : Nat := if t.state.any (·.timer.isInFlight) then 1 else 0

/-- The chronicle tells how the technique came to its samples. -/
structure Accords (d : Device) (t : Technique) (k : Chronicle) : Prop where
  /-- The window has the last samples. -/
  recent : t.duration.recent = k.samples.take durationWindow
  /-- A frame submits at most one measurement. -/
  frames : k.measurements.length ≤ k.frames
  /-- A measurement has the draws of the declared passes, and the clock counted these. -/
  measured : ∀ m ∈ k.measurements, m.draws = t.passes.map (·.vertexCount) ∧
    m.closing.toNat = m.opening.toNat + t.passes.length * d.timing.ticksPerDraw.toNat
  /-- Every sample is a measurement of its own, which was polled and not interrupted. -/
  taken : ∃ kept : List Measurement, kept.Sublist (k.measurements.drop t.pending) ∧
    (∀ m ∈ kept, m.interrupted = false) ∧
    k.samples = kept.map (·.nanoseconds d.timing.frequency)
  /-- The timer rests between frames, and is in flight with the last measurement. -/
  timer : ∀ state, t.state = some state → state.timer.Wired d ∧ state.timer.state ≠ .recording ∧
    (state.timer.state = .inFlight →
      ∃ m rest, k.measurements = m :: rest ∧ state.timer.Holds d m)

namespace Accords

variable {d d' : Device} {t t' : Technique} {k : Chronicle}

theorem new (d : Device) (effect : Nat) (decl : TechniqueDecl) :
    (Technique.ofDecl effect decl).Accords d {} where
  recent := rfl
  frames := Nat.le_refl _
  measured := nofun
  taken := ⟨[], List.nil_sublist _, nofun, rfl⟩
  timer := nofun

/-- Work that leaves the queries alone changes nothing about it. -/
theorem leaves (h : t.Accords d k) (hevolves : d.Evolves d') (htiming : d'.timing = d.timing)
    (hleaves : ∀ q ∈ t.queries, d.Leaves d' q) : t.Accords d' k where
  recent := h.recent
  frames := h.frames
  measured := by
    rw [htiming]
    exact h.measured
  taken := by
    rw [htiming]
    exact h.taken
  timer state hstate := by
    obtain ⟨hwired, hrecording, hflight⟩ := h.timer state hstate
    refine ⟨hwired.evolves hevolves, hrecording, fun hstate' ↦ ?_⟩
    obtain ⟨m, rest, hm, hholds⟩ := hflight hstate'
    refine ⟨m, rest, hm, hholds.leaves htiming fun q hq ↦ hleaves q ?_⟩
    rw [queries, hstate]
    simpa using hq

theorem restart (h : t.Accords d k) {state? : Option TechniqueState}
    (hnew : ∀ state ∈ state?, state.timer.Wired d ∧ state.timer.state = .idle) :
    ({ t with state := state? } : Technique).Accords d k where
  recent := h.recent
  frames := h.frames
  measured := h.measured
  taken := by
    have hpending : ({ t with state := state? } : Technique).pending = 0 := by
      rw [pending, if_neg]
      rcases state? with _ | state
      · exact nofun
      · simp [Timer.isInFlight, (hnew state rfl).2]
    obtain ⟨kept, hkept, hrest⟩ := h.taken
    refine ⟨kept, ?_, hrest⟩
    rw [hpending]
    exact hkept.trans (List.drop_sublist _ _)
  timer state hstate := by
    obtain ⟨hwired, hidle⟩ := hnew state hstate
    rw [hidle]
    exact ⟨hwired, nofun, nofun⟩

end Accords

end Technique

/-! ## What a technique issues -/

theorem Command.touched?_of_not_isQuery {c : Command} (h : c.isQuery = false) (d : Device)
    (q : Handle .query) : c.touched? d ≠ some q.ref := by
  intro htouched
  rcases Device.touched?_cases htouched with hkind | ⟨x, data, -, href⟩ | ⟨_, rfl | rfl, -⟩
  · cases hkind
  · cases congrArg ObjectRef.kind href
  · cases h
  · cases h

theorem Command.touched?_of_measures {queries : List (Handle .query)} {c : Command}
    (h : c.measures queries) {d : Device} {q : Handle .query}
    (htouched : c.touched? d = some q.ref) :
    q ∈ queries := by
  cases c with
  | beginQuery q' | endQuery q' =>
    obtain rfl : q' = q := Handle.ref_inj.mp (Option.some.inj htouched)
    exact of_decide_eq_true h
  | _ => cases h

/-- The command neither measures nor replaces the contents of a buffer, which passes do not. -/
def Command.isOfPass : Command → Bool
  | .updateConstantBuffer .. | .beginQuery _ | .endQuery _ => false
  | _ => true

theorem Command.not_isQuery_of_isOfPass {c : Command} (h : c.isOfPass) : c.isQuery = false := by
  cases c <;> first | rfl | cases h

section Commands

variable {b : Backbuffer} {depthView : Option (Handle .shaderView)}

theorem PassRecord.isOfPass_commands (r : PassRecord) (clearsStencil : Bool) :
    ∀ c ∈ r.commands b depthView clearsStencil, c.isOfPass := by
  have hnil := List.forall_mem_nil fun c : Command ↦ c.isOfPass = true
  rw [commands]
  simp only [List.forall_mem_append, List.forall_mem_cons, List.forall_mem_map]
  refine ⟨⟨⟨⟨⟨⟨rfl, rfl, rfl, rfl, rfl, hnil⟩, ?_⟩, rfl, hnil⟩, ?_⟩, rfl, rfl, rfl, rfl, hnil⟩,
    fun _ _ ↦ rfl⟩
  · split
    · exact List.forall_mem_singleton.mpr rfl
    · exact hnil
  · split
    · exact List.forall_mem_map.mpr fun _ _ ↦ rfl
    · exact hnil

theorem PassRecord.drawnBy_commands (r : PassRecord) (clearsStencil : Bool) :
    drawnBy (r.commands b depthView clearsStencil) = [r.vertexCount] := by
  have hnone {cs : List Command} (h : ∀ c ∈ cs, c.vertices? = none) : drawnBy cs = [] :=
    List.filterMap_eq_nil_iff.mpr h
  have hclear : drawnBy (if r.clearsTargets then
      r.targets.map fun t ↦ .clearRenderTarget t .transparent else []) = [] := by
    split
    · exact hnone (List.forall_mem_map.mpr fun _ _ ↦ rfl)
    · rfl
  have hstencil : drawnBy (if clearsStencil then [.clearStencil b.stencilView 0] else []) = [] := by
    split <;> rfl
  have hmips : drawnBy (r.mipViews.map .generateMips) = [] :=
    hnone (List.forall_mem_map.mpr fun _ _ ↦ rfl)
  rw [commands]
  simp only [drawnBy_append, hclear, hstencil, hmips]
  rfl

theorem isOfPass_passCommands (cleared : Bool) (records : List PassRecord) :
    ∀ c ∈ passCommands b depthView cleared records, c.isOfPass := by
  induction records generalizing cleared with
  | nil => exact List.forall_mem_nil _
  | cons r records ih =>
    rw [passCommands, List.forall_mem_append]
    exact ⟨r.isOfPass_commands _, ih _⟩

theorem drawnBy_passCommands (cleared : Bool) (records : List PassRecord) :
    drawnBy (passCommands b depthView cleared records) = records.map (·.vertexCount) := by
  induction records generalizing cleared with
  | nil => rfl
  | cons r records ih =>
    rw [passCommands, drawnBy_append, r.drawnBy_commands, ih]
    rfl

theorem TechniqueState.isQuery_commands (s : TechniqueState) (e : Effect) :
    ∀ c ∈ s.commands b depthView e, c.isQuery = false := by
  rw [commands]
  simp only [List.forall_mem_append, List.forall_mem_singleton, List.forall_mem_map]
  exact ⟨⟨⟨rfl, fun _ _ ↦ rfl⟩, rfl⟩, fun c hc ↦
    Command.not_isQuery_of_isOfPass (isOfPass_passCommands false s.passes c hc)⟩

theorem TechniqueState.touched?_commands_ne (s : TechniqueState) (e : Effect) (b : Backbuffer)
    (depthView : Option (Handle .shaderView)) (d : Device) (q : Handle .query) :
    ∀ c ∈ s.commands b depthView e, c.touched? d ≠ some q.ref := fun c hc ↦
  Command.touched?_of_not_isQuery (s.isQuery_commands e c hc) d q

theorem TechniqueState.drawnBy_commands (s : TechniqueState) (e : Effect) :
    drawnBy (s.commands b depthView e) = s.passes.map (·.vertexCount) := by
  have hbuffer : drawnBy ((e.objects.bind (·.uniformBuffer)).toList.map fun h ↦
      .updateConstantBuffer h e.uniforms) = [] :=
    List.filterMap_eq_nil_iff.mpr (List.forall_mem_map.mpr fun _ _ ↦ rfl)
  rw [commands]
  simp only [drawnBy_append, hbuffer, drawnBy_passCommands]
  rfl

theorem Technique.Issues.length_drawnBy {effect? : Nat → Option Effect} {t : Technique}
    {cs : List Command} (h : t.Issues b depthView effect? cs) :
    (drawnBy cs).length = (t.framePasses effect?).length := by
  have hmeasures {queries : List (Handle .query)} {cs : List Command}
      (h : ∀ c ∈ cs, c.measures queries) : drawnBy cs = [] := by
    refine List.filterMap_eq_nil_iff.mpr fun c hc ↦ ?_
    have hc := h c hc
    cases c <;> first | rfl | cases hc
  unfold Technique.Issues at h
  unfold framePasses
  rcases hrun : t.runnable? effect? with _ | ⟨state, effect⟩ <;> rw [hrun] at h
  · rw [h]
    rfl
  · obtain ⟨opening, closing, rfl, hopening, hclosing⟩ := h
    rw [drawnBy_append, drawnBy_append, hmeasures hopening, hmeasures hclosing,
      state.drawnBy_commands]
    simp

end Commands

/-! ## A run -/

namespace Technique

variable {b : Backbuffer} {depthView : Option (Handle .shaderView)}
  {effect? : Nat → Option Effect} {d : Device} {t : Technique} {k : Chronicle}

/-- A run of a technique whose timer is still in flight after it was polled. -/
theorem run_of_inFlight (b : Backbuffer) (depthView : Option (Handle .shaderView)) (k : Chronicle)
    {state : TechniqueState} {effect : Effect}
    (hrun : t.runnable? effect? = some (state, effect))
    (hpoll : state.timer.poll d = (none, state.timer)) (hstate : state.timer.state = .inFlight) :
    t.run b depthView effect? d
        = ({ t with state := some state }, d.issueAll (state.commands b depthView effect)) ∧
      t.chronicle b depthView effect? d k
        = { k with frames := k.frames + 1 } := by
  have hstart : state.timer.start = (false, state.timer, []) := by
    rw [Timer.start, hstate]
    rfl
  refine ⟨?_, ?_⟩
  · rw [run, hrun]
    dsimp only
    rw [Timer.collect, hpoll]
    dsimp only
    rw [hstart]
    simp
  · rw [chronicle, hrun]
    dsimp only
    rw [hpoll]
    dsimp only
    rw [hstart]
    rfl

/-- The measurement that a run submits if its timer is idle. -/
def submitted (state : TechniqueState) (effect : Effect) (b : Backbuffer)
    (depthView : Option (Handle .shaderView)) (d : Device) : Measurement :=
  let ended := d.issueAll
    ([.beginQuery state.timer.interval, .endQuery state.timer.opening]
      ++ state.commands b depthView effect)
  ⟨d.clock, ended.clock, ended.interruptNext, drawnBy (ended.log.drop d.log.length)⟩

theorem measured_submitted (state : TechniqueState) (effect : Effect) (b : Backbuffer)
    (depthView : Option (Handle .shaderView)) {d : Device}
    (hclock : d.clock.toNat + state.passes.length * d.timing.ticksPerDraw.toNat < 2 ^ 64) :
    let m := submitted state effect b depthView d
    m.draws = state.passes.map (·.vertexCount) ∧
      m.closing.toNat = m.opening.toNat + state.passes.length * d.timing.ticksPerDraw.toNat := by
  intro m
  have hdrawn : drawnBy ([.beginQuery state.timer.interval, .endQuery state.timer.opening]
      ++ state.commands b depthView effect) = state.passes.map (·.vertexCount) :=
    state.drawnBy_commands effect
  have hlength := (congrArg List.length hdrawn).trans (List.length_map _)
  constructor
  · change drawnBy ((Device.issueAll _ _).log.drop d.log.length) = _
    rw [Device.log_issueAll, List.drop_left, hdrawn]
  · change (Device.issueAll _ _).clock.toNat = _
    rw [Device.clock_issueAll (by rwa [hlength]), hlength]
    rfl

/-- A run of a technique whose timer is idle after it was polled. -/
theorem run_of_idle (b : Backbuffer) (depthView : Option (Handle .shaderView)) (k : Chronicle)
    {state : TechniqueState} {effect : Effect}
    (hrun : t.runnable? effect? = some (state, effect)) {taken : Option UInt64}
    (hpoll : state.timer.poll d = (taken, { state.timer with state := .idle })) :
    t.run b depthView effect? d
        = ({ t with
            duration := taken.elim t.duration t.duration.append
            state := some { state with timer := { state.timer with state := .inFlight } } },
          (d.issueAll ([.beginQuery state.timer.interval, .endQuery state.timer.opening]
            ++ state.commands b depthView effect)).issueAll
              [.endQuery state.timer.closing, .endQuery state.timer.interval]) ∧
      t.chronicle b depthView effect? d k
        = { frames := k.frames + 1
            measurements := submitted state effect b depthView d :: k.measurements
            samples := taken.toList ++ k.samples } := by
  have hcollect : state.timer.collect d t.duration
      = ({ state.timer with state := .idle }, taken.elim t.duration t.duration.append) := by
    rw [Timer.collect, hpoll]
    cases taken <;> rfl
  refine ⟨?_, ?_⟩
  · rw [run, hrun]
    dsimp only
    rw [hcollect, ← Device.issueAll_append]
    rfl
  · rw [chronicle, hrun]
    dsimp only
    rw [hpoll]
    rfl

namespace Accords

/-- What a poll makes of the samples: nothing is taken of a measurement in flight, or all of it. -/
theorem poll (h : t.Accords d k) {state : TechniqueState} (hstate : t.state = some state) :
    state.timer.state = .inFlight ∧ state.timer.poll d = (none, state.timer) ∨
    ∃ taken, state.timer.poll d = (taken, { state.timer with state := .idle }) ∧
      ∃ kept : List Measurement, kept.Sublist k.measurements ∧
        (∀ m ∈ kept, m.interrupted = false) ∧
        taken.toList ++ k.samples = kept.map (·.nanoseconds d.timing.frequency) := by
  obtain ⟨hwired, hrecording, hflight⟩ := h.timer state hstate
  obtain ⟨kept, hkept, hclean, hsamples⟩ := h.taken
  by_cases hstate' : state.timer.state = .inFlight
  · obtain ⟨m, rest, hm, hholds⟩ := hflight hstate'
    rcases Timer.poll_of_holds hholds hstate' with hpoll | hpoll
    · exact Or.inl ⟨hstate', hpoll⟩
    · -- what was kept so far is older than the measurement in flight
      have hrest : kept.Sublist rest := by
        have hpending : t.pending = 1 := by
          rw [pending, if_pos]
          simp [hstate, Timer.isInFlight, hstate']
        rwa [hpending, hm] at hkept
      refine Or.inr ⟨_, hpoll, ?_⟩
      rw [hm]
      split
      · exact ⟨kept, hrest.cons m, hclean, hsamples⟩
      · rename_i hvalid
        refine ⟨m :: kept, hrest.cons_cons m, List.forall_mem_cons.mpr ⟨?_, hclean⟩, ?_⟩
        · simpa using (not_or.mp hvalid).1
        · rw [hsamples]
          rfl
  · -- a timer that is not in flight is idle between frames
    have hidle : state.timer.state = .idle := by
      cases hcase : state.timer.state with
      | idle => rfl
      | recording => exact absurd hcase hrecording
      | inFlight => exact absurd hcase hstate'
    refine Or.inr ⟨none, ?_, kept, hkept.trans (List.drop_sublist _ _), hclean, hsamples⟩
    rw [Timer.poll_of_ne hstate', ← hidle]

theorem recent_append (h : t.Accords d k) (taken : Option UInt64) :
    (taken.elim t.duration t.duration.append).recent
      = (taken.toList ++ k.samples).take durationWindow := by
  cases taken with
  | none => exact h.recent
  | some x =>
    change (x :: t.duration.recent).take durationWindow = (x :: k.samples).take durationWindow
    rw [h.recent, durationWindow, List.take_succ_cons, List.take_succ_cons, List.take_take]
    rfl

theorem run_of_inFlight (h : t.Accords d k) (b : Backbuffer)
    (depthView : Option (Handle .shaderView)) {state : TechniqueState} {effect : Effect}
    (hrun : t.runnable? effect? = some (state, effect))
    (hpoll : state.timer.poll d = (none, state.timer)) (hflight : state.timer.state = .inFlight) :
    (t.run b depthView effect? d).1.Accords (t.run b depthView effect? d).2
      (t.chronicle b depthView effect? d k) := by
  obtain ⟨-, hstate, -⟩ := state_of_runnable? hrun
  obtain ⟨hran, hchronicle⟩ := Technique.run_of_inFlight b depthView k hrun hpoll hflight
  rw [hran, hchronicle, ← hstate]
  have hleft := h.leaves (Device.Evolves.issueAll d _) (Device.timing_issueAll d _) fun q _ ↦
    Device.leaves_issueAll (state.touched?_commands_ne effect b depthView d q)
  exact ⟨hleft.recent, hleft.frames.trans (Nat.le_succ _), hleft.measured, hleft.taken, hleft.timer⟩

/-- A technique that is idle submits a measurement, and has taken what was there. -/
theorem run_of_idle (h : t.Accords d k) (b : Backbuffer) (depthView : Option (Handle .shaderView))
    {state : TechniqueState} {effect : Effect} (hrun : t.runnable? effect? = some (state, effect))
    (hnodup : state.timer.queries.Nodup)
    (hpasses : state.passes.map (·.vertexCount) = t.passes.map (·.vertexCount))
    (hclock : d.clock.toNat + state.passes.length * d.timing.ticksPerDraw.toNat < 2 ^ 64)
    {taken : Option UInt64} {kept : List Measurement}
    (hpoll : state.timer.poll d = (taken, { state.timer with state := .idle }))
    (hkept : kept.Sublist k.measurements) (hclean : ∀ m ∈ kept, m.interrupted = false)
    (hsamples : taken.toList ++ k.samples = kept.map (·.nanoseconds d.timing.frequency)) :
    (t.run b depthView effect? d).1.Accords (t.run b depthView effect? d).2
      (t.chronicle b depthView effect? d k) := by
  obtain ⟨-, hstate, -⟩ := state_of_runnable? hrun
  obtain ⟨hwired, -, -⟩ := h.timer state hstate
  obtain ⟨hran, hchronicle⟩ := Technique.run_of_idle b depthView k hrun hpoll
  have hlength : state.passes.length = t.passes.length := by
    simpa using congrArg List.length hpasses
  obtain ⟨hdraws, hclosing⟩ := measured_submitted state effect b depthView hclock
  rw [hpasses] at hdraws
  rw [hlength] at hclosing
  rw [hran, hchronicle]
  have htiming : ∀ cs cs', ((d.issueAll cs).issueAll cs').timing = d.timing := fun cs cs' ↦
    (Device.timing_issueAll _ _).trans (Device.timing_issueAll _ _)
  refine ⟨h.recent_append taken, Nat.succ_le_succ h.frames, ?_, ?_, ?_⟩
  · rw [htiming]
    exact List.forall_mem_cons.mpr ⟨⟨hdraws, hclosing⟩, h.measured⟩
  · rw [htiming]
    exact ⟨kept, hkept, hclean, hsamples⟩
  · intro state' hstate'
    cases hstate'
    have hwired' := hwired.evolves ((Device.Evolves.issueAll d
      ([.beginQuery state.timer.interval, .endQuery state.timer.opening]
        ++ state.commands b depthView effect)).trans (Device.Evolves.issueAll _
          [.endQuery state.timer.closing, .endQuery state.timer.interval]))
    have hholds := Timer.holds_of_measure hwired hnodup
      (fun q _ ↦ state.touched?_commands_ne effect b depthView d q)
      (submitted state effect b depthView d).draws
    exact ⟨⟨hwired'.interval, hwired'.opening, hwired'.closing⟩, nofun, fun _ ↦
      ⟨_, _, rfl, hholds.interval, hholds.opening, hholds.closing⟩⟩

/-- **A run keeps technique and chronicle in accord.** -/
theorem run (h : t.Accords d k) (b : Backbuffer) (depthView : Option (Handle .shaderView))
    (hnodup : t.queries.Nodup)
    (hpasses : ∀ state, t.state = some state →
      state.passes.map (·.vertexCount) = t.passes.map (·.vertexCount))
    (hclock : d.clock.toNat + (t.framePasses effect?).length * d.timing.ticksPerDraw.toNat
      < 2 ^ 64) :
    (t.run b depthView effect? d).1.Accords (t.run b depthView effect? d).2
      (t.chronicle b depthView effect? d k) := by
  rcases hrun : t.runnable? effect? with _ | ⟨state, effect⟩
  · rw [Technique.run, chronicle, hrun]
    exact h
  · obtain ⟨-, hstate, -⟩ := state_of_runnable? hrun
    rw [framePasses, hrun] at hclock
    rcases h.poll hstate with ⟨hflight, hpoll⟩ | ⟨taken, hpoll, kept, hkept, hclean, hsamples⟩
    · exact h.run_of_inFlight b depthView hrun hpoll hflight
    · exact h.run_of_idle b depthView hrun (by simpa [queries, hstate] using hnodup)
        (hpasses state hstate) hclock hpoll hkept hclean hsamples

end Accords

end Technique

end EffectChain
