import EffectChain.Proofs.Durations
import EffectChain.Proofs.Housekeeping
import EffectChain.Proofs.Records.Liveness

/-!
# Samples of a steady run

A device whose results are there one frame later is asked for them in time: a technique that runs in
every frame collects a sample in every frame but the first. As long as no interval is interrupted
and the clock does not overflow, all samples are the same, since a measurement has the draws of the
declared passes between its readings. So after a number of frames it is known how many samples the
average has taken, and which (`Technique.Sampled`).

What is said of a technique is what its timer would collect if it ran now. A run makes that true of
the next frame (`Technique.Sampled.run`), and nothing but its own run touches the queries of its
timer, so it is still true after the other techniques ran (`sampled_runTechniques`).
-/

namespace EffectChain

/-! ## Results in time -/

namespace Device

variable {d d' : Device} {q : Handle .query} {ready : UInt64} {data : QueryData}

/-- The query has a result that can be read from a frame on. -/
def IsPending (d : Device) (q : Handle .query) (frame : UInt64) : Prop :=
  ∃ c : Query, d.get? q = some c ∧ ∃ data, c.state = .pending frame data

theorem IsPending.congr {frame : UInt64} (h : d.IsPending q frame) (hget : d'.get? q = d.get? q) :
    d'.IsPending q frame := by
  obtain ⟨c, hc, hstate⟩ := h
  exact ⟨c, hget.trans hc, hstate⟩

/-- The query has the result, which can be read from a frame on. -/
def HasResult (d : Device) (q : Handle .query) (ready : UInt64) (data : QueryData) : Prop :=
  ∃ c : Query, d.get? q = some c ∧ c.state = .pending ready data

theorem HasResult.congr (h : d.HasResult q ready data) (hget : d'.get? q = d.get? q) :
    d'.HasResult q ready data := by
  obtain ⟨c, hc, hstate⟩ := h
  exact ⟨c, hget.trans hc, hstate⟩

theorem HasResult.queryData? (h : d.HasResult q ready data) :
    d.queryData? q = if ready ≤ d.frame then some data else none := by
  obtain ⟨c, hc, hstate⟩ := h
  rw [Device.queryData?, hc]
  dsimp only
  rw [hstate]

theorem IsPending.hasResult (h : d.IsPending q ready) (hanswers : d.Answers q data) :
    d.HasResult q ready data := by
  obtain ⟨c, hc, data', hstate⟩ := h
  obtain ⟨ready', hstate'⟩ := hanswers c hc
  cases hstate.symm.trans hstate'
  exact ⟨c, hc, hstate⟩

theorem isPending_endQuery (hlive : q.ref ∈ d.live) :
    (d.issue (.endQuery q)).IsPending q (d.frame + d.timing.latency) := by
  obtain ⟨c, hc⟩ := get?_of_mem_live hlive
  have hself (f : Query → Query) : (d.modify q f).get? q = some (f c) :=
    (Store.get?_modify_self _ _ _).trans (congrArg (Option.map f) hc)
  change (d.finishQuery q).IsPending q _
  rw [finishQuery, hc]
  dsimp only
  split
  · exact ⟨_, hself _, _, rfl⟩
  · exact ⟨_, hself _, _, rfl⟩

theorem evolves_advanceFrame (d : Device) : d.Evolves d.advanceFrame := Evolves.of_eq rfl rfl

/-- What was ended and left alone since then can be read after the latency. -/
theorem isPending_issueAll (hlive : q.ref ∈ d.live) (before : List Command) {after : List Command}
    (hafter : ∀ c ∈ after, c.touched? d ≠ some q.ref) :
    (d.issueAll (before ++ .endQuery q :: after)).IsPending q (d.frame + d.timing.latency) := by
  have hended := isPending_endQuery (d := d.issueAll before) (q := q) (by rwa [live_issueAll])
  rw [frame_issueAll, timing_issueAll] at hended
  rw [issueAll_append]
  refine hended.congr (get?_issueAll_of_ne (d := (d.issueAll before).issue (.endQuery q)) ?_)
  intro c hc
  rw [touched?_issue, touched?_issueAll]
  exact hafter c hc

/-- Results are there one frame later, and no interruption is marked. -/
structure Prompt (d : Device) : Prop where
  frequency : d.timing.frequency ≠ 0
  latency : d.timing.latency = 1
  interruptNext : d.interruptNext = false

theorem Prompt.waits (h : d.Prompt) (hwaits : d.Waits d') : d'.Prompt := by
  refine ⟨?_, ?_, hwaits.interruptNext.trans h.interruptNext⟩ <;> rw [hwaits.timing]
  · exact h.frequency
  · exact h.latency

theorem Prompt.issueAll (h : d.Prompt) (cs : List Command) : (d.issueAll cs).Prompt := by
  have hissue (d : Device) (c : Command) (h : d.interruptNext = false) :
      (d.issue c).interruptNext = false := by
    rcases hquery : c.isQuery with _ | _
    · rwa [interruptNext_issue d hquery]
    · change (d.apply c).interruptNext = false
      cases c <;> cases hquery <;> simp only [apply, finishQuery] <;> repeat' split
      all_goals first
        | exact h
        | rfl
  induction cs generalizing d with
  | nil => exact h
  | cons c cs ih =>
    have htiming := timing_issue d c
    exact ih ⟨htiming ▸ h.frequency, htiming ▸ h.latency, hissue d c h.interruptNext⟩

end Device

namespace Timer

variable {d d' : Device} {t : Timer} {m : Measurement}

/-- A poll depends on the queries of the timer and on the frame. -/
theorem poll_congr (hget : ∀ q ∈ t.queries, d'.get? q = d.get? q) (hframe : d'.frame = d.frame) :
    t.poll d' = t.poll d := by
  have hdata : ∀ q ∈ t.queries, d'.queryData? q = d.queryData? q := by
    intro q hq
    rw [Device.queryData?, Device.queryData?, hget q hq, hframe]
  simp only [queries, List.forall_mem_cons] at hdata
  rw [poll, poll, hdata.1, hdata.2.1, hdata.2.2.1]

/-- **A poll waits for the results of the stop**, and then takes all three. -/
theorem poll_of_hasResult {opening closing frequency ready₀ ready : UInt64} {interrupted : Bool}
    (hstate : t.state = .inFlight) (hopening : d.HasResult t.opening ready₀ (.timestamp opening))
    (hready : ready₀ ≤ ready) (hclosing : d.HasResult t.closing ready (.timestamp closing))
    (hinterval : d.HasResult t.interval ready (.disjoint frequency interrupted)) :
    t.poll d = if ready ≤ d.frame then
        (if interrupted ∨ frequency = 0 then none else some (nanoseconds opening closing frequency),
          { t with state := .idle })
      else (none, t) := by
  rw [poll, if_pos hstate, hinterval.queryData?, hopening.queryData?, hclosing.queryData?]
  by_cases hframe : ready ≤ d.frame
  · rw [if_pos hframe, if_pos hframe, if_pos hframe, if_pos (UInt64.le_trans hready hframe)]
  · rw [if_neg hframe, if_neg hframe, if_neg hframe]

theorem poll_of_isPending {frame : UInt64} (hholds : t.Holds d m)
    (hpending : ∀ q ∈ t.queries, d.IsPending q frame) (hframe : frame ≤ d.frame)
    (hstate : t.state = .inFlight) :
    t.poll d = (if m.interrupted ∨ d.timing.frequency = 0 then none
      else some (m.nanoseconds d.timing.frequency), { t with state := .idle }) := by
  simp only [queries, List.forall_mem_cons] at hpending
  obtain ⟨hinterval, hopening, hclosing, -⟩ := hpending
  rw [poll_of_hasResult hstate (hopening.hasResult hholds.opening) (UInt64.le_refl _)
    (hclosing.hasResult hholds.closing) (hinterval.hasResult hholds.interval), if_pos hframe]
  rfl

theorem isPending_of_measure (hnodup : t.queries.Nodup)
    (hlive : ∀ q ∈ t.queries, q.ref ∈ d.live) {body : List Command}
    (hbody : ∀ q ∈ t.queries, ∀ c ∈ body, c.touched? d ≠ some q.ref) :
    ∀ q ∈ t.queries,
      (d.issueAll ([.beginQuery t.interval, .endQuery t.opening] ++ body
        ++ [.endQuery t.closing, .endQuery t.interval])).IsPending q
          (d.frame + d.timing.latency) := by
  simp only [queries, List.forall_mem_cons] at hbody hlive ⊢
  obtain ⟨hio, hic, hoc⟩ := ne_of_nodup_queries hnodup
  refine ⟨?_, ?_, ?_, List.forall_mem_nil _⟩
  · have hended := Device.isPending_issueAll hlive.1
      ([.beginQuery t.interval, .endQuery t.opening] ++ body ++ [.endQuery t.closing])
      (List.forall_mem_nil _)
    rwa [List.append_assoc] at hended
  · have hafter : ∀ c ∈ body ++ [.endQuery t.closing, .endQuery t.interval],
        c.touched? d ≠ some t.opening.ref := by
      simp only [List.forall_mem_append, List.forall_mem_cons]
      exact ⟨hbody.2.1, Device.touched?_endQuery_of_ne (Ne.symm hoc) d,
        Device.touched?_endQuery_of_ne hio d, List.forall_mem_nil _⟩
    exact Device.isPending_issueAll hlive.2.1 [.beginQuery t.interval] hafter
  · exact Device.isPending_issueAll hlive.2.2.1
      ([.beginQuery t.interval, .endQuery t.opening] ++ body)
      (List.forall_mem_singleton.mpr (Device.touched?_endQuery_of_ne hic d))

/-- **What was measured in a frame is sampled in the next**, unless it was interrupted. -/
theorem poll_of_measure (hwired : t.Wired d) (hnodup : t.queries.Nodup)
    (hlive : ∀ q ∈ t.queries, q.ref ∈ d.live) {body : List Command}
    (hbody : ∀ q ∈ t.queries, ∀ c ∈ body, c.touched? d ≠ some q.ref)
    (hprompt : d.Prompt) :
    let ended := d.issueAll ([.beginQuery t.interval, .endQuery t.opening] ++ body)
    ({ t with state := .inFlight } : Timer).poll
        (ended.issueAll [.endQuery t.closing, .endQuery t.interval]).advanceFrame
      = (some (nanoseconds d.clock ended.clock d.timing.frequency),
        { t with state := .idle }) := by
  intro ended
  have hholds := holds_of_measure hwired hnodup hbody []
  have hpending := isPending_of_measure hnodup hlive hbody
  have hmark : ended.interruptNext = false := (hprompt.issueAll _).interruptNext
  rw [hprompt.latency, Device.issueAll_append] at hpending
  change t.Holds (ended.issueAll _) ⟨d.clock, ended.clock, ended.interruptNext, []⟩ at hholds
  rw [hmark] at hholds
  have hframe : (ended.issueAll [.endQuery t.closing, .endQuery t.interval]).frame = d.frame := by
    rw [Device.frame_issueAll, Device.frame_issueAll]
  have htiming : (ended.issueAll [.endQuery t.closing, .endQuery t.interval]).timing
      = d.timing := by
    rw [Device.timing_issueAll, Device.timing_issueAll]
  change ∀ q ∈ t.queries, (ended.issueAll _).IsPending q _ at hpending
  generalize ended.issueAll [.endQuery t.closing, .endQuery t.interval] = d'
    at hholds hpending hframe htiming ⊢
  have hnext : d.frame + 1 ≤ d'.advanceFrame.frame := by
    change d.frame + 1 ≤ d'.frame + 1
    rw [hframe]
    exact UInt64.le_refl _
  have hnonzero : d'.advanceFrame.timing.frequency ≠ 0 := by
    change d'.timing.frequency ≠ 0
    rw [htiming]
    exact hprompt.frequency
  have hholds' : ({ t with state := .inFlight } : Timer).Holds d'.advanceFrame
      ⟨d.clock, ended.clock, false, []⟩ := ⟨hholds.interval, hholds.opening, hholds.closing⟩
  rw [poll_of_isPending hholds' hpending hnext rfl, if_neg (by simp [hnonzero])]
  change (some (nanoseconds _ _ d'.timing.frequency), _) = _
  rw [htiming]

end Timer

/-! ## Samples of a technique -/

namespace Technique

variable {b : Backbuffer} {depthView : Option (Handle .shaderView)}
  {effect? : Nat → Option Effect} {d d' : Device} {t : Technique} {frames : Nat}

/-- The nanoseconds that the draws of the declared passes take. -/
def sample (t : Technique) (timing : DeviceTiming) : UInt64 :=
  UInt64.ofNat (t.passes.length * timing.ticksPerDraw.toNat * 1000000000 / timing.frequency.toNat)

/-- The technique ran in so many frames: all but the first one collected a sample, and the next one
will. -/
structure Sampled (d : Device) (t : Technique) (frames : Nat) : Prop where
  /-- The window has the samples. -/
  recent : t.duration.recent
    = List.replicate (min (frames - 1) durationWindow) (t.sample d.timing)
  /-- There is a sample to collect after the first frame. -/
  timer : ∀ state, t.state = some state → state.timer.Wired d ∧
    state.timer.poll d = (if frames = 0 then none else some (t.sample d.timing),
      { state.timer with state := .idle })

namespace Sampled

/-- Work that leaves the queries alone changes nothing about it. -/
theorem congr (h : t.Sampled d frames) (hevolves : d.Evolves d') (htiming : d'.timing = d.timing)
    (hframe : d'.frame = d.frame) (hget : ∀ q ∈ t.queries, d'.get? q = d.get? q) :
    t.Sampled d' frames where
  recent := by
    rw [htiming]
    exact h.recent
  timer state hstate := by
    obtain ⟨hwired, hpoll⟩ := h.timer state hstate
    refine ⟨hwired.evolves hevolves, ?_⟩
    rw [htiming, ← hpoll]
    exact Timer.poll_congr (fun q hq ↦ hget q (by simpa [queries, hstate] using hq)) hframe

theorem issueAll (h : t.Sampled d frames) {cs : List Command}
    (hcs : ∀ q ∈ t.queries, ∀ c ∈ cs, c.touched? d ≠ some q.ref) :
    t.Sampled (d.issueAll cs) frames :=
  h.congr (Device.Evolves.issueAll d cs) (Device.timing_issueAll d cs) (Device.frame_issueAll d cs)
    fun q hq ↦ Device.get?_issueAll_of_ne (hcs q hq)

theorem issueAll_advanceFrame (h : t.Sampled d.advanceFrame frames) {cs : List Command}
    (hcs : ∀ q ∈ t.queries, ∀ c ∈ cs, c.touched? d ≠ some q.ref) :
    t.Sampled (d.issueAll cs).advanceFrame frames := by
  refine h.congr ?_ (Device.timing_issueAll d cs) ?_ fun q hq ↦
    Device.get?_issueAll_of_ne (hcs q hq)
  · exact (Device.Evolves.of_eq rfl rfl : d.advanceFrame.Evolves d).trans
      ((Device.Evolves.issueAll d cs).trans (Device.evolves_advanceFrame _))
  · exact congrArg (· + 1) (Device.frame_issueAll d cs)

theorem recent_append (h : t.Sampled d frames) :
    ((if frames = 0 then none else some (t.sample d.timing)).elim t.duration
        t.duration.append).recent
      = List.replicate (min frames durationWindow) (t.sample d.timing) := by
  rcases frames with _ | frames
  · exact h.recent
  · rw [if_neg (Nat.succ_ne_zero frames), Option.elim_some, MovingAverage.append, h.recent]
    dsimp only
    rw [← List.replicate_succ, List.take_replicate]
    congr 1
    omega

/-- **A run collects a sample, and leaves one for the next frame.** -/
theorem run (h : t.Sampled d frames) (hrunnable : (t.runnable? effect?).isSome)
    (hlive : ∀ q ∈ t.queries, q.ref ∈ d.live) (hnodup : t.queries.Nodup) (hrecords : t.Records)
    (hprompt : d.Prompt) (hclock : d.clock.toNat
      + (t.framePasses effect?).length * d.timing.ticksPerDraw.toNat < 2 ^ 64) :
    (t.run b depthView effect? d).1.Sampled (t.run b depthView effect? d).2.advanceFrame
      (frames + 1) := by
  obtain ⟨⟨state, effect⟩, hrun⟩ := Option.isSome_iff_exists.mp hrunnable
  obtain ⟨-, hstate, -⟩ := state_of_runnable? hrun
  obtain ⟨hwired, hpoll⟩ := h.timer state hstate
  obtain ⟨hran, -⟩ := run_of_idle b depthView {} hrun hpoll
  have hqueries : t.queries = state.timer.queries := by simp [queries, hstate]
  have hlength : state.passes.length = t.passes.length := by
    simpa using congrArg List.length (hrecords state hstate)
  rw [hqueries] at hlive hnodup
  rw [framePasses, hrun] at hclock
  obtain ⟨-, hticks⟩ := measured_submitted state effect b depthView hclock
  rw [hran]
  set opening : List Command := [.beginQuery state.timer.interval, .endQuery state.timer.opening]
  set closing : List Command := [.endQuery state.timer.closing, .endQuery state.timer.interval]
  set ended := d.issueAll (opening ++ state.commands b depthView effect)
  change ended.clock.toNat = d.clock.toNat + _ at hticks
  -- by the next frame the device has resolved all three queries
  have hpolled : ({ state.timer with state := .inFlight } : Timer).poll
      (ended.issueAll closing).advanceFrame
        = (some (Timer.nanoseconds d.clock ended.clock d.timing.frequency),
          { state.timer with state := .idle }) :=
    Timer.poll_of_measure hwired hnodup hlive
      (fun q _ ↦ state.touched?_commands_ne effect b depthView d q) hprompt
  rw [Timer.nanoseconds, hticks, hlength, Nat.add_sub_cancel_left] at hpolled
  have htiming : (ended.issueAll closing).advanceFrame.timing = d.timing := by
    change (ended.issueAll closing).timing = d.timing
    rw [Device.timing_issueAll, Device.timing_issueAll]
  have hevolves : d.Evolves (ended.issueAll closing).advanceFrame :=
    ((Device.Evolves.issueAll d _).trans (Device.Evolves.issueAll ended _)).trans
      (Device.evolves_advanceFrame _)
  generalize (ended.issueAll closing).advanceFrame = d' at hpolled htiming hevolves ⊢
  have hwired' := hwired.evolves hevolves
  constructor
  · rw [htiming]
    exact h.recent_append
  · intro state' hstate'
    cases hstate'
    refine ⟨⟨hwired'.interval, hwired'.opening, hwired'.closing⟩, ?_⟩
    rw [htiming, if_neg (Nat.succ_ne_zero frames)]
    exact hpolled

end Sampled

/-- A technique can run after a frame if it could before, with the same passes. -/
theorem Measures.framePasses {t' : Technique} (h : t.Measures t') :
    (t'.runnable? effect?).isSome = (t.runnable? effect?).isSome ∧
      t'.framePasses effect? = t.framePasses effect? := by
  cases h with
  | idle => exact ⟨rfl, rfl⟩
  | ran hstate hqueries =>
    rw [Technique.framePasses, Technique.framePasses, runnable?, runnable?, hstate]
    rcases henabled : t.enabled with _ | _
    · exact ⟨rfl, rfl⟩
    · rcases effect? t.effect with _ | effect <;> exact ⟨rfl, rfl⟩

theorem framePasses_of_measures {techniques techniques' : List Technique}
    (h : List.Forall₂ Technique.Measures techniques techniques') :
    techniques'.flatMap (·.framePasses effect?) = techniques.flatMap (·.framePasses effect?) := by
  induction h with
  | nil => rfl
  | cons hfirst _ ih => rw [List.flatMap_cons, List.flatMap_cons, ih, hfirst.framePasses.2]

end Technique

/-! ## Frames -/

/-- **Techniques that run one after the other** each collect a sample and leave one for the next
frame. -/
theorem sampled_runTechniques (b : Backbuffer) (depthView : Option (Handle .shaderView))
    (effect? : Nat → Option Effect) {techniques : List Technique} {d : Device} {frames : Nat}
    (h : ∀ t ∈ techniques, (t.runnable? effect?).isSome → t.Sampled d frames)
    (hlive : ∀ t ∈ techniques, ∀ q ∈ t.queries, q.ref ∈ d.live)
    (hnodup : (techniques.flatMap Technique.queries).Nodup)
    (hrecords : ∀ t ∈ techniques, t.Records) (hprompt : d.Prompt)
    (hclock : d.clock.toNat + (techniques.flatMap (·.framePasses effect?)).length
      * d.timing.ticksPerDraw.toNat < 2 ^ 64) :
    ∀ t ∈ (runTechniques b depthView effect? techniques d).1, (t.runnable? effect?).isSome →
      t.Sampled (runTechniques b depthView effect? techniques d).2.advanceFrame (frames + 1) := by
  induction techniques generalizing d with
  | nil => exact List.forall_mem_nil _
  | cons t techniques ih =>
    rw [List.flatMap_cons, List.nodup_append] at hnodup
    rw [List.forall_mem_cons] at h hlive hrecords
    obtain ⟨hmeasures, cs, hissues, hdevice⟩ := t.run_eq b depthView effect? d
    obtain ⟨-, cs', hissued, hdevice'⟩ :=
      runTechniques_eq b depthView effect? techniques (t.run b depthView effect? d).2
    obtain ⟨hfits, hroom⟩ := Technique.room_run hclock
    -- the commands of the first technique are on its own queries
    have hothers : ∀ u ∈ techniques, (u.runnable? effect?).isSome →
        u.Sampled (t.run b depthView effect? d).2 frames := by
      intro u hu hrunnable
      rw [hdevice]
      refine (h.2 u hu hrunnable).issueAll fun q hq ↦ hissues.touched? (fun hq' ↦ ?_) d
      exact hnodup.2.2 q hq' q (List.mem_flatMap.mpr ⟨u, hu, hq⟩) rfl
    have hlater : ∀ u ∈ techniques, ∀ q ∈ u.queries,
        q.ref ∈ (t.run b depthView effect? d).2.live := by
      rw [hdevice, Device.live_issueAll]
      exact hlive.2
    have hrest := ih hothers hlater hnodup.2.1 hrecords.2 (hdevice ▸ hprompt.issueAll cs) hroom
    have hfirst : ((t.run b depthView effect? d).1.runnable? effect?).isSome →
        (t.run b depthView effect? d).1.Sampled (runTechniques b depthView effect? techniques
          (t.run b depthView effect? d).2).2.advanceFrame (frames + 1) := by
      intro hrunnable
      rw [hmeasures.framePasses.1] at hrunnable
      rw [hdevice']
      have hran : (t.run b depthView effect? d).1.Sampled
          (t.run b depthView effect? d).2.advanceFrame (frames + 1) :=
        (h.1 hrunnable).run hrunnable hlive.1 hnodup.1 hrecords.1 hprompt hfits
      refine hran.issueAll_advanceFrame fun q hq ↦ hissued.touched? (fun u hu hq' ↦ ?_) _
      rw [Technique.queries_of_measures hmeasures] at hq
      exact hnodup.2.2 q hq q (List.mem_flatMap.mpr ⟨u, hu, hq'⟩) rfl
    exact List.forall_mem_cons.mpr ⟨hfirst, hrest⟩

/-! ## The engine -/

theorem IssuedBy.length_drawnBy {b : Backbuffer} {depthView : Option (Handle .shaderView)}
    {effect? : Nat → Option Effect} {techniques : List Technique} {cs : List Command}
    (h : IssuedBy b depthView effect? techniques cs) :
    (drawnBy cs).length = (techniques.flatMap (·.framePasses effect?)).length := by
  induction h with
  | nil => rfl
  | cons hfirst _ ih =>
    rw [drawnBy_append, List.length_append, List.flatMap_cons, List.length_append, ih,
      hfirst.length_drawnBy]

namespace Engine

variable {e : Engine} {frames : Nat}

/-- So many frames were presented, each of them on time: the clock counted their draws, and every
technique that can run has its samples. -/
structure Sampled (e : Engine) (frames : Nat) : Prop where
  prompt : e.device.Prompt
  /-- The clock counted the draws of all frames. -/
  clock : e.device.clock.toNat
    = frames * (e.framePasses.length * e.device.timing.ticksPerDraw.toNat)
  /-- The techniques have their samples. -/
  techniques : ∀ t ∈ e.techniques, (t.runnable? e.effect?).isSome → t.Sampled e.device frames

theorem get?_opened (hnumbered : e.device.Numbered) (b : Backbuffer) (tracker : DepthTracker)
    {q : Handle .query} (hlive : q.ref ∈ e.device.live) :
    (e.opened b tracker).get? q = e.device.get? q := by
  obtain ⟨c, hget⟩ := Device.get?_of_mem_live hlive
  rw [hget, opened, Device.get?_issueAll_of_ne fun c hc ↦
    Command.touched?_of_not_isQuery (isQuery_opening b c hc).1 _ q]
  exact e.depth.get?_point (by decide) _ hnumbered hget

theorem framePasses_present {b : Backbuffer} (hb : e.backbuffer = some b) (tracker : DepthTracker) :
    (e.present tracker).framePasses = e.framePasses := by
  obtain ⟨techniques, cs, -, hmeasures, hpresent⟩ := present_eq hb tracker
  rw [hpresent]
  exact Technique.framePasses_of_measures hmeasures

/-- **A frame gives every technique that can run another sample.** -/
theorem Sampled.present {others : Multiset ObjectRef} (h : e.Sampled frames) (howns : e.Owns others)
    (hnumbered : e.device.Numbered) (hrecords : ∀ t ∈ e.techniques, t.Records)
    {b : Backbuffer} (hb : e.backbuffer = some b) (tracker : DepthTracker)
    (hclock : e.device.clock.toNat + e.framePasses.length * e.device.timing.ticksPerDraw.toNat
      < 2 ^ 64) :
    let e' := e.present tracker
    ({ e' with device := e'.device.advanceFrame } : Engine).Sampled (frames + 1) := by
  intro e'
  obtain ⟨htechniques, hdevice, heffects⟩ := present_run hb tracker
  have heffect : e'.effect? = e.effect? := funext fun i ↦ congrArg (fun l ↦ l[i]?.join) heffects
  have hlive : ∀ t ∈ e.techniques, ∀ q ∈ t.queries, q.ref ∈ e.device.live := by
    intro t ht q hq
    obtain ⟨state, hstate, hq'⟩ := List.mem_flatMap.mp hq
    exact howns.queries_live ht (by simpa using hstate) hq'
  have hwaits := e.waits_opened b tracker
  have hsame : ∀ t ∈ e.techniques, ∀ q ∈ t.queries,
      (e.opened b tracker).get? q = e.device.get? q := fun t ht q hq ↦
    get?_opened hnumbered b tracker (hlive t ht q hq)
  -- what is done ahead of the techniques touches none of their queries
  have hopened : ∀ t ∈ e.techniques, (t.runnable? e.effect?).isSome →
      t.Sampled (e.opened b tracker) frames := fun t ht hrunnable ↦
    (h.techniques t ht hrunnable).congr ((e.depth.evolves_point _ e.device).trans
      (Device.Evolves.issueAll _ _)) hwaits.timing hwaits.frame (hsame t ht)
  have hstill : ∀ t ∈ e.techniques, ∀ q ∈ t.queries, q.ref ∈ (e.opened b tracker).live := by
    intro t ht q hq
    obtain ⟨c, hget⟩ := Device.get?_of_mem_live (hlive t ht q hq)
    exact Device.mem_live_of_get? ((hsame t ht q hq).trans hget)
  rw [← hwaits.clock, ← hwaits.timing] at hclock
  have hprompt := h.prompt.waits hwaits
  have hran := sampled_runTechniques b (e.present tracker).depth.view e.effect? hopened hstill
    (Owns.nodup_queries howns) hrecords hprompt hclock
  obtain ⟨-, cs, hissued, hrun⟩ :=
    runTechniques_eq b (e.present tracker).depth.view e.effect? e.techniques (e.opened b tracker)
  rw [hrun] at hdevice hran
  have htiming : e'.device.timing = e.device.timing := by
    rw [hdevice, Device.timing_issueAll, Device.timing_issueAll, hwaits.timing]
  refine ⟨?_, ?_, fun t ht hrunnable ↦ ?_⟩
  · change e'.device.advanceFrame.Prompt
    rw [hdevice]
    have hdone := (hprompt.issueAll cs).issueAll [.copyResource b.copy b.resolved]
    exact ⟨hdone.frequency, hdone.latency, hdone.interruptNext⟩
  · change e'.device.clock.toNat
      = (frames + 1) * (e'.framePasses.length * e'.device.timing.ticksPerDraw.toNat)
    have hticks : e'.device.clock.toNat = e.device.clock.toNat
        + e.framePasses.length * e.device.timing.ticksPerDraw.toNat := by
      rw [hdevice, Device.issueAll, List.foldl_cons, List.foldl_nil,
        Device.clock_issue_of_none rfl, Device.clock_issueAll (by rwa [hissued.length_drawnBy]),
        hissued.length_drawnBy, hwaits.clock, hwaits.timing]
      rfl
    rw [hticks, framePasses_present hb, htiming, h.clock, Nat.succ_mul]
  · change t ∈ e'.techniques at ht
    rw [htechniques] at ht
    change (t.runnable? e'.effect?).isSome at hrunnable
    rw [heffect] at hrunnable
    change t.Sampled e'.device.advanceFrame _
    rw [hdevice]
    -- nor does the copy after them
    exact (hran t ht hrunnable).issueAll_advanceFrame fun q _ ↦
      List.forall_mem_singleton.mpr (Command.touched?_of_not_isQuery rfl _ q)

end Engine

end EffectChain
