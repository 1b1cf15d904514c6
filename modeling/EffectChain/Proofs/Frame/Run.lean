import EffectChain.Engine.Frame
import Mathlib.Data.List.Forall2

/-!
# What a frame does to the techniques

Running a technique issues the commands of its passes between the two ends of a measurement, and
changes nothing of its record but the timer's state and the average (`Technique.Measures`). So the
commands of all techniques of a frame are a concatenation of such blocks, one for each technique
that can run (`runTechniques_eq`).
-/

namespace EffectChain

/-- Whether the command only measures, with one of the queries. -/
def Command.measures (queries : List (Handle .query)) : Command → Bool
  | .beginQuery q | .endQuery q => q ∈ queries
  | _ => false

/-! ## Timers -/

namespace Timer

theorem queries_poll (t : Timer) (d : Device) : (t.poll d).2.queries = t.queries := by
  rw [poll]
  repeat' split
  all_goals rfl

theorem queries_collect {window : Nat} (t : Timer) (d : Device) (average : MovingAverage window) :
    (t.collect d average).1.queries = t.queries := by
  have hpoll := queries_poll t d
  rw [collect]
  split <;> rename_i h <;> rw [h] at hpoll <;> exact hpoll

theorem queries_start (t : Timer) : t.start.2.1.queries = t.queries := by
  rw [start]
  split <;> rfl

theorem queries_stop (t : Timer) : t.stop.2.1.queries = t.queries := by
  rw [stop]
  split <;> rfl

theorem measures_start (t : Timer) : ∀ c ∈ t.start.2.2, c.measures t.queries := by
  rw [start]
  split <;> simp [Command.measures, queries]

theorem measures_stop (t : Timer) : ∀ c ∈ t.stop.2.2, c.measures t.queries := by
  rw [stop]
  split <;> simp [Command.measures, queries]

end Timer

/-! ## Techniques -/

/-- What a run can make of a technique. -/
inductive Technique.Measures (t : Technique) : Technique → Prop
  /-- It did not run. -/
  | idle : Measures t t
  /-- It ran, and was measured. -/
  | ran {state : TechniqueState} {duration : DurationAverage} {timer : Timer}
    (hstate : t.state = some state) (hqueries : timer.queries = state.timer.queries) :
    Measures t { t with duration, state := some { state with timer } }

/-- The commands that run a technique: nothing if it cannot run, else those of its passes between
the ends of a measurement. -/
def Technique.Issues (t : Technique) (b : Backbuffer) (depthView : Option (Handle .shaderView))
    (effect? : Nat → Option Effect) (cs : List Command) : Prop :=
  match t.runnable? effect? with
  | none => cs = []
  | some (state, effect) =>
    ∃ opening closing, cs = opening ++ state.commands b depthView effect ++ closing ∧
      (∀ c ∈ opening, c.measures state.timer.queries) ∧
      ∀ c ∈ closing, c.measures state.timer.queries

namespace Technique

variable {t : Technique} {b : Backbuffer} {depthView : Option (Handle .shaderView)}
  {effect? : Nat → Option Effect} {d : Device}

theorem state_of_runnable? {state : TechniqueState} {effect : Effect}
    (h : t.runnable? effect? = some (state, effect)) :
    t.enabled = true ∧ t.state = some state ∧ effect? t.effect = some effect := by
  rw [runnable?] at h
  split at h
  · rename_i henabled
    simp only [Option.bind_eq_some_iff, Option.map_eq_some_iff, Prod.mk.injEq] at h
    obtain ⟨s, hs, e, he, rfl, rfl⟩ := h
    exact ⟨henabled, hs, he⟩
  · cases h

/-- What running a technique does to the technique and to the device. -/
theorem run_eq (t : Technique) (b : Backbuffer) (depthView : Option (Handle .shaderView))
    (effect? : Nat → Option Effect) (d : Device) :
    t.Measures (t.run b depthView effect? d).1 ∧ ∃ cs, t.Issues b depthView effect? cs ∧
      (t.run b depthView effect? d).2 = d.issueAll cs := by
  unfold run Issues
  rcases hrun : t.runnable? effect? with _ | ⟨state, effect⟩
  · exact ⟨Measures.idle, [], rfl, rfl⟩
  · dsimp only
    obtain ⟨-, hstate, -⟩ := state_of_runnable? hrun
    -- polling, starting and stopping each leave the queries what they are
    have hcollect := Timer.queries_collect state.timer d t.duration
    generalize state.timer.collect d t.duration = collected at hcollect ⊢
    obtain ⟨timer, duration⟩ := collected
    have hstart := Timer.queries_start timer
    have hopening := Timer.measures_start timer
    rw [hcollect] at hstart hopening
    generalize timer.start = started at hstart hopening ⊢
    obtain ⟨timing, timer₁, opening⟩ := started
    have hstop := Timer.queries_stop timer₁
    have hclosing := Timer.measures_stop timer₁
    rw [hstart] at hstop hclosing
    cases timing
    · exact ⟨Measures.ran hstate hstart,
        opening ++ state.commands b depthView effect ++ [],
        ⟨opening, [], rfl, hopening, by simp⟩, rfl⟩
    · exact ⟨Measures.ran hstate hstop,
        opening ++ state.commands b depthView effect ++ timer₁.stop.2.2,
        ⟨opening, timer₁.stop.2.2, rfl, hopening, hclosing⟩, rfl⟩

end Technique

/-- The commands that run techniques are those of each, in order. -/
inductive IssuedBy (b : Backbuffer) (depthView : Option (Handle .shaderView))
    (effect? : Nat → Option Effect) : List Technique → List Command → Prop
  /-- No techniques. -/
  | nil : IssuedBy b depthView effect? [] []
  /-- One more in front. -/
  | cons {t : Technique} {rest : List Technique} {cs cs' : List Command}
    (hfirst : t.Issues b depthView effect? cs) (hrest : IssuedBy b depthView effect? rest cs') :
    IssuedBy b depthView effect? (t :: rest) (cs ++ cs')

theorem Device.issueAll_append (d : Device) (cs cs' : List Command) :
    d.issueAll (cs ++ cs') = (d.issueAll cs).issueAll cs' := by
  unfold issueAll
  rw [List.foldl_append]

/-- What running techniques does to the techniques and to the device. -/
theorem runTechniques_eq (b : Backbuffer) (depthView : Option (Handle .shaderView))
    (effect? : Nat → Option Effect) (techniques : List Technique) (d : Device) :
    List.Forall₂ Technique.Measures techniques
      (runTechniques b depthView effect? techniques d).1 ∧
    ∃ cs, IssuedBy b depthView effect? techniques cs ∧
      (runTechniques b depthView effect? techniques d).2 = d.issueAll cs := by
  induction techniques generalizing d with
  | nil => exact ⟨List.Forall₂.nil, [], IssuedBy.nil, rfl⟩
  | cons t rest ih =>
    obtain ⟨hmeasures, cs, hissues, hdevice⟩ := t.run_eq b depthView effect? d
    obtain ⟨hrest, cs', hissued, hdevice'⟩ := ih (t.run b depthView effect? d).2
    refine ⟨List.Forall₂.cons hmeasures hrest, cs ++ cs', IssuedBy.cons hissues hissued, ?_⟩
    rw [Device.issueAll_append, ← hdevice]
    exact hdevice'

/-! ## Frames -/

/-- The alias of the scene depth and the device in a frame, ahead of its first command. -/
def Engine.pointed (e : Engine) (b : Backbuffer) (tracker : DepthTracker) : DepthAlias × Device :=
  e.depth.point ((e.selectDepth b tracker).map (·.texture)) e.device

/-- **What a frame is made of.** The alias of the scene depth is pointed first; then the frame's own
commands, those of the techniques, and a last copy of the scene are issued. -/
theorem Engine.present_eq {e : Engine} {b : Backbuffer} (hb : e.backbuffer = some b)
    (tracker : DepthTracker) :
    ∃ techniques cs,
      IssuedBy b (e.pointed b tracker).1.view e.effect? e.techniques cs ∧
      List.Forall₂ Technique.Measures e.techniques techniques ∧
      e.present tracker = { e with
        depth := (e.pointed b tracker).1
        techniques
        device := (e.pointed b tracker).2.issueAll
          (b.opening ++ cs ++ [.copyResource b.copy b.resolved])
        selection := e.selectDepth b tracker
        stats := e.framePasses.foldl (fun s p ↦ s.record p.vertexCount) tracker.total } := by
  obtain ⟨hmeasures, cs, hissued, hdevice⟩ := runTechniques_eq b (e.pointed b tracker).1.view
    e.effect? e.techniques ((e.pointed b tracker).2.issueAll b.opening)
  refine ⟨_, cs, hissued, hmeasures, ?_⟩
  rw [present, hb, Device.issueAll_append, Device.issueAll_append, ← hdevice]
  rfl

end EffectChain
