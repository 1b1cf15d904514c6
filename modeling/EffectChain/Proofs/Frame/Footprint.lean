import EffectChain.Proofs.DepthAlias
import EffectChain.Proofs.Works

/-!
# What frames leave behind

A frame reads the tables and issues commands. It writes down what its timers measured, and all else
that was loaded stays as it is (`Engine.KeepsTables`). Commands neither create nor release, so what
is alive changes with the alias of the scene depth alone: its view is released, and there is a new
one at most (`Engine.OnlyAlias`).

The alias then stands for the texture that the frame selected, whether the texture could be viewed
or not. A frame that selects it again does nothing to what is alive, and does not try either. And
however often the selection changes, the view of the alias is all there is of the frames before
(`Session.Reachable.present_footprint`).
-/

namespace EffectChain

/-! ## Techniques -/

/-- The technique without what was measured of it. -/
def Technique.unmeasured (t : Technique) : Technique :=
  { t with
    duration := {}
    state := t.state.map fun s ↦ { s with timer := { s.timer with state := .idle } } }

theorem Technique.Measures.unmeasured {t t' : Technique} (h : t.Measures t') :
    t'.unmeasured = t.unmeasured := by
  rcases h with _ | @⟨state, duration, timer, hstate, hqueries⟩
  · rfl
  · simp only [Timer.queries, List.cons.injEq, and_true] at hqueries
    obtain ⟨hinterval, hopening, hclosing⟩ := hqueries
    simp only [Technique.unmeasured, hstate, Option.map_some, hinterval, hopening, hclosing]

namespace Engine

/-! ## Tables -/

/-- The engine with the same settings and tables, apart from measurements. -/
structure KeepsTables (e e' : Engine) : Prop where
  /-- The settings. -/
  config : e'.config = e.config
  /-- The depth buffer chosen by hand. -/
  depthOverride : e'.depthOverride = e.depthOverride
  /-- The objects made for the swapchain. -/
  backbuffer : e'.backbuffer = e.backbuffer
  /-- The effects. -/
  effects : e'.effects = e.effects
  /-- The texture table. -/
  textures : e'.textures = e.textures
  /-- The caches. -/
  states : e'.states = e.states
  /-- The technique table, in its order. -/
  techniques : e'.techniques.map (·.unmeasured) = e.techniques.map (·.unmeasured)

variable {e e' e'' : Engine}

theorem keepsTables_present (e : Engine) (tracker : DepthTracker) :
    e.KeepsTables (e.present tracker) := by
  rcases hb : e.backbuffer with _ | b
  · rw [present, hb]
    exact ⟨rfl, rfl, rfl, rfl, rfl, rfl, rfl⟩
  · obtain ⟨techniques, cs, -, hmeasures, hpresent⟩ := present_eq hb tracker
    rw [hpresent]
    exact ⟨rfl, rfl, rfl, rfl, rfl, rfl,
      map_eq_of_forall₂ (hmeasures.imp fun _ _ h ↦ h.unmeasured)⟩

/-! ## What is alive -/

/-- The alias of the scene depth is all that changed of what is alive: nothing did, or its view was
released, and if it has one now, that is new. -/
inductive OnlyAlias (e e' : Engine) : Prop
  /-- Nothing changed. -/
  | kept (depth : e'.depth = e.depth) (live : e'.device.live = e.device.live)
  /-- The view was released, and there may be a new one. -/
  | moved (new : ∀ r ∈ e'.depth.refs, e.device.lastId < r.id)
    (live : e'.device.live = e'.depth.refs ++ e.device.live.filter (· ∉ e.depth.refs))

namespace OnlyAlias

theorem trans (h : e.OnlyAlias e') (h' : e'.OnlyAlias e'') (hd : e.device.Numbered)
    (hlast : e.device.lastId ≤ e'.device.lastId) : e.OnlyAlias e'' := by
  rcases h with ⟨hdepth, hlive⟩ | ⟨hnew, hlive⟩ <;>
    rcases h' with ⟨hdepth', hlive'⟩ | ⟨hnew', hlive'⟩
  · exact .kept (hdepth'.trans hdepth) (hlive'.trans hlive)
  · refine .moved (fun r hr ↦ hlast.trans_lt (hnew' r hr)) ?_
    rw [hlive', hlive, hdepth]
  · refine .moved (fun r hr ↦ hnew r (hdepth' ▸ hr)) ?_
    rw [hlive', hlive, hdepth']
  · refine .moved (fun r hr ↦ hlast.trans_lt (hnew' r hr)) ?_
    -- the view in between is gone, and it was not among what is left of the first
    have hgone : e'.depth.refs.filter (· ∉ e'.depth.refs) = [] :=
      List.filter_eq_nil_iff.mpr fun r hr ↦ by simpa using hr
    have hstays : (e.device.live.filter (· ∉ e.depth.refs)).filter (· ∉ e'.depth.refs)
        = e.device.live.filter (· ∉ e.depth.refs) := by
      refine List.filter_eq_self.mpr fun r hr ↦ ?_
      have hle := hd r (List.mem_of_mem_filter hr)
      simpa using fun hmem ↦ Nat.not_lt.mpr hle (hnew r hmem)
    rw [hlive', hlive, List.filter_append, hgone, List.nil_append, hstays]

theorem length_le (h : e.OnlyAlias e') : e'.device.live.length ≤ e.device.live.length + 1 := by
  rcases h with ⟨-, hlive⟩ | ⟨-, hlive⟩
  · rw [hlive]
    exact Nat.le_succ _
  · have hfilter := List.length_filter_le (· ∉ e.depth.refs) e.device.live
    have hrefs : e'.depth.refs.length ≤ 1 := by
      rw [DepthAlias.refs, List.length_map]
      exact Option.length_toList_le
    rw [hlive, List.length_append]
    omega

end OnlyAlias

theorem live_createView {t : Handle .texture} {d d' : Device} {view : Option (Handle .shaderView)}
    (run : DepthAlias.createView t d = (view, d')) :
    d'.live = (DepthAlias.mk (some t) view).refs ++ d.live ∧
      ∀ r ∈ (DepthAlias.mk (some t) view).refs, d.lastId < r.id := by
  rcases DepthAlias.createView_cases t d with
    hrun | ⟨content, ⟨v, d₁, hcreate, hrun⟩ | ⟨cause, d₁, hcreate, hrun⟩⟩ <;>
    cases run.symm.trans hrun
  · exact ⟨rfl, List.forall_mem_nil _⟩
  · obtain ⟨_, _, -, rfl, rfl⟩ := Device.create_eq_ok hcreate
    exact ⟨rfl, List.forall_mem_singleton.mpr (Nat.lt_succ_self _)⟩
  · obtain rfl := Device.create_eq_error hcreate
    exact ⟨rfl, List.forall_mem_nil _⟩

/-- **A frame changes the view of the alias, and nothing else that is alive.** -/
theorem onlyAlias_present (e : Engine) (tracker : DepthTracker) :
    e.OnlyAlias (e.present tracker) := by
  rcases hb : e.backbuffer with _ | b
  · rw [present, hb]
    exact .kept rfl rfl
  · obtain ⟨techniques, cs, -, -, hpresent⟩ := present_eq hb tracker
    have hissued := (e.pointed b tracker).2.live_issueAll
      (b.opening ++ cs ++ [.copyResource b.copy b.resolved])
    have hreleased : (e.device.release e.depth.refs).live
        = e.device.live.filter (· ∉ e.depth.refs) := Store.refs_erase _ _
    rcases e.depth.point_cases ((e.selectDepth b tracker).map (·.texture)) e.device with
      ⟨-, hrun⟩ | ⟨-, -, hrun⟩ | ⟨t, view, d', -, -, hview, hrun⟩ <;>
      rw [pointed, hrun] at hpresent hissued <;> rw [hpresent]
    · exact .kept rfl hissued
    · exact .moved (List.forall_mem_nil _) (hissued.trans hreleased)
    · obtain ⟨hlive, hnew⟩ := live_createView hview
      exact .moved hnew (hissued.trans (hreleased ▸ hlive))

/-! ## Frames that select the same -/

/-- The alias stands for the texture that a frame would select. -/
def Selected (e : Engine) (tracker : DepthTracker) : Prop :=
  ∀ b, e.backbuffer = some b → (e.selectDepth b tracker).map (·.texture) = e.depth.texture

theorem selected_present (e : Engine) (tracker : DepthTracker) :
    (e.present tracker).Selected tracker := by
  intro b hb
  have hkeeps := e.keepsTables_present tracker
  have hb' : e.backbuffer = some b := hkeeps.backbuffer.symm.trans hb
  have hselect : (e.present tracker).selectDepth b tracker = e.selectDepth b tracker := by
    rw [selectDepth, selectDepth, hkeeps.config, hkeeps.depthOverride]
  obtain ⟨techniques, cs, -, -, hpresent⟩ := present_eq hb' tracker
  rw [hselect, hpresent]
  exact (e.depth.texture_point _ _).symm

/-- The engine with the same alias, and with the same alive. Nothing else was created on the way,
and no creation was tried. -/
structure KeepsAlive (e e' : Engine) : Prop where
  /-- The alias, with its view. -/
  depth : e'.depth = e.depth
  /-- What is alive. -/
  live : e'.device.live = e.device.live
  /-- The last number that was given out. -/
  lastId : e'.device.lastId = e.device.lastId
  /-- The refusals to come. -/
  refusals : e'.device.refusals = e.device.refusals

/-- **A frame that selects the texture of the alias leaves alone what is alive.** -/
theorem Selected.keepsAlive {tracker : DepthTracker} (h : e.Selected tracker) :
    e.KeepsAlive (e.present tracker) := by
  rcases hb : e.backbuffer with _ | b
  · rw [present, hb]
    exact ⟨rfl, rfl, rfl, rfl⟩
  · obtain ⟨techniques, cs, -, -, hpresent⟩ := present_eq hb tracker
    rw [pointed, DepthAlias.point, if_pos (h b hb).symm] at hpresent
    rw [hpresent]
    exact ⟨rfl, Device.live_issueAll _ _, Device.lastId_issueAll _ _,
      Device.refusals_issueAll _ _⟩

end Engine

/-! ## Runs of frames -/

/-- Whether the event creates or releases objects apart from the view of the alias, or would. -/
def Event.allocates : Event → Bool
  | .init _ | .reset | .load _ | .reload _ | .unload _ | .unloadAll | .create ..
  | .release _ => true
  | _ => false

namespace Session

open Engine (OnlyAlias KeepsTables KeepsAlive)

def run (s : Session) (events : List Event) : Session := events.foldl step s

theorem onlyAlias_step (s : Session) {event : Event} (h : event.allocates = false) :
    s.engine.OnlyAlias (s.step event).engine := by
  cases event with
  | present tracker => exact s.engine.onlyAlias_present tracker
  | upload name pixels =>
    change s.engine.OnlyAlias (s.engine.upload name pixels).2
    rcases s.engine.upload_cases name pixels with
      ⟨cause, hrun⟩ | ⟨t, o, data, rowPitch, -, -, hrun⟩ <;> rw [hrun]
    · exact .kept rfl rfl
    · exact .kept rfl (Device.live_issueAll _ _)
  | writeUniforms index offset data =>
    change s.engine.OnlyAlias (s.engine.writeUniforms index offset data).2
    rcases s.engine.writeUniforms_cases index offset data with
      ⟨cause, hrun, -⟩ | ⟨effect, -, -, hrun⟩ <;> rw [hrun] <;> exact .kept rfl rfl
  | issue c => exact .kept rfl (Device.live_issue _ c)
  | write t level data => exact .kept rfl (Device.live_writeTexels _ t level data).1
  | setEnabled | overrideDepth | configure | failAfter | markInterrupted | advanceFrame
  | takeLog => exact .kept rfl rfl
  | init | reset | load | reload | unload | unloadAll | create | release => cases h

variable {allowed : Session → Event → Prop} {s : Session}

/-- **Frames do not accumulate objects**, whatever is selected, refused or changed in between. -/
theorem Reachable.onlyAlias_run (hs : s.Reachable allowed) {events : List Event}
    (h : ∀ event ∈ events, event.allocates = false) :
    s.engine.OnlyAlias (s.run events).engine := by
  replace hs : s.Reachable fun _ _ ↦ True := hs.mono fun _ _ _ ↦ trivial
  induction events generalizing s with
  | nil => exact .kept rfl rfl
  | cons event rest ih =>
    obtain ⟨hevent, hrest⟩ := List.forall_mem_cons.mp h
    exact (s.onlyAlias_step hevent).trans (ih hrest (hs.step trivial)) hs.numbered
      (hs.evolves_step event).lastId_le

/-- **What a frame leaves behind.** It keeps all that was loaded, apart from measurements. Of what
is alive it changes the view of the alias, and another frame with the same selection changes
nothing, even if the view was refused. After any number of frames, with anything in between that
does not create or release objects itself, the view of the alias is all that changed, and there is
one object more at most. -/
theorem Reachable.present_footprint (hs : s.Reachable allowed) (tracker : DepthTracker) :
    s.engine.KeepsTables (s.step (.present tracker)).engine ∧
      s.engine.OnlyAlias (s.step (.present tracker)).engine ∧
      (s.step (.present tracker)).engine.KeepsAlive
        ((s.step (.present tracker)).step (.present tracker)).engine ∧
      ∀ events : List Event, (∀ event ∈ events, event.allocates = false) →
        s.engine.OnlyAlias (s.run events).engine ∧
          (s.run events).device.live.length ≤ s.device.live.length + 1 := by
  refine ⟨s.engine.keepsTables_present tracker, s.engine.onlyAlias_present tracker,
    (s.engine.selected_present tracker).keepsAlive, fun events hevents ↦ ?_⟩
  have halias := hs.onlyAlias_run hevents
  exact ⟨halias, halias.length_le⟩

/-- A depth buffer that was chosen by hand gets a view, which goes when it is not chosen any more.
When it is chosen again, the view is refused. -/
theorem present_footprint_small :
    let s := (small.step (.create .texture fun _ ↦ Texture.make (.depthBuffer 4 4 1))).step
      (.overrideDepth (some ⟨10⟩))
    let s₁ := s.step (.present {})
    let events : List Event :=
      [.present {}, .overrideDepth none, .present {}, .failAfter .shaderView 0,
        .overrideDepth (some ⟨10⟩), .present {}]
    s.engine.KeepsTables s₁.engine ∧ s.engine.OnlyAlias s₁.engine ∧
      s₁.device.live = ⟨.shaderView, 11⟩ :: s.device.live ∧
      s₁.engine.KeepsAlive (s₁.step (.present {})).engine ∧
      s.engine.OnlyAlias (s.run events).engine ∧ (s.run events).device.live = s.device.live := by
  intro s s₁ events
  have hs : s.Reachable fun _ _ ↦ True :=
    .step (.step (.step (.step (.start {} {}) trivial) trivial) trivial) trivial
  obtain ⟨htables, halias, hagain, hrun⟩ := hs.present_footprint {}
  exact ⟨htables, halias, by decide +kernel, hagain, (hrun events (by decide)).1,
    by decide +kernel⟩

end Session

end EffectChain
