import EffectChain.Proofs.Chronicles
import EffectChain.Proofs.Ownership.Session
import EffectChain.Proofs.Records.Session

/-!
# Reported durations are exact

A run of a session is followed by a chronicle for every technique of the table
(`Session.Chronicled`). Techniques and chronicles stay in accord through every event: only frames
issue commands on the queries of timers, and a technique that is activated again starts with a timer
of its own. So each sample is one whole measurement, each measurement has exactly the draws of the
declared passes, and the clock advances by the same number of ticks for every draw. All samples of
a technique are therefore the same number, which is the mean of any of them
(`Session.Reachable.durations`).

The host is asked not to issue commands on the queries of the engine, and the clock must not
overflow while a frame is drawn (`Event.Timely`).
-/

namespace EffectChain

open Relation (ReflTransGen)

/-! ## Frames -/

namespace Technique

variable {b : Backbuffer} {depthView : Option (Handle .shaderView)}
  {effect? : Nat → Option Effect}

theorem queries_of_measures {t t' : Technique} (h : t.Measures t') : t'.queries = t.queries := by
  cases h with
  | idle => rfl
  | ran hstate hqueries => simp [queries, hstate, hqueries]

/-- What is issued for a technique leaves the queries of others alone. -/
theorem Issues.touched? {t : Technique} {cs : List Command}
    (h : t.Issues b depthView effect? cs) {q : Handle .query} (hq : q ∉ t.queries) (d : Device) :
    ∀ c ∈ cs, c.touched? d ≠ some q.ref := by
  unfold Issues at h
  rcases hrun : t.runnable? effect? with _ | ⟨state, effect⟩ <;> rw [hrun] at h
  · rw [h]
    exact nofun
  · obtain ⟨-, hstate, -⟩ := state_of_runnable? hrun
    have hq' : q ∉ state.timer.queries := by simpa [queries, hstate] using hq
    obtain ⟨opening, closing, rfl, hopening, hclosing⟩ := h
    simp only [List.forall_mem_append]
    refine ⟨⟨fun c hc htouched ↦ ?_, fun c hc ↦ ?_⟩, fun c hc htouched ↦ ?_⟩
    · exact hq' (Command.touched?_of_measures (hopening c hc) htouched)
    · exact state.touched?_commands_ne effect _ _ d q c hc
    · exact hq' (Command.touched?_of_measures (hclosing c hc) htouched)

end Technique

theorem IssuedBy.touched? {b : Backbuffer} {depthView : Option (Handle .shaderView)}
    {effect? : Nat → Option Effect} {techniques : List Technique} {cs : List Command}
    (h : IssuedBy b depthView effect? techniques cs) {q : Handle .query}
    (hq : ∀ t ∈ techniques, q ∉ t.queries) (d : Device) :
    ∀ c ∈ cs, c.touched? d ≠ some q.ref := by
  induction h with
  | nil => exact nofun
  | cons hfirst _ ih =>
    rw [List.forall_mem_cons] at hq
    exact List.forall_mem_append.mpr ⟨hfirst.touched? hq.1 d, ih hq.2⟩

/-- The chronicles after techniques ran, in order. -/
def chronicles (b : Backbuffer) (depthView : Option (Handle .shaderView))
    (effect? : Nat → Option Effect) : List Technique → List Chronicle → Device → List Chronicle
  | t :: techniques, k :: ks, d =>
    t.chronicle b depthView effect? d k
      :: chronicles b depthView effect? techniques ks (t.run b depthView effect? d).2
  | _, _, _ => []

/-- The record of a technique draws what it declares. -/
def Technique.Records (t : Technique) : Prop :=
  ∀ state, t.state = some state →
    state.passes.map (·.vertexCount) = t.passes.map (·.vertexCount)

theorem Engine.Sound.records {e : Engine} (h : e.Sound) : ∀ t ∈ e.techniques, t.Records := by
  intro t ht state hstate
  obtain ⟨b, objects, -, -, hsound⟩ := h.techniques t ht state hstate
  exact map_eq_of_forall₂ (hsound.passes.imp fun p r hr ↦ hr.vertexCount)

theorem Engine.Owns.nodup_queries {e : Engine} {others : Multiset ObjectRef} (h : e.Owns others) :
    (e.techniques.flatMap Technique.queries).Nodup := by
  have hrefs : e.techniques.flatMap Technique.refs
      = (e.techniques.flatMap Technique.queries).map Handle.ref := by
    rw [List.map_flatMap]
    refine congrArg (e.techniques.flatMap ·) (funext fun t ↦ ?_)
    rw [Technique.queries, List.map_flatMap]
    rfl
  exact List.Nodup.of_map _ (hrefs ▸ h.nodup_tables.1)

/-- The clock counts the passes of a technique that runs, as long as it does not overflow. -/
theorem Technique.clock_run {b : Backbuffer} {depthView : Option (Handle .shaderView)}
    {effect? : Nat → Option Effect} {t : Technique} {d : Device}
    (hclock : d.clock.toNat + (t.framePasses effect?).length * d.timing.ticksPerDraw.toNat
      < 2 ^ 64) :
    (t.run b depthView effect? d).2.clock.toNat
      = d.clock.toNat + (t.framePasses effect?).length * d.timing.ticksPerDraw.toNat := by
  obtain ⟨-, cs, hissues, hdevice⟩ := t.run_eq b depthView effect? d
  rw [hdevice, Device.clock_issueAll (by rwa [hissues.length_drawnBy]), hissues.length_drawnBy]

/-- If the clock has room for the draws of some techniques, the first of them can run, and leaves
room for the others. -/
theorem Technique.room_run {b : Backbuffer} {depthView : Option (Handle .shaderView)}
    {effect? : Nat → Option Effect} {t : Technique} {techniques : List Technique} {d : Device}
    (hclock : d.clock.toNat + ((t :: techniques).flatMap (·.framePasses effect?)).length
      * d.timing.ticksPerDraw.toNat < 2 ^ 64) :
    d.clock.toNat + (t.framePasses effect?).length * d.timing.ticksPerDraw.toNat < 2 ^ 64 ∧
      (t.run b depthView effect? d).2.clock.toNat
        + (techniques.flatMap (·.framePasses effect?)).length
          * (t.run b depthView effect? d).2.timing.ticksPerDraw.toNat < 2 ^ 64 := by
  rw [List.flatMap_cons, List.length_append, Nat.add_mul] at hclock
  have hfits : d.clock.toNat + (t.framePasses effect?).length * d.timing.ticksPerDraw.toNat
      < 2 ^ 64 := by omega
  obtain ⟨-, cs, -, hdevice⟩ := t.run_eq b depthView effect? d
  have htiming : (t.run b depthView effect? d).2.timing = d.timing := by
    rw [hdevice, Device.timing_issueAll]
  refine ⟨hfits, ?_⟩
  rw [Technique.clock_run hfits, htiming]
  omega

/-- **Techniques that run one after the other stay in accord with their chronicles.** -/
theorem accords_runTechniques (b : Backbuffer) (depthView : Option (Handle .shaderView))
    (effect? : Nat → Option Effect) {techniques : List Technique} {ks : List Chronicle} {d : Device}
    (h : List.Forall₂ (Technique.Accords d) techniques ks)
    (hnodup : (techniques.flatMap Technique.queries).Nodup)
    (hrecords : ∀ t ∈ techniques, t.Records)
    (hclock : d.clock.toNat + (techniques.flatMap (·.framePasses effect?)).length
      * d.timing.ticksPerDraw.toNat < 2 ^ 64) :
    List.Forall₂ (Technique.Accords (runTechniques b depthView effect? techniques d).2)
      (runTechniques b depthView effect? techniques d).1
      (chronicles b depthView effect? techniques ks d) := by
  induction techniques generalizing ks d with
  | nil =>
    cases h
    exact List.Forall₂.nil
  | cons t techniques ih =>
    rcases h with _ | ⟨haccords, hrest⟩
    rename_i k ks
    rw [List.flatMap_cons, List.nodup_append] at hnodup
    rw [List.forall_mem_cons] at hrecords
    obtain ⟨hmeasures, cs, hissues, hdevice⟩ := t.run_eq b depthView effect? d
    obtain ⟨-, cs', hissued, hdevice'⟩ :=
      runTechniques_eq b depthView effect? techniques (t.run b depthView effect? d).2
    obtain ⟨hfits, hroom⟩ := Technique.room_run hclock
    have hran := haccords.run b depthView hnodup.1 hrecords.1 hfits
    -- the commands of the first technique leave the queries of the others alone
    have hothers : List.Forall₂ (Technique.Accords (t.run b depthView effect? d).2) techniques
        ks := by
      refine ((List.forall₂_and_left _ _).mpr ⟨fun u hu ↦ hu, hrest⟩).imp fun u k ⟨hu, hk⟩ ↦ ?_
      rw [hdevice]
      refine hk.leaves (Device.Evolves.issueAll d cs) (Device.timing_issueAll d cs) fun q hq ↦
        Device.leaves_issueAll (hissues.touched? (fun hq' ↦ ?_) d)
      exact hnodup.2.2 q hq' q (List.mem_flatMap.mpr ⟨u, hu, hq⟩) rfl
    refine List.Forall₂.cons ?_ (ih hothers hnodup.2.1 hrecords.2 hroom)
    change Technique.Accords (runTechniques b depthView effect? techniques
      (t.run b depthView effect? d).2).2 _ _
    rw [hdevice']
    refine hran.leaves (Device.Evolves.issueAll _ _) (Device.timing_issueAll _ _) fun q hq ↦
      Device.leaves_issueAll (hissued.touched? (fun u hu hq' ↦ ?_) _)
    rw [Technique.queries_of_measures hmeasures] at hq
    exact hnodup.2.2 q hq q (List.mem_flatMap.mpr ⟨u, hu, hq'⟩) rfl

namespace Engine

def frameChronicles (e : Engine) (tracker : DepthTracker) (ks : List Chronicle) : List Chronicle :=
  match e.backbuffer with
  | none => ks
  | some b =>
    let (depth, device) := e.depth.point ((e.selectDepth b tracker).map (·.texture)) e.device
    chronicles b depth.view e.effect? e.techniques ks (device.issueAll b.opening)

variable {e : Engine} {ks : List Chronicle}

/-- The device when the techniques begin: the alias is pointed, and the scene is copied. -/
def opened (e : Engine) (b : Backbuffer) (tracker : DepthTracker) : Device :=
  (e.depth.point ((e.selectDepth b tracker).map (·.texture)) e.device).2.issueAll b.opening

theorem present_run {b : Backbuffer} (hb : e.backbuffer = some b) (tracker : DepthTracker) :
    let ran := runTechniques b (e.present tracker).depth.view e.effect? e.techniques
      (e.opened b tracker)
    (e.present tracker).techniques = ran.1 ∧
      (e.present tracker).device = ran.2.issueAll [.copyResource b.copy b.resolved] ∧
      (e.present tracker).effects = e.effects := by
  rw [present, hb]
  exact ⟨rfl, rfl, rfl⟩

theorem isQuery_opening (b : Backbuffer) :
    ∀ c ∈ b.opening, c.isQuery = false ∧ c.vertices? = none := by
  rw [Backbuffer.opening]
  split <;> simp [Command.isQuery, Command.vertices?]

theorem waits_opened (e : Engine) (b : Backbuffer) (tracker : DepthTracker) :
    e.device.Waits (e.opened b tracker) :=
  trans_of Device.Waits (e.depth.device_point Device.Waits.housekeeping _ e.device)
    (Device.waits_issueAll _ (isQuery_opening b))

theorem accords_present (tracker : DepthTracker)
    (h : List.Forall₂ (Technique.Accords e.device) e.techniques ks)
    (hid : ∀ t ∈ e.techniques, ∀ q ∈ t.queries, q.id ≤ e.device.lastId)
    (hnodup : (e.techniques.flatMap Technique.queries).Nodup)
    (hrecords : ∀ t ∈ e.techniques, t.Records)
    (hclock : e.device.clock.toNat + e.framePasses.length * e.device.timing.ticksPerDraw.toNat
      < 2 ^ 64) :
    List.Forall₂ (Technique.Accords (e.present tracker).device) (e.present tracker).techniques
      (e.frameChronicles tracker ks) := by
  rcases hb : e.backbuffer with _ | b
  · rw [present, frameChronicles, hb]
    exact h
  · obtain ⟨htechniques, hdevice, -⟩ := present_run hb tracker
    have hwaits := e.waits_opened b tracker
    have hworks : e.device.Works (fun c ↦ c.isQuery = false) (e.opened b tracker) :=
      (e.depth.works_point _ _).trans
        (Device.Works.issueAll _ fun c hc ↦ (isQuery_opening b c hc).1)
    -- what the frame issues ahead of its techniques is on no query
    have hopened : List.Forall₂ (Technique.Accords (e.opened b tracker)) e.techniques ks := by
      refine ((List.forall₂_and_left _ _).mpr ⟨fun t ht ↦ ht, h⟩).imp ?_
      rintro t k ⟨ht, hk⟩
      exact hk.leaves hworks.evolves hwaits.timing fun q hq ↦ hworks.leaves
        (fun c hc d ↦ Command.touched?_of_not_isQuery hc d q) (hid t ht q hq)
    rw [← hwaits.clock, ← hwaits.timing] at hclock
    have hran := accords_runTechniques b (e.present tracker).depth.view e.effect? hopened hnodup
      hrecords hclock
    have hchronicles : e.frameChronicles tracker ks = chronicles b (e.present tracker).depth.view
        e.effect? e.techniques ks (e.opened b tracker) := by
      rw [frameChronicles, present, hb]
      rfl
    rw [htechniques, hdevice, hchronicles]
    exact hran.imp fun t k hk ↦ hk.leaves (Device.Evolves.issueAll _ _)
      (Device.timing_issueAll _ _) fun q _ ↦ Device.leaves_issueAll
        (List.forall_mem_singleton.mpr (Command.touched?_of_not_isQuery rfl _ q))

end Engine

/-! ## Activation -/

theorem wired_of_buildTechnique {scene : Scene} {objects : EffectObjects} {tables : SlotTables}
    {t : Technique} {state : TechniqueState} {a a' : Assets}
    (run : buildTechnique scene objects tables t a = (.ok state, a')) :
    state.timer.Wired a'.device ∧ state.timer.state = .idle := by
  rw [buildTechnique] at run
  obtain ⟨timer, a₁, htimer, run⟩ := bind_eq_ok run
  obtain ⟨passes, a₂, hpasses, run⟩ := bind_eq_ok (keeping_eq_ok run)
  cases run
  obtain ⟨d, hnamed, hassets⟩ := onDevice_eq_ok htimer
  obtain ⟨hwired, hidle⟩ := Timer.wired_of_create (named_eq_ok hnamed)
  subst hassets
  exact ⟨hwired.evolves ((builds_buildPasses _ _ _ _ _ _).run hpasses).evolves, hidle⟩

namespace Engine

variable {e : Engine} {ks : List Chronicle}

/-- What activation makes of the techniques: those of the effect get timers of their own if it
succeeds, and all else stays. -/
theorem techniques_activate (e : Engine) (index : Nat) :
    (e.activate index).2.techniques = e.techniques ∨
    List.Forall₂ (fun t t' ↦ t' = t ∨ t.effect = index ∧ ∃ state,
        t' = { t with state := some state } ∧
          state.timer.Wired (e.activate index).2.device ∧ state.timer.state = .idle)
      e.techniques (e.activate index).2.techniques := by
  rcases heffect : e.effect? index with _ | effect
  · rw [activate, heffect]
    exact Or.inl rfl
  · have hdevice : (e.activate index).2.device = (e.build index effect).2.device :=
      congrArg Assets.device (assets_activate heffect)
    have htechniques : (e.activate index).2.techniques = (e.build index effect).2.techniques := by
      rw [activate, heffect]
      dsimp only
      rcases e.build index effect with ⟨_ | _, e'⟩ <;> rfl
    rw [hdevice, htechniques]
    have hrun := e.build_run index effect
    generalize (e.build index effect).1 = outcome, (e.build index effect).2 = e' at hrun
    cases hrun with
    | invalid | refused | homeless | failed => exact Or.inl rfl
    | built hvalidate htextures hbackbuffer hbuild =>
      obtain ⟨tables, a₁, a₂, -, -, htechniques⟩ := buildEffect_eq_ok hbuild
      refine Or.inr ((buildTechniques_eq_ok htechniques).imp fun t t' hbuilt ↦ ?_)
      cases hbuilt with
      | own hindex hbetween =>
        obtain ⟨a₃, a₄, -, hrun, hafter⟩ := hbetween
        obtain ⟨hwired, hidle⟩ := wired_of_buildTechnique hrun
        exact Or.inr ⟨hindex, _, rfl, hwired.evolves hafter.evolves, hidle⟩
      | other hindex => exact Or.inl rfl

/-- A technique that is activated again starts with nothing in flight. -/
theorem accords_activate (index : Nat)
    (h : List.Forall₂ (Technique.Accords (e.activate index).2.device) e.techniques ks) :
    List.Forall₂ (Technique.Accords (e.activate index).2.device)
      (e.activate index).2.techniques ks := by
  rcases e.techniques_activate index with hsame | hbuilt
  · rwa [hsame]
  · refine forall₂_trans (List.Forall₂.flip (hbuilt.imp fun _ _ h ↦ h)) h fun {t' t k} ht hk ↦ ?_
    rcases ht with rfl | ⟨-, state, rfl, hwired, hidle⟩
    · exact hk
    · refine hk.restart fun state' hstate' ↦ ?_
      cases hstate'
      exact ⟨hwired, hidle⟩

theorem accords_deactivate {d : Device} (index : Nat)
    (h : List.Forall₂ (Technique.Accords d) e.techniques ks) :
    List.Forall₂ (Technique.Accords d) (e.deactivate index).techniques ks := by
  refine List.forall₂_map_left_iff.mpr (h.imp fun t k hk ↦ ?_)
  split
  · exact hk.restart nofun
  · exact hk

/-! ## Loading and unloading -/

theorem accords_load (m : EffectModule)
    (h : List.Forall₂ (Technique.Accords (e.load m).2.device) e.techniques ks) :
    List.Forall₂ (Technique.Accords (e.load m).2.device) (e.load m).2.techniques
      (if e.backbuffer.isNone then ks else ks ++ m.techniques.map fun _ ↦ ({} : Chronicle)) := by
  rcases e.load_cases m with ⟨hnone, hrun⟩ | ⟨hsome, hrun⟩ <;> rw [hrun] at h ⊢
  · rw [hnone]
    exact h
  · rw [if_neg (by simpa using Option.isSome_iff_ne_none.mp hsome)]
    refine accords_activate (e := e.register m.reserveSlots) _ (List.rel_append h ?_)
    refine List.forall₂_map_left_iff.mpr (List.forall₂_map_right_iff.mpr ?_)
    exact List.forall₂_same.mpr fun decl _ ↦ Technique.Accords.new _ _ decl

theorem accords_reload (index : Nat)
    (h : List.Forall₂ (Technique.Accords (e.reload index).2.device) e.techniques ks) :
    List.Forall₂ (Technique.Accords (e.reload index).2.device) (e.reload index).2.techniques
      ks := by
  rcases e.reload_cases index with ⟨-, hrun⟩ | ⟨effect, -, hrun⟩ <;> rw [hrun] at h ⊢
  · exact h
  · exact accords_activate index (accords_deactivate index h)

theorem forall₂_filter_zip {α β : Type} {R : α → β → Prop} (p : α → Bool) {l : List α} {l' : List β}
    (h : List.Forall₂ R l l') :
    List.Forall₂ R (l.filter p) (((l.zip l').filter fun x ↦ p x.1).map (·.2)) := by
  induction h with
  | nil => exact List.Forall₂.nil
  | @cons a b l l' hab _ ih =>
    rw [List.zip_cons_cons, List.filter_cons, List.filter_cons]
    dsimp only
    split
    · exact List.Forall₂.cons hab ih
    · exact ih

theorem accords_unload (index : Nat)
    (h : List.Forall₂ (Technique.Accords (e.unload index).2.device) e.techniques ks) :
    List.Forall₂ (Technique.Accords (e.unload index).2.device) (e.unload index).2.techniques
      (if (e.effect? index).isNone then ks
      else ((e.techniques.zip ks).filter fun x ↦ x.1.effect ≠ index).map (·.2)) := by
  rcases e.unload_cases index with ⟨heffect, hrun⟩ | ⟨effect, heffect, hrun⟩ <;>
    rw [hrun] at h ⊢ <;> rw [heffect]
  · exact h
  · change List.Forall₂ _ ((e.deactivate index).techniques.filter fun t ↦ t.effect ≠ index) _
    rw [filter_deactivate]
    exact forall₂_filter_zip (fun t : Technique ↦ t.effect ≠ index) h

end Engine

/-! ## Sessions -/

/-- The host leaves the engine its objects, issues no command on its queries, and the clock does not
overflow while a frame is drawn. -/
def Event.Timely (s : Session) : Event → Prop
  | .release refs => ∀ r ∈ refs, r ∉ s.engine.refs
  | .issue (.beginQuery q) | .issue (.endQuery q) => q.ref ∉ s.engine.refs
  | .present _ =>
    s.device.clock.toNat + s.engine.framePasses.length * s.device.timing.ticksPerDraw.toNat < 2 ^ 64
  | _ => True

/-- The chronicles after an event. Loading begins one for every technique that it enters, unloading
ends those of the techniques that it withdraws. -/
def Event.chronicles (s : Session) (ks : List Chronicle) : Event → List Chronicle
  | .init _ => if s.engine.backbuffer.isSome then [] else ks
  | .reset | .unloadAll => []
  | .load m =>
    if s.engine.backbuffer.isNone then ks else ks ++ m.techniques.map fun _ ↦ {}
  | .unload index =>
    if (s.engine.effect? index).isNone then ks
    else ((s.engine.techniques.zip ks).filter fun x ↦ x.1.effect ≠ index).map (·.2)
  | .present tracker => s.engine.frameChronicles tracker ks
  | _ => ks

/-- The sessions that a run of allowed events leads to, with the chronicles of their techniques. -/
inductive Session.Chronicled (allowed : Session → Event → Prop) : Session → List Chronicle → Prop
  /-- A new session. -/
  | start (timing : DeviceTiming) (config : Config) :
    Chronicled allowed (Session.start timing config) []
  /-- One more event. -/
  | step {s : Session} {ks : List Chronicle} {event : Event} : Chronicled allowed s ks →
    allowed s event → Chronicled allowed (s.step event) (event.chronicles s ks)

namespace Session

variable {s : Session} {ks : List Chronicle} {event : Event}

theorem Chronicled.reachable {allowed : Session → Event → Prop} (h : s.Chronicled allowed ks) :
    s.Reachable allowed := by
  induction h with
  | start timing config => exact .start timing config
  | step _ hallowed ih => exact .step ih hallowed

theorem Reachable.exists_chronicled {allowed : Session → Event → Prop} (hs : s.Reachable allowed) :
    ∃ ks, s.Chronicled allowed ks := by
  induction hs with
  | start timing config => exact ⟨[], .start timing config⟩
  | step _ hallowed ih =>
    obtain ⟨ks, hks⟩ := ih
    exact ⟨_, hks.step hallowed⟩

theorem mem_refs_of_query {t : Technique} (ht : t ∈ s.engine.techniques) {q : Handle .query}
    (hq : q ∈ t.queries) : q.ref ∈ s.engine.refs := by
  obtain ⟨state, hstate, hq⟩ := List.mem_flatMap.mp hq
  have hmem : q.ref ∈ s.engine.techniques.flatMap Technique.refs :=
    List.mem_flatMap.mpr ⟨t, ht, List.mem_flatMap.mpr ⟨state, hstate, List.mem_map_of_mem hq⟩⟩
  simp only [Engine.refs, Engine.loadedRefs, List.mem_append]
  exact Or.inl (Or.inr (Or.inl (Or.inl (Or.inl hmem))))

theorem touched?_of_issues (hallowed : event.Timely s)
    (hpresent : ∀ tracker, event ≠ .present tracker)
    {t : Technique} (ht : t ∈ s.engine.techniques) {q : Handle .query} (hq : q ∈ t.queries)
    {c : Command} (hc : event.issues c) (d : Device) : c.touched? d ≠ some q.ref := by
  intro htouched
  rcases Event.kind_of_issues hpresent hc with rfl | hkind
  · have hmem := mem_refs_of_query ht hq
    rcases Device.touched?_cases htouched with hkind | ⟨x, data, -, href⟩ | ⟨q', rfl | rfl, href⟩
    · cases hkind
    · cases congrArg ObjectRef.kind href
    · exact hallowed (href ▸ hmem)
    · exact hallowed (href ▸ hmem)
  · cases hkind d _ htouched

/-- Events that are no frames leave the queries of techniques alone. -/
theorem accords_carry (hallowed : event.Timely s) (hpresent : ∀ tracker, event ≠ .present tracker)
    (h : List.Forall₂ (Technique.Accords s.device) s.engine.techniques ks) :
    List.Forall₂ (Technique.Accords (s.step event).device) s.engine.techniques ks := by
  have hworks := s.works_step event
  refine ((List.forall₂_and_left _ _).mpr ⟨fun t ht ↦ ht, h⟩).imp fun t k ⟨ht, hk⟩ ↦ ?_
  refine hk.leaves hworks.evolves hworks.timing_eq fun q hq ↦ ?_
  obtain ⟨state, hstate, hq'⟩ := List.mem_flatMap.mp hq
  have hid := (hk.timer state (by simpa using hstate)).1.id_le q hq'
  exact hworks.leaves (fun c hc ↦ touched?_of_issues hallowed hpresent ht hq hc) hid

theorem accords_frame (hs : s.Reachable Event.Timely) {tracker : DepthTracker}
    (hallowed : (Event.present tracker).Timely s)
    (h : List.Forall₂ (Technique.Accords s.device) s.engine.techniques ks) :
    List.Forall₂ (Technique.Accords (s.engine.present tracker).device)
      (s.engine.present tracker).techniques (s.engine.frameChronicles tracker ks) := by
  obtain ⟨strays, howns, -⟩ := hs.owns fun s event h ↦ by
    cases event with
    | release refs => exact h
    | _ => trivial
  refine Engine.accords_present tracker h (fun t ht q hq ↦ ?_) (Engine.Owns.nodup_queries howns)
    hs.sound.records hallowed
  obtain ⟨k, -, hk⟩ := exists_of_forall₂_left h ht
  obtain ⟨state, hstate, hq'⟩ := List.mem_flatMap.mp hq
  exact (hk.timer state (by simpa using hstate)).1.id_le q hq'

/-- **Every event keeps techniques and chronicles in accord.** -/
theorem accords_step (hs : s.Reachable Event.Timely) (hallowed : event.Timely s)
    (h : List.Forall₂ (Technique.Accords s.device) s.engine.techniques ks) :
    List.Forall₂ (Technique.Accords (s.step event).device) (s.step event).engine.techniques
      (event.chronicles s ks) := by
  -- only a frame measures, so all other events carry the chronicles on as they are
  by_cases hpresent : ∃ tracker, event = .present tracker
  · obtain ⟨tracker, rfl⟩ := hpresent
    exact accords_frame hs hallowed h
  have hcarried := accords_carry hallowed (fun tracker heq ↦ hpresent ⟨tracker, heq⟩) h
  have hsame (htechniques : (s.step event).engine.techniques = s.engine.techniques)
      (hchronicles : event.chronicles s ks = ks) : List.Forall₂ (Technique.Accords
        (s.step event).device) (s.step event).engine.techniques (event.chronicles s ks) := by
    rwa [htechniques, hchronicles]
  cases event with
  | present tracker => exact absurd ⟨tracker, rfl⟩ hpresent
  | init swapchain =>
    change List.Forall₂ _ (s.engine.init swapchain).2.techniques _
    have hvacated : (s.engine.init swapchain).2.techniques = s.engine.vacated.techniques := by
      rcases s.engine.init_cases swapchain with ⟨cause, d, -, heq⟩ | ⟨b, d, -, heq⟩ <;> rw [heq]
    rw [hvacated, Event.chronicles, Engine.vacated]
    split
    · exact List.Forall₂.nil
    · exact hcarried
  | reset | unloadAll => exact List.Forall₂.nil
  | load m => exact Engine.accords_load m hcarried
  | reload index => exact Engine.accords_reload index hcarried
  | unload index => exact Engine.accords_unload index hcarried
  | setEnabled name enabled =>
    refine List.forall₂_map_left_iff.mpr (hcarried.imp fun t k hk ↦ ?_)
    split
    · exact ⟨hk.recent, hk.frames, hk.measured, hk.taken, hk.timer⟩
    · exact hk
  | upload name pixels =>
    refine hsame ?_ rfl
    change (s.engine.upload name pixels).2.techniques = _
    rcases s.engine.upload_cases name pixels with
      ⟨cause, hrun⟩ | ⟨t, o, data, rowPitch, -, -, hrun⟩ <;> rw [hrun]
  | writeUniforms index offset data =>
    refine hsame ?_ rfl
    change (s.engine.writeUniforms index offset data).2.techniques = _
    rcases s.engine.writeUniforms_cases index offset data with
      ⟨cause, hrun, -⟩ | ⟨effect, -, -, hrun⟩ <;> rw [hrun]
  | create kind content =>
    refine hsame ?_ rfl
    change (s.create kind content).engine.techniques = _
    rw [engine_create]
  | overrideDepth | configure | release | issue | write | failAfter | markInterrupted
  | advanceFrame | takeLog => exact hcarried

end Session

/-! ## Exactness -/

/-- The measurements of a technique are whole, and its samples are some of them. -/
structure Technique.Reports (timing : DeviceTiming) (t : Technique) (k : Chronicle) : Prop where
  /-- The average is over the last samples. -/
  recent : t.duration.recent = k.samples.take durationWindow
  /-- Every sample is a measurement of its own that was not interrupted. -/
  taken : ∃ kept : List Measurement, kept.Sublist k.measurements ∧
    (∀ m ∈ kept, m.interrupted = false) ∧ k.samples = kept.map (·.nanoseconds timing.frequency)
  /-- A measurement has the draws of the declared passes, and the clock counted these. -/
  measured : ∀ m ∈ k.measurements, m.draws = t.passes.map (·.vertexCount) ∧
    m.closing.toNat = m.opening.toNat + t.passes.length * timing.ticksPerDraw.toNat
  /-- There are no more samples than frames that ran the technique. -/
  length_le : k.samples.length ≤ k.frames
  /-- The reported duration is that of the declared passes, if it fits. -/
  exact :
    t.passes.length * timing.ticksPerDraw.toNat * 1000000000 / timing.frequency.toNat < 2 ^ 64 →
    t.duration.get = 0 ∨ t.duration.get.toNat
      = t.passes.length * timing.ticksPerDraw.toNat * 1000000000 / timing.frequency.toNat

namespace MovingAverage

variable {window : Nat}

theorem get_replicate (n : Nat) (x : UInt64) :
    (⟨List.replicate n x⟩ : MovingAverage window).get = if n = 0 then 0 else x := by
  have htotal : (⟨List.replicate n x⟩ : MovingAverage window).total = n * x.toNat := by
    rw [total]
    induction n with
    | zero => exact (Nat.zero_mul _).symm
    | succ n ih => rw [List.replicate_succ, List.foldr_cons, ih, Nat.succ_mul, Nat.add_comm]
  rw [get, htotal, length, List.length_replicate]
  split
  · rename_i hzero
    rw [hzero, Nat.div_zero]
    rfl
  · rename_i hpos
    rw [Nat.mul_div_cancel_left _ (Nat.pos_of_ne_zero hpos), UInt64.ofNat_toNat]

theorem get_of_forall {a : MovingAverage window} {x : UInt64} (h : ∀ y ∈ a.recent, y = x) :
    a.get = 0 ∨ a.get = x := by
  have hrecent : a = ⟨List.replicate a.recent.length x⟩ :=
    congrArg mk (List.eq_replicate_of_mem h)
  rw [hrecent, get_replicate]
  exact ite_eq_or_eq _ _ _

end MovingAverage

theorem Technique.Accords.reports {d : Device} {t : Technique} {k : Chronicle}
    (h : t.Accords d k) : t.Reports d.timing k := by
  obtain ⟨kept, hkept, hclean, hsamples⟩ := h.taken
  have hsublist : kept.Sublist k.measurements := hkept.trans (List.drop_sublist _ _)
  refine ⟨h.recent, ⟨kept, hsublist, hclean, hsamples⟩, h.measured, ?_, fun hfits ↦ ?_⟩
  · rw [hsamples, List.length_map]
    exact hsublist.length_le.trans h.frames
  · -- whatever measurement a sample is, the same ticks passed
    have hsame : ∀ x ∈ t.duration.recent, x = UInt64.ofNat
        (t.passes.length * d.timing.ticksPerDraw.toNat * 1000000000
          / d.timing.frequency.toNat) := by
      intro x hx
      rw [h.recent, hsamples] at hx
      obtain ⟨m, hm, rfl⟩ := List.mem_map.mp (List.mem_of_mem_take hx)
      rw [Measurement.nanoseconds, Timer.nanoseconds, (h.measured m (hsublist.subset hm)).2,
        Nat.add_sub_cancel_left]
    refine (MovingAverage.get_of_forall hsame).imp id fun hget ↦ ?_
    rw [hget, UInt64.toNat_ofNat_of_lt' hfits]

namespace Session

/-- **Reported durations are exact.** In every session whose host is timely, a technique reports no
duration, or exactly that of its declared passes: each of its samples is a whole measurement that
was not interrupted, a measurement has the draws of the declared passes between its readings and no
others, and there are no more samples than frames that ran the technique. -/
theorem Reachable.durations {s : Session} (hs : s.Reachable Event.Timely) :
    (∃ ks, s.Chronicled Event.Timely ks) ∧ ∀ ks, s.Chronicled Event.Timely ks →
      List.Forall₂ (Technique.Reports s.device.timing) s.engine.techniques ks := by
  refine ⟨hs.exists_chronicled, fun ks hks ↦ ?_⟩
  have haccords : List.Forall₂ (Technique.Accords s.device) s.engine.techniques ks := by
    clear hs
    induction hks with
    | start timing config => exact List.Forall₂.nil
    | step hbefore hallowed ih => exact accords_step hbefore.reachable hallowed ih
  exact haccords.imp fun t k hk ↦ hk.reports

/-- A technique that was measured in one frame and sampled in the next. -/
theorem durations_small :
    let s := (((small.step (.load (.single "show" [] [] []))).step (.present {})).step
      .advanceFrame).step (.present {})
    (s.engine.techniques.map (·.duration.get)) = [100000] ∧
      ∃ ks, s.Chronicled Event.Timely ks ∧
        List.Forall₂ (Technique.Reports s.device.timing) s.engine.techniques ks := by
  intro s
  have hs : s.Reachable Event.Timely :=
    .step (.step (.step (.step (.step (.step (.start {} {}) trivial) trivial) trivial)
      (by decide +kernel : (_ : Nat) < 2 ^ 64)) trivial) (by decide +kernel : (_ : Nat) < 2 ^ 64)
  obtain ⟨⟨ks, hks⟩, hreports⟩ := Reachable.durations hs
  exact ⟨by decide +kernel, ks, hks, hreports ks hks⟩

end Session

end EffectChain
