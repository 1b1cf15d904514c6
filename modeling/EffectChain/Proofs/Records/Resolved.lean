import EffectChain.Proofs.DepthAlias
import EffectChain.Proofs.Records.Session

/-!
# Inputs are resolved at activation

Which inputs of a pass conflict with its targets is decided when its record is built, by the
textures behind the views of that moment. The comparison would come out the same at the end of the
activation, because nothing that activation does changes a view that was given out
(`PassRecord.Resolved.builds`). After that nobody compares again: a record stays what it is until
its effect is activated once more.

So the inputs of a record are settled by the last activation of its effect, and which one that was
is a matter of the run that led to a session (`Session.ActivatedAt`).
-/

namespace EffectChain

/-! ## What conflicts depend on -/

/-- Whether a slot conflicts depends on the textures behind the views that are compared. -/
theorem ViewSlot.conflicts_congr {slot : ViewSlot} {d d' : Device}
    {views : List (Handle .renderTargetView)} {resolve : ViewSlot → Option (Handle .shaderView)}
    (hshown : ∀ v, resolve slot = some v → d'.viewTexture? v = d.viewTexture? v)
    (hdrawn : ∀ t ∈ views, d'.targetTexture? t = d.targetTexture? t) :
    slot.conflicts d' (writtenTextures d' (views.map some)) resolve
      = slot.conflicts d (writtenTextures d (views.map some)) resolve := by
  have hwritten : writtenTextures d' (views.map some) = writtenTextures d (views.map some) := by
    rw [writtenTextures, List.filterMap_map, writtenTextures, List.filterMap_map]
    exact List.filterMap_congr hdrawn
  have hread : (resolve slot).bind d'.viewTexture? = (resolve slot).bind d.viewTexture? := by
    rcases hview : resolve slot with _ | v
    · rfl
    · exact hshown v hview
  rw [conflicts, hread, hwritten, conflicts]

theorem resolveHazards_congr {inputs : List ViewSlot} {d d' : Device}
    {views : List (Handle .renderTargetView)} {resolve : ViewSlot → Option (Handle .shaderView)}
    (hshown : ∀ slot ∈ inputs, ∀ v, resolve slot = some v →
      d'.viewTexture? v = d.viewTexture? v)
    (hdrawn : ∀ t ∈ views, d'.targetTexture? t = d.targetTexture? t) :
    (resolveHazards d' inputs (views.map some) resolve).2
      = (resolveHazards d inputs (views.map some) resolve).2 :=
  List.map_congr_left fun slot hslot ↦ by
    rw [ViewSlot.conflicts_congr (hshown slot hslot) hdrawn]

/-! ## Records as they are built -/

/-- The inputs of the record are the bindings without those that conflict with its targets, and all
views that this takes into account were given out. -/
structure PassRecord.Resolved (d : Device) (scene : Scene) (bindings : List ViewSlot)
    (r : PassRecord) : Prop where
  /-- Bindings that conflict are emptied. -/
  inputs : r.inputs = (resolveHazards d bindings (r.targets.map some)
    (scene.backbuffer.resolveSlot scene.depthView)).2
  /-- The views for shaders were given out. -/
  shown : ∀ slot ∈ bindings, ∀ v,
    scene.backbuffer.resolveSlot scene.depthView slot = some v → v.id ≤ d.lastId
  /-- The views to draw into were given out. -/
  drawn : ∀ t ∈ r.targets, t.id ≤ d.lastId

/-- **Activation does not change what conflicts.** -/
theorem PassRecord.Resolved.builds {a a' : Assets} {scene : Scene} {bindings : List ViewSlot}
    {r : PassRecord} (h : r.Resolved a.device scene bindings) (hbuilds : a.Builds a') :
    r.Resolved a'.device scene bindings := by
  have hid := hbuilds.evolves.lastId_le
  refine ⟨h.inputs.trans (resolveHazards_congr ?_ ?_).symm,
    fun slot hslot v hv ↦ (h.shown slot hslot v hv).trans hid,
    fun t ht ↦ (h.drawn t ht).trans hid⟩
  · intro slot hslot v hv
    rw [Device.viewTexture?, hbuilds.get? rfl (by decide) (h.shown slot hslot v hv),
      Device.viewTexture?]
  · intro t ht
    rw [Device.targetTexture?, hbuilds.get? rfl (by decide) (h.drawn t ht), Device.targetTexture?]

section Hosts

variable {a a' : Assets} {index : Nat} {declared : List String} {scene : Scene}
  {objects : EffectObjects} {tables : SlotTables}

theorem resolved_of_buildPass {place : PassPlace} {p : PassDecl} {r : PassRecord}
    (h : a.Hosts scene.backbuffer index declared tables)
    (hdepth : ∀ v, scene.depthView = some v → v.id ≤ a.device.lastId)
    (run : buildPass scene objects tables.bindings place p a = (.ok r, a')) :
    r.Resolved a'.device scene tables.bindings := by
  have hbuilds := (builds_buildPass scene objects tables.bindings place p).run run
  have h' := h.builds hbuilds
  have hsound := sound_of_buildPass h run
  obtain ⟨targets, a₁, a₂, -, -, -, -, -, -, -, hinputs, -⟩ := buildPass_eq_ok run
  refine ⟨hinputs, fun slot hslot v hv ↦ ?_, fun t ht ↦ ?_⟩
  · by_cases hslot' : slot = .depth
    · subst hslot'
      exact (hdepth v hv).trans hbuilds.evolves.lastId_le
    · rw [Backbuffer.resolveSlot_of_ne_depth _ _ hslot'] at hv
      exact id_le_of_resolveSlot h'.assets h'.backbuffer h'.tables.bindings hslot hv
  · exact id_le_of_target h'.backbuffer (fun hp ↦ (hsound.backbuffer hp).1) hsound.textures ht

theorem resolved_of_buildTechnique {t : Technique} {state : TechniqueState}
    (h : a.Hosts scene.backbuffer index declared tables)
    (hdepth : ∀ v, scene.depthView = some v → v.id ≤ a.device.lastId)
    (run : buildTechnique scene objects tables t a = (.ok state, a')) :
    ∀ r ∈ state.passes, r.Resolved a'.device scene state.bindings := by
  obtain ⟨-, hbindings, hpasses⟩ := buildTechnique_eq_ok run
  intro r hr
  obtain ⟨p, -, place, a₁, a₂, hbefore, hrun, hafter⟩ := exists_of_forall₂_right hpasses hr
  have hdepth₁ := fun v hv ↦ (hdepth v hv).trans hbefore.evolves.lastId_le
  rw [hbindings]
  exact (resolved_of_buildPass (h.builds hbefore) hdepth₁ hrun).builds hafter

end Hosts

/-! ## Engines -/

namespace Engine

variable {e e' : Engine} {index : Nat}

/-- The records are what building them in the engine would make of their bindings and targets. -/
def Resolves (e : Engine) (state : TechniqueState) : Prop :=
  ∃ b, e.backbuffer = some b ∧
    ∀ r ∈ state.passes, r.Resolved e.device ⟨b, e.depth.view⟩ state.bindings

/-- **Activation resolves the inputs** of an effect whose techniques had no records. -/
theorem resolves_activate (h : e.Sound) (htables : e.Tables) (haliases : e.Aliases)
    (hnone : ∀ t ∈ e.techniques, t.effect = index → t.state = none) {t : Technique}
    (ht : t ∈ (e.activate index).2.techniques) (hindex : t.effect = index)
    {state : TechniqueState} (hstate : t.state = some state) :
    (e.activate index).2.Resolves state := by
  have hold : t ∉ e.techniques := fun hmem ↦ by
    cases (hnone t hmem hindex).symm.trans hstate
  rw [activate] at ht ⊢
  rcases heffect : e.effect? index with _ | effect <;> rw [heffect] at ht
  · exact absurd ht hold
  · have hrun := e.build_run index effect
    dsimp only at ht ⊢
    rcases houtcome : e.build index effect with ⟨cause | _, e'⟩ <;>
      rw [houtcome] at hrun ht
    · -- the techniques are those that were there
      have hsame : e'.techniques = e.techniques := by
        cases hrun <;> rfl
      exact absurd (hsame ▸ ht) hold
    · cases hrun with
      | @built textures d b objects techniques a hvalidate htextures hbackbuffer hbuild =>
        obtain ⟨tables, a₁, hhosts, hevolves, hbuilt⟩ :=
          h.exists_hosts htables heffect hvalidate htextures hbackbuffer hbuild
        have hdepth : ∀ v, e.depth.view = some v → v.id ≤ a₁.device.lastId := by
          intro v hv
          obtain ⟨_, -, _, hmade⟩ := haliases.sound v hv
          exact hmade.id_le.trans hevolves.lastId_le
        obtain ⟨u, -, hby⟩ := exists_of_forall₂_right (buildTechniques_eq_ok hbuilt) ht
        cases hby with
        | own _ hbetween =>
          cases hstate
          obtain ⟨a₂, a₃, hbefore, hrun, hafter⟩ := hbetween
          have hresolved := resolved_of_buildTechnique (hhosts.builds hbefore)
            (fun v hv ↦ (hdepth v hv).trans hbefore.evolves.lastId_le) hrun
          exact ⟨b, hbackbuffer, fun r hr ↦ (hresolved r hr).builds hafter⟩
        | other hne => exact absurd hindex hne

theorem resolves_load (h : e.Sound) (htables : e.Tables) (haliases : e.Aliases) (m : EffectModule)
    {t : Technique} (ht : t ∈ (e.load m).2.techniques) (hindex : t.effect = e.effects.length)
    {state : TechniqueState} (hstate : t.state = some state) : (e.load m).2.Resolves state := by
  rcases e.load_cases m with ⟨-, hrun⟩ | ⟨-, hrun⟩ <;> rw [hrun] at ht ⊢
  · exact absurd hindex (Nat.ne_of_lt (htables.effect_lt ht))
  · have haliases' : (e.register m.reserveSlots).Aliases := ⟨haliases.sound, haliases.vacant⟩
    exact resolves_activate (h.move htables (.registered _)) (htables.registered _) haliases'
      (fun t ht ↦ state_of_mem_register (fun _ ↦ htables.effect_lt) _ ht) ht hindex hstate

theorem resolves_reload (h : e.Sound) (htables : e.Tables) (haliases : e.Aliases) {t : Technique}
    (ht : t ∈ (e.reload index).2.techniques) (hindex : t.effect = index)
    {state : TechniqueState} (hstate : t.state = some state) :
    (e.reload index).2.Resolves state := by
  rcases htables.reload_cases index with ⟨heffect, hrun⟩ | ⟨effect, -, hrun⟩ <;> rw [hrun] at ht ⊢
  · obtain ⟨effect, heffect'⟩ := Option.isSome_iff_exists.mp (htables.loaded t ht)
    cases heffect.symm.trans (hindex ▸ heffect')
  · have hmove : e.Move (e.deactivate index) := .continues (Continues.deactivate e index)
    have haliases' : (e.deactivate index).Aliases :=
      ⟨haliases.sound.evolves (Device.Evolves.release _ _), haliases.vacant⟩
    exact resolves_activate (h.move htables hmove) (htables.deactivated index) haliases'
      (fun t ht ↦ state_of_mem_deactivate ht) ht hindex hstate

/-! ## Records that stay -/

/-- The techniques of an effect are some that it had, with the records they had or without. -/
def Carries (index : Nat) (e e' : Engine) : Prop :=
  ∀ t' ∈ e'.techniques, t'.effect = index → ∃ t ∈ e.techniques, t.Keeps t'

namespace Carries

theorem of_subset (h : e'.techniques ⊆ e.techniques) : Carries index e e' :=
  fun t ht _ ↦ ⟨t, h ht, Technique.Keeps.refl t⟩

theorem deactivate (e : Engine) (index i : Nat) : Carries index e (e.deactivate i) :=
  fun t ht _ ↦ (Continues.deactivate e i).techniques t ht

theorem activate (hs : e.toAssets.Sound) {i : Nat} (hne : i ≠ index) :
    Carries index e (e.activate i).2 := by
  rcases heffect : e.effect? i with _ | effect
  · rw [Engine.activate, heffect]
    exact of_subset (List.Subset.refl _)
  · cases activated hs heffect with
    | failed _ _ _ htechniques => exact of_subset (htechniques ▸ List.Subset.refl _)
    | built _ _ _ _ htechniques =>
      intro t' ht' hindex
      obtain ⟨t, ht, ⟨hi, state, rfl⟩ | ⟨-, rfl⟩⟩ := exists_of_forall₂_right htechniques ht'
      · exact absurd (hi.symm.trans hindex) hne
      · exact ⟨t', ht, Technique.Keeps.refl t'⟩

theorem load (htables : e.Tables) (m : EffectModule) (hne : e.effects.length ≠ index) :
    Carries index e (e.load m).2 := by
  rcases e.load_cases m with ⟨-, hrun⟩ | ⟨-, hrun⟩ <;> rw [hrun]
  · exact of_subset (List.Subset.refl _)
  · intro t' ht' hindex
    obtain ⟨t, ht, hkeeps⟩ :=
      Carries.activate (htables.registered m.reserveSlots).assets hne t' ht' hindex
    rcases List.mem_append.mp ht with ht | ht
    · exact ⟨t, ht, hkeeps⟩
    · obtain ⟨decl, -, rfl⟩ := List.mem_map.mp ht
      exact absurd (hkeeps.effect.symm.trans hindex) hne

theorem reload (htables : e.Tables) {i : Nat} (hne : i ≠ index) :
    Carries index e (e.reload i).2 := by
  rcases htables.reload_cases i with ⟨-, hrun⟩ | ⟨effect, -, hrun⟩ <;> rw [hrun]
  · exact of_subset (List.Subset.refl _)
  · intro t' ht' hindex
    obtain ⟨t, ht, hkeeps⟩ := Carries.activate (htables.deactivated i).assets hne t' ht' hindex
    obtain ⟨u, hu, hkeeps'⟩ := Carries.deactivate e index i t ht (hkeeps.effect.symm.trans hindex)
    exact ⟨u, hu, hkeeps'.trans hkeeps⟩

theorem unload (e : Engine) (i : Nat) : Carries index e (e.unload i).2 := by
  rcases e.unload_cases i with ⟨-, hrun⟩ | ⟨effect, -, hrun⟩ <;> rw [hrun]
  · exact of_subset (List.Subset.refl _)
  · exact fun t ht ↦ Carries.deactivate e index i t (List.mem_filter.mp ht).1

theorem init (e : Engine) (s : Swapchain) : Carries index e (e.init s).2 := by
  have hvacated : Carries index e e.vacated :=
    vacated_induction (P := Carries index e) (of_subset (List.Subset.refl _))
      (of_subset (List.nil_subset _))
  rcases e.init_cases s with ⟨cause, d, -, hinit⟩ | ⟨b, d, -, hinit⟩ <;> rw [hinit] <;>
    exact hvacated

end Carries

end Engine

namespace Session

/-- **Records stay** unless their effect is activated. -/
theorem carries_step {s : Session} (htables : s.engine.Tables) {event : Event} {index : Nat}
    (hother : event.activates s ≠ some index) :
    Engine.Carries index s.engine (s.step event).engine := by
  rcases hloads : event.loads with _ | _
  · intro t' ht' _
    obtain ⟨t, ht, hrests⟩ := exists_of_forall₂_right (s.rests_step hloads).techniques ht'
    exact ⟨t, ht, hrests.keeps⟩
  · cases event with
    | init swapchain => exact Engine.Carries.init _ swapchain
    | reset | unloadAll => exact Engine.Carries.of_subset (List.nil_subset _)
    | load m => exact Engine.Carries.load htables m fun heq ↦ hother (congrArg some heq)
    | reload i => exact Engine.Carries.reload htables fun heq ↦ hother (congrArg some heq)
    | unload i => exact Engine.Carries.unload _ i
    | _ => cases hloads

/-- The effect of an index was activated, or was to be, in the step that led to the first session,
and not again on the way from there to the second. -/
inductive ActivatedAt (allowed : Session → Event → Prop) (index : Nat) :
    Session → Session → Prop
  /-- The last event activates the effect. -/
  | now {s : Session} {event : Event} (hs : s.Reachable allowed) (hallowed : allowed s event)
    (hactivates : event.activates s = some index) :
    ActivatedAt allowed index (s.step event) (s.step event)
  /-- The last event does something else. -/
  | later {s₁ s : Session} {event : Event} (h : ActivatedAt allowed index s₁ s)
    (hallowed : allowed s event) (hother : event.activates s ≠ some index) :
    ActivatedAt allowed index s₁ (s.step event)

variable {allowed : Session → Event → Prop} {index : Nat} {s s₁ : Session}

theorem ActivatedAt.reachable (h : ActivatedAt allowed index s₁ s) : s.Reachable allowed := by
  induction h with
  | now hs hallowed _ => exact hs.step hallowed
  | later _ hallowed _ ih => exact ih.step hallowed

/-- **Inputs were resolved by the last activation.** -/
theorem ActivatedAt.resolves (h : ActivatedAt allowed index s₁ s) {t : Technique}
    (ht : t ∈ s.engine.techniques) (hindex : t.effect = index) {state : TechniqueState}
    (hstate : t.state = some state) : s₁.engine.Resolves state := by
  induction h generalizing t state with
  | @now s event hs _ hactivates =>
    cases event with
    | load m =>
      cases hactivates
      exact Engine.resolves_load hs.sound hs.tables hs.aliases m ht hindex hstate
    | reload i =>
      cases hactivates
      exact Engine.resolves_reload hs.sound hs.tables hs.aliases ht hindex hstate
    | _ => cases hactivates
  | later h _ hother ih =>
    obtain ⟨u, hu, hkeeps⟩ := carries_step h.reachable.tables hother t ht hindex
    obtain ⟨state₀, timer, hstate₀, rfl⟩ := hkeeps.state state hstate
    obtain ⟨b, hb, hresolved⟩ := ih hu (hkeeps.effect.symm.trans hindex) hstate₀
    exact ⟨b, hb, hresolved⟩

/-- Every technique belongs to an effect that was activated on the way. -/
theorem Reachable.exists_activatedAt (hs : s.Reachable allowed) {t : Technique}
    (ht : t ∈ s.engine.techniques) : ∃ s₁, ActivatedAt allowed t.effect s₁ s := by
  induction hs generalizing t with
  | start timing config => cases ht
  | @step s event hs hallowed ih =>
    by_cases hactivates : event.activates s = some t.effect
    · exact ⟨_, .now hs hallowed hactivates⟩
    · obtain ⟨u, hu, hkeeps⟩ := carries_step hs.tables hactivates t ht rfl
      obtain ⟨s₁, h⟩ := ih hu
      exact ⟨s₁, .later (hkeeps.effect ▸ h) hallowed hactivates⟩

end Session

end EffectChain
