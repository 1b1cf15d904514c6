import EffectChain.Proofs.Filtered
import EffectChain.Proofs.Frame.Stages

/-!
# Levels across a frame

A pass that draws into a texture with several levels generates the levels anew when it is done,
after everything that it does to the first one. So a texture of an effect comes out of a frame as it
went in, or filtered (`Engine.filtered_or_same_present`).

Generating levels goes through a view for shaders, and the view to draw into the texture is another
object. That both are there or neither is rests on the texture table: a pass records them together,
and the entry of the table that holds the one holds the other.
-/

namespace EffectChain

open Texture (Edits)

/-! ## Generating levels -/

namespace Device

variable {d : Device} {t : Handle .texture} {c : Texture}

theorem exists_issueAll (h : d.get? t = some c) (cs : List Command) :
    ∃ c', (d.issueAll cs).get? t = some c' ∧ c.Edits c' := by
  induction cs generalizing d c with
  | nil => exact ⟨c, h, .refl⟩
  | cons command cs ih =>
    have halive : t.ref ∈ (d.issue command).live := by
      rw [live_issue]
      exact mem_live_of_get? h
    obtain ⟨c₁, hc₁⟩ := get?_of_mem_live halive
    obtain ⟨c', hc', hedits⟩ := ih hc₁
    exact ⟨c', hc', .head (edit_issue h hc₁) hedits⟩

theorem get?_generateMips {view : Handle .shaderView} (hview : d.viewTexture? view = some t) :
    (d.issue (.generateMips view)).get? t = (d.get? t).map fun c ↦ c.generateMips := by
  change (d.apply (.generateMips view)).get? t = _
  rw [apply, hview]
  exact Store.get?_modify_self _ _ _

theorem viewTexture?_issueAll (d : Device) (cs : List Command) (view : Handle .shaderView) :
    (d.issueAll cs).viewTexture? view = d.viewTexture? view :=
  congrArg (Option.map View.texture) (get?_issueAll_of_kind cs view (by decide))

theorem targetTexture?_issueAll (d : Device) (cs : List Command)
    (view : Handle .renderTargetView) :
    (d.issueAll cs).targetTexture? view = d.targetTexture? view :=
  congrArg (Option.map View.texture) (get?_issueAll_of_kind cs view (by decide))

/-- Generating the levels of other textures, or of this one again, leaves it filtered. -/
theorem filtered_generateMips_of_filtered (h : d.get? t = some c) (hc : c.Filtered)
    (hformat : c.desc.format.is8BitUnorm) (views : List (Handle .shaderView)) :
    ∃ c', (d.issueAll (views.map .generateMips)).get? t = some c' ∧ c'.Filtered := by
  induction views generalizing d c with
  | nil => exact ⟨c, h, hc⟩
  | cons view views ih =>
    by_cases hview : d.viewTexture? view = some t
    · refine ih ((get?_generateMips hview).trans (congrArg _ h))
        (Texture.filtered_generateMips hformat) ?_
      rwa [Texture.desc_generateMips]
    · refine ih ((get?_issue_of_ne fun htouched ↦ hview ?_).trans h) hc hformat
      obtain ⟨u, hu, href⟩ := Option.map_eq_some_iff.mp htouched
      rwa [← Handle.ref_inj.mp href]

/-- **Generating levels filters.** -/
theorem filtered_generateMips (h : d.get? t = some c) (hformat : c.desc.format.is8BitUnorm)
    {views : List (Handle .shaderView)} {view : Handle .shaderView} (hview : view ∈ views)
    (htexture : d.viewTexture? view = some t) :
    ∃ c', (d.issueAll (views.map .generateMips)).get? t = some c' ∧ c'.Filtered := by
  obtain ⟨before, after, rfl⟩ := List.append_of_mem hview
  obtain ⟨c₁, hc₁, hedits⟩ := exists_issueAll h (before.map .generateMips)
  have hformat₁ : c₁.desc.format.is8BitUnorm := by rwa [hedits.desc]
  have htexture₁ : (d.issueAll (before.map .generateMips)).viewTexture? view = some t := by
    rwa [viewTexture?_issueAll]
  rw [List.map_append, issueAll_append]
  refine filtered_generateMips_of_filtered ((get?_generateMips htexture₁).trans (congrArg _ hc₁))
    (Texture.filtered_generateMips hformat₁) ?_ after
  rwa [Texture.desc_generateMips]

end Device

/-! ## Stages -/

/-- The texture is none that the engine draws into, copies to or clears for a swapchain. -/
structure Backbuffer.Avoids (d : Device) (b : Backbuffer) (t : Handle .texture) : Prop where
  /-- It is not the scene target. -/
  resolved : t ≠ b.resolved
  /-- It is not the copy of the scene. -/
  copy : t ≠ b.copy
  /-- It is not the stencil surface. -/
  stencil : t ≠ b.stencil
  /-- The view of the stencil surface is that. -/
  view : d.Made b.stencilView b.stencil

theorem Backbuffer.Avoids.evolves {d d' : Device} {b : Backbuffer} {t : Handle .texture}
    (h : b.Avoids d t) (hd : d.Evolves d') : b.Avoids d' t :=
  ⟨h.resolved, h.copy, h.stencil, h.view.evolves hd⟩

theorem Backbuffer.Avoids.touched?_copyResource {d : Device} {b : Backbuffer}
    {t : Handle .texture} (h : b.Avoids d t) (d' : Device) :
    (Command.copyResource b.copy b.resolved).touched? d' ≠ some t.ref :=
  fun htouched ↦ h.copy (Handle.ref_inj.mp (Option.some.inj htouched)).symm

/-- The opening of a frame resolves to the scene target and copies it, and nothing else. -/
theorem Backbuffer.Avoids.touched?_opening {d : Device} {b : Backbuffer} {t : Handle .texture}
    (h : b.Avoids d t) (d' : Device) : ∀ c ∈ b.opening, c.touched? d' ≠ some t.ref := by
  rw [opening, List.forall_mem_append]
  refine ⟨?_, List.forall_mem_cons.mpr
    ⟨(Option.some_ne_none _).symm, List.forall_mem_singleton.mpr (h.touched?_copyResource d')⟩⟩
  split
  · exact List.forall_mem_singleton.mpr fun htouched ↦
      h.resolved (Handle.ref_inj.mp (Option.some.inj htouched)).symm
  · exact List.forall_mem_nil _

/-- A pass that draws into the texture generates its levels, if there are several. -/
def PassRecord.Regenerates (d : Device) (t : Handle .texture) (r : PassRecord) : Prop :=
  ∀ v ∈ r.targets, d.targetTexture? v = some t → ∀ c : Texture, d.get? t = some c →
    1 < c.desc.levels → ∃ w ∈ r.mipViews, d.viewTexture? w = some t

theorem PassRecord.regenerates_issueAll {d : Device} {t : Handle .texture} {r : PassRecord}
    {c : Texture} (hget : d.get? t = some c) (cs : List Command) :
    r.Regenerates (d.issueAll cs) t ↔ r.Regenerates d t := by
  obtain ⟨c₁, hc₁, hedits⟩ := Device.exists_issueAll hget cs
  simp only [Regenerates, Device.targetTexture?_issueAll, Device.viewTexture?_issueAll, hc₁, hget,
    Option.some.injEq, forall_eq', hedits.desc]

namespace Stage

variable {b : Backbuffer} {depthView : Option (Handle .shaderView)} {d : Device}
  {t : Handle .texture} {c : Texture}

/-- The commands of a stage ahead of those that generate levels. -/
theorem commands_eq_append (b : Backbuffer) (depthView : Option (Handle .shaderView))
    (x : Stage) :
    ∃ front, x.commands b depthView = front ++ x.record.mipViews.map .generateMips := by
  rw [commands, PassRecord.commands]
  exact ⟨_, (List.append_assoc _ _ _).symm⟩

/-- What touches the texture in a stage is a clear of a target, or generates its levels. -/
theorem exists_of_touched {x : Stage} (havoids : b.Avoids d t) (hsetup : ∀ c ∈ x.setup, c.isSetup)
    {command : Command} (hcommand : command ∈ x.commands b depthView)
    (htouched : command.touched? d = some t.ref) :
    (∃ v ∈ x.record.targets, d.targetTexture? v = some t) ∨
      ∃ w ∈ x.record.mipViews, d.viewTexture? w = some t := by
  -- the surface for stencil and the copy of the scene are other textures
  have hstencil : (Command.clearStencil b.stencilView 0).touched? d ≠ some t.ref := by
    intro h
    obtain ⟨u, hu, href⟩ := Option.map_eq_some_iff.mp h
    have hview : u = b.stencil := havoids.view.alike hu
    exact havoids.stencil ((Handle.ref_inj.mp href).symm.trans hview)
  have hcopy := havoids.touched?_copyResource d
  have hnone {c : Command} {P : Prop} (hc : c.touched? d = none) : c.touched? d = some t.ref → P :=
    fun h ↦ absurd (h.symm.trans hc) (Option.some_ne_none _)
  suffices hall : ∀ c ∈ x.commands b depthView, c.touched? d = some t.ref →
      (∃ v ∈ x.record.targets, d.targetTexture? v = some t) ∨
        ∃ w ∈ x.record.mipViews, d.viewTexture? w = some t from hall command hcommand htouched
  rw [commands, PassRecord.commands]
  simp only [List.forall_mem_append, List.forall_mem_cons]
  refine ⟨fun c hc h ↦ absurd h (Command.touched?_of_isSetup (hsetup c hc) d t),
    ⟨⟨⟨⟨⟨hnone rfl, hnone rfl, hnone rfl, fun h ↦ absurd h hcopy, hnone rfl, List.forall_mem_nil _⟩,
      ?_⟩, hnone rfl, List.forall_mem_nil _⟩, ?_⟩, hnone rfl, hnone rfl, hnone rfl, hnone rfl,
      List.forall_mem_nil _⟩, ?_⟩
  · split
    · exact List.forall_mem_singleton.mpr fun h ↦ absurd h hstencil
    · exact List.forall_mem_nil _
  · split
    · rw [List.forall_mem_map]
      intro v hv h
      obtain ⟨u, hu, href⟩ := Option.map_eq_some_iff.mp h
      exact Or.inl ⟨v, hv, Handle.ref_inj.mp href ▸ hu⟩
    · exact List.forall_mem_nil _
  · rw [List.forall_mem_map]
    intro w hw h
    obtain ⟨u, hu, href⟩ := Option.map_eq_some_iff.mp h
    exact Or.inr ⟨w, hw, Handle.ref_inj.mp href ▸ hu⟩

/-- **A pass leaves a texture as it was, or filtered.** -/
theorem filtered_or_same {x : Stage} (havoids : b.Avoids d t)
    (hsetup : ∀ c ∈ x.setup, c.isSetup) (hrecord : x.record.Regenerates d t)
    (h : d.get? t = some c) (hlaid : c.Laid) (hformat : c.desc.format.is8BitUnorm) :
    ∃ c', (d.issueAll (x.commands b depthView)).get? t = some c' ∧ (c'.Filtered ∨ c' = c) := by
  by_cases htouched : ∃ command ∈ x.commands b depthView, command.touched? d = some t.ref
  · obtain ⟨command, hcommand, hself⟩ := htouched
    by_cases hlevels : 1 < c.desc.levels
    · obtain ⟨w, hw, htexture⟩ : ∃ w ∈ x.record.mipViews, d.viewTexture? w = some t := by
        rcases exists_of_touched havoids hsetup hcommand hself with ⟨v, hv, hdraws⟩ | hmips
        · exact hrecord v hv hdraws c h hlevels
        · exact hmips
      obtain ⟨front, hfront⟩ := x.commands_eq_append b depthView
      obtain ⟨c₁, hc₁, hedits⟩ := Device.exists_issueAll h front
      obtain ⟨c', hc', hfiltered⟩ := Device.filtered_generateMips hc₁ (by rwa [hedits.desc]) hw
        (by rwa [Device.viewTexture?_issueAll])
      exact ⟨c', by rwa [hfront, Device.issueAll_append], Or.inl hfiltered⟩
    · -- a single level is always filtered
      obtain ⟨c', hc', hedits⟩ := Device.exists_issueAll h (x.commands b depthView)
      exact ⟨c', hc', Or.inl ((hedits.laid hlaid).filtered (by rwa [hedits.desc]))⟩
  · refine ⟨c, (Device.get?_issueAll_of_ne fun command hcommand hself ↦ ?_).trans h, Or.inr rfl⟩
    exact htouched ⟨command, hcommand, hself⟩

theorem filtered_or_same_flatMap {stages : List Stage} (havoids : b.Avoids d t)
    (hsetup : ∀ x ∈ stages, ∀ c ∈ x.setup, c.isSetup)
    (hrecords : ∀ x ∈ stages, x.record.Regenerates d t)
    (h : d.get? t = some c) (hlaid : c.Laid) (hformat : c.desc.format.is8BitUnorm) :
    ∃ c', (d.issueAll (stages.flatMap (commands b depthView))).get? t = some c' ∧
      (c'.Filtered ∨ c' = c) := by
  induction stages generalizing d c with
  | nil => exact ⟨c, h, Or.inr rfl⟩
  | cons x stages ih =>
    rw [List.forall_mem_cons] at hsetup hrecords
    obtain ⟨c₁, hc₁, hedits⟩ := Device.exists_issueAll h (x.commands b depthView)
    have hfirst : c₁.Filtered ∨ c₁ = c := by
      obtain ⟨c₁', hc₁', hfirst⟩ :=
        filtered_or_same havoids hsetup.1 hrecords.1 h hlaid hformat
      cases hc₁.symm.trans hc₁'
      exact hfirst
    have hrecords' : ∀ y ∈ stages, y.record.Regenerates (d.issueAll (x.commands b depthView)) t :=
      fun y hy ↦ (PassRecord.regenerates_issueAll h _).mpr (hrecords.2 y hy)
    obtain ⟨c', hc', hrest⟩ := ih (havoids.evolves (Device.Evolves.issueAll d _)) hsetup.2
      hrecords' hc₁ (hedits.laid hlaid) (by rwa [hedits.desc])
    refine ⟨c', by rwa [List.flatMap_cons, Device.issueAll_append], ?_⟩
    rcases hrest with hfiltered | rfl
    · exact Or.inl hfiltered
    · exact hfirst

end Stage

/-! ## Frames -/

/-- **What a pass draws into is regenerated**, as long as it is a texture of the table. -/
theorem PassRecord.Sound.regenerates {a : Assets} {b : Backbuffer} {objects : EffectObjects}
    {index : Nat} {declared : List String} {bindings : List ViewSlot} {p : PassDecl}
    {r : PassRecord} (h : r.Sound a b objects index declared bindings p) (hs : a.Sound)
    (hl : a.Live) (hb : b.Sound a.device) {t : Handle .texture} (hne : t ≠ b.resolved) :
    r.Regenerates a.device t := by
  intro v hv hdraws c hc hlevels
  rcases hp : p.targetsBackbuffer with _ | _
  · obtain ⟨sources, hviews, hsources, -, hregenerates⟩ := h.textures hp
    rw [hviews] at hv
    obtain ⟨⟨v, o⟩, hsource, rfl⟩ := List.mem_map.mp hv
    obtain ⟨name, -, hof⟩ := exists_of_forall₂_right hsources hsource
    have halive : v.ref ∈ a.device.live := by
      obtain ⟨view, hview, -⟩ := Option.map_eq_some_iff.mp hdraws
      exact Device.mem_live_of_get? hview
    obtain ⟨entry, hentry, -, -, o', howned, hgrows⟩ :=
      hof.kept.resolve_right (not_not_intro halive)
    have howner := hs.owned entry hentry o' howned
    have hself : o'.resource = t :=
      ((howner.targets _ _ (hgrows.targets _ _ hof.pick)).eq hdraws).symm
    have hshows := hl.viewTexture? hs hentry howned false
    rw [hself, hgrows.views] at hshows
    refine ⟨o.views.linear, (hregenerates _ hsource).mem c ?_ hlevels, hshows⟩
    rw [← hgrows.resource, hself]
    exact hc
  · rw [(h.backbuffer hp).1] at hv
    rw [List.mem_singleton.mp hv] at hdraws
    exact absurd ((hb.targets p.gammaWrite).eq hdraws) hne

theorem Engine.regenerates_present {e : Engine} {others : Multiset ObjectRef} (h : e.Sound)
    (htables : e.Tables) (howns : e.Owns others) {b : Backbuffer} (hb : e.backbuffer = some b)
    (tracker : DepthTracker) {t : Handle .texture} (hne : t ≠ b.resolved) {r : PassRecord}
    (hr : r ∈ e.framePasses) : r.Regenerates (e.present tracker).device t := by
  obtain ⟨hgrows, hassets⟩ := (Continues.present e tracker).assets htables.assets
  obtain ⟨technique, htechnique, state, hstate, hpasses⟩ := mem_framePasses hr
  obtain ⟨b', objects, hb', -, hsound⟩ := h.present htables tracker htechnique hstate
  cases hb.symm.trans hb'
  obtain ⟨p, -, hpass⟩ := exists_of_forall₂_right hsound.passes hpasses
  exact hpass.regenerates hassets (howns.present tracker).assets_live
    ((h.backbuffer b hb).evolves hgrows.device) hne

/-- **A texture of an effect comes out of a frame as it went in, or filtered.** -/
theorem Engine.filtered_or_same_present {e : Engine} {others : Multiset ObjectRef} (h : e.Sound)
    (htables : e.Tables) (howns : e.Owns others) (hnumbered : e.device.Numbered) {b : Backbuffer}
    (hb : e.backbuffer = some b) (tracker : DepthTracker) {t : Handle .texture} {c : Texture}
    (havoids : b.Avoids e.device t) (hget : e.device.get? t = some c) (hlaid : c.Laid) :
    ∃ c', (e.present tracker).device.get? t = some c' ∧ c'.Laid ∧
      (c'.desc.format.is8BitUnorm → c'.Filtered ∨ c' = c) := by
  obtain ⟨stages, rest, hrecords, hsetup, hrest, hdevice⟩ := exists_stages hb tracker
  have hpointed := get?_pointed hnumbered b tracker (by decide) hget
  have hopened : b.Avoids ((e.pointed b tracker).2.issueAll b.opening) t :=
    havoids.evolves ((e.depth.evolves_point _ e.device).trans (Device.Evolves.issueAll _ _))
  -- commands make and take no views
  have hregenerates : ∀ x ∈ stages,
      x.record.Regenerates ((e.pointed b tracker).2.issueAll b.opening) t := by
    intro x hx
    have hafter := regenerates_present h htables howns hb tracker havoids.resolved
      (hrecords ▸ List.mem_map_of_mem hx : x.record ∈ e.framePasses)
    rw [hdevice, PassRecord.regenerates_issueAll hpointed] at hafter
    exact (PassRecord.regenerates_issueAll hpointed _).mpr hafter
  rw [hdevice]
  obtain ⟨c', hc', hedits⟩ := Device.exists_issueAll hpointed (b.opening
    ++ stages.flatMap (Stage.commands b (e.pointed b tracker).1.view) ++ rest
    ++ [.copyResource b.copy b.resolved])
  refine ⟨c', hc', hedits.laid hlaid, fun hformat ↦ ?_⟩
  rw [hedits.desc] at hformat
  obtain ⟨c'', hc'', hcases⟩ : ∃ c'', (((e.pointed b tracker).2.issueAll b.opening).issueAll
      (stages.flatMap (Stage.commands b (e.pointed b tracker).1.view))).get? t = some c'' ∧
        (c''.Filtered ∨ c'' = c) :=
    Stage.filtered_or_same_flatMap hopened hsetup hregenerates
      ((Device.get?_issueAll_of_ne (havoids.touched?_opening _)).trans hpointed) hlaid hformat
  -- what comes behind the stages touches the copy of the scene at most
  have hlast : ∀ (d : Device), ∀ command ∈ rest ++ [.copyResource b.copy b.resolved],
      command.touched? d ≠ some t.ref := fun d ↦ List.forall_mem_append.mpr
    ⟨fun command hcommand ↦ Command.touched?_of_isSetup (hrest command hcommand) d t,
      List.forall_mem_singleton.mpr (havoids.touched?_copyResource d)⟩
  rw [List.append_assoc (b.opening ++ _), Device.issueAll_append,
    Device.get?_issueAll_of_ne (hlast _), Device.issueAll_append] at hc'
  cases hc'.symm.trans hc''
  exact hcases

end EffectChain
