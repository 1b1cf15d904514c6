import EffectChain.Proofs.Rests
import EffectChain.Proofs.Tables

/-!
# What loading does to texels

An attempt to activate an effect that fails gives back what it created, but it is not without a
trace. The texture table keeps the views to draw into its textures that were created on the way, and
each of them cleared its texture when it was created, whoever else uses that texture.

That is all, however. Textures that were there before stay, and their texels change only by the view
that was created first for one of the two variants of the texture
(`Session.Reachable.intact_or_cleared`). The reason is that everything else activation does concerns
numbers that were not given out before, or objects that belong to the effect alone.
-/

namespace EffectChain

open Relation (ReflTransGen)

/-! ## Sparing what was there -/

namespace Device

/-- The device has what there was at first, as it was. -/
structure Spared (origin d : Device) : Prop where
  /-- Numbers are given out in order. -/
  lastId_le : origin.lastId ≤ d.lastId
  /-- The same is found for a number that was given out at first. -/
  get? : ∀ {kind : ObjectKind} {h : Handle kind}, h.id ≤ origin.lastId → d.get? h = origin.get? h

def Later (origin : Device) (refs : List ObjectRef) : Prop := ∀ r ∈ refs, origin.lastId < r.id

variable {origin d : Device}

protected theorem Spared.refl (d : Device) : d.Spared d := ⟨Nat.le_refl _, fun _ ↦ rfl⟩

theorem Spared.release (h : origin.Spared d) {refs : List ObjectRef} (hlater : origin.Later refs) :
    origin.Spared (d.release refs) := by
  refine ⟨h.lastId_le, fun {_ x} hid ↦ ?_⟩
  rw [get?_release, if_neg fun hmem ↦ Nat.not_lt.mpr hid (hlater _ hmem), h.get? hid]

/-- From a device that has what there was at first, the action leads to such a device, whatever
comes of it, and what it returns satisfies `after`. -/
def Spares {ε α : Type} (origin : Device) (m : ExceptT ε (StateM Device) α) (after : α → Prop) :
    Prop :=
  ∀ d, origin.Spared d → origin.Spared (m d).2 ∧ ∀ x, (m d).1 = .ok x → after x

namespace Spares

variable {ε α β : Type} {m : ExceptT ε (StateM Device) α} {after : α → Prop}

protected theorem pure {x : α} (h : after x) :
    origin.Spares (pure x : ExceptT ε (StateM Device) α) after :=
  fun _ hd ↦ ⟨hd, fun _ hx ↦ by cases hx; exact h⟩

protected theorem get : origin.Spares (get : ExceptT ε (StateM Device) Device) fun _ ↦ True :=
  fun _ hd ↦ ⟨hd, fun _ _ ↦ trivial⟩

protected theorem bind {k : α → ExceptT ε (StateM Device) β} {after' : β → Prop}
    (hm : origin.Spares m after) (hk : ∀ x, after x → origin.Spares (k x) after') :
    origin.Spares (m >>= k) after' := by
  intro d hd
  obtain ⟨hspared, hafter⟩ := hm d hd
  rw [run_bind]
  rcases hrun : m d with ⟨e | x, d₁⟩ <;> rw [hrun] at hspared hafter
  · exact ⟨hspared, nofun⟩
  · exact hk x (hafter x rfl) d₁ hspared

/-- What is released after a failure is later than what there was. -/
protected theorem keeping {refs : List ObjectRef} (hlater : origin.Later refs)
    (hm : origin.Spares m after) : origin.Spares (keeping refs m) after := by
  intro d hd
  obtain ⟨hspared, hafter⟩ := hm d hd
  rw [run_keeping]
  rcases hrun : m d with ⟨e | x, d₁⟩ <;> rw [hrun] at hspared hafter
  · exact ⟨hspared.release hlater, nofun⟩
  · exact ⟨hspared, hafter⟩

protected theorem named {m : DeviceM α} {wrap : DeviceError → ε} (hm : origin.Spares m after) :
    origin.Spares (m.named wrap) after := by
  intro d hd
  obtain ⟨hspared, hafter⟩ := hm d hd
  rw [run_named]
  rcases hrun : m d with ⟨e | x, d₁⟩ <;> rw [hrun] at hspared hafter
  · exact ⟨hspared, nofun⟩
  · exact ⟨hspared, fun y hy ↦ hafter y (by cases hy; rfl)⟩

theorem create {kind : ObjectKind} {content : Device → Except DeviceError kind.Content} :
    origin.Spares (Device.create kind content) fun h ↦ origin.lastId < h.id := by
  intro d hd
  refine ⟨⟨hd.lastId_le.trans (Evolves.create d).lastId_le, fun hid ↦ ?_⟩, fun x hx ↦ ?_⟩
  · rw [get?_create d content (hid.trans hd.lastId_le), hd.get? hid]
  · rcases hrun : Device.create kind content d with ⟨e | h, d'⟩ <;> rw [hrun] at hx <;> cases hx
    obtain ⟨-, -, -, rfl, -⟩ := create_eq_ok hrun
    exact Nat.lt_succ_of_le hd.lastId_le

end Spares

end Device

theorem OwnedTexture.spares_create (origin : Device) (t : TextureDecl) :
    origin.Spares (create t) fun o ↦ origin.Later o.refs := by
  have hlater {kind : ObjectKind} {h : Handle kind} (hid : origin.lastId < h.id) :
      origin.Later [h.ref] := List.forall_mem_singleton.mpr hid
  rw [create]
  dsimp only
  refine Device.Spares.create.named.bind fun resource hresource ↦ ?_
  refine Device.Spares.keeping (hlater hresource) (Device.Spares.get.bind fun d _ ↦ ?_)
  refine Device.Spares.create.named.bind fun linear hlinear ↦ ?_
  refine Device.Spares.keeping (hlater hlinear) ?_
  have hrefs (gamma : Handle .shaderView) (hgamma : origin.lastId < gamma.id) :
      origin.Later ({ resource, views := ⟨linear, gamma⟩ } : OwnedTexture).refs := by
    intro r hr
    rcases List.mem_cons.mp hr with rfl | hr
    · exact hresource
    · -- there are no views to draw into the texture yet
      obtain ⟨v, hv, rfl⟩ : ∃ v ∈ (Variants.mk linear gamma).distinct, v.ref = r := by
        simpa using hr
      rw [Variants.distinct] at hv
      split at hv
      · rw [List.mem_singleton.mp hv]
        exact hlinear
      · rcases List.mem_cons.mp hv with rfl | hv
        · exact hlinear
        · rw [List.mem_singleton.mp hv]
          exact hgamma
  split
  · rw [pure_bind]
    exact Device.Spares.pure (hrefs linear hlinear)
  · exact Device.Spares.create.named.bind fun gamma hgamma ↦
      Device.Spares.pure (hrefs gamma hgamma)

theorem spares_materialize (origin : Device) (index : Nat) (table : List TableTexture) :
    origin.Spares (materialize index table) (List.Forall₂ (fun t t' ↦
      t' = t ∨ ∃ o, t' = { t with owned := some o } ∧ origin.Later o.refs) table) := by
  induction table with
  | nil => exact Device.Spares.pure List.Forall₂.nil
  | cons t rest ih =>
    rw [materialize]
    split
    · refine (OwnedTexture.spares_create origin t.decl).bind fun o ho ↦ Device.Spares.keeping ho ?_
      exact ih.bind fun rest' hrest ↦
        Device.Spares.pure (List.Forall₂.cons (Or.inr ⟨o, rfl, ho⟩) hrest)
    · exact ih.bind fun rest' hrest ↦ Device.Spares.pure (List.Forall₂.cons (Or.inl rfl) hrest)

/-- Creating textures spares what was there, whatever comes of it. -/
theorem spared_of_materialize {index : Nat} {table : List TableTexture} {d d' : Device}
    {result : Except EngineError (List TableTexture)}
    (run : materialize index table d = (result, d')) : d.Spared d' := by
  have hspared := (spares_materialize d index table d (Device.Spared.refl d)).1
  rwa [run] at hspared

/-! ## Views that clear -/

theorem Texture.fill_fill (c : Texture) (texel texel' : List UInt8) :
    (c.fill texel).fill texel' = c.fill texel' ∨ (c.fill texel).fill texel' = c.fill texel := by
  by_cases htexel' : texel'.length = c.desc.format.bytesPerTexel
  · left
    obtain ⟨desc, mips⟩ := c
    rw [fill, desc_fill, if_pos htexel', fill.eq_1 _ texel', if_pos htexel', fill]
    split
    · cases mips <;> simp [withBase, base]
    · rfl
  · right
    rw [fill, desc_fill, if_neg htexel']

namespace Assets

/-- The table has a view to draw into the texture that is later than a number. -/
def Opens (a : Assets) (n : Nat) (t : Handle .texture) (view : Handle .renderTargetView) : Prop :=
  n < view.id ∧ ∃ entry ∈ a.textures, ∃ o, entry.owned = some o ∧ o.resource = t ∧
    ∃ gamma, o.targets.pick gamma = some view

/-- The texture is what it was when the number was given out, and no view to draw into it was
created since. -/
structure Intact (a : Assets) (n : Nat) (t : Handle .texture) (c : Texture) : Prop where
  get? : a.device.get? t = some c
  closed : ∀ view, ¬a.Opens n t view

/-- A view to draw into the texture was created since the number was given out, and the texture is
what it was, cleared through the view. -/
def Cleared (a : Assets) (n : Nat) (t : Handle .texture) (c : Texture) : Prop :=
  ∃ view format, a.Opens n t view ∧ a.device.get? view = some ⟨t, format⟩ ∧
    a.device.get? t = some (c.fill (Color.transparent.encode format))

variable {a a' : Assets} {n : Nat} {t : Handle .texture} {c : Texture}
  {view : Handle .renderTargetView}

theorem Opens.id_le (h : a.Opens n t view) (hs : a.Sound) : view.id ≤ a.device.lastId := by
  obtain ⟨-, entry, hentry, o, howned, -, gamma, hpick⟩ := h
  obtain ⟨format, hmade⟩ := (hs.owned entry hentry o howned).targets gamma view hpick
  exact hmade.id_le

theorem Opens.grows (h : a.Opens n t view) (hgrow : TablesGrow a.textures a'.textures) :
    a'.Opens n t view := by
  obtain ⟨hlater, entry, hentry, o, howned, rfl, gamma, hpick⟩ := h
  obtain ⟨entry', hentry', hgrows⟩ := exists_of_forall₂_left hgrow hentry
  obtain ⟨o', howned', hgrows'⟩ := hgrows.owned o howned
  exact ⟨hlater, entry', hentry', o', howned', hgrows'.resource, gamma,
    hgrows'.targets gamma view hpick⟩

/-- What the table has after an entry was replaced, it had before or has from the new entry. -/
theorem Opens.of_setOwned {name : String} {o : OwnedTexture}
    (h : (a.setOwned name o).Opens n t view) :
    a.Opens n t view ∨ o.resource = t ∧ ∃ gamma, o.targets.pick gamma = some view := by
  obtain ⟨hlater, entry', hentry', o', howned', hresource, hpick⟩ := h
  obtain ⟨entry, hentry, rfl⟩ := List.mem_map.mp hentry'
  split at howned'
  · cases howned'
    exact Or.inr ⟨hresource, hpick⟩
  · exact Or.inl ⟨hlater, entry, hentry, o', howned', hresource, hpick⟩

theorem opens_setOwned_self {name : String} {gamma : Bool} {u : TableTexture} {o : OwnedTexture}
    (hfind : a.texture? name = some u) (hlater : n < view.id)
    (hpick : o.targets.pick gamma = some view) :
    (a.setOwned name o).Opens n o.resource view := by
  obtain ⟨hmem, hname⟩ := mem_of_texture? hfind
  exact ⟨hlater, _, List.mem_map_of_mem hmem, o, by rw [if_pos hname], rfl, gamma, hpick⟩

theorem setOwned_self {name : String} {u : TableTexture} {o : OwnedTexture}
    (hnames : (a.textures.map (·.decl.name)).Nodup) (hfind : a.texture? name = some u)
    (howned : u.owned = some o) : a.setOwned name o = a := by
  have hsame : List.Forall₂ Eq a.textures (a.setOwned name o).textures :=
    forall₂_setOwned hnames hfind (fun _ _ _ ↦ rfl) (by rw [← howned])
  rw [List.forall₂_eq_eq_eq] at hsame
  exact congrArg (fun textures ↦ { a with textures }) hsame.symm

/-- Before anything happens no view is later than what there is. -/
theorem intact_of_get? (hs : a.Sound) (hget : a.device.get? t = some c) :
    a.Intact a.device.lastId t c :=
  ⟨hget, fun _ hopens ↦ Nat.not_lt.mpr (hopens.id_le hs) hopens.1⟩

def Keeps (a : Assets) (n : Nat) (t : Handle .texture) (c : Texture) : Prop :=
  a.Intact n t c ∨ a.Cleared n t c

/-- The device changed, but not the texture and no view to draw into it. -/
theorem Keeps.device {d : Device} (h : a.Keeps n t c) (hs : a.Sound)
    (htexture : d.get? t = a.device.get? t)
    (htarget : ∀ view : Handle .renderTargetView, view.id ≤ a.device.lastId →
      d.get? view = a.device.get? view) : ({ a with device := d } : Assets).Keeps n t c := by
  rcases h with ⟨hget, hclosed⟩ | ⟨view, format, hopens, hview, hget⟩
  · exact Or.inl ⟨htexture.trans hget, hclosed⟩
  · exact Or.inr ⟨view, format, hopens, (htarget view (hopens.id_le hs)).trans hview,
      htexture.trans hget⟩

/-- A view to draw into a texture is created, clears it, and is recorded with it. -/
theorem Keeps.draw {name : String} {gamma : Bool} {format : Format} {u : TableTexture}
    {o : OwnedTexture} {d : Device} {new : Handle .renderTargetView} (h : a.Keeps n t c)
    (hs : a.Sound) (hn : n ≤ a.device.lastId) (ht : t.id ≤ n) (hfind : a.texture? name = some u)
    (hgrow : TablesGrow a.textures (a.setOwned name
      { o with targets := o.targets.set gamma (some new) }).textures)
    (hcreate : Device.createRenderTargetView o.resource format a.device = (.ok new, d)) :
    (({ a with device := d.issue (.clearRenderTarget new .transparent) } : Assets).setOwned name
      { o with targets := o.targets.set gamma (some new) }).Keeps n t c := by
  obtain ⟨hnew, -⟩ := Device.made_of_createRenderTargetView hcreate
  have hcreated : a.device.Spares (Device.createRenderTargetView o.resource format)
      fun view ↦ a.device.lastId < view.id := Device.Spares.create
  obtain ⟨hspared, hlater⟩ := hcreated a.device (Device.Spared.refl _)
  rw [hcreate] at hspared hlater
  have htexture : d.get? t = a.device.get? t := hspared.get? (ht.trans hn)
  have htarget {view : Handle .renderTargetView} :
      (d.issue (.clearRenderTarget new .transparent)).get? view = d.get? view :=
    Device.get?_clear_of_ne hnew _ nofun
  -- a view that was opened before still is
  have hbefore {view : Handle .renderTargetView} {format' : Format} (hopens : a.Opens n t view)
      (hview : a.device.get? view = some ⟨t, format'⟩) :
      (a.setOwned name { o with targets := o.targets.set gamma (some new) }).Opens n t view ∧
        (d.issue (.clearRenderTarget new .transparent)).get? view = some ⟨t, format'⟩ :=
    ⟨hopens.grows hgrow, htarget.trans ((hspared.get? (hopens.id_le hs)).trans hview)⟩
  by_cases hsame : o.resource = t
  · subst hsame
    have hopened := opens_setOwned_self hfind (hn.trans_lt (hlater new rfl))
      (o := { o with targets := o.targets.set gamma (some new) }) (Variants.pick_set_self _ _ _)
    have hget : (d.issue (.clearRenderTarget new .transparent)).get? o.resource
        = (a.device.get? o.resource).map fun c ↦ c.fill (Color.transparent.encode format) :=
      (Device.get?_clear_self hnew _).trans (by rw [htexture])
    rcases h with ⟨hc, -⟩ | ⟨view, format', hopens, hview, hc⟩ <;> rw [hc] at hget
    · exact Or.inr ⟨new, format, hopened, htarget.trans hnew, hget⟩
    · rcases c.fill_fill (Color.transparent.encode format') (Color.transparent.encode format) with
        hfill | hfill <;> rw [Option.map_some, hfill] at hget
      · exact Or.inr ⟨new, format, hopened, htarget.trans hnew, hget⟩
      · obtain ⟨hopens', hview'⟩ := hbefore hopens hview
        exact Or.inr ⟨view, format', hopens', hview', hget⟩
  · have hget : (d.issue (.clearRenderTarget new .transparent)).get? t = a.device.get? t :=
      (Device.get?_clear_of_ne hnew _ fun heq ↦ hsame (Handle.ref_inj.mp heq)).trans htexture
    rcases h with ⟨hc, hclosed⟩ | ⟨view, format', hopens, hview, hc⟩
    · refine Or.inl ⟨hget.trans hc, fun view hopens ↦ ?_⟩
      rcases Opens.of_setOwned hopens with hopens | ⟨hresource, -⟩
      · exact hclosed view hopens
      · exact hsame hresource
    · obtain ⟨hopens', hview'⟩ := hbefore hopens hview
      exact Or.inr ⟨view, format', hopens', hview', hget.trans hc⟩

theorem Touches.keeps (h : a.Touches a') (hs : a.Sound) (hn : n ≤ a.device.lastId) (ht : t.id ≤ n)
    (hkeeps : a.Keeps n t c) : a'.Keeps n t c := by
  cases h with
  | device h =>
    exact hkeeps.device hs (h.get? rfl (ht.trans hn)) fun view hid ↦ h.get? rfl hid
  | cache h _ => exact hkeeps.imp (fun h ↦ ⟨h.get?, h.closed⟩) fun h ↦ h
  | @draw name gamma u o o' d view hfind howned run =>
    rcases o.target_cases name gamma a.device with ⟨v, -, hrun⟩ | ⟨-, e, hrun⟩ |
      ⟨-, format, -, ⟨cause, e, d₁, -, hrun⟩ | ⟨v, d₁, hcreate, hrun⟩⟩ <;>
      cases run.symm.trans hrun
    · change (a.setOwned name o).Keeps n t c
      rwa [setOwned_self hs.names hfind howned]
    · obtain ⟨hgrows, -⟩ := (Touches.draw hfind howned run).toExtends hs
      exact hkeeps.draw hs hn ht hfind hgrows.textures hcreate

theorem Builds.keeps (h : a.Builds a') (hs : a.Sound) (hn : n ≤ a.device.lastId) (ht : t.id ≤ n)
    (hkeeps : a.Keeps n t c) : a'.Keeps n t c := by
  induction h with
  | refl => exact hkeeps
  | tail hbefore hlast ih =>
    obtain ⟨hgrows, hs₁⟩ := Builds.toExtends hbefore hs
    exact hlast.keeps hs₁ (hn.trans hgrows.device.lastId_le) ht ih

theorem Intact.register (h : a.Intact n t c) (index : Nat) (decls : List TextureDecl) :
    ({ a with textures := registerTextures index decls a.textures } : Assets).Intact n t c := by
  refine ⟨h.get?, fun view ⟨hlater, entry', hentry', o, howned, hrest⟩ ↦ ?_⟩
  obtain ⟨entry, hentry, -, howned⟩ := owned_of_mem_registerTextures hentry' howned
  exact h.closed view ⟨hlater, entry, hentry, o, howned, hrest⟩

theorem Intact.materialize {index : Nat} {outcome : Except EngineError (List TableTexture)}
    {d : Device} (h : a.Intact n t c) (hn : n ≤ a.device.lastId) (ht : t.id ≤ n)
    (run : materialize index a.textures a.device = (outcome, d)) :
    ({ a with device := d } : Assets).Intact n t c ∧
      ∀ textures, outcome = .ok textures →
        ({ a with device := d, textures } : Assets).Intact n t c := by
  obtain ⟨hspared, hentries⟩ :=
    spares_materialize a.device index a.textures a.device (Device.Spared.refl _)
  rw [run] at hspared hentries
  have hget : d.get? t = some c := (hspared.get? (ht.trans hn)).trans h.get?
  refine ⟨⟨hget, h.closed⟩, fun textures hok ↦ ⟨hget, ?_⟩⟩
  rintro view ⟨hlater, entry', hentry', o, howned, rfl, hpick⟩
  obtain ⟨entry, hentry, rfl | ⟨o', rfl, hnew⟩⟩ :=
    exists_of_forall₂_right (hentries textures hok) hentry'
  · exact h.closed view ⟨hlater, _, hentry, o, howned, rfl, hpick⟩
  · cases howned
    exact Nat.not_lt.mpr (ht.trans hn) (hnew _ List.mem_cons_self)

end Assets

/-! ## Operations -/

namespace Engine

variable {e : Engine} {index n : Nat} {t : Handle .texture} {c : Texture}

theorem touches_deactivate (e : Engine) (index : Nat) :
    e.device.Touches (e.deactivate index).device := by
  refine Device.Touches.release fun r hr ↦ ?_
  rcases List.mem_append.mp hr with hr | hr
  · obtain ⟨t, -, hr⟩ := List.mem_flatMap.mp hr
    obtain ⟨state, -, hr⟩ := List.mem_flatMap.mp hr
    obtain ⟨q, -, rfl⟩ := List.mem_map.mp hr
    rfl
  · obtain ⟨effect, -, hr⟩ := List.mem_flatMap.mp hr
    obtain ⟨objects, -, hr⟩ := List.mem_flatMap.mp hr
    rcases List.mem_append.mp hr with hr | hr
    · obtain ⟨x, -, rfl⟩ := List.mem_map.mp hr
      rfl
    · obtain ⟨x, -, rfl⟩ := List.mem_map.mp hr
      rfl

theorem BuildRun.tablesGrow {effect : Effect} {outcome : Except EngineError Unit} {e' : Engine}
    (h : e.BuildRun index effect outcome e') (hs : e.toAssets.Sound) :
    TablesGrow e.textures e'.textures := by
  rcases h.assets with hsame | ⟨result, d, hrun, hsame | ⟨textures, rfl, hbuilds⟩⟩
  · rw [hsame]
    exact TablesGrow.refl _
  · rw [hsame]
    exact TablesGrow.refl _
  · obtain ⟨hgrows, hs₁⟩ := extends_materialize hrun hs
    exact hgrows.textures.trans (hbuilds.toExtends hs₁).1.textures

theorem BuildRun.keeps {effect : Effect} {outcome : Except EngineError Unit} {e' : Engine}
    (h : e.BuildRun index effect outcome e') (hs : e.toAssets.Sound) (hn : n ≤ e.device.lastId)
    (ht : t.id ≤ n) (hintact : e.Intact n t c) : e'.toAssets.Keeps n t c := by
  rcases h.assets with hsame | ⟨result, d, hrun, hrest⟩
  · rw [hsame]
    exact Or.inl hintact
  · obtain ⟨hdevice, htextures⟩ := hintact.materialize hn ht hrun
    rcases hrest with hsame | ⟨textures, rfl, hbuilds⟩
    · rw [hsame]
      exact Or.inl hdevice
    · obtain ⟨hgrows, hs₁⟩ := extends_materialize hrun hs
      exact hbuilds.keeps hs₁ (hn.trans hgrows.device.lastId_le) ht (Or.inl (htextures _ rfl))

theorem tablesGrow_activate (hs : e.toAssets.Sound) (index : Nat) :
    TablesGrow e.textures (e.activate index).2.textures := by
  rcases heffect : e.effect? index with _ | effect
  · rw [activate, heffect]
    exact TablesGrow.refl _
  · rw [assets_activate heffect]
    exact (e.build_run index effect).tablesGrow hs

theorem keeps_activate (hs : e.toAssets.Sound) (hn : n ≤ e.device.lastId) (ht : t.id ≤ n)
    (hintact : e.Intact n t c) (index : Nat) : (e.activate index).2.toAssets.Keeps n t c := by
  rcases heffect : e.effect? index with _ | effect
  · rw [activate, heffect]
    exact Or.inl hintact
  · rw [assets_activate heffect]
    exact (e.build_run index effect).keeps hs hn ht hintact

def Retains (e e' : Engine) : Prop :=
  ∀ entry ∈ e.textures, ∃ entry' ∈ e'.textures, entry.Grows entry'

theorem retains_load (htables : e.Tables) (m : EffectModule) : e.Retains (e.load m).2 := by
  intro entry hentry
  rcases e.load_cases m with ⟨-, hrun⟩ | ⟨-, hrun⟩ <;> rw [hrun]
  · exact ⟨entry, hentry, TableTexture.Grows.refl entry⟩
  · have hgrow := tablesGrow_activate (htables.registered m.reserveSlots).assets e.effects.length
    obtain ⟨entry₁, hentry₁, hgrows₁⟩ :=
      exists_of_mem_registerTextures e.effects.length m.reserveSlots.textures hentry
    obtain ⟨entry₂, hentry₂, hgrows₂⟩ := exists_of_forall₂_left hgrow hentry₁
    exact ⟨entry₂, hentry₂, hgrows₁.trans hgrows₂⟩

theorem retains_reload (htables : e.Tables) (index : Nat) : e.Retains (e.reload index).2 := by
  rcases htables.reload_cases index with ⟨-, hrun⟩ | ⟨effect, -, hrun⟩ <;> rw [hrun]
  · exact fun entry hentry ↦ ⟨entry, hentry, TableTexture.Grows.refl entry⟩
  · exact fun entry hentry ↦ exists_of_forall₂_left
      (tablesGrow_activate (htables.deactivated index).assets index) hentry

theorem keeps_load (htables : e.Tables) (hn : n ≤ e.device.lastId) (ht : t.id ≤ n)
    (hintact : e.Intact n t c) (m : EffectModule) : (e.load m).2.toAssets.Keeps n t c := by
  rcases e.load_cases m with ⟨-, hrun⟩ | ⟨-, hrun⟩ <;> rw [hrun]
  · exact Or.inl hintact
  · exact keeps_activate (htables.registered m.reserveSlots).assets hn ht
      (hintact.register e.effects.length _) e.effects.length

theorem keeps_reload (htables : e.Tables) (hn : n ≤ e.device.lastId) (ht : t.id ≤ n)
    (hintact : e.Intact n t c) (index : Nat) : (e.reload index).2.toAssets.Keeps n t c := by
  rcases htables.reload_cases index with ⟨-, hrun⟩ | ⟨effect, -, hrun⟩ <;> rw [hrun]
  · exact Or.inl hintact
  · have htouches := e.touches_deactivate index
    have hdeactivated : (e.deactivate index).Intact n t c :=
      ⟨(htouches.get? rfl (ht.trans hn)).trans hintact.get?, hintact.closed⟩
    exact keeps_activate (htables.deactivated index).assets
      (hn.trans htouches.upholds.evolves.lastId_le) ht hdeactivated index

end Engine

namespace Session

/-- **Loading leaves textures alone, except that views to draw into them clear them.** Whatever
comes of loading or reloading an effect, what was in the texture table is there still, and so is
every texture of the device. Its texels are what they were, unless a view to draw into it was
created on the way. -/
theorem Reachable.intact_or_cleared {allowed : Session → Event → Prop} {s : Session}
    (hs : s.Reachable allowed) {event : Event} {index : Nat}
    (hevent : event.activates s = some index) :
    s.engine.Retains (s.step event).engine ∧ ∀ t c, s.device.get? t = some c →
      (s.step event).engine.Intact s.device.lastId t c ∨
        (s.step event).engine.Cleared s.device.lastId t c := by
  have hintact {t : Handle .texture} {c : Texture} (hget : s.device.get? t = some c) :
      s.engine.Intact s.device.lastId t c := Assets.intact_of_get? hs.tables.assets hget
  have hid {t : Handle .texture} {c : Texture} (hget : s.device.get? t = some c) :
      t.id ≤ s.device.lastId := hs.numbered.id_le hget
  cases event with
  | load m =>
    exact ⟨Engine.retains_load hs.tables m, fun t c hget ↦
      Engine.keeps_load hs.tables (Nat.le_refl _) (hid hget) (hintact hget) m⟩
  | reload i =>
    exact ⟨Engine.retains_reload hs.tables i, fun t c hget ↦
      Engine.keeps_reload hs.tables (Nat.le_refl _) (hid hget) (hintact hget) i⟩
  | _ => cases hevent

/-- An effect that failed has cleared a texture of another one: it created a view to draw into the
texture before it asked for a texture that there is not. -/
theorem cleared_small :
    let s := (small.step (.load (.single "show" [{ name := "canvas" }] [] []))).step
      (.upload "canvas" (Bytes.ofList [1, 2, 3, 4]))
    let m := EffectModule.single "paint" [] [] ["canvas", "nowhere"]
    (s.engine.load m).1.isOk = false ∧
      ∃ c : Texture, s.device.get? (⟨10⟩ : Handle .texture) = some c ∧
      c.mips = [Bytes.ofList [1, 2, 3, 4]] ∧
      (s.step (.load m)).engine.Cleared s.device.lastId ⟨10⟩ c ∧
      (s.step (.load m)).device.texels? ⟨10⟩ 0 = some (Bytes.ofList [0, 0, 0, 0]) := by
  intro s m
  have hs : s.Reachable Event.Lawful :=
    .step (.step (.step (.step (.start {} {}) trivial) trivial) trivial) trivial
  obtain ⟨c, hget⟩ : ∃ c, s.device.get? (⟨10⟩ : Handle .texture) = some c :=
    Option.isSome_iff_exists.mp (by decide +kernel)
  have hmips : ∀ c ∈ s.device.get? (⟨10⟩ : Handle .texture),
      c.mips = [Bytes.ofList [1, 2, 3, 4]] := by decide +kernel
  have hzero : (s.step (.load m)).device.texels? ⟨10⟩ 0 = some (Bytes.ofList [0, 0, 0, 0]) := by
    decide +kernel
  have hload : (Event.load m).activates s = some s.engine.effects.length := rfl
  obtain ⟨-, htextures⟩ := Reachable.intact_or_cleared hs hload
  refine ⟨by decide +kernel, c, hget, hmips c hget, ?_, hzero⟩
  -- a texture that were intact would have the texels that were uploaded
  refine (htextures ⟨10⟩ c hget).resolve_left fun hintact ↦ ?_
  have htexels : (s.step (.load m)).device.texels? ⟨10⟩ 0 = c.mips[0]? := by
    rw [Device.texels?, show (s.step (.load m)).device.get? ⟨10⟩ = some c from hintact.get?]
    rfl
  rw [hzero, hmips c hget] at htexels
  exact absurd htexels (by decide)

end Session

end EffectChain
