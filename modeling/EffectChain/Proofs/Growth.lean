import EffectChain.Proofs.Caches
import EffectChain.Proofs.Persistence
import Mathlib.Data.List.Forall2

/-!
# Assets only grow during activation

Whatever activation does, and however it ends, the texture table keeps its entries, an entry with
device objects keeps them and at most gains a view to draw into, cached states stay cached, and the
device evolves (`Assets.Grows`). What a pass record refers to in the assets at the time it is built
is therefore still there when activation is over.

The assets are *sound* if the names of the table differ, every texture was made from its declaration
and the views recorded with it are views of it, and cached states were made from their descriptors
(`Assets.Sound`). Activation keeps this too, and both are proved together, one step for
each way the assets are touched (`Assets.Extends`).
-/

namespace EffectChain

/-! ## Textures -/

/-- The handle was given out for a view of a texture. -/
def Device.Shows (d : Device) (v : Handle .shaderView) (t : Handle .texture) : Prop :=
  ∃ format, d.Made v ⟨t, format⟩

/-- The handle was given out for a view to draw into a texture. -/
def Device.Draws (d : Device) (v : Handle .renderTargetView) (t : Handle .texture) : Prop :=
  ∃ format, d.Made v ⟨t, format⟩

section Views

variable {d d' : Device} {t u : Handle .texture}

theorem Device.Shows.evolves {v : Handle .shaderView} (h : d.Shows v t) (hd : d.Evolves d') :
    d'.Shows v t :=
  h.imp fun _ hmade ↦ hmade.evolves hd

theorem Device.Shows.eq {v : Handle .shaderView} (h : d.Shows v t)
    (hu : d.viewTexture? v = some u) : u = t := by
  obtain ⟨format, hmade⟩ := h
  obtain ⟨view, hget, rfl⟩ := Option.map_eq_some_iff.mp hu
  exact congrArg View.texture (hmade.alike hget)

theorem Device.Draws.eq {v : Handle .renderTargetView} (h : d.Draws v t)
    (hu : d.targetTexture? v = some u) : u = t := by
  obtain ⟨format, hmade⟩ := h
  obtain ⟨view, hget, rfl⟩ := Option.map_eq_some_iff.mp hu
  exact congrArg View.texture (hmade.alike hget)

/-- A view that is created is one of the texture and in the format it was asked for. -/
theorem Device.made_of_createShaderView {format : Format} {levels : UInt32}
    {v : Handle .shaderView} (run : createShaderView t format levels d = (.ok v, d')) :
    d'.Made v ⟨t, format⟩ := by
  obtain ⟨refusals, view, hcontent, -, hmade⟩ := made_of_create run
  suffices hview : view = ⟨t, format⟩ from hview ▸ hmade
  simp only [bind, Except.bind] at hcontent
  split at hcontent
  · cases hcontent
  · repeat' split at hcontent
    all_goals cases hcontent
    all_goals rfl

theorem Device.shows_of_createShaderView {format : Format} {levels : UInt32}
    {v : Handle .shaderView} (run : createShaderView t format levels d = (.ok v, d')) :
    d'.Shows v t :=
  ⟨format, made_of_createShaderView run⟩

theorem Device.made_of_createRenderTargetView {format : Format} {v : Handle .renderTargetView}
    (run : createRenderTargetView t format d = (.ok v, d')) :
    d'.get? v = some ⟨t, format⟩ ∧ d'.Made v ⟨t, format⟩ := by
  obtain ⟨refusals, view, hcontent, hmade⟩ := made_of_create run
  suffices hview : view = ⟨t, format⟩ from hview ▸ hmade
  simp only [bind, Except.bind] at hcontent
  split at hcontent
  · cases hcontent
  · repeat' split at hcontent
    all_goals cases hcontent
    all_goals rfl

end Views

/-- The linear or the gamma-encoded variant of a format. -/
def Format.variant (f : Format) (gamma : Bool) : Format := if gamma then f.gamma else f.linear

/-- The description by which a declared texture is created. -/
def TextureDecl.textureDesc (t : TextureDecl) : TextureDesc :=
  { width := t.width, height := t.height, levels := t.levels, format := t.format.deviceFormat,
    usage := .effectTexture }

/-- The format in which a variant of the views of a declared texture shows it. -/
def TextureDecl.viewFormat (t : TextureDecl) (gamma : Bool) : Format :=
  t.format.deviceFormat.variant gamma

/-- The number of levels is settled when a texture is made, and nothing else. -/
theorem Texture.desc_of_make {desc : TextureDesc} {c : Texture} (h : make desc = .ok c) :
    ∃ levels, c.desc = { desc with levels } := by
  rw [make] at h
  generalize (if desc.levels = 0 then desc.fullLevels else desc.levels.toNat) = levels at h
  repeat' split at h
  all_goals cases h
  exact ⟨_, rfl⟩

namespace OwnedTexture

/-- The texture was made from the declaration, and the recorded views are views of it, in the
formats of the variants they stand for. -/
structure Sound (d : Device) (t : TextureDecl) (o : OwnedTexture) : Prop where
  /-- The texture was made from the declaration. -/
  made : ∃ c, Texture.make t.textureDesc = .ok c ∧ d.Made o.resource c
  /-- The views for shaders. -/
  shown : ∀ gamma, d.Made (o.views.pick gamma) ⟨o.resource, t.viewFormat gamma⟩
  /-- The views to draw into it. -/
  drawn : ∀ gamma view, o.targets.pick gamma = some view →
    d.Made view ⟨o.resource, t.viewFormat gamma⟩

/-- The texture with more views to draw into it. -/
structure Grows (o o' : OwnedTexture) : Prop where
  /-- It is the same texture. -/
  resource : o'.resource = o.resource
  /-- It has the same views for shaders. -/
  views : o'.views = o.views
  /-- A view to draw into it is never replaced. -/
  targets : ∀ gamma view, o.targets.pick gamma = some view → o'.targets.pick gamma = some view

theorem Sound.given {d : Device} {t : TextureDecl} {o : OwnedTexture} (h : o.Sound d t) :
    o.resource.id ≤ d.lastId := by
  obtain ⟨c, -, hmade⟩ := h.made
  exact hmade.id_le

theorem Sound.evolves {d d' : Device} {t : TextureDecl} {o : OwnedTexture} (h : o.Sound d t)
    (hd : d.Evolves d') : o.Sound d' t where
  made := by
    obtain ⟨c, hmake, hmade⟩ := h.made
    exact ⟨c, hmake, hmade.evolves hd⟩
  shown gamma := (h.shown gamma).evolves hd
  drawn gamma view hview := (h.drawn gamma view hview).evolves hd

theorem Sound.views {d : Device} {t : TextureDecl} {o : OwnedTexture} (h : o.Sound d t)
    (gamma : Bool) : d.Shows (o.views.pick gamma) o.resource :=
  ⟨_, h.shown gamma⟩

theorem Sound.targets {d : Device} {t : TextureDecl} {o : OwnedTexture} (h : o.Sound d t)
    (gamma : Bool) (view : Handle .renderTargetView) (hview : o.targets.pick gamma = some view) :
    d.Draws view o.resource :=
  ⟨_, h.drawn gamma view hview⟩

theorem Sound.format_eq {d : Device} {t : TextureDecl} {o : OwnedTexture} (h : o.Sound d t)
    {desc : TextureDesc} (hdesc : d.textureDesc? o.resource = some desc) :
    desc.format = t.format.deviceFormat := by
  obtain ⟨c, hmake, hmade⟩ := h.made
  obtain ⟨c', hget, rfl⟩ := Option.map_eq_some_iff.mp hdesc
  obtain ⟨levels, hc⟩ := Texture.desc_of_make hmake
  rw [show c'.desc = c.desc from hmade.alike hget, hc]
  rfl

protected theorem Grows.refl (o : OwnedTexture) : o.Grows o := ⟨rfl, rfl, fun _ _ ↦ id⟩

protected theorem Grows.trans {o₁ o₂ o₃ : OwnedTexture} (h₁₂ : o₁.Grows o₂) (h₂₃ : o₂.Grows o₃) :
    o₁.Grows o₃ where
  resource := h₂₃.resource.trans h₁₂.resource
  views := h₂₃.views.trans h₁₂.views
  targets gamma view hview := h₂₃.targets gamma view (h₁₂.targets gamma view hview)

theorem upholds_create (t : TextureDecl) : Steady Device.Upholds (create t) := by
  rw [create]
  dsimp only
  refine Steady.bind (Device.Upholds.createTexture _).named fun resource ↦ ?_
  refine Steady.keeping ?_ fun d ↦ Device.Upholds.release d _
  refine Steady.bind Steady.get fun d ↦ ?_
  refine Steady.bind (Device.Upholds.createShaderView _ _ _).named fun linear ↦ ?_
  refine Steady.keeping ?_ fun d ↦ Device.Upholds.release d _
  split
  · exact Steady.bind (Steady.pure _) fun gamma ↦ Steady.pure _
  · exact Steady.bind (Device.Upholds.createShaderView _ _ _).named fun gamma ↦ Steady.pure _

theorem sound_of_create {t : TextureDecl} {d d' : Device} {o : OwnedTexture}
    (run : create t d = (.ok o, d')) : o.Sound d' t := by
  rw [create] at run
  dsimp only at run
  obtain ⟨resource, d₁, hresource, run⟩ := bind_eq_ok run
  obtain ⟨_, c, hmake, -, hmade⟩ := Device.made_of_create (named_eq_ok hresource)
  obtain ⟨_, _, hget, run⟩ := bind_eq_ok (keeping_eq_ok run)
  cases hget
  obtain ⟨linear, d₂, hlinear, run⟩ := bind_eq_ok run
  have run := keeping_eq_ok run
  have hevolves₂ : d₁.Evolves d₂ := Device.Evolves.create.run (named_eq_ok hlinear)
  have hmade₂ := hmade.evolves hevolves₂
  have hshown := Device.made_of_createShaderView (named_eq_ok hlinear)
  -- there are no views to draw into yet
  have htargets : ∀ gamma view, (⟨none, none⟩ : Variants (Option (Handle .renderTargetView))).pick
      gamma = some view → d'.Made view ⟨resource, t.viewFormat gamma⟩ := by
    intro gamma view hview
    cases gamma <;> cases hview
  split at run
  · -- one view serves both variants
    rename_i hsame
    obtain ⟨gamma, d₃, hgamma, run⟩ := bind_eq_ok run
    cases hgamma
    cases run
    refine ⟨⟨c, hmake, hmade₂⟩, fun b ↦ ?_, htargets⟩
    cases b
    · exact hshown
    · rwa [← hsame] at hshown
  · obtain ⟨gamma, d₃, hgamma, run⟩ := bind_eq_ok run
    cases run
    have hevolves : d₂.Evolves d' := Device.Evolves.create.run (named_eq_ok hgamma)
    refine ⟨⟨c, hmake, hmade₂.evolves hevolves⟩, fun b ↦ ?_, htargets⟩
    cases b
    · exact hshown.evolves hevolves
    · exact Device.made_of_createShaderView (named_eq_ok hgamma)

/-- The format of a view to draw into the texture. -/
def targetFormat? (o : OwnedTexture) (d : Device) (gamma : Bool) : Option Format :=
  (d.textureDesc? o.resource).map fun desc ↦
    if gamma then desc.format.gamma else desc.format.linear

/-- A view to draw into the texture is the recorded one, or it is created and clears the texture, or
it cannot be created. -/
theorem target_cases (o : OwnedTexture) (name : String) (gamma : Bool) (d : Device) :
    (∃ view, o.targets.pick gamma = some view ∧ o.target name gamma d = (.ok (view, o), d)) ∨
    (o.targetFormat? d gamma = none ∧ ∃ e, o.target name gamma d = (.error e, d)) ∨
    o.targets.pick gamma = none ∧ ∃ format, o.targetFormat? d gamma = some format ∧ (
      (∃ cause e d', Device.createRenderTargetView o.resource format d = (.error cause, d') ∧
        o.target name gamma d = (.error e, d')) ∨
      ∃ view d', Device.createRenderTargetView o.resource format d = (.ok view, d') ∧
        o.target name gamma d
          = (.ok (view, { o with targets := o.targets.set gamma (some view) }),
              d'.issue (.clearRenderTarget view .transparent))) := by
  rw [target, targetFormat?]
  rcases hpick : o.targets.pick gamma with _ | view
  · dsimp only
    rw [run_bind, run_get]
    dsimp only
    rcases d.textureDesc? o.resource with _ | desc
    · exact Or.inr (Or.inl ⟨rfl, _, rfl⟩)
    · refine Or.inr (Or.inr ⟨rfl, if gamma then desc.format.gamma else desc.format.linear, rfl, ?_⟩)
      dsimp only
      rw [run_bind, run_named]
      rcases Device.createRenderTargetView o.resource
          (if gamma then desc.format.gamma else desc.format.linear) d with ⟨cause | view, d'⟩
      · exact Or.inl ⟨cause, _, d', rfl, rfl⟩
      · exact Or.inr ⟨view, d', rfl, rfl⟩
  · exact Or.inl ⟨view, rfl, rfl⟩

theorem upholds_target (o : OwnedTexture) (name : String) (gamma : Bool) :
    Steady Device.Upholds (o.target name gamma) := by
  intro d
  rcases o.target_cases name gamma d with ⟨view, -, hrun⟩ | ⟨-, e, hrun⟩ |
    ⟨-, format, -, ⟨cause, e, d', hcreate, hrun⟩ | ⟨view, d', hcreate, hrun⟩⟩ <;> rw [hrun]
  · exact Device.Upholds.refl d
  · exact Device.Upholds.refl d
  · exact (Device.Upholds.createRenderTargetView _ _).run hcreate
  · exact ((Device.Upholds.createRenderTargetView _ _).run hcreate).trans
      (Device.Upholds.issue d' _)

theorem target_eq_ok {o o' : OwnedTexture} {name : String} {gamma : Bool} {d d' : Device}
    {view : Handle .renderTargetView} (run : o.target name gamma d = (.ok (view, o'), d')) :
    o.Grows o' ∧ o'.targets.pick gamma = some view ∧ ∀ t, o.Sound d t → o'.Sound d' t := by
  have hevolves := ((upholds_target o name gamma).run run).evolves
  rcases o.target_cases name gamma d with ⟨v, hpick, hrun⟩ | ⟨-, e, hrun⟩ |
    ⟨hpick, format, hformat, ⟨cause, e, d₁, hcreate, hrun⟩ | ⟨v, d₁, hcreate, hrun⟩⟩ <;>
    cases run.symm.trans hrun
  · exact ⟨Grows.refl o, hpick, fun _ h ↦ h⟩
  · have hnew := (Device.made_of_createRenderTargetView hcreate).2
    refine ⟨⟨rfl, rfl, fun b w hw ↦ ?_⟩, Variants.pick_set_self _ _ _,
      fun t hsound ↦ ⟨(hsound.evolves hevolves).made, (hsound.evolves hevolves).shown,
        fun b w hw ↦ ?_⟩⟩
    · rcases Bool.eq_or_eq_not b gamma with rfl | rfl
      · -- the wanted variant had no view that could be replaced
        cases hpick.symm.trans hw
      · exact (Variants.pick_set_other _ _ _).trans hw
    · rcases Bool.eq_or_eq_not b gamma with rfl | rfl
      · rw [Variants.pick_set_self] at hw
        cases hw
        obtain ⟨desc, hdesc, rfl⟩ := Option.map_eq_some_iff.mp hformat
        rw [hsound.format_eq hdesc] at hnew
        exact hnew.evolves (Device.Evolves.issue d₁ _)
      · rw [Variants.pick_set_other] at hw
        exact (hsound.evolves hevolves).drawn _ w hw

end OwnedTexture

/-! ## The assets -/

/-- The entry with more device objects. -/
structure TableTexture.Grows (t t' : TableTexture) : Prop where
  /-- The declaration stays. -/
  decl : t'.decl = t.decl
  /-- The effects that declare it stay. -/
  effects : t.effects ⊆ t'.effects
  /-- Its device objects stay. -/
  owned : ∀ o, t.owned = some o → ∃ o', t'.owned = some o' ∧ o.Grows o'

namespace TableTexture.Grows

protected theorem refl (t : TableTexture) : t.Grows t :=
  ⟨rfl, List.Subset.refl _, fun o ho ↦ ⟨o, ho, OwnedTexture.Grows.refl o⟩⟩

protected theorem trans {t₁ t₂ t₃ : TableTexture} (h₁₂ : t₁.Grows t₂) (h₂₃ : t₂.Grows t₃) :
    t₁.Grows t₃ where
  decl := h₂₃.decl.trans h₁₂.decl
  effects := List.Subset.trans h₁₂.effects h₂₃.effects
  owned o ho := by
    obtain ⟨o₂, ho₂, hgrows₂⟩ := h₁₂.owned o ho
    obtain ⟨o₃, ho₃, hgrows₃⟩ := h₂₃.owned o₂ ho₂
    exact ⟨o₃, ho₃, hgrows₂.trans hgrows₃⟩

theorem name {t t' : TableTexture} (h : t.Grows t') : t'.decl.name = t.decl.name := by
  rw [h.decl]

end TableTexture.Grows

section Forall₂

variable {α β : Type} {R : α → β → Prop} {l : List α} {l' : List β}

theorem exists_of_forall₂_left (h : List.Forall₂ R l l') {a : α} (ha : a ∈ l) :
    ∃ b ∈ l', R a b := by
  induction h with
  | nil => cases ha
  | cons hR _ ih =>
    rcases List.mem_cons.mp ha with rfl | ha
    · exact ⟨_, List.mem_cons_self, hR⟩
    · obtain ⟨b, hb, hR'⟩ := ih ha
      exact ⟨b, List.mem_cons_of_mem _ hb, hR'⟩

theorem exists_of_forall₂_right (h : List.Forall₂ R l l') {b : β} (hb : b ∈ l') :
    ∃ a ∈ l, R a b :=
  exists_of_forall₂_left h.flip hb

theorem forall₂_trans {γ : Type} {S : β → γ → Prop} {T : α → γ → Prop} {l'' : List γ}
    (h : List.Forall₂ R l l') (h' : List.Forall₂ S l' l'')
    (htrans : ∀ {a b c}, R a b → S b c → T a c) : List.Forall₂ T l l'' := by
  induction h generalizing l'' with
  | nil =>
    cases h'
    exact List.Forall₂.nil
  | cons hR _ ih =>
    rcases h' with _ | ⟨hS, hrest⟩
    exact List.Forall₂.cons (htrans hR hS) (ih hrest)

theorem map_eq_of_forall₂ {γ : Type} {f : α → γ} {g : β → γ}
    (h : List.Forall₂ (fun a b ↦ g b = f a) l l') : l'.map g = l.map f := by
  rw [← List.forall₂_eq_eq_eq, List.forall₂_map_left_iff, List.forall₂_map_right_iff]
  exact h.flip

end Forall₂

/-- The table with entries that have more device objects. -/
def TablesGrow (textures textures' : List TableTexture) : Prop :=
  List.Forall₂ TableTexture.Grows textures textures'

namespace TablesGrow

protected theorem refl (textures : List TableTexture) : TablesGrow textures textures :=
  List.forall₂_same.mpr fun t _ ↦ TableTexture.Grows.refl t

protected theorem trans {ts₁ ts₂ ts₃ : List TableTexture} (h₁₂ : TablesGrow ts₁ ts₂)
    (h₂₃ : TablesGrow ts₂ ts₃) : TablesGrow ts₁ ts₃ :=
  forall₂_trans h₁₂ h₂₃ TableTexture.Grows.trans

theorem map_name {ts ts' : List TableTexture} (h : TablesGrow ts ts') :
    ts'.map (·.decl.name) = ts.map (·.decl.name) :=
  map_eq_of_forall₂ (h.imp fun _ _ hgrows ↦ hgrows.name)

end TablesGrow

namespace Assets

/-- The assets with more state objects and more views to draw into textures. -/
structure Grows (a a' : Assets) : Prop where
  /-- The device evolves. -/
  device : a.device.Evolves a'.device
  /-- Cached states stay. -/
  states : a.states.Grows a'.states
  /-- Entries of the texture table stay. -/
  textures : TablesGrow a.textures a'.textures

/-- The texture table and the caches are what they seem to be. -/
structure Sound (a : Assets) : Prop where
  /-- The names of the table differ. -/
  names : (a.textures.map (·.decl.name)).Nodup
  /-- The textures are what is declared, and the recorded views are views of them. -/
  owned : ∀ t ∈ a.textures, ∀ o, t.owned = some o → o.Sound a.device t.decl
  /-- Cached states are what their descriptors say. -/
  states : a.states.Sound a.device

namespace Grows

protected theorem refl (a : Assets) : a.Grows a where
  device := Device.Evolves.refl _
  states := StateObjects.Grows.refl _
  textures := TablesGrow.refl _

protected theorem trans {a₁ a₂ a₃ : Assets} (h₁₂ : a₁.Grows a₂) (h₂₃ : a₂.Grows a₃) :
    a₁.Grows a₃ where
  device := h₁₂.device.trans h₂₃.device
  states := h₁₂.states.trans h₂₃.states
  textures := h₁₂.textures.trans h₂₃.textures

end Grows

/-- The entry of a name is the one whose device objects are replaced. -/
theorem forall₂_setOwned {a : Assets} {name : String} {t : TableTexture} {o : OwnedTexture}
    {R : TableTexture → TableTexture → Prop} (hnames : (a.textures.map (·.decl.name)).Nodup)
    (hfind : a.texture? name = some t) (hother : ∀ u ∈ a.textures, u.decl.name ≠ name → R u u)
    (hentry : R t { t with owned := some o }) :
    List.Forall₂ R a.textures (a.setOwned name o).textures := by
  obtain ⟨hmem, hname⟩ := mem_of_texture? hfind
  refine List.forall₂_map_right_iff.mpr (List.forall₂_same.mpr fun u hu ↦ ?_)
  split
  · rename_i huname
    obtain rfl : u = t := List.inj_on_of_nodup_map hnames hu hmem (huname.trans hname.symm)
    exact hentry
  · rename_i huname
    exact hother u hu huname

/-- From sound assets, the assets have grown and are sound again. -/
def Extends (a a' : Assets) : Prop := a.Sound → a.Grows a' ∧ a'.Sound

namespace Extends

protected theorem refl (a : Assets) : a.Extends a := fun hs ↦ ⟨Grows.refl a, hs⟩

protected theorem trans {a₁ a₂ a₃ : Assets} (h₁₂ : a₁.Extends a₂) (h₂₃ : a₂.Extends a₃) :
    a₁.Extends a₃ := by
  intro hs₁
  obtain ⟨hgrows₂, hs₂⟩ := h₁₂ hs₁
  obtain ⟨hgrows₃, hs₃⟩ := h₂₃ hs₂
  exact ⟨hgrows₂.trans hgrows₃, hs₃⟩

instance : Std.Refl Extends := ⟨Extends.refl⟩

instance : IsTrans Assets Extends := ⟨fun _ _ _ ↦ Extends.trans⟩

/-! Three ways in which the assets are touched. -/

theorem of_device {a : Assets} {d : Device} (h : a.device.Evolves d) :
    a.Extends { a with device := d } := fun hs ↦
  ⟨⟨h, StateObjects.Grows.refl _, TablesGrow.refl _⟩,
    ⟨hs.names, fun t ht o ho ↦ (hs.owned t ht o ho).evolves h, hs.states.evolves h⟩⟩

theorem of_states {a : Assets} {states : StateObjects} (h : a.states.Grows states)
    (hsound : a.states.Sound a.device → states.Sound a.device) :
    a.Extends { a with states } := fun hs ↦
  ⟨⟨Device.Evolves.refl _, h, TablesGrow.refl _⟩, ⟨hs.names, hs.owned, hsound hs.states⟩⟩

theorem of_setOwned {a : Assets} {name : String} {t : TableTexture} {o o' : OwnedTexture}
    (hfind : a.texture? name = some t) (howned : t.owned = some o) (hgrows : o.Grows o')
    (hsound : a.Sound → o'.Sound a.device t.decl) : a.Extends (a.setOwned name o') := by
  intro hs
  have htextures : TablesGrow a.textures (a.setOwned name o').textures := by
    refine forall₂_setOwned hs.names hfind (fun u _ _ ↦ TableTexture.Grows.refl u)
      ⟨rfl, List.Subset.refl _, fun o₁ ho₁ ↦ ⟨o', rfl, ?_⟩⟩
    obtain rfl : o = o₁ := Option.some.inj (howned.symm.trans ho₁)
    exact hgrows
  refine ⟨⟨Device.Evolves.refl _, StateObjects.Grows.refl _, htextures⟩, ?_, ?_, hs.states⟩
  · rw [htextures.map_name]
    exact hs.names
  · intro u' hu' o₁ ho₁
    obtain ⟨u, hu, rfl⟩ := List.mem_map.mp hu'
    by_cases huname : u.decl.name = name
    · rw [if_pos huname] at ho₁
      obtain rfl : o' = o₁ := Option.some.inj ho₁
      obtain ⟨hmem, hname⟩ := mem_of_texture? hfind
      obtain rfl : u = t := List.inj_on_of_nodup_map hs.names hu hmem (huname.trans hname.symm)
      rw [if_pos huname]
      exact hsound hs
    · rw [if_neg huname] at ho₁ ⊢
      exact hs.owned u hu o₁ ho₁

end Extends

end Assets

end EffectChain
