import EffectChain.Proofs.Created
import EffectChain.Proofs.Filtered
import Mathlib.Data.List.Pairwise

/-!
# What activation makes of the textures in the table

An entry of the texture table stands for texels even before it has a texture: for the zeros that the
texture would be made of (`TableTexture.content?`). Seen like this, activation does one thing to an
entry, however it ends. If it creates views to draw into variants that had none, it zeroes the first
level (`TableTexture.Develops`).

Zeroing twice is zeroing once, and a view that was created stays. So the texels that an entry ends
with do not depend on how many attempts it took to create its views, only on which there are in the
end. Textures that are not in the table are left alone (`Assets.Develops`).
-/

namespace EffectChain

open Assets (Builds)

/-! ## Zeroed textures -/

namespace Texture

/-- The texture with its first level zeroed. -/
def zeroed (c : Texture) : Texture := c.withBase (Bytes.zeros c.base.size)

theorem zeroed_zeroed (c : Texture) : c.zeroed.zeroed = c.zeroed := by
  obtain ⟨desc, mips⟩ := c
  cases mips <;> simp [zeroed, withBase, base]

/-- Transparent black zeroes the first level, if the format has an encoding of it. -/
theorem fill_eq_zeroed {c : Texture} {f : Format}
    (h : (Color.transparent.encode f).length = c.desc.format.bytesPerTexel) :
    c.fill (Color.transparent.encode f) = c.zeroed := by
  rw [fill, if_pos h, zeroed, Bytes.tile_zeros (Color.encode_transparent f)]

end Texture

theorem TextureFormat.length_encode (t : TextureFormat) (gamma : Bool) (c : Color) :
    (c.encode (if gamma then t.deviceFormat.gamma else t.deviceFormat.linear)).length
      = t.deviceFormat.bytesPerTexel := by
  cases t <;> cases gamma <;> rfl

/-- A view that is created to draw into a texture zeroes its first level. -/
theorem OwnedTexture.Sound.fill_eq_zeroed {d : Device} {t : TextureDecl} {o : OwnedTexture}
    (h : o.Sound d t) {gamma : Bool} {format : Format}
    (hformat : o.targetFormat? d gamma = some format) {c : Texture}
    (hget : d.get? o.resource = some c) :
    c.fill (Color.transparent.encode format) = c.zeroed := by
  obtain ⟨c₀, hmake, hmade⟩ := h.made
  obtain ⟨levels, hdesc⟩ := Texture.desc_of_make hmake
  have halike : c.desc = c₀.desc := hmade.alike hget
  have hdevice : c.desc.format = t.format.deviceFormat := by
    rw [halike, hdesc]
    rfl
  rw [targetFormat?, Device.textureDesc?, hget, Option.map_some, Option.map_some, hdevice]
    at hformat
  cases hformat
  refine Texture.fill_eq_zeroed ?_
  rw [TextureFormat.length_encode, hdevice]

/-! ## Entries -/

namespace TableTexture

/-- The texture of the entry, or what it would be made as. -/
def content? (t : TableTexture) (d : Device) : Option Texture :=
  match t.owned with
  | none => (Texture.make t.decl.textureDesc).toOption
  | some o => d.get? o.resource

/-- The entry after some views to draw into it were created, and its texture if it had none. A
texture that is created has a number later than `n`. -/
structure Develops (n : Nat) (d d' : Device) (t t' : TableTexture) : Prop where
  /-- The declaration stays. -/
  decl : t'.decl = t.decl
  /-- The effects that declare it stay. -/
  effects : t'.effects = t.effects
  /-- The views stay. -/
  offers : ∀ gamma, t.offers gamma = true → t'.offers gamma = true
  /-- If none is new, the texels stay. -/
  kept : t'.offers = t.offers → t'.content? d' = t.content? d
  /-- If some are new, the first level is zeroed. -/
  zeroed : t'.offers ≠ t.offers → t'.content? d' = (t.content? d).map Texture.zeroed
  /-- The texture stays, or is created. -/
  resource : t'.resource? = t.resource? ∨
    t.resource? = none ∧ ∀ x, t'.resource? = some x → n < x.id

variable {n : Nat} {d d' : Device} {t : TableTexture}

theorem Develops.of_get? (n : Nat)
    (h : ∀ o, t.owned = some o → d'.get? o.resource = d.get? o.resource) :
    t.Develops n d d' t where
  decl := rfl
  effects := rfl
  offers _ := id
  kept _ := by
    rw [content?, content?]
    rcases howned : t.owned with _ | o
    · rfl
    · exact h o howned
  zeroed hne := absurd rfl hne
  resource := Or.inl rfl

protected theorem Develops.trans {d₁ d₂ d₃ : Device} {t₁ t₂ t₃ : TableTexture}
    (h₁₂ : t₁.Develops n d₁ d₂ t₂) (h₂₃ : t₂.Develops n d₂ d₃ t₃) : t₁.Develops n d₁ d₃ t₃ where
  decl := h₂₃.decl.trans h₁₂.decl
  effects := h₂₃.effects.trans h₁₂.effects
  offers gamma h := h₂₃.offers gamma (h₁₂.offers gamma h)
  kept hsame := by
    -- what is there before and after is there in between
    have hmiddle : t₂.offers = t₁.offers := by
      funext gamma
      rw [Bool.eq_iff_iff]
      exact ⟨fun h ↦ hsame ▸ h₂₃.offers gamma h, h₁₂.offers gamma⟩
    rw [h₂₃.kept (hsame.trans hmiddle.symm), h₁₂.kept hmiddle]
  zeroed hne := by
    by_cases hfirst : t₂.offers = t₁.offers
    · rw [h₂₃.zeroed (hfirst ▸ hne), h₁₂.kept hfirst]
    · by_cases hsecond : t₃.offers = t₂.offers
      · rw [h₂₃.kept hsecond, h₁₂.zeroed hfirst]
      · rw [h₂₃.zeroed hsecond, h₁₂.zeroed hfirst, Option.map_map]
        exact congrArg (Option.map · _) (funext Texture.zeroed_zeroed)
  resource := by
    rcases h₁₂.resource with hsame | ⟨hnone, hlater⟩
    · exact hsame ▸ h₂₃.resource
    · refine Or.inr ⟨hnone, fun x hx ↦ ?_⟩
      rcases h₂₃.resource with hsame' | ⟨-, hlater'⟩
      · exact hlater x (hsame' ▸ hx)
      · exact hlater' x hx

end TableTexture

/-! ## Tables -/

namespace Assets

/-- The assets after attempts to activate effects, as far as objects are concerned whose number is
`n` at most. -/
structure Develops (n : Nat) (a a' : Assets) : Prop where
  /-- The entries of the texture table develop. -/
  textures : List.Forall₂ (TableTexture.Develops n a.device a'.device) a.textures a'.textures
  /-- Textures that are not in the table are left alone. -/
  others : ∀ {x : Handle .texture}, x.id ≤ n → x ∉ a.resources → a'.device.get? x = a.device.get? x
  /-- Views and states are left alone. -/
  get? : ∀ {kind : ObjectKind} {x : Handle kind}, kind.isPrivate = false → kind ≠ .texture →
    x.id ≤ n → a'.device.get? x = a.device.get? x

variable {a a' : Assets} {n : Nat}

theorem Develops.mem_resources (h : a.Develops n a') {x : Handle .texture} (hid : x.id ≤ n)
    (hx : x ∈ a'.resources) : x ∈ a.resources := by
  obtain ⟨t', ht', o, howned, rfl⟩ := Assets.mem_resources.mp hx
  obtain ⟨t, ht, hdevelops⟩ := exists_of_forall₂_right h.textures ht'
  have hresource : t'.resource? = some o.resource :=
    TableTexture.resource?_eq_some.mpr ⟨o, howned, rfl⟩
  rcases hdevelops.resource with hsame | ⟨-, hlater⟩
  · obtain ⟨o', howned', heq⟩ := TableTexture.resource?_eq_some.mp (hsame.symm.trans hresource)
    exact Assets.mem_resources.mpr ⟨t, ht, o', howned', heq⟩
  · exact absurd (hlater _ hresource) (Nat.not_lt.mpr hid)

protected theorem Develops.trans {a₁ a₂ a₃ : Assets} (h₁₂ : a₁.Develops n a₂)
    (h₂₃ : a₂.Develops n a₃) : a₁.Develops n a₃ where
  textures := forall₂_trans h₁₂.textures h₂₃.textures TableTexture.Develops.trans
  others hid hx :=
    (h₂₃.others hid fun hmem ↦ hx (h₁₂.mem_resources hid hmem)).trans (h₁₂.others hid hx)
  get? hprivate htexture hid :=
    (h₂₃.get? hprivate htexture hid).trans (h₁₂.get? hprivate htexture hid)

theorem Develops.of_get? {d : Device}
    (hold : ∀ t ∈ a.textures, ∀ o, t.owned = some o →
      d.get? o.resource = a.device.get? o.resource)
    (hget : ∀ {kind : ObjectKind} {x : Handle kind}, kind.isPrivate = false → x.id ≤ n →
      d.get? x = a.device.get? x) {states : StateObjects} :
    a.Develops n { a with device := d, states } where
  textures := List.forall₂_same.mpr fun t ht ↦ .of_get? n (hold t ht)
  others hid _ := hget rfl hid
  get? hprivate _ hid := hget hprivate hid

protected theorem Develops.refl (n : Nat) (a : Assets) : a.Develops n a :=
  .of_get? (fun _ _ _ _ ↦ rfl) fun _ _ ↦ rfl

theorem eq_of_resource_eq (hdistinct : a.resources.Nodup) {t u : TableTexture}
    (ht : t ∈ a.textures) (hu : u ∈ a.textures) {o o' : OwnedTexture} (howned : t.owned = some o)
    (howned' : u.owned = some o') (heq : o.resource = o'.resource) : t = u := by
  by_contra hne
  have hpairwise := List.pairwise_filterMap.mp hdistinct
  have hsymm : Std.Symm fun t u : TableTexture ↦
      ∀ x, t.resource? = some x → ∀ y, u.resource? = some y → x ≠ y :=
    ⟨fun t u h x hx y hy hxy ↦ h y hy x hx hxy.symm⟩
  exact hpairwise.forall ht hu hne o.resource
    (TableTexture.resource?_eq_some.mpr ⟨o, howned, rfl⟩) o'.resource
    (TableTexture.resource?_eq_some.mpr ⟨o', howned', rfl⟩) heq

/-- A view to draw into a texture is created, and recorded with the entry of the texture. -/
theorem Develops.draw (hs : a.Sound) (hdistinct : a.resources.Nodup) {name : String} {gamma : Bool}
    {t : TableTexture} {o : OwnedTexture} {format : Format} {d : Device}
    {view : Handle .renderTargetView} (hfind : a.texture? name = some t)
    (howned : t.owned = some o) (hpick : o.targets.pick gamma = none)
    (hformat : o.targetFormat? a.device gamma = some format) (hn : n ≤ a.device.lastId)
    (hcreate : Device.createRenderTargetView o.resource format a.device = (.ok view, d)) :
    a.Develops n (({ a with
      device := d.issue (.clearRenderTarget view .transparent) } : Assets).setOwned name
        { o with targets := o.targets.set gamma (some view) }) := by
  obtain ⟨ht, hname⟩ := mem_of_texture? hfind
  have hsound := hs.owned t ht o howned
  obtain ⟨hnew, -⟩ := Device.made_of_createRenderTargetView hcreate
  have helsewhere {kind : ObjectKind} {x : Handle kind} (hid : x.id ≤ a.device.lastId)
      (hapart : o.resource.ref ≠ x.ref) :
      (d.issue (.clearRenderTarget view .transparent)).get? x = a.device.get? x :=
    (Device.get?_clear_of_ne hnew _ hapart).trans (Device.get?_of_created hcreate hid)
  refine ⟨?_, fun hid hx ↦ helsewhere (hid.trans hn) fun heq ↦ hx ?_,
    fun _ htexture hid ↦ helsewhere (hid.trans hn) fun heq ↦ htexture ?_⟩
  · refine forall₂_setOwned hs.names hfind (fun u hu hne ↦ .of_get? n fun o₁ howned₁ ↦ ?_) ?_
    · refine helsewhere (hs.owned u hu o₁ howned₁).given fun heq ↦ hne ?_
      obtain rfl := eq_of_resource_eq hdistinct ht hu howned howned₁ (Handle.ref_inj.mp heq)
      exact hname
    · have hfresh : t.offers gamma = false := by
        rw [TableTexture.offers, howned, Option.bind_some, hpick]
        rfl
      have hopened : TableTexture.offers
          { t with owned := some { o with targets := o.targets.set gamma (some view) } } gamma
            = true := by
        rw [TableTexture.offers, Option.bind_some, Variants.pick_set_self]
        rfl
      refine ⟨rfl, rfl, fun gamma' hoffers ↦ ?_, fun heq ↦ ?_, fun _ ↦ ?_, Or.inl ?_⟩
      · rcases Bool.eq_or_eq_not gamma' gamma with rfl | rfl
        · exact hopened
        · rw [TableTexture.offers, Option.bind_some, Variants.pick_set_other]
          rwa [TableTexture.offers, howned, Option.bind_some] at hoffers
      · cases hfresh.symm.trans ((congrFun heq gamma).symm.trans hopened)
      · have hcontent : t.content? a.device = a.device.get? o.resource := by
          rw [TableTexture.content?, howned]
        rw [hcontent]
        refine (Device.get?_clear_self hnew _).trans ?_
        rw [Device.get?_of_created hcreate hsound.given]
        rcases hget : a.device.get? o.resource with _ | c
        · rfl
        · exact congrArg some (hsound.fill_eq_zeroed hformat hget)
      · rw [TableTexture.resource?, TableTexture.resource?, howned]
        rfl
  · exact Assets.mem_resources.mpr ⟨t, ht, o, howned, Handle.ref_inj.mp heq⟩
  · exact (congrArg ObjectRef.kind heq).symm

theorem Touches.develops (h : a.Touches a') (hs : a.Sound) (hdistinct : a.resources.Nodup)
    (hn : n ≤ a.device.lastId) : a.Develops n a' := by
  cases h with
  | device h =>
    exact .of_get? (fun t ht o howned ↦ h.get? rfl (hs.owned t ht o howned).given)
      fun hprivate hid ↦ h.get? hprivate (hid.trans hn)
  | cache h _ => exact .of_get? (fun _ _ _ _ ↦ rfl) fun _ _ ↦ rfl
  | @draw name gamma t o o' d view hfind howned run =>
    rcases o.target_cases name gamma a.device with ⟨v, -, hrun⟩ | ⟨-, e, hrun⟩ |
      ⟨hpick, format, hformat, ⟨cause, e, d₁, -, hrun⟩ | ⟨v, d₁, hcreate, hrun⟩⟩ <;>
      cases run.symm.trans hrun
    · rw [setOwned_self hs.names hfind howned]
      exact Develops.refl n a
    · exact .draw hs hdistinct hfind howned hpick hformat hn hcreate

theorem Builds.develops (h : a.Builds a') (hs : a.Sound) (hdistinct : a.resources.Nodup)
    (hn : n ≤ a.device.lastId) : a.Develops n a' := by
  induction h with
  | refl => exact Develops.refl n a
  | tail hbefore hlast ih =>
    obtain ⟨-, hs₁⟩ := Builds.toExtends hbefore hs
    have hdistinct₁ := (Builds.resources hbefore hs).symm ▸ hdistinct
    exact ih.trans (hlast.develops hs₁ hdistinct₁ (hn.trans (Builds.evolves hbefore).lastId_le))

end Assets

/-! ## Attempts to activate an effect -/

theorem Assets.Develops.materialize {a : Assets} {index n : Nat} {textures : List TableTexture}
    {d : Device} (hs : a.Sound) (hn : n ≤ a.device.lastId)
    (run : EffectChain.materialize index a.textures a.device = (.ok textures, d)) :
    a.Develops n { a with device := d, textures } := by
  have hspared := spared_of_materialize run
  refine ⟨?_, fun hid _ ↦ hspared.get? (hid.trans hn), fun _ _ hid ↦ hspared.get? (hid.trans hn)⟩
  have hold : List.Forall₂ (fun t u ↦ u = t ∧ t.Develops n a.device d t) a.textures a.textures :=
    List.forall₂_same.mpr fun t ht ↦
      ⟨rfl, .of_get? n fun o howned ↦ hspared.get? (hs.owned t ht o howned).given⟩
  refine forall₂_trans hold (created_of_materialize run) fun {t u t'} ↦ ?_
  rintro ⟨rfl, hsame⟩ (⟨-, rfl⟩ | ⟨hawaits, o, rfl, hlater, -, c, hpristine⟩)
  · exact hsame
  · have hnone := TableTexture.not_owned_of_awaits hawaits
    have hoffers : TableTexture.offers { u with owned := some o } = u.offers := by
      funext gamma
      rw [TableTexture.offers, TableTexture.offers, hnone, Option.bind_some, hpristine.targets]
      cases gamma <;> rfl
    refine ⟨rfl, rfl, fun gamma h ↦ hoffers.symm ▸ h, fun _ ↦ ?_, fun hne ↦ absurd hoffers hne,
      Or.inr ⟨?_, fun x hx ↦ ?_⟩⟩
    · rw [TableTexture.content?, TableTexture.content?, hnone]
      dsimp only
      rw [hpristine.get?, hpristine.make]
      rfl
    · rw [TableTexture.resource?, hnone]
      rfl
    · cases hx
      exact hn.trans_lt hlater

/-- **What there was develops** in an attempt to activate an effect, however it ends. -/
theorem Engine.develops_activate {e : Engine} {index n : Nat} (hs : e.toAssets.Sound)
    (hdistinct : (e.activate index).2.resources.Nodup) (hn : n ≤ e.device.lastId) :
    e.toAssets.Develops n (e.activate index).2.toAssets := by
  rcases heffect : e.effect? index with _ | effect
  · rw [activate, heffect]
    exact Assets.Develops.refl n e.toAssets
  rw [e.assets_activate heffect] at hdistinct ⊢
  rcases (e.build_run index effect).assets with
    heq | ⟨result, d, hrun, heq | ⟨textures, rfl, hbuilds⟩⟩
  · rw [heq]
    exact Assets.Develops.refl n e.toAssets
  · rw [heq]
    have hspared := spared_of_materialize hrun
    exact .of_get? (fun t ht o howned ↦ hspared.get? (hs.owned t ht o howned).given)
      fun _ hid ↦ hspared.get? (hid.trans hn)
  · obtain ⟨-, hs'⟩ := extends_materialize hrun hs
    rw [hbuilds.resources hs'] at hdistinct
    exact (Assets.Develops.materialize hs hn hrun).trans
      (hbuilds.develops hs' hdistinct (hn.trans (spared_of_materialize hrun).lastId_le))

end EffectChain
