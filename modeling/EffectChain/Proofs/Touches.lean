import EffectChain.Proofs.Growth
import Mathlib.Logic.Relation

/-!
# How activation touches the assets

Activation is a long sequence of steps, but each of them does one of four things: it tries to create
an object, releases objects that the effect alone would have used, joins a state to a cache, or
records a view to draw into a texture with the entry of that texture (`Assets.Touches`). Whatever is
reflexive and transitive and holds of the four holds of every run of such steps (`Assets.Builds`),
whether the activation succeeds or not.

Releasing is confined to private kinds of objects on purpose. It is what makes the rest of the
device out of reach: textures and views that were there before are there afterwards (`Builds.get?`),
with one thing that can happen to a texture, which is that a new view clears it.
-/

namespace EffectChain

open Relation (ReflTransGen)

/-- Objects of the kind are used by one effect and go with it. -/
def ObjectKind.isPrivate : ObjectKind → Bool
  | .shader | .buffer | .query => true
  | _ => false

/-- The entry with its device objects created, or with more of them. -/
structure TableTexture.Equips (t t' : TableTexture) : Prop where
  /-- The declaration stays. -/
  decl : t'.decl = t.decl
  /-- The effects that declare it stay. -/
  effects : t'.effects = t.effects
  /-- Device objects that it has stay. -/
  stays : t.owned.isSome → t'.owned.isSome
  /-- Only textures of the chain's own get device objects. -/
  reference : t'.owned.isSome → t.owned.isSome ∨ t.decl.reference = .owned

namespace TableTexture.Equips

protected theorem refl (t : TableTexture) : t.Equips t := ⟨rfl, rfl, id, Or.inl⟩

protected theorem trans {t₁ t₂ t₃ : TableTexture} (h₁₂ : t₁.Equips t₂) (h₂₃ : t₂.Equips t₃) :
    t₁.Equips t₃ where
  decl := h₂₃.decl.trans h₁₂.decl
  effects := h₂₃.effects.trans h₁₂.effects
  stays h := h₂₃.stays (h₁₂.stays h)
  reference h := (h₂₃.reference h).elim h₁₂.reference fun href ↦ Or.inr (h₁₂.decl ▸ href)

end TableTexture.Equips

/-! ## The device -/

namespace Device

/-- A step on the device alone. -/
inductive Touches (d : Device) : Device → Prop
  /-- A creation is tried, not of a texture. -/
  | create {kind : ObjectKind} (hkind : kind ≠ .texture)
    (content : Device → Except DeviceError kind.Content) :
    Touches d (Device.create kind content d).2
  /-- Private objects are released. -/
  | release {refs : List ObjectRef} (hprivate : ∀ r ∈ refs, r.kind.isPrivate) :
    Touches d (d.release refs)

abbrev Builds : Device → Device → Prop := ReflTransGen Touches

variable {d d' : Device}

theorem Touches.upholds (h : d.Touches d') : d.Upholds d' := by
  rcases h with ⟨hkind, content⟩ | _
  · exact Upholds.create hkind d
  · exact Upholds.release d _

theorem Touches.get? (h : d.Touches d') {kind : ObjectKind} (hkind : kind.isPrivate = false)
    {x : Handle kind} (hid : x.id ≤ d.lastId) : d'.get? x = d.get? x := by
  rcases h with ⟨-, content⟩ | hprivate
  · exact d.get?_create content hid
  · rw [get?_release, if_neg fun hmem ↦ ?_]
    have := hprivate _ hmem
    rw [show x.ref.kind = kind from rfl, hkind] at this
    cases this

theorem builds_create {kind : ObjectKind} (hkind : kind ≠ .texture)
    (content : Device → Except DeviceError kind.Content) :
    Steady Builds (Device.create kind content) :=
  fun _ ↦ ReflTransGen.single (.create hkind content)

/-! ### Views that clear -/

variable {view : Handle .renderTargetView} {r : Handle .texture} {format : Format}

theorem issue_clearRenderTarget (h : d.get? view = some ⟨r, format⟩) (color : Color)
    {kind : ObjectKind} (x : Handle kind) : (d.issue (.clearRenderTarget view color)).get? x
      = (d.modify r fun c ↦ c.fill (color.encode format)).get? x := by
  change (d.apply (.clearRenderTarget view color)).get? x = _
  rw [apply, h]

/-- A clear replaces the texels of the texture behind the view. -/
theorem get?_clear_self (h : d.get? view = some ⟨r, format⟩) (color : Color) :
    (d.issue (.clearRenderTarget view color)).get? r
      = (d.get? r).map fun c ↦ c.fill (color.encode format) :=
  (issue_clearRenderTarget h color r).trans (Store.get?_modify_self _ _ _)

theorem get?_clear_of_ne (h : d.get? view = some ⟨r, format⟩) (color : Color) {kind : ObjectKind}
    {x : Handle kind} (hne : r.ref ≠ x.ref) :
    (d.issue (.clearRenderTarget view color)).get? x = d.get? x :=
  (issue_clearRenderTarget h color x).trans (d.get?_modify_of_ne _ hne)

end Device

/-! ## The assets -/

namespace Assets

/-- A step of activation. -/
inductive Touches (a : Assets) : Assets → Prop
  /-- A step on the device alone. -/
  | device {d : Device} (h : a.device.Touches d) : Touches a { a with device := d }
  /-- A cache is joined by a state. -/
  | cache {states : StateObjects} (h : a.states.Grows states)
    (hsound : a.states.Sound a.device → states.Sound a.device) : Touches a { a with states }
  /-- A view to draw into a texture is taken from its entry, or is created and recorded there. -/
  | draw {name : String} {gamma : Bool} {t : TableTexture} {o o' : OwnedTexture} {d : Device}
    {view : Handle .renderTargetView} (hfind : a.texture? name = some t)
    (howned : t.owned = some o) (run : o.target name gamma a.device = (.ok (view, o'), d)) :
    Touches a (({ a with device := d } : Assets).setOwned name o')

abbrev Builds : Assets → Assets → Prop := ReflTransGen Touches

variable {a a' : Assets}

theorem Touches.toExtends (h : a.Touches a') : a.Extends a' := by
  cases h with
  | device h => exact Extends.of_device h.upholds.evolves
  | cache h hsound => exact Extends.of_states h hsound
  | @draw name gamma t o o' d view hfind howned run =>
    obtain ⟨hgrows, -, hsound⟩ := OwnedTexture.target_eq_ok run
    obtain ⟨hmem, -⟩ := mem_of_texture? hfind
    intro hs
    have hset : Extends { a with device := d }
        (({ a with device := d } : Assets).setOwned name o') :=
      Extends.of_setOwned hfind howned hgrows fun _ ↦ hsound t.decl (hs.owned t hmem o howned)
    exact (Extends.of_device ((o.upholds_target name gamma).run run).evolves).trans hset hs

theorem Touches.upholds (h : a.Touches a') : a.device.Upholds a'.device := by
  cases h with
  | device h => exact h.upholds
  | cache h _ => exact Device.Upholds.refl _
  | @draw name gamma t o o' d view hfind howned run => exact (o.upholds_target name gamma).run run

theorem Touches.get? (h : a.Touches a') {kind : ObjectKind} (hprivate : kind.isPrivate = false)
    (htexture : kind ≠ .texture) {x : Handle kind} (hid : x.id ≤ a.device.lastId) :
    a'.device.get? x = a.device.get? x := by
  cases h with
  | device h => exact h.get? hprivate hid
  | cache h _ => rfl
  | @draw name gamma t o o' d view hfind howned run =>
    rcases o.target_cases name gamma a.device with ⟨v, -, hrun⟩ | ⟨-, e, hrun⟩ |
      ⟨-, format, -, ⟨cause, e, d₁, -, hrun⟩ | ⟨v, d₁, hstep, hrun⟩⟩ <;> cases run.symm.trans hrun
    · rfl
    · obtain ⟨hnew, -⟩ := Device.made_of_createRenderTargetView hstep
      have hcreated : (Device.createRenderTargetView o.resource format a.device).2.get? x
          = a.device.get? x := a.device.get?_create _ hid
      rw [hstep] at hcreated
      -- the new view clears a texture, and nothing else
      refine (Device.get?_clear_of_ne hnew _ fun heq ↦ ?_).trans hcreated
      exact htexture (congrArg ObjectRef.kind heq).symm

theorem Touches.get?_texture (h : a.Touches a') {x : Handle .texture}
    (hid : x.id ≤ a.device.lastId) : a'.device.get? x = a.device.get? x ∨
      ∃ texel, a'.device.get? x = (a.device.get? x).map fun c ↦ c.fill texel := by
  cases h with
  | device h => exact Or.inl (h.get? rfl hid)
  | cache h _ => exact Or.inl rfl
  | @draw name gamma t o o' d view hfind howned run =>
    rcases o.target_cases name gamma a.device with ⟨v, -, hrun⟩ | ⟨-, e, hrun⟩ |
      ⟨-, format, -, ⟨cause, e, d₁, -, hrun⟩ | ⟨v, d₁, hstep, hrun⟩⟩ <;> cases run.symm.trans hrun
    · exact Or.inl rfl
    · obtain ⟨hnew, -⟩ := Device.made_of_createRenderTargetView hstep
      have hcreated : (Device.createRenderTargetView o.resource format a.device).2.get? x
          = a.device.get? x := a.device.get?_create _ hid
      rw [hstep] at hcreated
      by_cases hsame : o.resource = x
      · subst hsame
        exact Or.inr ⟨_, (Device.get?_clear_self hnew _).trans (by rw [hcreated])⟩
      · exact Or.inl ((Device.get?_clear_of_ne hnew _ fun heq ↦
          hsame (Handle.ref_inj.mp heq)).trans hcreated)

theorem Touches.textureDesc? (h : a.Touches a') {x : Handle .texture}
    (hid : x.id ≤ a.device.lastId) : a'.device.textureDesc? x = a.device.textureDesc? x := by
  rw [Device.textureDesc?, Device.textureDesc?]
  rcases h.get?_texture hid with heq | ⟨texel, heq⟩ <;> rw [heq]
  rw [Option.map_map]
  exact congrArg (Option.map · _) (funext fun c ↦ Texture.desc_fill c texel)

namespace Builds

theorem of_device {d : Device} (h : a.device.Builds d) : a.Builds { a with device := d } := by
  induction h with
  | refl => exact ReflTransGen.refl
  | tail _ hlast ih => exact ih.tail (.device hlast)

/-- **Activation only extends the assets.** -/
theorem toExtends (h : a.Builds a') : a.Extends a' := by
  induction h with
  | refl => exact Extends.refl a
  | tail _ hlast ih => exact ih.trans hlast.toExtends

theorem upholds (h : a.Builds a') : a.device.Upholds a'.device := by
  induction h with
  | refl => exact Device.Upholds.refl _
  | tail _ hlast ih => exact ih.trans hlast.upholds

theorem evolves (h : a.Builds a') : a.device.Evolves a'.device := h.upholds.evolves

theorem get? (h : a.Builds a') {kind : ObjectKind} (hprivate : kind.isPrivate = false)
    (htexture : kind ≠ .texture) {x : Handle kind} (hid : x.id ≤ a.device.lastId) :
    a'.device.get? x = a.device.get? x := by
  induction h with
  | refl => rfl
  | tail hbefore hlast ih =>
    exact (hlast.get? hprivate htexture
      (hid.trans (Builds.upholds hbefore).evolves.lastId_le)).trans ih

theorem textureDesc? (h : a.Builds a') {x : Handle .texture} (hid : x.id ≤ a.device.lastId) :
    a'.device.textureDesc? x = a.device.textureDesc? x := by
  induction h with
  | refl => rfl
  | tail hbefore hlast ih =>
    exact (hlast.textureDesc? (hid.trans (Builds.evolves hbefore).lastId_le)).trans ih

theorem equips (h : a.Builds a') (hs : a.Sound) :
    List.Forall₂ TableTexture.Equips a.textures a'.textures := by
  induction h with
  | refl => exact List.forall₂_same.mpr fun t _ ↦ TableTexture.Equips.refl t
  | tail hbefore hlast ih =>
    refine forall₂_trans ih ?_ TableTexture.Equips.trans
    cases hlast with
    | device _ | cache _ _ => exact List.forall₂_same.mpr fun t _ ↦ TableTexture.Equips.refl t
    | draw hfind howned _ =>
      obtain ⟨-, hs₁⟩ := Builds.toExtends hbefore hs
      refine forall₂_setOwned hs₁.names hfind (fun u _ _ ↦ TableTexture.Equips.refl u) ?_
      exact ⟨rfl, rfl, fun _ ↦ rfl, fun _ ↦ Or.inl (Option.isSome_of_eq_some howned)⟩

end Builds

end Assets

end EffectChain
