import EffectChain.Proofs.Records.Declared
import EffectChain.Proofs.Records.Resolved
import EffectChain.Proofs.Recovery.Contents
import Mathlib.Data.List.Forall2
import Mathlib.Logic.Relator

/-!
# Assets that match up to handles

Two runs that create the same objects, one of them after some that are gone, get different handles
for them. What an effect is made of can be told without handles all the same: a texture by its name,
a view by the name and its variant, a state by its descriptor. Two entries, slots or records match
if they agree in this (`TableTexture.Matches`, `ViewSlot.Matches`, `PassRecord.Matches`).

That matching tables lead to matching slots is plain, since slots are filled by name. But handles
are compared where inputs are emptied and where views of several levels are listed once. This comes
out the same because the textures of one side correspond one to one to those of the other
(`Assets.Aligned.twins`).
-/

namespace EffectChain

/-! ## Related lists -/

section Related

variable {α β : Type} {R : α → β → Prop}

theorem rel_cases {x : Option α} {y : Option β} (h : Option.Rel R x y) :
    (x = none ∧ y = none) ∨ ∃ a b, x = some a ∧ y = some b ∧ R a b := by
  cases h with
  | some hR => exact Or.inr ⟨_, _, rfl, rfl, hR⟩
  | none => exact Or.inl ⟨rfl, rfl⟩

theorem rel_find? {l : List α} {l' : List β} (h : List.Forall₂ R l l') {p : α → Bool}
    {q : β → Bool} (hpq : ∀ {x y}, R x y → p x = q y) : Option.Rel R (l.find? p) (l'.find? q) := by
  induction h with
  | nil => exact .none
  | @cons x y l l' hxy _ ih =>
    rw [List.find?_cons, List.find?_cons, ← hpq hxy]
    cases p x
    · exact ih
    · exact .some hxy

theorem forall₂_eraseDups [DecidableEq α] [DecidableEq β] (hR : Relator.BiUnique R) {l : List α}
    {l' : List β} (h : List.Forall₂ R l l') : List.Forall₂ R l.eraseDups l'.eraseDups := by
  induction hlength : l.length using Nat.strong_induction_on generalizing l l' with
  | h n ih =>
    cases h with
    | nil => exact List.Forall₂.nil
    | @cons x y l l' hxy hrest =>
      rw [List.eraseDups_cons, List.eraseDups_cons]
      have hfilter : List.Forall₂ R (l.filter fun z ↦ !z == x) (l'.filter fun z ↦ !z == y) :=
        List.rel_filter (fun z w hzw ↦ by simpa using not_congr (Relator.rel_eq hR hzw hxy)) hrest
      refine List.Forall₂.cons hxy (ih _ ?_ hfilter rfl)
      rw [← hlength, List.length_cons, Nat.lt_succ_iff]
      exact List.length_filter_le _ _

theorem forall₂_of_common {γ : Type} {S : γ → α → Prop} {T : γ → β → Prop} {keys : List γ}
    {l : List α} {l' : List β} (h : List.Forall₂ S keys l) (h' : List.Forall₂ T keys l')
    (hR : ∀ {key x y}, x ∈ l → y ∈ l' → S key x → T key y → R x y) : List.Forall₂ R l l' := by
  induction h generalizing l' with
  | nil =>
    cases h'
    exact List.Forall₂.nil
  | @cons key x keys l hS _ ih =>
    rcases h' with _ | ⟨hT, hrest⟩
    exact List.Forall₂.cons (hR List.mem_cons_self List.mem_cons_self hS hT)
      (ih hrest fun hx hy ↦ hR (List.mem_cons_of_mem _ hx) (List.mem_cons_of_mem _ hy))

theorem forall₂_of_map_some {γ : Type} {f : γ → Option α} {g : γ → Option β} {keys : List γ}
    {l : List α} {l' : List β} (h : l.map some = keys.map f) (h' : l'.map some = keys.map g)
    (hR : ∀ {key x y}, f key = some x → g key = some y → R x y) : List.Forall₂ R l l' := by
  induction keys generalizing l l' with
  | nil =>
    rw [List.map_eq_nil_iff.mp h, List.map_eq_nil_iff.mp h']
    exact List.Forall₂.nil
  | cons key rest ih =>
    obtain ⟨x, l, rfl, hx, hrest⟩ := List.map_eq_cons_iff.mp h
    obtain ⟨y, l', rfl, hy, hrest'⟩ := List.map_eq_cons_iff.mp h'
    exact List.Forall₂.cons (hR hx.symm hy.symm) (ih hrest hrest')

end Related

/-! ## What matches -/

/-- The views of the scene were there before the number `n` was given out, and so were the textures
that they are views of. -/
structure Scene.Old (n : Nat) (d : Device) (scene : Scene) : Prop where
  /-- Views for shaders. -/
  shown : ∀ {slot : ViewSlot} {v : Handle .shaderView}, (∀ w, slot ≠ .view w) →
    scene.backbuffer.resolveSlot scene.depthView slot = some v →
      v.id ≤ n ∧ ∀ x, d.viewTexture? v = some x → x.id ≤ n
  /-- Views to draw into. -/
  drawn : ∀ gamma, (scene.backbuffer.targets.pick gamma).id ≤ n ∧
    ∀ x, d.targetTexture? (scene.backbuffer.targets.pick gamma) = some x → x.id ≤ n

/-- Two handles stand for the same content, each on a device of its own. -/
def Handle.SameContent {kind : ObjectKind} (d d' : Device) (h h' : Handle kind) : Prop :=
  ∃ c, d.get? h = some c ∧ d'.get? h' = some c

/-- The device objects of a texture on two devices. A texture that was there before the number `n`
was given out is the same on both. -/
structure OwnedTexture.Matches (n : Nat) (d d' : Device) (o o' : OwnedTexture) : Prop where
  /-- The texels agree at all levels. -/
  content : Handle.SameContent d d' o.resource o'.resource
  /-- The texture is the same one, or it is later. -/
  resource : o'.resource = o.resource ∨ n < o.resource.id ∧ n < o'.resource.id
  /-- The same views were created to draw into it. -/
  targets : ∀ gamma, (o'.targets.pick gamma).isSome = (o.targets.pick gamma).isSome

/-- An entry of two texture tables. -/
structure TableTexture.Matches (n : Nat) (d d' : Device) (t t' : TableTexture) : Prop where
  /-- Its declaration. -/
  decl : t'.decl = t.decl
  /-- The effects that declare it. -/
  effects : t'.effects = t.effects
  /-- Its device objects. -/
  owned : Option.Rel (OwnedTexture.Matches n d d') t.owned t'.owned

/-- The device objects of the texture of a name. -/
def Assets.owned? (a : Assets) (name : String) : Option OwnedTexture :=
  (a.texture? name).bind (·.owned)

/-- What is bound to an input slot: the same alias, or the same variant of the texture of a name. -/
inductive ViewSlot.Matches (a a' : Assets) : ViewSlot → ViewSlot → Prop
  /-- Nothing. -/
  | empty : Matches a a' .empty .empty
  /-- A texture. -/
  | view {name : String} {o o' : OwnedTexture} (gamma : Bool) (h : a.owned? name = some o)
    (h' : a'.owned? name = some o') :
    Matches a a' (.view (o.views.pick gamma)) (.view (o'.views.pick gamma))
  /-- The current frame. -/
  | backbuffer (gamma : Bool) : Matches a a' (.backbuffer gamma) (.backbuffer gamma)
  /-- The scene depth. -/
  | depth : Matches a a' .depth .depth

/-- What a target is a view of: the same variant of the scene target, or of the texture of a
name. -/
inductive TargetMatches (a a' : Assets) (b : Backbuffer) :
    Handle .renderTargetView → Handle .renderTargetView → Prop
  /-- The scene target. -/
  | scene (gamma : Bool) : TargetMatches a a' b (b.targets.pick gamma) (b.targets.pick gamma)
  /-- A texture. -/
  | texture {name : String} {gamma : Bool} {view view' : Handle .renderTargetView}
    (h : a.targetView? gamma name = some view) (h' : a'.targetView? gamma name = some view') :
    TargetMatches a a' b view view'

/-- Levels are regenerated of the texture of one name. -/
def MipMatches (a a' : Assets) (view view' : Handle .shaderView) : Prop :=
  ∃ name, a.mipView? name = some view ∧ a'.mipView? name = some view'

/-- Two records of a pass. -/
structure PassRecord.Matches (a a' : Assets) (b : Backbuffer) (r r' : PassRecord) : Prop where
  /-- Their targets. -/
  targets : List.Forall₂ (TargetMatches a a' b) r.targets r'.targets
  /-- The targets with several levels. -/
  mipViews : List.Forall₂ (MipMatches a a') r.mipViews r'.mipViews
  /-- Their inputs. -/
  inputs : List.Forall₂ (ViewSlot.Matches a a') r.inputs r'.inputs
  /-- Their states. -/
  blend : Handle.SameContent a.device a'.device r.blend r'.blend
  depthStencil : Handle.SameContent a.device a'.device r.depthStencil r'.depthStencil
  /-- Their numbers and switches. -/
  stencilReference : r'.stencilReference = r.stencilReference
  stencilEnable : r'.stencilEnable = r.stencilEnable
  clearsTargets : r'.clearsTargets = r.clearsTargets
  viewport : r'.viewport = r.viewport
  vertexCount : r'.vertexCount = r.vertexCount

/-- Two states of a technique. -/
structure TechniqueState.Matches (a a' : Assets) (b : Backbuffer) (s s' : TechniqueState) :
    Prop where
  /-- Their samplers. -/
  samplers :
    List.Forall₂ (Option.Rel (Handle.SameContent a.device a'.device)) s.samplers s'.samplers
  /-- Their textures. -/
  bindings : List.Forall₂ (ViewSlot.Matches a a') s.bindings s'.bindings
  /-- Their records. -/
  passes : List.Forall₂ (PassRecord.Matches a a' b) s.passes s'.passes

theorem Handle.SameContent.symm {kind : ObjectKind} {d d' : Device} {h h' : Handle kind}
    (hsame : Handle.SameContent d d' h h') : Handle.SameContent d' d h' h := by
  obtain ⟨c, hget, hget'⟩ := hsame
  exact ⟨c, hget', hget⟩

namespace Assets

variable {a a' : Assets} {n : Nat} {name : String} {o o' : OwnedTexture}

/-! ## Textures of the table by name -/

theorem mem_of_owned? (h : a.owned? name = some o) :
    ∃ t ∈ a.textures, t.decl.name = name ∧ t.owned = some o := by
  obtain ⟨t, hfind, howned⟩ := Option.bind_eq_some_iff.mp h
  exact ⟨t, (mem_of_texture? hfind).1, (mem_of_texture? hfind).2, howned⟩

theorem name_eq_of_resource_eq (hdistinct : a.resources.Nodup) {name' : String}
    (h : a.owned? name = some o) (h' : a.owned? name' = some o')
    (heq : o.resource = o'.resource) : name = name' := by
  obtain ⟨t, ht, rfl, howned⟩ := mem_of_owned? h
  obtain ⟨t', ht', rfl, howned'⟩ := mem_of_owned? h'
  rw [eq_of_resource_eq hdistinct ht ht' howned howned' heq]

theorem viewTexture?_of_owned? (hs : a.Sound) (hl : a.Live) (h : a.owned? name = some o)
    (gamma : Bool) : a.device.viewTexture? (o.views.pick gamma) = some o.resource := by
  obtain ⟨t, ht, -, howned⟩ := mem_of_owned? h
  exact hl.viewTexture? hs ht howned gamma

theorem targetTexture?_of_owned? (hs : a.Sound) (hl : a.Live) (h : a.owned? name = some o)
    {gamma : Bool} {view : Handle .renderTargetView} (hpick : o.targets.pick gamma = some view) :
    a.device.targetTexture? view = some o.resource := by
  obtain ⟨t, ht, -, howned⟩ := mem_of_owned? h
  have hdraws := (hs.owned t ht o howned).targets gamma view hpick
  obtain ⟨-, x, hx, -⟩ :=
    (hdraws.reaches_iff (hl.owned ht howned _ (o.mem_refs_of_target hpick))).mpr
    (hl.owned ht howned _ List.mem_cons_self)
  rw [hx, hdraws.eq hx]

theorem owned?_of_mipView? {view : Handle .shaderView} (h : a.mipView? name = some view) :
    ∃ o, a.owned? name = some o ∧ o.views.linear = view := by
  obtain ⟨o, howned, hview⟩ := Option.bind_eq_some_iff.mp h
  split at hview
  · cases hview
    exact ⟨o, howned, rfl⟩
  · cases hview

/-! ## Aligned assets -/

/-- Assets whose texture tables match. -/
structure Aligned (n : Nat) (a a' : Assets) : Prop where
  /-- They are sound. -/
  sound : a.Sound
  sound' : a'.Sound
  /-- What they record is alive. -/
  live : a.Live
  live' : a'.Live
  /-- No texture is listed twice. -/
  distinct : a.resources.Nodup
  distinct' : a'.resources.Nodup
  /-- The tables match. -/
  textures : List.Forall₂ (TableTexture.Matches n a.device a'.device) a.textures a'.textures
  /-- Old views are the same. -/
  get? : ∀ {kind : ObjectKind} {x : Handle kind}, kind.isPrivate = false → kind ≠ .texture →
    x.id ≤ n → a'.device.get? x = a.device.get? x

/-- Two textures that correspond to each other: an old one to itself, and those of one name. -/
def Twins (n : Nat) (a a' : Assets) (x x' : Handle .texture) : Prop :=
  (x' = x ∧ x.id ≤ n) ∨
    ∃ name o o', a.owned? name = some o ∧ a'.owned? name = some o' ∧ o.resource = x ∧
      o'.resource = x'

theorem Twins.symm {x x' : Handle .texture} (h : Twins n a a' x x') : Twins n a' a x' x := by
  rcases h with ⟨rfl, hid⟩ | ⟨name, o, o', howned, howned', hx, hx'⟩
  · exact Or.inl ⟨rfl, hid⟩
  · exact Or.inr ⟨name, o', o, howned', howned, hx', hx⟩

namespace Aligned

theorem symm (h : Aligned n a a') : Aligned n a' a where
  sound := h.sound'
  sound' := h.sound
  live := h.live'
  live' := h.live
  distinct := h.distinct'
  distinct' := h.distinct
  textures := by
    refine List.Forall₂.flip (h.textures.imp fun t t' ht ↦ ⟨ht.decl.symm, ht.effects.symm, ?_⟩)
    rcases rel_cases ht.owned with ⟨hnone, hnone'⟩ | ⟨o, o', howned, howned', ho⟩
    · rw [hnone, hnone']
      exact .none
    · rw [howned, howned']
      exact .some ⟨ho.content.symm, ho.resource.imp Eq.symm And.symm,
        fun gamma ↦ (ho.targets gamma).symm⟩
  get? hprivate htexture hid := (h.get? hprivate htexture hid).symm

theorem texture? (h : Aligned n a a') (name : String) :
    Option.Rel (TableTexture.Matches n a.device a'.device) (a.texture? name) (a'.texture? name) :=
  rel_find? h.textures fun ht ↦ by rw [ht.decl]

theorem owned? (h : Aligned n a a') (name : String) :
    Option.Rel (OwnedTexture.Matches n a.device a'.device) (a.owned? name) (a'.owned? name) := by
  rw [Assets.owned?, Assets.owned?]
  rcases rel_cases (h.texture? name) with ⟨hfind, hfind'⟩ | ⟨t, t', hfind, hfind', ht⟩ <;>
    rw [hfind, hfind']
  · exact .none
  · exact ht.owned

theorem matches_of_owned? (h : Aligned n a a') (howned : a.owned? name = some o)
    (howned' : a'.owned? name = some o') : o.Matches n a.device a'.device o' := by
  have hrel := h.owned? name
  rw [howned, howned'] at hrel
  cases hrel with
  | some hmatches => exact hmatches

/-- **Each texture has one twin at most**, in each direction. -/
theorem twins (h : Aligned n a a') : Relator.BiUnique (Twins n a a') := by
  suffices hright : ∀ {a a'}, Aligned n a a' → Relator.RightUnique (Twins n a a') from
    ⟨fun x y z hx hy ↦ hright h.symm hx.symm hy.symm, hright h⟩
  intro a a' h x y z hy hz
  have hold {name : String} {o o' : OwnedTexture} (howned : a.owned? name = some o)
      (howned' : a'.owned? name = some o') (hid : o.resource.id ≤ n) : o'.resource = o.resource :=
    (h.matches_of_owned? howned howned').resource.resolve_right fun hlater ↦
      Nat.not_lt.mpr hid hlater.1
  rcases hy with ⟨rfl, hid⟩ | ⟨name, o, o', howned, howned', rfl, rfl⟩ <;>
    rcases hz with ⟨rfl, hid'⟩ | ⟨name₁, o₁, o₁', howned₁, howned₁', heq, rfl⟩
  · rfl
  · subst heq
    exact (hold howned₁ howned₁' hid).symm
  · exact hold howned howned' hid'
  · obtain rfl := name_eq_of_resource_eq h.distinct howned₁ howned heq
    cases howned'.symm.trans howned₁'
    rfl

/-! ## Sizes and levels -/

theorem size? (h : Aligned n a a') : a'.size? = a.size? := by
  funext name
  rw [Assets.size?, Assets.size?]
  rcases rel_cases (h.texture? name) with ⟨hfind, hfind'⟩ | ⟨t, t', hfind, hfind', ht⟩ <;>
    rw [hfind, hfind']
  rw [Option.map_some, Option.map_some, ht.decl]

theorem mipView? (h : Aligned n a a') (name : String) :
    Option.Rel (MipMatches a a') (a.mipView? name) (a'.mipView? name) := by
  rcases rel_cases (h.owned? name) with ⟨hnone, hnone'⟩ | ⟨o, o', howned, howned', ho⟩
  · have hview : a.mipView? name = none := congrArg (Option.bind · _) hnone
    have hview' : a'.mipView? name = none := congrArg (Option.bind · _) hnone'
    rw [hview, hview']
    exact .none
  · have hview : a.mipView? name = if o.hasMips a.device then some o.views.linear else none :=
      congrArg (Option.bind · _) howned
    have hview' : a'.mipView? name = if o'.hasMips a'.device then some o'.views.linear else none :=
      congrArg (Option.bind · _) howned'
    have hmips : o'.hasMips a'.device = o.hasMips a.device := by
      obtain ⟨c, hget, hget'⟩ := ho.content
      rw [OwnedTexture.hasMips_of_get? hget', OwnedTexture.hasMips_of_get? hget]
    rw [hmips] at hview'
    rcases hlevels : o.hasMips a.device with _ | _ <;> rw [hlevels] at hview hview'
    · rw [hview, hview']
      exact .none
    · have hmatches : MipMatches a a' o.views.linear o'.views.linear := ⟨name, hview, hview'⟩
      rw [hview, hview']
      exact .some hmatches

/-- **Each view to regenerate levels through matches one other at most**, in each direction. -/
theorem mips (h : Aligned n a a') : Relator.BiUnique (MipMatches a a') := by
  suffices hright : ∀ {a a'}, Aligned n a a' → Relator.RightUnique (MipMatches a a') by
    refine ⟨fun v w u hv hw ↦ ?_, hright h⟩
    obtain ⟨name, hv, hu⟩ := hv
    obtain ⟨name', hw, hu'⟩ := hw
    exact hright h.symm ⟨name, hu, hv⟩ ⟨name', hu', hw⟩
  rintro a a' h v w u ⟨name, hv, hw⟩ ⟨name', hv', hu⟩
  obtain ⟨o, howned, rfl⟩ := owned?_of_mipView? hv
  obtain ⟨o', howned', heq⟩ := owned?_of_mipView? hv'
  have hview := viewTexture?_of_owned? h.sound h.live howned false
  have hview' := viewTexture?_of_owned? h.sound h.live howned' false
  change a.device.viewTexture? o.views.linear = _ at hview
  change a.device.viewTexture? o'.views.linear = _ at hview'
  rw [heq, hview, Option.some.injEq] at hview'
  obtain rfl := name_eq_of_resource_eq h.distinct howned howned' hview'
  exact Option.some.inj (hw.symm.trans hu)

/-! ## Slots -/

open SlotTables in
theorem slotOf (h : Aligned n a a') (s : SamplerDecl) :
    Option.Rel (ViewSlot.Matches a a') (slotOf a s) (slotOf a' s) := by
  rw [SlotTables.slotOf, SlotTables.slotOf]
  rcases rel_cases (h.texture? s.textureName) with
    ⟨hfind, hfind'⟩ | ⟨t, t', hfind, hfind', ht⟩ <;> rw [hfind, hfind']
  · exact .none
  · rw [Option.bind_some, Option.bind_some, ht.decl]
    split
    · exact .some (.backbuffer s.gamma)
    · exact .some .depth
    · rcases rel_cases ht.owned with ⟨hnone, hnone'⟩ | ⟨o, o', howned, howned', -⟩
      · rw [hnone, hnone']
        exact .none
      · rw [howned, howned']
        exact .some (.view s.gamma (by rw [Assets.owned?, hfind, Option.bind_some, howned])
          (by rw [Assets.owned?, hfind', Option.bind_some, howned']))

theorem readSlots (h : Aligned n a a') (samplers : List SamplerDecl) {table table' : List ViewSlot}
    (htable : List.Forall₂ (ViewSlot.Matches a a') table table') :
    List.Forall₂ (ViewSlot.Matches a a') (SlotTables.readSlots a table samplers)
      (SlotTables.readSlots a' table' samplers) := by
  rw [SlotTables.readSlots, SlotTables.readSlots]
  induction samplers generalizing table table' with
  | nil => exact htable
  | cons s rest ih =>
    refine ih (forall₂_set htable _ ?_)
    rcases rel_cases (h.slotOf s) with ⟨hslot, hslot'⟩ | ⟨slot, slot', hslot, hslot', hmatches⟩ <;>
      rw [hslot, hslot']
    · exact .empty
    · exact hmatches

theorem bindings (h : Aligned n a a') (m : EffectModule) {tables tables' : SlotTables}
    (htables : tables.Implements a m) (htables' : tables'.Implements a' m) :
    List.Forall₂ (ViewSlot.Matches a a') tables.bindings tables'.bindings := by
  rw [htables.bindings, htables'.bindings]
  refine h.readSlots m.samplers (List.forall₂_same.mpr fun slot hslot ↦ ?_)
  rw [List.eq_of_mem_replicate hslot]
  exact .empty

/-! ## Inputs that conflict -/

/-- **Matching slots stand for twins.** -/
theorem shown (h : Aligned n a a') {scene : Scene} (hscene : scene.Old n a.device)
    {slot slot' : ViewSlot} (hslot : slot.Matches a a' slot') :
    Option.Rel (Twins n a a')
      ((scene.backbuffer.resolveSlot scene.depthView slot).bind a.device.viewTexture?)
      ((scene.backbuffer.resolveSlot scene.depthView slot').bind a'.device.viewTexture?) := by
  -- the scene is the same, and its views are
  have hold {slot : ViewSlot} (hview : ∀ v, slot ≠ .view v) : Option.Rel (Twins n a a')
      ((scene.backbuffer.resolveSlot scene.depthView slot).bind a.device.viewTexture?)
      ((scene.backbuffer.resolveSlot scene.depthView slot).bind a'.device.viewTexture?) := by
    rcases hresolve : scene.backbuffer.resolveSlot scene.depthView slot with _ | v
    · exact .none
    · obtain ⟨hid, htexture⟩ := hscene.shown hview hresolve
      rw [Option.bind_some, Option.bind_some, Device.viewTexture?, Device.viewTexture?,
        h.get? rfl (by decide) hid]
      rcases hx : (a.device.get? v).map View.texture with _ | x
      · exact .none
      · exact .some (Or.inl ⟨rfl, htexture x hx⟩)
  cases hslot with
  | empty => exact .none
  | @view name o o' gamma howned howned' =>
    have hview := viewTexture?_of_owned? h.sound h.live howned gamma
    have hview' := viewTexture?_of_owned? h.sound' h.live' howned' gamma
    rw [Backbuffer.resolveSlot, Backbuffer.resolveSlot, Option.bind_some, Option.bind_some, hview,
      hview']
    exact .some (Or.inr ⟨name, o, o', howned, howned', rfl, rfl⟩)
  | backbuffer gamma => exact hold (by simp)
  | depth => exact hold (by simp)

theorem written (h : Aligned n a a') {scene : Scene} (hscene : scene.Old n a.device)
    {views views' : List (Handle .renderTargetView)}
    (hviews : List.Forall₂ (TargetMatches a a' scene.backbuffer) views views') :
    List.Forall₂ (Twins n a a') (writtenTextures a.device (views.map some))
      (writtenTextures a'.device (views'.map some)) := by
  rw [writtenTextures, writtenTextures, List.filterMap_map, List.filterMap_map]
  refine List.rel_filterMap (fun view view' hview ↦ ?_) hviews
  change Option.Rel (Twins n a a') (a.device.targetTexture? view) (a'.device.targetTexture? view')
  cases hview with
  | scene gamma =>
    obtain ⟨hid, htexture⟩ := hscene.drawn gamma
    rw [Device.targetTexture?, Device.targetTexture?, h.get? rfl (by decide) hid]
    rcases hx : (a.device.get? (scene.backbuffer.targets.pick gamma)).map View.texture with _ | x
    · exact .none
    · exact .some (Or.inl ⟨rfl, htexture x hx⟩)
  | @texture name gamma view view' hview hview' =>
    obtain ⟨o, howned, hpick⟩ := Option.bind_eq_some_iff.mp hview
    obtain ⟨o', howned', hpick'⟩ := Option.bind_eq_some_iff.mp hview'
    rw [targetTexture?_of_owned? h.sound h.live howned hpick,
      targetTexture?_of_owned? h.sound' h.live' howned' hpick']
    exact .some (Or.inr ⟨name, o, o', howned, howned', rfl, rfl⟩)

/-- **The same inputs conflict.** -/
theorem inputs (h : Aligned n a a') {scene : Scene} (hscene : scene.Old n a.device)
    {slots slots' : List ViewSlot} {views views' : List (Handle .renderTargetView)}
    (hslots : List.Forall₂ (ViewSlot.Matches a a') slots slots')
    (hviews : List.Forall₂ (TargetMatches a a' scene.backbuffer) views views') :
    List.Forall₂ (ViewSlot.Matches a a')
      (resolveHazards a.device slots (views.map some)
        (scene.backbuffer.resolveSlot scene.depthView)).2
      (resolveHazards a'.device slots' (views'.map some)
        (scene.backbuffer.resolveSlot scene.depthView)).2 := by
  rw [resolveHazards, resolveHazards]
  refine List.rel_map (fun slot slot' hslot ↦ ?_) hslots
  have hconflicts : slot'.conflicts a'.device (writtenTextures a'.device (views'.map some))
        (scene.backbuffer.resolveSlot scene.depthView)
      = slot.conflicts a.device (writtenTextures a.device (views.map some))
        (scene.backbuffer.resolveSlot scene.depthView) := by
    rw [ViewSlot.conflicts, ViewSlot.conflicts]
    rcases rel_cases (h.shown hscene hslot) with ⟨hx, hx'⟩ | ⟨x, x', hx, hx', htwins⟩ <;>
      rw [hx, hx']
    · rfl
    · rw [Option.any_some, Option.any_some, decide_eq_decide]
      exact (List.rel_mem h.twins htwins (h.written hscene hviews)).symm
  rw [hconflicts]
  split
  · exact .empty
  · exact hslot

/-! ## Records -/

variable {b : Backbuffer} {p : PassDecl} {r r' : PassRecord}

theorem targets (hr : r.Implements a b p) (hr' : r'.Implements a' b p) :
    List.Forall₂ (TargetMatches a a' b) r.targets r'.targets := by
  have htargets := hr.targets
  have htargets' := hr'.targets
  split at htargets
  · rename_i hp
    rw [if_pos hp] at htargets'
    have hscene : ∀ {l : List (Handle .renderTargetView)},
        l.map some = [some (b.targets.pick p.gammaWrite)] → l = [b.targets.pick p.gammaWrite] :=
      fun hl ↦ List.map_injective_iff.mpr (Option.some_injective _) hl
    rw [hscene htargets, hscene htargets']
    exact List.Forall₂.cons (.scene p.gammaWrite) List.Forall₂.nil
  · rename_i hp
    rw [if_neg hp] at htargets'
    exact forall₂_of_map_some htargets htargets' .texture

theorem mipViews (h : Aligned n a a') (hr : r.Implements a b p) (hr' : r'.Implements a' b p) :
    List.Forall₂ (MipMatches a a') r.mipViews r'.mipViews := by
  rw [hr.mipViews, hr'.mipViews]
  split
  · exact List.Forall₂.nil
  · refine forall₂_eraseDups h.mips (List.rel_filterMap (R := (· = ·)) ?_
      (List.forall₂_refl p.targetNames))
    rintro name _ rfl
    exact h.mipView? name

/-- **Records of one declaration match.** -/
theorem record (h : Aligned n a a') {depthView : Option (Handle .shaderView)}
    (hscene : Scene.Old n a.device ⟨b, depthView⟩) {slots slots' : List ViewSlot}
    (hslots : List.Forall₂ (ViewSlot.Matches a a') slots slots')
    (hr : r.Implements a b p) (hr' : r'.Implements a' b p)
    (hresolved : r.Resolved a.device ⟨b, depthView⟩ slots)
    (hresolved' : r'.Resolved a'.device ⟨b, depthView⟩ slots')
    (hlive : r.SourcesLive a.device) (hlive' : r'.SourcesLive a'.device) :
    r.Matches a a' b r' where
  targets := targets hr hr'
  mipViews := h.mipViews hr hr'
  inputs := by
    rw [hresolved.inputs, hresolved'.inputs]
    exact h.inputs hscene hslots (targets hr hr')
  blend := ⟨_, hr.blend.get? hlive.blend fun heq ↦ heq, hr'.blend.get? hlive'.blend fun heq ↦ heq⟩
  depthStencil := ⟨_, hr.depthStencil.get? hlive.depthStencil fun heq ↦ heq,
    hr'.depthStencil.get? hlive'.depthStencil fun heq ↦ heq⟩
  stencilReference := hr'.stencilReference.trans hr.stencilReference.symm
  stencilEnable := hr'.stencilEnable.trans hr.stencilEnable.symm
  clearsTargets := hr'.clearsTargets.trans hr.clearsTargets.symm
  viewport := by rw [hr'.viewport, hr.viewport, h.size?]
  vertexCount := hr'.vertexCount.trans hr.vertexCount.symm

/-- **States of one technique match.** -/
theorem state (h : Aligned n a a') {depthView : Option (Handle .shaderView)}
    (hscene : Scene.Old n a.device ⟨b, depthView⟩) {m : EffectModule} {passes : List PassDecl}
    {s s' : TechniqueState} (hs : s.Implements a b m passes) (hs' : s'.Implements a' b m passes)
    (hresolved : ∀ r ∈ s.passes, r.Resolved a.device ⟨b, depthView⟩ s.bindings)
    (hresolved' : ∀ r ∈ s'.passes, r.Resolved a'.device ⟨b, depthView⟩ s'.bindings)
    (hlive : s.SourcesLive a.device) (hlive' : s'.SourcesLive a'.device) :
    s.Matches a a' b s' where
  samplers := by
    refine forall₂_of_common (List.Forall₂.flip hs.tables.samplers)
      (List.Forall₂.flip hs'.tables.samplers) fun {desc sampler sampler'} hmem hmem' hof hof' ↦ ?_
    rcases rel_cases hof with ⟨rfl, rfl⟩ | ⟨x, c, rfl, rfl, hmade⟩
    · obtain ⟨rfl, -⟩ | ⟨_, _, -, hnone, -⟩ := rel_cases hof'
      · exact .none
      · cases hnone
    · obtain ⟨-, hsome⟩ | ⟨x', _, rfl, hsome, hmade'⟩ := rel_cases hof' <;> cases hsome
      exact .some ⟨c, hmade.get? (hlive.samplers x hmem) fun heq ↦ heq,
        hmade'.get? (hlive'.samplers x' hmem') fun heq ↦ heq⟩
  bindings := h.bindings m hs.tables hs'.tables
  passes := forall₂_of_common hs.passes hs'.passes fun hr hr' himplements himplements' ↦
    h.record hscene (h.bindings m hs.tables hs'.tables) himplements himplements'
      (hresolved _ hr) (hresolved' _ hr') (hlive.passes _ hr) (hlive'.passes _ hr')

end Aligned

end Assets

end EffectChain
