import EffectChain.Proofs.Records.Declared
import EffectChain.Proofs.Recovery.Refusals

/-!
# What succeeded once succeeds again

Whether building an effect succeeds depends on little: on the module, on which entries of the
texture table have device objects, and on whether the device refuses a creation. Two assets that
agree in this need have nothing else in common. One may have states in its caches and views to draw
into textures that the other lacks, and what building creates will have other numbers.

So if building succeeded from some assets, it yields from all others that are ready for it in the
same way (`repeats_buildEffect`). The rules for `Repeats` take two runs apart side by side: the
first one succeeded, so each of its steps did, and shows that the same step of the second run has
nothing to fear but a refusal.

Building may leave views to draw into textures behind. The second run is confined to those that its
passes ask for (`Assets.Confined`), even if it fails.
-/

namespace EffectChain

open Assets (Builds)

/-! ## Assets that are ready -/

/-- What can be told of an entry of the texture table without the device. -/
structure Face where
  /-- Its declaration. -/
  decl : TextureDecl
  /-- The effects that declare it. -/
  effects : List Nat
  /-- Whether it has device objects. -/
  equipped : Bool

def TableTexture.face (t : TableTexture) : Face := ⟨t.decl, t.effects, t.owned.isSome⟩

namespace Assets

def faces (a : Assets) : List Face := a.textures.map (·.face)

/-- The assets are such that building from them depends on their faces and on refusals only. -/
structure Ready (faces : List Face) (a : Assets) : Prop where
  /-- They are sound. -/
  sound : a.Sound
  /-- The table has the given entries. -/
  faces : a.faces = faces
  /-- The textures are there. -/
  stands : ∀ t ∈ a.textures, ∀ o, t.owned = some o →
    (a.device.textureDesc? o.resource).isSome

/-- The assets are ready, and have views to draw into the given variants of textures at most. -/
structure Confined (faces : List Face) (drawn : Bool → String → Prop)
    (a : Assets) : Prop extends a.Ready faces where
  /-- There are no other views. -/
  within : ∀ t ∈ a.textures, ∀ gamma, t.offers gamma = true → drawn gamma t.decl.name

variable {a a' a₀ : Assets} {fs : List Face} {drawn : Bool → String → Prop}

theorem Builds.faces (h : a.Builds a') (hs : a.Sound) : a'.faces = a.faces := by
  have hsame := congrArg (List.map fun t : TableTexture ↦ t.face) (h.map_core hs)
  simpa [Function.comp_def, TableTexture.core, TableTexture.face, Assets.faces] using hsame

namespace Ready

theorem builds (h : a.Ready fs) (hbuilds : a.Builds a') : a'.Ready fs where
  sound := (hbuilds.toExtends h.sound).2
  faces := (hbuilds.faces h.sound).trans h.faces
  stands t' ht' o' howned' := by
    have hmem : t'.core ∈ a.textures.map (·.core) :=
      hbuilds.map_core h.sound ▸ List.mem_map_of_mem ht'
    obtain ⟨t, ht, hcore⟩ := List.mem_map.mp hmem
    obtain ⟨-, -, ⟨-, hnone⟩ | ⟨o, o₁, howned, howned₁, hresource, -⟩⟩ :=
      TableTexture.eq_of_core hcore.symm
    · cases hnone.symm.trans howned'
    · cases howned₁.symm.trans howned'
      rw [hresource, hbuilds.textureDesc? (h.sound.owned t ht o howned).given]
      exact h.stands t ht o howned

/-- The same entries are found in assets that are ready in the same way. -/
theorem texture?_cases (h : a.Ready fs) (h₀ : a₀.Ready fs) (name : String) :
    (a₀.texture? name = none ∧ a.texture? name = none) ∨
      ∃ t₀ t, a₀.texture? name = some t₀ ∧ a.texture? name = some t ∧ t.decl = t₀.decl ∧
        t.owned.isSome = t₀.owned.isSome := by
  have hfind (a : Assets) : (a.texture? name).map (·.face)
      = a.faces.find? fun face ↦ face.decl.name = name := by
    rw [Assets.faces, List.find?_map]
    rfl
  have hsame : (a.texture? name).map (·.face) = (a₀.texture? name).map (·.face) := by
    rw [hfind, h.faces, ← h₀.faces, ← hfind]
  rcases hfirst : a₀.texture? name with _ | t₀ <;> rcases hsecond : a.texture? name with _ | t <;>
    rw [hfirst, hsecond] at hsame
  · exact Or.inl ⟨rfl, rfl⟩
  · cases hsame
  · cases hsame
  · have hface := Option.some.inj hsame
    have hdecl := congrArg Face.decl hface
    have hequipped := congrArg Face.equipped hface
    exact Or.inr ⟨t₀, t, rfl, rfl, hdecl, hequipped⟩

theorem isSome_slotOf (h : a.Ready fs) (h₀ : a₀.Ready fs) (s : SamplerDecl) :
    (SlotTables.slotOf a s).isSome = (SlotTables.slotOf a₀ s).isSome := by
  rw [SlotTables.slotOf, SlotTables.slotOf]
  rcases h.texture?_cases h₀ s.textureName with
    ⟨hfind₀, hfind⟩ | ⟨t₀, t, hfind₀, hfind, hdecl, howned⟩ <;> rw [hfind₀, hfind]
  rw [Option.bind_some, Option.bind_some, hdecl]
  split
  · rfl
  · rfl
  · rw [Option.isSome_map, Option.isSome_map, howned]

/-- What a texture of the table needs for views to draw into it. -/
theorem exists_desc (h : a.Ready fs) {t : TableTexture} (ht : t ∈ a.textures) {o : OwnedTexture}
    (howned : t.owned = some o) : ∃ desc, a.device.Stands o.resource desc ∧
      desc.usage.renderTarget = true := by
  have hsound := h.sound.owned t ht o howned
  obtain ⟨c, hmake, hmade⟩ := hsound.made
  obtain ⟨levels, hdesc⟩ := Texture.desc_of_make hmake
  obtain ⟨c', hget⟩ := Option.isSome_iff_exists.mp
    (Option.isSome_map.symm.trans (h.stands t ht o howned))
  have halike : c'.desc = c.desc := hmade.alike hget
  refine ⟨c'.desc, ⟨hsound.given, by rw [Device.textureDesc?, hget]; rfl⟩, ?_⟩
  rw [halike, hdesc]
  rfl

end Ready

/-- The textures of an engine are there, since they are its own. -/
theorem Ready.of_owns {e : Engine} {others : Multiset ObjectRef} (hs : e.toAssets.Sound)
    (howns : e.Owns others) : e.toAssets.Ready e.faces where
  sound := hs
  faces := rfl
  stands t ht o howned := by
    have hlive := howns.assets_live.owned ht howned _ List.mem_cons_self
    rw [Device.textureDesc?, Option.isSome_map]
    exact (Store.get?_isSome_iff e.device.objects o.resource).mpr hlive

namespace Confined

theorem builds_of_eq (h : a.Confined fs drawn) (hbuilds : a.Builds a')
    (htextures : a'.textures = a.textures) : a'.Confined fs drawn where
  toReady := h.toReady.builds hbuilds
  within := htextures ▸ h.within

theorem release (h : a.Confined fs drawn) {refs : List ObjectRef}
    (hprivate : ∀ r ∈ refs, r.kind.isPrivate) :
    (HasDevice.mapDevice (fun d ↦ d.release refs) a).Confined fs drawn :=
  h.builds_of_eq (builds_release hprivate a) rfl

theorem within_setOwned (h : a.Confined fs drawn) {name : String} {t : TableTexture}
    {o o' : OwnedTexture} {gamma : Bool} (hfind : a.texture? name = some t)
    (howned : t.owned = some o) (hdrawn : drawn gamma name)
    (hother : o'.targets.pick (!gamma) = o.targets.pick (!gamma)) :
    ∀ u ∈ (a.setOwned name o').textures, ∀ gamma, u.offers gamma = true →
      drawn gamma u.decl.name := by
  intro u' hu' gamma' hoffers
  obtain ⟨u, hu, rfl⟩ := List.mem_map.mp hu'
  by_cases hname : u.decl.name = name
  · rw [if_pos hname] at hoffers ⊢
    rcases Bool.eq_or_eq_not gamma' gamma with rfl | rfl
    · exact hname ▸ hdrawn
    · -- the other variant is offered by the entry as it was
      obtain ⟨ht, htname⟩ := mem_of_texture? hfind
      obtain rfl : u = t :=
        List.inj_on_of_nodup_map h.sound.names hu ht (hname.trans htname.symm)
      refine h.within u hu _ ?_
      rw [TableTexture.offers, howned, Option.bind_some, ← hother]
      exact hoffers
  · rw [if_neg hname] at hoffers ⊢
    exact h.within u hu gamma' hoffers

end Confined

end Assets

/-! ## Runs side by side -/

section Repeats

open CachedDescriptor (cache withCache)
open Assets (Confined)

variable {fs : List Face} {drawn : Bool → String → Prop} {α β α' β' : Type}

/-- If the first action succeeds from some assets, the second one yields from all others that are
ready in the same way, with a value that corresponds to what the first one returned. -/
def Repeats (fs : List Face) (drawn : Bool → String → Prop) (m₀ : BuildM α)
    (m : BuildM β) (corresponds : α → β → Prop) : Prop :=
  ∀ a₀ x₀ a₀', a₀.Ready fs → m₀ a₀ = (.ok x₀, a₀') →
    Yields (Confined fs drawn) m (corresponds x₀)

namespace Repeats

variable {m₀ : BuildM α} {m : BuildM β} {R : α → β → Prop}

protected theorem pure {x₀ : α} {x : β} (h : R x₀ x) :
    Repeats fs drawn (pure x₀) (pure x) R := by
  intro a₀ y₀ a₀' _ run
  cases run
  exact Yields.pure h

protected theorem throw {e : EngineError} : Repeats fs drawn (throw e) m R := by
  intro a₀ x₀ a₀' _ run
  cases run

protected theorem bind {k₀ : α → BuildM α'} {k : β → BuildM β'} {R' : α' → β' → Prop}
    (hm : Repeats fs drawn m₀ m R) (hbuilds : Steady Builds m₀)
    (hk : ∀ x₀ x, R x₀ x → Repeats fs drawn (k₀ x₀) (k x) R') :
    Repeats fs drawn (m₀ >>= k₀) (m >>= k) R' := by
  intro a₀ y₀ a₀' h₀ run
  obtain ⟨x₀, a₁, hfirst, hrest⟩ := bind_eq_ok run
  exact (hm a₀ x₀ a₁ h₀ hfirst).bind fun x hx ↦
    hk x₀ x hx a₁ y₀ a₀' (h₀.builds (hbuilds.run hfirst)) hrest

protected theorem keeping {refs₀ refs : List ObjectRef} (hm : Repeats fs drawn m₀ m R)
    (hprivate : ∀ r ∈ refs, r.kind.isPrivate) :
    Repeats fs drawn (keeping refs₀ m₀) (keeping refs m) R := by
  intro a₀ x₀ a₀' h₀ run
  exact (hm a₀ x₀ a₀' h₀ (keeping_eq_ok run)).keeping fun a ha ↦ ⟨ha.release hprivate, rfl⟩

end Repeats

/-! ## Device objects -/

theorem yields_onDevice {m : ExceptT EngineError (StateM Device) α} {after : α → Prop}
    (h : Yields (fun _ ↦ True) m after) (hbuilds : Steady Device.Builds m) :
    Yields (Confined fs drawn) (BuildM.onDevice m) after := by
  intro a ha
  exact ⟨ha.builds_of_eq (Builds.of_device (hbuilds a.device)) rfl, (h a.device trivial).2⟩

/-- **What was created can be created again.** -/
theorem repeats_create {kind : ObjectKind} (hkind : kind ≠ .texture)
    {content : Except DeviceError kind.Content} {wrap : DeviceError → EngineError} :
    Repeats fs drawn (BuildM.onDevice ((Device.create kind fun _ ↦ content).named wrap))
      (BuildM.onDevice ((Device.create kind fun _ ↦ content).named wrap)) fun _ _ ↦ True := by
  intro a₀ h a₀' _ run
  rw [run_onDevice] at run
  rcases hrun : (Device.create kind fun _ ↦ content).named wrap a₀.device with ⟨e | h', d⟩ <;>
    rw [hrun] at run <;> cases run
  obtain ⟨-, x, hx, -⟩ := Device.create_eq_ok (named_eq_ok hrun)
  exact yields_onDevice (Device.yields_create_const hx).named (Device.builds_create hkind _).named

/-- **A state is found or created** if its descriptor is valid. -/
theorem yields_state {δ : Type} {kind : ObjectKind} [DecidableEq δ] [CachedDescriptor δ kind]
    [LawfulCache δ kind] {desc : δ} {wrap : DeviceError → EngineError} {x : kind.Content}
    (hmakes : StateDescriptor.Makes desc x) :
    Yields (Confined fs drawn) (BuildM.state desc wrap) fun _ ↦ True := by
  intro a ha
  refine ⟨ha.builds_of_eq (builds_state desc wrap a) (by rw [run_state]), ?_⟩
  rw [run_state]
  rcases (cache a.states).request_cases desc a.device with
    ⟨h, -, hreq⟩ | ⟨h, d, hrun, hreq⟩ | ⟨e, d, hrun, hreq⟩ <;> rw [hreq]
  · exact ⟨trivial, Nat.le_refl _⟩
  all_goals
    have hyields : Yields (fun _ ↦ True) (StateDescriptor.create desc) fun _ ↦ True := by
      rw [hmakes]
      exact Device.yields_create_const rfl
  · exact ⟨trivial, (hyields.ok trivial hrun).2.2⟩
  · exact (hyields.error trivial hrun).2

theorem repeats_state {δ : Type} {kind : ObjectKind} [DecidableEq δ] [CachedDescriptor δ kind]
    [LawfulCache δ kind] (desc : δ) (wrap : DeviceError → EngineError) :
    Repeats fs drawn (BuildM.state desc wrap) (BuildM.state desc wrap) fun _ _ ↦ True := by
  intro a₀ h a₀' h₀ run
  obtain ⟨x, hmakes, -⟩ := makes_of_state h₀.sound run
  exact yields_state hmakes

theorem repeats_createShaders (entryPoints : List EntryPoint) :
    Repeats fs drawn (createShaders entryPoints) (createShaders entryPoints)
      fun shaders₀ shaders ↦ shaders.map (·.1) = shaders₀.map (·.1) := by
  induction entryPoints with
  | nil => exact Repeats.pure rfl
  | cons e rest ih =>
    rw [createShaders]
    refine (repeats_create (by decide)).bind
      (builds_onDevice (Device.builds_create (by decide) _).named) fun shader₀ shader _ ↦ ?_
    refine Repeats.keeping ?_ (List.forall_mem_singleton.mpr rfl)
    exact ih.bind (builds_createShaders rest) fun shaders₀ shaders hsame ↦
      Repeats.pure (by rw [List.map_cons, List.map_cons, hsame])

theorem repeats_createUniformBuffer (e : Effect) :
    Repeats fs drawn (createUniformBuffer e) (createUniformBuffer e) fun _ _ ↦ True := by
  rw [createUniformBuffer]
  split
  · exact Repeats.pure trivial
  · exact (repeats_create (by decide)).bind
      (builds_onDevice (Device.builds_create (by decide) _).named) fun _ _ _ ↦ Repeats.pure trivial

theorem repeats_timer (wrap : DeviceError → EngineError) :
    Repeats fs drawn (BuildM.onDevice (Timer.create.named wrap))
      (BuildM.onDevice (Timer.create.named wrap)) fun _ _ ↦ True :=
  fun _ _ _ _ _ ↦ yields_onDevice Timer.yields_create.named builds_timer.named

/-! ## Slots -/

namespace SlotTables

def taken (tables : SlotTables) : List Bool := tables.samplers.map Option.isSome

theorem isSome_join_taken {tables tables₀ : SlotTables} (h : tables.taken = tables₀.taken)
    (i : Nat) : (tables.samplers[i]?.join).isSome = (tables₀.samplers[i]?.join).isSome := by
  have hjoin (tables : SlotTables) :
      (tables.samplers[i]?.join).isSome = (tables.taken[i]?).getD false := by
    rw [taken, List.getElem?_map]
    rcases tables.samplers[i]? with _ | _ | state <;> rfl
  rw [hjoin, h, ← hjoin]

theorem repeats_bind {tables₀ tables : SlotTables} (htaken : tables.taken = tables₀.taken)
    (s : SamplerDecl) : Repeats fs drawn (tables₀.bind s) (tables.bind s)
      fun tables₀ tables ↦ tables.taken = tables₀.taken := by
  intro a₀ tables₀' a₀' h₀ run a ha
  have hsame := isSome_join_taken htaken s.binding.toNat
  have hslot := ha.isSome_slotOf h₀ s
  rcases tables₀.bind_cases s a₀ with ⟨-, e, hrun₀⟩ | ⟨slot₀, hbinds₀, hcase₀⟩
  · cases run.symm.trans hrun₀
  obtain ⟨slot, hslot⟩ := Option.isSome_iff_exists.mp
    (hslot.trans (Option.isSome_of_eq_some hbinds₀.slot))
  rcases tables.bind_cases s a with ⟨himpossible, -⟩ | ⟨slot', -, hcase⟩
  · exact absurd ⟨hbinds₀.sampler, hbinds₀.texture, hslot⟩ (himpossible slot)
  rcases hcase₀ with ⟨hsome₀, hrun₀⟩ | ⟨hnone₀, hrun₀⟩ <;>
    rcases hcase with ⟨hsome, hrun⟩ | ⟨hnone, hrun⟩ <;> rw [hrun₀] at run <;> rw [hrun]
  · cases run
    exact ⟨ha, htaken, Nat.le_refl _⟩
  · -- the same slots are taken in both, so either both request a state or none does
    cases hsome₀.symm.trans (hsame.symm.trans hnone)
  · cases hnone₀.symm.trans (hsame.symm.trans hsome)
  · -- both request the state of the same descriptor
    rcases hstate₀ : BuildM.state (SamplerDesc.ofDecl s)
        (.samplerCreation s.name (SamplerDesc.ofDecl s)) a₀ with ⟨e | state₀, a₁⟩ <;>
      rw [hstate₀] at run <;> cases run
    have hyields : Yields (Confined fs drawn) _ _ := repeats_state _ _ a₀ _ _ h₀ hstate₀
    rcases hstate : BuildM.state (SamplerDesc.ofDecl s)
        (.samplerCreation s.name (SamplerDesc.ofDecl s)) a with ⟨e | state, a₂⟩
    · exact hyields.error ha hstate
    · obtain ⟨ha₂, -, hle⟩ := hyields.ok ha hstate
      refine ⟨ha₂, ?_, hle⟩
      change (tables.samplers.set _ _).map Option.isSome
        = (tables₀.samplers.set _ _).map Option.isSome
      rw [List.map_set, List.map_set]
      exact congrArg (fun slots : List Bool ↦ slots.set _ true) htaken

theorem repeats_bindAll {tables₀ tables : SlotTables} (htaken : tables.taken = tables₀.taken)
    (samplers : List SamplerDecl) :
    Repeats fs drawn (tables₀.bindAll samplers) (tables.bindAll samplers) fun _ _ ↦ True := by
  induction samplers generalizing tables₀ tables with
  | nil => exact Repeats.pure trivial
  | cons s rest ih =>
    exact (repeats_bind htaken s).bind (builds_bind tables₀ s) fun _ _ htaken' ↦ ih htaken'

end SlotTables

/-! ## Targets -/

namespace PassTarget

/-- A texture of the table is drawn into, unless the view for it is refused. -/
theorem pending_target {a : Assets} (ha : a.Ready fs) {t : TableTexture} (ht : t ∈ a.textures)
    {o : OwnedTexture} (howned : t.owned = some o) (name : String) (gamma : Bool) :
    match o.target name gamma a.device with
    | (.ok _, d) => d.pending ≤ a.device.pending
    | (.error _, d) => d.pending < a.device.pending := by
  obtain ⟨desc, hstands, hdrawable⟩ := ha.exists_desc ht howned
  rcases o.target_cases name gamma a.device with ⟨v, -, hrun⟩ | ⟨hnone, e, hrun⟩ |
    ⟨-, format, hformat, ⟨cause, e, d, hcreate, hrun⟩ | ⟨v, d, hcreate, hrun⟩⟩ <;> rw [hrun]
  · rw [OwnedTexture.targetFormat?, hstands.2] at hnone
    cases hnone
  all_goals
    have hbytes : format.bytesPerTexel = desc.format.bytesPerTexel := by
      rw [OwnedTexture.targetFormat?, hstands.2] at hformat
      cases hformat
      cases gamma
      · exact Format.bytesPerTexel_linear _
      · exact Format.bytesPerTexel_gamma _
    have hyields := Device.yields_createRenderTargetView (t := o.resource) hbytes hdrawable
  · exact (hyields.error hstands hcreate).2
  · change (d.issue _).pending ≤ a.device.pending
    rw [Device.pending_issue]
    exact (hyields.ok hstands hcreate).2.2

theorem pick_target_other {o o' : OwnedTexture} {name : String} {gamma : Bool} {d d' : Device}
    {view : Handle .renderTargetView} (run : o.target name gamma d = (.ok (view, o'), d')) :
    o'.targets.pick (!gamma) = o.targets.pick (!gamma) := by
  rcases o.target_cases name gamma d with ⟨v, -, hrun⟩ | ⟨-, e, hrun⟩ |
    ⟨-, format, -, ⟨cause, e, d₁, -, hrun⟩ | ⟨v, d₁, -, hrun⟩⟩ <;> cases run.symm.trans hrun
  · rfl
  · exact Variants.pick_set_other _ _ _

theorem repeats_ofTexture (place : PassPlace) {gamma : Bool} {name : String}
    (hdrawn : drawn gamma name) :
    Repeats fs drawn (ofTexture place gamma name) (ofTexture place gamma name) fun _ _ ↦ True := by
  intro a₀ target₀ a₀' h₀ run₀ a ha
  have hbuilds := builds_ofTexture place gamma name a
  rcases ofTexture_cases place gamma name a₀ with ⟨-, e, hrun₀⟩ | ⟨t₀, o₀, hfound₀, -⟩
  · cases run₀.symm.trans hrun₀
  -- what was found is found again
  obtain ⟨t, o, hfound⟩ : ∃ t o, Found a name t o := by
    rcases ha.texture?_cases h₀ name with ⟨hnone, -⟩ | ⟨t₁, t, hfind₀, hfind, hdecl, howned⟩
    · cases hnone.symm.trans hfound₀.find
    · cases hfind₀.symm.trans hfound₀.find
      rw [hfound₀.owned] at howned
      obtain ⟨o, howned⟩ := Option.isSome_iff_exists.mp howned
      exact ⟨t, o, hfind, hdecl ▸ hfound₀.reference, howned⟩
  obtain ⟨hmem, -⟩ := Assets.mem_of_texture? hfound.find
  have hpending := pending_target ha.toReady hmem hfound.owned name gamma
  rcases ofTexture_cases place gamma name a with ⟨hnone, -⟩ | ⟨t', o', hfound', hcase⟩
  · exact absurd hfound (hnone t o)
  cases hfound.find.symm.trans hfound'.find
  cases hfound.owned.symm.trans hfound'.owned
  rcases hcase with ⟨e, d, hstep, hrun⟩ | ⟨view, o₁, d, hstep, hrun⟩ <;>
    rw [hstep] at hpending <;> rw [hrun] at hbuilds ⊢
  · exact ⟨ha.builds_of_eq hbuilds rfl, hpending⟩
  · exact ⟨⟨ha.toReady.builds hbuilds, ha.within_setOwned hfound.find hfound.owned hdrawn
      (pick_target_other hstep)⟩, trivial, hpending⟩

theorem repeats_ofTextures (place : PassPlace) {gamma : Bool} {names : List String}
    (hdrawn : ∀ name ∈ names, drawn gamma name) :
    Repeats fs drawn (ofTextures place gamma names) (ofTextures place gamma names)
      fun _ _ ↦ True := by
  induction names with
  | nil => exact Repeats.pure trivial
  | cons name rest ih =>
    obtain ⟨hfirst, hrest⟩ := List.forall_mem_cons.mp hdrawn
    refine (repeats_ofTexture place hfirst).bind (builds_ofTexture place gamma name) fun _ _ _ ↦ ?_
    exact (ih hrest).bind (builds_ofTextures place gamma rest) fun _ _ _ ↦ Repeats.pure trivial

end PassTarget

/-! ## Passes and techniques -/

/-- The pass draws into a variant of a texture. -/
def PassDecl.Draws (p : PassDecl) (gamma : Bool) (name : String) : Prop :=
  p.targetsBackbuffer = false ∧ gamma = p.gammaWrite ∧ name ∈ p.targetNames

theorem PassTarget.repeats_ofPass (scene : Scene) (place : PassPlace) {p : PassDecl}
    (hdrawn : ∀ gamma name, p.Draws gamma name → drawn gamma name) :
    Repeats fs drawn (ofPass scene place p) (ofPass scene place p) fun _ _ ↦ True := by
  rw [ofPass]
  split
  · exact Repeats.pure trivial
  · rename_i hp
    exact repeats_ofTextures place fun name hname ↦
      hdrawn _ name ⟨Bool.eq_false_of_not_eq_true hp, rfl, hname⟩

def EffectObjects.Named (objects₀ objects : EffectObjects) : Prop :=
  objects.shaders.map (·.1) = objects₀.shaders.map (·.1)

theorem EffectObjects.isSome_shader? {objects : EffectObjects} {name : String}
    (h : name ∈ objects.shaders.map (·.1)) : (objects.shader? name).isSome := by
  obtain ⟨entry, hentry, hname⟩ := List.mem_map.mp h
  exact List.lookup_isSome_iff.mpr ⟨entry, hentry, by simpa using hname.symm⟩

theorem EffectObjects.Named.exists_shader {objects₀ objects : EffectObjects}
    (h : objects₀.Named objects) {name : String} {shader₀ : Handle .shader}
    (hshader₀ : objects₀.shader? name = some shader₀) :
    ∃ shader, objects.shader? name = some shader := by
  obtain ⟨l₁, l₂, hshaders₀, -⟩ := List.lookup_eq_some_iff.mp hshader₀
  have hmem : name ∈ objects.shaders.map (·.1) := by
    rw [h, hshaders₀]
    simp
  exact Option.isSome_iff_exists.mp (isSome_shader? hmem)

variable {objects₀ objects : EffectObjects}

theorem repeats_passShader (hnamed : objects₀.Named objects) (place : PassPlace) (name : String) :
    Repeats fs drawn (passShader objects₀ place name) (passShader objects place name)
      fun _ _ ↦ True := by
  intro a₀ shader₀ a₀' _ run
  obtain ⟨hshader₀, -⟩ := passShader_eq_ok run
  obtain ⟨shader, hshader⟩ := hnamed.exists_shader hshader₀
  rw [passShader, hshader]
  exact Yields.pure trivial

theorem repeats_buildPass (scene : Scene) (hnamed : objects₀.Named objects)
    (bindings₀ bindings : List ViewSlot) (place : PassPlace) {p : PassDecl}
    (hdrawn : ∀ gamma name, p.Draws gamma name → drawn gamma name) :
    Repeats fs drawn (buildPass scene objects₀ bindings₀ place p)
      (buildPass scene objects bindings place p) fun _ _ ↦ True := by
  rw [buildPass, buildPass]
  refine (repeats_passShader hnamed place _).bind (builds_passShader _ _ _) fun _ _ _ ↦ ?_
  refine (repeats_passShader hnamed place _).bind (builds_passShader _ _ _) fun _ _ _ ↦ ?_
  dsimp only
  split
  · rw [throw_bind]
    exact Repeats.throw
  · refine (PassTarget.repeats_ofPass scene place hdrawn).bind
      (PassTarget.builds_ofPass _ _ _) fun _ _ _ ↦ ?_
    refine (repeats_state _ _).bind (builds_state _ _) fun _ _ _ ↦ ?_
    refine (repeats_state _ _).bind (builds_state _ _) fun _ _ _ ↦ ?_
    -- what conflicts is left out, and cannot fail
    exact fun _ _ _ _ _ ↦ Yields.get.bind fun _ _ ↦ Yields.pure trivial

theorem repeats_buildPasses (scene : Scene) (hnamed : objects₀.Named objects)
    (bindings₀ bindings : List ViewSlot) (technique : String) (number : Nat)
    {passes : List PassDecl}
    (hdrawn : ∀ p ∈ passes, ∀ gamma name, p.Draws gamma name → drawn gamma name) :
    Repeats fs drawn (buildPasses scene objects₀ bindings₀ technique number passes)
      (buildPasses scene objects bindings technique number passes) fun _ _ ↦ True := by
  induction passes generalizing number with
  | nil => exact Repeats.pure trivial
  | cons p rest ih =>
    obtain ⟨hfirst, hrest⟩ := List.forall_mem_cons.mp hdrawn
    refine (repeats_buildPass scene hnamed bindings₀ bindings _ hfirst).bind
      (builds_buildPass _ _ _ _ _) fun _ _ _ ↦ ?_
    exact (ih (number + 1) hrest).bind (builds_buildPasses _ _ _ _ _ _) fun _ _ _ ↦
      Repeats.pure trivial

theorem repeats_buildTechnique (scene : Scene) (hnamed : objects₀.Named objects)
    (tables₀ tables : SlotTables) {t : Technique}
    (hdrawn : ∀ p ∈ t.passes, ∀ gamma name, p.Draws gamma name → drawn gamma name) :
    Repeats fs drawn (buildTechnique scene objects₀ tables₀ t)
      (buildTechnique scene objects tables t) fun _ _ ↦ True := by
  rw [buildTechnique, buildTechnique]
  refine (repeats_timer _).bind (builds_onDevice builds_timer.named) fun _ timer _ ↦ ?_
  refine Repeats.keeping ?_ (List.forall_mem_map.mpr fun _ _ ↦ rfl)
  exact (repeats_buildPasses scene hnamed _ _ t.name 0 hdrawn).bind
    (builds_buildPasses _ _ _ _ _ _) fun _ _ _ ↦ Repeats.pure trivial

/-- A technique of the effect draws into a variant of a texture. -/
def Technique.Draws (index : Nat) (t : Technique) (gamma : Bool) (name : String) : Prop :=
  t.effect = index ∧ ∃ p ∈ t.passes, p.Draws gamma name

theorem repeats_buildTechniques (scene : Scene) (hnamed : objects₀.Named objects)
    (tables₀ tables : SlotTables) {index : Nat} {techniques : List Technique}
    (hdrawn : ∀ t ∈ techniques, ∀ gamma name, t.Draws index gamma name → drawn gamma name) :
    Repeats fs drawn (buildTechniques scene objects₀ tables₀ index techniques)
      (buildTechniques scene objects tables index techniques) fun _ _ ↦ True := by
  induction techniques with
  | nil => exact Repeats.pure trivial
  | cons t rest ih =>
    obtain ⟨hfirst, hrest⟩ := List.forall_mem_cons.mp hdrawn
    rw [buildTechniques, buildTechniques]
    split
    · rename_i hindex
      refine (repeats_buildTechnique scene hnamed tables₀ tables fun p hp gamma name hp' ↦
        hfirst gamma name ⟨hindex, p, hp, hp'⟩).bind (builds_buildTechnique _ _ _ _)
        fun _ state _ ↦ ?_
      refine Repeats.keeping ?_ (List.forall_mem_map.mpr fun _ _ ↦ rfl)
      exact (ih hrest).bind (builds_buildTechniques _ _ _ _ _) fun _ _ _ ↦ Repeats.pure trivial
    · exact (ih hrest).bind (builds_buildTechniques _ _ _ _ _) fun _ _ _ ↦ Repeats.pure trivial

/-- **An effect that could be built once can be built again**, and views to draw into textures that
are left behind are some that its passes ask for. -/
theorem repeats_buildEffect (scene : Scene) (index : Nat) (e : Effect)
    {techniques : List Technique}
    (hdrawn : ∀ t ∈ techniques, ∀ gamma name, t.Draws index gamma name → drawn gamma name) :
    Repeats fs drawn (buildEffect scene index e techniques) (buildEffect scene index e techniques)
      fun _ _ ↦ True := by
  rw [buildEffect]
  refine (repeats_createShaders _).bind (builds_createShaders _) fun shaders₀ shaders hnames ↦ ?_
  refine Repeats.keeping ?_ (List.forall_mem_map.mpr fun _ _ ↦ rfl)
  refine (repeats_createUniformBuffer e).bind (builds_createUniformBuffer e) fun b₀ b _ ↦ ?_
  have hnamed : EffectObjects.Named ⟨shaders₀, b₀⟩ ⟨shaders, b⟩ := hnames
  refine Repeats.keeping ?_ (List.forall_mem_map.mpr fun _ _ ↦ rfl)
  refine (SlotTables.repeats_bindAll rfl _).bind (SlotTables.builds_bindAll _ _)
    fun tables₀ tables _ ↦ ?_
  exact (repeats_buildTechniques scene hnamed tables₀ tables hdrawn).bind
    (builds_buildTechniques _ _ _ _ _) fun _ _ _ ↦ Repeats.pure trivial

end Repeats

end EffectChain
