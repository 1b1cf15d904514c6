import EffectChain.Proofs.Texels

/-!
# Textures that activation creates

A texture that an effect declares is made of zeros by the declaration alone, when the first effect
that declares it is activated (`OwnedTexture.create_eq_ok`). Which texture an entry of the table
stands for is settled then. What is built afterwards adds views to draw into it
(`Assets.Builds.resources`).
-/

namespace EffectChain

/-- The texture that is found for the objects was just made from a declaration, and nobody has asked
for a view to draw into it. -/
structure OwnedTexture.Pristine (d : Device) (t : TextureDecl) (o : OwnedTexture) (c : Texture) :
    Prop where
  /-- It is made from the declaration. -/
  make : Texture.make t.textureDesc = .ok c
  /-- It is found on the device. -/
  get? : d.get? o.resource = some c
  /-- There are no views to draw into it. -/
  targets : o.targets = ⟨none, none⟩

theorem Device.get?_of_created {kind : ObjectKind}
    {content : Device → Except DeviceError kind.Content} {d d' : Device} {h : Handle kind}
    (run : create kind content d = (.ok h, d')) {kind' : ObjectKind} {x : Handle kind'}
    (hid : x.id ≤ d.lastId) : d'.get? x = d.get? x := by
  have hget := d.get?_create content hid
  rwa [run] at hget

/-- **A texture is created from its declaration.** -/
theorem OwnedTexture.create_eq_ok {t : TextureDecl} {o : OwnedTexture} {d d' : Device}
    (run : create t d = (.ok o, d')) :
    d.lastId < o.resource.id ∧ ∃ c, o.Pristine d' t c := by
  rw [create] at run
  dsimp only at run
  obtain ⟨resource, d₁, hresource, run⟩ := bind_eq_ok run
  obtain ⟨refusals, c, hmake, hget, hmade⟩ := Device.made_of_create (named_eq_ok hresource)
  obtain ⟨_, _, -, rfl, -⟩ := Device.create_eq_ok (named_eq_ok hresource)
  obtain ⟨_, _, hsame, run⟩ := bind_eq_ok (keeping_eq_ok run)
  cases hsame
  obtain ⟨linear, d₂, hlinear, run⟩ := bind_eq_ok run
  have hlinear := named_eq_ok hlinear
  have hget₂ := (Device.get?_of_created hlinear hmade.id_le).trans hget
  have hid₂ := hmade.id_le.trans (Device.Evolves.create.run hlinear).lastId_le
  have run := keeping_eq_ok run
  split at run
  · rw [pure_bind] at run
    cases run
    exact ⟨Nat.lt_succ_self _, c, hmake, hget₂, rfl⟩
  · obtain ⟨gamma, d₃, hgamma, run⟩ := bind_eq_ok run
    cases run
    exact ⟨Nat.lt_succ_self _, c, hmake,
      (Device.get?_of_created (named_eq_ok hgamma) hid₂).trans hget₂, rfl⟩

/-- What an effect's textures that have no device objects yet become. -/
theorem created_of_materialize {index : Nat} {table table' : List TableTexture} {d d' : Device}
    (run : materialize index table d = (.ok table', d')) :
    List.Forall₂ (fun t t' ↦ t.awaits index = false ∧ t' = t ∨ t.awaits index = true ∧
      ∃ o, t' = { t with owned := some o } ∧ d.lastId < o.resource.id ∧ o.resource.id ≤ d'.lastId ∧
        ∃ c, o.Pristine d' t.decl c) table table' := by
  induction table generalizing d table' with
  | nil =>
    cases run
    exact List.Forall₂.nil
  | cons t rest ih =>
    rw [materialize] at run
    by_cases hawaits : t.awaits index = true
    · rw [if_pos hawaits] at run
      obtain ⟨owned, d₁, howned, run⟩ := bind_eq_ok run
      obtain ⟨rest', d₂, hrest, run⟩ := bind_eq_ok (keeping_eq_ok run)
      cases run
      obtain ⟨hlater, c, hpristine⟩ := OwnedTexture.create_eq_ok howned
      have hid := (OwnedTexture.sound_of_create howned).given
      have hle := ((OwnedTexture.upholds_create t.decl).run howned).evolves.lastId_le
      -- what was there is spared while the rest is created
      have hspared := spared_of_materialize hrest
      refine List.Forall₂.cons (Or.inr ⟨hawaits, owned, rfl, hlater,
        hid.trans hspared.lastId_le, c, hpristine.make, (hspared.get? hid).trans hpristine.get?,
        hpristine.targets⟩) ((ih hrest).imp fun u u' h ↦ h.imp id ?_)
      rintro ⟨hawaits', o, rfl, hlater', hrest'⟩
      exact ⟨hawaits', o, rfl, hle.trans_lt hlater', hrest'⟩
    · rw [if_neg hawaits] at run
      obtain ⟨rest', d₂, hrest, run⟩ := bind_eq_ok run
      cases run
      exact List.Forall₂.cons (Or.inl ⟨by simpa using hawaits, rfl⟩) (ih hrest)

/-- The texture that an entry stands for. -/
def TableTexture.resource? (t : TableTexture) : Option (Handle .texture) :=
  t.owned.map (·.resource)

theorem TableTexture.resource?_eq_some {t : TableTexture} {x : Handle .texture} :
    t.resource? = some x ↔ ∃ o, t.owned = some o ∧ o.resource = x := Option.map_eq_some_iff

/-- Whether there is a view to draw into a variant of the texture. -/
def TableTexture.offers (t : TableTexture) (gamma : Bool) : Bool :=
  (t.owned.bind (·.targets.pick gamma)).isSome

/-- The entry without the views to draw into its texture. -/
def TableTexture.core (t : TableTexture) : TableTexture :=
  { t with owned := t.owned.map fun o ↦ { o with targets := ⟨none, none⟩ } }

theorem TableTexture.resource?_core (t : TableTexture) : t.core.resource? = t.resource? := by
  rw [resource?, core, Option.map_map]
  rfl

/-- The same entry, with the same device objects but for views to draw into its texture. -/
theorem TableTexture.eq_of_core {t t' : TableTexture} (h : t'.core = t.core) :
    t'.decl = t.decl ∧ t'.effects = t.effects ∧ ((t.owned = none ∧ t'.owned = none) ∨
      ∃ o o', t.owned = some o ∧ t'.owned = some o' ∧ o'.resource = o.resource ∧
        o'.views = o.views) := by
  have hdecl := congrArg TableTexture.decl h
  have heffects := congrArg TableTexture.effects h
  have howned := congrArg TableTexture.owned h
  refine ⟨hdecl, heffects, ?_⟩
  simp only [core] at howned
  rcases hfirst : t.owned with _ | o <;> rcases hsecond : t'.owned with _ | o' <;>
    rw [hfirst, hsecond] at howned
  · exact Or.inl ⟨rfl, rfl⟩
  · cases howned
  · cases howned
  · have hsame := Option.some.inj howned
    have hresource := congrArg OwnedTexture.resource hsame
    have hviews := congrArg OwnedTexture.views hsame
    exact Or.inr ⟨o, o', rfl, rfl, hresource, hviews⟩

def Assets.resources (a : Assets) : List (Handle .texture) := a.textures.filterMap (·.resource?)

theorem Assets.mem_resources {a : Assets} {x : Handle .texture} :
    x ∈ a.resources ↔ ∃ t ∈ a.textures, ∃ o, t.owned = some o ∧ o.resource = x := by
  simp only [resources, List.mem_filterMap, TableTexture.resource?_eq_some]

namespace Assets.Builds

variable {a a' : Assets}

/-- **Views to draw into textures are all that building adds to entries.** -/
theorem map_core (h : a.Builds a') (hs : a.Sound) :
    a'.textures.map (·.core) = a.textures.map (·.core) := by
  induction h with
  | refl => rfl
  | tail hbefore hlast ih =>
    refine Eq.trans ?_ ih
    cases hlast with
    | device _ | cache _ _ => rfl
    | draw hfind howned run =>
      obtain ⟨-, hs₁⟩ := Builds.toExtends hbefore hs
      obtain ⟨hgrows, -⟩ := OwnedTexture.target_eq_ok run
      refine map_eq_of_forall₂ (forall₂_setOwned hs₁.names hfind (fun u _ _ ↦ rfl) ?_)
      rw [TableTexture.core, TableTexture.core, howned, Option.map_some, Option.map_some,
        hgrows.resource, hgrows.views]

/-- **Entries go on standing for their textures.** -/
theorem map_resource? (h : a.Builds a') (hs : a.Sound) :
    a'.textures.map (·.resource?) = a.textures.map (·.resource?) := by
  have hsame := congrArg (List.map (·.resource?)) (h.map_core hs)
  simpa [Function.comp_def, TableTexture.resource?_core] using hsame

theorem resources (h : a.Builds a') (hs : a.Sound) : a'.resources = a.resources := by
  have hsame := congrArg (List.filterMap id) (h.map_resource? hs)
  rwa [List.filterMap_map, List.filterMap_map] at hsame

theorem texture?_cases (h : a.Builds a') (hs : a.Sound) (name : String) :
    (a.texture? name = none ∧ a'.texture? name = none) ∨
      ∃ t t', a.texture? name = some t ∧ a'.texture? name = some t' ∧ t'.core = t.core := by
  have hfind (a : Assets) : (a.texture? name).map (·.core)
      = (a.textures.map (·.core)).find? fun t ↦ t.decl.name = name := by
    rw [List.find?_map]
    rfl
  have hsame : (a'.texture? name).map (·.core) = (a.texture? name).map (·.core) := by
    rw [hfind, h.map_core hs, ← hfind]
  rcases hfirst : a.texture? name with _ | t <;> rcases hsecond : a'.texture? name with _ | t' <;>
    rw [hfirst, hsecond] at hsame
  · exact Or.inl ⟨rfl, rfl⟩
  · cases hsame
  · cases hsame
  · exact Or.inr ⟨t, t', rfl, rfl, Option.some.inj hsame⟩

end Assets.Builds

end EffectChain
