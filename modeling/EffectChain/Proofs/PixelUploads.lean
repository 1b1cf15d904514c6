import EffectChain.Proofs.Mips
import EffectChain.Proofs.Shapes

/-!
# Uploads read back

An upload packs four-channel pixels to the channels of a format and hands them to the device in
rows, whose pitch is computed from the size of the packed data. The device compares pitch and size
with the texture by itself, and does nothing if they do not fit. Nobody would hear of it, so they
have to fit every time. They do: a texture of the table was made from its declaration, and no
command changes the sizes of its levels (`Session.Reachable.formed`).

What comes of an upload is therefore all or nothing. It fails and the engine stays as it was, or the
channels of the pixels are what is read from the first level through either view, the other levels
are filtered from it, and no other texture changes (`Session.Reachable.upload_readBack`).
-/

namespace EffectChain

/-! ## Textures of the table -/

/-- What is found for the texture of the entry was made from the declaration, and edited since. -/
def TableTexture.Formed (d : Device) (t : TableTexture) : Prop :=
  ∀ o, t.owned = some o → ∀ c, d.get? o.resource = some c → c.MadeFrom t.decl.textureDesc

namespace Assets

variable {a a' : Assets}

/-- The textures of the table were made from their declarations. -/
def Formed (a : Assets) : Prop := ∀ t ∈ a.textures, t.Formed a.device

/-- Work edits textures, so those that stay in the table stay what they are made from. -/
theorem Formed.works {ok : Command → Prop} (h : a.Formed) (hs : a.Sound)
    (hworks : a.device.Works ok a'.device) {t t' : TableTexture} (ht : t ∈ a.textures)
    (hdecl : t'.decl = t.decl) (hresource : t'.resource? = t.resource?) : t'.Formed a'.device := by
  intro o' howned' c' hget'
  have hfound : t.resource? = some o'.resource :=
    hresource.symm.trans (TableTexture.resource?_eq_some.mpr ⟨o', howned', rfl⟩)
  obtain ⟨o, howned, heq⟩ := TableTexture.resource?_eq_some.mp hfound
  rw [← heq] at hget'
  obtain ⟨c, hget, hedits⟩ := hworks.edits (hs.owned t ht o howned).given hget'
  rw [hdecl]
  exact (h t ht o howned c hget).edits hedits

/-- The entries are those that there were, or have no texture yet. -/
theorem Formed.of_entries {ok : Command → Prop} (h : a.Formed) (hs : a.Sound)
    (hworks : a.device.Works ok a'.device)
    (hentries : ∀ t' ∈ a'.textures, t'.owned.isSome →
      ∃ t ∈ a.textures, t'.decl = t.decl ∧ t'.resource? = t.resource?) : a'.Formed := by
  intro t' ht' o' howned'
  obtain ⟨t, ht, hdecl, hresource⟩ := hentries t' ht' (by rw [howned']; rfl)
  exact h.works hs hworks ht hdecl hresource o' howned'

/-- Textures that are created for an effect are made from its declarations. -/
theorem Formed.materialize {index : Nat} {textures : List TableTexture} {d : Device}
    (h : a.Formed) (hs : a.Sound)
    (run : materialize index a.textures a.device = (.ok textures, d)) :
    ({ a with device := d, textures } : Assets).Formed := by
  have hworks : a.device.Works (fun _ ↦ True) ({ a with device := d, textures } : Assets).device :=
    (works_materialize index a.textures).run run
  intro t' ht'
  obtain ⟨t, ht, ⟨-, rfl⟩ | ⟨-, o, rfl, -, -, c, hpristine⟩⟩ :=
    exists_of_forall₂_right (created_of_materialize run) ht'
  · exact h.works hs hworks ht rfl rfl
  · intro o' howned' c' hget'
    cases howned'
    cases hpristine.get?.symm.trans hget'
    exact .of_make hpristine.make

theorem Formed.builds (h : a.Formed) (hs : a.Sound) (hbuilds : a.Builds a') : a'.Formed := by
  refine h.of_entries hs hbuilds.works fun t' ht' _ ↦ ?_
  have hcore : t'.core ∈ a.textures.map (·.core) := by
    rw [← hbuilds.map_core hs]
    exact List.mem_map_of_mem ht'
  obtain ⟨t, ht, heq⟩ := List.mem_map.mp hcore
  obtain ⟨hdecl, -, -⟩ := TableTexture.eq_of_core heq.symm
  refine ⟨t, ht, hdecl, ?_⟩
  rw [← TableTexture.resource?_core, ← heq, TableTexture.resource?_core]

theorem Formed.register (h : a.Formed) (index : Nat) (decls : List TextureDecl) :
    ({ a with textures := registerTextures index decls a.textures } : Assets).Formed := by
  intro t' ht' o howned
  obtain ⟨t, ht, hdecl, howned'⟩ := owned_of_mem_registerTextures ht' howned
  rw [← hdecl]
  exact h t ht o howned'

end Assets

namespace Engine

variable {e : Engine} {index : Nat}

theorem formed_activate (h : e.toAssets.Formed) (hs : e.toAssets.Sound) :
    (e.activate index).2.toAssets.Formed := by
  rcases heffect : e.effect? index with _ | effect
  · rw [activate, heffect]
    exact h
  · rw [assets_activate heffect]
    rcases (e.build_run index effect).assets with hsame | ⟨result, d, hrun, hrest⟩
    · rwa [hsame]
    · rcases hrest with hsame | ⟨textures, rfl, hbuilds⟩
      · have hworks : e.device.Works (fun _ ↦ True)
            ({ e.toAssets with device := d } : Assets).device :=
          (works_materialize index e.textures).run hrun
        rw [hsame]
        exact fun t ht ↦ h.works hs hworks ht rfl rfl
      · exact (h.materialize hs hrun).builds (extends_materialize hrun hs).2 hbuilds

theorem formed_load (h : e.toAssets.Formed) (htables : e.Tables) (m : EffectModule) :
    (e.load m).2.toAssets.Formed := by
  rcases e.load_cases m with ⟨-, hrun⟩ | ⟨-, hrun⟩ <;> rw [hrun]
  · exact h
  · exact formed_activate (h.register _ _) (htables.registered m.reserveSlots).assets

theorem formed_reload (h : e.toAssets.Formed) (htables : e.Tables) :
    (e.reload index).2.toAssets.Formed := by
  rcases htables.reload_cases index with ⟨-, hrun⟩ | ⟨effect, -, hrun⟩ <;> rw [hrun]
  · exact h
  · have hdeactivated : (e.deactivate index).toAssets.Formed := by
      have hworks : e.device.Works (fun _ ↦ True) (e.deactivate index).device :=
        Device.Works.release _ _
      exact fun t ht ↦ h.works htables.assets hworks ht rfl rfl
    exact formed_activate hdeactivated (htables.deactivated index).assets

theorem formed_unload (h : e.toAssets.Formed) (hs : e.toAssets.Sound) :
    (e.unload index).2.toAssets.Formed := by
  have hworks : e.device.Works (fun _ ↦ True) (e.unload index).2.device := e.works_unload index
  refine h.of_entries hs hworks fun t' ht' _ ↦ ?_
  rcases e.unload_cases index with ⟨-, hrun⟩ | ⟨effect, -, hrun⟩ <;> rw [hrun] at ht'
  · exact ⟨t', ht', rfl, rfl⟩
  · obtain ⟨t, ht, rfl⟩ := exists_of_mem_withdrawTextures ht'
    exact ⟨t, ht, rfl, rfl⟩

end Engine

/-- **The textures of effects are made from their declarations**, and whatever else happens edits
them. -/
theorem Session.Reachable.formed {allowed : Session → Event → Prop} {s : Session}
    (hs : s.Reachable allowed) : s.engine.toAssets.Formed := by
  induction hs with
  | start timing config => exact nofun
  | @step s event hs _ ih =>
    have hworks := s.works_step event
    rcases hloads : event.loads with _ | _
    · refine ih.of_entries hs.tables.assets hworks fun t ht _ ↦ ⟨t, ?_, rfl, rfl⟩
      rwa [(rests_step s hloads).textures] at ht
    · cases event with
      | init swapchain =>
        intro t ht o howned
        have hmem := Assets.mem_resources.mpr ⟨t, ht, o, howned, rfl⟩
        rw [hs.resources_init] at hmem
        cases hmem
      | reset | unloadAll => exact nofun
      | load m => exact Engine.formed_load ih hs.tables m
      | reload index => exact Engine.formed_reload ih hs.tables
      | unload index => exact Engine.formed_unload ih hs.tables.assets
      | _ => cases hloads

/-! ## Packing -/

namespace TextureDecl

/-- Four-channel pixels can be packed for the texture: it has 8-bit channels, and there are four
bytes for every texel. -/
structure Takes (t : TextureDecl) (pixels : Bytes) : Prop where
  /-- The format. -/
  format : t.format = .r8 ∨ t.format = .rg8 ∨ t.format = .rgba8
  /-- The number of bytes. -/
  size : pixels.size = 4 * t.width.toNat * t.height.toNat

/-- The data is the pixels, packed to the channels of the texture. -/
structure Packs (t : TextureDecl) (pixels data : Bytes) : Prop where
  /-- There is a texel of the format for every pixel. -/
  size : data.size = t.width.toNat * t.height.toNat * t.format.deviceFormat.bytesPerTexel
  /-- It has the channels of the pixel that the format has. -/
  byteAt : ∀ i < t.width.toNat * t.height.toNat, ∀ c < t.format.deviceFormat.bytesPerTexel,
    data.byteAt (i * t.format.deviceFormat.bytesPerTexel + c) = pixels.byteAt (4 * i + c)

end TextureDecl

theorem TextureFormat.uploadChannels?_isSome {f : TextureFormat} :
    f.uploadChannels?.isSome ↔ f = .r8 ∨ f = .rg8 ∨ f = .rgba8 := by
  cases f <;> decide

/-- Pixels are packed if the texture takes them, and refused otherwise. -/
theorem packUpload_cases (t : TextureDecl) (pixels : Bytes) :
    (∃ cause, packUpload t pixels = .error cause ∧ ¬t.Takes pixels) ∨
      ∃ data, packUpload t pixels = .ok data ∧ t.Takes pixels ∧ t.Packs pixels data := by
  rw [packUpload]
  rcases hchannels : t.format.uploadChannels? with _ | channels
  · refine Or.inl ⟨_, rfl, fun h ↦ ?_⟩
    have hsome := TextureFormat.uploadChannels?_isSome.mpr h.format
    rw [hchannels] at hsome
    cases hsome
  · dsimp only
    have hcount : t.width.toNat * t.height.toNat * 4 = 4 * t.width.toNat * t.height.toNat := by
      rw [Nat.mul_comm, Nat.mul_assoc]
    by_cases hsize : pixels.size = t.width.toNat * t.height.toNat * 4
    · rw [if_neg (not_not_intro hsize)]
      refine Or.inr ⟨_, rfl, ⟨?_, hsize.trans hcount⟩, ?_⟩
      · exact TextureFormat.uploadChannels?_isSome.mp (by rw [hchannels]; rfl)
      · obtain rfl := TextureFormat.uploadChannels?_eq_bytesPerTexel hchannels
        refine ⟨Bytes.size_tabulate _ _, fun i hi c hc ↦ ?_⟩
        set channels := t.format.deviceFormat.bytesPerTexel
        have hpos : 0 < channels := Nat.zero_lt_of_lt hc
        have hlt : i * channels + c < t.width.toNat * t.height.toNat * channels := by
          calc i * channels + c < i * channels + channels := Nat.add_lt_add_left hc _
            _ = (i + 1) * channels := (Nat.succ_mul i channels).symm
            _ ≤ t.width.toNat * t.height.toNat * channels := Nat.mul_le_mul_right _ hi
        have hdiv : (i * channels + c) / channels = i := by
          rw [Nat.mul_comm, Nat.mul_add_div hpos, Nat.div_eq_of_lt hc, Nat.add_zero]
        have hmod : (i * channels + c) % channels = c := by
          rw [Nat.mul_comm, Nat.mul_add_mod, Nat.mod_eq_of_lt hc]
        rw [Bytes.byteAt_tabulate, if_pos hlt, hdiv, hmod, Nat.mul_comm i 4]
    · rw [if_pos hsize]
      exact Or.inl ⟨_, rfl, fun h ↦ hsize (h.size.trans hcount.symm)⟩

/-! ## Rows -/

namespace TextureDecl

/-- The pitch of the rows in which packed data is handed over. -/
def rowPitch (t : TextureDecl) (data : Bytes) : Nat := data.size / (max t.height 1).toNat

theorem rowPitch_eq {t : TextureDecl} (h : 0 < t.height.toNat) (data : Bytes) :
    t.rowPitch data = data.size / t.height.toNat := by
  have hmax : (max t.height 1).toNat = t.height.toNat := by
    change (if t.height ≤ 1 then 1 else t.height).toNat = t.height.toNat
    split
    · rename_i hle
      exact Nat.le_antisymm h (UInt32.le_iff_toNat_le.mp hle)
    · rfl
  rw [rowPitch, hmax]

end TextureDecl

namespace Texture

variable {c : Texture} {data : Bytes}

/-- **Data that fills the first level replaces it**, in rows of a pitch that its size gives. -/
theorem WellFormed.upload_eq (h : c.WellFormed) (hsize : data.size = Mip.byteSize c.desc 0) :
    c.upload data (data.size / c.desc.height.toNat) = c.withBase data := by
  have hwidth := Mip.side_of_pos h.width
  have hheight := Mip.side_of_pos h.height
  have hheight_pos := h.height
  set rowBytes := c.desc.width.toNat * c.desc.format.bytesPerTexel with hrow
  set height := c.desc.height.toNat
  have hrow_pos : 0 < rowBytes := Nat.mul_pos h.width h.format
  have hrows : data.size = rowBytes * height := by
    rw [hsize, h.byteSize_zero, hrow, Nat.mul_right_comm]
  have hpitch : data.size / height = rowBytes := by
    rw [hrows, Nat.mul_div_cancel _ hheight_pos]
  have hlast : rowBytes * (height - 1) + rowBytes = data.size := by
    rw [← Nat.mul_succ, Nat.sub_one, Nat.succ_pred_eq_of_pos hheight_pos, hrows]
  rw [upload, hwidth, hheight, hpitch, ← hrow, hlast]
  rw [if_neg (by omega)]
  -- with rows that touch each other, the byte at an index is the byte at that index
  have hbytes : (fun i ↦ data.byteAt (i / rowBytes * rowBytes + i % rowBytes)) = data.byteAt := by
    funext i
    rw [Nat.mul_comm, Nat.div_add_mod]
  rw [hbytes, h.size_base, ← hsize, Bytes.tabulate_byteAt]

/-- The levels of a texture whose first level was replaced, once they are generated. -/
theorem WellFormed.mips_generateMips (h : c.WellFormed) (hformat : c.desc.format.is8BitUnorm)
    (data : Bytes) :
    (c.withBase data).generateMips.mips
      = Mip.chain c.desc 0 data (c.desc.levels.toNat - 1) := by
  obtain ⟨rest, hmips⟩ := h.mips_eq_cons
  have hbase : (c.withBase data).base = data := by
    rw [withBase, hmips]
    rfl
  have hlength : (c.withBase data).mips.length = c.desc.levels.toNat :=
    List.length_set.trans h.length_mips
  have hformat' : (c.withBase data).desc.format.is8BitUnorm := hformat
  rw [generateMips, if_pos hformat', hbase, hlength]
  rfl

theorem WellFormed.mips_withBase (h : c.WellFormed) (hlevels : ¬1 < c.desc.levels) (data : Bytes) :
    (c.withBase data).mips = Mip.chain c.desc 0 data (c.desc.levels.toNat - 1) := by
  have hpos := h.levels_pos
  have hone : c.desc.levels.toNat = 1 := by
    rw [UInt32.lt_iff_toNat_lt] at hlevels
    exact Nat.le_antisymm (Nat.le_of_not_lt hlevels) hpos
  obtain ⟨rest, hmips⟩ := h.mips_eq_cons
  have hlength := h.length_mips
  rw [hmips, hone, List.length_cons, Nat.add_eq_right, List.length_eq_zero_iff] at hlength
  rw [withBase, hmips, hlength, hone]
  rfl

end Texture

theorem Mip.chain_levels (d : TextureDesc) (levels : UInt32) (level : Nat) (source : Bytes)
    (count : Nat) : chain { d with levels } level source count = chain d level source count := by
  induction count generalizing level source with
  | zero => rfl
  | succ count ih => exact congrArg (source :: ·) (ih _ _)

/-! ## Read back -/

/-- What is read of a declared texture is the given texels, through both views, and the levels that
are filtered from them. -/
structure OwnedTexture.Shows (d : Device) (t : TextureDecl) (o : OwnedTexture) (texels : Bytes) :
    Prop where
  /-- The views. -/
  views : ∀ gamma, d.viewTexels? (o.views.pick gamma) = some texels
  /-- The levels. -/
  levels : d.mips? o.resource
    = some (Mip.chain t.textureDesc 0 texels (t.textureDesc.levelCount - 1))

namespace Engine

variable {e : Engine} {t : TableTexture} {o : OwnedTexture} {name : String} {pixels data : Bytes}

/-- An upload fails without a trace, or issues its commands on the texture of the name. -/
theorem upload_run (e : Engine) (name : String) (pixels : Bytes) :
    (∃ cause, e.upload name pixels = (.error cause, e) ∧
      ∀ t o, e.texture? name = some t → t.decl.reference = .owned → t.owned = some o →
        ¬t.decl.Takes pixels) ∨
    ∃ t o data, e.texture? name = some t ∧ t.decl.reference = .owned ∧ t.owned = some o ∧
      t.decl.Takes pixels ∧ t.decl.Packs pixels data ∧
      e.upload name pixels = (.ok (), { e with
        device := e.device.issueAll (e.uploadCommands o data (t.decl.rowPitch data)) }) := by
  rw [upload]
  rcases hfind : e.texture? name with _ | t
  · exact Or.inl ⟨_, rfl, fun _ _ h ↦ absurd h.symm (Option.some_ne_none _)⟩
  · dsimp only
    by_cases href : t.decl.reference = .owned
    · rw [if_neg (not_not_intro href)]
      rcases howned : t.owned with _ | o
      · refine Or.inl ⟨_, rfl, fun u o hu _ ho ↦ ?_⟩
        cases hu
        cases howned.symm.trans ho
      · -- what remains is whether the pixels can be packed
        rcases packUpload_cases t.decl pixels with
          ⟨cause, hpack, htakes⟩ | ⟨data, hpack, htakes, hpacks⟩
        · dsimp only
          rw [hpack]
          refine Or.inl ⟨cause, rfl, fun u o hu _ _ ↦ ?_⟩
          cases hu
          exact htakes
        · dsimp only
          rw [hpack]
          exact Or.inr ⟨t, o, data, rfl, href, howned, htakes, hpacks, rfl⟩
    · rw [if_pos href]
      refine Or.inl ⟨_, rfl, fun u o hu href' _ ↦ ?_⟩
      cases hu
      exact absurd href' href

/-- Data that fills the first level replaces it, and the other levels are generated from it. -/
theorem mips?_uploadCommands (hview : e.device.viewTexture? o.views.linear = some o.resource)
    {c : Texture} (hget : e.device.get? o.resource = some c) (hc : c.WellFormed)
    (hformat : c.desc.format.is8BitUnorm) (hsize : data.size = Mip.byteSize c.desc 0) :
    (e.device.issueAll (e.uploadCommands o data (data.size / c.desc.height.toNat))).mips?
        o.resource = some (Mip.chain c.desc 0 data (c.desc.levels.toNat - 1)) := by
  set update : Command := .updateTexture o.resource data (data.size / c.desc.height.toNat)
  have hupdated : (e.device.issue update).get? o.resource = some (c.withBase data) := by
    refine (Store.get?_modify_self _ _ _).trans ?_
    rw [show e.device.objects.get? o.resource = some c from hget]
    exact congrArg some (hc.upload_eq hsize)
  rw [uploadCommands, OwnedTexture.hasMips_of_get? hget, Device.mips?]
  by_cases hmore : 1 < c.desc.levels
  · rw [if_pos (decide_eq_true hmore)]
    have hview' : (e.device.issue update).viewTexture? o.views.linear = some o.resource :=
      (Device.viewTexture?_issueAll e.device [_] o.views.linear).trans hview
    change (((e.device.issue update).issue (.generateMips o.views.linear)).get? o.resource).map _
      = _
    rw [Device.get?_generateMips hview', hupdated]
    exact congrArg some (hc.mips_generateMips hformat data)
  · rw [if_neg (by simpa using hmore)]
    change ((e.device.issue update).get? o.resource).map _ = _
    rw [hupdated]
    exact congrArg some (hc.mips_withBase hmore data)

/-- **What is uploaded is read back.** -/
theorem shows_upload {others : Multiset ObjectRef} (hs : e.toAssets.Sound) (howns : e.Owns others)
    (hformed : e.toAssets.Formed) (hfind : e.texture? name = some t) (howned : t.owned = some o)
    (htakes : t.decl.Takes pixels) (hpacks : t.decl.Packs pixels data) :
    o.Shows (e.device.issueAll (e.uploadCommands o data (t.decl.rowPitch data))) t.decl data := by
  obtain ⟨hmem, -⟩ := Assets.mem_of_texture? hfind
  obtain ⟨c, hget⟩ := Device.get?_of_mem_live
    (howns.assets_live.owned hmem howned o.resource.ref List.mem_cons_self)
  have hmade := hformed t hmem o howned c hget
  have hc := hmade.wellFormed
  obtain ⟨⟨levels, hdesc⟩, hlevels⟩ := hmade.desc_eq
  have hview (gamma : Bool) : e.device.viewTexture? (o.views.pick gamma) = some o.resource :=
    howns.assets_live.viewTexture? hs hmem howned gamma
  -- there are no gaps between the rows of packed texels
  have hpitch : t.decl.rowPitch data = data.size / c.desc.height.toNat := by
    have hpos := hc.height
    rw [hdesc] at hpos ⊢
    exact TextureDecl.rowPitch_eq hpos data
  have hsize : data.size = Mip.byteSize c.desc 0 := by
    rw [hc.byteSize_zero, hpacks.size, hdesc]
    rfl
  have hformat : c.desc.format.is8BitUnorm := by
    rw [hdesc]
    change t.decl.format.deviceFormat.is8BitUnorm = true
    rcases htakes.format with hf | hf | hf <;> rw [hf] <;> rfl
  have hchain : Mip.chain t.decl.textureDesc 0 data (t.decl.textureDesc.levelCount - 1)
      = Mip.chain c.desc 0 data (c.desc.levels.toNat - 1) := by
    rw [hlevels, hdesc]
    exact (Mip.chain_levels _ _ _ _ _).symm
  have hlevelled := mips?_uploadCommands (hview false) hget hc hformat hsize
  rw [← hpitch] at hlevelled
  refine ⟨fun gamma ↦ ?_, by rw [hchain, hlevelled]⟩
  rw [Device.viewTexels?, Device.viewTexture?_issueAll, hview]
  change Device.texels? _ o.resource 0 = some data
  rw [Device.mips?, Option.map_eq_some_iff] at hlevelled
  obtain ⟨c', hget', hmips'⟩ := hlevelled
  rw [Device.texels?, hget']
  change c'.mips[0]? = some data
  rw [hmips']
  cases c.desc.levels.toNat - 1 <;> rfl

end Engine

/-- **Uploads are read back.** In every session of a lawful host, an upload goes one of two ways. It
succeeds, if the table has a texture of the name, which refers to no surface of the swapchain and
has its device objects, and the texture takes the pixels. Then both views read the channels that the
format has, texel by texel, the other levels are filtered from them, and no other texture is
changed. Otherwise it fails, and the engine is as it was. -/
theorem Session.Reachable.upload_readBack {s : Session} (hs : s.Reachable Event.Lawful)
    (name : String) (pixels : Bytes) :
    (∃ t o data, s.engine.texture? name = some t ∧ t.decl.reference = .owned ∧
        t.owned = some o ∧ t.decl.Takes pixels ∧ (s.engine.upload name pixels).1 = .ok () ∧
        t.decl.Packs pixels data ∧ o.Shows (s.step (.upload name pixels)).device t.decl data ∧
        ∀ x : Handle .texture, x ≠ o.resource →
          (s.step (.upload name pixels)).device.get? x = s.device.get? x) ∨
      (∀ t o, s.engine.texture? name = some t → t.decl.reference = .owned → t.owned = some o →
        ¬t.decl.Takes pixels) ∧
      ∃ cause, s.engine.upload name pixels = (.error cause, s.engine) := by
  obtain ⟨strays, howns, -⟩ := hs.owns fun _ _ h ↦ h
  rcases s.engine.upload_run name pixels with ⟨cause, hrun, htakes⟩ |
    ⟨t, o, data, hfind, href, howned, htakes, hpacks, hrun⟩
  · exact Or.inr ⟨htakes, cause, hrun⟩
  · have hdevice : (s.step (.upload name pixels)).device = s.engine.device.issueAll
        (s.engine.uploadCommands o data (t.decl.rowPitch data)) :=
      congrArg (fun run ↦ run.2.device) hrun
    refine Or.inl ⟨t, o, data, hfind, href, howned, htakes, congrArg Prod.fst hrun, hpacks, ?_, ?_⟩
    · rw [hdevice]
      exact Engine.shows_upload hs.tables.assets howns hs.formed hfind howned htakes hpacks
    · intro x hx
      rw [hdevice]
      refine Device.get?_issueAll_of_ne fun c hc ↦ ?_
      rw [Engine.touched?_uploadCommands hs.tables.assets howns (Assets.mem_of_texture? hfind).1
        howned data _ c hc]
      exact fun heq ↦ hx (Handle.ref_inj.mp (Option.some.inj heq)).symm

/-- Two levels of a texture of two channels, uploaded to and read back. -/
theorem Session.upload_readBack_small :
    let s := small.step (.load (.single "show"
      [{ name := "canvas", width := 2, height := 1, levels := 0, format := .rg8 }] [] []))
    let pixels := Bytes.ofList [10, 20, 30, 40, 50, 60, 70, 80]
    ∃ o : OwnedTexture, (s.engine.upload "canvas" pixels).1 = .ok () ∧
      (∀ gamma, (s.step (.upload "canvas" pixels)).device.viewTexels? (o.views.pick gamma)
        = some (Bytes.ofList [10, 20, 50, 60])) ∧
      (s.step (.upload "canvas" pixels)).device.mips? o.resource
        = some [Bytes.ofList [10, 20, 50, 60], Bytes.ofList [30, 40]] := by
  intro s pixels
  have hs : s.Reachable Event.Lawful := .step (.step (.step (.start {} {}) trivial) trivial) trivial
  rcases hs.upload_readBack "canvas" pixels with
    ⟨t, o, data, hfind, -, -, -, hok, hpacks, hshows, -⟩ | ⟨-, cause, hrun⟩
  · have hdecl : ∀ t ∈ s.engine.texture? "canvas",
        t.decl = { name := "canvas", width := 2, height := 1, levels := 0, format := .rg8 } := by
      decide +kernel
    rw [hdecl t hfind] at hpacks hshows
    have hdata : data = Bytes.ofList [10, 20, 50, 60] := by
      refine Bytes.ext_byteAt hpacks.size fun i hi ↦ ?_
      rw [hpacks.size] at hi
      match i, hi with
      | 0, _ => exact (hpacks.byteAt 0 (by decide) 0 (by decide)).trans (by decide +kernel)
      | 1, _ => exact (hpacks.byteAt 0 (by decide) 1 (by decide)).trans (by decide +kernel)
      | 2, _ => exact (hpacks.byteAt 1 (by decide) 0 (by decide)).trans (by decide +kernel)
      | 3, _ => exact (hpacks.byteAt 1 (by decide) 1 (by decide)).trans (by decide +kernel)
      | i + 4, hi => exact absurd hi (Nat.not_lt.mpr (Nat.le_add_left 4 i))
    rw [hdata] at hshows
    refine ⟨o, hok, hshows.views, hshows.levels.trans ?_⟩
    decide +kernel
  · have hok : (s.engine.upload "canvas" pixels).1.isOk = true := by decide +kernel
    rw [hrun] at hok
    cases hok

end EffectChain
