import EffectChain.Proofs.Filtered

/-!
# The shape of a texture

A device makes a texture of positive size, in a format whose texels take up space, and with at
least one level, but no more than there are before both sides are down to one texel. Each level has
as many bytes as its texels take up (`Texture.WellFormed`).

Commands rely on that: an upload and a clear cut the first level into rows and texels, a copy
compares the sizes of levels, and the generation of levels reads one level in order to write the
next. None of them breaks it, so a texture that was made and then edited in whatever way
(`Texture.MadeFrom`) is as well-formed as it was at first.
-/

namespace EffectChain

/-! ## Levels of a chain -/

namespace Mip

variable {d : TextureDesc}

theorem side_of_pos {size : UInt32} (h : 0 < size.toNat) : side size 0 = size.toNat :=
  Nat.max_eq_left h

theorem side_pos (size : UInt32) (level : Nat) : 0 < side size level :=
  Nat.lt_of_lt_of_le Nat.one_pos (Nat.le_max_right _ _)

/-- Every level of a chain but the first has the size that belongs to it. -/
theorem map_size_chain {level : Nat} {source : Bytes} (h : source.size = byteSize d level)
    (count : Nat) :
    (chain d level source count).map (·.size)
      = (List.range' level (count + 1)).map (byteSize d) := by
  induction count generalizing level source with
  | zero => simp [chain, h]
  | succ count ih =>
    have hnext : (next d level source).size = byteSize d (level + 1) := Bytes.size_tabulate _ _
    rw [chain, List.map_cons, ih hnext, h]
    rfl

end Mip

/-- The number of levels that a description asks for; none stands for all that fit. -/
def TextureDesc.levelCount (desc : TextureDesc) : Nat :=
  if desc.levels = 0 then desc.fullLevels else desc.levels.toNat

theorem TextureDesc.levelCount_pos (desc : TextureDesc) : 0 < desc.levelCount := by
  rw [levelCount]
  split
  · exact Nat.succ_pos _
  · rename_i hlevels
    exact Nat.pos_of_ne_zero fun hzero ↦ hlevels (UInt32.toNat_inj.mp hzero)

namespace Texture

variable {c c' : Texture} {desc : TextureDesc}

/-! ## Making a texture -/

theorem make_eq_ok (h : make desc = .ok c) :
    desc.width ≠ 0 ∧ desc.height ≠ 0 ∧ desc.format.bytesPerTexel ≠ 0 ∧
      desc.levelCount ≤ desc.fullLevels ∧
      c.desc = { desc with levels := UInt32.ofNat desc.levelCount } ∧
      c.mips = (List.range desc.levelCount).map fun level ↦
        Bytes.zeros (Mip.byteSize desc level) := by
  rw [make, ← TextureDesc.levelCount] at h
  repeat' split at h
  all_goals cases h
  rename_i hsize hformat hfull _
  exact ⟨fun hw ↦ hsize (Or.inl hw), fun hh ↦ hsize (Or.inr hh), hformat, Nat.le_of_not_lt hfull,
    rfl, rfl⟩

theorem toNat_levels_of_make (h : make desc = .ok c) : c.desc.levels.toNat = desc.levelCount := by
  obtain ⟨-, -, -, hfull, hdesc, -⟩ := make_eq_ok h
  have hle : desc.levelCount ≤ 32 := hfull.trans (Device.fullLevels_le desc)
  rw [hdesc]
  exact UInt32.toNat_ofNat_of_lt' (Nat.lt_of_le_of_lt hle (by decide))

/-! ## Well-formed textures -/

/-- The shape of a texture that a device made. -/
structure WellFormed (c : Texture) : Prop where
  /-- It has a width. -/
  width : 0 < c.desc.width.toNat
  /-- It has a height. -/
  height : 0 < c.desc.height.toNat
  /-- Its texels take up space. -/
  format : 0 < c.desc.format.bytesPerTexel
  /-- There is a level. -/
  levels_pos : 0 < c.desc.levels.toNat
  /-- There are no more levels than there can be. -/
  levels_le : c.desc.levels.toNat ≤ c.desc.fullLevels
  /-- The levels have the sizes that belong to them. -/
  sizes : c.sizes = (List.range c.desc.levels.toNat).map (Mip.byteSize c.desc)

theorem wellFormed_of_make (h : make desc = .ok c) : c.WellFormed := by
  have hlevels := toNat_levels_of_make h
  obtain ⟨hwidth, hheight, hformat, hfull, hdesc, hmips⟩ := make_eq_ok h
  have hpos {size : UInt32} (hsize : size ≠ 0) : 0 < size.toNat :=
    Nat.pos_of_ne_zero fun hzero ↦ hsize (UInt32.toNat_inj.mp hzero)
  refine ⟨?_, ?_, ?_, ?_, ?_, ?_⟩
  · rw [hdesc]
    exact hpos hwidth
  · rw [hdesc]
    exact hpos hheight
  · rw [hdesc]
    exact Nat.pos_of_ne_zero hformat
  · rw [hlevels]
    exact desc.levelCount_pos
  · rw [hlevels, hdesc]
    exact hfull
  · rw [hlevels, sizes, hmips, List.map_map, hdesc]
    exact List.map_congr_left fun level _ ↦ Bytes.size_zeros _

namespace WellFormed

theorem length_mips (h : c.WellFormed) : c.mips.length = c.desc.levels.toNat := by
  simpa [Texture.sizes] using congrArg List.length h.sizes

theorem size_of_getElem? (h : c.WellFormed) {level : Nat} {texels : Bytes}
    (htexels : c.mips[level]? = some texels) : texels.size = Mip.byteSize c.desc level := by
  have hsize : c.sizes[level]? = some texels.size := by
    rw [Texture.sizes, List.getElem?_map, htexels]
    rfl
  rw [h.sizes, List.getElem?_map, Option.map_eq_some_iff] at hsize
  obtain ⟨level', hlevel', hsize⟩ := hsize
  obtain ⟨hlt, rfl⟩ := List.getElem?_eq_some_iff.mp hlevel'
  rw [List.getElem_range] at hsize
  exact hsize.symm

theorem mips_eq_cons (h : c.WellFormed) : ∃ rest, c.mips = c.base :: rest := by
  have hlength := h.length_mips
  have hpos := h.levels_pos
  obtain ⟨desc, mips⟩ := c
  cases mips with
  | nil => exact absurd hlength (Nat.ne_of_lt hpos)
  | cons base rest => exact ⟨rest, rfl⟩

theorem size_base (h : c.WellFormed) : c.base.size = Mip.byteSize c.desc 0 := by
  obtain ⟨rest, hmips⟩ := h.mips_eq_cons
  exact h.size_of_getElem? (by rw [hmips]; rfl)

theorem byteSize_zero (h : c.WellFormed) : Mip.byteSize c.desc 0
    = c.desc.width.toNat * c.desc.height.toNat * c.desc.format.bytesPerTexel := by
  rw [Mip.byteSize, Mip.side_of_pos h.width, Mip.side_of_pos h.height]

/-- Levels of the same sizes are all that is asked of the texels. -/
theorem of_sizes (h : c.WellFormed) (hdesc : c'.desc = c.desc) (hsizes : c'.sizes = c.sizes) :
    c'.WellFormed := by
  obtain ⟨hwidth, hheight, hformat, hpos, hle, hlevels⟩ := h
  refine ⟨?_, ?_, ?_, ?_, ?_, ?_⟩ <;> rw [hdesc]
  · exact hwidth
  · exact hheight
  · exact hformat
  · exact hpos
  · exact hle
  · exact hsizes.trans hlevels

end WellFormed

/-! ## Edits -/

/-- Generating the levels of a well-formed texture gives them the sizes that they had. -/
theorem sizes_generateMips (h : c.WellFormed) : c.generateMips.sizes = c.sizes := by
  rw [generateMips]
  split
  · have hcount : c.mips.length - 1 + 1 = c.desc.levels.toNat := by
      have hlength := h.length_mips
      have hpos := h.levels_pos
      omega
    change (Mip.chain c.desc 0 c.base (c.mips.length - 1)).map (·.size) = _
    rw [Mip.map_size_chain h.size_base, hcount, h.sizes, List.range_eq_range']
  · rfl

theorem Edit.sizes (h : c.Edit c') (hc : c.WellFormed) : c'.sizes = c.sizes := by
  cases h with
  | unchanged => rfl
  | upload data rowPitch =>
    rw [Texture.upload]
    split
    · rfl
    · exact sizes_withBase (Bytes.size_tabulate _ _)
  | generateMips => exact sizes_generateMips hc
  | copyFrom source =>
    rw [Texture.copyFrom]
    split
    · rename_i hsizes
      exact hsizes.symm
    · rfl
  | resolveFrom source =>
    rw [Texture.resolveFrom]
    split
    · rename_i hsize
      exact sizes_withBase hsize.symm
    · rfl
  | fill texel =>
    rw [Texture.fill]
    split
    · exact sizes_withBase (Bytes.size_tile _ _)
    · rfl
  | fillStencil value =>
    rw [Texture.fillStencil]
    split
    · exact sizes_withBase (Bytes.size_tabulate _ _)
    · rfl
  | @overwrite level texels data hlevel hsize =>
    obtain ⟨hlt, rfl⟩ := List.getElem?_eq_some_iff.mp hlevel
    change (c.mips.set level data).map (·.size) = c.mips.map (·.size)
    rw [List.map_set, ← hsize, ← List.getElem_map (fun texels : Bytes ↦ texels.size)]
    · exact List.set_getElem_self _
    · simpa using hlt

/-- **No edit breaks a texture.** -/
theorem Edit.wellFormed (h : c.Edit c') (hc : c.WellFormed) : c'.WellFormed :=
  hc.of_sizes h.desc (h.sizes hc)

theorem Edits.wellFormed (h : c.Edits c') (hc : c.WellFormed) : c'.WellFormed := by
  induction h with
  | refl => exact hc
  | tail _ hlast ih => exact hlast.wellFormed ih

/-! ## Textures that were made -/

/-- The texture was made from a description, and edited since. -/
def MadeFrom (desc : TextureDesc) (c : Texture) : Prop := ∃ c₀, make desc = .ok c₀ ∧ c₀.Edits c

namespace MadeFrom

theorem of_make (h : make desc = .ok c) : c.MadeFrom desc := ⟨c, h, .refl⟩

theorem edits (h : c.MadeFrom desc) (hedits : c.Edits c') : c'.MadeFrom desc := by
  obtain ⟨c₀, hmake, hbefore⟩ := h
  exact ⟨c₀, hmake, hbefore.trans hedits⟩

/-- **A texture that was made stays well-formed.** -/
theorem wellFormed (h : c.MadeFrom desc) : c.WellFormed := by
  obtain ⟨c₀, hmake, hedits⟩ := h
  exact hedits.wellFormed (wellFormed_of_make hmake)

theorem desc_eq (h : c.MadeFrom desc) :
    (∃ levels, c.desc = { desc with levels }) ∧ c.desc.levels.toNat = desc.levelCount := by
  obtain ⟨c₀, hmake, hedits⟩ := h
  rw [hedits.desc]
  exact ⟨desc_of_make hmake, toNat_levels_of_make hmake⟩

end MadeFrom

end Texture

end EffectChain
