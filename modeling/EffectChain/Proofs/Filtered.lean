import EffectChain.Proofs.Edits

/-!
# Filtered levels

A texture is filtered if each of its levels is the box filter of the one above (`Texture.Filtered`).
It is when it is made, since the box filter of zeros is zeros, and it is when its levels were
generated. A clear replaces the first level alone. What is left is a texture that is filtered from
its second level on, under a first level of zeros (`Texture.Blanked`), until its levels are
generated again.
-/

namespace EffectChain

/-! ## Zeros -/

theorem Mip.mean_zeros {bytes : List UInt8} (hzero : ∀ b ∈ bytes, b = 0)
    (hlength : bytes.length ≤ 4) : mean bytes = 0 := by
  have hsum : bytes.foldr (fun b total ↦ b.toNat + total) 0 = 0 := by
    clear hlength
    induction bytes with
    | nil => rfl
    | cons b bytes ih =>
      rw [List.forall_mem_cons] at hzero
      rw [List.foldr_cons, ih hzero.2, hzero.1]
      rfl
  rw [mean, hsum, Nat.zero_add, Nat.div_eq_of_lt (by omega)]
  rfl

theorem Mip.downsample_zeros (size width height targetWidth targetHeight texelSize : Nat) :
    downsample (Bytes.zeros size) width height targetWidth targetHeight texelSize
      = Bytes.zeros (targetWidth * targetHeight * texelSize) := by
  rw [downsample, Bytes.zeros]
  congr 1
  funext i
  refine mean_zeros (fun b hb ↦ ?_) (List.length_filterMap_le _ _)
  obtain ⟨x, -, hx⟩ := List.mem_filterMap.mp hb
  dsimp only at hx
  split at hx <;> cases hx
  exact Bytes.byteAt_zeros _ _

theorem Bytes.tile_zeros {texel : List UInt8} (h : ∀ x ∈ texel, x = 0) (size : Nat) :
    tile size (ofList texel) = zeros size := by
  have hzero : ∀ i, (ofList texel).byteAt i = 0 := by
    intro i
    rw [byteAt_eq_getD]
    change texel[i]?.getD 0 = 0
    rcases hx : texel[i]? with _ | x
    · rfl
    · exact h x (List.mem_of_getElem? hx)
  rw [tile, zeros]
  congr 1
  funext i
  exact hzero _

theorem Color.encode_transparent (f : Format) : ∀ x ∈ transparent.encode f, x = 0 := by
  cases f <;> decide +kernel

namespace Texture

/-! ## Filtered textures -/

/-- Each level after one from the given one on is the box filter of it. -/
def FilteredFrom (c : Texture) (first : Nat) : Prop :=
  ∀ i a b, first ≤ i → c.mips[i]? = some a → c.mips[i + 1]? = some b → b = Mip.next c.desc i a

/-- Each level after the first is the box filter of the one above. -/
def Filtered (c : Texture) : Prop := c.FilteredFrom 0

/-- The first level is zeros, and the others are filtered among themselves. -/
structure Blanked (c : Texture) : Prop where
  /-- The first level. -/
  base : ∀ a, c.mips[0]? = some a → a = Bytes.zeros a.size
  /-- The others. -/
  rest : c.FilteredFrom 1

/-- The texture has as many levels as its description says. -/
structure Laid (c : Texture) : Prop where
  /-- The number of levels. -/
  length : c.mips.length = c.desc.levels.toNat
  /-- There is a first one. -/
  pos : 0 < c.mips.length

variable {c c' : Texture}

theorem FilteredFrom.mono {first first' : Nat} (h : c.FilteredFrom first) (hle : first ≤ first') :
    c.FilteredFrom first' :=
  fun i a b hi ↦ h i a b (hle.trans hi)

theorem Laid.filtered (h : c.Laid) (hlevels : ¬1 < c.desc.levels) : c.Filtered := by
  intro i a b _ _ hb
  have hlt := (List.getElem?_eq_some_iff.mp hb).1
  have hone : c.desc.levels.toNat ≤ 1 := by
    rw [UInt32.lt_iff_toNat_lt] at hlevels
    exact Nat.le_of_not_lt hlevels
  rw [h.length] at hlt
  omega

theorem FilteredFrom.withBase (h : c.FilteredFrom 1) (base : Bytes) :
    (c.withBase base).FilteredFrom 1 := by
  intro i a b hi ha hb
  have hother (j : Nat) (hj : 1 ≤ j) : (c.mips.set 0 base)[j]? = c.mips[j]? :=
    List.getElem?_set_ne (by omega)
  exact h i a b hi ((hother i hi).symm.trans ha) ((hother (i + 1) (by omega)).symm.trans hb)

theorem getElem?_chain (d : TextureDesc) (level count : Nat) (source : Bytes) {i : Nat}
    {a b : Bytes} (ha : (Mip.chain d level source count)[i]? = some a)
    (hb : (Mip.chain d level source count)[i + 1]? = some b) : b = Mip.next d (level + i) a := by
  induction count generalizing level source i with
  | zero => cases hb
  | succ count ih =>
    rw [Mip.chain] at ha hb
    cases i with
    | zero =>
      cases ha
      rw [List.getElem?_cons_succ] at hb
      cases count <;> exact (Option.some.inj hb).symm
    | succ i =>
      rw [List.getElem?_cons_succ] at ha hb
      have hnext := ih (level + 1) (Mip.next d level source) ha hb
      rwa [show level + 1 + i = level + (i + 1) by omega] at hnext

/-- **Generated levels are filtered.** -/
theorem filtered_generateMips (hformat : c.desc.format.is8BitUnorm) : c.generateMips.Filtered := by
  intro i a b _ ha hb
  rw [generateMips, if_pos hformat] at ha hb ⊢
  simpa using getElem?_chain c.desc 0 _ c.base ha hb

/-- **Zeroing the first level leaves zeros over what was filtered.** A format that has no encoding
is left alone. -/
theorem fill_transparent (c : Texture) (f : Format) :
    c.fill (Color.transparent.encode f) = c ∨
      (c.FilteredFrom 1 → (c.fill (Color.transparent.encode f)).Blanked) := by
  rw [fill]
  split
  · refine Or.inr fun h ↦ ⟨fun a ha ↦ ?_, h.withBase _⟩
    have hset : (c.mips.set 0 (Bytes.tile c.base.size
        (Bytes.ofList (Color.transparent.encode f))))[0]? = some a := ha
    obtain ⟨hlt, rfl⟩ := List.getElem?_eq_some_iff.mp hset
    rw [List.getElem_set_self, Bytes.tile_zeros (Color.encode_transparent f), Bytes.size_zeros]
  · exact Or.inl rfl

/-- **A texture is filtered when it is made**, and laid out as described. -/
theorem filtered_of_make {desc : TextureDesc} (h : make desc = .ok c) : c.Filtered ∧ c.Laid := by
  rw [make] at h
  generalize hlevels :
    (if desc.levels = 0 then desc.fullLevels else desc.levels.toNat) = levels at h
  have hpos : 0 < levels := by
    rw [← hlevels]
    split
    · exact Nat.succ_pos _
    · rename_i hnonzero
      exact Nat.pos_of_ne_zero fun hzero ↦ hnonzero (UInt32.toNat_inj.mp hzero)
  repeat' split at h
  all_goals cases h
  rename_i hfull _
  have hle : levels ≤ 32 := (Nat.le_of_not_lt hfull).trans (Device.fullLevels_le desc)
  refine ⟨fun i a b _ ha hb ↦ ?_, ?_, by simpa using hpos⟩
  · obtain ⟨-, rfl⟩ := List.getElem?_eq_some_iff.mp ha
    obtain ⟨-, rfl⟩ := List.getElem?_eq_some_iff.mp hb
    rw [List.getElem_map, List.getElem_map, List.getElem_range, List.getElem_range]
    exact (Mip.downsample_zeros _ _ _ _ _ _).symm
  · rw [List.length_map, List.length_range,
      UInt32.toNat_ofNat_of_lt' (Nat.lt_of_le_of_lt hle (by decide))]

theorem Edit.laid (h : c.Edit c') (hc : c.Laid) : c'.Laid := by
  suffices hsame : c'.mips.length = c.mips.length by
    exact ⟨by rw [hsame, h.desc, hc.length], by rw [hsame]; exact hc.pos⟩
  have hbase (base : Bytes) : (c.withBase base).mips.length = c.mips.length := List.length_set
  cases h with
  | unchanged => rfl
  | upload data rowPitch =>
    rw [Texture.upload]
    split
    · rfl
    · exact hbase _
  | generateMips =>
    rw [Texture.generateMips]
    split
    · exact (Mip.length_chain _ _ _ _).trans (Nat.sub_add_cancel hc.pos)
    · rfl
  | copyFrom source =>
    rw [Texture.copyFrom]
    split
    · rename_i hsizes
      simpa using (congrArg List.length hsizes).symm
    · rfl
  | resolveFrom source =>
    rw [Texture.resolveFrom]
    split
    · exact hbase _
    · rfl
  | fill texel =>
    rw [Texture.fill]
    split
    · exact hbase _
    · rfl
  | fillStencil value =>
    rw [Texture.fillStencil]
    split
    · exact hbase _
    · rfl
  | overwrite => exact List.length_set

theorem Edits.laid (h : c.Edits c') (hc : c.Laid) : c'.Laid := by
  induction h with
  | refl => exact hc
  | tail _ hlast ih => exact hlast.laid ih

end Texture

end EffectChain
