import EffectChain.Proofs.Works

/-!
# What commands make of a texture

A command that changes a texture is one of seven edits of its texels (`Texture.Edit`), and an
application that overwrites a level makes an eighth. What is kept by the edits is therefore kept by
everything that can happen to a texture while it is alive (`Device.Works.edits`).

None of them changes how the texels are laid out in a texture of a single level
(`Texture.Edit.single`). This matters since copies and resolves between textures of different
layouts silently do nothing.
-/

namespace EffectChain

open Relation (ReflTransGen)

namespace Texture

/-- What a command or a write can make of a texture. -/
inductive Edit (c : Texture) : Texture → Prop
  | unchanged : Edit c c
  | upload (data : Bytes) (rowPitch : Nat) : Edit c (c.upload data rowPitch)
  | generateMips : Edit c c.generateMips
  | copyFrom (source : Texture) : Edit c (c.copyFrom source)
  | resolveFrom (source : Texture) : Edit c (c.resolveFrom source)
  | fill (texel : List UInt8) : Edit c (c.fill texel)
  | fillStencil (value : UInt8) : Edit c (c.fillStencil value)
  | overwrite {level : Nat} {texels data : Bytes} (hlevel : c.mips[level]? = some texels)
    (hsize : texels.size = data.size) : Edit c { c with mips := c.mips.set level data }

abbrev Edits : Texture → Texture → Prop := ReflTransGen Edit

def sizes (c : Texture) : List Nat := c.mips.map (·.size)

/-- The texture has one level, of so many bytes. -/
def Single (n : Nat) (c : Texture) : Prop := c.sizes = [n]

variable {c c' : Texture} {n : Nat}

theorem sizes_withBase {base : Bytes} (h : base.size = c.base.size) :
    (c.withBase base).sizes = c.sizes := by
  obtain ⟨desc, mips⟩ := c
  cases mips with
  | nil => rfl
  | cons x rest => exact congrArg (· :: rest.map (·.size)) h

theorem Single.mips_eq (h : c.Single n) : c.mips = [c.base] ∧ c.base.size = n := by
  obtain ⟨desc, mips⟩ := c
  obtain ⟨x, hx, hsize⟩ := List.map_eq_singleton_iff.mp h
  obtain rfl : mips = [x] := hx
  exact ⟨rfl, hsize⟩

theorem single_iff : c.Single n ↔ ∃ x, c.mips = [x] ∧ x.size = n := List.map_eq_singleton_iff

theorem Single.generateMips_eq (h : c.Single n) : c.generateMips = c := by
  rw [generateMips]
  split
  · rw [h.mips_eq.1]
    exact congrArg (fun mips ↦ { c with mips }) h.mips_eq.1.symm
  · rfl

theorem Edit.desc (h : c.Edit c') : c'.desc = c.desc := by
  cases h with
  | unchanged | overwrite => rfl
  | upload data rowPitch => exact desc_upload _ _ _
  | generateMips => exact desc_generateMips _
  | copyFrom source => exact desc_copyFrom _ _
  | resolveFrom source => exact desc_resolveFrom _ _
  | fill texel => exact desc_fill _ _
  | fillStencil value => exact desc_fillStencil _ _

theorem Edits.desc (h : c.Edits c') : c'.desc = c.desc := by
  induction h with
  | refl => rfl
  | tail _ hlast ih => exact hlast.desc.trans ih

theorem Edit.single (h : c.Edit c') (hc : c.Single n) : c'.Single n := by
  have hkeep : ∀ {base : Bytes}, base.size = c.base.size → (c.withBase base).Single n :=
    fun hsize ↦ (sizes_withBase hsize).trans hc
  cases h with
  | unchanged => exact hc
  | upload data rowPitch =>
    rw [Texture.upload]
    split
    · exact hc
    · exact hkeep (Bytes.size_tabulate _ _)
  | generateMips =>
    rw [hc.generateMips_eq]
    exact hc
  | copyFrom source =>
    rw [Texture.copyFrom]
    split
    · rename_i hsizes
      exact hsizes.symm.trans hc
    · exact hc
  | resolveFrom source =>
    rw [Texture.resolveFrom]
    split
    · rename_i hsize
      exact hkeep hsize.symm
    · exact hc
  | fill texel =>
    rw [Texture.fill]
    split
    · exact hkeep (Bytes.size_tile _ _)
    · exact hc
  | fillStencil value =>
    rw [Texture.fillStencil]
    split
    · exact hkeep (Bytes.size_tabulate _ _)
    · exact hc
  -- a single level is the first one
  | @overwrite level texels data hlevel hsize =>
    obtain ⟨x, hmips, hx⟩ := single_iff.mp hc
    rw [hmips] at hlevel
    obtain ⟨rfl, rfl⟩ : level = 0 ∧ texels = x := by
      cases level with
      | zero => exact ⟨rfl, (Option.some.inj hlevel).symm⟩
      | succ level => cases hlevel
    refine single_iff.mpr ⟨data, ?_, hsize.symm.trans hx⟩
    rw [hmips]
    rfl

theorem Edits.single (h : c.Edits c') (hc : c.Single n) : c'.Single n := by
  induction h with
  | refl => exact hc
  | tail _ hlast ih => exact hlast.single ih

/-- A copy between single levels of one size takes the texels over. -/
theorem Single.copyFrom_mips {source : Texture} (hc : c.Single n) (hsource : source.Single n) :
    (c.copyFrom source).mips = source.mips := by
  have hsizes : c.mips.map (·.size) = source.mips.map (·.size) := Eq.trans hc hsource.symm
  rw [Texture.copyFrom, if_pos hsizes]

theorem Single.resolveFrom_mips {source : Texture} (hc : c.Single n) (hsource : source.Single n) :
    (c.resolveFrom source).mips = source.mips := by
  rw [Texture.resolveFrom, if_pos (hc.mips_eq.2.trans hsource.mips_eq.2.symm), withBase,
    hc.mips_eq.1, hsource.mips_eq.1]
  rfl

end Texture

open Texture (Edit Edits)

namespace Device

variable {d d' : Device} {t : Handle .texture} {a b : Texture}

theorem edit_modify {f : Texture → Texture} {t' : Handle .texture}
    (hf : ∀ c : Texture, c.Edit (f c))
    (ha : d.get? t = some a) (hb : (d.modify t' f).get? t = some b) : a.Edit b := by
  by_cases hsame : t'.ref = t.ref
  · obtain rfl : t' = t := Handle.ref_inj.mp hsame
    have hmod : (d.get? t').map f = some b := (Store.get?_modify_self _ _ _).symm.trans hb
    rw [ha] at hmod
    cases hmod
    exact hf a
  · rw [d.get?_modify_of_ne f hsame, ha] at hb
    cases hb
    exact .unchanged

theorem edit_issue {c : Command} (ha : d.get? t = some a) (hb : (d.issue c).get? t = some b) :
    a.Edit b := by
  have hsame {d' : Device} (heq : d'.get? t = d.get? t) (hb : d'.get? t = some b) : a.Edit b := by
    rw [heq, ha] at hb
    cases hb
    exact .unchanged
  -- every command touches one object at most
  by_cases htouched : c.touched? d = some t.ref
  · change (d.apply c).get? t = some b at hb
    cases c with
    | updateTexture t' data rowPitch => exact edit_modify (fun c ↦ .upload data rowPitch) ha hb
    | generateMips view =>
      rw [apply] at hb
      split at hb
      · exact hsame rfl hb
      · exact edit_modify (fun c ↦ .generateMips) ha hb
    | copyResource target source =>
      rw [apply, transfer] at hb
      split at hb
      · exact hsame rfl hb
      · exact edit_modify (fun c ↦ .copyFrom _) ha hb
    | resolve target source format =>
      rw [apply, transfer] at hb
      split at hb
      · exact hsame rfl hb
      · exact edit_modify (fun c ↦ .resolveFrom _) ha hb
    | clearRenderTarget view color =>
      rw [apply] at hb
      split at hb
      · exact hsame rfl hb
      · exact edit_modify (fun c ↦ .fill _) ha hb
    | clearStencil view value =>
      rw [apply] at hb
      split at hb
      · exact hsame rfl hb
      · exact edit_modify (fun c ↦ .fillStencil _) ha hb
    | updateConstantBuffer buffer data => cases htouched
    | beginQuery q | endQuery q => cases htouched
    | _ => cases htouched
  · exact hsame (get?_issue_of_ne htouched) hb

theorem edit_writeTexels {t' : Handle .texture} {level : Nat} {data : Bytes}
    (ha : d.get? t = some a) (hb : (d.writeTexels t' level data).2.get? t = some b) : a.Edit b := by
  by_cases hsame : t'.ref = t.ref
  · obtain rfl : t' = t := Handle.ref_inj.mp hsame
    have hlevels : d.texels? t' level = a.mips[level]? := by rw [texels?, ha]; rfl
    rw [writeTexels, hlevels] at hb
    split at hb
    · rename_i texels htexels
      split at hb
      · rename_i hsize
        have hmod : (d.get? t').map (fun c : Texture ↦ { c with mips := c.mips.set level data })
            = some b := (Store.get?_modify_self _ _ _).symm.trans hb
        rw [ha] at hmod
        cases hmod
        exact .overwrite htexels hsize
      · rw [show d.get? t' = some a from ha] at hb
        cases hb
        exact .unchanged
    · rw [show d.get? t' = some a from ha] at hb
      cases hb
      exact .unchanged
  · rw [get?_writeTexels_of_ne hsame, ha] at hb
    cases hb
    exact .unchanged

/-- **Work edits textures.** -/
theorem Works.edits {ok : Command → Prop} (h : d.Works ok d') (hid : t.id ≤ d.lastId)
    (hb : d'.get? t = some b) : ∃ a : Texture, d.get? t = some a ∧ a.Edits b :=
  Works.get? (R := Edits) h
    (fun _ _ _ ha hb ↦ ReflTransGen.single (edit_issue ha hb))
    (fun ha hb ↦ ReflTransGen.single (edit_writeTexels ha hb)) hid hb

/-- What is found for the texture, if anything, has one level of so many bytes. -/
structure Holds (d : Device) (t : Handle .texture) (n : Nat) : Prop where
  /-- Its number was given out. -/
  id_le : t.id ≤ d.lastId
  /-- What is found for it has one level. -/
  single : ∀ c, d.get? t = some c → c.Single n

theorem Holds.works {ok : Command → Prop} {n : Nat} (h : d.Holds t n) (hworks : d.Works ok d') :
    d'.Holds t n where
  id_le := h.id_le.trans hworks.evolves.lastId_le
  single c' hc' := by
    obtain ⟨c, hc, hedits⟩ := hworks.edits h.id_le hc'
    exact hedits.single (h.single c hc)

end Device

/-! ## Texels along commands -/

namespace Device

def mips? (d : Device) (t : Handle .texture) : Option (List Bytes) := (d.get? t).map (·.mips)

variable {d : Device} {t source : Handle .texture} {n : Nat}

/-- The texture is alive and has one level of so many bytes. -/
def HasSingle (d : Device) (t : Handle .texture) (n : Nat) : Prop :=
  ∃ c : Texture, d.get? t = some c ∧ c.Single n

theorem HasSingle.issue (h : d.HasSingle t n) (c : Command) : (d.issue c).HasSingle t n := by
  obtain ⟨a, ha, hsingle⟩ := h
  have halive : t.ref ∈ (d.issue c).live := by
    rw [live_issue]
    exact mem_live_of_get? ha
  obtain ⟨b, hb⟩ := get?_of_mem_live halive
  exact ⟨b, hb, (edit_issue ha hb).single hsingle⟩

theorem HasSingle.issueAll (h : d.HasSingle t n) (cs : List Command) :
    (d.issueAll cs).HasSingle t n := by
  induction cs generalizing d with
  | nil => exact h
  | cons c cs ih => exact ih (h.issue c)

theorem mips?_copyResource (ht : d.HasSingle t n) (hsource : d.HasSingle source n) :
    (d.issue (.copyResource t source)).mips? t = d.mips? source := by
  obtain ⟨c, hc, hsingle⟩ := ht
  obtain ⟨c', hc', hsingle'⟩ := hsource
  have hget : (d.issue (.copyResource t source)).get? t = (d.get? t).map fun t ↦ t.copyFrom c' := by
    change (d.transfer t source fun t s ↦ t.copyFrom s).get? t = _
    rw [transfer, hc']
    exact Store.get?_modify_self _ _ _
  rw [mips?, hget, hc, mips?, hc']
  exact congrArg some (hsingle.copyFrom_mips hsingle')

theorem mips?_resolve (ht : d.HasSingle t n) (hsource : d.HasSingle source n) (format : Format) :
    (d.issue (.resolve t source format)).mips? t = d.mips? source := by
  obtain ⟨c, hc, hsingle⟩ := ht
  obtain ⟨c', hc', hsingle'⟩ := hsource
  have hget : (d.issue (.resolve t source format)).get? t
      = (d.get? t).map fun t ↦ t.resolveFrom c' := by
    change (d.transfer t source fun t s ↦ t.resolveFrom s).get? t = _
    rw [transfer, hc']
    exact Store.get?_modify_self _ _ _
  rw [mips?, hget, hc, mips?, hc']
  exact congrArg some (hsingle.resolveFrom_mips hsingle')

theorem mips?_issueAll_of_ne {cs : List Command} (h : ∀ c ∈ cs, c.touched? d ≠ some t.ref) :
    (d.issueAll cs).mips? t = d.mips? t := by
  rw [mips?, get?_issueAll_of_ne h, mips?]

end Device

end EffectChain
