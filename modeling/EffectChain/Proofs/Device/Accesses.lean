import EffectChain.Proofs.Shapes

/-!
# Commands stay within bounds

The commands of a device read bytes by their index, levels by their number, and cut the first level
of a texture into rows and texels. Reading past an end gives zero here, so a command that did it
would not be noticed. This file has the commands a second time, with every access checked
(`Device.execute?`): a byte or a level that is not there, a row of no bytes and a level that does
not divide into whole rows or texels are failures.

On a device whose textures are well-formed no access fails, whatever the handles and arguments are,
and what is computed is the same (`Device.execute?_eq_some`).
-/

namespace EffectChain

/-! ## Bytes -/

namespace Bytes

/-- The byte at an index, if there is one. -/
def at? (b : Bytes) (i : Nat) : Option UInt8 := if i < b.size then some (b.byteAt i) else none

/-- The byte string of size `n` whose byte at `i` is `f i`, if all of them are there. -/
def tabulate? (n : Nat) (f : Nat → Option UInt8) : Option Bytes :=
  if ∀ i < n, (f i).isSome then some (tabulate n fun i ↦ (f i).getD 0) else none

/-- The first `n` bytes, with zeros supplied. -/
def fit? (n : Nat) (b : Bytes) : Option Bytes :=
  tabulate? n fun i ↦ if i < min n b.size then b.at? i else some 0

theorem at?_eq_some {b : Bytes} {i : Nat} (h : i < b.size) : b.at? i = some (b.byteAt i) := if_pos h

theorem tabulate?_eq_some {n : Nat} {f : Nat → Option UInt8} {g : Nat → UInt8}
    (h : ∀ i < n, f i = some (g i)) : tabulate? n f = some (tabulate n g) := by
  rw [tabulate?, if_pos fun i hi ↦ by rw [h i hi]; rfl]
  refine congrArg some (ext_byteAt (by simp) fun i hi ↦ ?_)
  rw [size_tabulate] at hi
  rw [byteAt_tabulate, byteAt_tabulate, if_pos hi, if_pos hi, h i hi, Option.getD_some]

theorem fit?_eq_some (n : Nat) (b : Bytes) : fit? n b = some (fit n b) := by
  refine tabulate?_eq_some fun i hi ↦ ?_
  by_cases hb : i < b.size
  · rw [if_pos (lt_min hi hb), at?_eq_some hb]
  · rw [if_neg fun h ↦ hb (lt_of_lt_of_le h (min_le_right _ _)), byteAt_of_size_le (by omega)]

end Bytes

/-! ## Levels -/

/-- Reading where a condition holds, and collecting what is read. -/
theorem mapM_filter_eq_some {α β : Type} {p : α → Bool} {f : α → Option β} {g : α → β} {l : List α}
    (h : ∀ a ∈ l, p a → f a = some (g a)) :
    (l.filter p).mapM f = some (l.filterMap fun a ↦ if p a then some (g a) else none) := by
  induction l with
  | nil => rfl
  | cons a l ih =>
    rw [List.forall_mem_cons] at h
    by_cases ha : p a
    · rw [List.filter_cons_of_pos ha, List.mapM_cons, h.1 ha, ih h.2, List.filterMap_cons,
        if_pos ha]
      rfl
    · rw [List.filter_cons_of_neg ha, ih h.2, List.filterMap_cons, if_neg ha]

namespace Mip

/-- The bytes that a texel of the next level is the mean of. -/
def covered? (source : Bytes) (width height texelSize x y channel : Nat) : Option (List UInt8) :=
  ([(2 * x, 2 * y), (2 * x + 1, 2 * y), (2 * x, 2 * y + 1), (2 * x + 1, 2 * y + 1)].filter
    fun p ↦ p.1 < width ∧ p.2 < height).mapM
      fun p ↦ source.at? ((p.2 * width + p.1) * texelSize + channel)

/-- The box filter of a level of the given size, in place of a level that is cut into rows of
`targetWidth` texels. -/
def downsample? (source target : Bytes) (width height targetWidth texelSize : Nat) :
    Option Bytes :=
  if 0 < targetWidth * texelSize ∧ target.size % (targetWidth * texelSize) = 0 then
    Bytes.tabulate? target.size fun i ↦
      let texel := i / texelSize
      (covered? source width height texelSize (texel % targetWidth) (texel / targetWidth)
        (i % texelSize)).map mean
  else none

/-- A level and `count` further ones, each the box filter of the one before, in place of the levels
that there are. -/
def chain? (d : TextureDesc) : Nat → Bytes → List Bytes → Nat → Option (List Bytes)
  | _, source, targets, 0 => some (source :: targets)
  | _, _, [], _ + 1 => none
  | level, source, target :: targets, count + 1 => do
    let next ← downsample? source target (side d.width level) (side d.height level)
      (side d.width (level + 1)) d.format.bytesPerTexel
    return source :: (← chain? d (level + 1) next targets count)

theorem byte_lt_of_texel {width height texelSize x y channel : Nat} (hx : x < width)
    (hy : y < height) (hchannel : channel < texelSize) :
    (y * width + x) * texelSize + channel < width * height * texelSize := by
  have htexel : y * width + x < width * height := by
    calc y * width + x < y * width + width := Nat.add_lt_add_left hx _
      _ = (y + 1) * width := (Nat.succ_mul y width).symm
      _ ≤ height * width := Nat.mul_le_mul_right _ hy
      _ = width * height := Nat.mul_comm _ _
  calc (y * width + x) * texelSize + channel
      < (y * width + x) * texelSize + texelSize := Nat.add_lt_add_left hchannel _
    _ = (y * width + x + 1) * texelSize := (Nat.succ_mul _ _).symm
    _ ≤ width * height * texelSize := Nat.mul_le_mul_right _ htexel

theorem covered?_eq_some {source : Bytes} {width height texelSize channel : Nat}
    (hsize : source.size = width * height * texelSize) (hchannel : channel < texelSize)
    (x y : Nat) : covered? source width height texelSize x y channel
      = some (covered source width height texelSize x y channel) := by
  have hread (p : Nat × Nat) (hin : decide (p.1 < width ∧ p.2 < height) = true) :
      source.at? ((p.2 * width + p.1) * texelSize + channel)
        = some (source.byteAt ((p.2 * width + p.1) * texelSize + channel)) := by
    obtain ⟨hx, hy⟩ := of_decide_eq_true hin
    exact Bytes.at?_eq_some (hsize ▸ byte_lt_of_texel hx hy hchannel)
  rw [covered?, mapM_filter_eq_some fun p _ ↦ hread p]
  simp only [covered, decide_eq_true_eq]

/-- The next level is computed from one that has all its texels. -/
theorem downsample?_eq_some {source target : Bytes}
    {width height targetWidth targetHeight texelSize : Nat}
    (hsource : source.size = width * height * texelSize)
    (htarget : target.size = targetWidth * targetHeight * texelSize) (hwidth : 0 < targetWidth)
    (htexel : 0 < texelSize) :
    downsample? source target width height targetWidth texelSize
      = some (downsample source width height targetWidth targetHeight texelSize) := by
  have hrows : target.size % (targetWidth * texelSize) = 0 := by
    rw [htarget, Nat.mul_right_comm]
    exact Nat.mul_mod_right _ _
  rw [downsample?, if_pos ⟨Nat.mul_pos hwidth htexel, hrows⟩, downsample, ← htarget]
  refine Bytes.tabulate?_eq_some fun i _ ↦ ?_
  dsimp only
  rw [covered?_eq_some hsource (Nat.mod_lt _ htexel), Option.map_some]

theorem chain?_eq_some {d : TextureDesc} (hformat : 0 < d.format.bytesPerTexel) {level : Nat}
    {source : Bytes} (hsource : source.size = byteSize d level) {targets : List Bytes} {count : Nat}
    (htargets : targets.map (·.size) = (List.range' (level + 1) count).map (byteSize d)) :
    chain? d level source targets count = some (chain d level source count) := by
  induction count generalizing level source targets with
  | zero =>
    obtain rfl : targets = [] := List.map_eq_nil_iff.mp htargets
    rfl
  | succ count ih =>
    obtain ⟨target, targets, rfl⟩ : ∃ target rest, targets = target :: rest := by
      cases targets with
      | nil => cases htargets
      | cons target rest => exact ⟨target, rest, rfl⟩
    rw [List.range'_succ, List.map_cons, List.map_cons, List.cons.injEq] at htargets
    have hnext := downsample?_eq_some hsource htargets.1 (side_pos _ _) hformat
    have hsize : (next d level source).size = byteSize d (level + 1) := Bytes.size_tabulate _ _
    have hrest := ih hsize htargets.2
    rw [chain?, hnext, chain]
    change (do return source :: (← chain? d (level + 1) (next d level source) targets count)) = _
    rw [hrest]
    rfl

end Mip

/-! ## Textures -/

namespace Texture

/-- The first level, if there is one and it consists of whole chunks of so many bytes. -/
def chunked? (t : Texture) (chunk : Nat) : Option Bytes :=
  (t.mips[0]?).filter fun base ↦ 0 < chunk ∧ base.size % chunk = 0

/-- Level 0 replaced by rows of `rowPitch` bytes, if the data holds all of them. -/
def upload? (t : Texture) (data : Bytes) (rowPitch : Nat) : Option Texture :=
  let rowBytes := Mip.side t.desc.width 0 * t.desc.format.bytesPerTexel
  let height := Mip.side t.desc.height 0
  if rowPitch < rowBytes ∨ data.size < rowPitch * (height - 1) + rowBytes then some t
  else do
    let base ← t.chunked? rowBytes
    return t.withBase (← Bytes.tabulate? base.size fun i ↦
      data.at? (i / rowBytes * rowPitch + i % rowBytes))

/-- Every level after the first replaced by the box filter of the one before, as many as the
description says, if the format has 8-bit channels. -/
def generateMips? (t : Texture) : Option Texture :=
  if t.desc.format.is8BitUnorm then
    match t.mips with
    | [] => none
    | base :: targets =>
      (Mip.chain? t.desc 0 base targets (t.desc.levels.toNat - 1)).map fun mips ↦ { t with mips }
  else some t

/-- The first level replaced by one of the same size. -/
def replaceBase? (t : Texture) (base : Bytes) : Option Texture := do
  let old ← t.mips[0]?
  return if old.size = base.size then t.withBase base else t

/-- Every texel of level 0 replaced by one, if it has the right size. -/
def fill? (t : Texture) (texel : List UInt8) : Option Texture :=
  if texel.length = t.desc.format.bytesPerTexel then do
    let base ← t.chunked? texel.length
    return t.withBase (← Bytes.tabulate? base.size fun i ↦
      (Bytes.ofList texel).at? (i % texel.length))
  else some t

/-- The stencil byte of every texel of level 0 replaced, if the format has one. -/
def fillStencil? (t : Texture) (value : UInt8) : Option Texture :=
  if t.desc.format = .r24g8Typeless ∨ t.desc.format = .d24UnormS8Uint then do
    let base ← t.chunked? 4
    return t.withBase (← Bytes.tabulate? base.size fun i ↦
      if i % 4 = 3 then some value else base.at? i)
  else some t

namespace WellFormed

variable {c : Texture}

theorem getElem?_zero (h : c.WellFormed) : c.mips[0]? = some c.base := by
  obtain ⟨rest, hmips⟩ := h.mips_eq_cons
  rw [hmips]
  rfl

theorem chunked?_eq_some (h : c.WellFormed) {chunk : Nat} (hpos : 0 < chunk)
    (hdvd : chunk ∣ c.base.size) : c.chunked? chunk = some c.base := by
  rw [chunked?, h.getElem?_zero, Option.filter_some,
    if_pos (decide_eq_true ⟨hpos, Nat.mod_eq_zero_of_dvd hdvd⟩)]

theorem size_base_eq_rows (h : c.WellFormed) : c.base.size
    = Mip.side c.desc.width 0 * c.desc.format.bytesPerTexel * Mip.side c.desc.height 0 := by
  rw [h.size_base, Mip.byteSize, Nat.mul_right_comm]

theorem dvd_size_base (h : c.WellFormed) : c.desc.format.bytesPerTexel ∣ c.base.size := by
  rw [h.size_base]
  exact Nat.dvd_mul_left _ _

theorem upload?_eq_some (h : c.WellFormed) (data : Bytes) (rowPitch : Nat) :
    c.upload? data rowPitch = some (c.upload data rowPitch) := by
  rw [upload?, upload]
  set rowBytes := Mip.side c.desc.width 0 * c.desc.format.bytesPerTexel
  set height := Mip.side c.desc.height 0
  have hrow : 0 < rowBytes := Nat.mul_pos (Mip.side_pos _ _) h.format
  have hrows : c.base.size = rowBytes * height := h.size_base_eq_rows
  split
  · rfl
  · rename_i hfits
    have htexels : ∀ i < c.base.size, data.at? (i / rowBytes * rowPitch + i % rowBytes)
        = some (data.byteAt (i / rowBytes * rowPitch + i % rowBytes)) := by
      intro i hi
      have hline : i / rowBytes ≤ height - 1 := by
        have hlt : i / rowBytes < height := Nat.div_lt_of_lt_mul (hrows ▸ hi)
        omega
      have hstart := Nat.mul_le_mul_right rowPitch hline
      have hcolumn := Nat.mod_lt i hrow
      rw [Nat.mul_comm (height - 1)] at hstart
      exact Bytes.at?_eq_some (by omega)
    rw [h.chunked?_eq_some hrow (hrows ▸ Nat.dvd_mul_right _ _)]
    change (do return c.withBase (← Bytes.tabulate? c.base.size _)) = _
    rw [Bytes.tabulate?_eq_some htexels]
    rfl

theorem generateMips?_eq_some (h : c.WellFormed) : c.generateMips? = some c.generateMips := by
  rw [generateMips?, generateMips]
  obtain ⟨rest, hmips⟩ := h.mips_eq_cons
  have hlength := h.length_mips
  have hsizes := h.sizes
  have hpos := h.levels_pos
  split
  · have hcount : c.desc.levels.toNat = rest.length + 1 := by rw [← hlength, hmips]; rfl
    have hrest : rest.map (·.size)
        = (List.range' (0 + 1) rest.length).map (Mip.byteSize c.desc) := by
      rw [Texture.sizes, hmips, hcount, List.range_eq_range', List.range'_succ] at hsizes
      exact (List.cons.inj hsizes).2
    have hchain := Mip.chain?_eq_some h.format h.size_base hrest
    rw [hlength, hcount, Nat.add_sub_cancel, hmips]
    dsimp only
    rw [hchain]
    rfl
  · rfl

theorem replaceBase?_eq_some (h : c.WellFormed) (source : Texture) :
    c.replaceBase? source.base = some (c.resolveFrom source) := by
  rw [replaceBase?, h.getElem?_zero]
  rfl

theorem fill?_eq_some (h : c.WellFormed) (texel : List UInt8) :
    c.fill? texel = some (c.fill texel) := by
  rw [fill?, fill]
  split
  · rename_i hlength
    have hpos : 0 < texel.length := hlength ▸ h.format
    have htexels : ∀ i < c.base.size, (Bytes.ofList texel).at? (i % texel.length)
        = some ((Bytes.ofList texel).byteAt (i % texel.length)) :=
      fun i _ ↦ Bytes.at?_eq_some (Nat.mod_lt i hpos)
    rw [h.chunked?_eq_some hpos (hlength ▸ h.dvd_size_base)]
    change (do return c.withBase (← Bytes.tabulate? c.base.size _)) = _
    rw [Bytes.tabulate?_eq_some htexels]
    rfl
  · rfl

theorem fillStencil?_eq_some (h : c.WellFormed) (value : UInt8) :
    c.fillStencil? value = some (c.fillStencil value) := by
  rw [fillStencil?, fillStencil]
  split
  · rename_i hformat
    have hfour : c.desc.format.bytesPerTexel = 4 := by
      rcases hformat with hf | hf <;> rw [hf] <;> rfl
    have htexels : ∀ i < c.base.size, (if i % 4 = 3 then some value else c.base.at? i)
        = some (if i % 4 = 3 then value else c.base.byteAt i) := by
      intro i hi
      rw [Bytes.at?_eq_some hi]
      split <;> rfl
    rw [h.chunked?_eq_some (by decide) (hfour ▸ h.dvd_size_base)]
    change (do return c.withBase (← Bytes.tabulate? c.base.size _)) = _
    rw [Bytes.tabulate?_eq_some htexels]
    rfl
  · rfl

end WellFormed

end Texture

/-! ## Commands -/

namespace Store

/-- Where nothing is there twice, an object that a handle refers to is the one that it finds. -/
theorem get?_of_mem {s : Store} (hnodup : s.refs.Nodup) {kind : ObjectKind} {h : Handle kind}
    {o : StoredObject} (ho : o ∈ s) {c : kind.Content} (hc : o.contentFor? h = some c) :
    s.get? h = some c := by
  induction s with
  | nil => cases ho
  | cons o' s ih =>
    rw [refs, List.map_cons, List.nodup_cons] at hnodup
    rw [get?, List.findSome?_cons]
    rcases List.mem_cons.mp ho with rfl | ho
    · rw [hc]
    · have hother : o'.contentFor? h = none := by
        have href : o.ref = h.ref := (contentFor?_isSome_iff o h).mp (by rw [hc]; rfl)
        rw [← Option.not_isSome_iff_eq_none, contentFor?_isSome_iff, ← href]
        exact fun heq ↦ hnodup.1 (heq ▸ List.mem_map_of_mem ho)
      rw [hother]
      exact ih hnodup.2 ho

theorem modifyFor_congr {o : StoredObject} {kind : ObjectKind} {h : Handle kind}
    {f g : kind.Content → kind.Content} (hfg : ∀ c, o.contentFor? h = some c → f c = g c) :
    o.modifyFor h f = o.modifyFor h g := by
  unfold StoredObject.contentFor? at hfg
  unfold StoredObject.modifyFor
  split
  · rename_i hkind
    subst hkind
    rw [dif_pos rfl] at hfg
    split
    · rename_i hid
      rw [hfg _ (if_pos hid)]
    · rfl
  · rfl

/-- What a change makes of a store depends on what it makes of the content that is found. -/
theorem modify_congr {s : Store} (hnodup : s.refs.Nodup) {kind : ObjectKind} {h : Handle kind}
    {f g : kind.Content → kind.Content} (hfg : ∀ c, s.get? h = some c → f c = g c) :
    s.modify h f = s.modify h g :=
  List.map_congr_left fun _ ho ↦ modifyFor_congr fun c hc ↦ hfg c (get?_of_mem hnodup ho hc)

theorem modify_of_get?_eq_none {s : Store} {kind : ObjectKind} {h : Handle kind}
    (f : kind.Content → kind.Content) (hnone : s.get? h = none) : s.modify h f = s := by
  have hsame : ∀ o ∈ s, o.modifyFor h f = o := by
    intro o ho
    have hother : o.ref ≠ h.ref := fun heq ↦
      (get?_eq_none_iff s h).mp hnone (heq ▸ List.mem_map_of_mem ho)
    unfold StoredObject.modifyFor
    split
    · rename_i hkind
      refine if_neg fun hid ↦ hother ?_
      rw [StoredObject.ref, hkind, hid]
      rfl
    · rfl
  rw [modify, List.map_congr_left hsame, List.map_id']

end Store

namespace Device

/-- Changes what is stored for a handle, if there is something. -/
def modify? (d : Device) {kind : ObjectKind} (h : Handle kind)
    (f : kind.Content → Option kind.Content) : Option Device :=
  match d.get? h with
  | none => some d
  | some c => (f c).map fun c' ↦ d.modify h fun _ ↦ c'

/-- What a command does, with every access to bytes and levels checked. -/
def execute? (d : Device) : Command → Option Device
  | .updateTexture texture data rowPitch => d.modify? texture fun t ↦ t.upload? data rowPitch
  | .updateConstantBuffer buffer data => d.modify? buffer fun b ↦ Bytes.fit? b.size data
  | .generateMips view =>
    match d.viewTexture? view with
    | none => some d
    | some texture => d.modify? texture fun t ↦ t.generateMips?
  | .copyResource target source =>
    match d.get? source with
    | none => some d
    | some s => d.modify? target fun t ↦ some (t.copyFrom s)
  | .resolve target source _ =>
    match d.get? source with
    | none => some d
    | some s => do
      let base ← s.mips[0]?
      d.modify? target fun t ↦ t.replaceBase? base
  | .clearRenderTarget view color =>
    match d.get? view with
    | none => some d
    | some v => d.modify? v.texture fun t ↦ t.fill? (color.encode v.format)
  | .clearStencil view value =>
    match d.get? view with
    | none => some d
    | some texture => d.modify? texture fun t ↦ t.fillStencil? value
  | c => some (d.apply c)

variable {d : Device} {kind : ObjectKind} {h : Handle kind}

theorem modify?_eq_some (hnodup : d.live.Nodup) {f : kind.Content → Option kind.Content}
    {g : kind.Content → kind.Content} (hfg : ∀ c, d.get? h = some c → f c = some (g c)) :
    d.modify? h f = some (d.modify h g) := by
  rw [modify?]
  rcases hget : d.get? h with _ | c
  · dsimp only
    rw [modify, Store.modify_of_get?_eq_none g hget]
  · dsimp only
    rw [hfg c hget, Option.map_some, modify, modify]
    have hsame : d.objects.modify h (fun _ ↦ g c) = d.objects.modify h g := by
      refine Store.modify_congr hnodup fun c' hget' ↦ ?_
      cases hget.symm.trans hget'
      rfl
    rw [hsame]

/-- **No command reaches out of bounds.** Where every texture is well-formed, all accesses of a
command are within bounds. -/
theorem execute?_eq_some (hnodup : d.live.Nodup)
    (htextures : ∀ (t : Handle .texture) c, d.get? t = some c → c.WellFormed) (c : Command) :
    d.execute? c = some (d.apply c) := by
  have hmodify {f : Texture → Option Texture} {g : Texture → Texture} (t : Handle .texture)
      (hfg : ∀ c : Texture, c.WellFormed → f c = some (g c)) :
      d.modify? t f = some (d.modify t g) :=
    modify?_eq_some hnodup fun c hget ↦ hfg c (htextures t c hget)
  cases c with
  | updateTexture t data rowPitch => exact hmodify t fun c hc ↦ hc.upload?_eq_some data rowPitch
  | updateConstantBuffer buffer data =>
    exact modify?_eq_some hnodup fun b _ ↦ Bytes.fit?_eq_some b.size data
  | generateMips view =>
    rw [execute?, apply]
    rcases d.viewTexture? view with _ | t
    · rfl
    · exact hmodify t fun c hc ↦ hc.generateMips?_eq_some
  | copyResource target source =>
    rw [execute?, apply, transfer]
    rcases d.get? source with _ | s
    · rfl
    · exact hmodify target fun _ _ ↦ rfl
  | resolve target source format =>
    rw [execute?, apply, transfer]
    rcases hsource : d.get? source with _ | s
    · rfl
    · dsimp only
      -- the source has a first level, since it is well formed
      rw [(htextures source s hsource).getElem?_zero]
      exact hmodify target fun c hc ↦ hc.replaceBase?_eq_some s
  | clearRenderTarget view color =>
    rw [execute?, apply]
    rcases d.get? view with _ | v
    · rfl
    · exact hmodify v.texture fun c hc ↦ hc.fill?_eq_some _
  | clearStencil view value =>
    rw [execute?, apply]
    rcases d.get? view with _ | t
    · rfl
    · exact hmodify t fun c hc ↦ hc.fillStencil?_eq_some value
  | _ => rfl

end Device

end EffectChain
