import EffectChain.Proofs.Device.Runs
import EffectChain.Proofs.Frame.Levels
import Mathlib.Algebra.BigOperators.Ring.Finset
import Mathlib.Algebra.Order.BigOperators.Group.Finset
import Mathlib.Algebra.Order.Round
import Mathlib.Data.Rat.Floor
import Mathlib.Order.Interval.Finset.Nat

/-!
# The box filter

The levels of a texture are computed with lists of bytes and division of numbers. Here they are
described without either: a channel of a texel is the average of that channel over the texels that
it covers, as a rational number rounded half up (`Average`, `Mip.Averages`).

What a texel covers is two by two texels of the level above, of which some may be missing. A level
has half as many texels on a side as the one above, rounded down, so none is missing as long as the
side is halved. A side of one texel is not halved any more, and then there is one texel to cover
along it, not two. So one, two or four texels are covered, and an average of them lies among them.

That is what the generation of levels makes of every texture that a device can hold, of all levels
but the first (`Device.Run.boxFiltered_generateMips`).
-/

namespace EffectChain

/-! ## Averages -/

/-- The number is the average of at most four others, rounded half up, and lies among them. -/
structure Average {ι : Type} (s : Finset ι) (f : ι → ℕ) (m : ℕ) : Prop where
  /-- There are one, two or four of them. -/
  card : s.card = 1 ∨ s.card = 2 ∨ s.card = 4
  /-- It is their mean, rounded. -/
  eq_round : (m : ℤ) = round ((∑ p ∈ s, (f p : ℚ)) / s.card)
  /-- One of them is as small. -/
  exists_le : ∃ p ∈ s, f p ≤ m
  /-- One of them is as large. -/
  exists_ge : ∃ p ∈ s, m ≤ f p

theorem round_div_eq {total n : ℕ} (hn : 0 < n) :
    round ((total : ℚ) / n) = ((total + n / 2) / n : ℕ) := by
  have hpos : (n : ℚ) ≠ 0 := by exact_mod_cast hn.ne'
  have hsum : (total : ℚ) / n + 1 / 2 = ((2 * total + n : ℕ) : ℚ) / ((2 * n : ℕ) : ℚ) := by
    push_cast
    field_simp
  have hhalf : (2 * total + n) / (2 * n) = (total + n / 2) / n := by
    rw [← Nat.div_div_eq_div_mul, Nat.mul_add_div two_pos]
  rw [round_eq, hsum, Rat.floor_natCast_div_natCast, ← hhalf]
  rfl

section Average

variable {ι : Type} {s : Finset ι} {f : ι → ℕ}

theorem exists_le_mean (hs : s.Nonempty) :
    ∃ p ∈ s, f p ≤ (∑ p ∈ s, f p + s.card / 2) / s.card := by
  set m := (∑ p ∈ s, f p + s.card / 2) / s.card with hm
  by_contra! hlt
  have hcard : 0 < s.card := hs.card_pos
  have hsum : s.card * (m + 1) ≤ ∑ p ∈ s, f p := by
    simpa using Finset.card_nsmul_le_sum s f (m + 1) fun p hp ↦ hlt p hp
  have hless := Nat.lt_mul_div_succ (∑ p ∈ s, f p + s.card / 2) hcard
  rw [← hm] at hless
  omega

theorem exists_mean_le (hs : s.Nonempty) :
    ∃ p ∈ s, (∑ p ∈ s, f p + s.card / 2) / s.card ≤ f p := by
  set m := (∑ p ∈ s, f p + s.card / 2) / s.card with hm
  by_contra! hlt
  have hcard : 0 < s.card := hs.card_pos
  have hsum : ∑ p ∈ s, f p + s.card ≤ s.card * m := by
    calc ∑ p ∈ s, f p + s.card = ∑ p ∈ s, (f p + 1) := by simp [Finset.sum_add_distrib]
      _ ≤ s.card • m := Finset.sum_le_card_nsmul s _ m fun p hp ↦ hlt p hp
      _ = s.card * m := rfl
  have hle := Nat.mul_div_le (∑ p ∈ s, f p + s.card / 2) s.card
  rw [← hm] at hle
  omega

theorem average_mean (hcard : s.card = 1 ∨ s.card = 2 ∨ s.card = 4) :
    Average s f ((∑ p ∈ s, f p + s.card / 2) / s.card) := by
  have hs : s.Nonempty := Finset.card_pos.mp (by omega)
  refine ⟨hcard, ?_, exists_le_mean hs, exists_mean_le hs⟩
  rw [← Nat.cast_sum, round_div_eq hs.card_pos]

end Average

namespace Mip

/-! ## What a texel covers -/

/-- The texels of a level of the given size that a texel of the next level covers. -/
def parents (width height x y : ℕ) : Finset (ℕ × ℕ) :=
  {p ∈ Finset.Icc (2 * x) (2 * x + 1) ×ˢ Finset.Icc (2 * y) (2 * y + 1) |
    p.1 < width ∧ p.2 < height}

/-- Where a level with so many texels in a row has a channel of a texel. -/
def place (width texelSize channel : ℕ) (texel : ℕ × ℕ) : ℕ :=
  (texel.2 * width + texel.1) * texelSize + channel

/-- Every byte of a level is at the place of a channel of a texel. -/
theorem exists_place_eq {width height texelSize i : ℕ} (h : i < width * height * texelSize) :
    ∃ x < width, ∃ y < height, ∃ channel < texelSize, i = place width texelSize channel (x, y) := by
  have htexel : 0 < texelSize := Nat.pos_of_ne_zero fun h0 ↦ by simp [h0] at h
  have hwidth : 0 < width := Nat.pos_of_ne_zero fun h0 ↦ by simp [h0] at h
  have hrow : i / texelSize < width * height :=
    Nat.div_lt_of_lt_mul (h.trans_eq (Nat.mul_comm _ _))
  refine ⟨i / texelSize % width, Nat.mod_lt _ hwidth, i / texelSize / width,
    Nat.div_lt_of_lt_mul hrow, i % texelSize, Nat.mod_lt _ htexel, ?_⟩
  rw [place, Nat.div_add_mod', Nat.div_add_mod']

theorem side_succ (size : UInt32) (level : ℕ) :
    side size (level + 1) = max (side size level / 2) 1 := by
  rw [side, side, Nat.shiftRight_succ]
  omega

theorem card_filter_Icc {size x : ℕ} (hsize : 0 < size) (hx : x < max (size / 2) 1) :
    ({i ∈ Finset.Icc (2 * x) (2 * x + 1) | i < size}).card = 1 ∨
      ({i ∈ Finset.Icc (2 * x) (2 * x + 1) | i < size}).card = 2 := by
  by_cases hone : size = 1
  · left
    obtain rfl : x = 0 := by omega
    rw [hone]
    rfl
  · right
    have hall : {i ∈ Finset.Icc (2 * x) (2 * x + 1) | i < size}
        = Finset.Icc (2 * x) (2 * x + 1) := by
      refine Finset.filter_true_of_mem fun i hi ↦ ?_
      have hle := (Finset.mem_Icc.mp hi).2
      omega
    rw [hall, Nat.card_Icc]
    omega

theorem card_parents {width height x y : ℕ} (hwidth : 0 < width) (hheight : 0 < height)
    (hx : x < max (width / 2) 1) (hy : y < max (height / 2) 1) :
    (parents width height x y).card = 1 ∨ (parents width height x y).card = 2 ∨
      (parents width height x y).card = 4 := by
  rw [parents, Finset.filter_product (· < width) (· < height), Finset.card_product]
  rcases card_filter_Icc hwidth hx with h | h <;>
    rcases card_filter_Icc hheight hy with h' | h' <;> rw [h, h'] <;> decide

/-! ## The filter -/

theorem filterMap_ite_eq_map_filter {α β : Type} (p : α → Prop) [DecidablePred p] (f : α → β)
    (l : List α) :
    (l.filterMap fun a ↦ if p a then some (f a) else none) = (l.filter (p ·)).map f := by
  induction l with
  | nil => rfl
  | cons a l ih => by_cases ha : p a <;> simp [ha, ih]

/-- The bytes that are read are those at the places of the texels that are covered, each once. -/
theorem exists_covered_eq (source : Bytes) (width height texelSize x y channel : ℕ) :
    ∃ l : List (ℕ × ℕ), l.Nodup ∧ l.toFinset = parents width height x y ∧
      covered source width height texelSize x y channel
        = l.map fun p ↦ source.byteAt (place width texelSize channel p) := by
  refine ⟨[(2 * x, 2 * y), (2 * x + 1, 2 * y), (2 * x, 2 * y + 1), (2 * x + 1, 2 * y + 1)].filter
    fun p ↦ p.1 < width ∧ p.2 < height, ?_, ?_, filterMap_ite_eq_map_filter _ _ _⟩
  · refine List.Nodup.filter _ ?_
    simp
  · ext ⟨i, j⟩
    simp only [parents, List.mem_toFinset, List.mem_filter, Finset.mem_filter, Finset.mem_product,
      Finset.mem_Icc, decide_eq_true_eq, List.mem_cons, Prod.mk.injEq, List.not_mem_nil, or_false]
    refine and_congr_left fun _ ↦ ?_
    omega

theorem toNat_mean {bytes : List UInt8} (h : bytes ≠ []) : (mean bytes).toNat
    = ((bytes.map UInt8.toNat).sum + bytes.length / 2) / bytes.length := by
  have hfold : ∀ l : List UInt8,
      l.foldr (fun b total ↦ b.toNat + total) 0 = (l.map UInt8.toNat).sum := by
    intro l
    induction l with
    | nil => rfl
    | cons b l ih => rw [List.foldr_cons, ih, List.map_cons, List.sum_cons]
  have hpos : 0 < bytes.length := List.length_pos_iff.mpr h
  have hsum : (bytes.map UInt8.toNat).sum ≤ bytes.length * 255 := by
    have hle := List.sum_le_card_nsmul (bytes.map UInt8.toNat) 255 fun n hn ↦ by
      obtain ⟨b, -, rfl⟩ := List.mem_map.mp hn
      exact Nat.le_of_lt_succ b.toNat_lt
    simpa using hle
  -- the mean of bytes is a byte
  have hlt : ((bytes.map UInt8.toNat).sum + bytes.length / 2) / bytes.length < 256 := by
    rw [Nat.div_lt_iff_lt_mul hpos]
    omega
  rw [mean, hfold, Nat.max_eq_left hpos]
  exact UInt8.toNat_ofNat_of_lt' hlt

/-- **A covered texel's mean is the average of what it covers.** -/
theorem average_covered {source : Bytes} {width height x y : ℕ} (texelSize channel : ℕ)
    (hwidth : 0 < width) (hheight : 0 < height) (hx : x < max (width / 2) 1)
    (hy : y < max (height / 2) 1) :
    Average (parents width height x y)
      (fun p ↦ (source.byteAt (place width texelSize channel p)).toNat)
      (mean (covered source width height texelSize x y channel)).toNat := by
  obtain ⟨l, hnodup, hl, hcovered⟩ := exists_covered_eq source width height texelSize x y channel
  have hcard := card_parents hwidth hheight hx hy
  have haverage := average_mean
    (f := fun p ↦ (source.byteAt (place width texelSize channel p)).toNat) hcard
  have hne : covered source width height texelSize x y channel ≠ [] := by
    rw [hcovered, Ne, List.map_eq_nil_iff]
    rintro rfl
    rw [← hl] at hcard
    simp at hcard
  rw [← hl, List.sum_toFinset _ hnodup, List.toFinset_card_of_nodup hnodup] at haverage
  rw [toNat_mean hne, hcovered, List.map_map, List.length_map, ← hl]
  exact haverage

/-- The byte of the next level at the place of a channel of a texel. -/
theorem byteAt_downsample (source : Bytes)
    {width height targetWidth targetHeight texelSize x y channel : ℕ} (hx : x < targetWidth)
    (hy : y < targetHeight) (hchannel : channel < texelSize) :
    (downsample source width height targetWidth targetHeight texelSize).byteAt
        (place targetWidth texelSize channel (x, y))
      = mean (covered source width height texelSize x y channel) := by
  have htexel : place targetWidth texelSize channel (x, y) / texelSize = y * targetWidth + x := by
    rw [place, Nat.mul_comm, Nat.mul_add_div (Nat.zero_lt_of_lt hchannel),
      Nat.div_eq_of_lt hchannel, Nat.add_zero]
  have hmod : place targetWidth texelSize channel (x, y) % texelSize = channel := by
    rw [place, Nat.mul_add_mod_of_lt hchannel]
  have hcolumn : (y * targetWidth + x) % targetWidth = x := Nat.mul_add_mod_of_lt hx
  have hrow : (y * targetWidth + x) / targetWidth = y := by
    rw [Nat.mul_comm, Nat.mul_add_div (Nat.zero_lt_of_lt hx), Nat.div_eq_of_lt hx, Nat.add_zero]
  have hlt : place targetWidth texelSize channel (x, y) < targetWidth * targetHeight * texelSize :=
    byte_lt_of_texel hx hy hchannel
  rw [downsample, Bytes.byteAt_tabulate, if_pos hlt]
  dsimp only
  rw [htexel, hmod, hcolumn, hrow]

/-- The bytes of a level are averages of those of the level above. -/
structure Averages (d : TextureDesc) (level : ℕ) (source target : Bytes) : Prop where
  /-- The level has all its bytes. -/
  size : target.size = side d.width (level + 1) * side d.height (level + 1) * d.format.bytesPerTexel
  /-- Every byte belongs to a channel of a texel. -/
  covers : ∀ i < target.size, ∃ x < side d.width (level + 1), ∃ y < side d.height (level + 1),
    ∃ channel < d.format.bytesPerTexel,
      i = place (side d.width (level + 1)) d.format.bytesPerTexel channel (x, y)
  /-- What a texel covers lies in the level above. -/
  inside : ∀ x y, ∀ channel < d.format.bytesPerTexel,
    ∀ p ∈ parents (side d.width level) (side d.height level) x y,
      place (side d.width level) d.format.bytesPerTexel channel p < source.size
  /-- Every channel of every texel is the average over what the texel covers. -/
  average : ∀ x < side d.width (level + 1), ∀ y < side d.height (level + 1),
    ∀ channel < d.format.bytesPerTexel,
      Average (parents (side d.width level) (side d.height level) x y)
        (fun p ↦
          (source.byteAt (place (side d.width level) d.format.bytesPerTexel channel p)).toNat)
        (target.byteAt
          (place (side d.width (level + 1)) d.format.bytesPerTexel channel (x, y))).toNat

/-- **The next level consists of averages.** -/
theorem averages_next {d : TextureDesc} {level : ℕ} {source : Bytes}
    (h : source.size = byteSize d level) : Averages d level source (next d level source) where
  size := Bytes.size_tabulate _ _
  covers i hi := exists_place_eq (hi.trans_eq (Bytes.size_tabulate _ _))
  inside x y channel hchannel p hp := by
    obtain ⟨hx, hy⟩ := (Finset.mem_filter.mp hp).2
    exact h ▸ byte_lt_of_texel hx hy hchannel
  average x hx y hy channel hchannel := by
    rw [next, byteAt_downsample source hx hy hchannel]
    rw [side_succ] at hx hy
    exact average_covered _ _ (side_pos _ _) (side_pos _ _) hx hy

/-- The bytes of every texel are the given ones. -/
def Uniform (texelSize : ℕ) (texel : ℕ → UInt8) (level : Bytes) : Prop :=
  ∀ i < level.size, level.byteAt i = texel (i % texelSize)

theorem Averages.uniform {d : TextureDesc} {level : ℕ} {source target : Bytes}
    (h : Averages d level source target) {texel : ℕ → UInt8}
    (huniform : Uniform d.format.bytesPerTexel texel source) :
    Uniform d.format.bytesPerTexel texel target := by
  intro i hi
  obtain ⟨x, hx, y, hy, channel, hchannel, rfl⟩ := h.covers i hi
  have hmod (width : ℕ) (p : ℕ × ℕ) :
      place width d.format.bytesPerTexel channel p % d.format.bytesPerTexel = channel := by
    rw [place, Nat.mul_add_mod_of_lt hchannel]
  have hsource : ∀ p ∈ parents (side d.width level) (side d.height level) x y,
      source.byteAt (place (side d.width level) d.format.bytesPerTexel channel p)
        = texel channel := by
    intro p hp
    rw [huniform _ (h.inside x y channel hchannel p hp), hmod]
  obtain ⟨-, -, ⟨p, hp, hle⟩, q, hq, hge⟩ := h.average x hx y hy channel hchannel
  rw [hsource p hp] at hle
  rw [hsource q hq] at hge
  rw [hmod]
  exact UInt8.toNat_inj.mp (le_antisymm hge hle)

end Mip

/-! ## Textures -/

namespace Texture

/-- A texture whose levels were generated from the first one. -/
structure BoxFiltered (c c' : Texture) : Prop where
  /-- It is described as before. -/
  desc : c'.desc = c.desc
  /-- It has its first level. -/
  base : c'.mips[0]? = c.mips[0]?
  /-- It has as many levels. -/
  length : c'.mips.length = c.mips.length
  /-- Each level below the first consists of averages of the one above. -/
  averages : ∀ level source target, c'.mips[level]? = some source →
    c'.mips[level + 1]? = some target → Mip.Averages c.desc level source target
  /-- If all texels of the first level are equal, so are those of all others. -/
  uniform : ∀ texel, Mip.Uniform c.desc.format.bytesPerTexel texel c.base →
    ∀ a ∈ c'.mips, Mip.Uniform c.desc.format.bytesPerTexel texel a

variable {c : Texture}

theorem wellFormed_generateMips (h : c.WellFormed) : c.generateMips.WellFormed :=
  Edit.generateMips.wellFormed h

theorem WellFormed.length_generateMips (h : c.WellFormed) :
    c.generateMips.mips.length = c.mips.length := by
  rw [(wellFormed_generateMips h).length_mips, desc_generateMips, h.length_mips]

theorem base_generateMips (c : Texture) : c.generateMips.base = c.base := by
  rw [Texture.generateMips]
  split
  · rw [base]
    cases c.mips.length - 1 <;> rfl
  · rfl

/-- **Levels that were generated are not changed by generating them again.** -/
theorem WellFormed.generateMips_generateMips (h : c.WellFormed) :
    c.generateMips.generateMips = c.generateMips := by
  by_cases hformat : c.desc.format.is8BitUnorm
  · rw [Texture.generateMips.eq_1 c.generateMips, desc_generateMips, if_pos hformat,
      base_generateMips, h.length_generateMips, Texture.generateMips, if_pos hformat]
  · have hsame : c.generateMips = c := by rw [Texture.generateMips, if_neg hformat]
    rw [hsame, hsame]

theorem WellFormed.boxFiltered (h : c.WellFormed) (hformat : c.desc.format.is8BitUnorm) :
    c.BoxFiltered c.generateMips := by
  have haverages : ∀ level source target, c.generateMips.mips[level]? = some source →
      c.generateMips.mips[level + 1]? = some target → Mip.Averages c.desc level source target := by
    intro level source target hsource htarget
    have hsize := (wellFormed_generateMips h).size_of_getElem? hsource
    have hnext := filtered_generateMips hformat level source target (Nat.zero_le _) hsource htarget
    rw [desc_generateMips] at hsize hnext
    rw [hnext]
    exact Mip.averages_next hsize
  refine ⟨desc_generateMips c, ?_, h.length_generateMips, haverages, fun texel huniform a ha ↦ ?_⟩
  · rw [(wellFormed_generateMips h).getElem?_zero, h.getElem?_zero, base_generateMips]
  · obtain ⟨level, hlevel⟩ := List.mem_iff_getElem?.mp ha
    clear ha
    -- down from the first level, which is the one of before
    induction level generalizing a with
    | zero =>
      rw [(wellFormed_generateMips h).getElem?_zero, base_generateMips] at hlevel
      cases hlevel
      exact huniform
    | succ level ih =>
      obtain ⟨hlt, -⟩ := List.getElem?_eq_some_iff.mp hlevel
      have hsource := List.getElem?_eq_getElem (Nat.lt_of_succ_lt hlt)
      exact (haverages level _ a hsource hlevel).uniform (ih _ hsource)

end Texture

/-! ## Devices -/

namespace Device

namespace Run

/-- **Generating levels filters a texture**, whatever was done to the device before. No byte is read
or written outside of its level, no other object changes, and the texture keeps its first level; the
levels below it become averages of what is above them. Generating them again changes nothing. -/
theorem boxFiltered_generateMips (timing : DeviceTiming) (operations : List Operation)
    {view : Handle .shaderView} {t : Handle .texture} {c : Texture} :
    let d := ((start timing).performAll operations).device
    let d' := d.issue (.generateMips view)
    d.viewTexture? view = some t → d.get? t = some c → c.desc.format.is8BitUnorm →
      d.execute? (.generateMips view) = some (d.apply (.generateMips view)) ∧
      (∀ {kind : ObjectKind} (h : Handle kind), h.ref ≠ t.ref → d'.get? h = d.get? h) ∧
      ∃ c', d'.get? t = some c' ∧ c.BoxFiltered c' ∧
        (d'.issue (.generateMips view)).get? t = some c' := by
  intro d d' hview hget hformat
  have hconsistent := consistent_performAll timing operations
  obtain ⟨hc, -⟩ := hconsistent.textures t c hget
  have hget' : d'.get? t = some c.generateMips := (get?_generateMips hview).trans (congrArg _ hget)
  have hview' : d'.viewTexture? view = some t :=
    (congrArg _ (get?_issue_of_kind _ view (by decide))).trans hview
  refine ⟨hconsistent.bounds _, fun h hne ↦ get?_issue_of_ne fun htouched ↦ hne ?_, c.generateMips,
    hget', hc.boxFiltered hformat, ?_⟩
  · rw [Command.touched?, hview] at htouched
    exact (Option.some.inj htouched).symm
  · rw [get?_generateMips hview', hget', Option.map_some, hc.generateMips_generateMips]

/-- A texture of one texel a row: every texel of the lower levels covers two. -/
theorem boxFiltered_generateMips_narrow :
    let desc : TextureDesc :=
      { width := 1, height := 4, levels := 0, format := .r8Unorm, usage := .effectTexture }
    let d := ((start {}).performAll [.create (.texture desc), .create (.shaderView ⟨1⟩ .r8Unorm 3),
      .write ⟨1⟩ 0 (Bytes.ofList [0, 3, 10, 20])]).device
    d.viewTexture? ⟨2⟩ = some ⟨1⟩ ∧ ∃ c c' : Texture, d.get? (⟨1⟩ : Handle .texture) = some c ∧
      c.desc.format.is8BitUnorm ∧
      (d.issue (.generateMips ⟨2⟩)).get? (⟨1⟩ : Handle .texture) = some c' ∧ c.BoxFiltered c' ∧
      c'.mips = [Bytes.ofList [0, 3, 10, 20], Bytes.ofList [2, 15], Bytes.ofList [9]] := by
  intro desc d
  have hview : d.viewTexture? ⟨2⟩ = some ⟨1⟩ := by decide +kernel
  obtain ⟨c, hget⟩ : ∃ c : Texture, d.get? (⟨1⟩ : Handle .texture) = some c :=
    Option.isSome_iff_exists.mp (by decide +kernel)
  have hformat : ∀ c ∈ d.get? (⟨1⟩ : Handle .texture), c.desc.format.is8BitUnorm := by
    decide +kernel
  obtain ⟨-, -, c', hget', hfiltered, -⟩ :=
    boxFiltered_generateMips {} _ hview hget (hformat c hget)
  have hmips : ∀ c' ∈ (d.issue (.generateMips ⟨2⟩)).get? (⟨1⟩ : Handle .texture), c'.mips
      = [Bytes.ofList [0, 3, 10, 20], Bytes.ofList [2, 15], Bytes.ofList [9]] := by decide +kernel
  exact ⟨hview, c, c', hget, hformat c hget, hget', hfiltered, hmips c' hget'⟩

end Run

end Device

end EffectChain
