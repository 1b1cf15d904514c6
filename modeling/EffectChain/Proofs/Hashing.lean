import EffectChain.Device.Descriptor
import Mathlib.Data.List.Basic

/-!
# What the content hashes read

A content hash is taken of the fields of a descriptor, written one after the other as words or
bytes. No field is left out and each is written in a way that tells its values apart, so the hashes
read the same of two descriptors exactly if these are equal. For single precision fields equality is
that of bits, which is also what is hashed: a value that is no number has the hash of itself, and
the two zeros are told apart.
-/

namespace EffectChain

open Function (Injective)

/-! ## Single fields -/

/-- Enumerations that list all their members, and no more than a byte can count. -/
class Enumeration.Complete (α : Type) [Enumeration α] : Prop where
  /-- Every member is listed. -/
  mem_members : ∀ a : α, a ∈ Enumeration.members (α := α)
  /-- Positions are bytes. -/
  length_le : (Enumeration.members (α := α)).length ≤ UInt8.size

instance : Enumeration.Complete BlendFactor := ⟨fun a ↦ by cases a <;> decide, by decide⟩

instance : Enumeration.Complete BlendOp := ⟨fun a ↦ by cases a <;> decide, by decide⟩

instance : Enumeration.Complete StencilOp := ⟨fun a ↦ by cases a <;> decide, by decide⟩

instance : Enumeration.Complete ComparisonFunc := ⟨fun a ↦ by cases a <;> decide, by decide⟩

theorem Enumeration.code_injective {α : Type} [Enumeration α] [DecidableEq α]
    [Enumeration.Complete α] : Injective (Enumeration.code (α := α)) := by
  intro a b h
  have hbound (c : α) : List.idxOf c (Enumeration.members (α := α)) < UInt8.size :=
    Nat.lt_of_lt_of_le (List.idxOf_lt_length_of_mem (Complete.mem_members c)) Complete.length_le
  have hposition := congrArg UInt8.toNat h
  rw [code, code, UInt8.toNat_ofNat_of_lt' (hbound a), UInt8.toNat_ofNat_of_lt' (hbound b)]
    at hposition
  exact (List.idxOf_inj (Complete.mem_members a)).mp hposition

theorem FilterMode.deviceCode_injective : Injective FilterMode.deviceCode := by
  intro a b h
  cases a <;> cases b <;> first | rfl | exact absurd h (by decide)

theorem AddressMode.deviceCode_injective : Injective AddressMode.deviceCode := by
  intro a b h
  cases a <;> cases b <;> first | rfl | exact absurd h (by decide)

theorem Single.bits_injective : Injective Single.bits := fun _ _ h ↦ congrArg Single.mk h

theorem Bool.toUInt8_injective : Injective Bool.toUInt8 := by
  intro a b h
  cases a <;> cases b <;> first | rfl | exact absurd h (by decide)

/-! ## Descriptors -/

theorem SamplerDesc.words_injective : Injective SamplerDesc.words := by
  intro a b h
  cases a
  cases b
  simp only [words, List.cons.injEq, and_true] at h
  obtain ⟨hfilter, hu, hv, hw, hbias, rfl, hcomparison, hmin, hmax⟩ := h
  simp only [SamplerDesc.mk.injEq, true_and]
  exact ⟨FilterMode.deviceCode_injective hfilter, AddressMode.deviceCode_injective hu,
    AddressMode.deviceCode_injective hv, AddressMode.deviceCode_injective hw,
    Single.bits_injective hbias, Enumeration.code_injective (UInt8.toUInt32_inj.mp hcomparison),
    Single.bits_injective hmin, Single.bits_injective hmax⟩

/-- Pairs of fields that are written one after the other can be told apart again. -/
theorem flatMap_pair_injective {xs ys : List (Bool × UInt8)}
    (h : xs.flatMap (fun (enable, mask) ↦ [enable.toUInt8, mask])
      = ys.flatMap fun (enable, mask) ↦ [enable.toUInt8, mask]) : xs = ys := by
  induction xs generalizing ys with
  | nil =>
    cases ys with
    | nil => rfl
    | cons y ys => cases h
  | cons x xs ih =>
    cases ys with
    | nil => cases h
    | cons y ys =>
      simp only [List.flatMap_cons, List.cons_append, List.nil_append, List.cons.injEq] at h
      obtain ⟨henable, hmask, hrest⟩ := h
      rw [Prod.ext (Bool.toUInt8_injective henable) hmask, ih hrest]

theorem BlendDesc.bytes_injective : Injective BlendDesc.bytes := by
  intro a b h
  obtain ⟨hattachments, hcodes⟩ := List.append_inj' h rfl
  have hpairs := flatMap_pair_injective hattachments
  have henable := congrArg List.unzip hpairs
  rw [List.unzip_zip (by simp), List.unzip_zip (by simp), Prod.mk.injEq] at henable
  cases a
  cases b
  simp only [List.cons.injEq, and_true] at hcodes
  obtain ⟨hsrc, hdest, hop, hsrcAlpha, hdestAlpha, hopAlpha⟩ := hcodes
  simp only [BlendDesc.mk.injEq]
  exact ⟨Vector.toList_inj.mp henable.1, Enumeration.code_injective hsrc,
    Enumeration.code_injective hdest, Enumeration.code_injective hop,
    Enumeration.code_injective hsrcAlpha, Enumeration.code_injective hdestAlpha,
    Enumeration.code_injective hopAlpha, Vector.toList_inj.mp henable.2⟩

theorem StencilFace.bytes_injective : Injective StencilFace.bytes := by
  intro a b h
  cases a
  cases b
  simp only [bytes, List.cons.injEq, and_true] at h
  simp only [StencilFace.mk.injEq]
  exact ⟨Enumeration.code_injective h.1, Enumeration.code_injective h.2.1,
    Enumeration.code_injective h.2.2.1, Enumeration.code_injective h.2.2.2⟩

theorem DepthStencilDesc.bytes_injective : Injective DepthStencilDesc.bytes := by
  intro a b h
  obtain ⟨hfront, hback⟩ := List.append_inj' h rfl
  obtain ⟨hfields, hfront⟩ := List.append_inj' hfront rfl
  cases a
  cases b
  simp only [List.cons.injEq, and_true] at hfields
  obtain ⟨hdepth, hwrite, hfunc, hstencil, rfl, rfl⟩ := hfields
  simp only [DepthStencilDesc.mk.injEq, true_and]
  exact ⟨Bool.toUInt8_injective hdepth, Bool.toUInt8_injective hwrite,
    Enumeration.code_injective hfunc, Bool.toUInt8_injective hstencil,
    StencilFace.bytes_injective hfront, StencilFace.bytes_injective hback⟩

end EffectChain
