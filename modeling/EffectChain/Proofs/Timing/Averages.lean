import EffectChain.Timing.Average
import Mathlib.Algebra.Order.BigOperators.Group.List
import Mathlib.Algebra.Module.NatInt
import Mathlib.Algebra.Order.Ring.Nat
import Mathlib.Data.List.DropRight
import Mathlib.Data.List.Rotate

/-!
# Averages of the last samples

A moving average is the whole part of the mean of the samples that were added last, as many as its
window holds (`MovingAverage.Averages`). It lies between the smallest and the largest of them, does
not get less if they do not (`MovingAverage.get_le_get`), and forgets all that were added earlier.

The window can be kept in a fixed number of slots that are written in turn, together with the slot
that is written next and the number of slots in use (`SampleRing`). Here every step of that is
checked: a slot that is not there, a count that does not fit a word, a sum that does not fit two
words and a mean that does not fit one are failures. The samples in use are a prefix of the slots,
so once all slots are written they stand there in another order than they were added.

What is preserved is the order that shows when the slots are read from the next one on
(`SampleRing.Holds`): the samples of the window in the order in which they were added, behind zeros
for those that are still to come. So no addition fails, however often the slots are gone round, and
the mean is that of the moving average (`MovingAverage.averages_last`).
-/

namespace EffectChain

/-! ## The mean -/

def sampleSum (samples : List UInt64) : Nat := (samples.map UInt64.toNat).sum

theorem sampleSum_perm {samples samples' : List UInt64} (h : samples.Perm samples') :
    sampleSum samples = sampleSum samples' :=
  (h.map _).sum_eq

/-- A sum of samples is no more than if they all were as large as can be. -/
theorem sampleSum_le {samples : List UInt64} {x : Nat} (h : ∀ y ∈ samples, y.toNat ≤ x) :
    sampleSum samples ≤ samples.length * x := by
  have hsum := List.sum_le_card_nsmul (samples.map UInt64.toNat) x (List.forall_mem_map.mpr h)
  rwa [List.length_map, smul_eq_mul] at hsum

theorem le_sampleSum {samples : List UInt64} {x : Nat} (h : ∀ y ∈ samples, x ≤ y.toNat) :
    samples.length * x ≤ sampleSum samples := by
  have hsum := List.card_nsmul_le_sum (samples.map UInt64.toNat) x (List.forall_mem_map.mpr h)
  rwa [List.length_map, smul_eq_mul] at hsum

/-- The mean of samples is no more than the largest of them, so it fits a word. -/
theorem sampleSum_div_le {samples : List UInt64} {x : Nat} (h : ∀ y ∈ samples, y.toNat ≤ x) :
    sampleSum samples / samples.length ≤ x :=
  Nat.div_le_of_le_mul (sampleSum_le h)

theorem sampleSum_div_lt (samples : List UInt64) :
    sampleSum samples / samples.length < UInt64.size :=
  (sampleSum_div_le fun y _ ↦ Nat.le_sub_one_of_lt y.toNat_lt).trans_lt (by decide)

namespace MovingAverage

variable {window : Nat}

theorem total_eq (a : MovingAverage window) : a.total = sampleSum a.recent := by
  rw [total, sampleSum]
  induction a.recent with
  | nil => rfl
  | cons x samples ih => rw [List.foldr_cons, ih, List.map_cons, List.sum_cons]

theorem toNat_get (a : MovingAverage window) :
    a.get.toNat = sampleSum a.recent / a.recent.length := by
  rw [get, total_eq, length, UInt64.toNat_ofNat_of_lt' (sampleSum_div_lt a.recent)]

theorem get_le {a : MovingAverage window} {x : UInt64} (h : ∀ y ∈ a.recent, y ≤ x) :
    a.get ≤ x := by
  rw [UInt64.le_iff_toNat_le, toNat_get]
  exact sampleSum_div_le fun y hy ↦ UInt64.le_iff_toNat_le.mp (h y hy)

theorem le_get {a : MovingAverage window} {x : UInt64} (hne : a.recent ≠ [])
    (h : ∀ y ∈ a.recent, x ≤ y) : x ≤ a.get := by
  rw [UInt64.le_iff_toNat_le, toNat_get, Nat.le_div_iff_mul_le (List.length_pos_iff.mpr hne),
    Nat.mul_comm]
  exact le_sampleSum fun y hy ↦ UInt64.le_iff_toNat_le.mp (h y hy)

/-- **The mean of larger samples is no smaller.** -/
theorem get_le_get {a b : MovingAverage window} (h : List.Forall₂ (· ≤ ·) a.recent b.recent) :
    a.get ≤ b.get := by
  have hsum : sampleSum a.recent ≤ sampleSum b.recent := by
    refine List.Forall₂.sum_le_sum (List.forall₂_map_left_iff.mpr
      (List.forall₂_map_right_iff.mpr (h.imp fun x y hxy ↦ ?_)))
    exact UInt64.le_iff_toNat_le.mp hxy
  rw [UInt64.le_iff_toNat_le, toNat_get, toNat_get, h.length_eq]
  exact Nat.div_le_div_right hsum

theorem recent_foldl_append (samples : List UInt64) (a : MovingAverage window)
    (ha : a.recent.length ≤ window) :
    (samples.foldl append a).recent = (samples.reverse ++ a.recent).take window := by
  induction samples generalizing a with
  | nil => exact (List.take_of_length_le ha).symm
  | cons x samples ih =>
    have hlength : (a.append x).recent.length ≤ window := List.length_take_le _ _
    rw [List.foldl_cons, ih _ hlength, append, List.reverse_cons, List.append_assoc,
      List.take_append, List.take_append, List.take_take]
    exact congrArg (_ ++ List.take · _) (Nat.min_eq_left (Nat.sub_le _ _))

theorem recent_samples (samples : List UInt64) :
    (samples.foldl append ({} : MovingAverage window)).recent = (samples.rtake window).reverse := by
  rw [recent_foldl_append samples _ (Nat.zero_le _), List.append_nil,
    List.rtake_eq_reverse_take_reverse, List.reverse_reverse]

end MovingAverage

/-! ## Slots that are written in turn -/

/-- The samples of a window in slots. -/
structure SampleRing where
  /-- The slots. -/
  slots : List UInt64
  /-- The slot that is written next. -/
  next : Nat := 0
  /-- The number of slots in use, from the first one on. -/
  filled : Nat := 0
  deriving DecidableEq

namespace SampleRing

def within? (bound n : Nat) : Option Nat := if n < bound then some n else none

theorem within?_eq_some {bound n : Nat} (h : n < bound) : within? bound n = some n := if_pos h

/-- As many slots as the window has, none of them in use. -/
def empty (window : Nat) : SampleRing := { slots := List.replicate window 0 }

/-- Writes a sample into the next slot. Both counts are words. -/
def append? (ring : SampleRing) (sample : UInt64) : Option SampleRing := do
  let next ← within? UInt64.size (ring.next + 1)
  let filled ← within? UInt64.size (ring.filled + 1)
  if ring.next < ring.slots.length then
    some {
      slots := ring.slots.set ring.next sample
      next := next % ring.slots.length
      filled := min filled ring.slots.length }
  else none

def appendAll? (ring : SampleRing) (samples : List UInt64) : Option SampleRing :=
  samples.foldlM append? ring

def sum? (samples : List UInt64) : Option Nat :=
  samples.foldlM (fun total sample ↦ within? (UInt64.size ^ 2) (total + sample.toNat)) 0

/-- The whole part of the mean of the slots in use, zero if there are none. -/
def get? (ring : SampleRing) : Option UInt64 :=
  if ring.filled = 0 then some 0
  else if ring.filled ≤ ring.slots.length then do
    let total ← sum? (ring.slots.take ring.filled)
    let mean ← within? UInt64.size (total / ring.filled)
    return UInt64.ofNat mean
  else none

/-- Fewer samples than a word can count have a sum of two words. -/
theorem sum?_eq_some {samples : List UInt64} (h : samples.length < UInt64.size) :
    sum? samples = some (sampleSum samples) := by
  have hbound : sampleSum samples < UInt64.size ^ 2 := by
    calc sampleSum samples
        ≤ samples.length * UInt64.size := sampleSum_le fun y _ ↦ y.toNat_lt.le
      _ < UInt64.size * UInt64.size := Nat.mul_lt_mul_of_pos_right h (by decide)
      _ = UInt64.size ^ 2 := (Nat.pow_two _).symm
  -- no partial sum is more than the whole one
  have hpartial (samples : List UInt64) (total : Nat)
      (h : total + sampleSum samples < UInt64.size ^ 2) :
      samples.foldlM (fun total sample ↦ within? (UInt64.size ^ 2) (total + sample.toNat)) total
        = some (total + sampleSum samples) := by
    induction samples generalizing total with
    | nil => rfl
    | cons x samples ih =>
      have hsum : sampleSum (x :: samples) = x.toNat + sampleSum samples := List.sum_cons
      rw [hsum, ← Nat.add_assoc] at h ⊢
      rw [List.foldlM_cons, within?_eq_some (Nat.lt_of_le_of_lt (Nat.le_add_right _ _) h)]
      exact ih _ h
  rw [sum?, hpartial samples 0 (by rwa [Nat.zero_add]), Nat.zero_add]

/-- Writing a slot and going on to the next one drops what came first and adds what is new. -/
theorem rotate_set {slots : List UInt64} {i : Nat} (hi : i < slots.length) (x : UInt64) :
    (slots.set i x).rotate (i + 1) = (slots.rotate i).tail ++ [x] := by
  have htake : (slots.set i x).take (i + 1) = slots.take i ++ [x] := by
    rw [List.set_eq_take_append_cons_drop, if_pos hi, List.take_append]
    simp [Nat.min_eq_left hi.le]
  rw [List.rotate_eq_drop_append_take (by rw [List.length_set]; exact hi),
    List.rotate_eq_drop_append_take hi.le, List.drop_set_of_lt (Nat.lt_succ_self i), htake,
    List.drop_eq_getElem_cons hi]
  exact (List.append_assoc _ _ _).symm

/-- One more element takes the place of the first one, once there are enough. -/
theorem rtake_concat_of_le {l : List UInt64} {n : Nat} (hpos : 0 < n) (hle : n ≤ l.length)
    (x : UInt64) : (l ++ [x]).rtake n = (l.rtake n).tail ++ [x] := by
  have hstart : (l ++ [x]).length - n = l.length - n + 1 := by
    rw [List.length_append, List.length_singleton]
    omega
  rw [List.rtake, List.rtake, hstart, List.tail_drop, List.drop_append_of_le_length (by omega)]

/-! ## What the slots hold -/

/-- The slots hold the window of some samples: read from the next slot on they are the last of them
in order, behind zeros for those that are still to come. -/
structure Holds (window : Nat) (samples : List UInt64) (ring : SampleRing) : Prop where
  length : ring.slots.length = window
  next : ring.next = samples.length % window
  filled : ring.filled = min samples.length window
  turned : ring.slots.rotate ring.next = (List.replicate window 0 ++ samples).rtake window

variable {window : Nat} {samples : List UInt64} {ring : SampleRing}

theorem holds_empty (window : Nat) : (empty window).Holds window [] where
  length := List.length_replicate
  next := (Nat.zero_mod window).symm
  filled := (Nat.zero_min window).symm
  turned := by
    rw [List.append_nil, List.rtake, List.length_replicate, Nat.sub_self, List.drop_zero]
    exact List.rotate_zero _

/-- **A sample is added within bounds, and takes the place of the one that leaves the window.** -/
theorem Holds.append (h : ring.Holds window samples) (hpos : 0 < window)
    (hfits : window + 1 < UInt64.size) (x : UInt64) :
    ∃ ring', ring.append? x = some ring' ∧ ring'.Holds window (samples ++ [x]) := by
  have hnext : ring.next < window := by
    rw [h.next]
    exact Nat.mod_lt _ hpos
  have hfilled : ring.filled ≤ window := by
    rw [h.filled]
    exact Nat.min_le_right _ _
  refine ⟨⟨ring.slots.set ring.next x, (ring.next + 1) % window, min (ring.filled + 1) window⟩,
    ?_, ?_, ?_, ?_, ?_⟩
  · rw [append?, within?_eq_some (by omega), within?_eq_some (by omega), h.length]
    exact if_pos hnext
  · exact (List.length_set ..).trans h.length
  · change (ring.next + 1) % window = _
    rw [h.next, Nat.mod_add_mod, List.length_append, List.length_singleton]
  · change min (ring.filled + 1) window = _
    rw [h.filled, List.length_append, List.length_singleton]
    omega
  · change (ring.slots.set ring.next x).rotate ((ring.next + 1) % window) = _
    have hturn : (ring.slots.set ring.next x).rotate ((ring.next + 1) % window)
        = (ring.slots.set ring.next x).rotate (ring.next + 1) := by
      have hmod := List.rotate_mod (ring.slots.set ring.next x) (ring.next + 1)
      rwa [List.length_set, h.length] at hmod
    rw [hturn, rotate_set (by rw [h.length]; exact hnext), h.turned, ← List.append_assoc]
    exact (rtake_concat_of_le hpos (by simp) x).symm

/-- **The slots in use are the samples of the window**, in some order. -/
theorem Holds.perm (h : ring.Holds window samples) :
    (ring.slots.take ring.filled).Perm (samples.rtake window) := by
  by_cases hfull : window ≤ samples.length
  · -- all slots are in use, and none of the zeros is left
    have hturned := h.turned
    rw [List.rtake, List.length_append, List.length_replicate, Nat.add_sub_cancel_left,
      List.drop_append, List.drop_of_length_le (by simpa using hfull), List.nil_append,
      List.length_replicate] at hturned
    rw [h.filled, Nat.min_eq_right hfull, ← h.length, List.take_length, h.length, List.rtake,
      ← hturned]
    exact (List.rotate_perm _ _).symm
  · -- the slots were not gone round yet
    have hle : samples.length ≤ window := by omega
    have hturned := h.turned
    rw [h.next, Nat.mod_eq_of_lt (Nat.not_le.mp hfull),
      List.rotate_eq_drop_append_take (hle.trans_eq h.length.symm), List.rtake, List.length_append,
      List.length_replicate, Nat.add_sub_cancel_left,
      List.drop_append_of_le_length (by rwa [List.length_replicate])] at hturned
    obtain ⟨-, htake⟩ := List.append_inj hturned (by simp [h.length])
    rw [h.filled, Nat.min_eq_left hle, htake, List.rtake, Nat.sub_eq_zero_of_le hle, List.drop_zero]

theorem Holds.get? (h : ring.Holds window samples) (hfits : window + 1 < UInt64.size) :
    ring.get? = some (samples.foldl MovingAverage.append ({} : MovingAverage window)).get := by
  have hlength : (samples.rtake window).length = ring.filled := by
    rw [h.filled, List.rtake, List.length_drop]
    omega
  have hfilled : ring.filled ≤ ring.slots.length := by
    rw [h.filled, h.length]
    exact Nat.min_le_right _ _
  have hget : (samples.foldl MovingAverage.append ({} : MovingAverage window)).get.toNat
      = sampleSum (samples.rtake window) / ring.filled := by
    rw [MovingAverage.toNat_get, MovingAverage.recent_samples, List.length_reverse, hlength,
      sampleSum_perm (List.reverse_perm _)]
  rw [SampleRing.get?, if_pos hfilled]
  split
  · rename_i hzero
    rw [hzero, Nat.div_zero] at hget
    exact congrArg some (UInt64.toNat_inj.mp hget.symm)
  · have hword : sampleSum (samples.rtake window) / ring.filled < UInt64.size :=
      hget ▸ UInt64.toNat_lt _
    have hshort : (ring.slots.take ring.filled).length < UInt64.size := by
      rw [List.length_take_of_le hfilled]
      exact (hfilled.trans_eq h.length).trans_lt (by omega)
    rw [sum?_eq_some hshort, sampleSum_perm h.perm, Option.bind_eq_bind, Option.bind_some,
      within?_eq_some hword, ← hget]
    exact congrArg some UInt64.ofNat_toNat

theorem exists_holds (hpos : 0 < window) (hfits : window + 1 < UInt64.size)
    (samples : List UInt64) :
    ∃ ring, (empty window).appendAll? samples = some ring ∧ ring.Holds window samples := by
  induction samples using List.reverseRecOn with
  | nil => exact ⟨empty window, rfl, holds_empty window⟩
  | append_singleton samples x ih =>
    obtain ⟨ring, hring, hholds⟩ := ih
    obtain ⟨ring', happend, hholds'⟩ := hholds.append hpos hfits x
    refine ⟨ring', ?_, hholds'⟩
    rw [appendAll?, List.foldlM_append, ← appendAll?, hring]
    change (ring.append? x).bind some = some ring'
    rw [happend]
    rfl

end SampleRing

/-! ## Averages -/

namespace MovingAverage

variable {window : Nat}

/-- The average is over the last ones of some samples. -/
structure Averages (samples : List UInt64) (a : MovingAverage window) : Prop where
  /-- It counts the samples up to its window. -/
  length : a.length = min samples.length window
  /-- It is empty as long as there are none. -/
  isEmpty : a.isEmpty = samples.isEmpty
  /-- It tells the whole part of their mean. -/
  mean : a.get.toNat = sampleSum (samples.rtake window) / min samples.length window
  /-- It tells zero if there are none. -/
  zero : samples = [] → a.get = 0
  /-- The mean is at least the smallest of them. -/
  least : samples ≠ [] → ∀ x, (∀ y ∈ samples.rtake window, x ≤ y) → x ≤ a.get
  /-- The mean is at most the largest of them. -/
  greatest : ∀ x, (∀ y ∈ samples.rtake window, y ≤ x) → a.get ≤ x
  /-- What was added earlier makes no difference. -/
  forgets : ∀ others : List UInt64, others.rtake window = samples.rtake window →
    others.foldl append {} = a

theorem averages_foldl_append (hpos : 0 < window) (samples : List UInt64) :
    (samples.foldl append ({} : MovingAverage window)).Averages samples := by
  have hrecent : (samples.foldl append ({} : MovingAverage window)).recent
      = (samples.rtake window).reverse := recent_samples samples
  generalize samples.foldl append ({} : MovingAverage window) = a at hrecent
  have hmem (y : UInt64) : y ∈ a.recent ↔ y ∈ samples.rtake window := by
    rw [hrecent, List.mem_reverse]
  have hlength : a.length = min samples.length window := by
    rw [length, hrecent, List.length_reverse, List.rtake, List.length_drop]
    omega
  have hempty : a.recent = [] ↔ samples = [] := by
    rw [← List.length_eq_zero_iff, ← length, hlength, ← List.length_eq_zero_iff]
    omega
  refine ⟨hlength, ?_, ?_, fun hnone ↦ ?_, fun hsome x hx ↦ ?_, fun x hx ↦ ?_, fun others h ↦ ?_⟩
  · rw [isEmpty, Bool.eq_iff_iff, List.isEmpty_iff, List.isEmpty_iff, hempty]
  · rw [toNat_get, ← length, hlength, hrecent, sampleSum_perm (List.reverse_perm _)]
  · rw [get, length, hempty.mpr hnone, List.length_nil, Nat.div_zero]
    rfl
  · exact le_get (mt hempty.mp hsome) fun y hy ↦ hx y ((hmem y).mp hy)
  · exact get_le fun y hy ↦ hx y ((hmem y).mp hy)
  · refine congrArg mk ((recent_samples others).trans ?_)
    rw [h, hrecent]

/-- **A moving average is the mean of the last samples**, and slots that are written in turn keep it
without going out of bounds, if there are no more of them than a word can count. -/
theorem averages_last (hpos : 0 < window) (samples : List UInt64) :
    (samples.foldl append ({} : MovingAverage window)).Averages samples ∧
      (window + 1 < UInt64.size → ∃ ring : SampleRing,
        (SampleRing.empty window).appendAll? samples = some ring ∧
          ring.filled = (samples.foldl append ({} : MovingAverage window)).length ∧
          ring.get? = some (samples.foldl append ({} : MovingAverage window)).get) := by
  have haverages := averages_foldl_append hpos samples
  refine ⟨haverages, fun hfits ↦ ?_⟩
  obtain ⟨ring, hring, hholds⟩ := SampleRing.exists_holds hpos hfits samples
  exact ⟨ring, hring, hholds.filled.trans haverages.length.symm, hholds.get? hfits⟩

/-- Four samples in three slots: the last one stands in the first slot. -/
theorem averages_last_wrapped :
    let samples : List UInt64 := [3, 6, 9, 12]
    let a := samples.foldl append ({} : MovingAverage 3)
    0 < 3 ∧ 3 + 1 < UInt64.size ∧ a.get = 9 ∧ a.Averages samples ∧
      (SampleRing.empty 3).appendAll? samples = some ⟨[12, 6, 9], 1, 3⟩ ∧
      ∃ ring, (SampleRing.empty 3).appendAll? samples = some ring ∧
        ring.filled = a.length ∧ ring.get? = some a.get := by
  intro samples a
  obtain ⟨haverages, hring⟩ := @averages_last 3 (by decide) samples
  exact ⟨by decide, by decide, by decide, haverages, by decide, hring (by decide)⟩

end MovingAverage

end EffectChain
