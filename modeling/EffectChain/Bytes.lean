/-!
# Byte strings

Texel storage, shader code and uniform data are packed byte strings. Every one of them is made by
`Bytes.tabulate`, a function of the index, and read by `Bytes.byteAt`, which gives zero past the
end, so an equation between two byte strings is an equation of their sizes and one at every index
(`Bytes.ext_byteAt`). The loop that fills a byte string is seen by nobody else: `toList_tabulate`
says all about it.
-/

namespace EffectChain

abbrev Bytes := ByteArray

instance : DecidableEq Bytes := ByteArray.instDecidableEq

namespace Bytes

/-! ## Building -/

/-- Pushes `f i`, `f (i + 1)`, …, `count` bytes in all. -/
@[specialize] def pushFrom (f : Nat → UInt8) : Nat → Nat → Bytes → Bytes
  | 0, _, acc => acc
  | count + 1, i, acc => pushFrom f count (i + 1) (acc.push (f i))

/-- The byte string of size `n` whose byte at `i` is `f i`. -/
@[specialize] def tabulate (n : Nat) (f : Nat → UInt8) : Bytes :=
  pushFrom f n 0 (ByteArray.emptyWithCapacity n)

def zeros (n : Nat) : Bytes := tabulate n fun _ ↦ 0

def ofList (bytes : List UInt8) : Bytes := ⟨bytes.toArray⟩

/-! ## Reading -/

@[inline] def byteAt (b : Bytes) (i : Nat) : UInt8 := if h : i < b.size then b[i] else 0

private theorem toList_pushFrom (f : Nat → UInt8) (count i : Nat) (acc : Bytes) :
    (pushFrom f count i acc).data.toList = acc.data.toList ++ (List.range' i count).map f := by
  induction count generalizing i acc with
  | zero => simp [pushFrom]
  | succ count ih => simp [pushFrom, ih, List.range'_succ, ByteArray.data_push]

theorem toList_tabulate (n : Nat) (f : Nat → UInt8) :
    (tabulate n f).data.toList = (List.range n).map f := by
  rw [tabulate, toList_pushFrom, List.range_eq_range']
  rfl

@[simp] theorem size_tabulate (n : Nat) (f : Nat → UInt8) : (tabulate n f).size = n := by
  have h := congrArg List.length (toList_tabulate n f)
  simpa using h

theorem byteAt_eq_getD (b : Bytes) (i : Nat) : b.byteAt i = b.data.toList[i]?.getD 0 := by
  unfold Bytes.byteAt
  by_cases h : i < b.size
  · simp [h, ByteArray.getElem_eq_getElem_data]
  · simp [h]

theorem byteAt_tabulate (n : Nat) (f : Nat → UInt8) (i : Nat) :
    (tabulate n f).byteAt i = if i < n then f i else 0 := by
  rw [byteAt_eq_getD, toList_tabulate]
  by_cases h : i < n <;> simp [h]

theorem byteAt_of_size_le {b : Bytes} {i : Nat} (h : b.size ≤ i) : b.byteAt i = 0 := by
  simp [Bytes.byteAt, Nat.not_lt.mpr h]

/-- Two byte strings of one size are equal if they agree at every index. -/
theorem ext_byteAt {a b : Bytes} (size : a.size = b.size)
    (agree : ∀ i, i < a.size → a.byteAt i = b.byteAt i) : a = b := by
  apply ByteArray.ext
  apply Array.ext
  · simpa using size
  · intro i ha hb
    have h := agree i (by simpa using ha)
    have ha' : i < a.size := by simpa using ha
    have hb' : i < b.size := by simpa using hb
    simpa [Bytes.byteAt, ha', hb', ByteArray.getElem_eq_getElem_data] using h

theorem tabulate_byteAt (b : Bytes) : tabulate b.size b.byteAt = b :=
  ext_byteAt (size_tabulate _ _) fun i h ↦ by
    rw [size_tabulate] at h
    rw [byteAt_tabulate, if_pos h]

@[simp] theorem size_zeros (n : Nat) : (zeros n).size = n := size_tabulate n _

@[simp] theorem byteAt_zeros (n i : Nat) : (zeros n).byteAt i = 0 := by
  simp [zeros, byteAt_tabulate]

/-! ## Editing -/

/-- The first `n` bytes, zeros supplied if there are fewer. -/
def fit (n : Nat) (b : Bytes) : Bytes := tabulate n b.byteAt

/-- `b` with the bytes from `offset` on replaced by those of `data`; what would lie past the end of
`b` is dropped. -/
def overlay (b : Bytes) (offset : Nat) (data : Bytes) : Bytes :=
  tabulate b.size fun i ↦
    if offset ≤ i ∧ i < offset + data.size then data.byteAt (i - offset) else b.byteAt i

/-- `size` bytes that repeat `pattern` from its start. -/
def tile (size : Nat) (pattern : Bytes) : Bytes :=
  tabulate size fun i ↦ pattern.byteAt (i % pattern.size)

@[simp] theorem size_fit (n : Nat) (b : Bytes) : (fit n b).size = n := size_tabulate n _

@[simp] theorem size_overlay (b : Bytes) (offset : Nat) (data : Bytes) :
    (b.overlay offset data).size = b.size := size_tabulate _ _

@[simp] theorem size_tile (n : Nat) (pattern : Bytes) : (tile n pattern).size = n :=
  size_tabulate n _

/-! ## Words -/

/-- The two bytes of a 16-bit word, low byte first. -/
def ofWord16 (w : UInt16) : List UInt8 := [w.toUInt8, (w >>> 8).toUInt8]

/-- The four bytes of a 32-bit word, low byte first. -/
def ofWord32 (w : UInt32) : List UInt8 :=
  [w.toUInt8, (w >>> 8).toUInt8, (w >>> 16).toUInt8, (w >>> 24).toUInt8]

end Bytes

end EffectChain
