import EffectChain.Device.Descriptor
import EffectChain.Device.Handle

/-!
# The object store

All live objects of a device are kept in one list, whatever their kind: the kind determines the type
of what is stored (`ObjectKind.Content`), and a handle of a kind only ever finds an object of that
kind (`Store.get?`). One lemma per operation then serves all ten kinds. The store's view is the list
of references to what is alive (`Store.refs`).
-/

namespace EffectChain

/-! ## What is stored -/

/-- A texture: what it was made from, with its actual number of levels, and the texels of each
level. Of a multisampled texture one sample is kept. -/
structure Texture where
  /-- What it was made from. -/
  desc : TextureDesc
  /-- The texels of each level. -/
  mips : List Bytes

def Texture.base (t : Texture) : Bytes := t.mips.headD .empty

/-- A view of a texture through a format. -/
structure View where
  /-- The texture behind the view. -/
  texture : Handle .texture
  /-- The format it is read or written in. -/
  format : Format

/-- The kinds of query. -/
inductive QueryKind
  /-- A point in time. -/
  | timestamp
  /-- An interval, with the clock frequency and whether the clock was interrupted. -/
  | disjoint
  deriving DecidableEq

/-- The result of a query. -/
inductive QueryData
  /-- The clock at a point in time. -/
  | timestamp (ticks : UInt64)
  /-- The frequency of the clock, and whether it was interrupted. -/
  | disjoint (frequency : UInt64) (interrupted : Bool)
  deriving DecidableEq

/-- What a query is doing. -/
inductive QueryState
  | idle
  | recording
  /-- It has a result, which can be read from a frame on. -/
  | pending (readyFrame : UInt64) (data : QueryData)
  deriving DecidableEq

/-- A query. -/
structure Query where
  /-- Its kind. -/
  kind : QueryKind
  /-- What it is doing. -/
  state : QueryState := .idle
  deriving DecidableEq

/-- What is stored for an object of a kind. -/
abbrev ObjectKind.Content : ObjectKind → Type
  | .texture => Texture
  | .shaderView => View
  | .renderTargetView => View
  | .depthStencilView => Handle .texture
  | .sampler => SamplerDesc
  | .blendState => BlendDesc
  | .depthStencilState => DepthStencilDesc
  | .shader => ShaderStage
  | .buffer => Bytes
  | .query => Query

/-! ## The store -/

/-- A live object. -/
structure StoredObject where
  /-- Its kind. -/
  kind : ObjectKind
  /-- Its number. -/
  id : Nat
  /-- What is stored for it. -/
  content : kind.Content

def StoredObject.ref (o : StoredObject) : ObjectRef := ⟨o.kind, o.id⟩

/-- The content of the object, if it is the one that a handle refers to. -/
def StoredObject.contentFor? (o : StoredObject) {kind : ObjectKind} (h : Handle kind) :
    Option kind.Content :=
  if k : o.kind = kind then if o.id = h.id then some (k ▸ o.content) else none else none

/-- The object with its content changed, if it is the one that a handle refers to. -/
def StoredObject.modifyFor (o : StoredObject) {kind : ObjectKind} (h : Handle kind)
    (f : kind.Content → kind.Content) : StoredObject :=
  if k : o.kind = kind then
    if o.id = h.id then ⟨kind, o.id, f (k ▸ o.content)⟩ else o
  else o

/-- The live objects of a device, last created first. -/
abbrev Store : Type := List StoredObject

namespace Store

def refs (s : Store) : List ObjectRef := s.map (·.ref)

def get? (s : Store) {kind : ObjectKind} (h : Handle kind) : Option kind.Content :=
  s.findSome? fun o ↦ o.contentFor? h

def insert (s : Store) {kind : ObjectKind} (h : Handle kind) (content : kind.Content) : Store :=
  ⟨kind, h.id, content⟩ :: s

/-- Removes the objects that are referred to, as far as they are there. -/
def erase (s : Store) (refs : List ObjectRef) : Store := s.filter fun o ↦ o.ref ∉ refs

def modify (s : Store) {kind : ObjectKind} (h : Handle kind) (f : kind.Content → kind.Content) :
    Store :=
  s.map fun o ↦ o.modifyFor h f

/-- How many objects of a kind are alive. -/
def count (s : Store) (kind : ObjectKind) : Nat := s.countP fun o ↦ o.kind = kind

/-! ## What each operation does to the view -/

@[simp] theorem refs_insert (s : Store) {kind : ObjectKind} (h : Handle kind)
    (content : kind.Content) : (s.insert h content).refs = h.ref :: s.refs := rfl

theorem refs_erase (s : Store) (gone : List ObjectRef) :
    (s.erase gone).refs = s.refs.filter (· ∉ gone) := by
  simp [erase, refs, List.filter_map, Function.comp_def]

theorem ref_modifyFor (o : StoredObject) {kind : ObjectKind} (h : Handle kind)
    (f : kind.Content → kind.Content) : (o.modifyFor h f).ref = o.ref := by
  unfold StoredObject.modifyFor
  split
  · rename_i k
    subst k
    split <;> rfl
  · rfl

@[simp] theorem refs_modify (s : Store) {kind : ObjectKind} (h : Handle kind)
    (f : kind.Content → kind.Content) : (s.modify h f).refs = s.refs := by
  simp [modify, refs, Function.comp_def, ref_modifyFor]

theorem contentFor?_isSome_iff (o : StoredObject) {kind : ObjectKind} (h : Handle kind) :
    (o.contentFor? h).isSome ↔ o.ref = h.ref := by
  unfold StoredObject.contentFor? StoredObject.ref Handle.ref
  by_cases k : o.kind = kind <;> by_cases i : o.id = h.id <;> simp [k, i]

theorem get?_isSome_iff (s : Store) {kind : ObjectKind} (h : Handle kind) :
    (s.get? h).isSome ↔ h.ref ∈ s.refs := by
  simp only [get?, List.findSome?_isSome_iff, refs, List.mem_map, contentFor?_isSome_iff]

theorem get?_insert_self (s : Store) {kind : ObjectKind} (h : Handle kind)
    (content : kind.Content) : (s.insert h content).get? h = some content := by
  simp [get?, insert, StoredObject.contentFor?]

theorem get?_insert_of_ne (s : Store) {kind kind' : ObjectKind} (h : Handle kind)
    (content : kind.Content) (h' : Handle kind') (ne : h.ref ≠ h'.ref) :
    (s.insert h content).get? h' = s.get? h' := by
  have none : (⟨kind, h.id, content⟩ : StoredObject).contentFor? h' = none := by
    rw [← Option.not_isSome_iff_eq_none, contentFor?_isSome_iff]
    exact ne
  simp [get?, insert, none]

theorem get?_eq_none_iff (s : Store) {kind : ObjectKind} (h : Handle kind) :
    s.get? h = none ↔ h.ref ∉ s.refs := by
  rw [← get?_isSome_iff, Option.not_isSome_iff_eq_none]

theorem get?_erase (s : Store) (gone : List ObjectRef) {kind : ObjectKind} (h : Handle kind) :
    (s.erase gone).get? h = if h.ref ∈ gone then none else s.get? h := by
  by_cases hmem : h.ref ∈ gone
  · rw [if_pos hmem, get?_eq_none_iff, refs_erase]
    simp [hmem]
  · rw [if_neg hmem]
    induction s with
    | nil => rfl
    | cons o s ih =>
      have hsome := contentFor?_isSome_iff o h
      unfold erase get? at ih ⊢
      by_cases ho : o.ref ∈ gone
      · have hnone : o.contentFor? h = none := by
          rw [← Option.not_isSome_iff_eq_none, hsome]
          exact fun heq ↦ hmem (heq ▸ ho)
        rw [List.filter_cons_of_neg (by simpa using ho), List.findSome?_cons, hnone]
        exact ih
      · rw [List.filter_cons_of_pos (by simpa using ho), List.findSome?_cons, List.findSome?_cons,
          ih]

theorem contentFor?_modifyFor_self (o : StoredObject) {kind : ObjectKind} (h : Handle kind)
    (f : kind.Content → kind.Content) :
    (o.modifyFor h f).contentFor? h = (o.contentFor? h).map f := by
  obtain ⟨k, i, c⟩ := o
  unfold StoredObject.modifyFor StoredObject.contentFor?
  by_cases hk : k = kind
  · subst hk
    by_cases hi : i = h.id
    · rw [dif_pos rfl, if_pos hi]
      simp [hi]
    · simp [hi]
  · simp [hk]

theorem contentFor?_modifyFor_of_ne (o : StoredObject) {kind kind' : ObjectKind} (h : Handle kind)
    (f : kind.Content → kind.Content) (h' : Handle kind') (ne : h.ref ≠ h'.ref) :
    (o.modifyFor h f).contentFor? h' = o.contentFor? h' := by
  by_cases ho : o.ref = h.ref
  · have hnone : ∀ p : StoredObject, p.ref = h.ref → p.contentFor? h' = none := by
      intro p hp
      rw [← Option.not_isSome_iff_eq_none, contentFor?_isSome_iff, hp]
      exact ne
    rw [hnone _ ((ref_modifyFor o h f).trans ho), hnone o ho]
  · obtain ⟨k, i, c⟩ := o
    unfold StoredObject.modifyFor
    by_cases hk : k = kind
    · subst hk
      have hi : i ≠ h.id := by
        rintro rfl
        exact ho rfl
      simp [hi]
    · simp [hk]

theorem get?_modify_self (s : Store) {kind : ObjectKind} (h : Handle kind)
    (f : kind.Content → kind.Content) : (s.modify h f).get? h = (s.get? h).map f := by
  induction s with
  | nil => rfl
  | cons o s ih =>
    unfold modify get? at ih ⊢
    rw [List.map_cons, List.findSome?_cons, List.findSome?_cons, contentFor?_modifyFor_self, ih]
    cases o.contentFor? h <;> rfl

theorem get?_modify_of_ne (s : Store) {kind kind' : ObjectKind} (h : Handle kind)
    (f : kind.Content → kind.Content) (h' : Handle kind') (ne : h.ref ≠ h'.ref) :
    (s.modify h f).get? h' = s.get? h' := by
  induction s with
  | nil => rfl
  | cons o s ih =>
    unfold modify get? at ih ⊢
    rw [List.map_cons, List.findSome?_cons, List.findSome?_cons,
      contentFor?_modifyFor_of_ne o h f h' ne, ih]

end Store

end EffectChain
