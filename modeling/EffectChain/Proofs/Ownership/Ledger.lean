import EffectChain.Proofs.Fallible
import Mathlib.Algebra.Order.Group.Multiset
import Mathlib.Tactic.Abel

/-!
# Accounting for device objects

A device *owns* a multiset of references if its live objects are exactly these, each once, and all
have numbers that it gave out (`Device.Owns`). Numbers are given out in order, so a creation adds
one reference, and a release takes away what it names.

An action that creates objects is described by what it does to that multiset (`Accounts`): what it
holds when it starts, what it holds in place of that when it succeeds, and what it leaves behind
when it fails. Everything else that is alive is not touched, which is why the rule for `keeping`,
the combinator that releases on failure, can be stated once for all uses. States that record objects
of their own, such as the assets with their texture table and caches, count these as recorded
(`Ledger`).
-/

namespace EffectChain

namespace Device

/-! ## What a device owns -/

/-- The live objects are exactly the referred ones, each once, and have numbers that were given
out. -/
structure Owns (d : Device) (refs : Multiset ObjectRef) : Prop where
  /-- The live objects are the referred ones. -/
  live : (d.live : Multiset ObjectRef) = refs
  /-- Each is there once. -/
  nodup : refs.Nodup
  /-- Their numbers were given out. -/
  given : ∀ r ∈ refs, r.id ≤ d.lastId

theorem Owns.mem_live {d : Device} {refs : Multiset ObjectRef} (h : d.Owns refs) {r : ObjectRef} :
    r ∈ d.live ↔ r ∈ refs := by
  rw [← h.live, Multiset.mem_coe]

/-- Commands, refusals and the passing of frames do not change what is owned. -/
theorem Owns.congr {d d' : Device} {refs : Multiset ObjectRef} (h : d.Owns refs)
    (live : d'.live = d.live) (lastId : d'.lastId = d.lastId) : d'.Owns refs where
  live := by rw [live, h.live]
  nodup := h.nodup
  given := by simpa only [lastId] using h.given

theorem Owns.release_filter {d : Device} {refs : Multiset ObjectRef} (h : d.Owns refs)
    (gone : List ObjectRef) : (d.release gone).Owns (refs.filter (· ∉ gone)) where
  live := by
    rw [← h.live, Multiset.filter_coe]
    exact congrArg _ (Store.refs_erase d.objects gone)
  nodup := h.nodup.filter _
  given r hr := h.given r (Multiset.mem_filter.mp hr).1

theorem Owns.release {d : Device} {gone : List ObjectRef} {rest : Multiset ObjectRef}
    (h : d.Owns (↑gone + rest)) : (d.release gone).Owns rest := by
  have hdisj := (Multiset.nodup_add.mp h.nodup).2.2
  have hgone : Multiset.filter (· ∉ gone) (↑gone : Multiset ObjectRef) = 0 :=
    Multiset.filter_eq_nil.mpr fun r hr ↦ by simpa using hr
  have hrest : Multiset.filter (· ∉ gone) rest = rest :=
    Multiset.filter_eq_self.mpr fun r hr hmem ↦
      Multiset.disjoint_left.mp hdisj (Multiset.mem_coe.mpr hmem) hr
  have hreleased := h.release_filter gone
  rwa [Multiset.filter_add, hgone, hrest, zero_add] at hreleased

theorem Owns.issue {d : Device} {refs : Multiset ObjectRef} (h : d.Owns refs) (c : Command) :
    (d.issue c).Owns refs :=
  h.congr (live_issue d c) (lastId_apply d c)

theorem Owns.issueAll {d : Device} {refs : Multiset ObjectRef} (h : d.Owns refs)
    (cs : List Command) : (d.issueAll cs).Owns refs := by
  induction cs generalizing d with
  | nil => exact h
  | cons c cs ih => exact ih (h.issue c)

/-! ## Creation -/

theorem Owns.create_ok {kind : ObjectKind} {content : Device → Except DeviceError kind.Content}
    {d d' : Device} {h : Handle kind} {refs : Multiset ObjectRef} (hown : d.Owns refs)
    (run : create kind content d = (.ok h, d')) : d'.Owns ({h.ref} + refs) := by
  obtain ⟨refusals, c, -, rfl, rfl⟩ := create_eq_ok run
  have hnew : (⟨d.lastId + 1⟩ : Handle kind).ref ∉ refs := fun hmem ↦ by
    exact absurd (hown.given _ hmem) (Nat.not_succ_le_self d.lastId)
  have hdisj : Disjoint {(⟨d.lastId + 1⟩ : Handle kind).ref} refs :=
    Multiset.disjoint_left.mpr fun {r} hr ↦ by
      rw [Multiset.mem_singleton.mp hr]
      exact hnew
  exact {
    live := by
      change (↑((⟨d.lastId + 1⟩ : Handle kind).ref :: d.live) : Multiset ObjectRef) = _
      rw [← Multiset.cons_coe, hown.live, Multiset.singleton_add]
    nodup := Multiset.nodup_add.mpr ⟨Multiset.nodup_singleton _, hown.nodup, hdisj⟩
    given := fun r hr ↦ by
      rcases Multiset.mem_add.mp hr with hr | hr
      · rw [Multiset.mem_singleton.mp hr]
        exact le_refl _
      · exact (hown.given r hr).trans (Nat.le_succ _) }

theorem Owns.create_error {kind : ObjectKind} {content : Device → Except DeviceError kind.Content}
    {d d' : Device} {e : DeviceError} {refs : Multiset ObjectRef} (hown : d.Owns refs)
    (run : create kind content d = (.error e, d')) : d'.Owns refs := by
  obtain rfl := create_eq_error run
  exact hown.congr rfl rfl

end Device

/-! ## Ledgers -/

/-- States whose objects can be accounted for: `Balances s refs` says that what is alive is what the
state records by itself, and besides exactly `refs`. -/
class Ledger (σ : Type) extends HasDevice σ where
  /-- What is alive besides what the state records is what is referred to. -/
  Balances : σ → Multiset ObjectRef → Prop
  /-- Nothing is there twice. -/
  nodup : ∀ {s refs}, Balances s refs → refs.Nodup
  /-- What is released is taken off. -/
  release : ∀ {s gone rest}, Balances s (↑gone + rest) →
    Balances (HasDevice.mapDevice (fun d ↦ d.release gone) s) rest

open Ledger (Balances)

/-- A device records nothing by itself. -/
instance : Ledger Device where
  Balances := Device.Owns
  nodup h := h.nodup
  release h := h.release

/-- The action starts with `before`, ends with `after` of its value if it succeeds and with `left`
if it fails, and touches nothing else. -/
def Accounts {σ ε α : Type} [Ledger σ] (before : Multiset ObjectRef)
    (m : ExceptT ε (StateM σ) α) (after : α → Multiset ObjectRef) (left : Multiset ObjectRef) :
    Prop :=
  ∀ s others, Balances s (before + others) →
    match m s with
    | (.ok a, s) => Balances s (after a + others)
    | (.error _, s) => Balances s (left + others)

namespace Accounts

variable {σ ε α β : Type} [Ledger σ] {before left : Multiset ObjectRef}
  {m : ExceptT ε (StateM σ) α} {after : α → Multiset ObjectRef}

theorem ok (h : Accounts before m after left) {s s' : σ} {a : α} {others : Multiset ObjectRef}
    (hs : Balances s (before + others)) (run : m s = (.ok a, s')) :
    Balances s' (after a + others) := by
  have hm := h s others hs
  rwa [run] at hm

theorem error (h : Accounts before m after left) {s s' : σ} {e : ε}
    {others : Multiset ObjectRef} (hs : Balances s (before + others))
    (run : m s = (.error e, s')) : Balances s' (left + others) := by
  have hm := h s others hs
  rwa [run] at hm

/-- An action that leaves everything as it is accounts for nothing. -/
theorem of_balances (h : ∀ s others, Balances s others → Balances (m s).2 others) :
    Accounts 0 m (fun _ ↦ 0) 0 := by
  intro s others hs
  rw [zero_add] at hs
  have hm := h s others hs
  rcases hr : m s with ⟨e | a, s'⟩ <;> rw [hr] at hm <;> rwa [← zero_add others] at hm

protected theorem pure {a : α} (h : after a = before) :
    Accounts before (pure a : ExceptT ε (StateM σ) α) after left := by
  intro s others hs
  rw [← h] at hs
  exact hs

protected theorem throw {e : ε} :
    Accounts left (throw e : ExceptT ε (StateM σ) α) after left := fun _ _ hs ↦ hs

protected theorem get : Accounts before (get : ExceptT ε (StateM σ) σ) (fun _ ↦ before) left :=
  fun _ _ hs ↦ hs

protected theorem modify {f : σ → σ} (h : ∀ s refs, Balances s refs → Balances (f s) refs) :
    Accounts before (modify f : ExceptT ε (StateM σ) PUnit) (fun _ ↦ before) left :=
  fun s others hs ↦ h s (before + others) hs

protected theorem bind {k : α → ExceptT ε (StateM σ) β} {after' : β → Multiset ObjectRef}
    (hm : Accounts before m after left) (hk : ∀ a, Accounts (after a) (k a) after' left) :
    Accounts before (m >>= k) after' left := by
  intro s others hs
  have h := hm s others hs
  rw [run_bind]
  rcases hr : m s with ⟨e | a, s₁⟩ <;> rw [hr] at h
  · exact h
  · exact hk a s₁ others h

theorem frame (h : Accounts before m after left) (extra : Multiset ObjectRef) :
    Accounts (before + extra) m (fun a ↦ after a + extra) (left + extra) := by
  intro s others hs
  rw [add_assoc] at hs
  have hm := h s (extra + others) hs
  rcases hr : m s with ⟨e | a, s₁⟩ <;> rw [hr] at hm <;> simpa only [add_assoc] using hm

/-- What is kept for the time of an action is released if the action fails. -/
protected theorem keeping {refs : List ObjectRef} (h : Accounts before m after (↑refs + left)) :
    Accounts before (keeping refs m) after left := by
  intro s others hs
  have hm := h s others hs
  rw [run_keeping]
  rcases hr : m s with ⟨e | a, s₁⟩ <;> rw [hr] at hm
  · rw [add_assoc] at hm
    exact Ledger.release hm
  · exact hm

theorem add_bind {k : α → ExceptT ε (StateM σ) β} {after' : β → Multiset ObjectRef}
    (hm : Accounts 0 m after 0) (hk : ∀ a, Accounts (after a + left) (k a) after' left) :
    Accounts left (m >>= k) after' left := by
  have hframe := hm.frame left
  rw [zero_add] at hframe
  exact hframe.bind hk

theorem acquire {refs : α → List ObjectRef} {k : α → ExceptT ε (StateM σ) β}
    {after' : β → Multiset ObjectRef} (hm : Accounts 0 m (fun a ↦ ↑(refs a)) 0)
    (hk : ∀ a, Accounts (↑(refs a) + left) (k a) after' (↑(refs a) + left)) :
    Accounts left (m >>= fun a ↦ EffectChain.keeping (refs a) (k a)) after' left :=
  hm.add_bind fun a ↦ (hk a).keeping

theorem of_nodup (h : before.Nodup → Accounts before m after left) :
    Accounts before m after left := fun s others hs ↦
  h (Multiset.nodup_add.mp (Ledger.nodup hs)).1 s others hs

theorem congr {before' left' : Multiset ObjectRef} {after' : α → Multiset ObjectRef}
    (h : Accounts before m after left) (hbefore : before = before')
    (hafter : ∀ a, after a = after' a) (hleft : left = left') :
    Accounts before' m after' left' := by
  rwa [← hbefore, ← funext hafter, ← hleft]

end Accounts

/-! ## The device's own creations -/

theorem accounts_create {kind : ObjectKind} {content : Device → Except DeviceError kind.Content} :
    Accounts 0 (Device.create kind content) (fun h ↦ ↑[h.ref]) 0 := by
  intro d others hd
  rw [zero_add] at hd
  rcases hr : Device.create kind content d with ⟨e | h, d'⟩
  · rw [zero_add]
    exact Device.Owns.create_error hd hr
  · exact Device.Owns.create_ok hd hr

theorem Accounts.named {ε α : Type} {before left : Multiset ObjectRef} {m : DeviceM α}
    {after : α → Multiset ObjectRef} {wrap : DeviceError → ε}
    (h : Accounts before m after left) : Accounts before (m.named wrap) after left := by
  intro d others hd
  have hm := h d others hd
  rw [run_named]
  rcases hr : m d with ⟨e | a, d'⟩ <;> rw [hr] at hm <;> exact hm

end EffectChain
