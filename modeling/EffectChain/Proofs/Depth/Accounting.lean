import EffectChain.Proofs.Depth.Histories
import Mathlib.Algebra.GroupWithZero.Nat
import Mathlib.Data.List.Forall2

/-!
# What a tracker counts

A tracker keeps four counters of a candidate, and two of the frame, that stop at the largest word.
Each of them is the count of certain draws of the history, cut once at the end, however often it
stopped on the way (`DepthHistory.accounts_tracker`). So the counters of a candidate agree with one
another even after they stopped: its draws are those before each of its clears and those since the
last one (`DepthHistory.drawsInto_eq`), and cutting each part first makes no difference to the
whole.
-/

namespace EffectChain

/-! ## Counts that were cut -/

/-- The statistics are those of draws, where each count stops at the largest word. -/
structure DrawStats.Counts (s : DrawStats) (draws : List UInt32) : Prop where
  vertices : s.vertices.toNat = min (draws.map UInt32.toNat).sum maxWord.toNat
  drawCalls : s.drawCalls.toNat = min draws.length maxWord.toNat

theorem DrawStats.counts_nil : ({} : DrawStats).Counts [] := ⟨rfl, rfl⟩

theorem DrawStats.Counts.record {s : DrawStats} {draws : List UInt32} (h : s.Counts draws)
    (vertices : UInt32) : (s.record vertices).Counts (vertices :: draws) where
  vertices := by
    rw [DrawStats.record, toNat_satAdd, h.vertices, List.map_cons, List.sum_cons, toNat_maxWord]
    omega
  drawCalls := by
    rw [DrawStats.record, toNat_satAdd, h.drawCalls, List.length_cons, toNat_maxWord]
    have hone : (1 : UInt32).toNat = 1 := rfl
    omega

/-- Cutting the parts of a sum first makes no difference to the whole, once that is cut. -/
theorem min_sum_of_forall₂ {α β : Type} {f : α → Nat} {g : β → Nat} {l : List α} {l' : List β}
    {m cut rest : Nat} (hparts : List.Forall₂ (fun x y ↦ f x = min (g y) m) l l')
    (hrest : cut = min rest m) :
    min ((l.map f).sum + cut) m = min ((l'.map g).sum + rest) m := by
  induction hparts with
  | nil => simp [hrest]
  | cons hpart _ ih =>
    rw [List.map_cons, List.map_cons, List.sum_cons, List.sum_cons, hpart]
    omega

/-! ## Draws by clears -/

namespace DepthHistory

variable {h : Handle .texture}

/-- A depth buffer that was not bound in the frame was not used in it. -/
theorem unused_of_description? {past : DepthHistory} (hnone : description? h past = none) :
    bound? past ≠ some h ∧ drawsInto h past = [] ∧ drawsSinceClear h past = [] ∧
      clearings h past = [] := by
  induction past with
  | nil => exact ⟨nofun, rfl, rfl, rfl⟩
  | cons event past ih =>
    cases event with
    | bind k desc =>
      obtain ⟨hpast, hk⟩ := Option.or_eq_none_iff.mp hnone
      obtain ⟨-, hunused⟩ := ih hpast
      refine ⟨fun hbound ↦ ?_, hunused⟩
      rw [if_pos (Option.some.inj hbound)] at hk
      cases hk
    | unbind => exact ⟨nofun, (ih hnone).2⟩
    | draw vertices =>
      obtain ⟨hbound, hinto, hsince, hclears⟩ := ih hnone
      refine ⟨hbound, ?_, ?_, hclears⟩
      · rw [drawsInto, if_neg hbound, hinto]
      · rw [drawsSinceClear, if_neg hbound, hsince]
    | clear k snapshot =>
      obtain ⟨hbound, hinto, hsince, hclears⟩ := ih hnone
      have hnone' : description? h past = none := hnone
      refine ⟨hbound, hinto, ?_, ?_⟩
      · rw [drawsSinceClear, hsince, ite_self]
      · rw [clearings, hnone', if_neg (fun hk ↦ nomatch hk.2), hclears]
    | reset => exact ⟨nofun, rfl, rfl, rfl⟩

/-- **The draws into a depth buffer** are those before each of its clears and those since. -/
theorem drawsInto_eq (h : Handle .texture) (past : DepthHistory) :
    drawsInto h past
      = drawsSinceClear h past ++ (clearings h past).reverse.flatMap Clearing.draws := by
  induction past with
  | nil => rfl
  | cons event past ih =>
    cases event with
    | bind | unbind => exact ih
    | draw vertices =>
      rw [drawsInto, drawsSinceClear, ih]
      split <;> rfl
    | clear k snapshot =>
      rw [drawsInto, drawsSinceClear, clearings, ih]
      by_cases hk : k = h
      · by_cases hbound : (description? h past).isSome
        · simp [hk, hbound]
        · have hnone := Option.not_isSome_iff_eq_none.mp hbound
          obtain ⟨-, -, hsince, hclears⟩ := unused_of_description? hnone
          simp [hnone, hsince, hclears]
      · simp [hk]
    | reset => rfl

/-- Whatever is added up over the draws can be added up by clears. -/
theorem sum_drawsInto (h : Handle .texture) (past : DepthHistory) (f : UInt32 → Nat) :
    ((drawsInto h past).map f).sum
      = ((clearings h past).map fun clearing ↦ (clearing.draws.map f).sum).sum
        + ((drawsSinceClear h past).map f).sum := by
  rw [drawsInto_eq, List.map_append, List.sum_append, List.map_flatMap, Nat.add_comm]
  congr 1
  induction clearings h past with
  | nil => rfl
  | cons clearing rest ih =>
    rw [List.reverse_cons, List.flatMap_append, List.sum_append, ih, List.flatMap_singleton,
      List.map_cons, List.sum_cons, Nat.add_comm]

end DepthHistory

open DepthHistory (description? drawsInto drawsSinceClear clearings)

/-! ## Candidates -/

/-- The record of a clear tells what a history does. -/
structure ClearRecord.Tells (r : ClearRecord) (clearing : Clearing) : Prop where
  stats : r.stats.Counts clearing.draws
  snapshot : r.snapshot = clearing.snapshot

namespace DepthCandidate

def Fits (c : DepthCandidate) (desc : TextureDesc) : Prop :=
  c.width = desc.width ∧ c.height = desc.height ∧ c.sampleCount = desc.sampleCount ∧
    c.format = desc.format

/-- The candidate tells what a depth buffer was used for in a history. -/
structure Accounts (c : DepthCandidate) (h : Handle .texture) (past : DepthHistory) : Prop where
  /-- It is as the depth buffer was described when it was first bound. -/
  fits : ∃ desc, description? h past = some desc ∧ c.Fits desc
  /-- It counts what was drawn while the depth buffer was bound. -/
  total : c.total.Counts (drawsInto h past)
  /-- It has a record of every clear since then, in order. -/
  clears : List.Forall₂ ClearRecord.Tells c.clears (clearings h past)
  /-- It counts what was drawn since the last clear. -/
  current : c.current.Counts (drawsSinceClear h past)

/-- The counts before each clear and since the last one add up to those in all. -/
structure Balanced (c : DepthCandidate) : Prop where
  vertices : c.total.vertices.toNat = min
    ((c.clears.map fun r ↦ r.stats.vertices.toNat).sum + c.current.vertices.toNat) maxWord.toNat
  drawCalls : c.total.drawCalls.toNat = min
    ((c.clears.map fun r ↦ r.stats.drawCalls.toNat).sum + c.current.drawCalls.toNat) maxWord.toNat

variable {c : DepthCandidate} {h : Handle .texture} {past : DepthHistory}

theorem accounts_ofDesc {desc : TextureDesc} (hnone : description? h past = none) :
    (ofDesc desc).Accounts h (.bind h desc :: past) := by
  obtain ⟨-, hinto, hsince, hclears⟩ := DepthHistory.unused_of_description? hnone
  refine ⟨⟨desc, ?_, rfl, rfl, rfl, rfl⟩, ?_, ?_, ?_⟩
  · rw [description?, hnone, if_pos rfl]
    rfl
  · rw [drawsInto, hinto]
    exact DrawStats.counts_nil
  · rw [clearings, hclears]
    exact List.Forall₂.nil
  · rw [drawsSinceClear, hsince]
    exact DrawStats.counts_nil

namespace Accounts

theorem bind (hc : c.Accounts h past) (k : Handle .texture) (desc : TextureDesc) :
    c.Accounts h (.bind k desc :: past) := by
  obtain ⟨first, hfirst, hfits⟩ := hc.fits
  refine ⟨⟨first, ?_, hfits⟩, hc.total, hc.clears, hc.current⟩
  rw [description?, hfirst]
  rfl

theorem draw (hc : c.Accounts h past) (hbound : DepthHistory.bound? past = some h)
    (vertices : UInt32) : (c.draw vertices).Accounts h (.draw vertices :: past) := by
  refine ⟨hc.fits, ?_, hc.clears, ?_⟩
  · rw [drawsInto, if_pos hbound]
    exact hc.total.record vertices
  · rw [drawsSinceClear, if_pos hbound]
    exact hc.current.record vertices

theorem draw_elsewhere (hc : c.Accounts h past) (hbound : DepthHistory.bound? past ≠ some h)
    (vertices : UInt32) : c.Accounts h (.draw vertices :: past) := by
  refine ⟨hc.fits, ?_, hc.clears, ?_⟩
  · rw [drawsInto, if_neg hbound]
    exact hc.total
  · rw [drawsSinceClear, if_neg hbound]
    exact hc.current

theorem clear (hc : c.Accounts h past) (snapshot : Option (Handle .texture)) :
    (c.clear snapshot).Accounts h (.clear h snapshot :: past) := by
  obtain ⟨first, hfirst, hfits⟩ := hc.fits
  refine ⟨⟨first, hfirst, hfits⟩, hc.total, ?_, ?_⟩
  · rw [clearings, if_pos ⟨rfl, Option.isSome_of_eq_some hfirst⟩]
    exact List.rel_append hc.clears (List.Forall₂.cons ⟨hc.current, rfl⟩ List.Forall₂.nil)
  · rw [drawsSinceClear, if_pos rfl]
    exact DrawStats.counts_nil

theorem clear_elsewhere (hc : c.Accounts h past) {k : Handle .texture} (hk : k ≠ h)
    (snapshot : Option (Handle .texture)) : c.Accounts h (.clear k snapshot :: past) := by
  refine ⟨hc.fits, hc.total, ?_, ?_⟩
  · rw [clearings, if_neg fun h ↦ hk h.1]
    exact hc.clears
  · rw [drawsSinceClear, if_neg hk]
    exact hc.current

theorem balanced (hc : c.Accounts h past) : c.Balanced where
  vertices := by
    rw [hc.total.vertices, DepthHistory.sum_drawsInto]
    exact (min_sum_of_forall₂ (hc.clears.imp fun r clearing hr ↦ hr.stats.vertices)
      hc.current.vertices).symm
  drawCalls := by
    have hlength (draws : List UInt32) : draws.length = (draws.map fun _ ↦ 1).sum := by simp
    rw [hc.total.drawCalls, hlength, DepthHistory.sum_drawsInto]
    refine (min_sum_of_forall₂ (hc.clears.imp fun r clearing hr ↦ ?_) ?_).symm
    · rw [← hlength]
      exact hr.stats.drawCalls
    · rw [← hlength]
      exact hc.current.drawCalls

end Accounts

end DepthCandidate

/-! ## Trackers -/

/-- The tracker tells what an application did with its depth buffers. -/
structure DepthTracker.Accounts (t : DepthTracker) (past : DepthHistory) : Prop where
  /-- It knows which depth buffer is bound. -/
  bound : t.bound = DepthHistory.bound? past
  /-- The depth buffer that is bound is a candidate, as it was described when it was first bound. -/
  tracked : ∀ h, t.bound = some h → ∃ c desc, t.candidate? h = some c ∧
    description? h past = some desc ∧ c.Fits desc
  /-- It counts the draws of the frame. -/
  total : t.total.Counts (DepthHistory.draws past)
  /-- What was bound in the frame is a candidate, and nothing else is. -/
  isSome_candidate? : ∀ h, (t.candidate? h).isSome = (description? h past).isSome
  /-- A candidate tells what its depth buffer was used for. -/
  candidates : ∀ h c, t.candidate? h = some c → c.Accounts h past ∧ c.Balanced

namespace DepthHistory

open DepthTracker (candidate?_bind candidate?_draw candidate?_clear)

/-- What is known of a depth buffer that was not used, and of one that was. -/
theorem candidate?_tracker (past : DepthHistory) (h : Handle .texture) :
    (tracker past).candidate? h = none ∧ description? h past = none ∨
      ∃ c, (tracker past).candidate? h = some c ∧ c.Accounts h past := by
  induction past with
  | nil => exact Or.inl ⟨rfl, rfl⟩
  | cons event past ih =>
    cases event with
    | bind k desc =>
      have hcandidate : (tracker (.bind k desc :: past)).candidate? h = _ :=
        candidate?_bind (ordered_tracker past) k desc h
      rw [hcandidate]
      by_cases hk : h = k
      · subst hk
        rw [if_pos rfl]
        -- it is entered with the first bind, and found there by every later one
        rcases ih with ⟨hnone, hunused⟩ | ⟨c, hc, haccounts⟩
        · rw [hnone]
          exact Or.inr ⟨_, rfl, DepthCandidate.accounts_ofDesc hunused⟩
        · rw [hc]
          exact Or.inr ⟨c, rfl, haccounts.bind h desc⟩
      · rw [if_neg hk]
        refine ih.imp (fun ⟨hnone, hunused⟩ ↦ ⟨hnone, ?_⟩)
          fun ⟨c, hc, haccounts⟩ ↦ ⟨c, hc, haccounts.bind k desc⟩
        rw [description?, hunused, if_neg (Ne.symm hk)]
        rfl
    | unbind =>
      exact ih.imp id fun ⟨c, hc, haccounts⟩ ↦ ⟨c, hc, haccounts.fits, haccounts.total,
        haccounts.clears, haccounts.current⟩
    | draw vertices =>
      have hcandidate : (tracker (.draw vertices :: past)).candidate? h = _ :=
        candidate?_draw (tracker past) vertices h
      rw [hcandidate, bound_tracker]
      by_cases hbound : bound? past = some h
      · rw [if_pos hbound]
        refine ih.imp (fun ⟨hnone, hunused⟩ ↦ ?_) fun ⟨c, hc, haccounts⟩ ↦ ?_
        · -- what is bound was entered when it was bound
          exact absurd hbound (unused_of_description? hunused).1
        · rw [hc]
          exact ⟨_, rfl, haccounts.draw hbound vertices⟩
      · rw [if_neg hbound]
        exact ih.imp id fun ⟨c, hc, haccounts⟩ ↦
          ⟨c, hc, haccounts.draw_elsewhere hbound vertices⟩
    -- a clear ahead of the first bind is not recorded
    | clear k snapshot =>
      have hcandidate : (tracker (.clear k snapshot :: past)).candidate? h = _ :=
        candidate?_clear (tracker past) k snapshot h
      rw [hcandidate]
      by_cases hk : h = k
      · subst hk
        rw [if_pos rfl]
        refine ih.imp (fun ⟨hnone, hunused⟩ ↦ ⟨by rw [hnone]; rfl, hunused⟩)
          fun ⟨c, hc, haccounts⟩ ↦ ⟨c.clear snapshot, by rw [hc]; rfl, haccounts.clear snapshot⟩
      · rw [if_neg hk]
        exact ih.imp id fun ⟨c, hc, haccounts⟩ ↦
          ⟨c, hc, haccounts.clear_elsewhere (Ne.symm hk) snapshot⟩
    | reset => exact Or.inl ⟨rfl, rfl⟩

theorem accounts_of_candidate? {past : DepthHistory} {h : Handle .texture} {c : DepthCandidate}
    (hc : (tracker past).candidate? h = some c) : c.Accounts h past := by
  rcases candidate?_tracker past h with ⟨hnone, -⟩ | ⟨c', hc', haccounts⟩
  · cases hnone.symm.trans hc
  · cases hc.symm.trans hc'
    exact haccounts

theorem counts_tracker (past : DepthHistory) : (tracker past).total.Counts (draws past) := by
  induction past with
  | nil => exact DrawStats.counts_nil
  | cons event past ih =>
    cases event with
    | draw vertices =>
      have htotal : (tracker (.draw vertices :: past)).total = _ :=
        DepthTracker.total_draw (tracker past) vertices
      rw [htotal]
      exact ih.record vertices
    | reset => exact DrawStats.counts_nil
    | _ => exact ih

/-- **A tracker tells exactly what was done**: which depth buffer is bound, how each was described
when it was first bound, what was drawn in the frame and into each, and at which clears. Counts stop
at the largest word, and those of a candidate still add up. -/
theorem accounts_tracker (past : DepthHistory) : (tracker past).Accounts past where
  bound := bound_tracker past
  tracked h hbound := by
    rw [bound_tracker] at hbound
    rcases candidate?_tracker past h with ⟨-, hunused⟩ | ⟨c, hc, haccounts⟩
    · exact absurd hbound (unused_of_description? hunused).1
    · obtain ⟨desc, hdesc, hfits⟩ := haccounts.fits
      exact ⟨c, desc, hc, hdesc, hfits⟩
  total := counts_tracker past
  isSome_candidate? h := by
    rcases candidate?_tracker past h with ⟨hnone, hunused⟩ | ⟨c, hc, haccounts⟩
    · rw [hnone, hunused]
      rfl
    · obtain ⟨desc, hdesc, -⟩ := haccounts.fits
      rw [hc, hdesc]
      rfl
  candidates h c hc := ⟨accounts_of_candidate? hc, (accounts_of_candidate? hc).balanced⟩

end DepthHistory

end EffectChain
