import EffectChain.Depth.Selector
import EffectChain.Proofs.Depth.Histories
import Mathlib.Data.Prod.Lex

/-!
# The choice of a depth buffer

Without a manual choice, the depth buffer that is selected is the best candidate there is, by rank
and then by number (`DepthSelector.Best`). The fold that finds it takes the first of the best
(`DepthSelector.exists_append_of_best`), and candidates are kept by their numbers, so no trace of
the order of use is left: what is selected depends on the candidates alone, and on those that can be
selected and prevail (`DepthHistory.select_optimal`).
-/

namespace EffectChain

open DepthTracker (Ordered)

/-! ## Ranks -/

namespace DepthSelector

/-- The rank of statistics: by vertices first, then by draw calls. -/
def rank (s : DrawStats) : ℕ ×ₗ ℕ := toLex (s.vertices.toNat, s.drawCalls.toNat)

theorem outranks_iff {a b : DrawStats} : outranks a b ↔ rank b < rank a := by
  simp only [outranks, rank, Prod.Lex.toLex_lt_toLex, Bool.or_eq_true, Bool.and_eq_true,
    decide_eq_true_eq, UInt32.lt_iff_toNat_lt, ← UInt32.toNat_inj]
  rw [eq_comm (a := a.vertices.toNat)]

theorem best_eq_none_iff {chosen : Option (Handle .texture × DepthCandidate)}
    {candidates : List (Handle .texture × DepthCandidate)} :
    best chosen candidates = none ↔ chosen = none ∧ candidates = [] := by
  induction candidates generalizing chosen with
  | nil => simp [best]
  | cons y rest ih => rcases chosen with _ | z <;> simp [best, ih]

/-- **The first of the best is chosen**: it outranks what stands before it, and nothing behind it
outranks it. -/
theorem exists_append_of_best {x : Handle .texture × DepthCandidate}
    {chosen : Option (Handle .texture × DepthCandidate)}
    {candidates : List (Handle .texture × DepthCandidate)}
    (hbest : best chosen candidates = some x) :
    ∃ before after, chosen.toList ++ candidates = before ++ x :: after ∧
      (∀ y ∈ before, rank y.2.total < rank x.2.total) ∧
      ∀ y ∈ after, rank y.2.total ≤ rank x.2.total := by
  -- the induction is on what is still to come, for any candidate that was chosen so far
  induction candidates generalizing chosen with
  | nil =>
    obtain rfl : chosen = some x := hbest
    exact ⟨[], [], rfl, nofun, nofun⟩
  | cons y rest ih =>
    rcases chosen with _ | z
    · exact ih hbest
    · change best (some (if outranks y.2.total z.2.total then y else z)) rest = some x at hbest
      by_cases houtranks : outranks y.2.total z.2.total
      · -- the one chosen so far is passed over
        rw [if_pos houtranks] at hbest
        obtain ⟨before, after, heq, hbefore, hafter⟩ := ih hbest
        refine ⟨z :: before, after, congrArg (z :: ·) heq, ?_, hafter⟩
        have hyx : rank y.2.total ≤ rank x.2.total := by
          rcases before with _ | ⟨w, before⟩
          · cases heq
            exact le_rfl
          · cases heq
            exact (hbefore y List.mem_cons_self).le
        exact List.forall_mem_cons.mpr ⟨(outranks_iff.mp houtranks).trans_le hyx, hbefore⟩
      · rw [if_neg houtranks] at hbest
        obtain ⟨before, after, heq, hbefore, hafter⟩ := ih hbest
        have hyz : rank y.2.total ≤ rank z.2.total :=
          not_lt.mp fun h ↦ houtranks (outranks_iff.mpr h)
        rcases before with _ | ⟨w, before⟩
        · cases heq
          exact ⟨[], y :: rest, rfl, nofun, List.forall_mem_cons.mpr ⟨hyz, hafter⟩⟩
        · cases heq
          obtain ⟨hz, hbefore⟩ := List.forall_mem_cons.mp hbefore
          exact ⟨z :: y :: before, after, rfl, List.forall_mem_cons.mpr
            ⟨hz, List.forall_mem_cons.mpr ⟨hyz.trans_lt hz, hbefore⟩⟩, hafter⟩

/-! ## The best candidate -/

variable {s : DepthSelector} {t t' : DepthTracker} {width height : UInt32} {h k : Handle .texture}
  {b c : DepthCandidate}

/-- Whether a candidate can be selected: it was drawn with, is single-sampled and, if this is asked
for, matches the backbuffer in size. -/
structure Admits (s : DepthSelector) (width height : UInt32) (c : DepthCandidate) : Prop where
  drawn : 0 < c.total.drawCalls.toNat
  singleSampled : c.sampleCount.toNat ≤ 1
  matchesAspect : s.matchAspect = true → c.matchesAspect width height = true

theorem eligible_iff : s.eligible width height c = true ↔ s.Admits width height c := by
  have hone : (1 : UInt32).toNat = 1 := rfl
  have hdrawn : c.total.drawCalls ≠ 0 ↔ 0 < c.total.drawCalls.toNat := by
    rw [Nat.pos_iff_ne_zero, ne_eq, ne_eq, ← UInt32.toNat_inj]
    rfl
  have hsingle : ¬1 < c.sampleCount ↔ c.sampleCount.toNat ≤ 1 := by
    rw [UInt32.lt_iff_toNat_lt, hone, not_lt]
  simp only [eligible, DepthCandidate.isMultisampled, Bool.and_eq_true, Bool.or_eq_true,
    Bool.not_eq_true', decide_eq_true_eq, decide_eq_false_iff_not, hdrawn, hsingle]
  constructor
  · rintro ⟨⟨hdrawn, hsingle⟩, hany | hmatches⟩
    · exact ⟨hdrawn, hsingle, fun hmatch ↦ absurd (hany.symm.trans hmatch) Bool.false_ne_true⟩
    · exact ⟨hdrawn, hsingle, fun _ ↦ hmatches⟩
  · intro h
    refine ⟨⟨h.drawn, h.singleSampled⟩, ?_⟩
    rcases hmatch : s.matchAspect with _ | _
    · exact Or.inl rfl
    · exact Or.inr (h.matchesAspect hmatch)

/-- One candidate prevails over another: by rank, and among equals by the lower number. -/
def Prevails (x y : Handle .texture × DepthCandidate) : Prop :=
  rank y.2.total < rank x.2.total ∨ rank y.2.total = rank x.2.total ∧ x.1.id < y.1.id

theorem Prevails.trans {x y z : Handle .texture × DepthCandidate} (hxy : Prevails x y)
    (hyz : Prevails y z) : Prevails x z := by
  rcases hxy with hxy | ⟨hxy, hid⟩ <;> rcases hyz with hyz | ⟨hyz, hid'⟩
  · exact Or.inl (hyz.trans hxy)
  · exact Or.inl (hyz.trans_lt hxy)
  · exact Or.inl (hyz.trans_eq hxy)
  · exact Or.inr ⟨hyz.trans hxy, hid.trans hid'⟩

theorem not_prevails_self (x : Handle .texture × DepthCandidate) : ¬Prevails x x := by
  rintro (h | ⟨-, h⟩) <;> exact lt_irrefl _ h

/-- The depth buffer is the best that can be selected. -/
def Best (s : DepthSelector) (t : DepthTracker) (width height : UInt32) (h : Handle .texture) :
    Prop :=
  ∃ c, t.candidate? h = some c ∧ s.Admits width height c ∧
    ∀ k b, t.candidate? k = some b → s.Admits width height b → k ≠ h → Prevails (h, c) (k, b)

theorem Best.eq (hh : s.Best t width height h) (hk : s.Best t width height k) : k = h := by
  obtain ⟨c, hc, hadmits, hbest⟩ := hh
  obtain ⟨b, hb, hadmits', hbest'⟩ := hk
  by_contra hne
  exact not_prevails_self _
    ((hbest k b hb hadmits' hne).trans (hbest' h c hc hadmits (Ne.symm hne)))

def eligibles (s : DepthSelector) (t : DepthTracker) (width height : UInt32) :
    List (Handle .texture × DepthCandidate) :=
  t.candidates.filter fun x ↦ s.eligible width height x.2

theorem bestCandidate_eq_map (s : DepthSelector) (t : DepthTracker) (width height : UInt32) :
    s.bestCandidate t width height = (best none (s.eligibles t width height)).map Prod.fst := rfl

theorem mem_eligibles (hordered : Ordered t.candidates) :
    (k, c) ∈ s.eligibles t width height
      ↔ t.candidate? k = some c ∧ s.Admits width height c := by
  rw [eligibles, List.mem_filter, DepthTracker.candidate?,
    DepthTracker.lookup_eq_some_iff hordered, ← eligible_iff]

theorem bestCandidate_eq_none_iff (hordered : Ordered t.candidates) :
    s.bestCandidate t width height = none
      ↔ ∀ k c, t.candidate? k = some c → ¬s.Admits width height c := by
  rw [bestCandidate_eq_map, Option.map_eq_none_iff, best_eq_none_iff,
    List.eq_nil_iff_forall_not_mem]
  simp only [true_and, Prod.forall, mem_eligibles hordered, not_and]

/-- **The best candidate is found.** -/
theorem bestCandidate_eq_some_iff (hordered : Ordered t.candidates) :
    s.bestCandidate t width height = some h ↔ s.Best t width height h := by
  have hfound {h : Handle .texture} (hh : s.bestCandidate t width height = some h) :
      s.Best t width height h := by
    rw [bestCandidate_eq_map] at hh
    obtain ⟨⟨h, c⟩, hchosen, rfl⟩ := Option.map_eq_some_iff.mp hh
    obtain ⟨before, after, heq, hbefore, hafter⟩ := exists_append_of_best hchosen
    rw [Option.toList_none, List.nil_append] at heq
    have hmem {k : Handle .texture} {b : DepthCandidate} :
        (k, b) ∈ before ++ (h, c) :: after ↔ t.candidate? k = some b ∧ s.Admits width height b := by
      rw [← heq]
      exact mem_eligibles hordered
    have hnumbers : ∀ y ∈ after, h.id < y.1.id := by
      have hpairwise : Ordered (before ++ (h, c) :: after) := heq ▸ hordered.filter _
      exact (List.pairwise_cons.mp (List.pairwise_append.mp hpairwise).2.1).1
    obtain ⟨hc, hadmits⟩ := hmem.mp (List.mem_append_right before List.mem_cons_self)
    refine ⟨c, hc, hadmits, fun k b hb hadmits' hne ↦ ?_⟩
    rcases List.mem_append.mp (hmem.mpr ⟨hb, hadmits'⟩) with hmem | hmem
    · exact Or.inl (hbefore _ hmem)
    · rcases List.mem_cons.mp hmem with heq | hmem
      · exact absurd (congrArg Prod.fst heq) hne
      · exact (hafter _ hmem).lt_or_eq.imp id fun heq ↦ ⟨heq, hnumbers _ hmem⟩
  refine ⟨hfound, fun hbest ↦ ?_⟩
  rcases hchosen : s.bestCandidate t width height with _ | k
  · obtain ⟨c, hc, hadmits, -⟩ := hbest
    exact absurd hadmits ((bestCandidate_eq_none_iff hordered).mp hchosen h c hc)
  · rw [hbest.eq (hfound hchosen)]

/-! ## The selection -/

theorem map_depthBuffer_select (hmanual : s.manual = none) (t : DepthTracker)
    (width height : UInt32) :
    (s.select t width height).map (·.depthBuffer) = s.bestCandidate t width height := by
  rw [select, hmanual]
  dsimp only
  rcases s.bestCandidate t width height with _ | h
  · rfl
  · rw [Option.map_some, Option.map_some]
    split <;> rfl

/-- What is selected depends on what is best, and on the clears of that. -/
theorem select_congr (hmanual : s.manual = none) (hordered : Ordered t.candidates)
    (hordered' : Ordered t'.candidates)
    (hbest : ∀ k, s.Best t' width height k ↔ s.Best t width height k)
    (hcandidate : ∀ k, s.Best t width height k → t'.candidate? k = t.candidate? k) :
    s.select t' width height = s.select t width height := by
  have hchosen : s.bestCandidate t' width height = s.bestCandidate t width height :=
    Option.ext fun k ↦ by
      rw [bestCandidate_eq_some_iff hordered', bestCandidate_eq_some_iff hordered, hbest]
  rw [select, select, hmanual]
  dsimp only
  rw [hchosen]
  refine Option.map_congr fun k hk ↦ ?_
  have hclear : s.preservedClear? t' k = s.preservedClear? t k := by
    rw [preservedClear?, preservedClear?, hcandidate k ((bestCandidate_eq_some_iff hordered).mp hk)]
  rw [hclear]

/-- A candidate that cannot be selected, or does not prevail, changes nothing about what is best. -/
theorem best_iff_of_loser (hnone : t.candidate? h = none) (hnew : t'.candidate? h = some c)
    (hrest : ∀ k, k ≠ h → t'.candidate? k = t.candidate? k)
    (hloses : s.Admits width height c → ∃ k b, t.candidate? k = some b ∧
      s.Admits width height b ∧ Prevails (k, b) (h, c)) :
    s.Best t' width height k ↔ s.Best t width height k := by
  have hother {k : Handle .texture} {b : DepthCandidate} (hb : t.candidate? k = some b) :
      k ≠ h ∧ t'.candidate? k = some b := by
    have hne : k ≠ h := by
      rintro rfl
      cases hnone.symm.trans hb
    exact ⟨hne, (hrest k hne).trans hb⟩
  constructor
  · rintro ⟨b, hb, hadmits, hbest⟩
    by_cases hk : k = h
    · -- the loser is not the best, since the candidate that it loses to is still there
      subst hk
      cases hnew.symm.trans hb
      obtain ⟨j, a, ha, hadmits', hprevails⟩ := hloses hadmits
      obtain ⟨hj, ha'⟩ := hother ha
      exact absurd (hprevails.trans (hbest j a ha' hadmits' hj)) (not_prevails_self _)
    · refine ⟨b, (hrest k hk).symm.trans hb, hadmits, fun j a ha ↦ hbest j a (hother ha).2⟩
  · rintro ⟨b, hb, hadmits, hbest⟩
    refine ⟨b, (hother hb).2, hadmits, fun j a ha hadmits' hj ↦ ?_⟩
    by_cases hjh : j = h
    · subst hjh
      cases hnew.symm.trans ha
      obtain ⟨i, d, hd, hadmits'', hprevails⟩ := hloses hadmits'
      -- the best candidate prevails over the loser, itself or through another
      by_cases hi : i = k
      · subst hi
        cases hb.symm.trans hd
        exact hprevails
      · exact (hbest i d hd hadmits'' hi).trans hprevails
    · exact hbest j a ((hrest j hjh).symm.trans ha) hadmits' hj

end DepthSelector

namespace DepthHistory

open DepthSelector (Prevails)

/-- **The selected depth buffer is the best**, whatever the history of the frame: nothing is
selected exactly if nothing can be, and what is selected prevails over all else that can be. So the
same candidates give the same selection, in whatever order they were used, and one more candidate
makes no difference if it cannot be selected or does not prevail. -/
theorem select_optimal (past : DepthHistory) {s : DepthSelector} (hmanual : s.manual = none)
    (width height : UInt32) :
    (s.select (tracker past) width height = none ↔
      ∀ h c, (tracker past).candidate? h = some c → ¬s.Admits width height c) ∧
    (∀ selection, s.select (tracker past) width height = some selection →
      s.Best (tracker past) width height selection.depthBuffer) ∧
    (∀ past', (∀ h, (tracker past').candidate? h = (tracker past).candidate? h) →
      s.select (tracker past') width height = s.select (tracker past) width height) ∧
    ∀ past' h c, (tracker past).candidate? h = none → (tracker past').candidate? h = some c →
      (∀ k, k ≠ h → (tracker past').candidate? k = (tracker past).candidate? k) →
      (s.Admits width height c → ∃ k b, (tracker past).candidate? k = some b ∧
        s.Admits width height b ∧ Prevails (k, b) (h, c)) →
      s.select (tracker past') width height = s.select (tracker past) width height := by
  have hordered := ordered_tracker past
  have hdepthBuffer := DepthSelector.map_depthBuffer_select hmanual (tracker past) width height
  refine ⟨?_, fun selection hselected ↦ ?_, fun past' hsame ↦ ?_,
    fun past' h c hnone hnew hrest hloses ↦ ?_⟩
  · rw [← DepthSelector.bestCandidate_eq_none_iff hordered, ← hdepthBuffer, Option.map_eq_none_iff]
  · rw [← DepthSelector.bestCandidate_eq_some_iff hordered, ← hdepthBuffer, hselected]
    rfl
  · refine DepthSelector.select_congr hmanual hordered (ordered_tracker past') (fun k ↦ ?_)
      fun k _ ↦ hsame k
    simp only [DepthSelector.Best, hsame]
  · refine DepthSelector.select_congr hmanual hordered (ordered_tracker past')
      (fun k ↦ DepthSelector.best_iff_of_loser hnone hnew hrest hloses) fun k hk ↦ hrest k ?_
    obtain ⟨b, hb, -⟩ := hk
    rintro rfl
    cases hnone.symm.trans hb

/-- Two depth buffers are drawn with alike, and the one of the lower number is selected. A third one
with fewer vertices makes no difference. -/
theorem select_optimal_tie :
    let past : DepthHistory := [.draw 300, .bind ⟨4⟩ (.depthBuffer 4 4 1), .draw 300,
      .bind ⟨9⟩ (.depthBuffer 4 4 1)]
    let past' : DepthHistory := [.draw 100, .bind ⟨6⟩ (.depthBuffer 4 4 1)] ++ past
    let s : DepthSelector := {}
    s.manual = none ∧ s.select (tracker past) 4 4 = some ⟨⟨4⟩, ⟨4⟩, none⟩ ∧
      s.Best (tracker past) 4 4 ⟨4⟩ ∧
      s.select (tracker past') 4 4 = s.select (tracker past) 4 4 := by
  intro past past' s
  have hselected : s.select (tracker past) 4 4 = some ⟨⟨4⟩, ⟨4⟩, none⟩ := by decide +kernel
  obtain ⟨-, hbest, -, hadded⟩ := select_optimal past (s := s) rfl 4 4
  refine ⟨rfl, hselected, hbest _ hselected, hadded past' ⟨6⟩ _ rfl rfl (fun k hk ↦ ?_) fun _ ↦ ?_⟩
  · have hordered := ordered_tracker past
    have hbound : ((tracker past).bind ⟨6⟩ (.depthBuffer 4 4 1)).bound ≠ some k :=
      fun h ↦ hk (Option.some.inj h).symm
    change (((tracker past).bind ⟨6⟩ (.depthBuffer 4 4 1)).draw 100).candidate? k = _
    rw [DepthTracker.candidate?_draw, if_neg hbound, DepthTracker.candidate?_bind hordered,
      if_neg hk]
  · exact ⟨⟨4⟩, _, rfl, ⟨by decide, by decide, nofun⟩, Or.inl (by decide)⟩

end DepthHistory

end EffectChain
