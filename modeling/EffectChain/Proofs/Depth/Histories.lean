import EffectChain.Depth.Tracker

/-!
# Histories of depth buffers

What an application does with its depth buffers is a list of events (`DepthHistory`). What it did
with one of them since the frame began can be read off the list without a tracker: whether it is
bound, how it was first described, what was drawn into it, and at which clears. A tracker is told
the events one by one (`DepthHistory.tracker`); it keeps its candidates by their numbers, each once
(`DepthHistory.ordered_tracker`), so what is kept does not depend on the order of use.
-/

namespace EffectChain

/-- Something that an application does with its depth buffers. -/
inductive DepthEvent
  /-- It binds one. -/
  | bind (h : Handle .texture) (desc : TextureDesc)
  /-- It binds none. -/
  | unbind
  /-- It draws. -/
  | draw (vertices : UInt32)
  /-- It clears one, of which a copy may have been taken. -/
  | clear (h : Handle .texture) (snapshot : Option (Handle .texture))
  /-- A new frame begins. -/
  | reset

def DepthTracker.step (t : DepthTracker) : DepthEvent → DepthTracker
  | .bind h desc => t.bind h desc
  | .unbind => t.unbind
  | .draw vertices => t.draw vertices
  | .clear h snapshot => t.clear h snapshot
  | .reset => t.reset

/-- What an application did with its depth buffers, last first. -/
abbrev DepthHistory : Type := List DepthEvent

/-- A clear as a history tells it. -/
structure Clearing where
  /-- What was drawn into the depth buffer since the clear before. -/
  draws : List UInt32
  /-- The copy that was taken. -/
  snapshot : Option (Handle .texture)

namespace DepthHistory

/-- The tracker that was told of the history. -/
def tracker : DepthHistory → DepthTracker
  | [] => {}
  | event :: past => (tracker past).step event

/-- The depth buffer that is bound: the one bound last, unless none is bound since then. -/
def bound? : DepthHistory → Option (Handle .texture)
  | [] | .unbind :: _ | .reset :: _ => none
  | .bind h _ :: _ => some h
  | .draw _ :: past | .clear .. :: past => bound? past

/-- How the depth buffer was described when it was first bound in the frame. -/
def description? (h : Handle .texture) : DepthHistory → Option TextureDesc
  | [] | .reset :: _ => none
  | .bind k desc :: past => (description? h past).or (if k = h then some desc else none)
  | .unbind :: past | .draw _ :: past | .clear .. :: past => description? h past

/-- What was drawn in the frame, last first. -/
def draws : DepthHistory → List UInt32
  | [] | .reset :: _ => []
  | .draw vertices :: past => vertices :: draws past
  | .bind .. :: past | .unbind :: past | .clear .. :: past => draws past

/-- What was drawn in the frame while the depth buffer was bound, last first. -/
def drawsInto (h : Handle .texture) : DepthHistory → List UInt32
  | [] | .reset :: _ => []
  | .draw vertices :: past =>
    if bound? past = some h then vertices :: drawsInto h past else drawsInto h past
  | .bind .. :: past | .unbind :: past | .clear .. :: past => drawsInto h past

/-- What was drawn while the depth buffer was bound, since it was last cleared in the frame. -/
def drawsSinceClear (h : Handle .texture) : DepthHistory → List UInt32
  | [] | .reset :: _ => []
  | .draw vertices :: past =>
    if bound? past = some h then vertices :: drawsSinceClear h past else drawsSinceClear h past
  | .clear k _ :: past => if k = h then [] else drawsSinceClear h past
  | .bind .. :: past | .unbind :: past => drawsSinceClear h past

/-- The clears of the depth buffer since it was first bound in the frame, in order. -/
def clearings (h : Handle .texture) : DepthHistory → List Clearing
  | [] | .reset :: _ => []
  | .clear k snapshot :: past =>
    if k = h ∧ (description? h past).isSome then
      clearings h past ++ [⟨drawsSinceClear h past, snapshot⟩]
    else clearings h past
  | .bind .. :: past | .unbind :: past | .draw _ :: past => clearings h past

end DepthHistory

/-! ## Candidates by their numbers -/

namespace DepthTracker

/-- The candidates are in the order of their numbers, each once. -/
def Ordered (candidates : List (Handle .texture × DepthCandidate)) : Prop :=
  candidates.Pairwise fun x y ↦ x.1.id < y.1.id

variable {t : DepthTracker} {h k : Handle .texture} {c : DepthCandidate}
  {candidates : List (Handle .texture × DepthCandidate)}

theorem lookup_cons (k : Handle .texture) (x : Handle .texture × DepthCandidate) :
    (x :: candidates).lookup k = if k = x.1 then some x.2 else candidates.lookup k := by
  rw [List.lookup_cons]
  by_cases hk : k = x.1
  · rw [if_pos hk, beq_iff_eq.mpr hk]
  · rw [if_neg hk, beq_false_of_ne hk]

theorem mem_of_lookup (hlookup : candidates.lookup k = some c) : (k, c) ∈ candidates := by
  induction candidates with
  | nil => cases hlookup
  | cons x rest ih =>
    rw [lookup_cons] at hlookup
    split at hlookup
    · rename_i hk
      cases hlookup
      exact hk ▸ List.mem_cons_self
    · exact List.mem_cons_of_mem x (ih hlookup)

theorem lookup_eq_some_iff (hordered : Ordered candidates) :
    candidates.lookup k = some c ↔ (k, c) ∈ candidates := by
  refine ⟨mem_of_lookup, fun hmem ↦ ?_⟩
  induction candidates with
  | nil => cases hmem
  | cons x rest ih =>
    obtain ⟨hfirst, hrest⟩ := List.pairwise_cons.mp hordered
    rw [lookup_cons]
    rcases List.mem_cons.mp hmem with rfl | hmem
    · exact if_pos rfl
    · rw [if_neg, ih hrest hmem]
      intro hk
      have hlt : x.1.id < k.id := hfirst (k, c) hmem
      exact Nat.lt_irrefl _ (hk ▸ hlt)

theorem lookup_eq_none_of_lt (hsmaller : ∀ x ∈ candidates, k.id < x.1.id) :
    candidates.lookup k = none := by
  rcases hlookup : candidates.lookup k with _ | c
  · rfl
  · exact absurd (hsmaller _ (mem_of_lookup hlookup)) (Nat.lt_irrefl _)

theorem mem_insertCandidate {x : Handle .texture × DepthCandidate}
    (hx : x ∈ insertCandidate h c candidates) : x = (h, c) ∨ x ∈ candidates := by
  induction candidates with
  | nil => exact Or.inl (List.mem_singleton.mp hx)
  | cons y rest ih =>
    rw [insertCandidate] at hx
    split at hx
    · exact List.mem_cons.mp hx
    · split at hx
      · exact Or.inr hx
      · rcases List.mem_cons.mp hx with rfl | hx
        · exact Or.inr List.mem_cons_self
        · exact (ih hx).imp id (List.mem_cons_of_mem y)

theorem Ordered.insertCandidate (hordered : Ordered candidates) (h : Handle .texture)
    (c : DepthCandidate) : Ordered (insertCandidate h c candidates) := by
  induction candidates with
  | nil => exact List.pairwise_singleton _ _
  | cons y rest ih =>
    obtain ⟨hfirst, hrest⟩ := List.pairwise_cons.mp hordered
    rw [DepthTracker.insertCandidate]
    split
    · rename_i hlt
      refine List.pairwise_cons.mpr ⟨List.forall_mem_cons.mpr ⟨hlt, fun x hx ↦ ?_⟩, hordered⟩
      exact Nat.lt_trans hlt (hfirst x hx)
    · rename_i hge
      split
      · exact hordered
      · rename_i hne
        refine List.pairwise_cons.mpr ⟨fun x hx ↦ ?_, ih hrest⟩
        rcases mem_insertCandidate hx with rfl | hx
        · have hid : h.id ≠ y.1.id := fun heq ↦ hne (congrArg Handle.mk heq)
          dsimp only at hge ⊢
          omega
        · exact hfirst x hx

theorem lookup_insertCandidate (hordered : Ordered candidates) (h : Handle .texture)
    (c : DepthCandidate) (k : Handle .texture) :
    (insertCandidate h c candidates).lookup k
      = if k = h then some ((candidates.lookup h).getD c) else candidates.lookup k := by
  induction candidates with
  | nil => exact lookup_cons k _
  | cons y rest ih =>
    obtain ⟨hfirst, hrest⟩ := List.pairwise_cons.mp hordered
    rw [insertCandidate]
    split
    · rename_i hlt
      have hnone : (y :: rest).lookup h = none := lookup_eq_none_of_lt <|
        List.forall_mem_cons.mpr ⟨hlt, fun x hx ↦ Nat.lt_trans hlt (hfirst x hx)⟩
      rw [lookup_cons, hnone]
      rfl
    · split
      · rename_i heq
        rw [lookup_cons h, if_pos heq, lookup_cons k]
        split
        · rename_i hk
          rw [if_pos (hk.trans heq.symm)]
          rfl
        · rename_i hk
          rw [if_neg fun hk' ↦ hk (hk'.trans heq)]
      · rename_i hne
        rw [lookup_cons k, ih hrest, lookup_cons h, if_neg hne, lookup_cons k]
        by_cases hk : k = h
        · rw [if_pos hk, if_pos hk, if_neg fun hk' ↦ hne (hk.symm.trans hk')]
        · rw [if_neg hk, if_neg hk]

theorem candidate?_bind (hordered : Ordered t.candidates) (h : Handle .texture) (desc : TextureDesc)
    (k : Handle .texture) :
    (t.bind h desc).candidate? k
      = if k = h then some ((t.candidate? h).getD (.ofDesc desc)) else t.candidate? k :=
  lookup_insertCandidate hordered h _ k

theorem candidate?_updateCandidate (t : DepthTracker) (h : Handle .texture)
    (f : DepthCandidate → DepthCandidate) (k : Handle .texture) :
    (t.updateCandidate h f).candidate? k
      = if k = h then (t.candidate? h).map f else t.candidate? k := by
  rw [candidate?, candidate?, candidate?, updateCandidate]
  induction t.candidates with
  | nil => simp
  | cons x rest ih =>
    obtain ⟨j, c⟩ := x
    rw [List.map_cons, lookup_cons h, lookup_cons k (j, c)]
    dsimp only at ih ⊢
    by_cases hj : j = h
    · subst hj
      rw [if_pos rfl, lookup_cons, ih]
      by_cases hk : k = j <;> simp [hk]
    · rw [if_neg hj, lookup_cons, ih, if_neg (Ne.symm hj)]
      by_cases hk : k = j
      · simp [hk, hj]
      · simp [hk]

theorem candidate?_clear (t : DepthTracker) (h : Handle .texture)
    (snapshot : Option (Handle .texture)) (k : Handle .texture) :
    (t.clear h snapshot).candidate? k
      = if k = h then (t.candidate? h).map (·.clear snapshot) else t.candidate? k :=
  t.candidate?_updateCandidate h _ k

theorem candidate?_draw (t : DepthTracker) (vertices : UInt32) (k : Handle .texture) :
    (t.draw vertices).candidate? k
      = if t.bound = some k then (t.candidate? k).map (·.draw vertices) else t.candidate? k := by
  rcases hbound : t.bound with _ | h
  · rw [draw, hbound, if_neg (Option.some_ne_none k).symm]
    rfl
  · rw [draw, hbound]
    refine (candidate?_updateCandidate _ h _ k).trans ?_
    by_cases hk : k = h
    · rw [if_pos hk, if_pos (congrArg some hk.symm), hk]
      rfl
    · rw [if_neg hk, if_neg fun hk' ↦ hk (Option.some.inj hk').symm]
      rfl

theorem bound_draw (t : DepthTracker) (vertices : UInt32) : (t.draw vertices).bound = t.bound := by
  rcases hbound : t.bound with _ | h <;> rw [draw, hbound]
  rfl

theorem total_draw (t : DepthTracker) (vertices : UInt32) :
    (t.draw vertices).total = t.total.record vertices := by
  rcases hbound : t.bound with _ | h <;> rw [draw, hbound]
  rfl

theorem Ordered.updateCandidate (hordered : Ordered t.candidates) (h : Handle .texture)
    (f : DepthCandidate → DepthCandidate) : Ordered (t.updateCandidate h f).candidates := by
  refine List.pairwise_map.mpr (hordered.imp fun {x y} hlt ↦ ?_)
  dsimp only
  split <;> split <;> exact hlt

theorem Ordered.step (hordered : Ordered t.candidates) (event : DepthEvent) :
    Ordered (t.step event).candidates := by
  cases event with
  | bind h desc => exact hordered.insertCandidate h _
  | unbind => exact hordered
  | draw vertices =>
    rw [DepthTracker.step, draw]
    dsimp only
    split
    · exact hordered
    · exact Ordered.updateCandidate (t := { t with total := t.total.record vertices }) hordered _ _
  | clear h snapshot => exact hordered.updateCandidate h _
  | reset => exact List.Pairwise.nil

end DepthTracker

namespace DepthHistory

open DepthTracker (Ordered candidate?_bind candidate?_draw candidate?_clear)

/-- A tracker keeps its candidates by their numbers, whatever the order of use. -/
theorem ordered_tracker (past : DepthHistory) : Ordered (tracker past).candidates := by
  induction past with
  | nil => exact List.Pairwise.nil
  | cons event past ih => exact ih.step event

theorem bound_tracker (past : DepthHistory) : (tracker past).bound = bound? past := by
  induction past with
  | nil => rfl
  | cons event past ih =>
    cases event with
    | draw vertices => exact (DepthTracker.bound_draw _ vertices).trans ih
    | clear => exact ih
    | _ => rfl

end DepthHistory

end EffectChain
