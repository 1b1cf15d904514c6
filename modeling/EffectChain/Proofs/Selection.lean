import EffectChain.CommandLine.Simulation
import EffectChain.Proofs.Depth.Choice
import EffectChain.Proofs.Ratios

/-!
# The selected depth buffer

Without a manual choice, the selection takes the candidate that outranks all others among those that
can be selected (`DepthSelector.bestCandidate_eq`). In the synthetic scene this is the depth buffer
of the main view, whatever the settings and the size of the backbuffer: the shadow map has fewer
vertices, and the depth buffer of the main view has the size that a candidate may be asked for
(`DemoScene.select_tracker`).
-/

namespace EffectChain

/-! ## Ranks -/

namespace DepthSelector

/-- **The selected candidate outranks all others** that can be selected. -/
theorem bestCandidate_eq {s : DepthSelector} {t : DepthTracker} {width height : UInt32}
    {h : Handle .texture} {c : DepthCandidate} (hmem : (h, c) ∈ t.candidates)
    (heligible : s.eligible width height c)
    (hbest : ∀ x ∈ t.candidates, s.eligible width height x.2 → x = (h, c) ∨
      outranks c.total x.2.total) :
    s.bestCandidate t width height = some h := by
  have hfiltered : (h, c) ∈ s.eligibles t width height := List.mem_filter.mpr ⟨hmem, heligible⟩
  rw [bestCandidate_eq_map]
  rcases hchosen : best none (s.eligibles t width height) with _ | x
  · rw [(best_eq_none_iff.mp hchosen).2] at hfiltered
    cases hfiltered
  · obtain ⟨before, after, heq, hbefore, hafter⟩ := exists_append_of_best hchosen
    rw [Option.toList_none, List.nil_append] at heq
    have hx : x ∈ t.candidates ∧ s.eligible width height x.2 := by
      have hmem : x ∈ s.eligibles t width height := by
        rw [heq]
        exact List.mem_append_right _ List.mem_cons_self
      exact List.mem_filter.mp hmem
    have hle : rank c.total ≤ rank x.2.total := by
      rw [heq, List.mem_append, List.mem_cons] at hfiltered
      rcases hfiltered with hmem | rfl | hmem
      · exact (hbefore _ hmem).le
      · exact le_rfl
      · exact hafter _ hmem
    rcases hbest x hx.1 hx.2 with rfl | houtranks
    · rfl
    · exact absurd (outranks_iff.mp houtranks) (not_lt.mpr hle)

end DepthSelector

/-! ## The synthetic scene -/

theorem DepthCandidate.iterate_draw (c : DepthCandidate) (count : Nat) (vertices : UInt32) :
    (fun c : DepthCandidate ↦ c.draw vertices)^[count] c = { c with
      total := (fun s : DrawStats ↦ s.record vertices)^[count] c.total
      current := (fun s : DrawStats ↦ s.record vertices)^[count] c.current } := by
  induction count generalizing c with
  | zero => rfl
  | succ count ih => exact ih (c.draw vertices)

namespace CommandLine.DemoScene

/-- Draws count for the frame and for the depth buffer that is bound. -/
theorem draws_eq {t : DepthTracker} {h : Handle .texture} (hbound : t.bound = some h) (count : Nat)
    (vertices : UInt32) :
    draws count vertices t = { t with
      total := (fun s ↦ s.record vertices)^[count] t.total
      candidates := t.candidates.map fun (k, c) ↦
        if k = h then (k, (fun c ↦ c.draw vertices)^[count] c) else (k, c) } := by
  induction count generalizing t with
  | zero => simp [draws]
  | succ count ih =>
    have hdraw : t.draw vertices = { t with
        total := t.total.record vertices
        candidates := t.candidates.map fun (k, c) ↦
          if k = h then (k, c.draw vertices) else (k, c) } := by
      rw [DepthTracker.draw, hbound]
      rfl
    change draws count vertices (t.draw vertices) = _
    rw [ih (by rwa [hdraw]), hdraw, List.map_map]
    dsimp only
    congr 1
    refine List.map_congr_left fun x _ ↦ ?_
    by_cases hx : x.1 = h <;> simp [hx]

def shadowUse (s : DemoScene) : DepthCandidate :=
  { DepthCandidate.ofDesc s.shadowMap.desc with total := ⟨24000, 4⟩, current := ⟨24000, 4⟩ }

/-- What is tracked of the depth buffer of the main view. -/
def depthUse (s : DemoScene) : DepthCandidate :=
  { DepthCandidate.ofDesc s.depthBuffer.desc with
    total := ⟨60000, 32⟩, current := ⟨36000, 24⟩, clears := [⟨⟨24000, 8⟩, none⟩] }

@[simp] theorem total_shadowUse (s : DemoScene) : s.shadowUse.total = ⟨24000, 4⟩ := rfl

@[simp] theorem total_depthUse (s : DemoScene) : s.depthUse.total = ⟨60000, 32⟩ := rfl

@[simp] theorem clears_depthUse (s : DemoScene) : s.depthUse.clears = [⟨⟨24000, 8⟩, none⟩] := rfl

theorem tracker_eq {s : DemoScene} (hid : s.shadowMap.texture.id < s.depthBuffer.texture.id) :
    s.tracker = {
      candidates := [(s.shadowMap.texture, s.shadowUse), (s.depthBuffer.texture, s.depthUse)]
      total := ⟨84000, 36⟩ } := by
  obtain ⟨⟨shadowMap, shadowDesc⟩, depthBuffer, depthDesc⟩ := s
  dsimp only at hid
  have hne : shadowMap ≠ depthBuffer := by
    rintro rfl
    exact Nat.lt_irrefl _ hid
  have hshadow : (fun s : DrawStats ↦ s.record 6000)^[4] {} = ⟨24000, 4⟩ := by decide +kernel
  have hprepass : (fun s : DrawStats ↦ s.record 3000)^[8] {} = ⟨24000, 8⟩ := by decide +kernel
  have hgeometry : (fun s : DrawStats ↦ s.record 1500)^[24] {} = ⟨36000, 24⟩ := by decide +kernel
  have hdepth : (fun s : DrawStats ↦ s.record 1500)^[24] ⟨24000, 8⟩ = ⟨60000, 32⟩ := by
    decide +kernel
  have htotal : (fun s : DrawStats ↦ s.record 1500)^[24]
      ((fun s : DrawStats ↦ s.record 3000)^[8] ⟨24000, 4⟩) = ⟨84000, 36⟩ := by decide +kernel
  rw [tracker]
  dsimp only
  rw [draws_eq rfl, draws_eq rfl, draws_eq rfl]
  simp only [DepthTracker.bind, DepthTracker.clear, DepthTracker.updateCandidate,
    DepthTracker.unbind, DepthTracker.insertCandidate, List.map_cons, List.map_nil, hne, hne.symm,
    if_true, if_false, Nat.lt_asymm hid, DepthCandidate.iterate_draw, DepthCandidate.clear,
    DepthCandidate.ofDesc, shadowUse, depthUse, hshadow, hprepass, hgeometry, hdepth, htotal,
    List.nil_append]

/-- **The depth buffer of the main view is selected**, whatever the settings: itself, since no clear
of it was preserved by a copy. -/
theorem select_tracker {s : DemoScene} (hid : s.shadowMap.texture.id < s.depthBuffer.texture.id)
    {width height : UInt32} (hwidth : width ≠ 0) (hheight : height ≠ 0)
    (hdesc : s.depthBuffer.desc = .depthBuffer width height 1) {selector : DepthSelector}
    (hmanual : selector.manual = none) :
    selector.select s.tracker width height = some {
      depthBuffer := s.depthBuffer.texture
      texture := s.depthBuffer.texture
      clearNumber := selector.clearNumber.map fun _ ↦ 1 } := by
  have hne : s.depthBuffer.texture ≠ s.shadowMap.texture :=
    fun heq ↦ Nat.lt_irrefl _ (heq ▸ hid)
  -- the scene draws more into the depth buffer of the main view than into the shadow map
  have hbest : selector.bestCandidate s.tracker width height = some s.depthBuffer.texture := by
    refine DepthSelector.bestCandidate_eq (c := s.depthUse) ?_ ?_ ?_
    · simp [tracker_eq hid]
    · have hmatches : s.depthUse.matchesAspect width height = true := by
        have hself := DepthCandidate.matchesAspect_self (c := s.depthUse)
        rw [depthUse, hdesc] at hself ⊢
        exact hself hwidth hheight
      have hsamples : s.depthUse.isMultisampled = false := by
        rw [DepthCandidate.isMultisampled, depthUse, hdesc]
        rfl
      simp [DepthSelector.eligible, hmatches, hsamples]
    · have hranks : DepthSelector.outranks ⟨60000, 32⟩ ⟨24000, 4⟩ = true := by decide
      simp [tracker_eq hid, hranks]
  have hclear : selector.preservedClear? s.tracker s.depthBuffer.texture
      = selector.clearNumber.map fun _ ↦ (s.depthBuffer.texture, 1) := by
    have hcandidate : s.tracker.candidate? s.depthBuffer.texture = some s.depthUse := by
      simp [tracker_eq hid, DepthTracker.candidate?, List.lookup, beq_false_of_ne hne]
    rcases hwanted : selector.clearNumber with _ | wanted
    · simp [DepthSelector.preservedClear?, hwanted]
    · -- there is one clear, so whichever is wanted, it is that one
      have hnumber : DepthSelector.clearInEffect wanted 1 = 1 := by
        rw [DepthSelector.clearInEffect]
        split
        · rfl
        · rename_i h
          have hzero : wanted.toNat ≠ 0 := fun hzero ↦ h (Or.inl (UInt32.toNat_inj.mp hzero))
          omega
      have hsize : ¬UInt32.size ≤ 1 := by decide
      simp [DepthSelector.preservedClear?, hwanted, hcandidate, hnumber, hsize]
  rw [DepthSelector.select, hmanual]
  dsimp only
  rw [hbest, Option.map_some, hclear]
  cases selector.clearNumber <;> rfl

end CommandLine.DemoScene

end EffectChain
