import EffectChain.Proofs.DepthAlias

/-!
# A depth buffer that is chosen by hand

A manual choice settles which depth buffer is selected, whatever the application draws with and
whatever the size of the backbuffer. It does not settle which texture stands for that depth buffer:
if clears are preserved and the chosen depth buffer was cleared in the frame, the copy taken at the
clear in effect does, just as for a depth buffer that was found among the candidates
(`Engine.present_manual`).

The clear in effect is described here without the arithmetic of `DepthSelector.clearInEffect`: it is
the clear of the wanted number, and the last one if there is none of that number.
-/

namespace EffectChain

namespace DepthCandidate

/-- The clear of a number, counted from one, else the last. -/
def clearAt? (c : DepthCandidate) (wanted : UInt32) : Option ClearRecord :=
  if 1 ≤ wanted.toNat ∧ wanted.toNat ≤ c.clears.length then c.clears[wanted.toNat - 1]?
  else c.clears.getLast?

variable {c : DepthCandidate}

theorem clearInEffect_eq (wanted : UInt32) (count : Nat) :
    DepthSelector.clearInEffect wanted count
      = if wanted.toNat = 0 ∨ count < wanted.toNat then count else wanted.toNat := by
  simp only [DepthSelector.clearInEffect, ← UInt32.toNat_inj, UInt32.toNat_zero]

theorem getElem?_clearInEffect (c : DepthCandidate) (wanted : UInt32) :
    c.clears[DepthSelector.clearInEffect wanted c.clears.length - 1]? = c.clearAt? wanted := by
  rw [clearInEffect_eq, clearAt?, List.getLast?_eq_getElem?]
  by_cases hlast : wanted.toNat = 0 ∨ c.clears.length < wanted.toNat
  · rw [if_pos hlast, if_neg]
    omega
  · rw [if_neg hlast, if_pos]
    omega

theorem clearInEffect_eq_zero_iff (wanted : UInt32) (count : Nat) :
    DepthSelector.clearInEffect wanted count = 0 ↔ count = 0 := by
  rw [clearInEffect_eq]
  split <;> omega

/-- As long as clears can be numbered, the largest number stands for the last, like zero. -/
theorem clearAt?_max (hcount : c.clears.length < UInt32.size) :
    c.clearAt? 0xFFFFFFFF = c.clearAt? 0 := by
  have hmax : (0xFFFFFFFF : UInt32).toNat = UInt32.size - 1 := rfl
  rw [clearAt?, clearAt?, if_neg (show ¬(1 ≤ (0 : UInt32).toNat ∧ _) from fun h ↦ by cases h.1)]
  split
  · rw [List.getLast?_eq_getElem?]
    congr 1
    omega
  · rfl

end DepthCandidate

/-- The copy of a depth buffer that was taken at the clear of a number. -/
def DepthTracker.snapshotAt? (t : DepthTracker) (h : Handle .texture) (wanted : UInt32) :
    Option (Handle .texture) :=
  (t.candidate? h).bind fun c ↦
    if c.clears.length < UInt32.size then (c.clearAt? wanted).bind (·.snapshot) else none

namespace DepthSelector

/-- What stands for a depth buffer is its copy at the wanted clear, or else itself. -/
theorem texture_preservedClear? (s : DepthSelector) (t : DepthTracker) (h : Handle .texture) :
    ((s.preservedClear? t h).map (·.1)).getD h
      = (s.clearNumber.bind (t.snapshotAt? h)).getD h := by
  rcases hwanted : s.clearNumber with _ | wanted
  · rw [preservedClear?, hwanted]
    rfl
  · rcases hcandidate : t.candidate? h with _ | c
    · simp [preservedClear?, DepthTracker.snapshotAt?, hwanted, hcandidate]
    · have hsize : UInt32.size ≤ c.clears.length ↔ ¬c.clears.length < UInt32.size := Nat.not_lt.symm
      simp only [preservedClear?, DepthTracker.snapshotAt?, hwanted, hcandidate, Option.bind_some,
        Option.bind_eq_bind, DepthCandidate.clearInEffect_eq_zero_iff,
        DepthCandidate.getElem?_clearInEffect, hsize]
      by_cases hcount : c.clears.length < UInt32.size
      · rw [if_pos hcount]
        by_cases hnone : c.clears.length = 0
        · rw [if_pos (Or.inl hnone), DepthCandidate.clearAt?, List.eq_nil_of_length_eq_zero hnone]
          split <;> rfl
        · rw [if_neg (not_or.mpr ⟨hnone, not_not_intro hcount⟩)]
          cases c.clearAt? wanted <;> rfl
      · rw [if_neg hcount, if_pos (Or.inr hcount)]
        rfl

/-- A manual choice is selected; its copy at the wanted clear stands for it, if there is one. -/
theorem select_manual {s : DepthSelector} {r : Handle .texture} (hmanual : s.manual = some r)
    (t : DepthTracker) (width height : UInt32) :
    ∃ selection, s.select t width height = some selection ∧ selection.depthBuffer = r ∧
      selection.texture = (s.clearNumber.bind (t.snapshotAt? r)).getD r := by
  rw [← texture_preservedClear?, select, hmanual]
  refine ⟨_, rfl, ?_⟩
  dsimp only
  rcases s.preservedClear? t r with _ | ⟨texture, number⟩
  · exact ⟨rfl, rfl⟩
  · exact ⟨rfl, rfl⟩

end DepthSelector

/-- The settings of a configuration ask for copies exactly if clears are preserved, by the number
that is configured. -/
theorem DepthConfig.effectiveClear?_bind_snapshotAt? (c : DepthConfig) (t : DepthTracker)
    (h : Handle .texture) :
    c.effectiveClear?.bind (t.snapshotAt? h)
      = if c.preserve then t.snapshotAt? h c.clearNumber else none := by
  rw [effectiveClear?]
  by_cases hpreserve : c.preserve = true
  · rw [if_pos hpreserve, hpreserve]
    by_cases hzero : c.clearNumber = 0
    · rw [hzero]
      change t.snapshotAt? h 0xFFFFFFFF = t.snapshotAt? h 0
      rw [DepthTracker.snapshotAt?, DepthTracker.snapshotAt?]
      refine congrArg _ (funext fun candidate ↦ ?_)
      by_cases hcount : candidate.clears.length < UInt32.size
      · rw [if_pos hcount, if_pos hcount, DepthCandidate.clearAt?_max hcount]
      · rw [if_neg hcount, if_neg hcount]
    · simp [hzero]
  · simp [hpreserve]

namespace Engine

/-- **What a manual choice decides**: it is the depth buffer that is selected, for every tracker,
every setting and every size. The texture that is selected with it, which a frame points the alias
at, is the chosen depth buffer itself only if it has no copy at the clear in effect. -/
theorem present_manual (r : Handle .texture) (tracker : DepthTracker) :
    (∀ s : DepthSelector, s.manual = some r → ∀ width height,
      ∃ selection, s.select tracker width height = some selection ∧ selection.depthBuffer = r ∧
        selection.texture = (s.clearNumber.bind (tracker.snapshotAt? r)).getD r) ∧
    ∀ e : Engine, e.backbuffer.isSome → e.depthOverride = some r →
      (e.present tracker).selection.map (·.depthBuffer) = some r ∧
      (e.present tracker).depth.texture = some (Option.getD (if e.config.depth.preserve then
        tracker.snapshotAt? r e.config.depth.clearNumber else none) r) := by
  refine ⟨fun s hmanual ↦ DepthSelector.select_manual hmanual tracker, fun e hb hmanual ↦ ?_⟩
  obtain ⟨b, hb⟩ := Option.isSome_iff_exists.mp hb
  obtain ⟨selection, hselected, hbuffer, htexture⟩ := DepthSelector.select_manual
    (s := { DepthSelector.ofConfig e.config.depth with manual := e.depthOverride }) hmanual tracker
    b.width b.height
  have hselection : e.selectDepth b tracker = some selection := hselected
  have hwanted : selection.texture = (e.config.depth.effectiveClear?.bind
    (tracker.snapshotAt? r)).getD r := htexture
  rw [DepthConfig.effectiveClear?_bind_snapshotAt?] at hwanted
  obtain ⟨techniques, cs, -, -, hpresent⟩ := present_eq hb tracker
  rw [hpresent]
  refine ⟨?_, ?_⟩
  · change (e.selectDepth b tracker).map (·.depthBuffer) = some r
    rw [hselection, Option.map_some, hbuffer]
  · rw [pointed, DepthAlias.texture_point, hselection, ← hwanted]
    rfl

/-- A depth buffer is chosen by hand that the application draws with and clears, and of which the
host took a copy: the copy stands for it. -/
theorem present_manual_snapshot :
    let s := ((((Session.small.step
      (.create .texture fun _ ↦ Texture.make (.depthBuffer 4 4 1))).step
      (.create .texture fun _ ↦ Texture.make (.depthBuffer 4 4 1))).step
      (.configure { depth := { preserve := true } })).step (.overrideDepth (some ⟨10⟩)))
    let tracker :=
      ((({} : DepthTracker).bind ⟨10⟩ (.depthBuffer 4 4 1)).draw 3).clear ⟨10⟩ (some ⟨11⟩)
    s.engine.backbuffer.isSome ∧ s.engine.depthOverride = some ⟨10⟩ ∧
      (s.engine.present tracker).selection.map (·.depthBuffer) = some ⟨10⟩ ∧
      (s.engine.present tracker).depth.texture = some ⟨11⟩ := by
  intro s tracker
  have hb : s.engine.backbuffer.isSome := by decide +kernel
  obtain ⟨hbuffer, htexture⟩ := (present_manual ⟨10⟩ tracker).2 s.engine hb rfl
  exact ⟨hb, rfl, hbuffer, htexture.trans (by decide +kernel)⟩

end Engine

end EffectChain
