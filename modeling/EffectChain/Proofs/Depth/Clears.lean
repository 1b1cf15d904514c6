import EffectChain.Proofs.Depth.Accounting
import EffectChain.Proofs.Depth.Choice
import EffectChain.Proofs.Frame.ManualDepth

/-!
# The clear that counts

If clears are preserved, the copy that was taken at one of them stands for the selected depth
buffer. Which clear that is follows from the copies that a history tells of (`clearings`) and from
the number that is configured: the clear of that number, counted from one, and the last if there is
none of that number (`DepthHistory.select_clear`). Zero is replaced by the largest number on the way
from the configuration to the selector, and cut back to the number of clears there, so zero and all
numbers from that of the last clear on mean the same.
-/

namespace EffectChain

/-- The number of the clear in effect, out of `count`: the one configured if there is such a clear,
else the last. -/
def DepthConfig.clearOutOf (c : DepthConfig) (count : Nat) : Nat :=
  if 1 ≤ c.clearNumber.toNat ∧ c.clearNumber.toNat ≤ count then c.clearNumber.toNat else count

theorem DepthConfig.clearOutOf_eq_count {c : DepthConfig} {count : Nat}
    (hnumber : c.clearNumber = 0 ∨ count ≤ c.clearNumber.toNat) : c.clearOutOf count = count := by
  rw [clearOutOf]
  split
  · rename_i hrange
    rcases hnumber with hzero | hle
    · rw [hzero] at hrange
      exact absurd hrange.1 (by decide)
    · omega
  · rfl

theorem DepthConfig.clearOutOf_pos (c : DepthConfig) {count : Nat} (hcount : 0 < count) :
    0 < c.clearOutOf count ∧ c.clearOutOf count ≤ count := by
  rw [clearOutOf]
  split <;> omega

namespace DepthHistory

variable {past : DepthHistory} {h : Handle .texture}

/-- The copies of a depth buffer that were taken at its clears, in order. -/
def snapshots (h : Handle .texture) (past : DepthHistory) : List (Option (Handle .texture)) :=
  (clearings h past).map Clearing.snapshot

/-- How many clears there were in the frame, of any depth buffer. -/
def clearCount : DepthHistory → Nat
  | [] | .reset :: _ => 0
  | .clear .. :: past => clearCount past + 1
  | .bind .. :: past | .unbind :: past | .draw _ :: past => clearCount past

theorem length_snapshots_le (h : Handle .texture) (past : DepthHistory) :
    (snapshots h past).length ≤ clearCount past := by
  rw [snapshots, List.length_map]
  induction past with
  | nil => exact Nat.le_refl _
  | cons event past ih =>
    cases event with
    | clear k snapshot =>
      rw [clearings, clearCount]
      split
      · rw [List.length_append, List.length_singleton]
        exact Nat.succ_le_succ ih
      · exact Nat.le_succ_of_le ih
    | reset => exact Nat.le_refl _
    | _ => exact ih

/-- The number that a selector is given is resolved like the one that is configured. -/
theorem clearInEffect_effectiveClear {c : DepthConfig} {wanted : UInt32}
    (hwanted : c.effectiveClear? = some wanted) {count : Nat} (hcount : count < UInt32.size) :
    DepthSelector.clearInEffect wanted count = c.clearOutOf count := by
  have hpreserve : ¬(!c.preserve) = true := fun hpreserve ↦ by
    rw [DepthConfig.effectiveClear?, if_pos hpreserve] at hwanted
    cases hwanted
  rw [DepthConfig.effectiveClear?, if_neg hpreserve] at hwanted
  rw [DepthCandidate.clearInEffect_eq, DepthConfig.clearOutOf, ← Option.some.inj hwanted]
  by_cases hzero : c.clearNumber = 0
  · have hmax : (0xFFFFFFFF : UInt32).toNat = UInt32.size - 1 := rfl
    rw [if_pos hzero, hmax, hzero, UInt32.toNat_zero]
    split <;> split <;> omega
  · rw [if_neg hzero]
    have hpos : c.clearNumber.toNat ≠ 0 := fun h ↦ hzero (UInt32.toNat_inj.mp h)
    split <;> split <;> omega

theorem map_snapshot_of_candidate? {c : DepthCandidate}
    (hc : (tracker past).candidate? h = some c) : c.clears.map (·.snapshot) = snapshots h past := by
  rw [snapshots, ← List.forall₂_eq_eq_eq, List.forall₂_map_left_iff, List.forall₂_map_right_iff]
  exact (accounts_of_candidate? hc).clears.imp fun r clearing hr ↦ hr.snapshot

/-- A depth buffer stands for itself if no clear of it is to be had. -/
theorem preservedClear?_eq_none {config : DepthConfig}
    (hnone : config.preserve = false ∨ snapshots h past = []) :
    (DepthSelector.ofConfig config).preservedClear? (tracker past) h = none := by
  rcases hwanted : config.effectiveClear? with _ | wanted
  · rw [DepthSelector.preservedClear?, DepthSelector.ofConfig, hwanted]
    rfl
  · have hempty : snapshots h past = [] := by
      refine hnone.resolve_left fun hpreserve ↦ ?_
      simp [DepthConfig.effectiveClear?, hpreserve] at hwanted
    rcases hcandidate : (tracker past).candidate? h with _ | c
    · rw [DepthSelector.preservedClear?, hcandidate, DepthSelector.ofConfig, hwanted]
      rfl
    · have hclears : c.clears = [] :=
        List.map_eq_nil_iff.mp ((map_snapshot_of_candidate? hcandidate).trans hempty)
      simp [DepthSelector.preservedClear?, hcandidate, DepthSelector.ofConfig, hwanted, hclears,
        DepthCandidate.clearInEffect_eq_zero_iff]

/-- Else the copy from the clear in effect stands for it, if one was taken then. -/
theorem preservedClear?_eq_some {config : DepthConfig} (hpreserve : config.preserve = true)
    (hsome : snapshots h past ≠ []) (hcount : (snapshots h past).length < UInt32.size) :
    ∃ copy, (snapshots h past)[config.clearOutOf (snapshots h past).length - 1]? = some copy ∧
      (DepthSelector.ofConfig config).preservedClear? (tracker past) h
        = some (copy.getD h, UInt32.ofNat (config.clearOutOf (snapshots h past).length)) := by
  obtain ⟨wanted, hwanted⟩ : ∃ wanted, config.effectiveClear? = some wanted := by
    rw [DepthConfig.effectiveClear?, hpreserve]
    exact ⟨_, rfl⟩
  rcases candidate?_tracker past h with ⟨-, hunused⟩ | ⟨c, hc, -⟩
  · obtain ⟨-, -, -, hclearings⟩ := unused_of_description? hunused
    exact absurd (congrArg (List.map Clearing.snapshot) hclearings) hsome
  · have hsnapshots := map_snapshot_of_candidate? hc
    have hnumber := clearInEffect_effectiveClear hwanted hcount
    rw [← hsnapshots, List.length_map] at hnumber hcount ⊢
    have hpos : 0 < c.clears.length := by
      rwa [← hsnapshots, ← List.length_pos_iff, List.length_map] at hsome
    obtain ⟨hnumber_pos, hle⟩ := config.clearOutOf_pos hpos
    have hrange : config.clearOutOf c.clears.length - 1 < c.clears.length := by omega
    have hneither : ¬(config.clearOutOf c.clears.length = 0 ∨ UInt32.size ≤ c.clears.length) := by
      omega
    refine ⟨c.clears[config.clearOutOf c.clears.length - 1].snapshot, ?_, ?_⟩
    · rw [List.getElem?_map, List.getElem?_eq_getElem hrange, Option.map_some]
    · simp only [DepthSelector.preservedClear?, DepthSelector.ofConfig, hwanted, hc, hnumber,
        Option.bind_eq_bind, Option.bind_some, if_neg hneither, List.getElem?_eq_getElem hrange]
      rfl

end DepthHistory

/-! ## The selection -/

namespace DepthSelection

/-- What a selection makes of the copies that were taken at the clears of its depth buffer. -/
structure Follows (selection : DepthSelection) (config : DepthConfig)
    (copies : List (Option (Handle .texture))) : Prop where
  /-- Without copies the depth buffer stands for itself, and no clear is reported. -/
  live : config.preserve = false ∨ copies = [] →
    selection.texture = selection.depthBuffer ∧ selection.clearNumber = none
  /-- Else the clear in effect is reported, and its copy stands for the depth buffer, if one was
  taken. -/
  preserved : config.preserve = true → copies ≠ [] → ∃ n copy, selection.clearNumber = some n ∧
    n.toNat = config.clearOutOf copies.length ∧ copies[n.toNat - 1]? = some copy ∧
    selection.texture = copy.getD selection.depthBuffer

/-- The copies and the clear in effect settle the selection of a depth buffer. -/
theorem Follows.eq {a b : DepthSelection} {config config' : DepthConfig}
    {copies : List (Option (Handle .texture))} (ha : a.Follows config copies)
    (hb : b.Follows config' copies) (hbuffer : b.depthBuffer = a.depthBuffer)
    (hpreserve : config'.preserve = config.preserve)
    (hclear : config.preserve = true → copies ≠ [] →
      config'.clearOutOf copies.length = config.clearOutOf copies.length) : b = a := by
  obtain ⟨buffer, texture, number⟩ := a
  obtain ⟨buffer', texture', number'⟩ := b
  obtain rfl : buffer' = buffer := hbuffer
  by_cases hlive : config.preserve = false ∨ copies = []
  · obtain ⟨htexture, hnumber⟩ := ha.live hlive
    obtain ⟨htexture', hnumber'⟩ := hb.live (hpreserve ▸ hlive)
    dsimp only at htexture hnumber htexture' hnumber'
    rw [htexture, hnumber, htexture', hnumber']
  · obtain ⟨hon, hcopies⟩ := not_or.mp hlive
    rw [Bool.not_eq_false] at hon
    obtain ⟨n, copy, hnumber, hn, hcopy, htexture⟩ := ha.preserved hon hcopies
    obtain ⟨n', copy', hnumber', hn', hcopy', htexture'⟩ :=
      hb.preserved (hpreserve.trans hon) hcopies
    obtain rfl : n' = n := UInt32.toNat_inj.mp ((hn'.trans (hclear hon hcopies)).trans hn.symm)
    obtain rfl : copy' = copy := Option.some.inj (hcopy'.symm.trans hcopy)
    dsimp only at hnumber htexture hnumber' htexture'
    rw [htexture, hnumber, htexture', hnumber']

end DepthSelection

namespace DepthHistory

variable {past : DepthHistory}

theorem follows_select {config : DepthConfig} {width height : UInt32} {selection : DepthSelection}
    (hcount : clearCount past < UInt32.size)
    (hselected : (DepthSelector.ofConfig config).select (tracker past) width height
      = some selection) :
    selection.Follows config (snapshots selection.depthBuffer past) := by
  obtain ⟨h, -, rfl⟩ := Option.map_eq_some_iff.mp hselected
  have hfew := (length_snapshots_le h past).trans_lt hcount
  by_cases hlive : config.preserve = false ∨ snapshots h past = []
  · rw [preservedClear?_eq_none hlive]
    refine ⟨fun _ ↦ ⟨rfl, rfl⟩, fun hon hcopies ↦ ?_⟩
    rcases hlive with hoff | hempty
    · exact Bool.noConfusion (hon.symm.trans hoff)
    · exact absurd hempty hcopies
  · obtain ⟨hon, hcopies⟩ := not_or.mp hlive
    rw [Bool.not_eq_false] at hon
    obtain ⟨copy, hcopy, hclear⟩ := preservedClear?_eq_some hon hcopies hfew
    have hle := (config.clearOutOf_pos (List.length_pos_iff.mpr hcopies)).2
    have hnumber := UInt32.toNat_ofNat_of_lt' (hle.trans_lt hfew)
    rw [hclear]
    refine ⟨fun hlive' ↦ absurd hlive' hlive, fun _ _ ↦ ⟨_, copy, rfl, hnumber, ?_, rfl⟩⟩
    rw [hnumber]
    exact hcopy

/-- **The clear that counts.** Which depth buffer is selected does not depend on the settings of
clears. If clears are preserved and there were any, what stands for it is the copy from the clear
in effect, and the depth buffer itself if no copy was taken then. The configured number has no
influence otherwise, and neither has it among zero and the numbers from that of the last clear
on. -/
theorem select_clear (past : DepthHistory) (config : DepthConfig) (width height : UInt32)
    (hcount : clearCount past < UInt32.size) :
    let selected (config : DepthConfig) :=
      (DepthSelector.ofConfig config).select (tracker past) width height
    (∀ config', config'.matchAspect = config.matchAspect →
      (selected config').map (·.depthBuffer) = (selected config).map (·.depthBuffer)) ∧
    ∀ selection, selected config = some selection →
      let copies := snapshots selection.depthBuffer past
      let atEnd (n : UInt32) := n = 0 ∨ copies.length ≤ n.toNat
      selection.Follows config copies ∧
      ∀ n, config.preserve = false ∨ copies = [] ∨ atEnd config.clearNumber ∧ atEnd n →
        selected { config with clearNumber := n } = some selection := by
  intro selected
  have hbuffer (config' : DepthConfig) (hmatch : config'.matchAspect = config.matchAspect) :
      (selected config').map (·.depthBuffer) = (selected config).map (·.depthBuffer) := by
    rw [DepthSelector.map_depthBuffer_select rfl, DepthSelector.map_depthBuffer_select rfl]
    simp only [DepthSelector.bestCandidate, DepthSelector.eligible, DepthSelector.ofConfig, hmatch]
  refine ⟨hbuffer, fun selection hselected ↦ ?_⟩
  have hfollows := follows_select hcount hselected
  refine ⟨hfollows, fun n hn ↦ ?_⟩
  have hsame := hbuffer { config with clearNumber := n } rfl
  rw [hselected, Option.map_some] at hsame
  obtain ⟨selection', hselected', hsame⟩ := Option.map_eq_some_iff.mp hsame
  have hfollows' := follows_select hcount hselected'
  rw [hsame] at hfollows'
  rw [hselected', hfollows.eq hfollows' hsame rfl fun hon hcopies ↦ ?_]
  rcases hn with hoff | hempty | ⟨hend, hend'⟩
  · exact Bool.noConfusion (hon.symm.trans hoff)
  · exact absurd hempty hcopies
  · rw [DepthConfig.clearOutOf_eq_count hend, DepthConfig.clearOutOf_eq_count hend']

/-- Of the second clear no copy was taken. It is in effect for the number 7, and for zero. -/
theorem select_clear_small :
    let past : DepthHistory := [.clear ⟨1⟩ none, .draw 50, .clear ⟨1⟩ (some ⟨100⟩), .draw 1000,
      .bind ⟨1⟩ (.depthBuffer 4 4 1), .clear ⟨1⟩ (some ⟨99⟩)]
    let config : DepthConfig := { preserve := true, clearNumber := 7, matchAspect := false }
    let selection : DepthSelection := ⟨⟨1⟩, ⟨1⟩, some 2⟩
    clearCount past < UInt32.size ∧
      (DepthSelector.ofConfig config).select (tracker past) 4 4 = some selection ∧
      snapshots ⟨1⟩ past = [some ⟨100⟩, none] ∧ selection.Follows config (snapshots ⟨1⟩ past) ∧
      (DepthSelector.ofConfig { config with clearNumber := 0 }).select (tracker past) 4 4
        = some selection := by
  intro past config selection
  have hcount : clearCount past < UInt32.size := by decide
  have hselected : (DepthSelector.ofConfig config).select (tracker past) 4 4 = some selection := by
    decide +kernel
  obtain ⟨hfollows, hsame⟩ := (select_clear past config 4 4 hcount).2 selection hselected
  exact ⟨hcount, hselected, rfl, hfollows,
    hsame 0 (Or.inr (Or.inr ⟨Or.inr (by decide), Or.inl rfl⟩))⟩

end DepthHistory

end EffectChain
