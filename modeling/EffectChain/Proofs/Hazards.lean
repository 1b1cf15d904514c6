import EffectChain.Engine.Hazard
import Mathlib.Data.List.Forall2
import Mathlib.Tactic.Common

/-!
# Removing hazards

A slot is a hazard if it stands for a view of a texture that an output draws into
(`ViewSlot.Hazardous`). This is said with the views themselves, so that it is plain which of the
views of a texture take part: any of them does. The main statement is that hazards are removed
exactly (`resolveHazards_exact`): each of them, nothing else, and for no reason but the textures
behind the views.
-/

namespace EffectChain

variable {d : Device} {inputs : List ViewSlot} {outputs : List (Option (Handle .renderTargetView))}
variable {resolve : ViewSlot → Option (Handle .shaderView)}

/-- One of the outputs is a view of the texture. -/
def DrawnInto (d : Device) (outputs : List (Option (Handle .renderTargetView)))
    (texture : Handle .texture) : Prop :=
  ∃ target, some target ∈ outputs ∧ d.targetTexture? target = some texture

/-- The slot stands for a view of a texture that one of the outputs is a view of too. -/
def ViewSlot.Hazardous (d : Device) (outputs : List (Option (Handle .renderTargetView)))
    (resolve : ViewSlot → Option (Handle .shaderView)) (slot : ViewSlot) : Prop :=
  ∃ view texture, resolve slot = some view ∧ d.viewTexture? view = some texture ∧
    DrawnInto d outputs texture

theorem mem_writtenTextures {texture : Handle .texture} :
    texture ∈ writtenTextures d outputs ↔ DrawnInto d outputs texture := by
  simp only [writtenTextures, List.mem_filterMap, Option.bind_eq_some_iff, DrawnInto]
  constructor
  · rintro ⟨output, houtput, target, rfl, htexture⟩
    exact ⟨target, houtput, htexture⟩
  · rintro ⟨target, houtput, htexture⟩
    exact ⟨some target, houtput, target, rfl, htexture⟩

theorem ViewSlot.conflicts_iff_hazardous {slot : ViewSlot} :
    slot.conflicts d (writtenTextures d outputs) resolve = true ↔
      slot.Hazardous d outputs resolve := by
  simp only [conflicts, Option.any_eq_true, Option.bind_eq_some_iff, decide_eq_true_eq,
    mem_writtenTextures, Hazardous]
  constructor
  · rintro ⟨texture, ⟨view, hview, htexture⟩, hdrawn⟩
    exact ⟨view, texture, hview, htexture, hdrawn⟩
  · rintro ⟨view, texture, hview, htexture, hdrawn⟩
    exact ⟨texture, ⟨view, hview, htexture⟩, hdrawn⟩

theorem ViewSlot.not_hazardous_of_eq_none {slot : ViewSlot} (h : resolve slot = none) :
    ¬ slot.Hazardous d outputs resolve := by
  rintro ⟨view, texture, hview, -, -⟩
  rw [h] at hview
  cases hview

/-- What conflicts depends on the textures behind the views, and on nothing else. -/
theorem ViewSlot.conflicts_eq_of_textures {slot slot' : ViewSlot}
    {outputs' : List (Option (Handle .renderTargetView))}
    {resolve' : ViewSlot → Option (Handle .shaderView)}
    (hdrawn : ∀ texture, DrawnInto d outputs' texture ↔ DrawnInto d outputs texture)
    (hread : (resolve' slot').bind d.viewTexture? = (resolve slot).bind d.viewTexture?) :
    slot'.conflicts d (writtenTextures d outputs') resolve'
      = slot.conflicts d (writtenTextures d outputs) resolve := by
  have hwritten : ∀ texture, texture ∈ writtenTextures d outputs' ↔
      texture ∈ writtenTextures d outputs := by
    intro texture
    rw [mem_writtenTextures, mem_writtenTextures, hdrawn]
  simp only [conflicts, hread, hwritten]

/-! ## What changes -/

/-- Which places of the first list hold something else in the second. -/
def changedSlots (before after : List ViewSlot) : List Bool :=
  List.zipWith (fun slot slot' ↦ decide (slot ≠ slot')) before after

/-- A slot changes if it is a hazard, for an empty slot is none. -/
theorem changedSlots_resolveHazards (hempty : resolve .empty = none) (d : Device)
    (inputs : List ViewSlot) (outputs : List (Option (Handle .renderTargetView))) :
    changedSlots inputs (resolveHazards d inputs outputs resolve).2
      = inputs.map fun slot ↦ slot.conflicts d (writtenTextures d outputs) resolve := by
  rw [changedSlots, resolveHazards, List.zipWith_map_right, List.zipWith_self]
  refine List.map_congr_left fun slot _ ↦ ?_
  by_cases h : slot.conflicts d (writtenTextures d outputs) resolve = true
  · have hne : slot ≠ .empty := by
      rintro rfl
      exact ViewSlot.not_hazardous_of_eq_none hempty (ViewSlot.conflicts_iff_hazardous.mp h)
    simp [h, hne]
  · simp [h]

/-- Hazards are emptied, and anything else stays what it is where it is. -/
theorem forall₂_resolveHazards (d : Device) (inputs : List ViewSlot)
    (outputs : List (Option (Handle .renderTargetView)))
    (resolve : ViewSlot → Option (Handle .shaderView)) :
    List.Forall₂ (fun input slot ↦
        (input.Hazardous d outputs resolve → slot = .empty) ∧
          (¬ input.Hazardous d outputs resolve → slot = input))
      inputs (resolveHazards d inputs outputs resolve).2 := by
  refine List.forall₂_map_right_iff.mpr (List.forall₂_same.mpr fun input _ ↦ ?_)
  rw [← ViewSlot.conflicts_iff_hazardous]
  exact ⟨fun h ↦ if_pos h, fun h ↦ if_neg h⟩

theorem not_hazardous_of_mem_resolveHazards (hempty : resolve .empty = none) {slot : ViewSlot}
    (h : slot ∈ (resolveHazards d inputs outputs resolve).2) :
    ¬ slot.Hazardous d outputs resolve := by
  obtain ⟨input, -, hslot⟩ := List.mem_map.mp h
  split at hslot
  · subst hslot
    exact ViewSlot.not_hazardous_of_eq_none hempty
  · rename_i hconflicts
    subst hslot
    exact fun hhazard ↦ hconflicts (ViewSlot.conflicts_iff_hazardous.mpr hhazard)

theorem resolveHazards_of_forall_not (h : ∀ slot ∈ inputs, ¬ slot.Hazardous d outputs resolve) :
    resolveHazards d inputs outputs resolve = (0, inputs) := by
  have hsafe : ∀ slot ∈ inputs, slot.conflicts d (writtenTextures d outputs) resolve ≠ true :=
    fun slot hslot hconflicts ↦ h slot hslot (ViewSlot.conflicts_iff_hazardous.mp hconflicts)
  rw [resolveHazards, List.countP_eq_zero.mpr hsafe,
    List.map_congr_left fun slot hslot ↦ if_neg (hsafe slot hslot), List.map_id']

/-! ## Exactness -/

/-- What it means that `slots` are the `inputs` without their hazards, and that `emptied` of them
changed. -/
structure HazardsRemoved (d : Device) (inputs : List ViewSlot)
    (outputs : List (Option (Handle .renderTargetView)))
    (resolve : ViewSlot → Option (Handle .shaderView)) (emptied : Nat) (slots : List ViewSlot) :
    Prop where
  /-- A hazard is emptied, and anything else stays what it is where it is. -/
  exact : List.Forall₂ (fun input slot ↦
      (input.Hazardous d outputs resolve → slot = .empty) ∧
        (¬ input.Hazardous d outputs resolve → slot = input)) inputs slots
  /-- As many are counted as there are places that changed. -/
  counted : emptied = (changedSlots inputs slots).count true
  /-- No hazard is left. -/
  safe : ∀ slot ∈ slots, ¬ slot.Hazardous d outputs resolve
  /-- There is nothing left to do. -/
  stable : resolveHazards d slots outputs resolve = (0, slots)
  /-- Outputs that draw into the same textures give the same result: neither their order, nor how
  often they are repeated, nor by which view they draw into a texture makes a difference. -/
  same_outputs : ∀ outputs',
    (∀ texture, DrawnInto d outputs' texture ↔ DrawnInto d outputs texture) →
    resolveHazards d inputs outputs' resolve = (emptied, slots)
  /-- Inputs that stand for other views of the same textures change in the same places. -/
  same_inputs : ∀ inputs' resolve', resolve' .empty = none →
    List.Forall₂ (fun slot slot' ↦
      (resolve' slot').bind d.viewTexture? = (resolve slot).bind d.viewTexture?) inputs inputs' →
    changedSlots inputs' (resolveHazards d inputs' outputs resolve').2 = changedSlots inputs slots

/-- **Hazards are removed exactly.** Whatever the device holds, and whatever the slots and outputs
are, all hazards are emptied and nothing else changes. -/
theorem resolveHazards_exact (hempty : resolve .empty = none) (d : Device)
    (inputs : List ViewSlot) (outputs : List (Option (Handle .renderTargetView))) :
    HazardsRemoved d inputs outputs resolve (resolveHazards d inputs outputs resolve).1
      (resolveHazards d inputs outputs resolve).2 where
  exact := forall₂_resolveHazards d inputs outputs resolve
  counted := by
    rw [changedSlots_resolveHazards hempty, List.count, List.countP_map]
    exact List.countP_congr fun slot _ ↦ by simp
  safe slot hslot := not_hazardous_of_mem_resolveHazards hempty hslot
  stable := resolveHazards_of_forall_not fun slot hslot ↦
    not_hazardous_of_mem_resolveHazards hempty hslot
  same_outputs outputs' hdrawn := by
    have hconflicts : ∀ slot : ViewSlot, slot.conflicts d (writtenTextures d outputs') resolve
        = slot.conflicts d (writtenTextures d outputs) resolve :=
      fun slot ↦ ViewSlot.conflicts_eq_of_textures hdrawn rfl
    simp only [resolveHazards, hconflicts]
  same_inputs inputs' resolve' hempty' hread := by
    rw [changedSlots_resolveHazards hempty', changedSlots_resolveHazards hempty]
    have hdrawn : ∀ texture, DrawnInto d outputs texture ↔ DrawnInto d outputs texture :=
      fun _ ↦ Iff.rfl
    have hconflicts := hread.imp fun slot slot' h ↦ ViewSlot.conflicts_eq_of_textures hdrawn h
    rw [← List.forall₂_eq_eq_eq, List.forall₂_map_left_iff, List.forall₂_map_right_iff]
    exact hconflicts.flip

/-- Of five slots the linear and the gamma-encoded view of the texture that is drawn into are
emptied, the view of another texture, a view that is gone and an empty slot stay, and the target is
bound twice. -/
theorem resolveHazards_small :
    let view := fun texture : Nat ↦ (⟨⟨texture⟩, .rgba8Unorm⟩ : View)
    let d : Device := { objects := [⟨.shaderView, 2, view 1⟩, ⟨.shaderView, 3, view 1⟩,
      ⟨.renderTargetView, 4, view 1⟩, ⟨.shaderView, 6, view 5⟩] }
    let resolve : ViewSlot → Option (Handle .shaderView) := fun slot ↦
      match slot with
      | .view v => some v
      | .backbuffer _ => some ⟨3⟩
      | .depth | .empty => none
    let inputs : List ViewSlot := [.view ⟨2⟩, .view ⟨6⟩, .backbuffer true, .view ⟨9⟩, .empty]
    let slots : List ViewSlot := [.empty, .view ⟨6⟩, .empty, .view ⟨9⟩, .empty]
    resolve .empty = none ∧ HazardsRemoved d inputs [some ⟨4⟩, none, some ⟨4⟩] resolve 2 slots := by
  intro view d resolve inputs slots
  have hresult : resolveHazards d inputs [some ⟨4⟩, none, some ⟨4⟩] resolve = (2, slots) := by
    decide +kernel
  have hempty : resolve .empty = none := rfl
  have h := resolveHazards_exact hempty d inputs [some ⟨4⟩, none, some ⟨4⟩]
  rw [hresult] at h
  exact ⟨hempty, h⟩

end EffectChain
