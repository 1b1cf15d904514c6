import EffectChain.Folder

/-!
# Files that were written

A file can be written wherever a path leads, unless it leads to a folder. It is what the path leads
to afterwards, and to write it once more changes nothing (`Folder.exists_write?`). The folders that
were there are still there (`Folder.entryAt_put_of_folder`), so the path leads on as before.
-/

namespace EffectChain

namespace Folder

variable {f f' : Folder}

def entryNamed (f : Folder) (name : String) : Option Entry :=
  match f.files.lookup name with
  | some contents => some (.file contents)
  | none => if f.files.any fun file ↦ (name ++ "/").isPrefixOf file.1 then some .folder else none

theorem entryAt_inside {names : List String} (h : names ≠ []) :
    f.entryAt (.inside names) = f.entryNamed ("/".intercalate names) := by
  cases names with
  | nil => exact absurd rfl h
  | cons part names => rfl

theorem entryNamed_put_self (f : Folder) (name : String) (contents : Bytes) :
    (f.put name contents).entryNamed name = some (.file contents) := by
  simp [entryNamed, put]

theorem put_put (f : Folder) (name : String) (contents : Bytes) :
    (f.put name contents).put name contents = f.put name contents := by
  simp [put]

theorem lookup_filter_of_ne {name other : String} (h : other ≠ name)
    (files : List (String × Bytes)) :
    (files.filter (·.1 ≠ name)).lookup other = files.lookup other := by
  induction files with
  | nil => rfl
  | cons file files ih =>
    by_cases hname : file.1 = name
    · have hother : (other == file.1) = false := beq_eq_false_iff_ne.mpr (hname ▸ h)
      rw [List.filter_cons_of_neg (by simp [hname]), ih, List.lookup_cons, hother]
    · rw [List.filter_cons_of_pos (by simp [hname]), List.lookup_cons, List.lookup_cons, ih]

theorem entryNamed_put_of_folder {name other : String} (contents : Bytes)
    (hname : f.entryNamed name ≠ some .folder) (hother : f.entryNamed other = some .folder) :
    (f.put name contents).entryNamed other = some .folder := by
  have hne : other ≠ name := by
    rintro rfl
    exact hname hother
  rw [entryNamed] at hother
  split at hother
  · cases hother
  · rename_i hlookup
    rw [Option.ite_none_right_eq_some] at hother
    obtain ⟨⟨file, hmem, hwithin⟩, -⟩ := hother.imp_left List.any_eq_true.mp
    have hstill : (f.put name contents).files.any
        (fun file ↦ (other ++ "/").isPrefixOf file.1) = true := by
      rw [List.any_eq_true]
      by_cases hfile : file.1 = name
      · exact ⟨(name, contents), List.mem_cons_self, hfile ▸ hwithin⟩
      · exact ⟨file, List.mem_cons_of_mem _ (List.mem_filter.mpr ⟨hmem, by simp [hfile]⟩), hwithin⟩
    have hnone : (f.put name contents).files.lookup other = none := by
      rw [put, List.lookup_cons, beq_eq_false_iff_ne.mpr hne, lookup_filter_of_ne hne, hlookup]
    rw [entryNamed, hnone, if_pos hstill]

variable {name : String} {contents : Bytes}

theorem entryAt_put_of_folder (hname : f.entryNamed name ≠ some .folder) {place : Place}
    (h : f.entryAt place = some .folder) : (f.put name contents).entryAt place = some .folder := by
  match place with
  | .outside | .inside [] => rfl
  | .inside (part :: names) => exact entryNamed_put_of_folder contents hname h

theorem follow_put (hname : f.entryNamed name ≠ some .folder) {place next : Place} {part : String}
    (h : f.follow place part = some next) :
    (f.put name contents).follow place part = some next := by
  have hfolder : f.entryAt place = some .folder := by
    unfold follow at h
    split at h
    · assumption
    · cases h
  unfold follow at h ⊢
  rw [hfolder] at h
  rw [entryAt_put_of_folder hname hfolder]
  exact h

theorem foldlM_follow_put (hname : f.entryNamed name ≠ some .folder) {parts : List String}
    {place last : Place} (h : parts.foldlM f.follow place = some last) :
    parts.foldlM (f.put name contents).follow place = some last := by
  induction parts generalizing place with
  | nil => exact h
  | cons part parts ih =>
    rw [List.foldlM_cons] at h ⊢
    obtain ⟨next, hnext, hrest⟩ := Option.bind_eq_some_iff.mp h
    exact Option.bind_eq_some_iff.mpr ⟨next, follow_put hname hnext, ih hrest⟩

/-- **A file that is written is there**, if its path leads to anything but a folder, and it makes no
difference to write it again. -/
theorem exists_write? {path : String} {place : Place} (hplace : f.place? path = some place)
    (hfile : f.entryAt place ≠ some .folder) (contents : Bytes) :
    ∃ f', f.write? path contents = some f' ∧ f'.find? path = some (.file contents) ∧
      f'.write? path contents = some f' := by
  match place with
  | .outside | .inside [] => exact absurd rfl hfile
  | .inside (part :: names) =>
    let name := "/".intercalate (part :: names)
    have hput : (f.put name contents).place? path = some (.inside (part :: names)) :=
      foldlM_follow_put hfile hplace
    have hfound : (f.put name contents).entryAt (.inside (part :: names)) = some (.file contents) :=
      entryNamed_put_self f name contents
    refine ⟨f.put name contents, ?_, ?_, ?_⟩
    · rw [write?, hplace]
      dsimp only
      split
      · exact absurd ‹_› hfile
      · rfl
      · rfl
    · rw [find?_eq_bind, hput]
      exact hfound
    · rw [write?, hput]
      simp only [hfound]
      exact congrArg some (put_put f name contents)

end Folder

end EffectChain
