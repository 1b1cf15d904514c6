import EffectChain.Yaml.Library
import Mathlib.Data.List.Nodup

/-!
# Fields of a mapping

A mapping is read entry by entry, if no known key is given twice (`Library.fields_eq_ok`). A field
is then the value of the one entry that has its key (`Fields.optional_cases`).
-/

namespace EffectChain.Yaml

def Fields.KnownOnce {ν : Type} (fields : Fields ν) (known : List String) : Prop :=
  ((fields.map (·.1)).filter (· ∈ known)).Nodup

namespace Fields

variable {ν : Type} {fields : Fields ν} {known : List String}

theorem KnownOnce.countP_le (honce : fields.KnownOnce known) {key : String} (hkey : key ∈ known) :
    fields.countP (fun field ↦ field.1 = key) ≤ 1 := by
  have hcount := List.nodup_iff_count_le_one.mp honce key
  rw [List.count_filter (by simpa using hkey), List.count_eq_countP, List.countP_map] at hcount
  exact hcount

theorem KnownOnce.eq (honce : fields.KnownOnce known) {field field' : String × ν}
    (hmem : field ∈ fields) (hmem' : field' ∈ fields) (hknown : field.1 ∈ known)
    (heq : field.1 = field'.1) : field = field' := by
  rw [KnownOnce, List.filter_map] at honce
  have hknown' : field'.1 ∈ known := heq ▸ hknown
  exact List.inj_on_of_nodup_map honce (List.mem_filter.mpr ⟨hmem, decide_eq_true hknown⟩)
    (List.mem_filter.mpr ⟨hmem', decide_eq_true hknown'⟩) heq

/-- A field is the value of the entry that has its key, or takes its default. -/
theorem optional_cases {α : Type} (fields : Fields ν) (key : String) (read : Reader α ν)
    (default : α) :
    (∃ field ∈ fields, field.1 = key ∧ fields.optional key read default = read field.2) ∨
    (∀ field ∈ fields, field.1 ≠ key) ∧ fields.optional key read default = .ok default := by
  rcases hlookup : fields.lookup key with _ | node
  · refine Or.inr ⟨?_, by rw [Fields.optional, hlookup]⟩
    rintro field hmem rfl
    have hne := List.lookup_eq_none_iff.mp hlookup _ hmem
    simp at hne
  · obtain ⟨before, after, hsplit, -⟩ := List.lookup_eq_some_iff.mp hlookup
    exact Or.inl ⟨(key, node), hsplit ▸ by simp, rfl, by rw [Fields.optional, hlookup]⟩

end Fields

/-- **A mapping is read entry by entry**, whatever unknown keys it has. -/
theorem Library.fields_eq_ok {yaml : Library} {node : yaml.Node} {fields : Fields yaml.Node}
    {known : List String} (hentries : yaml.entries node = .ok fields)
    (honce : fields.KnownOnce known) : yaml.fields known node = .ok fields := by
  have hnone : (known.find? fun key ↦ 1 < fields.countP fun field ↦ field.1 = key) = none := by
    refine List.find?_eq_none.mpr fun key hkey ↦ ?_
    simpa using honce.countP_le hkey
  rw [Library.fields, hentries]
  simp only [bind, Except.bind, hnone]
  rfl

end EffectChain.Yaml
