import EffectChain.Proofs.Yaml.Numerals
import EffectChain.Yaml.Library

/-!
# Faithful libraries

A library is faithful if what it writes is read back: the root of the text stands for the value that
was written (`Library.Stands`), entry by entry. That much is asked of it only for mappings whose
keys are different words, of truth values, words and such mappings (`Data.Simple`). The library at
hand is faithful (`Library.faithful_builtin`).
-/

namespace EffectChain.Yaml

/-! ## The law -/

/-- What can be written in any style: no key has to be quoted, and none is given twice. -/
inductive Data.Simple : Data → Prop
  /-- A truth value. -/
  | bool (value : Bool) : Simple (.bool value)
  /-- A word. -/
  | word (value : UInt32) : Simple (.word value)
  /-- A mapping with different words as keys. -/
  | mapping {entries : List (String × Data)} : (entries.map (·.1)).Nodup →
    (∀ entry ∈ entries, Node.IsKey entry.1) → (∀ entry ∈ entries, Simple entry.2) →
    Simple (.mapping entries)

namespace Library

mutual

/-- A node is read as a value. -/
inductive Stands (yaml : Library) : yaml.Node → Data → Prop
  /-- It is a truth value. -/
  | bool {node : yaml.Node} {value : Bool} : yaml.bool node = .ok value →
    Stands yaml node (.bool value)
  /-- It is a word. -/
  | word {node : yaml.Node} {value : UInt32} : yaml.word node = .ok value →
    Stands yaml node (.word value)
  /-- It is a mapping with the same keys in the same order. -/
  | mapping {node : yaml.Node} {fields : Fields yaml.Node} {entries : List (String × Data)} :
    yaml.entries node = .ok fields → EntriesStand yaml fields entries →
    Stands yaml node (.mapping entries)

/-- Fields are read as entries, one by one. -/
inductive EntriesStand (yaml : Library) : Fields yaml.Node → List (String × Data) → Prop
  /-- There are none. -/
  | nil : EntriesStand yaml [] []
  /-- There is one, and there are others. -/
  | cons {key : String} {node : yaml.Node} {value : Data} {fields : Fields yaml.Node}
    {entries : List (String × Data)} : Stands yaml node value → EntriesStand yaml fields entries →
    EntriesStand yaml ((key, node) :: fields) ((key, value) :: entries)

end

/-- What is written is read back. -/
structure Faithful (yaml : Library) : Prop where
  /-- The text of a mapping is a document that stands for it. -/
  reads : ∀ entries : List (String × Data), entries ≠ [] → (Data.mapping entries).Simple →
    ∃ node, yaml.parse (yaml.render (.mapping entries)) = .ok node ∧
      yaml.Stands node (.mapping entries)
  /-- Its keys are written as they are. -/
  keys : ∀ entries : List (String × Data), (Data.mapping entries).Simple →
    ∀ entry ∈ entries, entry.1.toList <:+: (yaml.render (.mapping entries)).toList

namespace EntriesStand

variable {yaml : Library} {fields : Fields yaml.Node} {entries : List (String × Data)}

theorem map_fst (h : yaml.EntriesStand fields entries) :
    fields.map (·.1) = entries.map (·.1) := by
  induction entries generalizing fields with
  | nil =>
    rcases h with _ | _
    rfl
  | cons entry entries ih =>
    rcases h with _ | ⟨-, hrest⟩
    rw [List.map_cons, List.map_cons, ih hrest]

theorem exists_field (h : yaml.EntriesStand fields entries) {entry : String × Data}
    (hentry : entry ∈ entries) :
    ∃ field ∈ fields, field.1 = entry.1 ∧ yaml.Stands field.2 entry.2 := by
  induction entries generalizing fields with
  | nil => cases hentry
  | cons first entries ih =>
    rcases h with _ | ⟨hfirst, hrest⟩
    rcases List.mem_cons.mp hentry with rfl | hentry
    · exact ⟨_, List.mem_cons_self, rfl, hfirst⟩
    · obtain ⟨field, hmem, hfield⟩ := ih hrest hentry
      exact ⟨field, List.mem_cons_of_mem _ hmem, hfield⟩

theorem exists_entry (h : yaml.EntriesStand fields entries) {field : String × yaml.Node}
    (hfield : field ∈ fields) :
    ∃ entry ∈ entries, entry.1 = field.1 ∧ yaml.Stands field.2 entry.2 := by
  induction entries generalizing fields with
  | nil =>
    rcases h with _ | _
    cases hfield
  | cons first entries ih =>
    rcases h with _ | ⟨hfirst, hrest⟩
    rcases List.mem_cons.mp hfield with rfl | hfield
    · exact ⟨_, List.mem_cons_self, rfl, hfirst⟩
    · obtain ⟨entry, hmem, hentry⟩ := ih hrest hfield
      exact ⟨entry, List.mem_cons_of_mem _ hmem, hentry⟩

end EntriesStand

end Library

/-! ## The library at hand -/

namespace Node

theorem ofEntries_eq_map (entries : List (String × Data)) :
    ofEntries entries = entries.map fun entry ↦ (.plain entry.1, ofData entry.2) := by
  induction entries with
  | nil => rw [ofEntries, List.map_nil]
  | cons entry entries ih => rw [ofEntries, ofEntry, List.map_cons, ih]

theorem ofData_mapping {entries : List (String × Data)} (h : entries ≠ []) :
    ofData (.mapping entries)
      = .mapping (entries.map fun entry ↦ (.plain entry.1, ofData entry.2)) := by
  obtain ⟨entry, rest, rfl⟩ := List.exists_cons_of_ne_nil h
  rw [ofData, ofEntries_eq_map, ofEntry, List.map_cons]

theorem entriesWritable_map {entries : List (String × Data)}
    (hkeys : ∀ entry ∈ entries, IsKey entry.1)
    (hvalues : ∀ entry ∈ entries, (ofData entry.2).Writable) :
    EntriesWritable (entries.map fun entry ↦ (.plain entry.1, ofData entry.2)) := by
  induction entries with
  | nil => trivial
  | cons entry entries ih =>
    rw [List.forall_mem_cons] at hkeys hvalues
    exact ⟨⟨⟨entry.1, rfl, hkeys.1⟩, hvalues.1⟩, ih hkeys.2 hvalues.2⟩

theorem isInfix_chars_lines {entries : List (Node × Node)} {entry : Node × Node}
    (h : entry ∈ entries) (depth : Nat) :
    entry.1.scalarText.toList <:+: chars (lines depth entries) := by
  induction entries with
  | nil => cases h
  | cons first rest ih =>
    rw [lines, chars_append]
    rcases List.mem_cons.mp h with rfl | h
    · refine List.IsInfix.trans ?_ (List.prefix_append _ _).isInfix
      rw [chars_entryLines]
      refine List.IsInfix.trans ?_ (List.suffix_append _ _).isInfix
      exact (List.prefix_append _ _).isInfix
    · exact (ih h).trans (List.suffix_append _ _).isInfix

theorem writable_ofData {data : Data} (h : data.Simple) : (ofData data).Writable := by
  induction h with
  | bool value =>
    rw [ofData]
    exact writable_ofBool value
  | word value =>
    rw [ofData]
    exact writable_ofWord value
  | @mapping entries _ hkeys _ ih =>
    by_cases hempty : entries = []
    · subst hempty
      exact ⟨rfl, by decide⟩
    · rw [ofData_mapping hempty]
      exact ⟨by simpa using hempty, entriesWritable_map hkeys ih⟩

end Node

theorem entries_map (entries : List (String × Data)) :
    Yaml.entries (.mapping (entries.map fun entry ↦ (.plain entry.1, .ofData entry.2)))
      = .ok (entries.map fun entry ↦ (entry.1, .ofData entry.2)) := by
  rw [Yaml.entries]
  induction entries with
  | nil => rfl
  | cons entry entries ih =>
    rw [List.map_cons, List.mapM_cons, ih]
    rfl

namespace Library

theorem entriesStand_map {entries : List (String × Data)}
    (h : ∀ entry ∈ entries, builtin.Stands (.ofData entry.2 : Yaml.Node) entry.2) :
    builtin.EntriesStand (entries.map fun entry ↦ (entry.1, .ofData entry.2)) entries := by
  induction entries with
  | nil => exact .nil
  | cons entry entries ih =>
    rw [List.forall_mem_cons] at h
    exact .cons h.1 (ih h.2)

theorem stands_ofData {data : Data} (h : data.Simple) :
    builtin.Stands (.ofData data : Yaml.Node) data := by
  induction h with
  | bool value =>
    rw [Node.ofData]
    exact .bool (bool_ofBool value)
  | word value =>
    rw [Node.ofData]
    exact .word (word_ofWord value)
  | @mapping entries _ _ _ ih =>
    refine .mapping ?_ (entriesStand_map ih)
    by_cases hempty : entries = []
    · subst hempty
      rfl
    · rw [Node.ofData_mapping hempty]
      exact entries_map entries

/-- **The library at hand is faithful.** -/
theorem faithful_builtin : builtin.Faithful where
  reads entries hne hsimple := by
    have hwritable := Node.writable_ofData hsimple
    refine ⟨.ofData (.mapping entries), ?_, stands_ofData hsimple⟩
    rw [Node.ofData_mapping hne] at hwritable
    change Node.parse (Node.render (Node.ofData (.mapping entries))) = _
    rw [Node.ofData_mapping hne]
    exact Node.parse_render hwritable
  keys entries hsimple entry hentry := by
    change _ <:+: (Node.render (Node.ofData (.mapping entries))).toList
    rw [Node.ofData_mapping (List.ne_nil_of_mem hentry), Node.toList_render_mapping]
    have hmem : (Node.plain entry.1, Node.ofData entry.2)
        ∈ entries.map fun entry ↦ (Node.plain entry.1, Node.ofData entry.2) :=
      List.mem_map.mpr ⟨entry, hentry, rfl⟩
    exact Node.isInfix_chars_lines hmem 0

end Library

end EffectChain.Yaml
