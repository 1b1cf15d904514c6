import EffectChain.Config
import EffectChain.Proofs.Files
import EffectChain.Proofs.Yaml.Faithful
import EffectChain.Proofs.Yaml.Fields

/-!
# Settings that are given and settings that are saved

A document gives some of the settings, in any order and style, among keys that mean nothing: its
library finds a section in it, and the settings in the section. The configuration that is read has
the settings that are given, and the defaults elsewhere (`Config.exists_parse_of_gives`), whatever
the library is. If the library is faithful, the document of a configuration gives all its settings,
so it reads back (`Config.parse_render`), and for any settings, in any order, there is a document
that gives just these.
-/

namespace EffectChain

open Yaml

/-! ## Settings -/

/-- A setting of depth buffer detection, as the section gives it. -/
inductive DepthSetting
  /-- Whether a snapshot is taken. -/
  | preserve (value : Bool)
  /-- Which clear it is taken at. -/
  | clearNumber (value : UInt32)
  /-- Whether a depth buffer must match the backbuffer in size. -/
  | matchAspect (value : Bool)

namespace DepthSetting

def keys : List String :=
  ["DepthBufferRetrievalMode", "DepthBufferClearingNumber", "UseAspectRatioHeuristics"]

def key : DepthSetting → String
  | preserve _ => "DepthBufferRetrievalMode"
  | clearNumber _ => "DepthBufferClearingNumber"
  | matchAspect _ => "UseAspectRatioHeuristics"

def ReadsFrom (yaml : Library) (node : yaml.Node) : DepthSetting → Prop
  | preserve value | matchAspect value => yaml.bool node = .ok value
  | clearNumber value => yaml.word node = .ok value

def toData : DepthSetting → Data
  | preserve value | matchAspect value => .bool value
  | clearNumber value => .word value

def HoldsIn (c : DepthConfig) : DepthSetting → Prop
  | preserve value => c.preserve = value
  | clearNumber value => c.clearNumber = value
  | matchAspect value => c.matchAspect = value

theorem key_mem_keys (s : DepthSetting) : s.key ∈ keys := by
  cases s <;> simp [key, keys]

theorem isKey_key (s : DepthSetting) : Node.IsKey s.key := by
  have hwords : ∀ key ∈ keys, Node.IsWord key ∧ key.toList ≠ [] ∧ key.toList.length ≤ keyReach := by
    decide +kernel
  obtain ⟨hword, hne, hreach⟩ := hwords s.key s.key_mem_keys
  exact ⟨hword, hne, hreach⟩

theorem simple_toData (s : DepthSetting) : s.toData.Simple := by
  rcases s with value | value | value
  · exact .bool value
  · exact .word value
  · exact .bool value

theorem readsFrom_of_stands {yaml : Library} {node : yaml.Node} {s : DepthSetting}
    (h : yaml.Stands node s.toData) : s.ReadsFrom yaml node := by
  rcases s with value | value | value <;> rcases h with h | h <;> exact h

theorem eq_of_holdsIn {s s' : DepthSetting} {c : DepthConfig} (hkey : s.key = s'.key)
    (h : s.HoldsIn c) (h' : s'.HoldsIn c) : s = s' := by
  cases s <;> cases s' <;> simp_all [key, HoldsIn]

theorem exists_default (s : DepthSetting) :
    ∃ s' : DepthSetting, s'.key = s.key ∧ s'.HoldsIn {} := by
  cases s with
  | preserve => exact ⟨.preserve false, rfl, rfl⟩
  | clearNumber => exact ⟨.clearNumber 0, rfl, rfl⟩
  | matchAspect => exact ⟨.matchAspect true, rfl, rfl⟩

end DepthSetting

namespace DepthConfig

def settings (c : DepthConfig) : List DepthSetting :=
  [.preserve c.preserve, .clearNumber c.clearNumber, .matchAspect c.matchAspect]

/-- The configuration has the settings that are given, and the defaults elsewhere. -/
structure Has (c : DepthConfig) (settings : List DepthSetting) : Prop where
  /-- What is given holds. -/
  given : ∀ s ∈ settings, s.HoldsIn c
  /-- A default holds if nothing is given for its key. -/
  defaults : ∀ s : DepthSetting, s.HoldsIn {} → s.key ∉ settings.map (·.key) → s.HoldsIn c

theorem eq_of_forall_holdsIn {c c' : DepthConfig} (h : ∀ s ∈ c.settings, s.HoldsIn c') :
    c' = c := by
  have hpreserve : c'.preserve = c.preserve :=
    h (.preserve c.preserve) (by simp [settings])
  have hclear : c'.clearNumber = c.clearNumber :=
    h (.clearNumber c.clearNumber) (by simp [settings])
  have haspect : c'.matchAspect = c.matchAspect :=
    h (.matchAspect c.matchAspect) (by simp [settings])
  cases c
  cases c'
  simp_all

theorem holdsIn_of_mem_settings {c : DepthConfig} {s : DepthSetting} (hs : s ∈ c.settings) :
    s.HoldsIn c := by
  simp only [settings, List.mem_cons, List.not_mem_nil, or_false] at hs
  rcases hs with rfl | rfl | rfl <;> rfl

theorem has_settings (c : DepthConfig) : c.Has c.settings := by
  refine ⟨fun s ↦ holdsIn_of_mem_settings, fun s _ hnot ↦ ?_⟩
  cases s <;> simp [settings, DepthSetting.key] at hnot

theorem Has.eq {c c' : DepthConfig} {given : List DepthSetting} (h : c.Has given)
    (h' : c'.Has given) : c' = c := by
  refine eq_of_forall_holdsIn fun s hs ↦ ?_
  have hholds := holdsIn_of_mem_settings hs
  by_cases hgiven : s.key ∈ given.map (·.key)
  · obtain ⟨s', hs', hkey⟩ := List.mem_map.mp hgiven
    obtain rfl := DepthSetting.eq_of_holdsIn hkey (h.given s' hs') hholds
    exact h'.given s' hs'
  · obtain ⟨s', hkey, hdefault⟩ := s.exists_default
    obtain rfl := DepthSetting.eq_of_holdsIn hkey (h.defaults s' hdefault (hkey ▸ hgiven)) hholds
    exact h'.defaults s' hdefault hgiven

end DepthConfig

/-! ## Sections -/

/-- The fields of a section give settings, each one once, among keys that mean nothing. -/
structure FieldsGive (yaml : Library) (fields : Fields yaml.Node) (settings : List DepthSetting) :
    Prop where
  /-- No key of a setting is given twice. -/
  once : fields.KnownOnce DepthSetting.keys
  /-- There is a field for each setting. -/
  given : ∀ s ∈ settings, ∃ field ∈ fields, field.1 = s.key ∧ s.ReadsFrom yaml field.2
  /-- There is a setting for each field that has the key of one. -/
  known : ∀ field ∈ fields, field.1 ∈ DepthSetting.keys →
    ∃ s ∈ settings, s.key = field.1 ∧ s.ReadsFrom yaml field.2

def SectionGives (yaml : Library) (node : yaml.Node) (settings : List DepthSetting) : Prop :=
  ∃ fields, yaml.entries node = .ok fields ∧ FieldsGive yaml fields settings

variable {yaml : Library} {settings : List DepthSetting}

namespace FieldsGive

variable {fields : Fields yaml.Node}

/-- The field of a key has the value that is given for it, or the default. -/
theorem exists_optional (h : FieldsGive yaml fields settings) {α : Type} (make : α → DepthSetting)
    (key : String) (read : Reader α yaml.Node) (default : α) (hkey : key ∈ DepthSetting.keys)
    (hmake : ∀ s : DepthSetting, s.key = key ↔ ∃ a, s = make a)
    (hread : ∀ a node, (make a).ReadsFrom yaml node ↔ read node = .ok a) :
    ∃ a, fields.optional key read default = .ok a ∧
      (∀ b, make b ∈ settings → a = b) ∧ (key ∉ settings.map (·.key) → a = default) := by
  rcases fields.optional_cases key read default with ⟨field, hmem, rfl, hfield⟩ | ⟨hnone, hfield⟩
  · obtain ⟨s, hs, hskey, hreads⟩ := h.known field hmem hkey
    obtain ⟨a, rfl⟩ := (hmake s).mp hskey
    refine ⟨a, hfield.trans ((hread a _).mp hreads), fun b hb ↦ ?_, fun hnot ↦ ?_⟩
    · obtain ⟨field', hmem', hfield', hreads'⟩ := h.given _ hb
      have hb : (make b).key = field.1 := (hmake _).mpr ⟨b, rfl⟩
      obtain rfl := h.once.eq hmem hmem' hkey (hfield'.trans hb).symm
      exact Except.ok.inj (((hread a _).mp hreads).symm.trans ((hread b _).mp hreads'))
    · exact absurd (List.mem_map.mpr ⟨make a, hs, (hmake _).mpr ⟨a, rfl⟩⟩) hnot
  · refine ⟨default, hfield, fun b hb ↦ ?_, fun _ ↦ rfl⟩
    obtain ⟨field, hmem, hfield, -⟩ := h.given _ hb
    exact absurd (hfield.trans ((hmake _).mpr ⟨b, rfl⟩)) (hnone field hmem)

end FieldsGive

/-- **The section has the settings that its fields give**, in whatever order. -/
theorem SectionGives.exists_ofNode {node : yaml.Node} (h : SectionGives yaml node settings) :
    ∃ c, DepthConfig.ofNode yaml node = .ok c ∧ c.Has settings := by
  obtain ⟨fields, hentries, h⟩ := h
  obtain ⟨preserve, hpreserve, hgiven₁, hdefault₁⟩ := h.exists_optional .preserve
    "DepthBufferRetrievalMode" yaml.bool false (by simp [DepthSetting.keys])
    (fun s ↦ by cases s <;> simp [DepthSetting.key]) (fun _ _ ↦ Iff.rfl)
  obtain ⟨clearNumber, hclear, hgiven₂, hdefault₂⟩ := h.exists_optional .clearNumber
    "DepthBufferClearingNumber" yaml.word 0 (by simp [DepthSetting.keys])
    (fun s ↦ by cases s <;> simp [DepthSetting.key]) (fun _ _ ↦ Iff.rfl)
  obtain ⟨matchAspect, haspect, hgiven₃, hdefault₃⟩ := h.exists_optional .matchAspect
    "UseAspectRatioHeuristics" yaml.bool true (by simp [DepthSetting.keys])
    (fun s ↦ by cases s <;> simp [DepthSetting.key]) (fun _ _ ↦ Iff.rfl)
  refine ⟨{ preserve, clearNumber, matchAspect }, ?_, fun s hs ↦ ?_, fun s hdefault hnot ↦ ?_⟩
  · have hfields := Library.fields_eq_ok hentries h.once
    rw [DepthSetting.keys] at hfields
    rw [DepthConfig.ofNode, hfields]
    simp only [bind, Except.bind, hpreserve, hclear, haspect]
    rfl
  · cases s with
    | preserve value => exact hgiven₁ value hs
    | clearNumber value => exact hgiven₂ value hs
    | matchAspect value => exact hgiven₃ value hs
  · cases s with
    | preserve value => exact (hdefault₁ hnot).trans hdefault
    | clearNumber value => exact (hdefault₂ hnot).trans hdefault
    | matchAspect value => exact (hdefault₃ hnot).trans hdefault

theorem DepthConfig.has_nil : ({} : DepthConfig).Has [] :=
  ⟨by simp, fun _ h _ ↦ h⟩

/-! ## Documents -/

namespace Config

def sectionKey : String := "depth_buffer_detection"

/-- The root of a document gives settings: those of its section, if it has one. -/
inductive RootGives (yaml : Library) : Fields yaml.Node → List DepthSetting → Prop
  /-- It may have other keys only, or none. -/
  | absent {fields : Fields yaml.Node} : (∀ field ∈ fields, field.1 ≠ sectionKey) →
    RootGives yaml fields []
  /-- It may have the section, once. -/
  | present {fields : Fields yaml.Node} {field : String × yaml.Node}
    {settings : List DepthSetting} : fields.KnownOnce [sectionKey] → field ∈ fields →
    field.1 = sectionKey → SectionGives yaml field.2 settings → RootGives yaml fields settings

/-- A document gives settings. A blank one gives none. -/
def Gives (yaml : Library) (source : String) (settings : List DepthSetting) : Prop :=
  if IsBlank source then settings = []
  else ∃ node fields, yaml.parse source = .ok node ∧ yaml.entries node = .ok fields ∧
    RootGives yaml fields settings

theorem RootGives.knownOnce {fields : Fields yaml.Node} (h : RootGives yaml fields settings) :
    fields.KnownOnce [sectionKey] := by
  rcases h with hnone | honce
  · rw [Fields.KnownOnce, List.filter_eq_nil_iff.mpr]
    · exact List.nodup_nil
    · rintro _ hkey
      obtain ⟨field, hmem, rfl⟩ := List.mem_map.mp hkey
      simpa using hnone field hmem
  · exact honce

theorem RootGives.exists_optional {fields : Fields yaml.Node}
    (h : RootGives yaml fields settings) :
    ∃ c, fields.optional sectionKey (DepthConfig.ofNode yaml) {} = .ok c ∧ c.Has settings := by
  have honce := h.knownOnce
  rcases fields.optional_cases sectionKey (DepthConfig.ofNode yaml) {} with
    ⟨field, hmem, hkey, hfield⟩ | ⟨hnone, hfield⟩ <;> rw [hfield]
  · rcases h with hother | ⟨-, hmem', hkey', hsection⟩
    · exact absurd hkey (hother field hmem)
    · obtain rfl := honce.eq hmem hmem' (by simp [hkey]) (hkey.trans hkey'.symm)
      exact hsection.exists_ofNode
  · rcases h with - | ⟨-, hmem, hkey, -⟩
    · exact ⟨{}, rfl, DepthConfig.has_nil⟩
    · exact absurd hkey (hnone _ hmem)

/-- **A document is read to have the settings that it gives, and the defaults elsewhere.** -/
theorem exists_parse_of_gives {source : String} (h : Gives yaml source settings) :
    ∃ c, parse source yaml = .ok c ∧ c.depth.Has settings := by
  rw [Gives] at h
  rw [parse]
  split at h
  · subst h
    exact ⟨{}, if_pos ‹_›, DepthConfig.has_nil⟩
  · obtain ⟨node, fields, hparse, hentries, hroot⟩ := h
    obtain ⟨c, hfield, hhas⟩ := hroot.exists_optional
    have hfields := Library.fields_eq_ok hentries hroot.knownOnce
    rw [sectionKey] at hfields hfield
    refine ⟨{ depth := c }, ?_, hhas⟩
    rw [if_neg ‹_›, hparse]
    simp only [bind, Except.bind, ofNode, hfields, hfield]
    rfl

/-! ## Documents that are written -/

def entryOf (s : DepthSetting) : String × Data := (s.key, s.toData)

def document (settings : List DepthSetting) : Data :=
  .mapping [(sectionKey, .mapping (settings.map entryOf))]

theorem simple_document (h : (settings.map (·.key)).Nodup) : (document settings).Simple := by
  have hkey : Node.IsKey sectionKey := ⟨by decide +kernel, by decide +kernel, by decide +kernel⟩
  refine .mapping (List.nodup_singleton _) (by simpa using hkey) (List.forall_mem_singleton.mpr ?_)
  refine .mapping ?_ ?_ ?_
  · rwa [List.map_map]
  · rintro _ hmem
    obtain ⟨s, -, rfl⟩ := List.mem_map.mp hmem
    exact s.isKey_key
  · rintro _ hmem
    obtain ⟨s, -, rfl⟩ := List.mem_map.mp hmem
    exact s.simple_toData

theorem sectionGives_of_stands {node : yaml.Node} (hnodup : (settings.map (·.key)).Nodup)
    (h : yaml.Stands node (.mapping (settings.map entryOf))) :
    SectionGives yaml node settings := by
  rcases h with _ | _ | ⟨hentries, hfields⟩
  refine ⟨_, hentries, ?_, fun s hs ↦ ?_, fun field hmem _ ↦ ?_⟩
  · rw [Fields.KnownOnce, hfields.map_fst, List.map_map]
    exact hnodup.filter _
  · obtain ⟨field, hmem, hkey, hstands⟩ := hfields.exists_field (List.mem_map_of_mem hs)
    exact ⟨field, hmem, hkey, DepthSetting.readsFrom_of_stands hstands⟩
  · obtain ⟨_, hentry, hkey, hstands⟩ := hfields.exists_entry hmem
    obtain ⟨s, hs, rfl⟩ := List.mem_map.mp hentry
    exact ⟨s, hs, hkey, DepthSetting.readsFrom_of_stands hstands⟩

/-- **The document of settings gives them**, in whatever order they are. -/
theorem gives_render_document (hyaml : yaml.Faithful) (h : (settings.map (·.key)).Nodup) :
    Gives yaml (yaml.render (document settings)) settings := by
  obtain ⟨node, hparse, hstands⟩ :=
    hyaml.reads _ (List.cons_ne_nil _ _) (simple_document h)
  have hwritten := hyaml.keys _ (simple_document h) _ List.mem_cons_self
  have hblank : ¬IsBlank (yaml.render (document settings)) := by
    intro hall
    have hkey : 'd' ∈ sectionKey.toList := by decide +kernel
    have hmem : 'd' ∈ (yaml.render (document settings)).toList := hwritten.subset hkey
    exact absurd (List.all_eq_true.mp hall 'd' hmem) (by decide)
  rw [Gives, if_neg hblank]
  rcases hstands with _ | _ | ⟨hentries, hfields⟩
  rcases hfields with _ | ⟨hsection, hrest⟩
  rcases hrest with _ | _
  exact ⟨node, _, hparse, hentries, .present ((List.nodup_singleton _).filter _)
    List.mem_cons_self rfl (sectionGives_of_stands h hsection)⟩

/-! ## Saving and loading -/

/-- **A configuration reads back from its document.** -/
theorem parse_render (hyaml : yaml.Faithful) (c : Config) : parse (c.render yaml) yaml = .ok c := by
  have hnodup : (c.depth.settings.map (·.key)).Nodup := by
    simp [DepthConfig.settings, DepthSetting.key]
  obtain ⟨c', hparse, hhas⟩ := exists_parse_of_gives (gives_render_document hyaml hnodup)
  have hdepth : c'.depth = c.depth := c.depth.has_settings.eq hhas
  exact hparse.trans (congrArg (fun depth ↦ Except.ok ({ depth } : Config)) hdepth)

theorem text_toUTF8 (text : String) : (Entry.file text.toUTF8).text = .ok text := by
  have hvalid : text.toUTF8.IsValidUTF8 := text.isValidUTF8
  have hread : String.fromUTF8? text.toUTF8 = some text := by
    rw [String.fromUTF8?, dif_pos hvalid]
    rfl
  rw [Entry.text, hread]

/-- **A configuration that was saved is loaded again.** -/
theorem exists_save (hyaml : yaml.Faithful) (c : Config) {f : Folder} {path : String}
    {place : Folder.Place} (hplace : f.place? path = some place)
    (hfile : f.entryAt place ≠ some .folder) :
    ∃ f', c.save f path yaml = some f' ∧ load (f'.find? path) yaml = .ok c ∧
      c.save f' path yaml = some f' := by
  obtain ⟨f', hwrite, hfound, hagain⟩ := Folder.exists_write? hplace hfile (c.render yaml).toUTF8
  refine ⟨f', hwrite, ?_, hagain⟩
  rw [hfound, load]
  simp only [text_toUTF8, parse_render hyaml]

/-- **Writer and reader agree on every setting**, over any faithful library. A configuration reads
back from its document, and from the file that it is saved to, where to save it once more changes
nothing. A document is read to have the settings that it gives and the defaults elsewhere, and every
choice of settings, in any order, is given by the document that is written for it. -/
theorem reads_back (yaml : Library) (hyaml : yaml.Faithful) (c : Config) :
    parse (c.render yaml) yaml = .ok c ∧
    (∀ (f : Folder) (path : String) (place : Folder.Place), f.place? path = some place →
      f.entryAt place ≠ some .folder →
        ∃ f', c.save f path yaml = some f' ∧ load (f'.find? path) yaml = .ok c ∧
          c.save f' path yaml = some f') ∧
    (∀ source settings, Gives yaml source settings →
      ∃ c', parse source yaml = .ok c' ∧ c'.depth.Has settings) ∧
    ∀ settings, (settings.map DepthSetting.key).Nodup →
      Gives yaml (yaml.render (document settings)) settings :=
  ⟨parse_render hyaml c, fun _ _ _ hplace hfile ↦ exists_save hyaml c hplace hfile,
    fun _ _ ↦ exists_parse_of_gives, fun _ ↦ gives_render_document hyaml⟩

/-- A configuration that is saved in an empty folder, and a document of two settings. -/
theorem reads_back_conf :
    let c : Config := { depth := { preserve := true, clearNumber := 3, matchAspect := false } }
    let settings : List DepthSetting := [.matchAspect false, .clearNumber 3]
    c.render = "depth_buffer_detection:\n  DepthBufferRetrievalMode: true\n" ++
      "  DepthBufferClearingNumber: 3\n  UseAspectRatioHeuristics: false\n" ∧
    (∃ f', c.save { files := [] } "conf" = some f' ∧ load (f'.find? "conf") = .ok c ∧
      c.save f' "conf" = some f') ∧
    parse (Library.builtin.render (document settings))
      = .ok { depth := { clearNumber := 3, matchAspect := false } } := by
  intro c settings
  obtain ⟨-, hsave, hread, hgive⟩ := reads_back .builtin Library.faithful_builtin c
  refine ⟨by decide +kernel, hsave _ "conf" (.inside ["conf"]) ?_ ?_, ?_⟩
  · have hsplit : "conf".splitOn "/" = ["conf"] := by
      rw [String.splitOn, if_neg (by decide +kernel)]
      iterate 4 rw [String.splitOnAux, if_neg (by decide +kernel), if_neg (by decide +kernel)]
      rw [String.splitOnAux, if_pos (by decide +kernel)]
      decide +kernel
    rw [Folder.place?, hsplit, if_neg (by decide +kernel)]
    rfl
  · rw [Folder.entryAt_inside (by simp)]
    simp [Folder.entryNamed]
  · obtain ⟨⟨⟨preserve, clear, aspect⟩⟩, hparse, hhas⟩ :=
      hread _ settings (hgive settings (by decide +kernel))
    obtain rfl : preserve = false := hhas.defaults (.preserve false) rfl (by decide +kernel)
    obtain rfl : clear = 3 := hhas.given (.clearNumber 3) (by simp [settings])
    obtain rfl : aspect = false := hhas.given (.matchAspect false) (by simp [settings])
    exact hparse

end Config

end EffectChain
