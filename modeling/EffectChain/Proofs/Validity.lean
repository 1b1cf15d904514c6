import EffectChain.Module.Document
import EffectChain.Proofs.SlotCounts

/-!
# Valid modules

A module is valid if its entry points have different names, every pass draws with a vertex and a
pixel entry point of the module into at most eight targets, and every sampler reads a texture of the
module (`EffectModule.Valid`). Validation accepts these and no others, and of what is wrong with
another it reports what comes first (`EffectModule.FirstFault`): entry points are looked at before
passes and passes before samplers, in the order of declaration, and of a pass the vertex entry point
first, then the pixel entry point, then the targets.

Validation looks an entry point up by its name and finds the first one, whatever its stage. That the
search does not miss another one of the right stage is because the names were found to be different
before (`EffectModule.hasEntryPoint_iff`).
-/

namespace EffectChain

/-! ## The first of many -/

theorem head?_append_eq_some_iff {α : Type} {l l' : List α} {a : α} :
    (l ++ l').head? = some a ↔ l.head? = some a ∨ l = [] ∧ l'.head? = some a := by
  cases l <;> simp

/-- What comes first of numbered lists, if those that are empty are known without their number. -/
theorem head?_flatMap_zipIdx_eq_some_iff {α β : Type} {f : α × ℕ → List β} {P : α → Prop}
    (hf : ∀ x i, f (x, i) = [] ↔ P x) {l : List α} {b : β} (start : ℕ) :
    ((l.zipIdx start).flatMap f).head? = some b ↔
      ∃ i a, l[i]? = some a ∧ (∀ x ∈ l.take i, P x) ∧ (f (a, start + i)).head? = some b := by
  induction l generalizing start with
  | nil => simp
  | cons a l ih =>
    rw [List.zipIdx_cons, List.flatMap_cons, head?_append_eq_some_iff, hf, ih]
    constructor
    · rintro (hhead | ⟨ha, i, x, hx, hbefore, hhead⟩)
      · exact ⟨0, a, rfl, by simp, hhead⟩
      · refine ⟨i + 1, x, hx, ?_, by rwa [show start + (i + 1) = start + 1 + i by omega]⟩
        simpa [ha] using hbefore
    · rintro ⟨i, x, hx, hbefore, hhead⟩
      cases i with
      | zero =>
        cases hx
        exact Or.inl hhead
      | succ i =>
        rw [List.take_succ_cons, List.forall_mem_cons] at hbefore
        refine Or.inr ⟨hbefore.1, i, x, hx, hbefore.2, ?_⟩
        rwa [show start + 1 + i = start + (i + 1) by omega]

theorem head?_flatMap_eq_some_iff {α β : Type} {f : α → List β} {P : α → Prop}
    (hf : ∀ x, f x = [] ↔ P x) {l : List α} {b : β} :
    (l.flatMap f).head? = some b ↔
      ∃ i a, l[i]? = some a ∧ (∀ x ∈ l.take i, P x) ∧ (f a).head? = some b := by
  have hnumbered := head?_flatMap_zipIdx_eq_some_iff (f := fun x ↦ f x.1) (fun x _ ↦ hf x)
    (l := l) (b := b) 0
  rwa [← List.flatMap_map, List.zipIdx_map_fst] at hnumbered

namespace EffectModule

theorem head?_repeats_eq_some_iff {seen names : List String} {name : String} :
    (repeats seen names).head? = some name ↔
      ∃ i, names[i]? = some name ∧ (names.take i).Nodup ∧ (∀ n ∈ names.take i, n ∉ seen) ∧
        (name ∈ seen ∨ name ∈ names.take i) := by
  induction names generalizing seen with
  | nil => simp [repeats]
  | cons n rest ih =>
    by_cases hn : n ∈ seen
    · rw [repeats, if_pos hn, List.head?_cons, Option.some.injEq]
      constructor
      · rintro rfl
        exact ⟨0, rfl, by simp, by simp, Or.inl hn⟩
      · rintro ⟨_ | i, hname, -, hseen, -⟩
        · exact Option.some.inj hname
        · exact absurd hn (hseen n (by simp))
    · rw [repeats, if_neg hn, ih]
      -- a name is earlier in the list, or among those seen, on either side of the first one
      constructor
      · rintro ⟨i, hname, hnodup, hseen, hrepeated⟩
        have hfresh : ∀ k ∈ rest.take i, k ≠ n ∧ k ∉ seen := by simpa using hseen
        refine ⟨i + 1, hname, ?_, ?_, ?_⟩
        · exact List.nodup_cons.mpr ⟨fun hmem ↦ (hfresh n hmem).1 rfl, hnodup⟩
        · exact List.forall_mem_cons.mpr ⟨hn, fun k hk ↦ (hfresh k hk).2⟩
        · simpa [or_assoc, or_left_comm] using hrepeated
      · rintro ⟨_ | i, hname, hnodup, hseen, hrepeated⟩
        · cases hname
          simp [hn] at hrepeated
        · rw [List.take_succ_cons] at hnodup hseen hrepeated
          obtain ⟨hn', hnodup⟩ := List.nodup_cons.mp hnodup
          refine ⟨i, hname, hnodup, fun k hk hmem ↦ ?_, ?_⟩
          · rcases List.mem_cons.mp hmem with rfl | hmem
            · exact hn' hk
            · exact hseen k (List.mem_cons_of_mem _ hk) hmem
          · simpa [or_assoc, or_left_comm] using hrepeated

/-! ## Validity -/

/-- An entry point of the stage has the name. -/
def Declares (m : EffectModule) (stage : ShaderStage) (name : String) : Prop :=
  ∃ e ∈ m.entryPoints, e.name = name ∧ e.stage = stage

/-- The module has what the pass draws with, and the pass has few enough targets. -/
structure Draws (m : EffectModule) (p : PassDecl) : Prop where
  /-- The vertex entry point. -/
  vertex : m.Declares .vertex p.vertexEntry
  /-- The pixel entry point. -/
  pixel : m.Declares .pixel p.pixelEntry
  /-- The targets. -/
  targets : p.targetNames.length ≤ 8

/-- The module has the texture that the sampler reads. -/
def Reads (m : EffectModule) (s : SamplerDecl) : Prop := ∃ t ∈ m.textures, t.name = s.textureName

/-- The names of the entry points are different. -/
def Distinguishes (m : EffectModule) : Prop := (m.entryPoints.map (·.name)).Nodup

/-- Nothing is wrong with the module. -/
structure Valid (m : EffectModule) : Prop where
  /-- The entry points. -/
  entryPoints : m.Distinguishes
  /-- The passes of all techniques. -/
  passes : ∀ t ∈ m.techniques, ∀ p ∈ t.passes, m.Draws p
  /-- The samplers. -/
  samplers : ∀ s ∈ m.samplers, m.Reads s

/-- The pass has a number in a technique, and nothing is wrong with what comes before it. -/
structure Reaches (m : EffectModule) (t : TechniqueDecl) (number : ℕ) (p : PassDecl) : Prop where
  /-- The entry points. -/
  entryPoints : m.Distinguishes
  /-- The techniques before. -/
  techniques : ∃ i, m.techniques[i]? = some t ∧
    ∀ t' ∈ m.techniques.take i, ∀ q ∈ t'.passes, m.Draws q
  /-- The pass. -/
  pass : t.passes[number]? = some p
  /-- The passes before. -/
  passes : ∀ q ∈ t.passes.take number, m.Draws q

/-- What is wrong with the module, and nothing is wrong with what comes before. -/
inductive FirstFault (m : EffectModule) : ModuleError → Prop
  /-- An entry point has the name of an earlier one. -/
  | entryPoint {i : ℕ} {e : EntryPoint} (hentry : m.entryPoints[i]? = some e)
    (hbefore : ((m.entryPoints.take i).map (·.name)).Nodup)
    (hrepeated : ∃ e' ∈ m.entryPoints.take i, e'.name = e.name) :
    FirstFault m (.duplicateEntryPoint e.name)
  /-- A pass has no vertex entry point. -/
  | vertex {t : TechniqueDecl} {number : ℕ} {p : PassDecl} (hreaches : m.Reaches t number p)
    (hvertex : ¬m.Declares .vertex p.vertexEntry) :
    FirstFault m (.unknownEntryPoint t.name number .vertex p.vertexEntry)
  /-- It has one, but no pixel entry point. -/
  | pixel {t : TechniqueDecl} {number : ℕ} {p : PassDecl} (hreaches : m.Reaches t number p)
    (hvertex : m.Declares .vertex p.vertexEntry) (hpixel : ¬m.Declares .pixel p.pixelEntry) :
    FirstFault m (.unknownEntryPoint t.name number .pixel p.pixelEntry)
  /-- It has both, but too many targets. -/
  | targets {t : TechniqueDecl} {number : ℕ} {p : PassDecl} (hreaches : m.Reaches t number p)
    (hvertex : m.Declares .vertex p.vertexEntry) (hpixel : m.Declares .pixel p.pixelEntry)
    (htargets : 8 < p.targetNames.length) :
    FirstFault m (.tooManyRenderTargets t.name number p.targetNames.length)
  /-- A sampler has no texture. -/
  | sampler {i : ℕ} {s : SamplerDecl} (hentryPoints : m.Distinguishes)
    (hpasses : ∀ t ∈ m.techniques, ∀ p ∈ t.passes, m.Draws p)
    (hsampler : m.samplers[i]? = some s) (hbefore : ∀ s' ∈ m.samplers.take i, m.Reads s')
    (htexture : ¬m.Reads s) : FirstFault m (.unknownTexture s.name s.textureName)

variable {m : EffectModule} {e : ModuleError}

/-- Where names are different, an entry point that is found by its name is the one that has it. -/
theorem hasEntryPoint_iff (h : m.Distinguishes) {stage : ShaderStage} {name : String} :
    m.hasEntryPoint stage name = true ↔ m.Declares stage name := by
  rw [hasEntryPoint, entryPoint?, Option.any_eq_true]
  constructor
  · rintro ⟨e, hfind, hstage⟩
    exact ⟨e, List.mem_of_find?_eq_some hfind, by simpa using List.find?_some hfind,
      by simpa using hstage⟩
  · rintro ⟨e, he, hname, hstage⟩
    obtain ⟨e', hfind⟩ : ∃ e', m.entryPoints.find? (fun e ↦ e.name = name) = some e' :=
      Option.isSome_iff_exists.mp (List.find?_isSome.mpr ⟨e, he, by simpa using hname⟩)
    have hname' : e'.name = name := by simpa using List.find?_some hfind
    have hsame : e' = e := List.inj_on_of_nodup_map h (List.mem_of_find?_eq_some hfind) he
      (hname'.trans hname.symm)
    exact ⟨e', hfind, by simpa [hsame] using hstage⟩

theorem passViolations_eq_nil_iff (h : m.Distinguishes) (technique : String) (p : PassDecl)
    (number : ℕ) : m.passViolations technique p number = [] ↔ m.Draws p := by
  rw [passViolations, List.append_eq_nil_iff, List.append_eq_nil_iff]
  simp only [ite_eq_left_iff, reduceCtorEq, imp_false, not_not, hasEntryPoint_iff h]
  constructor
  · rintro ⟨⟨hvertex, hpixel⟩, htargets⟩
    exact ⟨hvertex, hpixel, htargets⟩
  · rintro ⟨hvertex, hpixel, htargets⟩
    exact ⟨⟨hvertex, hpixel⟩, htargets⟩

theorem head?_passViolations_eq_some_iff (h : m.Distinguishes) {technique : String} {p : PassDecl}
    {number : ℕ} : (m.passViolations technique p number).head? = some e ↔
      (¬m.Declares .vertex p.vertexEntry ∧
        e = .unknownEntryPoint technique number .vertex p.vertexEntry) ∨
      (m.Declares .vertex p.vertexEntry ∧ ¬m.Declares .pixel p.pixelEntry ∧
        e = .unknownEntryPoint technique number .pixel p.pixelEntry) ∨
      (m.Declares .vertex p.vertexEntry ∧ m.Declares .pixel p.pixelEntry ∧
        8 < p.targetNames.length ∧
        e = .tooManyRenderTargets technique number p.targetNames.length) := by
  have hlimit : p.targetNames.length ≤ maxRenderTargets ↔ ¬8 < p.targetNames.length := by
    rw [Nat.not_lt]
    rfl
  rw [passViolations, ← hasEntryPoint_iff h, ← hasEntryPoint_iff h]
  simp only [hlimit]
  by_cases hvertex : m.hasEntryPoint .vertex p.vertexEntry = true <;>
    by_cases hpixel : m.hasEntryPoint .pixel p.pixelEntry = true <;>
    by_cases htargets : 8 < p.targetNames.length <;>
    simp [hvertex, hpixel, htargets, eq_comm]

theorem techniqueViolations_eq_nil_iff (h : m.Distinguishes) (t : TechniqueDecl) :
    m.techniqueViolations t = [] ↔ ∀ p ∈ t.passes, m.Draws p := by
  rw [techniqueViolations, List.flatMap_eq_nil_iff, Prod.forall]
  constructor
  · intro hall p hp
    obtain ⟨i, hi⟩ := List.getElem?_of_mem hp
    exact (passViolations_eq_nil_iff h t.name p i).mp
      (hall p i (List.mk_mem_zipIdx_iff_getElem?.mpr hi))
  · intro hall p i hp
    exact (passViolations_eq_nil_iff h t.name p i).mpr
      (hall p (List.mem_of_getElem? (List.mk_mem_zipIdx_iff_getElem?.mp hp)))

theorem samplerViolations_eq_nil_iff (s : SamplerDecl) :
    m.samplerViolations s = [] ↔ m.Reads s := by
  rw [samplerViolations, texture?]
  simp [Reads]

/-- What is wrong with the first pass of a technique that cannot be drawn. -/
theorem head?_techniqueViolations_eq_some_iff (h : m.Distinguishes) {t : TechniqueDecl} :
    (m.techniqueViolations t).head? = some e ↔
      ∃ number p, t.passes[number]? = some p ∧ (∀ q ∈ t.passes.take number, m.Draws q) ∧
        (m.passViolations t.name p number).head? = some e := by
  rw [techniqueViolations, head?_flatMap_zipIdx_eq_some_iff fun p number ↦
    passViolations_eq_nil_iff h t.name p number]
  simp only [Nat.zero_add]

theorem violations_eq_nil_iff : m.violations = [] ↔ m.Valid := by
  have hnames : repeats [] (m.entryPoints.map (·.name)) = [] ↔ m.Distinguishes := by
    simp [repeats_eq_nil_iff, Distinguishes]
  rw [violations, List.append_eq_nil_iff, List.append_eq_nil_iff, List.map_eq_nil_iff, hnames,
    List.flatMap_eq_nil_iff, List.flatMap_eq_nil_iff]
  simp only [samplerViolations_eq_nil_iff]
  constructor
  · rintro ⟨⟨hnames, hpasses⟩, hsamplers⟩
    exact ⟨hnames, fun t ht ↦ (techniqueViolations_eq_nil_iff hnames t).mp (hpasses t ht),
      hsamplers⟩
  · rintro ⟨hnames, hpasses, hsamplers⟩
    exact ⟨⟨hnames, fun t ht ↦ (techniqueViolations_eq_nil_iff hnames t).mpr (hpasses t ht)⟩,
      hsamplers⟩

/-! ## The fault that is reported -/

theorem head?_repeats_entryPoints_eq_some_iff {name : String} :
    (repeats [] (m.entryPoints.map (·.name))).head? = some name ↔
      ∃ i e, m.entryPoints[i]? = some e ∧ ((m.entryPoints.take i).map (·.name)).Nodup ∧
        (∃ e' ∈ m.entryPoints.take i, e'.name = e.name) ∧ e.name = name := by
  rw [head?_repeats_eq_some_iff]
  simp only [List.getElem?_map, Option.map_eq_some_iff, ← List.map_take, List.mem_map,
    List.not_mem_nil, not_false_eq_true, implies_true, true_and, false_or]
  constructor
  · rintro ⟨i, ⟨e, he, rfl⟩, hnodup, hrepeated⟩
    exact ⟨i, e, he, hnodup, hrepeated, rfl⟩
  · rintro ⟨i, e, he, hnodup, hrepeated, rfl⟩
    exact ⟨i, ⟨e, he, rfl⟩, hnodup, hrepeated⟩

theorem head?_flatMap_techniqueViolations_eq_some_iff (h : m.Distinguishes) :
    (m.techniques.flatMap m.techniqueViolations).head? = some e ↔
      ∃ t number p, m.Reaches t number p ∧
        (m.passViolations t.name p number).head? = some e := by
  rw [head?_flatMap_eq_some_iff (techniqueViolations_eq_nil_iff h)]
  simp only [head?_techniqueViolations_eq_some_iff h]
  constructor
  · rintro ⟨i, t, ht, hbefore, number, p, hp, hpasses, hhead⟩
    exact ⟨t, number, p, ⟨h, ⟨i, ht, hbefore⟩, hp, hpasses⟩, hhead⟩
  · rintro ⟨t, number, p, ⟨-, ⟨i, ht, hbefore⟩, hp, hpasses⟩, hhead⟩
    exact ⟨i, t, ht, hbefore, number, p, hp, hpasses, hhead⟩

theorem head?_flatMap_samplerViolations_eq_some_iff :
    (m.samplers.flatMap m.samplerViolations).head? = some e ↔
      ∃ i s, m.samplers[i]? = some s ∧ (∀ s' ∈ m.samplers.take i, m.Reads s') ∧ ¬m.Reads s ∧
        .unknownTexture s.name s.textureName = e := by
  rw [head?_flatMap_eq_some_iff samplerViolations_eq_nil_iff]
  have hhead (s : SamplerDecl) : (m.samplerViolations s).head? = some e ↔
      ¬m.Reads s ∧ .unknownTexture s.name s.textureName = e := by
    rw [← samplerViolations_eq_nil_iff]
    by_cases htexture : (m.texture? s.textureName).isSome = true <;>
      simp [samplerViolations, htexture]
  simp only [hhead]

/-- **The first violation** is the first fault. -/
theorem head?_violations_eq_some_iff : m.violations.head? = some e ↔ m.FirstFault e := by
  have hnames : (repeats [] (m.entryPoints.map (·.name))).map ModuleError.duplicateEntryPoint = []
      ↔ m.Distinguishes := by
    simp [repeats_eq_nil_iff, Distinguishes]
  -- with distinct names, the first entry point of a name is the only one
  have hpasses (h : m.Distinguishes) : m.techniques.flatMap m.techniqueViolations = [] ↔
      ∀ t ∈ m.techniques, ∀ p ∈ t.passes, m.Draws p := by
    simp only [List.flatMap_eq_nil_iff, techniqueViolations_eq_nil_iff h]
  rw [violations, head?_append_eq_some_iff, head?_append_eq_some_iff, List.append_eq_nil_iff,
    hnames, List.head?_map, Option.map_eq_some_iff,
    head?_flatMap_samplerViolations_eq_some_iff]
  constructor
  · rintro ((⟨name, hname, rfl⟩ | ⟨h, hhead⟩) | ⟨⟨h, hnone⟩, i, s, hs, hbefore, htexture, rfl⟩)
    · obtain ⟨i, e, he, hnodup, hrepeated, rfl⟩ := head?_repeats_entryPoints_eq_some_iff.mp hname
      exact .entryPoint he hnodup hrepeated
    · obtain ⟨t, number, p, hreaches, hhead⟩ :=
        (head?_flatMap_techniqueViolations_eq_some_iff h).mp hhead
      rcases (head?_passViolations_eq_some_iff h).mp hhead with
        ⟨hvertex, rfl⟩ | ⟨hvertex, hpixel, rfl⟩ | ⟨hvertex, hpixel, htargets, rfl⟩
      · exact .vertex hreaches hvertex
      · exact .pixel hreaches hvertex hpixel
      · exact .targets hreaches hvertex hpixel htargets
    · exact .sampler h ((hpasses h).mp hnone) hs hbefore htexture
  · -- behind distinct names, the first pass with a fault decides
    have hreached {t : TechniqueDecl} {number : ℕ} {p : PassDecl} (hreaches : m.Reaches t number p)
        (hhead : (m.passViolations t.name p number).head? = some e) :
        m.Distinguishes ∧ (m.techniques.flatMap m.techniqueViolations).head? = some e :=
      ⟨hreaches.entryPoints, (head?_flatMap_techniqueViolations_eq_some_iff
        hreaches.entryPoints).mpr ⟨t, number, p, hreaches, hhead⟩⟩
    intro hfault
    cases hfault with
    | @entryPoint i e he hnodup hrepeated =>
      exact Or.inl (Or.inl ⟨e.name,
        head?_repeats_entryPoints_eq_some_iff.mpr ⟨i, e, he, hnodup, hrepeated, rfl⟩, rfl⟩)
    | vertex hreaches hvertex =>
      refine Or.inl (Or.inr (hreached hreaches ?_))
      exact (head?_passViolations_eq_some_iff hreaches.entryPoints).mpr (.inl ⟨hvertex, rfl⟩)
    | pixel hreaches hvertex hpixel =>
      refine Or.inl (Or.inr (hreached hreaches ?_))
      exact (head?_passViolations_eq_some_iff hreaches.entryPoints).mpr
        (.inr (.inl ⟨hvertex, hpixel, rfl⟩))
    | targets hreaches hvertex hpixel htargets =>
      refine Or.inl (Or.inr (hreached hreaches ?_))
      exact (head?_passViolations_eq_some_iff hreaches.entryPoints).mpr
        (.inr (.inr ⟨hvertex, hpixel, htargets, rfl⟩))
    | @sampler i s h hnone hs hbefore htexture =>
      exact Or.inr ⟨⟨h, (hpasses h).mpr hnone⟩, i, s, hs, hbefore, htexture, rfl⟩

theorem validate_eq_error_iff : m.validate = .error e ↔ m.violations.head? = some e := by
  rw [validate]
  rcases m.violations with _ | ⟨first, rest⟩ <;> simp

/-- A module that is read from a text is the declared one, with its slots reserved, if that is
valid. -/
theorem parse_eq_ok_iff {source : String} {read : String → Except Yaml.YamlError EffectModule} :
    parse source read = .ok m ↔
      ∃ declared, read source = .ok declared ∧ m = declared.reserveSlots ∧ m.Valid := by
  rw [parse]
  rcases read source with cause | declared
  · simp
  · rw [← violations_eq_nil_iff, ← validate_eq_ok_iff]
    simp only [Except.ok.injEq, exists_eq_left', prepare]
    constructor
    · intro hprepare
      rcases hvalidate : declared.reserveSlots.validate with cause | _ <;>
        rw [hvalidate] at hprepare <;> cases hprepare
      exact ⟨rfl, hvalidate⟩
    · rintro ⟨rfl, hvalidate⟩
      rw [hvalidate]

/-- A count that was raised covers a slot in use, or stops at the largest word. -/
theorem le_toNat_coverSlots (count : UInt32) {slot : UInt32} {slots : List UInt32}
    (h : slot ∈ slots) :
    min (UInt32.size - 1) (slot.toNat + 1) ≤ (coverSlots count slots).toNat := by
  have hslot := lt_usedSlots h
  rw [toNat_coverSlots]
  generalize UInt32.size - 1 = largest
  omega

/-- **Validation is exact.** It accepts the valid modules, and reports the first fault of any other.
Whatever the typed reading of a text is, the module that is made of it is valid, and its counts
cover its slots as far as words go. -/
theorem validate_exact (m : EffectModule) :
    (m.validate = .ok () ↔ m.Valid) ∧ (∀ e, m.validate = .error e ↔ m.FirstFault e) ∧
      (∀ (read : String → Except Yaml.YamlError EffectModule) source, parse source read = .ok m ↔
        ∃ declared, read source = .ok declared ∧ m = declared.reserveSlots ∧ m.Valid) ∧
      ∀ (read : String → Except Yaml.YamlError EffectModule) source, parse source read = .ok m →
        ∀ s ∈ m.samplers,
          min (2 ^ 32 - 1) (s.binding.toNat + 1) ≤ m.samplerSlots.toNat ∧
            min (2 ^ 32 - 1) (s.textureBinding.toNat + 1) ≤ m.textureSlots.toNat := by
  refine ⟨m.validate_eq_ok_iff.trans violations_eq_nil_iff,
    fun e ↦ validate_eq_error_iff.trans head?_violations_eq_some_iff,
    fun read source ↦ parse_eq_ok_iff, fun read source hparse s hs ↦ ?_⟩
  obtain ⟨declared, -, rfl, -⟩ := parse_eq_ok_iff.mp hparse
  exact ⟨le_toNat_coverSlots _ (List.mem_map_of_mem (f := (·.binding)) hs),
    le_toNat_coverSlots _ (List.mem_map_of_mem (f := (·.textureBinding)) hs)⟩

/-- A module whose sampler is bound to the largest slot and reads its texture from slot 3. -/
def sampledSource : String :=
  "entry_points:\n- name: v\n  stage: vertex\n- name: p\n  stage: pixel\n"
  ++ "textures:\n- unique_name: image\n"
  ++ "samplers:\n- unique_name: s\n  texture_name: image\n"
  ++ "  binding: 4294967295\n  texture_binding: 3\n"
  ++ "techniques:\n- name: t\n  passes:\n  - vs_entry_point: v\n    ps_entry_point: p\n"

/-- It is valid, and its sampler count stops at the largest word. -/
theorem validate_exact_sampledSource :
    ∃ m, parse sampledSource = .ok m ∧ m.Valid ∧ m.samplerSlots = 4294967295 ∧
      m.textureSlots = 4 ∧ ∃ s ∈ m.samplers,
        min (2 ^ 32 - 1) (s.binding.toNat + 1) ≤ m.samplerSlots.toNat ∧
          min (2 ^ 32 - 1) (s.textureBinding.toNat + 1) ≤ m.textureSlots.toNat := by
  have hread : (parse sampledSource).toOption.map
      (fun m ↦ (m.samplerSlots, m.textureSlots, m.samplers.length)) = some (4294967295, 4, 1) := by
    decide +kernel
  rcases hparse : parse sampledSource with cause | m <;> rw [hparse] at hread
  · cases hread
  · obtain ⟨-, -, hsource, hslots⟩ := m.validate_exact
    obtain ⟨-, -, -, hvalid⟩ := (hsource _ sampledSource).mp hparse
    simp only [Except.toOption, Option.map_some, Option.some.injEq, Prod.mk.injEq] at hread
    obtain ⟨hsamplers, htextures, hlength⟩ := hread
    obtain ⟨s, hs⟩ := List.exists_mem_of_length_pos (by omega : 0 < m.samplers.length)
    exact ⟨m, rfl, hvalid, hsamplers, htextures, s, hs, hslots _ sampledSource hparse s hs⟩

end EffectModule

end EffectChain
