import EffectChain.Engine.Loading
import EffectChain.Proofs.Ownership.Creation
import EffectChain.Proofs.Touches

/-!
# The texture table between activations

Entering declarations only adds effects to entries and new entries at the end; the device objects of
the table stay what they were. Creating the objects that an effect's textures lack makes entries
grow. Withdrawing an effect takes out the entries that no other effect declares, together with the
references to their objects.
-/

namespace EffectChain

/-! ## Entering declarations -/

section Register

variable {index : Nat} {decl : TextureDecl} {decls : List TextureDecl} {table : List TableTexture}

theorem refs_registerTexture (index : Nat) (decl : TextureDecl) (table : List TableTexture) :
    (registerTexture index decl table).flatMap TableTexture.refs
      = table.flatMap TableTexture.refs := by
  induction table with
  | nil => rfl
  | cons t rest ih =>
    rw [registerTexture]
    split
    · split <;> rfl
    · rw [List.flatMap_cons, List.flatMap_cons, ih]

theorem names_registerTexture (index : Nat) (decl : TextureDecl) (table : List TableTexture) :
    (registerTexture index decl table).map (·.decl.name) =
      if decl.name ∈ table.map (·.decl.name) then table.map (·.decl.name)
      else table.map (·.decl.name) ++ [decl.name] := by
  induction table with
  | nil => rfl
  | cons t rest ih =>
    rw [registerTexture]
    by_cases hname : t.decl.name = decl.name
    · rw [if_pos hname, List.map_cons, List.map_cons, hname, if_pos List.mem_cons_self]
      split
      · rw [hname]
      · exact congrArg (· :: _) hname
    · have hiff : decl.name ∈ t.decl.name :: rest.map (·.decl.name)
          ↔ decl.name ∈ rest.map (·.decl.name) := by
        simp [Ne.symm hname]
      rw [if_neg hname, List.map_cons, List.map_cons, ih]
      by_cases hmem : decl.name ∈ rest.map (·.decl.name)
      · rw [if_pos hmem, if_pos (hiff.mpr hmem)]
      · rw [if_neg hmem, if_neg (mt hiff.mp hmem)]
        rfl

theorem nodup_registerTexture (h : (table.map (·.decl.name)).Nodup) :
    ((registerTexture index decl table).map (·.decl.name)).Nodup := by
  rw [names_registerTexture]
  split
  · exact h
  · rename_i hnew
    exact List.nodup_append.mpr ⟨h, List.nodup_singleton _, fun a ha b hb hab ↦ by
      rw [List.mem_singleton.mp hb] at hab
      exact hnew (hab ▸ ha)⟩

theorem exists_of_mem_registerTexture {t : TableTexture} (ht : t ∈ table) :
    ∃ t' ∈ registerTexture index decl table, t.Grows t' := by
  induction table with
  | nil => cases ht
  | cons u rest ih =>
    rw [registerTexture]
    split
    · rcases List.mem_cons.mp ht with rfl | ht
      · refine ⟨_, List.mem_cons_self, ?_⟩
        split
        · exact TableTexture.Grows.refl t
        · exact ⟨rfl, List.subset_append_left _ _, (TableTexture.Grows.refl t).owned⟩
      · exact ⟨t, List.mem_cons_of_mem _ ht, TableTexture.Grows.refl t⟩
    · rcases List.mem_cons.mp ht with rfl | ht
      · exact ⟨t, List.mem_cons_self, TableTexture.Grows.refl t⟩
      · obtain ⟨t', ht', hgrows⟩ := ih ht
        exact ⟨t', List.mem_cons_of_mem _ ht', hgrows⟩

theorem owned_of_mem_registerTexture {t' : TableTexture} {o : OwnedTexture}
    (ht' : t' ∈ registerTexture index decl table) (ho : t'.owned = some o) :
    ∃ t ∈ table, t.decl = t'.decl ∧ t.owned = some o := by
  induction table with
  | nil =>
    rw [List.mem_singleton.mp ht'] at ho
    cases ho
  | cons u rest ih =>
    unfold registerTexture at ht'
    split at ht'
    · rcases List.mem_cons.mp ht' with rfl | ht'
      · refine ⟨u, List.mem_cons_self, ?_⟩
        split at ho <;> split <;> exact ⟨rfl, ho⟩
      · exact ⟨t', List.mem_cons_of_mem _ ht', rfl, ho⟩
    · rcases List.mem_cons.mp ht' with rfl | ht'
      · exact ⟨t', List.mem_cons_self, rfl, ho⟩
      · obtain ⟨t, ht, hdecl, howned⟩ := ih ht'
        exact ⟨t, List.mem_cons_of_mem _ ht, hdecl, howned⟩

theorem declared_registerTexture (index : Nat) (decl : TextureDecl) (table : List TableTexture) :
    ∃ t ∈ registerTexture index decl table, t.decl.name = decl.name ∧ index ∈ t.effects := by
  induction table with
  | nil => exact ⟨_, List.mem_singleton.mpr rfl, rfl, List.mem_singleton.mpr rfl⟩
  | cons u rest ih =>
    rw [registerTexture]
    split
    · rename_i hname
      refine ⟨_, List.mem_cons_self, ?_⟩
      split
      · rename_i hmem
        exact ⟨hname, hmem⟩
      · exact ⟨hname, List.mem_append_right _ (List.mem_singleton.mpr rfl)⟩
    · obtain ⟨t, ht, hname, hmem⟩ := ih
      exact ⟨t, List.mem_cons_of_mem _ ht, hname, hmem⟩

theorem refs_registerTextures (index : Nat) (decls : List TextureDecl)
    (table : List TableTexture) :
    (registerTextures index decls table).flatMap TableTexture.refs
      = table.flatMap TableTexture.refs := by
  rw [registerTextures]
  induction decls generalizing table with
  | nil => rfl
  | cons decl decls ih => rw [List.foldl_cons, ih, refs_registerTexture]

theorem nodup_registerTextures (h : (table.map (·.decl.name)).Nodup) :
    ((registerTextures index decls table).map (·.decl.name)).Nodup := by
  rw [registerTextures]
  induction decls generalizing table with
  | nil => exact h
  | cons decl decls ih => exact ih (nodup_registerTexture h)

theorem exists_of_mem_registerTextures (index : Nat) (decls : List TextureDecl) {t : TableTexture}
    (ht : t ∈ table) : ∃ t' ∈ registerTextures index decls table, t.Grows t' := by
  rw [registerTextures]
  induction decls generalizing table t with
  | nil => exact ⟨t, ht, TableTexture.Grows.refl t⟩
  | cons decl decls ih =>
    obtain ⟨t₁, ht₁, hgrows₁⟩ := exists_of_mem_registerTexture ht
    obtain ⟨t₂, ht₂, hgrows₂⟩ := ih ht₁
    exact ⟨t₂, ht₂, hgrows₁.trans hgrows₂⟩

theorem owned_of_mem_registerTextures {t' : TableTexture} {o : OwnedTexture}
    (ht' : t' ∈ registerTextures index decls table) (ho : t'.owned = some o) :
    ∃ t ∈ table, t.decl = t'.decl ∧ t.owned = some o := by
  unfold registerTextures at ht'
  induction decls generalizing table with
  | nil => exact ⟨t', ht', rfl, ho⟩
  | cons decl decls ih =>
    obtain ⟨t₁, ht₁, hdecl₁, ho₁⟩ := ih ht'
    obtain ⟨t, ht, hdecl, ho⟩ := owned_of_mem_registerTexture ht₁ ho₁
    exact ⟨t, ht, hdecl.trans hdecl₁, ho⟩

theorem declared_registerTextures (h : decl ∈ decls) :
    ∃ t ∈ registerTextures index decls table, t.decl.name = decl.name ∧ index ∈ t.effects := by
  induction decls generalizing table with
  | nil => cases h
  | cons d decls ih =>
    rcases List.mem_cons.mp h with rfl | h
    · obtain ⟨t, ht, hname, hmem⟩ := declared_registerTexture index decl table
      obtain ⟨t', ht', hgrows⟩ := exists_of_mem_registerTextures index decls ht
      exact ⟨t', ht', hgrows.name.trans hname, hgrows.effects hmem⟩
    · exact ih h

/-- What holds of every entry still does if it holds of a new entry of the effect, and of an entry
that the effect is added to. -/
theorem registerTextures_induction {P : TableTexture → Prop}
    (hnew : ∀ decl ∈ decls, P { decl, effects := [index] })
    (hadd : ∀ t, P t → ∀ decl ∈ decls, t.decl.name = decl.name → index ∉ t.effects →
      P { t with effects := t.effects ++ [index] })
    (h : ∀ t ∈ table, P t) : ∀ t ∈ registerTextures index decls table, P t := by
  have hone : ∀ decl ∈ decls, ∀ table : List TableTexture, (∀ t ∈ table, P t) →
      ∀ t ∈ registerTexture index decl table, P t := by
    intro decl hdecl table
    induction table with
    | nil => exact fun _ ↦ List.forall_mem_singleton.mpr (hnew decl hdecl)
    | cons u rest ih =>
      intro h
      obtain ⟨hu, hrest⟩ := List.forall_mem_cons.mp h
      rw [registerTexture]
      by_cases hname : u.decl.name = decl.name
      · rw [if_pos hname]
        refine List.forall_mem_cons.mpr ⟨?_, hrest⟩
        by_cases hmem : index ∈ u.effects
        · rwa [if_pos hmem]
        · rw [if_neg hmem]
          exact hadd u hu decl hdecl hname hmem
      · rw [if_neg hname]
        exact List.forall_mem_cons.mpr ⟨hu, ih hrest⟩
  unfold registerTextures
  clear hnew hadd
  induction decls generalizing table with
  | nil => exact h
  | cons decl decls ih =>
    obtain ⟨hfirst, hrest⟩ := List.forall_mem_cons.mp hone
    exact ih (hfirst table h) hrest

theorem registerTextures_eq_self (hnames : (table.map (·.decl.name)).Nodup)
    (h : ∀ decl ∈ decls, ∃ t ∈ table, t.decl.name = decl.name ∧ index ∈ t.effects) :
    registerTextures index decls table = table := by
  have hone : ∀ decl ∈ decls, registerTexture index decl table = table := by
    intro decl hdecl
    obtain ⟨t, ht, hname, hindex⟩ := h decl hdecl
    clear h
    induction table with
    | nil => cases ht
    | cons u rest ih =>
      obtain ⟨hnot, hnames⟩ := List.nodup_cons.mp hnames
      rw [registerTexture]
      rcases List.mem_cons.mp ht with rfl | ht
      · rw [if_pos hname, if_pos hindex]
      · have hne : u.decl.name ≠ decl.name := fun heq ↦
          hnot (List.mem_map.mpr ⟨t, ht, hname.trans heq.symm⟩)
        rw [if_neg hne, ih hnames ht]
  clear h
  unfold registerTextures
  induction decls with
  | nil => rfl
  | cons decl decls ih =>
    obtain ⟨hfirst, hrest⟩ := List.forall_mem_cons.mp hone
    rw [List.foldl_cons, hfirst, ih hrest]

end Register

/-! ## Creating what an effect lacks -/

theorem TableTexture.awaits_iff {t : TableTexture} {index : Nat} : t.awaits index = true ↔
    t.owned = none ∧ t.decl.reference = .owned ∧ index ∈ t.effects := by
  simp [awaits, and_assoc]

theorem TableTexture.not_owned_of_awaits {t : TableTexture} {index : Nat}
    (h : t.awaits index = true) : t.owned = none :=
  (awaits_iff.mp h).1

theorem accounts_materialize (index : Nat) (table : List TableTexture) :
    Accounts ↑(table.flatMap TableTexture.refs) (materialize index table)
      (fun table ↦ ↑(table.flatMap TableTexture.refs)) ↑(table.flatMap TableTexture.refs) := by
  induction table with
  | nil => exact Accounts.pure rfl
  | cons t rest ih =>
    rw [materialize]
    split
    · rename_i hawaits
      -- the entry owns nothing yet, so what is created for it comes on top of the table
      have hrefs : t.refs = [] := by
        rw [TableTexture.refs, TableTexture.not_owned_of_awaits hawaits]
        rfl
      rw [List.flatMap_cons, hrefs, List.nil_append]
      refine Accounts.acquire (OwnedTexture.accounts_create t.decl) fun owned ↦ ?_
      have hframe := ih.frame ↑owned.refs
      rw [add_comm] at hframe
      refine hframe.bind fun table ↦ Accounts.pure ?_
      rw [List.flatMap_cons, ← Multiset.coe_add, add_comm]
      simp [TableTexture.refs]
    · rw [List.flatMap_cons, ← Multiset.coe_add, add_comm]
      refine (ih.frame ↑t.refs).bind fun table ↦ Accounts.pure ?_
      rw [List.flatMap_cons, ← Multiset.coe_add, add_comm]

theorem upholds_materialize (index : Nat) (table : List TableTexture) :
    Steady Device.Upholds (materialize index table) := by
  induction table with
  | nil => exact Steady.pure _
  | cons t rest ih =>
    rw [materialize]
    split
    · refine Steady.bind (OwnedTexture.upholds_create t.decl) fun owned ↦ ?_
      exact Steady.keeping (Steady.bind ih fun table ↦ Steady.pure _) fun d ↦
        Device.Upholds.release d _
    · exact Steady.bind ih fun table ↦ Steady.pure _

theorem evolves_materialize (index : Nat) (table : List TableTexture) :
    Steady Device.Evolves (materialize index table) :=
  (upholds_materialize index table).imp Device.Upholds.evolves

theorem materialize_eq_ok {index : Nat} {table table' : List TableTexture} {d d' : Device}
    (run : materialize index table d = (.ok table', d')) :
    TablesGrow table table' ∧
      ((∀ t ∈ table, ∀ o, t.owned = some o → o.Sound d t.decl) →
        ∀ t ∈ table', ∀ o, t.owned = some o → o.Sound d' t.decl) := by
  induction table generalizing d table' with
  | nil =>
    cases run
    exact ⟨List.Forall₂.nil, fun _ ↦ nofun⟩
  | cons t rest ih =>
    rw [materialize] at run
    by_cases hawaits : t.awaits index = true
    · rw [if_pos hawaits] at run
      obtain ⟨owned, d₁, howned, run⟩ := bind_eq_ok run
      obtain ⟨rest', d₂, hrest, run⟩ := bind_eq_ok (keeping_eq_ok run)
      cases run
      obtain ⟨hgrow, hsound⟩ := ih hrest
      have hnone := TableTexture.not_owned_of_awaits hawaits
      have hevolves₁ := ((OwnedTexture.upholds_create t.decl).run howned).evolves
      have hevolves₂ := (evolves_materialize index rest).run hrest
      refine ⟨List.Forall₂.cons ⟨rfl, List.Subset.refl _, fun o ho ↦ ?_⟩ hgrow, fun hs ↦ ?_⟩
      · -- the entry has no objects that could be replaced
        rw [hnone] at ho
        cases ho
      · intro u hu o ho
        rcases List.mem_cons.mp hu with rfl | hu
        · cases ho
          exact (OwnedTexture.sound_of_create howned).evolves hevolves₂
        · exact hsound (fun v hv o ho ↦
            (hs v (List.mem_cons_of_mem _ hv) o ho).evolves hevolves₁) u hu o ho
    · rw [if_neg hawaits] at run
      obtain ⟨rest', d₂, hrest, run⟩ := bind_eq_ok run
      cases run
      obtain ⟨hgrow, hsound⟩ := ih hrest
      refine ⟨List.Forall₂.cons (TableTexture.Grows.refl t) hgrow, fun hs ↦ ?_⟩
      intro u hu o ho
      rcases List.mem_cons.mp hu with rfl | hu
      · exact (hs u List.mem_cons_self o ho).evolves ((evolves_materialize index rest).run hrest)
      · exact hsound (fun v hv o ho ↦ hs v (List.mem_cons_of_mem _ hv) o ho) u hu o ho

/-- The entries that lack device objects get them, and the others stay. -/
theorem materialize_entries {index : Nat} {table table' : List TableTexture} {d d' : Device}
    (run : materialize index table d = (.ok table', d')) :
    List.Forall₂ (fun t t' ↦
        t.awaits index = true ∧ (∃ o, t' = { t with owned := some o }) ∨
          t.awaits index = false ∧ t' = t) table table' := by
  induction table generalizing d table' with
  | nil =>
    cases run
    exact List.Forall₂.nil
  | cons t rest ih =>
    rw [materialize] at run
    by_cases hawaits : t.awaits index = true
    · rw [if_pos hawaits] at run
      obtain ⟨owned, d₁, -, run⟩ := bind_eq_ok run
      obtain ⟨rest', d₂, hrest, run⟩ := bind_eq_ok (keeping_eq_ok run)
      cases run
      exact List.Forall₂.cons (Or.inl ⟨hawaits, owned, rfl⟩) (ih hrest)
    · rw [if_neg hawaits] at run
      obtain ⟨rest', d₂, hrest, run⟩ := bind_eq_ok run
      cases run
      exact List.Forall₂.cons (Or.inr ⟨by simpa using hawaits, rfl⟩) (ih hrest)

/-- An effect's textures are equipped, and then it lacks nothing. -/
theorem equips_materialize {index : Nat} {table table' : List TableTexture} {d d' : Device}
    (run : materialize index table d = (.ok table', d')) :
    List.Forall₂ TableTexture.Equips table table' ∧
      ∀ t ∈ table', index ∈ t.effects → t.decl.reference = .owned → t.owned.isSome := by
  have hentries := materialize_entries run
  refine ⟨hentries.imp fun t t' h ↦ ?_, fun t' ht' hindex href ↦ ?_⟩
  · rcases h with ⟨hawaits, o, rfl⟩ | ⟨-, rfl⟩
    · obtain ⟨-, href, -⟩ := TableTexture.awaits_iff.mp hawaits
      exact ⟨rfl, rfl, fun _ ↦ rfl, fun _ ↦ Or.inr href⟩
    · exact TableTexture.Equips.refl t'
  · obtain ⟨t, -, ⟨-, o, rfl⟩ | ⟨hawaits, rfl⟩⟩ := exists_of_forall₂_right hentries ht'
    · rfl
    · by_contra hnone
      refine absurd (TableTexture.awaits_iff.mpr ⟨?_, href, hindex⟩) (by simp [hawaits])
      simpa using hnone

/-- The assets with the textures of an effect created are sound if they were before. -/
theorem extends_materialize {index : Nat} {a : Assets} {textures : List TableTexture} {d : Device}
    (run : materialize index a.textures a.device = (.ok textures, d)) :
    a.Extends { a with device := d, textures } := by
  intro hs
  obtain ⟨hgrow, hsound⟩ := materialize_eq_ok run
  have hevolves := (evolves_materialize index a.textures).run run
  refine ⟨⟨hevolves, StateObjects.Grows.refl _, hgrow⟩, ?_, hsound hs.owned,
    hs.states.evolves hevolves⟩
  rw [hgrow.map_name]
  exact hs.names

/-! ## Withdrawing an effect -/

section Withdraw

variable {index : Nat} {table : List TableTexture}

def TableTexture.without (t : TableTexture) (index : Nat) : TableTexture :=
  { t with effects := t.effects.filter (· ≠ index) }

theorem withdrawTextures_eq (index : Nat) (table : List TableTexture) :
    withdrawTextures index table =
      ((table.map (·.without index)).filter fun t ↦ !t.effects.isEmpty,
        ((table.map (·.without index)).filter fun t ↦ !!t.effects.isEmpty).flatMap
          TableTexture.refs) := by
  rw [withdrawTextures]
  dsimp only
  rw [List.partition_eq_filter_filter]
  rfl

theorem coe_refs_withdrawTextures (index : Nat) (table : List TableTexture) :
    (↑(table.flatMap TableTexture.refs) : Multiset ObjectRef)
      = ↑(withdrawTextures index table).2
        + ↑((withdrawTextures index table).1.flatMap TableTexture.refs) := by
  have hstrip : (table.map (·.without index)).flatMap TableTexture.refs
      = table.flatMap TableTexture.refs := by
    rw [List.flatMap_map]
    rfl
  have hperm := (List.filter_append_perm (fun t : TableTexture ↦ !t.effects.isEmpty)
    (table.map (·.without index))).flatMap_right TableTexture.refs
  rw [hstrip, List.flatMap_append] at hperm
  rw [withdrawTextures_eq, add_comm, Multiset.coe_add, Multiset.coe_eq_coe]
  exact hperm.symm

/-- An entry is kept as it is, or withdrawn because no other effect declares it. -/
theorem withdrawTextures_cases {t : TableTexture} (index : Nat) (ht : t ∈ table) :
    (t.without index ∈ (withdrawTextures index table).1) ∨
      ((∀ i ∈ t.effects, i = index) ∧ t.refs ⊆ (withdrawTextures index table).2) := by
  have hmem : t.without index ∈ table.map (·.without index) := List.mem_map_of_mem ht
  rw [withdrawTextures_eq]
  rcases hempty : (t.without index).effects.isEmpty with _ | _
  · left
    exact List.mem_filter.mpr ⟨hmem, by rw [hempty]; rfl⟩
  · right
    refine ⟨fun i hi ↦ ?_, fun r hr ↦ List.mem_flatMap.mpr ⟨t.without index, ?_, hr⟩⟩
    · rw [List.isEmpty_iff, TableTexture.without, List.filter_eq_nil_iff] at hempty
      simpa using hempty i hi
    · exact List.mem_filter.mpr ⟨hmem, by rw [hempty]; rfl⟩

theorem exists_of_mem_withdrawTextures {t' : TableTexture}
    (ht' : t' ∈ (withdrawTextures index table).1) : ∃ t ∈ table, t' = t.without index := by
  rw [withdrawTextures_eq] at ht'
  obtain ⟨t, ht, rfl⟩ := List.mem_map.mp (List.mem_filter.mp ht').1
  exact ⟨t, ht, rfl⟩

theorem ne_nil_of_mem_withdrawTextures {t : TableTexture}
    (ht : t ∈ (withdrawTextures index table).1) : t.effects ≠ [] := by
  rw [withdrawTextures_eq] at ht
  simpa using (List.mem_filter.mp ht).2

theorem nodup_withdrawTextures (index : Nat) (h : (table.map (·.decl.name)).Nodup) :
    ((withdrawTextures index table).1.map (·.decl.name)).Nodup := by
  have hsub : ((withdrawTextures index table).1.map (·.decl.name)).Sublist
      ((table.map (·.without index)).map (·.decl.name)) := by
    rw [withdrawTextures_eq]
    exact List.filter_sublist.map _
  have hnames : (table.map (·.without index)).map (·.decl.name) = table.map (·.decl.name) := by
    rw [List.map_map]
    rfl
  rw [hnames] at hsub
  exact h.sublist hsub

end Withdraw

end EffectChain
