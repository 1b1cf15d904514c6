import EffectChain.Proofs.Yaml.Lines

/-!
# What is written reads back

A node is written in block style: a word stands behind its key, and a mapping on the lines below. So
what can be written is a word, an empty place or a mapping of such nodes that is not empty
(`Node.Writable`), and it reads back as it was (`Node.parse_render`).

The way back has two halves, each a recursion over the node. The scanner makes of the lines of a
node its tokens (`Node.reads_value`, `Node.scan_render`), and the tokens are read as the node
(`Node.readPlace_tokens`).
-/

namespace EffectChain.Yaml

namespace Node

/-! ## What can be written -/

/-- A text of letters, digits and underscores. It may be empty. -/
def IsWord (text : String) : Prop := ∀ c ∈ text.toList, isWordChar c = true

instance (text : String) : Decidable (IsWord text) :=
  decidable_of_iff (text.toList.all isWordChar = true) List.all_eq_true

/-- A word that is found to be a key when its colon is reached. -/
structure IsKey (text : String) : Prop where
  isWord : IsWord text
  ne : text.toList ≠ []
  reach : text.toList.length ≤ keyReach

mutual

/-- What is written as it is: a word or an empty place, or a mapping that is not empty of such nodes
by keys. -/
def Writable : Node → Prop
  | .scalar plain text => plain = true ∧ IsWord text
  | .mapping entries => entries ≠ [] ∧ EntriesWritable entries
  | .sequence _ => False

def EntriesWritable : List (Node × Node) → Prop
  | [] => True
  | entry :: rest => EntryWritable entry ∧ EntriesWritable rest

/-- The entry has a key and a value that can be written. -/
def EntryWritable : Node × Node → Prop
  | (key, value) => (∃ text, key = .plain text ∧ IsKey text) ∧ value.Writable

end

/-! ## Characters -/

def chars (lines : List String) : List Char := lines.flatMap fun line ↦ line.toList ++ ['\n']

theorem chars_append (lines lines' : List String) :
    chars (lines ++ lines') = chars lines ++ chars lines' :=
  List.flatMap_append

theorem toList_render_mapping (entries : List (Node × Node)) :
    (render (.mapping entries)).toList = chars (lines 0 entries) := by
  rw [render, String.toList_join, chars, List.flatMap_map]
  simp [String.toList_append]

theorem chars_valueLines (depth : Nat) (head : String) (value : Node) :
    chars (valueLines depth head value) = head.toList ++ chars (valueLines depth "" value) := by
  cases value <;> simp [valueLines, chars]

theorem chars_entryLines (depth : Nat) (key value : Node) :
    chars (entryLines depth (key, value)) = List.replicate depth ' ' ++
      (key.scalarText.toList ++ ':' :: chars (valueLines depth "" value)) := by
  rw [entryLines, chars_valueLines]
  simp [String.toList_append]

theorem chars_scalar (depth : Nat) (plain : Bool) (text : String) :
    chars (valueLines depth "" (.scalar plain text)) = ' ' :: (text.toList ++ ['\n']) := by
  simp [valueLines, chars, String.toList_append]

theorem chars_mapping (depth : Nat) (entries : List (Node × Node)) :
    chars (valueLines depth "" (.mapping entries))
      = ['\n'] ++ chars (lines (depth + 2) entries) := by
  simp [valueLines, chars]

theorem startsBlank_value (depth : Nat) (value : Node) (rest : List Char) :
    startsBlank (chars (valueLines depth "" value) ++ rest) = true := by
  cases value <;> simp [valueLines, chars, startsBlank, isBlank, isBreak]

/-! ## Tokens -/

mutual

/-- The tokens of a node that can be written. -/
def tokens : Node → List Token
  | .scalar plain text => if text.toList = [] then [] else [.scalar plain text]
  | .mapping entries => .openBlockMapping :: (entriesTokens entries ++ [.closeBlock])
  | .sequence _ => []

def entriesTokens : List (Node × Node) → List Token
  | [] => []
  | entry :: rest => entryTokens entry ++ entriesTokens rest

def entryTokens : Node × Node → List Token
  | (key, value) => .key :: .scalar true key.scalarText :: .colon :: value.tokens

end

open Scanner

mutual

theorem reads_value (value : Node) (hvalue : value.Writable) {s : Scanner} {depth : Nat}
    {outer : List Nat} {before : List Token} (h : s.BehindKey (depth :: outer) before) :
    ∃ s' : Scanner, s.Reads (chars (valueLines depth "" value)) s' ∧
      s'.BehindEntry 0 depth outer (value.tokens.reverse ++ before) := by
  match value with
  | .scalar plain text =>
    obtain ⟨rfl, hword⟩ := hvalue
    obtain ⟨s', hreads, h'⟩ := h.value hword
    rw [chars_scalar, tokens]
    refine ⟨s', hreads, ?_⟩
    split at h' <;> rename_i hempty
    · rwa [if_pos hempty]
    · rw [if_neg hempty]
      simpa using h'
  | .mapping (entry :: rest) =>
    obtain ⟨-, hentry, hrest⟩ := hvalue
    obtain ⟨s₁, hbreak, h₁⟩ := h.mapping (Nat.lt_add_of_pos_right (by decide : 0 < 2))
    obtain ⟨s₂, hreads, h₂⟩ := reads_entry entry hentry h₁
    obtain ⟨s₃, hreads', h₃⟩ := reads_entries rest hrest h₂
    rw [chars_mapping, lines, chars_append]
    refine ⟨s₃, hbreak.trans (hreads.trans hreads'), ?_⟩
    have h₄ := h₃.close (Nat.lt_add_of_pos_right (by decide : 0 < 2))
    simpa [tokens, entriesTokens] using h₄

theorem reads_entries (entries : List (Node × Node)) (hentries : EntriesWritable entries)
    {s : Scanner} {depth : Nat} {outer : List Nat} {before : List Token}
    (h : s.BehindEntry 0 depth outer before) :
    ∃ s' : Scanner, s.Reads (chars (lines depth entries)) s' ∧
      s'.BehindEntry 0 depth outer ((entriesTokens entries).reverse ++ before) := by
  match entries with
  | [] => exact ⟨s, .refl s, h⟩
  | entry :: rest =>
    obtain ⟨hentry, hrest⟩ := hentries
    obtain ⟨s₁, hreads, h₁⟩ := reads_entry entry hentry (.later h)
    obtain ⟨s₂, hreads', h₂⟩ := reads_entries rest hrest h₁
    rw [lines, chars_append]
    refine ⟨s₂, hreads.trans hreads', ?_⟩
    simpa [entriesTokens] using h₂

theorem reads_entry (entry : Node × Node) (hentry : EntryWritable entry) {s : Scanner}
    {depth : Nat} {outer : List Nat} {before : List Token} (h : s.AtEntry 0 depth outer before) :
    ∃ s' : Scanner, s.Reads (chars (entryLines depth entry)) s' ∧
      s'.BehindEntry 0 depth outer ((entryTokens entry).reverse ++ before) := by
  match entry with
  | (key, value) =>
    obtain ⟨⟨text, rfl, hkey⟩, hvalue⟩ := hentry
    obtain ⟨s₁, hindent, h₁⟩ := h.spaces
    obtain ⟨s₂, hcolon, h₂⟩ := h₁.key hkey.ne hkey.isWord hkey.reach
    obtain ⟨s₃, hreads, h₃⟩ := reads_value value hvalue h₂
    refine ⟨s₃, fun rest ↦ ?_, ?_⟩
    · rw [chars_entryLines, List.append_assoc, hindent, List.append_assoc, List.cons_append]
      exact (hcolon _ (startsBlank_value depth value rest)).trans (hreads rest)
    · simpa [entryTokens, scalarText, Node.plain] using h₃

end

/-! ## Characters that may stand in a text -/

/-- The characters that a text keeps: a document may hold them, and they are no line break but a
line feed. -/
def IsKept (c : Char) : Prop := isPrintable c = true ∧ c ≠ '\r' ∧ c ≠ '\u0085'

instance (c : Char) : Decidable (IsKept c) := inferInstanceAs (Decidable (_ ∧ _))

theorem IsWord.isKept {text : String} (h : IsWord text) : ∀ c ∈ text.toList, IsKept c :=
  fun c hc ↦ ⟨isPrintable_of_isWordChar (h c hc), ne_of_isWordChar (h c hc) (by decide),
    ne_of_isWordChar (h c hc) (by decide)⟩

theorem unifyBreaks_eq_self {text : List Char} (h : ∀ c ∈ text, IsKept c) :
    unifyBreaks text = text := by
  induction text with
  | nil => rfl
  | cons c text ih =>
    obtain ⟨⟨-, hreturn, hnext⟩, hrest⟩ := List.forall_mem_cons.mp h
    rw [unifyBreaks, ih hrest]
    · simp [hreturn, hnext]
    · exact fun _ heq ↦ absurd heq hreturn

mutual

theorem isKept_value (value : Node) (hvalue : value.Writable) (depth : Nat) :
    ∀ c ∈ chars (valueLines depth "" value), IsKept c := by
  match value with
  | .scalar plain text =>
    rw [chars_scalar]
    exact List.forall_mem_cons.mpr ⟨by decide, List.forall_mem_append.mpr
      ⟨hvalue.2.isKept, List.forall_mem_singleton.mpr (by decide)⟩⟩
  | .mapping entries =>
    rw [chars_mapping]
    exact List.forall_mem_append.mpr
      ⟨List.forall_mem_singleton.mpr (by decide), isKept_entries entries hvalue.2 (depth + 2)⟩

theorem isKept_entries (entries : List (Node × Node)) (hentries : EntriesWritable entries)
    (depth : Nat) : ∀ c ∈ chars (lines depth entries), IsKept c := by
  match entries with
  | [] => exact fun c hc ↦ nomatch hc
  | entry :: rest =>
    rw [lines, chars_append]
    exact List.forall_mem_append.mpr
      ⟨isKept_entry entry hentries.1 depth, isKept_entries rest hentries.2 depth⟩

theorem isKept_entry (entry : Node × Node) (hentry : EntryWritable entry) (depth : Nat) :
    ∀ c ∈ chars (entryLines depth entry), IsKept c := by
  match entry with
  | (key, value) =>
    obtain ⟨⟨text, rfl, hkey⟩, hvalue⟩ := hentry
    rw [chars_entryLines]
    refine List.forall_mem_append.mpr ⟨fun c hc ↦ ?_, List.forall_mem_append.mpr
      ⟨hkey.isWord.isKept, List.forall_mem_cons.mpr ⟨by decide, isKept_value value hvalue depth⟩⟩⟩
    obtain rfl := List.eq_of_mem_replicate hc
    decide

end

/-! ## From the text to the tokens -/

theorem finish_of_behindEntry {s : Scanner} {before : List Token}
    (h : s.BehindEntry 0 0 [] before) : s.finish = .ok (.closeBlock :: before).reverse := by
  obtain ⟨deeper, tokens₀, hline, -, rfl⟩ := h
  have hclose : ∃ s' : Scanner, s.closeLast = .ok s' ∧ s'.Fresh 0 (deeper ++ [0]) tokens₀ := by
    rcases hline with h | h
    · exact ⟨s, by rw [closeLast, h.mode], h⟩
    · obtain ⟨text, hmode, htokens⟩ := h.mode
      refine ⟨s.close { style := .plain, text, gap := .breaks (some '\n') [] }, ?_, rfl,
        Bool.or_true _, h.outerPlaces, h.keyPlace, h.column, h.indents, htokens⟩
      rw [closeLast, hmode]
      rfl
  obtain ⟨s', hlast, h'⟩ := hclose
  have hblocks : s'.closeBlocks = { s' with
      indents := [],
      tokens := (deeper ++ [0]).map (fun _ ↦ .closeBlock) ++ tokens₀ } := by
    rw [closeBlocks, inFlow, h'.outerPlaces, h'.indents, h'.tokens]
    rfl
  rw [finish, hlast]
  simp only [bind, Except.bind, hblocks, dropKeyPlace, h'.keyPlace]
  rw [List.map_const', List.map_const', List.length_append, List.length_singleton,
    List.replicate_succ]
  rfl

theorem scan_render {entries : List (Node × Node)} (h : (Node.mapping entries).Writable) :
    scan (render (.mapping entries)).toList = .ok (tokens (.mapping entries)) := by
  obtain ⟨hne, hentries⟩ := h
  rw [toList_render_mapping, scan, List.find?_eq_none.mpr fun c hc ↦ ?_]
  · rw [unifyBreaks_eq_self (isKept_entries entries hentries 0)]
    obtain ⟨entry, rest, rfl⟩ := List.exists_cons_of_ne_nil hne
    obtain ⟨hentry, hrest⟩ := hentries
    have hstart : ({} : Scanner).AtEntry 0 0 [] [.openBlockMapping] :=
      .first ⟨rfl, rfl, rfl, rfl, rfl, rfl, rfl⟩ (by simp)
    obtain ⟨s₁, hreads, h₁⟩ := reads_entry entry hentry hstart
    obtain ⟨s₂, hreads', h₂⟩ := reads_entries rest hrest h₁
    have hrun := hreads.trans hreads' []
    rw [List.append_nil] at hrun
    dsimp only
    rw [lines, chars_append, hrun, run, finish_of_behindEntry h₂]
    simp [tokens, entriesTokens]
  · simp [(isKept_entries entries hentries 0 c hc).1]

/-! ## From the tokens to the node -/

theorem beginsNode_entriesTokens (entries : List (Node × Node)) (rest : List Token) :
    (entriesTokens entries ++ .closeBlock :: rest).head?.any (·.beginsNode) = false := by
  rcases entries with _ | ⟨⟨key, value⟩, entries⟩ <;>
    simp [entriesTokens, entryTokens, Token.beginsNode]

theorem readPlace_scalar (fuel : Nat) (text : String) (rest : List Token) :
    readPlace (fuel + 2) (.scalar true text :: rest) = .ok (.plain text, rest) := by
  simp [readPlace, read, Token.beginsNode, Node.plain]

theorem readValue_colon (fuel : Nat) (rest : List Token) :
    readValue (fuel + 1) (.colon :: rest) = readPlace fuel rest := by
  rw [readValue]

mutual

theorem readPlace_tokens (value : Node) (hvalue : value.Writable) (fuel : Nat) (rest : List Token)
    (hfuel : 4 * value.tokens.length + 2 ≤ fuel)
    (hrest : rest.head?.any (·.beginsNode) = false) :
    readPlace fuel (value.tokens ++ rest) = .ok (value, rest) := by
  match value, fuel, hfuel with
  | .scalar plain text, fuel + 2, _ =>
    obtain ⟨rfl, -⟩ := hvalue
    rw [tokens]
    split <;> rename_i hempty
    · obtain rfl : text = "" := String.toList_inj.mp hempty
      rw [List.nil_append, readPlace, hrest]
      rfl
    · exact readPlace_scalar fuel text rest
  | .mapping entries, fuel + 2, hfuel =>
    simp only [tokens, List.length_cons, List.length_append, List.length_nil] at hfuel
    rw [tokens, List.cons_append, List.append_assoc, readPlace]
    exact read_mapping entries hvalue.2 (fuel + 1) rest (by omega)

theorem read_mapping (entries : List (Node × Node)) (hentries : EntriesWritable entries)
    (fuel : Nat) (rest : List Token) (hfuel : 4 * (entriesTokens entries).length + 2 ≤ fuel) :
    read fuel (.openBlockMapping :: (entriesTokens entries ++ .closeBlock :: rest))
      = .ok (.mapping entries, rest) := by
  match fuel, hfuel with
  | fuel + 1, hfuel =>
    have hread := readEntries_tokens entries hentries fuel rest (by omega)
    rw [read, hread]
    rfl

theorem readEntries_tokens (entries : List (Node × Node)) (hentries : EntriesWritable entries)
    (fuel : Nat) (rest : List Token) (hfuel : 4 * (entriesTokens entries).length + 1 ≤ fuel) :
    readEntries fuel (entriesTokens entries ++ .closeBlock :: rest)
      = .ok (entries, .closeBlock :: rest) := by
  match entries, fuel, hfuel with
  | [], fuel + 1, _ => simp [entriesTokens, readEntries]
  | (key, value) :: entries, fuel + 4, hfuel =>
    obtain ⟨⟨⟨text, rfl, -⟩, hvalue⟩, hentries⟩ := hentries
    simp only [entriesTokens, entryTokens, List.length_append, List.length_cons] at hfuel
    have hplace := readPlace_tokens value hvalue (fuel + 2) _ (by omega)
      (beginsNode_entriesTokens entries rest)
    have hlater := readEntries_tokens entries hentries (fuel + 3) rest (by omega)
    rw [entriesTokens, entryTokens, List.cons_append, List.cons_append, List.cons_append,
      List.cons_append, List.cons_append, List.cons_append, List.append_assoc, readEntries,
      Node.plain, scalarText, readPlace_scalar]
    simp only [bind, Except.bind, readValue_colon, hplace, hlater]
    rfl

end

/-- **What is written reads back.** -/
theorem parse_render {entries : List (Node × Node)} (h : (Node.mapping entries).Writable) :
    Node.parse (render (.mapping entries)) = .ok (.mapping entries) := by
  have hread := read_mapping entries h.2 (4 * (tokens (.mapping entries)).length + 4) []
    (by simp only [tokens, List.length_cons, List.length_append]; omega)
  rw [Node.parse, scan_render h]
  rw [tokens] at hread ⊢
  simp only [bind, Except.bind, ofTokens?, hread]
  rfl

end Node

end EffectChain.Yaml
