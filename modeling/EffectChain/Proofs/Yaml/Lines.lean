import EffectChain.Yaml.Node

/-!
# Lines of a block mapping

A line of a block mapping is indentation, a key, a colon and the value, or nothing if the value is a
mapping on the lines below. The scanner reads such a line in steps, and what it comes to is said by
the tokens that it has, however far it looks ahead (`Scanner.Reads`).

Two things are not settled when a line ends. A plain scalar may go on on the next one
(`Scanner.Hanging`), and which mappings are over only shows at the column of the next key. So the
tokens behind an entry are counted as if all that stands further right were closed already
(`Scanner.BehindEntry`). The entry that follows then has its key (`Scanner.AtEntry.key`) and its
value (`Scanner.BehindKey.value`, `Scanner.BehindKey.mapping`), and a mapping that ends is the value
of an entry around it (`Scanner.BehindEntry.close`).
-/

namespace EffectChain.Yaml

/-! ## Words -/

/-- The characters of words: letters, digits and underscores. -/
def isWordChar (c : Char) : Bool := c.isAlphanum || c = '_'

section

variable {c : Char}

theorem ne_of_isWordChar (hc : isWordChar c = true) {d : Char} (hd : isWordChar d = false) :
    c ≠ d := by
  rintro rfl
  exact Bool.false_ne_true (hd.symm.trans hc)

theorem toNat_of_isWordChar (hc : isWordChar c = true) : 0x30 ≤ c.toNat ∧ c.toNat ≤ 0x7A := by
  have hbetween : ∀ low high : Char, low.val ≤ c.val ∧ c.val ≤ high.val →
      low.toNat ≤ c.toNat ∧ c.toNat ≤ high.toNat := fun _ _ h ↦
    h.imp UInt32.le_iff_toNat_le.mp UInt32.le_iff_toNat_le.mp
  simp only [isWordChar, Char.isAlphanum, Bool.or_eq_true, decide_eq_true_eq] at hc
  rcases hc with (halpha | hdigit) | rfl
  · rcases (Bool.or_eq_true _ _).mp halpha with hupper | hlower
    · obtain ⟨hlow, hhigh⟩ := hbetween 'A' 'Z' (of_decide_eq_true hupper)
      exact ⟨Nat.le_trans (by decide) hlow, Nat.le_trans hhigh (by decide)⟩
    · obtain ⟨hlow, hhigh⟩ := hbetween 'a' 'z'
        (((Bool.and_eq_true _ _).mp hlower).imp of_decide_eq_true of_decide_eq_true)
      exact ⟨Nat.le_trans (by decide) hlow, Nat.le_trans hhigh (by decide)⟩
  · obtain ⟨hlow, hhigh⟩ := hbetween '0' '9'
      (((Bool.and_eq_true _ _).mp hdigit).imp of_decide_eq_true of_decide_eq_true)
    exact ⟨Nat.le_trans (by decide) hlow, Nat.le_trans hhigh (by decide)⟩
  · decide

theorem isBreak_of_isWordChar (hc : isWordChar c = true) : isBreak c = false := by
  rw [Bool.eq_false_iff]
  intro h
  simp only [isBreak, Bool.or_eq_true, decide_eq_true_eq] at h
  rcases h with (rfl | rfl) | rfl <;> exact absurd hc (by decide)

theorem isBlank_of_isWordChar (hc : isWordChar c = true) : isBlank c = false := by
  rw [Bool.eq_false_iff]
  intro h
  simp only [isBlank, Bool.or_eq_true, decide_eq_true_eq] at h
  rcases h with rfl | rfl <;> exact absurd hc (by decide)

theorem isIndicator_of_isWordChar (hc : isWordChar c = true) : isIndicator c = false := by
  rw [Bool.eq_false_iff]
  intro h
  have hall : ",[]{}#&*!|>'\"%@`".toList.all (!isWordChar ·) = true := by decide
  have hword := List.all_eq_true.mp hall c (List.contains_iff_mem.mp h)
  rw [hc] at hword
  exact absurd hword (by decide)

theorem isPrintable_of_isWordChar (hc : isWordChar c = true) : isPrintable c = true := by
  obtain ⟨hlow, hhigh⟩ := toNat_of_isWordChar hc
  simp only [isPrintable, Bool.or_eq_true, Bool.and_eq_true, decide_eq_true_eq]
  omega

theorem utf8Size_of_isWordChar (hc : isWordChar c = true) : c.utf8Size = 1 := by
  obtain ⟨-, hhigh⟩ := toNat_of_isWordChar hc
  rw [Char.utf8Size, if_pos]
  rw [UInt32.le_iff_toNat_le]
  exact Nat.le_trans hhigh (by decide)

theorem startsMarker_of_isWordChar (hc : isWordChar c = true) {m : Char}
    (hm : isWordChar m = false) (rest : List Char) : startsMarker m (c :: rest) = false := by
  have hne := ne_of_isWordChar hc hm
  rcases rest with _ | ⟨c₂, _ | ⟨c₃, rest⟩⟩ <;> simp [startsMarker, hne]

end

/-! ## Reading on -/

namespace Scanner

variable {s s' s'' : Scanner} {column : Nat} {indents : List Nat} {tokens : List Token} {c : Char}

/-- The scanner behind a character that was read. -/
def past (s : Scanner) (c : Char) : Scanner := { s with offset := s.offset + c.utf8Size }

theorem run_cons {rest : List Char} (h : s.step c rest = .ok s') :
    s.run (c :: rest) = (s'.past c).run rest := by
  rw [run, h]
  rfl

/-- The scanner comes from one state to another by a text, whatever follows. -/
def Reads (s : Scanner) (text : List Char) (s' : Scanner) : Prop :=
  ∀ rest, s.run (text ++ rest) = s'.run rest

theorem Reads.refl (s : Scanner) : s.Reads [] s := fun _ ↦ rfl

theorem Reads.trans {text text' : List Char} (h : s.Reads text s') (h' : s'.Reads text' s'') :
    s.Reads (text ++ text') s'' := by
  intro rest
  rw [List.append_assoc, h, h']

theorem Reads.of_step (h : ∀ rest, s.step c rest = .ok s') : s.Reads [c] (s'.past c) :=
  fun rest ↦ run_cons (h rest)

/-- A property that a character carries on is carried on by any number of them. -/
theorem exists_reads_of_forall (P : List Char → Scanner → Prop) (text : List Char)
    (hstep : ∀ {s read}, ∀ c ∈ text, P read s → ∃ s', s.Reads [c] s' ∧ P (c :: read) s')
    {read : List Char} (h : P read s) : ∃ s', s.Reads text s' ∧ P (text.reverse ++ read) s' := by
  induction text generalizing s read with
  | nil => exact ⟨s, .refl s, h⟩
  | cons c text ih =>
    obtain ⟨s₁, hreads, h₁⟩ := hstep c List.mem_cons_self h
    obtain ⟨s₂, hreads', h₂⟩ := ih (fun d hd ↦ hstep d (List.mem_cons_of_mem _ hd)) h₁
    refine ⟨s₂, hreads.trans hreads', ?_⟩
    rwa [List.reverse_cons, List.append_assoc, List.singleton_append]

/-! ### Where a line begins -/

/-- The scanner stands in block context between tokens, where a key may begin. -/
structure Fresh (s : Scanner) (column : Nat) (indents : List Nat) (tokens : List Token) : Prop where
  mode : s.mode = .between
  keyAllowed : s.keyAllowed = true
  outerPlaces : s.outerPlaces = []
  keyPlace : s.keyPlace = none
  column : s.column = column
  indents : s.indents = indents
  tokens : s.tokens = tokens

/-- The scanner stands in block context on a new line, on which a plain scalar may go on. -/
structure Hanging (s : Scanner) (column : Nat) (indents : List Nat) (tokens : List Token) :
    Prop where
  mode : ∃ text, s.mode = .scalar { style := .plain, text, gap := .breaks (some '\n') [] } ∧
    .scalar true (String.ofList text.reverse) :: s.tokens = tokens
  outerPlaces : s.outerPlaces = []
  keyPlace : s.keyPlace = none
  column : s.column = column
  indents : s.indents = indents

theorem Fresh.space (h : s.Fresh column indents tokens) :
    ∃ s' : Scanner, s.Reads [' '] s' ∧ s'.Fresh (column + 1) indents tokens := by
  refine ⟨s.advance.past ' ', .of_step fun rest ↦ ?_, h.mode, h.keyAllowed, h.outerPlaces,
    h.keyPlace, congrArg (· + 1) h.column, h.indents, h.tokens⟩
  rw [step, h.mode]
  rfl

theorem Hanging.space (h : s.Hanging column indents tokens) :
    ∃ s' : Scanner, s.Reads [' '] s' ∧ s'.Hanging (column + 1) indents tokens := by
  obtain ⟨text, hmode, htokens⟩ := h.mode
  refine ⟨(s.into { style := .plain, text, gap := .breaks (some '\n') [] }).past ' ',
    .of_step fun rest ↦ ?_, ⟨text, rfl, htokens⟩, h.outerPlaces, h.keyPlace,
    congrArg (· + 1) h.column, h.indents⟩
  rw [step, hmode]
  rfl

theorem Hanging.exists_fresh (h : s.Hanging column indents tokens)
    (hindented : ∃ i, indents.head? = some i ∧ column ≤ i) (hc : isWordChar c = true) :
    ∃ s' : Scanner, s'.Fresh column indents tokens ∧
      ∀ rest, s.step c rest = s'.stepBetween c rest := by
  obtain ⟨text, hmode, htokens⟩ := h.mode
  obtain ⟨i, hi, hle⟩ := hindented
  refine ⟨s.close { style := .plain, text, gap := .breaks (some '\n') [] },
    ⟨rfl, Bool.or_true _, h.outerPlaces, h.keyPlace, h.column, h.indents, htokens⟩, fun rest ↦ ?_⟩
  have hends : s.endsPlain { style := .plain, text, gap := .breaks (some '\n') [] } c rest := by
    have hlt : s.column < s.leastColumn := by
      rw [leastColumn, h.indents, hi, h.column]
      exact Nat.lt_succ_of_le hle
    simp [endsPlain, Gap.hasBreak, inFlow, h.outerPlaces, hlt]
  rw [step, hmode]
  simp only [if_true, stepPlain, isBreak_of_isWordChar hc, isBlank_of_isWordChar hc, hends,
    Bool.false_eq_true, if_false]

/-! ### Keys -/

/-- In a word that may be a key, with the tokens in front of it and its text so far, last character
first. -/
structure InKey (s : Scanner) (column : Nat) (indents : List Nat) (tokens : List Token)
    (text : List Char) : Prop where
  mode : s.mode = .scalar { style := .plain, text }
  keyAllowed : s.keyAllowed = false
  outerPlaces : s.outerPlaces = []
  keyPlace : ∃ k : KeyPlace, s.keyPlace = some k ∧ k.tokens = tokens.length ∧ k.line = s.line ∧
    k.column = column ∧ s.offset = k.offset + text.length
  column : column < s.column
  indents : s.indents = indents
  tokens : s.tokens = tokens

theorem forgetKeyPlaces_eq_ok (houter : s.outerPlaces = [])
    (hreach : ∀ k ∈ s.keyPlace, s.outOfReach k = false) : s.forgetKeyPlaces = .ok s := by
  have hnone : ((s.keyPlace :: s.outerPlaces).any fun place ↦
      place.any fun k ↦ k.required && s.outOfReach k) = false := by
    rw [houter]
    cases hkey : s.keyPlace with
    | none => rfl
    | some k => simp [hreach k hkey]
  have hkept : s.keyPlace.filter (!s.outOfReach ·) = s.keyPlace := by
    cases hkey : s.keyPlace with
    | none => rfl
    | some k => simp [Option.filter, hreach k hkey]
  have hmap : (s.outerPlaces.map fun place ↦ place.filter (!s.outOfReach ·)) = s.outerPlaces := by
    rw [houter]
    rfl
  rw [forgetKeyPlaces, hnone, hkept, hmap]
  rfl

theorem unindent_of_append (deeper : List Nat) {outer : List Nat} (houter : s.outerPlaces = [])
    (hindents : s.indents = deeper ++ outer) (hdeeper : ∀ i ∈ deeper, s.column < i)
    (hle : ∀ i ∈ outer.head?, i ≤ s.column) :
    s.unindent = { s with
      indents := outer, tokens := deeper.map (fun _ ↦ .closeBlock) ++ s.tokens } := by
  have hhead : ∀ i ∈ outer.head?, ¬s.column < i := fun i hi ↦ Nat.not_lt.mpr (hle i hi)
  have hdrop : outer.dropWhile (s.column < ·) = outer := by
    cases outer with
    | nil => rfl
    | cons i outer => simp [hhead i rfl]
  have htake : outer.takeWhile (s.column < ·) = [] := by
    cases outer with
    | nil => rfl
    | cons i outer => simp [hhead i rfl]
  have hall : ∀ i ∈ deeper, decide (s.column < i) = true := fun i hi ↦ decide_eq_true (hdeeper i hi)
  rw [unindent, inFlow, houter, hindents, List.dropWhile_append_of_pos hall,
    List.takeWhile_append_of_pos hall, hdrop, htake, List.append_nil]
  rfl

theorem readToken_of_isWordChar (hc : isWordChar c = true) (rest : List Char) :
    s.readToken c rest = s.openScalar .plain [c] := by
  rw [readToken, startsMarker_of_isWordChar hc (by decide),
    startsMarker_of_isWordChar hc (by decide)]
  simp only [Bool.and_false, Bool.false_eq_true, if_false, isIndicator_of_isWordChar hc]
  all_goals exact ne_of_isWordChar hc (by decide)

theorem stepBetween_of_isWordChar (hc : isWordChar c = true) (rest : List Char) :
    s.stepBetween c rest = s.forgetKeyPlaces.bind fun s ↦ s.unindent.openScalar .plain [c] := by
  have hspace : c ≠ ' ' := ne_of_isWordChar hc (by decide)
  have htab : c ≠ '\t' := ne_of_isWordChar hc (by decide)
  have hmark : c ≠ byteOrderMark := ne_of_isWordChar hc (by decide)
  have hcomment : c ≠ '#' := ne_of_isWordChar hc (by decide)
  simp [stepBetween, isBreak_of_isWordChar hc, hspace, htab, hmark, hcomment,
    readToken_of_isWordChar hc]

theorem Fresh.inKey {column : Nat} (deeper : List Nat) {outer : List Nat}
    (h : s.Fresh column (deeper ++ outer) tokens) (hdeeper : ∀ i ∈ deeper, column < i)
    (hle : ∀ i ∈ outer.head?, i ≤ column) (hc : isWordChar c = true) :
    ∃ s' : Scanner, (∀ rest, s.stepBetween c rest = .ok s') ∧
      (s'.past c).InKey column outer (deeper.map (fun _ ↦ .closeBlock) ++ tokens) [c] := by
  obtain ⟨hmode, hallowed, houter, hkey, rfl, hindents, rfl⟩ := h
  let s₁ : Scanner := { s with
    indents := outer, tokens := deeper.map (fun _ ↦ .closeBlock) ++ s.tokens }
  let k : KeyPlace :=
    { tokens := s₁.tokens.length, line := s.line, column := s.column, offset := s.offset,
      required := !s.inFlow && outer.head? = some s.column }
  refine ⟨{ s₁ with
      keyPlace := some k, column := s.column + 1, mode := .scalar { style := .plain, text := [c] },
      keyAllowed := false }, fun rest ↦ ?_, ?_⟩
  · rw [stepBetween_of_isWordChar hc, forgetKeyPlaces_eq_ok houter (by simp [hkey])]
    change s.unindent.openScalar .plain [c] = _
    rw [unindent_of_append deeper houter hindents hdeeper hle, openScalar, saveKeyPlace]
    simp only [hallowed, if_true, dropKeyPlace, hkey]
    rfl
  · refine ⟨rfl, rfl, houter, ⟨k, rfl, rfl, rfl, rfl, ?_⟩, Nat.lt_succ_self _, rfl, rfl⟩
    exact congrArg (s.offset + ·) (utf8Size_of_isWordChar hc)

theorem reads_word {text : List Char} (hmode : s.mode = .scalar { style := .plain, text })
    (houter : s.outerPlaces = []) (hc : isWordChar c = true) :
    s.Reads [c] ((s.into { style := .plain, text := c :: text }).past c) := by
  have hends (rest : List Char) : s.endsPlain { style := .plain, text } c rest = false := by
    have hcomment : c ≠ '#' := ne_of_isWordChar hc (by decide)
    have hcolon : c ≠ ':' := ne_of_isWordChar hc (by decide)
    simp [endsPlain, Gap.hasBreak, inFlow, houter, hcomment, hcolon]
  refine .of_step fun rest ↦ ?_
  rw [step, hmode]
  simp only [if_true, stepPlain, isBreak_of_isWordChar hc, isBlank_of_isWordChar hc, hends, inFlow,
    houter, List.isEmpty_nil, Bool.not_true, Bool.false_and, Bool.false_eq_true, if_false]
  rfl

theorem InKey.word {column : Nat} {text : List Char}
    (h : s.InKey column indents tokens text) (hc : isWordChar c = true) :
    ∃ s' : Scanner, s.Reads [c] s' ∧ s'.InKey column indents tokens (c :: text) := by
  obtain ⟨k, hkey, hbefore, hline, hcolumn, hoffset⟩ := h.keyPlace
  refine ⟨_, reads_word h.mode h.outerPlaces hc, rfl, h.keyAllowed, h.outerPlaces,
    ⟨k, hkey, hbefore, hline, hcolumn, ?_⟩, Nat.lt_succ_of_lt h.column, h.indents, h.tokens⟩
  change s.offset + c.utf8Size = k.offset + (text.length + 1)
  rw [hoffset, utf8Size_of_isWordChar hc, Nat.add_assoc]

/-- Behind the colon of a key, where its value may begin but no key. -/
structure BehindKey (s : Scanner) (indents : List Nat) (tokens : List Token) : Prop where
  mode : s.mode = .between
  keyAllowed : s.keyAllowed = false
  outerPlaces : s.outerPlaces = []
  keyPlace : s.keyPlace = none
  column : ∀ i ∈ indents.head?, i < s.column
  indents : s.indents = indents
  tokens : s.tokens = tokens

theorem stepBetween_colon {rest : List Char} (hrest : startsBlank rest = true) :
    s.stepBetween ':' rest = s.forgetKeyPlaces.bind fun s ↦ s.unindent.readColon := by
  have hmarker (m : Char) (hm : m ≠ ':') : startsMarker m (':' :: rest) = false := by
    rcases rest with _ | ⟨c₂, _ | ⟨c₃, rest⟩⟩ <;> simp [startsMarker, hm.symm]
  have hread (s : Scanner) : s.readToken ':' rest = s.readColon := by
    simp [readToken, hmarker, hrest]
  simp only [stepBetween, hread]
  rfl

theorem markKey_of_tokens {k : KeyPlace} {token : Token} (houter : s.outerPlaces = [])
    (htokens : s.tokens = token :: tokens) (hbefore : k.tokens = tokens.length) :
    s.markKey k =
      if s.indents.head?.all (· < k.column) then
        { s with
          indents := k.column :: s.indents, tokens := token :: .key :: .openBlockMapping :: tokens,
          keyPlace := none }
      else { s with tokens := token :: .key :: tokens, keyPlace := none } := by
  have hsince : (token :: tokens).length - k.tokens = 1 := by
    rw [hbefore]
    exact Nat.add_sub_cancel_left ..
  simp only [markKey, htokens, hsince, List.drop_succ_cons, List.drop_zero, List.take_succ_cons,
    List.take_zero, openBlock, inFlow, houter, List.isEmpty_nil, Bool.not_true, Bool.not_false,
    Bool.true_and]
  split <;> rfl

theorem InKey.colon {column : Nat} {text : List Char} (h : s.InKey column indents tokens text)
    (hle : ∀ i ∈ indents.head?, i ≤ column) (hreach : text.length ≤ keyReach) :
    ∃ s' : Scanner, (∀ rest, startsBlank rest = true → s.run (':' :: rest) = s'.run rest) ∧
      s'.BehindKey (if indents.head?.all (· < column) then column :: indents else indents)
        (.colon :: .scalar true (String.ofList text.reverse) :: .key ::
          if indents.head?.all (· < column) then .openBlockMapping :: tokens else tokens) := by
  obtain ⟨hmode, hallowed, houter, ⟨k, hkey, hbefore, hline, rfl, hoffset⟩, hcolumn, rfl, rfl⟩ := h
  let token := Token.scalar true (String.ofList text.reverse)
  -- the scanner when the word is over, whose place is still within reach
  let s₁ : Scanner := { s with mode := .between, tokens := token :: s.tokens }
  have hclose : s.close { style := .plain, text } = s₁ := by
    simp [close, s₁, token, hallowed, Gap.hasBreak, OpenScalar.token]
  have hforget : s₁.forgetKeyPlaces = .ok s₁ := by
    refine forgetKeyPlaces_eq_ok houter fun k' hk' ↦ ?_
    obtain rfl : k = k' := Option.some.inj (hkey.symm.trans hk')
    have hline : ¬k.line < s.line := by omega
    have hoffset : ¬k.offset + keyReach < s.offset := by omega
    simp [outOfReach, s₁, hline, hoffset]
  have hunindent : s₁.unindent = s₁ :=
    unindent_of_append [] houter rfl (by simp) fun i hi ↦
      Nat.le_of_lt (Nat.lt_of_le_of_lt (hle i hi) hcolumn)
  have hmark := markKey_of_tokens (s := s₁) houter (rfl : s₁.tokens = token :: s.tokens) hbefore
  refine ⟨((s₁.markKey k).emit .colon false).past ':', fun rest hrest ↦ run_cons ?_, ?_⟩
  · have hends : s.endsPlain { style := .plain, text } ':' rest = true := by
      simp [endsPlain, hrest]
    have hread : s₁.readColon = .ok ((s₁.markKey k).emit .colon false) := by
      rw [readColon, show s₁.keyPlace = some k from hkey]
    rw [step, hmode]
    simp only [if_true, stepPlain, hends]
    change (s.close { style := .plain, text }).stepBetween ':' rest = _
    rw [hclose, stepBetween_colon hrest, hforget]
    change s₁.unindent.readColon = _
    rw [hunindent, hread]
  · rw [hmark]
    by_cases hopen : s.indents.head?.all (· < k.column) = true
    · rw [if_pos hopen, if_pos hopen, if_pos hopen]
      refine ⟨rfl, rfl, houter, rfl, fun i hi ↦ ?_, rfl, rfl⟩
      obtain rfl := Option.some.inj hi
      exact Nat.lt_succ_of_lt hcolumn
    · rw [if_neg hopen, if_neg hopen, if_neg hopen]
      refine ⟨rfl, rfl, houter, rfl, fun i hi ↦ ?_, rfl, rfl⟩
      exact Nat.lt_succ_of_lt (Nat.lt_of_le_of_lt (hle i hi) hcolumn)

/-! ### Values -/

/-- In a word that is a value, with the tokens in front of it and its text so far, last character
first. -/
structure InValue (s : Scanner) (indents : List Nat) (tokens : List Token) (text : List Char) :
    Prop where
  mode : s.mode = .scalar { style := .plain, text }
  keyAllowed : s.keyAllowed = false
  outerPlaces : s.outerPlaces = []
  keyPlace : s.keyPlace = none
  indents : s.indents = indents
  tokens : s.tokens = tokens

theorem InValue.word {text : List Char} (h : s.InValue indents tokens text)
    (hc : isWordChar c = true) :
    ∃ s' : Scanner, s.Reads [c] s' ∧ s'.InValue indents tokens (c :: text) :=
  ⟨_, reads_word h.mode h.outerPlaces hc, rfl, h.keyAllowed, h.outerPlaces, h.keyPlace, h.indents,
    h.tokens⟩

theorem BehindKey.space (h : s.BehindKey indents tokens) :
    ∃ s' : Scanner, s.Reads [' '] s' ∧ s'.BehindKey indents tokens := by
  refine ⟨s.advance.past ' ', .of_step fun rest ↦ ?_, h.mode, h.keyAllowed, h.outerPlaces,
    h.keyPlace, fun i hi ↦ Nat.lt_succ_of_lt (h.column i hi), h.indents, h.tokens⟩
  rw [step, h.mode]
  rfl

theorem BehindKey.word (h : s.BehindKey indents tokens) (hc : isWordChar c = true) :
    ∃ s' : Scanner, s.Reads [c] s' ∧ s'.InValue indents tokens [c] := by
  obtain ⟨hmode, hallowed, houter, hkey, hcolumn, rfl, rfl⟩ := h
  have hunindent : s.unindent = s :=
    unindent_of_append [] houter rfl (by simp) fun i hi ↦ Nat.le_of_lt (hcolumn i hi)
  refine ⟨({ s.advance with mode := .scalar { style := .plain, text := [c] }, keyAllowed := false }
    : Scanner).past c, .of_step fun rest ↦ ?_, rfl, rfl, houter, hkey, rfl, rfl⟩
  rw [step, hmode]
  dsimp only
  rw [stepBetween_of_isWordChar hc, forgetKeyPlaces_eq_ok houter (by simp [hkey])]
  change s.unindent.openScalar .plain [c] = _
  rw [hunindent, openScalar, saveKeyPlace, hallowed]
  rfl

theorem BehindKey.endLine (h : s.BehindKey indents tokens) :
    ∃ s' : Scanner, s.Reads ['\n'] s' ∧ s'.Fresh 0 indents tokens := by
  refine ⟨s.newLine.past '\n', .of_step fun rest ↦ ?_, rfl, ?_, h.outerPlaces, h.keyPlace, rfl,
    h.indents, h.tokens⟩
  · rw [step, h.mode]
    rfl
  · change (s.keyAllowed || !s.inFlow) = true
    rw [inFlow, h.outerPlaces]
    exact Bool.or_true _

theorem InValue.endLine {text : List Char} (h : s.InValue indents tokens text) :
    ∃ s' : Scanner, s.Reads ['\n'] s' ∧
      s'.Hanging 0 indents (.scalar true (String.ofList text.reverse) :: tokens) := by
  refine ⟨(s.intoNextLine { style := .plain, text, gap := .breaks (some '\n') [] }).past '\n',
    .of_step fun rest ↦ ?_, ⟨text, rfl, ?_⟩, h.outerPlaces, h.keyPlace, rfl, h.indents⟩
  · rw [step, h.mode]
    rfl
  · rw [← h.tokens]
    rfl

/-! ### Entries -/

/-- The scanner stands in a line of which it has read a part of the indentation. -/
def AtLine (s : Scanner) (column : Nat) (indents : List Nat) (tokens : List Token) : Prop :=
  s.Fresh column indents tokens ∨ s.Hanging column indents tokens

theorem AtLine.space (h : s.AtLine column indents tokens) :
    ∃ s' : Scanner, s.Reads [' '] s' ∧ s'.AtLine (column + 1) indents tokens := by
  rcases h with h | h
  · obtain ⟨s', hreads, h'⟩ := h.space
    exact ⟨s', hreads, Or.inl h'⟩
  · obtain ⟨s', hreads, h'⟩ := h.space
    exact ⟨s', hreads, Or.inr h'⟩

/-- The scanner stands in a line behind an entry of a mapping at a depth. The tokens are those that
there will be once what stands further right is closed. -/
def BehindEntry (s : Scanner) (column depth : Nat) (outer : List Nat) (tokens : List Token) :
    Prop :=
  ∃ deeper tokens₀, s.AtLine column (deeper ++ depth :: outer) tokens₀ ∧
    (∀ i ∈ deeper, depth < i) ∧ tokens = deeper.map (fun _ ↦ Token.closeBlock) ++ tokens₀

/-- The scanner stands in a line that is an entry of a mapping at a depth, with the tokens that
there will be in front of its key. -/
inductive AtEntry (s : Scanner) (column depth : Nat) (outer : List Nat) : List Token → Prop
  /-- The first entry opens the mapping. -/
  | first {tokens : List Token} : s.Fresh column outer tokens → (∀ i ∈ outer.head?, i < depth) →
    AtEntry s column depth outer (.openBlockMapping :: tokens)
  /-- A later one follows an entry. -/
  | later {tokens : List Token} : s.BehindEntry column depth outer tokens →
    AtEntry s column depth outer tokens

variable {depth : Nat} {outer : List Nat}

theorem AtEntry.space (h : s.AtEntry column depth outer tokens) :
    ∃ s' : Scanner, s.Reads [' '] s' ∧ s'.AtEntry (column + 1) depth outer tokens := by
  cases h with
  | first h hlt =>
    obtain ⟨s', hreads, h'⟩ := h.space
    exact ⟨s', hreads, .first h' hlt⟩
  | later h =>
    obtain ⟨deeper, tokens₀, hline, hdeeper, rfl⟩ := h
    obtain ⟨s', hreads, hline'⟩ := hline.space
    exact ⟨s', hreads, .later ⟨deeper, tokens₀, hline', hdeeper, rfl⟩⟩

theorem AtEntry.spaces (h : s.AtEntry 0 depth outer tokens) :
    ∃ s' : Scanner, s.Reads (List.replicate depth ' ') s' ∧
      s'.AtEntry depth depth outer tokens := by
  let P (read : List Char) (s : Scanner) : Prop := s.AtEntry read.length depth outer tokens
  have hstep {s : Scanner} {read : List Char} (c : Char) (hc : c ∈ List.replicate depth ' ')
      (h : P read s) : ∃ s' : Scanner, s.Reads [c] s' ∧ P (c :: read) s' := by
    obtain rfl := List.eq_of_mem_replicate hc
    exact h.space
  obtain ⟨s', hreads, h'⟩ := exists_reads_of_forall P _ hstep (show P [] s from h)
  refine ⟨s', hreads, ?_⟩
  simpa [P] using h'

/-- A key begins, after which the mapping is the innermost one. -/
theorem AtEntry.inKey (h : s.AtEntry depth depth outer tokens) (hc : isWordChar c = true) :
    ∃ (s' : Scanner) (indents : List Nat) (tokens₀ : List Token), s.Reads [c] s' ∧
      s'.InKey depth indents tokens₀ [c] ∧ (∀ i ∈ indents.head?, i ≤ depth) ∧
      (if indents.head?.all (· < depth) then depth :: indents else indents) = depth :: outer ∧
      (if indents.head?.all (· < depth) then .openBlockMapping :: tokens₀ else tokens₀)
        = tokens := by
  cases h with
  | @first tokens hfresh hlt =>
    obtain ⟨s', hstep, hkey⟩ := hfresh.inKey [] (by simp)
      (fun i hi ↦ Nat.le_of_lt (hlt i hi)) hc
    have hopen : outer.head?.all (· < depth) = true := by
      cases hhead : outer.head? with
      | none => rfl
      | some i => exact decide_eq_true (hlt i hhead)
    refine ⟨s'.past c, outer, tokens, .of_step fun rest ↦ ?_, hkey,
      fun i hi ↦ Nat.le_of_lt (hlt i hi), if_pos hopen, if_pos hopen⟩
    rw [step, hfresh.mode]
    exact hstep rest
  | later h =>
    obtain ⟨deeper, tokens₀, hline, hdeeper, rfl⟩ := h
    -- a scalar of the line above is over, since the key is not indented further
    have hfresh : ∃ s₀ : Scanner, s₀.Fresh depth (deeper ++ depth :: outer) tokens₀ ∧
        ∀ rest, s.step c rest = s₀.stepBetween c rest := by
      rcases hline with hfresh | hhanging
      · refine ⟨s, hfresh, fun rest ↦ ?_⟩
        rw [step, hfresh.mode]
      · refine hhanging.exists_fresh ?_ hc
        cases deeper with
        | nil => exact ⟨depth, rfl, Nat.le_refl depth⟩
        | cons i deeper => exact ⟨i, rfl, Nat.le_of_lt (hdeeper i List.mem_cons_self)⟩
    obtain ⟨s₀, hfresh, hstep₀⟩ := hfresh
    have hle : ∀ i ∈ (depth :: outer).head?, i ≤ depth := by simp
    obtain ⟨s', hstep, hkey⟩ := hfresh.inKey deeper hdeeper hle hc
    refine ⟨s'.past c, depth :: outer, _, .of_step fun rest ↦ (hstep₀ rest).trans (hstep rest),
      hkey, hle, ?_, ?_⟩ <;> simp

theorem AtEntry.key (h : s.AtEntry depth depth outer tokens) {key : List Char} (hne : key ≠ [])
    (hkey : ∀ c ∈ key, isWordChar c = true) (hreach : key.length ≤ keyReach) :
    ∃ s' : Scanner,
      (∀ rest, startsBlank rest = true → s.run (key ++ ':' :: rest) = s'.run rest) ∧
      s'.BehindKey (depth :: outer)
        (.colon :: .scalar true (String.ofList key) :: .key :: tokens) := by
  obtain ⟨c, key, rfl⟩ := List.exists_cons_of_ne_nil hne
  obtain ⟨s₁, indents, tokens₀, hfirst, h₁, hle, hindents, htokens⟩ :=
    h.inKey (hkey c List.mem_cons_self)
  obtain ⟨s₂, hrest, h₂⟩ := exists_reads_of_forall
    (fun read s ↦ s.InKey depth indents tokens₀ read) key
    (fun d hd h ↦ InKey.word h (hkey d (List.mem_cons_of_mem _ hd))) h₁
  have hlength : (key.reverse ++ [c]).length ≤ keyReach := by simpa using hreach
  obtain ⟨s₃, hcolon, h₃⟩ := h₂.colon hle hlength
  refine ⟨s₃, fun rest hblank ↦ ?_, ?_⟩
  · rw [← hcolon rest hblank, ← hrest, ← hfirst]
    rfl
  · rw [hindents, htokens, List.reverse_append, List.reverse_reverse] at h₃
    exact h₃

theorem BehindKey.value (h : s.BehindKey (depth :: outer) tokens) {word : List Char}
    (hword : ∀ c ∈ word, isWordChar c = true) :
    ∃ s' : Scanner, s.Reads (' ' :: (word ++ ['\n'])) s' ∧ s'.BehindEntry 0 depth outer
      (if word = [] then tokens else .scalar true (String.ofList word) :: tokens) := by
  obtain ⟨s₁, hspace, h₁⟩ := h.space
  cases word with
  | nil =>
    obtain ⟨s₂, hend, h₂⟩ := h₁.endLine
    exact ⟨s₂, hspace.trans hend, [], _, Or.inl h₂, by simp, rfl⟩
  | cons c word =>
    obtain ⟨s₂, hfirst, h₂⟩ := h₁.word (hword c List.mem_cons_self)
    obtain ⟨s₃, hrest, h₃⟩ := exists_reads_of_forall
      (fun read s ↦ s.InValue (depth :: outer) tokens read) word
      (fun d hd h ↦ InValue.word h (hword d (List.mem_cons_of_mem _ hd))) h₂
    obtain ⟨s₄, hend, h₄⟩ := h₃.endLine
    refine ⟨s₄, (hspace.trans hfirst).trans (hrest.trans hend), [], _, Or.inr h₄, by simp, ?_⟩
    simp

theorem BehindKey.mapping (h : s.BehindKey (depth :: outer) tokens) {inner : Nat}
    (hlt : depth < inner) :
    ∃ s' : Scanner, s.Reads ['\n'] s' ∧
      s'.AtEntry 0 inner (depth :: outer) (.openBlockMapping :: tokens) := by
  obtain ⟨s', hend, h'⟩ := h.endLine
  refine ⟨s', hend, .first h' ?_⟩
  simpa using hlt

/-- Behind an entry of a mapping within, what is around it goes on. -/
theorem BehindEntry.close {inner : Nat} (h : s.BehindEntry column inner (depth :: outer) tokens)
    (hlt : depth < inner) : s.BehindEntry column depth outer (.closeBlock :: tokens) := by
  obtain ⟨deeper, tokens₀, hline, hdeeper, rfl⟩ := h
  refine ⟨deeper ++ [inner], tokens₀, by simpa using hline, fun i hi ↦ ?_, ?_⟩
  · rcases List.mem_append.mp hi with hi | hi
    · exact Nat.lt_trans hlt (hdeeper i hi)
    · obtain rfl := List.mem_singleton.mp hi
      exact hlt
  · rw [List.map_const', List.map_const', List.length_append, List.length_singleton,
      List.replicate_succ, List.cons_append]

end Scanner

end EffectChain.Yaml
