import EffectChain.Yaml.Character
import EffectChain.Yaml.Error

/-!
# Tokens of a YAML document

The documents read here use block mappings and sequences, flow collections, comments, document
markers and plain or quoted scalars. `scan` cuts a text into tokens in one pass, a character at a
time: the scanner is a state with a mode, so it is a fold over the text and needs no measure.

Indentation becomes tokens too. The scanner keeps the columns of the open block collections, opens
one where a dash or a key stands further right than the innermost, and closes those that stand
further right than the next token.

That something is a key only shows at the colon behind it. So the scanner remembers, for each level
of flow collections, the place where the last possible key began, and marks the key there when it
meets the colon (`Scanner.markKey`). A key stands on one line and takes up at most 1024 bytes; a
place that is out of reach is forgotten, or is an error where nothing but a key may stand.

A scalar may go on over several lines. A plain one does so as long as the lines are indented further
than the innermost block collection.
-/

namespace EffectChain.Yaml

/-! ## Tokens -/

/-- A token. -/
inductive Token
  /-- A block sequence begins, at its first dash. -/
  | openBlockSequence
  /-- A block mapping begins, at its first key. -/
  | openBlockMapping
  /-- The innermost block collection ends. -/
  | closeBlock
  /-- The dash of an item. -/
  | dash
  /-- A key begins. -/
  | key
  | colon
  | comma
  | openSequence
  | closeSequence
  | openMapping
  | closeMapping
  /-- A scalar, plain or quoted, with its text. -/
  | scalar (plain : Bool) (text : String)
  | documentStart
  | documentEnd
  deriving DecidableEq

/-! ## Scalars -/

/-- How an open scalar is written. -/
inductive Style
  | plain
  | single
  | double
  deriving DecidableEq

/-- What the next character of a quoted scalar completes. -/
inductive Pending
  /-- Nothing. -/
  | nothing
  /-- A doubled quote. -/
  | quote
  /-- An escape sequence. -/
  | escape
  /-- A character code, with the hexadecimal digits still to come. -/
  | code (digits : Nat) (value : Nat)

/-- What stands in a scalar since its last text, which counts only if more text follows. Characters
are kept last first. -/
inductive Gap
  /-- Blanks within a line. -/
  | blanks (cs : List Char)
  /-- Line breaks with the blanks around them: the first one, unless it is escaped, and those after
  it. -/
  | breaks (first : Option Char) (further : List Char)

namespace Gap

def isEmpty : Gap → Bool
  | blanks cs => cs.isEmpty
  | breaks .. => false

def hasBreak : Gap → Bool
  | blanks _ => false
  | breaks .. => true

/-- The gap with one more blank, which counts only within a line. -/
def addBlank (c : Char) : Gap → Gap
  | blanks cs => .blanks (c :: cs)
  | gap => gap

def addBreak (c : Char) : Gap → Gap
  | blanks _ => .breaks (some c) []
  | breaks first further => .breaks first (c :: further)

/-- The text of the gap, last character first: blanks and line breaks as they are, but a single line
feed is a space, and with further breaks behind it, it is nothing. -/
def text : Gap → List Char
  | blanks cs => cs
  | breaks none further => further
  | breaks (some c) further =>
    if c ≠ '\n' then further ++ [c] else if further.isEmpty then [' '] else further

end Gap

/-- A scalar being read. Text is kept last character first. -/
structure OpenScalar where
  /-- How it is written. -/
  style : Style
  /-- What has been read. -/
  text : List Char := []
  /-- What stands since the last text. -/
  gap : Gap := .blanks []
  /-- What the next character completes. -/
  pending : Pending := .nothing

namespace OpenScalar

def flushed (s : OpenScalar) : List Char := s.gap.text ++ s.text

def push (s : OpenScalar) (c : Char) : OpenScalar :=
  { s with text := c :: s.flushed, gap := .blanks [], pending := .nothing }

/-- The finished token. A gap at the end of a plain scalar does not belong to it. -/
def token (s : OpenScalar) : Token :=
  let text := if s.style = .plain then s.text else s.flushed
  .scalar (s.style = .plain) (String.ofList text.reverse)

end OpenScalar

/-! ## The scanner -/

/-- Where the scanner stands. -/
inductive Mode
  /-- Between tokens. -/
  | between
  /-- In a comment. -/
  | comment
  /-- In a document marker, with the characters still to come. -/
  | marker (remaining : Nat)
  /-- In a scalar. -/
  | scalar (s : OpenScalar)

/-- A place where a key may have begun. -/
structure KeyPlace where
  /-- Number of tokens in front of it. -/
  tokens : Nat
  /-- Its line. -/
  line : Nat
  /-- Its column. -/
  column : Nat
  /-- Number of bytes in front of it. -/
  offset : Nat
  /-- Whether nothing but a key may stand there, since the keys of the innermost mapping do. -/
  required : Bool

/-- The state of the scanner. Tokens are kept last first. -/
structure Scanner where
  /-- Current line. -/
  line : Nat := 0
  /-- Current column. -/
  column : Nat := 0
  /-- Number of bytes read. -/
  offset : Nat := 0
  /-- Whether a key may begin here. -/
  keyAllowed : Bool := true
  /-- The columns of the open block collections, innermost first. -/
  indents : List Nat := []
  /-- The last place where a key may have begun. -/
  keyPlace : Option KeyPlace := none
  /-- The same for what is around each open flow collection, innermost first. -/
  outerPlaces : List (Option KeyPlace) := []
  /-- What is being read. -/
  mode : Mode := .between
  /-- Tokens so far. -/
  tokens : List Token := []

/-- The number of bytes that a key and the blanks behind it may take up. -/
def keyReach : Nat := 1024

namespace Scanner

/-- Whether the scanner stands in a flow collection, where indentation does not count. -/
def inFlow (s : Scanner) : Bool := !s.outerPlaces.isEmpty

def advance (s : Scanner) : Scanner := { s with column := s.column + 1 }

/-- Moves to the next line. In block context a key may begin there. -/
def newLine (s : Scanner) : Scanner :=
  { s with
    line := s.line + 1
    column := 0
    keyAllowed := s.keyAllowed || !s.inFlow
    mode := .between }

/-! ### Block collections -/

/-- Closes the block collections that stand further right than the current column. -/
def unindent (s : Scanner) : Scanner :=
  if s.inFlow then s
  else
    { s with
      indents := s.indents.dropWhile (s.column < ·)
      tokens := (s.indents.takeWhile (s.column < ·)).map (fun _ ↦ .closeBlock) ++ s.tokens }

def closeBlocks (s : Scanner) : Scanner :=
  if s.inFlow then s
  else { s with indents := [], tokens := s.indents.map (fun _ ↦ .closeBlock) ++ s.tokens }

/-- Opens a block collection at a column, unless the innermost one stands there or beyond. -/
def openBlock (s : Scanner) (column : Nat) (opening : Token) : Scanner :=
  if !s.inFlow && s.indents.head?.all (· < column) then
    { s with indents := column :: s.indents, tokens := opening :: s.tokens }
  else s

/-- The column at which the content of the innermost block collection starts at the earliest. -/
def leastColumn (s : Scanner) : Nat := s.indents.head?.elim 0 (· + 1)

/-! ### Keys -/

/-- Whether a colon that stands here is too far from a place for a key. -/
def outOfReach (s : Scanner) (k : KeyPlace) : Bool :=
  k.line < s.line || k.offset + keyReach < s.offset

/-- Forgets the places that are out of reach. -/
def forgetKeyPlaces (s : Scanner) : Except YamlError Scanner :=
  if (s.keyPlace :: s.outerPlaces).any fun place ↦
      place.any fun k ↦ k.required && s.outOfReach k then
    .error .keyWithoutColon
  else
    .ok { s with
      keyPlace := s.keyPlace.filter (!s.outOfReach ·)
      outerPlaces := s.outerPlaces.map fun place ↦ place.filter (!s.outOfReach ·) }

def dropKeyPlace (s : Scanner) : Except YamlError Scanner :=
  if s.keyPlace.any (·.required) then .error .keyWithoutColon else .ok { s with keyPlace := none }

/-- Remembers the current place, if a key may begin here. -/
def saveKeyPlace (s : Scanner) : Except YamlError Scanner :=
  if s.keyAllowed then
    s.dropKeyPlace.map fun s ↦
      { s with
        keyPlace := some
          { tokens := s.tokens.length, line := s.line, column := s.column, offset := s.offset,
            required := !s.inFlow && s.indents.head? = some s.column } }
  else .ok s

/-- Marks what began at a place as a key, which opens a block mapping if need be. -/
def markKey (s : Scanner) (k : KeyPlace) : Scanner :=
  let since := s.tokens.length - k.tokens
  let opened := { s with tokens := s.tokens.drop since }.openBlock k.column .openBlockMapping
  { opened with tokens := s.tokens.take since ++ .key :: opened.tokens, keyPlace := none }

/-! ### Tokens -/

/-- Adds a token of one character, after which a key is allowed or not. -/
def emit (s : Scanner) (token : Token) (keyAllowed : Bool) : Scanner :=
  { s.advance with tokens := token :: s.tokens, keyAllowed, mode := .between }

def openFlow (s : Scanner) (opening : Token) : Except YamlError Scanner :=
  s.saveKeyPlace.map fun s ↦
    { s.emit opening true with keyPlace := none, outerPlaces := s.keyPlace :: s.outerPlaces }

/-- Closes a flow collection. It may have been a key itself. -/
def closeFlow (s : Scanner) (closing : Token) : Except YamlError Scanner :=
  s.dropKeyPlace.map fun s ↦
    let s := s.emit closing false
    match s.outerPlaces with
    | [] => s
    | keyPlace :: outerPlaces => { s with keyPlace, outerPlaces }

/-- Reads a dash. In block context it may open a sequence. -/
def readDash (s : Scanner) : Except YamlError Scanner :=
  if !s.inFlow && s.keyAllowed then
    (s.openBlock s.column .openBlockSequence).dropKeyPlace.map fun s ↦ s.emit .dash true
  else .error (.unexpectedCharacter '-')

/-- Reads a question mark, which begins a key of any kind. -/
def readQuestionMark (s : Scanner) : Except YamlError Scanner :=
  if s.inFlow || s.keyAllowed then
    (s.openBlock s.column .openBlockMapping).dropKeyPlace.map fun s ↦ s.emit .key (!s.inFlow)
  else .error (.unexpectedCharacter '?')

/-- Reads a colon, behind a key or alone. -/
def readColon (s : Scanner) : Except YamlError Scanner :=
  match s.keyPlace with
  | some k => .ok ((s.markKey k).emit .colon false)
  | none =>
    if s.inFlow || s.keyAllowed then
      .ok ((s.openBlock s.column .openBlockMapping).emit .colon (!s.inFlow))
    else .error (.unexpectedCharacter ':')

/-- Reads the first character of a document marker. -/
def readMarker (s : Scanner) (token : Token) : Except YamlError Scanner :=
  s.closeBlocks.dropKeyPlace.map fun s ↦ { s.emit token false with mode := .marker 2 }

def openScalar (s : Scanner) (style : Style) (text : List Char) : Except YamlError Scanner :=
  s.saveKeyPlace.map fun s ↦
    { s.advance with mode := .scalar { style, text }, keyAllowed := false }

/-- Reads the first character of a token; `rest` is what follows it. -/
def readToken (s : Scanner) (c : Char) (rest : List Char) : Except YamlError Scanner :=
  if s.column = 0 && startsMarker '-' (c :: rest) then s.readMarker .documentStart
  else if s.column = 0 && startsMarker '.' (c :: rest) then s.readMarker .documentEnd
  else match c with
    | '[' => s.openFlow .openSequence
    | '{' => s.openFlow .openMapping
    | ']' => s.closeFlow .closeSequence
    | '}' => s.closeFlow .closeMapping
    | ',' => s.dropKeyPlace.map fun s ↦ s.emit .comma true
    | '\'' => s.openScalar .single []
    | '"' => s.openScalar .double []
    | '-' => if startsBlank rest then s.readDash else s.openScalar .plain [c]
    | '?' => if s.inFlow || startsBlank rest then s.readQuestionMark else s.openScalar .plain [c]
    | ':' => if s.inFlow || startsBlank rest then s.readColon else s.openScalar .plain [c]
    | c => if isIndicator c then .error (.unexpectedCharacter c) else s.openScalar .plain [c]

/-- Reads a character between tokens; `rest` is what follows it. -/
def stepBetween (s : Scanner) (c : Char) (rest : List Char) : Except YamlError Scanner :=
  if isBreak c then .ok s.newLine
  else if c = ' ' || (c = byteOrderMark && s.column = 0) then .ok s.advance
  else if c = '\t' then
    -- a tab separates tokens but never indents
    if s.inFlow || !s.keyAllowed then .ok s.advance else .error (.unexpectedCharacter c)
  else if c = '#' then .ok { s.advance with mode := .comment }
  else s.forgetKeyPlaces.bind fun s ↦ s.unindent.readToken c rest

/-! ### Inside scalars -/

/-- Puts what has been read of a scalar in place of what was there, one column on. -/
def into (s : Scanner) (scalar : OpenScalar) : Scanner :=
  { s.advance with mode := .scalar scalar }

/-- Puts what has been read of a scalar in place of what was there, one line on. -/
def intoNextLine (s : Scanner) (scalar : OpenScalar) : Scanner :=
  { s.newLine with mode := .scalar scalar, keyAllowed := false }

/-- Closes a scalar. After a plain one that was followed by a line break a key may begin. -/
def close (s : Scanner) (scalar : OpenScalar) : Scanner :=
  { s with
    tokens := scalar.token :: s.tokens
    keyAllowed := s.keyAllowed || (scalar.style = .plain && scalar.gap.hasBreak)
    mode := .between }

/-- Whether a character that is no blank ends a plain scalar: a comment, a colon with a blank behind
it, a bracket or comma of a flow collection, a line that is not indented far enough, or a document
marker. -/
def endsPlain (s : Scanner) (scalar : OpenScalar) (c : Char) (rest : List Char) : Bool :=
  (c = '#' && !scalar.gap.isEmpty)
    || (c = ':' && startsBlank rest)
    || (s.inFlow && isFlowIndicator c)
    || (scalar.gap.hasBreak && ((!s.inFlow && s.column < s.leastColumn)
      || (s.column = 0 && (startsMarker '-' (c :: rest) || startsMarker '.' (c :: rest)))))

/-- Reads a character of a plain scalar, which may turn out not to belong to it. -/
def stepPlain (s : Scanner) (scalar : OpenScalar) (c : Char) (rest : List Char) :
    Except YamlError Scanner :=
  if isBreak c then .ok (s.intoNextLine { scalar with gap := scalar.gap.addBreak c })
  else if isBlank c then
    if c = '\t' && scalar.gap.hasBreak && s.column < s.leastColumn then
      .error (.unexpectedCharacter c)
    else .ok (s.into { scalar with gap := scalar.gap.addBlank c })
  else if s.endsPlain scalar c rest then (s.close scalar).stepBetween c rest
  else if s.inFlow && c = ':' && rest.head?.any (fun d ↦ isFlowIndicator d || d = '?') then
    .error (.unexpectedCharacter c)
  else .ok (s.into (scalar.push c))

/-- Reads a character of a quoted scalar that completes nothing. -/
def stepQuotedText (s : Scanner) (scalar : OpenScalar) (c : Char) (rest : List Char) :
    Except YamlError Scanner :=
  if isBreak c then .ok (s.intoNextLine { scalar with gap := scalar.gap.addBreak c })
  else if s.column = 0 && (startsMarker '-' (c :: rest) || startsMarker '.' (c :: rest)) then
    .error .unterminatedQuote
  else if isBlank c then .ok (s.into { scalar with gap := scalar.gap.addBlank c })
  else if c = '"' && scalar.style = .double then .ok (s.advance.close scalar)
  else if c = '\\' && scalar.style = .double then .ok (s.into { scalar with pending := .escape })
  else if c = '\'' && scalar.style = .single then
    if rest.head? = some '\'' then .ok (s.into { scalar with pending := .quote })
    else .ok (s.advance.close scalar)
  else .ok (s.into (scalar.push c))

/-- Reads a character of a quoted scalar. -/
def stepQuoted (s : Scanner) (scalar : OpenScalar) (c : Char) (rest : List Char) :
    Except YamlError Scanner :=
  match scalar.pending with
  | .nothing => s.stepQuotedText scalar c rest
  | .quote => .ok (s.into (scalar.push c))
  | .escape =>
    if isBreak c then
      .ok (s.intoNextLine
        { scalar with text := scalar.flushed, gap := .breaks none [], pending := .nothing })
    else
      match escapeOf? c with
      | some (.inl d) => .ok (s.into (scalar.push d))
      | some (.inr digits) => .ok (s.into { scalar with pending := .code digits 0 })
      | none => .error .unknownEscape
  | .code digits value =>
    match hexValue? c with
    | none => .error .unknownEscape
    | some d =>
      let value := value * 16 + d
      if digits > 1 then .ok (s.into { scalar with pending := .code (digits - 1) value })
      else if value.isValidChar then .ok (s.into (scalar.push (Char.ofNat value)))
      else .error .unknownEscape

/-! ### Running -/

/-- Reads one character; `rest` is what follows it. -/
def step (s : Scanner) (c : Char) (rest : List Char) : Except YamlError Scanner :=
  match s.mode with
  | .between => s.stepBetween c rest
  | .comment => .ok (if isBreak c then s.newLine else s.advance)
  | .marker n => .ok { s.advance with mode := if n > 1 then .marker (n - 1) else .between }
  | .scalar scalar =>
    if scalar.style = .plain then s.stepPlain scalar c rest else s.stepQuoted scalar c rest

/-- The scanner after the token that the end of the text completes. -/
def closeLast (s : Scanner) : Except YamlError Scanner :=
  match s.mode with
  | .scalar scalar =>
    if scalar.style = .plain then .ok (s.close scalar) else .error .unterminatedQuote
  | _ => .ok s

def finish (s : Scanner) : Except YamlError (List Token) := do
  let s ← s.closeLast
  let s ← s.closeBlocks.dropKeyPlace
  return s.tokens.reverse

def run (s : Scanner) : List Char → Except YamlError (List Token)
  | [] => s.finish
  | c :: rest =>
    match s.step c rest with
    | .error e => .error e
    | .ok s => { s with offset := s.offset + c.utf8Size }.run rest

end Scanner

def scan (text : List Char) : Except YamlError (List Token) :=
  match text.find? fun c ↦ !isPrintable c with
  | some c => .error (.forbiddenCharacter c)
  | none => ({} : Scanner).run (unifyBreaks text)

end EffectChain.Yaml
