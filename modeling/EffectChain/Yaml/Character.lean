/-!
# Characters of a document

Which characters a document may hold, and what they are to the scanner: blanks, line breaks,
indicators, hexadecimal digits and escapes. There are five line breaks. The pair of a carriage
return and a line feed, either of the two alone and the next line character all count as a line feed
(`unifyBreaks`); the line separator and the paragraph separator break lines too, but are kept as
they are in the text of a scalar.
-/

namespace EffectChain.Yaml

/-- Whether a document may hold the character. -/
def isPrintable (c : Char) : Bool :=
  let n := c.toNat
  n = 0x09 || n = 0x0A || n = 0x0D || n = 0x85 || (0x20 ≤ n && n ≤ 0x7E)
    || (0xA0 ≤ n && n ≤ 0xFFFD) || 0x10000 ≤ n

/-- Writes the line breaks that count as a line feed as one. -/
def unifyBreaks : List Char → List Char
  | [] => []
  | '\r' :: '\n' :: rest => '\n' :: unifyBreaks rest
  | c :: rest => (if c = '\r' || c = '\u0085' then '\n' else c) :: unifyBreaks rest

def isBlank (c : Char) : Bool := c = ' ' || c = '\t'

/-- Line breaks, as far as `unifyBreaks` leaves them. -/
def isBreak (c : Char) : Bool := c = '\n' || c = '\u2028' || c = '\u2029'

/-- The mark that may stand at the start of a line, where it takes up a column and means nothing. -/
def byteOrderMark : Char := '\ufeff'

/-- Whether the rest of the text starts with a blank, a line break or not at all. -/
def startsBlank : List Char → Bool
  | [] => true
  | c :: _ => isBlank c || isBreak c

/-- Whether a document marker of three times `c` stands at the start of the text. -/
def startsMarker (c : Char) : List Char → Bool
  | c₁ :: c₂ :: c₃ :: rest => c₁ = c && c₂ = c && c₃ = c && startsBlank rest
  | _ => false

/-- The characters that start no plain scalar. -/
def isIndicator (c : Char) : Bool := ",[]{}#&*!|>'\"%@`".toList.contains c

/-- The characters that end a plain scalar in a flow collection. -/
def isFlowIndicator (c : Char) : Bool := ",[]{}".toList.contains c

def hexValue? (c : Char) : Option Nat :=
  if '0' ≤ c ∧ c ≤ '9' then some (c.toNat - '0'.toNat)
  else if 'a' ≤ c ∧ c ≤ 'f' then some (c.toNat - 'a'.toNat + 10)
  else if 'A' ≤ c ∧ c ≤ 'F' then some (c.toNat - 'A'.toNat + 10)
  else none

/-- What an escape letter starts: a character, or a code of so many hexadecimal digits. -/
def escapeOf? (c : Char) : Option (Char ⊕ Nat) :=
  match c with
  | '0' => some (.inl '\x00')
  | 'a' => some (.inl '\x07')
  | 'b' => some (.inl '\x08')
  | 't' => some (.inl '\t')
  | '\t' => some (.inl '\t')
  | 'n' => some (.inl '\n')
  | 'v' => some (.inl '\x0b')
  | 'f' => some (.inl '\x0c')
  | 'r' => some (.inl '\r')
  | 'e' => some (.inl '\x1b')
  | ' ' => some (.inl ' ')
  | '"' => some (.inl '"')
  | '/' => some (.inl '/')
  | '\\' => some (.inl '\\')
  | 'N' => some (.inl '\u0085')
  | '_' => some (.inl '\u00a0')
  | 'L' => some (.inl '\u2028')
  | 'P' => some (.inl '\u2029')
  | 'x' => some (.inr 2)
  | 'u' => some (.inr 4)
  | 'U' => some (.inr 8)
  | _ => none

end EffectChain.Yaml
