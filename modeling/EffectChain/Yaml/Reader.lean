import EffectChain.Single
import EffectChain.Yaml.Node

/-!
# Typed values of a document

What a scalar means depends on the type that is expected of it. Text takes any scalar as it is
written. Numbers and truth values are plain scalars of a fixed grammar, so a quoted `4` is no
number, and a number that does not fit its type is none either. A sequence or a mapping may also be
an empty place.
-/

namespace EffectChain.Yaml

/-! ## Numbers -/

def digit? (base : Nat) (c : Char) : Option Nat := (hexValue? c).filter (· < base)

/-- The value of digits in a base, at least one of them. -/
def digits? (base : Nat) (cs : List Char) : Option Nat :=
  if cs.isEmpty then none
  else cs.foldlM (fun n c ↦ (digit? base c).map fun d ↦ n * base + d) 0

/-- Whether a number is written with a zero too many in front. -/
def hasLeadingZero : List Char → Bool
  | '0' :: c :: rest => (c :: rest).all Char.isDigit
  | _ => false

/-- An unsigned whole number: decimal digits without leading zeros, or `0x`, `0o` or `0b` and digits
of that base. A plus sign may stand in front. -/
def unsigned? (cs : List Char) : Option Nat :=
  let cs := match cs with
    | '+' :: rest => rest
    | cs => cs
  match cs with
  | '0' :: 'x' :: rest => digits? 16 rest
  | '0' :: 'o' :: rest => digits? 8 rest
  | '0' :: 'b' :: rest => digits? 2 rest
  | cs => if hasLeadingZero cs then none else digits? 10 cs

/-- An exponent: `e` or `E`, a sign and digits; nothing stands for zero. -/
def exponent? : List Char → Option Int
  | [] => some 0
  | c :: rest =>
    if c = 'e' || c = 'E' then
      match rest with
      | '+' :: ds => (digits? 10 ds).map Int.ofNat
      | '-' :: ds => (digits? 10 ds).map fun n ↦ -Int.ofNat n
      | ds => (digits? 10 ds).map Int.ofNat
    else none

/-- A decimal without a sign, as `(m, e)` for `m * 10 ^ e`: digits, a point and digits, of which one
side may be empty, and an exponent. -/
def decimal? (cs : List Char) : Option (Nat × Int) :=
  let whole := cs.takeWhile Char.isDigit
  let rest := cs.dropWhile Char.isDigit
  let (fraction, rest) := match rest with
    | '.' :: rest => (rest.takeWhile Char.isDigit, rest.dropWhile Char.isDigit)
    | rest => ([], rest)
  match digits? 10 (whole ++ fraction), exponent? rest with
  | some m, some e => some (m, e - fraction.length)
  | _, _ => none

/-- A single precision value: a decimal that is finite in double precision, an infinity, or what is
no number. -/
def single? (text : String) : Option Single :=
  if text = ".nan" ∨ text = ".NaN" ∨ text = ".NAN" then some ⟨0x7FC00000⟩
  else
    let (negative, body) := match text.toList with
      | '-' :: rest => (true, rest)
      | '+' :: rest => (false, rest)
      | cs => (false, cs)
    if body = ".inf".toList ∨ body = ".Inf".toList ∨ body = ".INF".toList then
      some (Single.ofMagnitude negative BinaryFormat.single.infinity)
    else
      match decimal? body with
      | none => none
      | some (m, e) =>
        let double := BinaryFormat.double.roundDecimal m e
        if double = BinaryFormat.double.infinity then none
        else some (Single.ofDouble negative double)

/-! ## Scalars -/

/-- A reader of values from the nodes of a document. -/
abbrev Reader (α : Type) (ν : Type := Node) : Type := ν → Except YamlError α

def text : Reader String
  | .scalar _ text => .ok text
  | _ => .error (.wrongKind "a string")

def variant : Reader String
  | .scalar _ text => .ok text
  | _ => .error (.wrongKind "a known variant")

/-- A value that a plain scalar stands for. -/
def plain {α : Type} (expected : String) (read? : String → Option α) : Reader α
  | .scalar true text =>
    match read? text with
    | some a => .ok a
    | none => .error (.wrongKind expected)
  | _ => .error (.wrongKind expected)

def bool : Reader Bool :=
  plain "a boolean" fun text ↦
    if text = "true" ∨ text = "True" ∨ text = "TRUE" then some true
    else if text = "false" ∨ text = "False" ∨ text = "FALSE" then some false
    else none

def natBelow (bound : Nat) : Reader Nat :=
  plain "an integer" fun text ↦
    (unsigned? text.toList).bind fun n ↦ if n < bound then some n else none

def byte : Reader UInt8 := fun node ↦ (natBelow UInt8.size node).map UInt8.ofNat

def word : Reader UInt32 := fun node ↦ (natBelow UInt32.size node).map UInt32.ofNat

def single : Reader Single := plain "a float" single?

/-! ## Collections -/

/-- The items of a sequence. An empty place is an empty sequence. -/
def items : Reader (List Node)
  | .sequence items => .ok items
  | .scalar true "" => .ok []
  | _ => .error (.wrongKind "a sequence")

/-- The entries of a mapping whose keys are text. An empty place is an empty mapping. -/
def entries : Reader (List (String × Node))
  | .mapping entries => entries.mapM fun (key, value) ↦ return (← text key, value)
  | .scalar true "" => .ok []
  | _ => .error (.wrongKind "a mapping")

end EffectChain.Yaml
