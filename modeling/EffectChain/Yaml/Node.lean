import EffectChain.Yaml.Token

/-!
# The node tree of a document

A document is one node: a scalar, a sequence or a mapping. `Node.parse` builds it from the tokens by
recursive descent. Where a place is empty, the next token begins no node, and the place stands for
an empty plain scalar. Of any four nested calls one consumes a token, so four times the number of
tokens bounds the recursion. `Node.render` writes mappings of scalars in block style.
-/

namespace EffectChain.Yaml

/-- A node of a document. -/
inductive Node
  /-- A scalar, plain or quoted. -/
  | scalar (plain : Bool) (text : String)
  /-- A sequence. -/
  | sequence (items : List Node)
  /-- A mapping, in the order of the text. -/
  | mapping (entries : List (Node × Node))

/-- Whether a node may begin with the token. A dash begins the sequence of a key that stands at the
same column. -/
def Token.beginsNode : Token → Bool
  | scalar .. | openSequence | openMapping | openBlockSequence | openBlockMapping | dash => true
  | _ => false

namespace Node

def plain (text : String) : Node := .scalar true text

def empty : Node := .plain ""

/-! ## Reading -/

/-- What follows a token that must stand here. -/
def expect (token : Token) : List Token → Except YamlError (List Token)
  | t :: rest => if t = token then .ok rest else .error .unexpectedToken
  | [] => .error .unexpectedToken

mutual

def read (fuel : Nat) (tokens : List Token) : Except YamlError (Node × List Token) :=
  match fuel with
  | 0 => .error .unexpectedToken
  | fuel + 1 =>
    match tokens with
    | .scalar plain text :: rest => .ok (.scalar plain text, rest)
    | .openSequence :: rest => do
      let (items, rest) ← readFlowItems fuel rest
      return (.sequence items, rest)
    | .openMapping :: rest => do
      let (entries, rest) ← readFlowEntries fuel rest
      return (.mapping entries, rest)
    | .openBlockSequence :: rest => do
      let (items, rest) ← readItems fuel rest
      return (.sequence items, ← expect .closeBlock rest)
    | .openBlockMapping :: rest => do
      let (entries, rest) ← readEntries fuel rest
      return (.mapping entries, ← expect .closeBlock rest)
    | .dash :: rest => do
      let (items, rest) ← readItems fuel (.dash :: rest)
      return (.sequence items, rest)
    | _ => .error .unexpectedToken

/-- Reads a node, or nothing where none begins. -/
def readPlace (fuel : Nat) (tokens : List Token) : Except YamlError (Node × List Token) :=
  match fuel with
  | 0 => .error .unexpectedToken
  | fuel + 1 =>
    if tokens.head?.any (·.beginsNode) then read fuel tokens else .ok (.empty, tokens)

/-- Reads the value of a key, which may be left out with its colon. -/
def readValue (fuel : Nat) (tokens : List Token) : Except YamlError (Node × List Token) :=
  match fuel with
  | 0 => .error .unexpectedToken
  | fuel + 1 =>
    match tokens with
    | .colon :: rest => readPlace fuel rest
    | rest => .ok (.empty, rest)

def readItems (fuel : Nat) (tokens : List Token) : Except YamlError (List Node × List Token) :=
  match fuel with
  | 0 => .error .unexpectedToken
  | fuel + 1 =>
    match tokens with
    | .dash :: .dash :: rest => do
      let (items, rest) ← readItems fuel (.dash :: rest)
      return (.empty :: items, rest)
    | .dash :: rest => do
      let (item, rest) ← readPlace fuel rest
      let (items, rest) ← readItems fuel rest
      return (item :: items, rest)
    | rest => .ok ([], rest)

/-- Reads the entries of a block mapping. -/
def readEntries (fuel : Nat) (tokens : List Token) :
    Except YamlError (List (Node × Node) × List Token) :=
  match fuel with
  | 0 => .error .unexpectedToken
  | fuel + 1 =>
    match tokens with
    | .key :: rest => do
      let (key, rest) ← readPlace fuel rest
      let (value, rest) ← readValue fuel rest
      let (entries, rest) ← readEntries fuel rest
      return ((key, value) :: entries, rest)
    | rest => .ok ([], rest)

/-- Reads an item of a flow sequence. A key and a value there make a mapping of their own; an empty
key takes the token behind it with it. -/
def readFlowItem (fuel : Nat) (tokens : List Token) : Except YamlError (Node × List Token) :=
  match fuel with
  | 0 => .error .unexpectedToken
  | fuel + 1 =>
    match tokens with
    | .key :: rest => do
      let (key, rest) ← match rest with
        | .colon :: rest | .comma :: rest | .closeSequence :: rest => pure (Node.empty, rest)
        | rest => read fuel rest
      let (value, rest) ← readValue fuel rest
      return (.mapping [(key, value)], rest)
    | tokens => read fuel tokens

/-- Reads the items of a flow sequence up to its closing bracket. -/
def readFlowItems (fuel : Nat) (tokens : List Token) :
    Except YamlError (List Node × List Token) :=
  match fuel with
  | 0 => .error .unexpectedToken
  | fuel + 1 =>
    match tokens with
    | .closeSequence :: rest => .ok ([], rest)
    | tokens => do
      let (item, rest) ← readFlowItem fuel tokens
      match rest with
      | .comma :: rest => do
        let (items, rest) ← readFlowItems fuel rest
        return (item :: items, rest)
      | rest => return ([item], ← expect .closeSequence rest)

/-- Reads an entry of a flow mapping. A node that is no key has an empty value. -/
def readFlowEntry (fuel : Nat) (tokens : List Token) :
    Except YamlError ((Node × Node) × List Token) :=
  match fuel with
  | 0 => .error .unexpectedToken
  | fuel + 1 =>
    match tokens with
    | .key :: rest => do
      let (key, rest) ← readPlace fuel rest
      let (value, rest) ← readValue fuel rest
      return ((key, value), rest)
    | tokens => do
      let (key, rest) ← read fuel tokens
      return ((key, .empty), rest)

/-- Reads the entries of a flow mapping up to its closing brace. -/
def readFlowEntries (fuel : Nat) (tokens : List Token) :
    Except YamlError (List (Node × Node) × List Token) :=
  match fuel with
  | 0 => .error .unexpectedToken
  | fuel + 1 =>
    match tokens with
    | .closeMapping :: rest => .ok ([], rest)
    | tokens => do
      let (entry, rest) ← readFlowEntry fuel tokens
      match rest with
      | .comma :: rest => do
        let (entries, rest) ← readFlowEntries fuel rest
        return (entry :: entries, rest)
      | rest => return ([entry], ← expect .closeMapping rest)

end

/-- Accepts the end of the only document. -/
def expectEnd : List Token → Except YamlError Unit
  | [] => .ok ()
  | .documentEnd :: rest => expectEnd rest
  | .documentStart :: _ => .error .secondDocument
  | _ => .error .unexpectedToken

/-- The root node of a list of tokens. Only behind a document marker, and in a text without tokens,
it may be left out. -/
def ofTokens? (tokens : List Token) : Except YamlError Node := do
  let fuel := 4 * tokens.length + 4
  let (node, rest) ← match tokens with
    | [] => pure (Node.empty, [])
    | .documentStart :: rest => readPlace fuel rest
    | tokens => read fuel tokens
  expectEnd rest
  return node

def parse (text : String) : Except YamlError Node := do
  ofTokens? (← scan text.toList)

/-! ## Writing -/

def scalarText : Node → String
  | .scalar _ text => text
  | _ => ""

mutual

/-- The lines of a mapping of scalars and such mappings, each line indented by a depth. -/
def lines (depth : Nat) : List (Node × Node) → List String
  | [] => []
  | entry :: rest => entryLines depth entry ++ lines depth rest

def entryLines (depth : Nat) : Node × Node → List String
  | (key, value) =>
    valueLines depth (String.ofList (List.replicate depth ' ') ++ key.scalarText ++ ":") value

def valueLines (depth : Nat) (head : String) : Node → List String
  | .scalar _ text => [head ++ " " ++ text]
  | .mapping entries => head :: lines (depth + 2) entries
  | .sequence _ => [head ++ " []"]

end

/-- A mapping of scalars and such mappings in block style. -/
def render : Node → String
  | .mapping entries => String.join ((lines 0 entries).map (· ++ "\n"))
  | .scalar _ text => text ++ "\n"
  | .sequence _ => "[]\n"

end Node

end EffectChain.Yaml
