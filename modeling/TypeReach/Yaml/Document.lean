import TypeReach.Datum
import TypeReach.Yaml.Token

/-!
# YAML documents

The tree of a text with one document.  An entry or value that is left out is an
empty scalar, and so is a document without content.
-/

namespace TypeReach.Yaml

/-- Whether the next token is one of some marks. -/
def startsWithAny (marks : List Token) : List Token → Bool
  | [] => false
  | token :: _ => marks.contains token

/-- Read a node unless a mark shows that it is left out. -/
def nodeUnless (marks : List Token) (read : List Token → Option (Datum × List Token))
    (tokens : List Token) : Option (Datum × List Token) :=
  if startsWithAny marks tokens then some (.void, tokens) else read tokens

mutual

/--
A node.  Block collections are allowed if `block` says so, and a list whose
entries are not indented if `indentless` does.
-/
def readNode : Nat → (block indentless : Bool) → List Token → Option (Datum × List Token)
  | 0, _, _, _ => none
  | fuel + 1, block, indentless, tokens =>
    match tokens with
    | .scalar text isPlain :: rest => some (if isPlain then .plain text else .text text, rest)
    | .flowListStart :: rest =>
      (readFlowList fuel true rest).map fun read => (.list read.1, read.2)
    | .flowRecordStart :: rest =>
      (readFlowRecord fuel true rest).map fun read => (.record read.1, read.2)
    | .blockListStart :: rest =>
      if block then (readBlockList fuel rest).map fun read => (.list read.1, read.2) else none
    | .blockRecordStart :: rest =>
      if block then (readBlockRecord fuel rest).map fun read => (.record read.1, read.2)
      else none
    | .blockEntry :: rest =>
      if indentless then
        (readIndentless fuel (.blockEntry :: rest)).map fun read => (.list read.1, read.2)
      else none
    | _ => none

/-- The entries of a block list. -/
def readBlockList : Nat → List Token → Option (List Datum × List Token)
  | 0, _ => none
  | fuel + 1, tokens =>
    match tokens with
    | .blockEnd :: rest => some ([], rest)
    | .blockEntry :: rest => do
      let (item, rest) ←
        nodeUnless [.blockEntry, .blockEnd] (readNode fuel true false) rest
      let (items, rest) ← readBlockList fuel rest
      return (item :: items, rest)
    | _ => none

/-- The entries of a list that is not indented more than the record it stands in. -/
def readIndentless : Nat → List Token → Option (List Datum × List Token)
  | 0, _ => none
  | fuel + 1, tokens =>
    match tokens with
    | .blockEntry :: rest => do
      let (item, rest) ←
        nodeUnless [.blockEntry, .key, .value, .blockEnd] (readNode fuel true false) rest
      let (items, rest) ← readIndentless fuel rest
      return (item :: items, rest)
    | rest => some ([], rest)

/-- The fields of a block record. -/
def readBlockRecord : Nat → List Token → Option (List (Datum × Datum) × List Token)
  | 0, _ => none
  | fuel + 1, tokens =>
    match tokens with
    | .blockEnd :: rest => some ([], rest)
    | .key :: rest => do
      let (key, rest) ← nodeUnless [.key, .value, .blockEnd] (readNode fuel true true) rest
      let (value, rest) ← readBlockValue fuel rest
      let (fields, rest) ← readBlockRecord fuel rest
      return ((key, value) :: fields, rest)
    | _ => none

/-- The value of a field of a block record. -/
def readBlockValue : Nat → List Token → Option (Datum × List Token)
  | 0, _ => none
  | fuel + 1, tokens =>
    match tokens with
    | .value :: rest => nodeUnless [.key, .value, .blockEnd] (readNode fuel true true) rest
    | rest => some (.void, rest)

/-- The entries of a flow list; between two of them stands a comma. -/
def readFlowList : Nat → (isFirst : Bool) → List Token → Option (List Datum × List Token)
  | 0, _, _ => none
  | fuel + 1, isFirst, tokens =>
    match tokens with
    | .flowListEnd :: rest => some ([], rest)
    | .flowEntry :: rest => if isFirst then none else readFlowItem fuel rest
    | rest => if isFirst then readFlowItem fuel rest else none

/-- An entry of a flow list and the entries after it.  An entry may be a single field. -/
def readFlowItem : Nat → List Token → Option (List Datum × List Token)
  | 0, _ => none
  | fuel + 1, tokens =>
    match tokens with
    | .flowListEnd :: rest => some ([], rest)
    | .key :: rest => do
      let (key, rest) ←
        if startsWithAny [.value, .flowEntry, .flowListEnd] rest then
          some (.void, rest.drop 1)
        else readNode fuel false false rest
      let (value, rest) ← readFlowValue fuel .flowListEnd rest
      let (items, rest) ← readFlowList fuel false rest
      return (.record [(key, value)] :: items, rest)
    | rest => do
      let (item, rest) ← readNode fuel false false rest
      let (items, rest) ← readFlowList fuel false rest
      return (item :: items, rest)

/-- The fields of a flow record; between two of them stands a comma. -/
def readFlowRecord : Nat → (isFirst : Bool) → List Token →
    Option (List (Datum × Datum) × List Token)
  | 0, _, _ => none
  | fuel + 1, isFirst, tokens =>
    match tokens with
    | .flowRecordEnd :: rest => some ([], rest)
    | .flowEntry :: rest => if isFirst then none else readFlowField fuel rest
    | rest => if isFirst then readFlowField fuel rest else none

/-- A field of a flow record and the fields after it.  A key may stand alone. -/
def readFlowField : Nat → List Token → Option (List (Datum × Datum) × List Token)
  | 0, _ => none
  | fuel + 1, tokens =>
    match tokens with
    | .flowRecordEnd :: rest => some ([], rest)
    | .key :: rest => do
      let (key, rest) ←
        nodeUnless [.value, .flowEntry, .flowRecordEnd] (readNode fuel false false) rest
      let (value, rest) ← readFlowValue fuel .flowRecordEnd rest
      let (fields, rest) ← readFlowRecord fuel false rest
      return ((key, value) :: fields, rest)
    | rest => do
      let (key, rest) ← readNode fuel false false rest
      let (fields, rest) ← readFlowRecord fuel false rest
      return ((key, .void) :: fields, rest)

/-- The value of a field in a flow collection that a given mark closes. -/
def readFlowValue : Nat → (closing : Token) → List Token → Option (Datum × List Token)
  | 0, _, _ => none
  | fuel + 1, closing, tokens =>
    match tokens with
    | .value :: rest => nodeUnless [.flowEntry, closing] (readNode fuel false false) rest
    | rest => some (.void, rest)

end

/-- The content of a document that has started. -/
def readContent (fuel : Nat) (tokens : List Token) : Option (Datum × List Token) :=
  if tokens.isEmpty then some (.void, [])
  else nodeUnless [.documentStart, .documentEnd] (readNode fuel true false) tokens

/-- The tree of a text with one document. -/
def parse? (text : List Char) : Option Datum := do
  let tokens ← tokens? text
  let content := match tokens with
    | .documentStart :: rest => rest
    | rest => rest
  let (datum, rest) ←
    if startsWithAny [.documentEnd] content && content.length = tokens.length then none
    else readContent (2 * tokens.length + 2) content
  if rest.all (· = .documentEnd) then some datum else none

end TypeReach.Yaml
