import BeanForge.Yaml.Token
/-!
# Nodes of a YAML document

The tree of scalars, sequences and mappings that the tokens of a text describe. Nodes with an
anchor carry its number, and an alias the number of the anchor it names. A name that is used for
a second anchor gets a new number, counted from the names and not from the anchors, so that two
anchors may share a number; of these the last one in the text counts.
-/
namespace BeanForge.Yaml

/-- A node. -/
inductive Node where
  | reference (anchor : Nat)
  | scalar (anchor : Option Nat) (tag : Option (List Char)) (style : ScalarStyle)
      (text : List Char)
  | sequence (anchor : Option Nat) (items : List Node)
  | mapping (anchor : Option Nat) (entries : List (Node × Node))
  deriving Inhabited

namespace Node

/-- The node of something that was left out. -/
def omitted : Node :=
  scalar none none .plain []

mutual

/-- The number of steps in which a node is read: one for a scalar or alias, and two for the ends
of a collection. -/
def steps : Node → Nat
  | reference _ => 1
  | scalar .. => 1
  | sequence _ items => 2 + stepsItems items
  | mapping _ entries => 2 + stepsEntries entries

/-- The number of steps in which several nodes are read. -/
def stepsItems : List Node → Nat
  | [] => 0
  | n :: ns => n.steps + stepsItems ns

/-- The number of steps in which the entries of a mapping are read. -/
def stepsEntries : List (Node × Node) → Nat
  | [] => 0
  | (k, v) :: es => k.steps + v.steps + stepsEntries es

end

mutual

/-- The nodes with an anchor, by its number, in the order in which they start. -/
def anchored : Node → List (Nat × Node)
  | reference _ => []
  | scalar anchor tag style text => anchor.toList.map (·, scalar anchor tag style text)
  | sequence anchor items =>
    anchor.toList.map (·, sequence anchor items) ++ anchoredItems items
  | mapping anchor entries =>
    anchor.toList.map (·, mapping anchor entries) ++ anchoredEntries entries

/-- The nodes with an anchor in several nodes. -/
def anchoredItems : List Node → List (Nat × Node)
  | [] => []
  | n :: ns => n.anchored ++ anchoredItems ns

def anchoredEntries : List (Node × Node) → List (Nat × Node)
  | [] => []
  | (k, v) :: es => k.anchored ++ v.anchored ++ anchoredEntries es

end

end Node

/-- The tokens that are left, and the numbers of the anchors so far by their names. -/
structure NodeReader where
  tokens : List Token
  anchors : List (List Char × Nat) := []

namespace NodeReader

/-- Notes an anchor and returns its number. -/
def addAnchor (r : NodeReader) (name : List Char) : Nat × NodeReader :=
  let n := r.anchors.length
  (n, { r with anchors := (name, n) :: r.anchors.filter (·.1 != name) })

/-- The reader behind the next token. -/
def drop (r : NodeReader) : NodeReader :=
  { r with tokens := r.tokens.tail }

/-- The full text of a tag, given what the handles stand for. -/
def expand? (handles : List (List Char × List Char)) (handle suffix : List Char) :
    Option (List Char) :=
  if handle.isEmpty then some suffix
  else (handles.lookup handle).map (· ++ suffix)

structure Properties where
  anchor : Option Nat := none
  tag : Option (List Char) := none

/-- Reads an anchor and a tag, in either order, if they are there. -/
def properties? (handles : List (List Char × List Char)) (r : NodeReader) :
    Option (Properties × NodeReader) :=
  match r.tokens with
  | .anchor name :: .tag handle suffix :: rest => do
    let (n, r) := { r with tokens := rest }.addAnchor name
    return (⟨some n, some (← expand? handles handle suffix)⟩, r)
  | .tag handle suffix :: .anchor name :: rest => do
    let (n, r) := { r with tokens := rest }.addAnchor name
    return (⟨some n, some (← expand? handles handle suffix)⟩, r)
  | .anchor name :: rest =>
    let (n, r) := { r with tokens := rest }.addAnchor name
    some (⟨some n, none⟩, r)
  | .tag handle suffix :: rest => do
    return (⟨none, some (← expand? handles handle suffix)⟩, { r with tokens := rest })
  | _ => some ({}, r)

/-- Whether a token is one of those that show that a node was left out. -/
def atAny (r : NodeReader) (signs : List Token) : Bool :=
  r.tokens.head?.any signs.contains

mutual

/-- Reads a node. Block collections may start only where `block` says so, and entries of a
sequence that is not indented only where `bare` does. -/
def readNode (handles : List (List Char × List Char)) :
    Nat → (block bare : Bool) → NodeReader → Option (Node × NodeReader)
  | 0, _, _, _ => none
  | fuel + 1, block, bare, r =>
    match r.tokens with
    | .reference name :: _ => (r.anchors.lookup name).map fun n => (.reference n, r.drop)
    | _ =>
      match properties? handles r with
      | none => none
      | some (p, r) =>
        match r.tokens with
        | .entry :: _ =>
          if bare then
            (readBare handles fuel r).map fun (items, r) => (.sequence p.anchor items, r)
          else omitted? p r
        | .scalar style text :: _ =>
          some (.scalar p.anchor p.tag style text, r.drop)
        | .flowSequence :: _ =>
          (readFlowItems handles fuel true r.drop).map fun (items, r) =>
            (.sequence p.anchor items, r)
        | .flowMapping :: _ =>
          (readFlowEntries handles fuel true r.drop).map fun (entries, r) =>
            (.mapping p.anchor entries, r)
        | .blockSequence :: _ =>
          if block then
            (readItems handles fuel r.drop).map fun (items, r) => (.sequence p.anchor items, r)
          else omitted? p r
        | .blockMapping :: _ =>
          if block then
            (readEntries handles fuel r.drop).map fun (entries, r) =>
              (.mapping p.anchor entries, r)
          else omitted? p r
        | _ => omitted? p r

/-- The node without content that an anchor or a tag alone stands for. -/
def omitted? (p : Properties) (r : NodeReader) : Option (Node × NodeReader) :=
  if p.anchor.isSome || p.tag.isSome then some (.scalar p.anchor p.tag .plain [], r) else none

/-- Reads a node unless one of the signs shows that it was left out. -/
def readUnless (handles : List (List Char × List Char)) :
    Nat → List Token → (block bare : Bool) → NodeReader → Option (Node × NodeReader)
  | 0, _, _, _, _ => none
  | fuel + 1, signs, block, bare, r =>
    if r.atAny signs then some (.omitted, r) else readNode handles fuel block bare r

/-- Reads the entries of an indented sequence and its end. -/
def readItems (handles : List (List Char × List Char)) :
    Nat → NodeReader → Option (List Node × NodeReader)
  | 0, _ => none
  | fuel + 1, r =>
    match r.tokens with
    | .entry :: _ => do
      let (item, r) ← readUnless handles fuel [.entry, .blockEnd] true false r.drop
      let (items, r) ← readItems handles fuel r
      return (item :: items, r)
    | .blockEnd :: _ => some ([], r.drop)
    | _ => none

/-- Reads the entries of a sequence that is not indented; it ends where no entry follows. -/
def readBare (handles : List (List Char × List Char)) :
    Nat → NodeReader → Option (List Node × NodeReader)
  | 0, _ => none
  | fuel + 1, r =>
    match r.tokens with
    | .entry :: _ => do
      let (item, r) ←
        readUnless handles fuel [.entry, .key, .value, .blockEnd] true false r.drop
      let (items, r) ← readBare handles fuel r
      return (item :: items, r)
    | _ => some ([], r)

/-- Reads the entries of a block mapping and its end. -/
def readEntries (handles : List (List Char × List Char)) :
    Nat → NodeReader → Option (List (Node × Node) × NodeReader)
  | 0, _ => none
  | fuel + 1, r =>
    match r.tokens with
    | .key :: _ => do
      let (k, r) ← readUnless handles fuel [.key, .value, .blockEnd] true true r.drop
      let (v, r) ← readValue handles fuel [.key, .value, .blockEnd] true r
      let (entries, r) ← readEntries handles fuel r
      return ((k, v) :: entries, r)
    | .blockEnd :: _ => some ([], r.drop)
    | _ => none

/-- Reads the value of a mapping's entry, which may be left out with or without its sign. -/
def readValue (handles : List (List Char × List Char)) :
    Nat → List Token → (block : Bool) → NodeReader → Option (Node × NodeReader)
  | 0, _, _, _ => none
  | fuel + 1, signs, block, r =>
    match r.tokens with
    | .value :: _ => readUnless handles fuel signs block block r.drop
    | _ => some (.omitted, r)

/-- Reads the entries of a flow sequence and its end. Before each but the first stands a
comma. -/
def readFlowItems (handles : List (List Char × List Char)) :
    Nat → (first : Bool) → NodeReader → Option (List Node × NodeReader)
  | 0, _, _ => none
  | fuel + 1, first, r =>
    match r.tokens with
    | .flowSequenceEnd :: _ => some ([], r.drop)
    | _ => do
      let r ← skipComma? first r
      match r.tokens with
      | .flowSequenceEnd :: _ => return ([], r.drop)
      | .key :: _ =>
        let (pair, r) ← readPair handles fuel r.drop
        let (items, r) ← readFlowItems handles fuel false r
        return (.mapping none [pair] :: items, r)
      | _ =>
        let (item, r) ← readNode handles fuel false false r
        let (items, r) ← readFlowItems handles fuel false r
        return (item :: items, r)

/-- The reader behind the comma before an entry that is not the first. -/
def skipComma? (first : Bool) (r : NodeReader) : Option NodeReader :=
  if first then some r
  else
    match r.tokens with
    | .comma :: _ => some r.drop
    | _ => none

/-- Reads the key and value of an entry of a flow sequence. If the key is left out, so is the
sign after it. -/
def readPair (handles : List (List Char × List Char)) :
    Nat → NodeReader → Option ((Node × Node) × NodeReader)
  | 0, _ => none
  | fuel + 1, r => do
    let (k, r) ←
      if r.atAny [.value, .comma, .flowSequenceEnd] then some (.omitted, r.drop)
      else readNode handles fuel false false r
    let (v, r) ← readValue handles fuel [.comma, .flowSequenceEnd] false r
    return ((k, v), r)

/-- Reads the entries of a flow mapping and its end. Before each but the first stands a
comma. -/
def readFlowEntries (handles : List (List Char × List Char)) :
    Nat → (first : Bool) → NodeReader → Option (List (Node × Node) × NodeReader)
  | 0, _, _ => none
  | fuel + 1, first, r =>
    match r.tokens with
    | .flowMappingEnd :: _ => some ([], r.drop)
    | _ => do
      let r ← skipComma? first r
      match r.tokens with
      | .flowMappingEnd :: _ => return ([], r.drop)
      | .key :: _ =>
        let (k, r) ←
          readUnless handles fuel [.value, .comma, .flowMappingEnd] false false r.drop
        let (v, r) ← readValue handles fuel [.comma, .flowMappingEnd] false r
        let (entries, r) ← readFlowEntries handles fuel false r
        return ((k, v) :: entries, r)
      | _ =>
        let (k, r) ← readNode handles fuel false false r
        let (entries, r) ← readFlowEntries handles fuel false r
        return ((k, .omitted) :: entries, r)

end

end NodeReader

/-- What the two handles that need no directive stand for. -/
def standardHandles : List (List Char × List Char) :=
  [(['!'], ['!']), (['!', '!'], "tag:yaml.org,2002:".toList)]

structure Directives where
  hasVersion : Bool := false
  handles : List (List Char × List Char) := []

/-- Reads the directives before a document. Each may be given once. -/
def readDirectives (ds : Directives) : List Token → Option (Directives × List Token)
  | .version major minor :: rest =>
    if ds.hasVersion || major != 1 || (minor != 1 && minor != 2) then none
    else readDirectives { ds with hasVersion := true } rest
  | .handle name expansion :: rest =>
    if (ds.handles.lookup name).isSome then none
    else readDirectives { ds with handles := (name, expansion) :: ds.handles } rest
  | rest => some (ds, rest)

/-- The node of a document, given its first tokens and what its directives say. -/
def readContent (ds : Directives) : List Token → Option (Node × List Token)
  | tokens =>
    let fuel := 3 * tokens.length + 3
    (NodeReader.readNode (ds.handles ++ standardHandles) fuel true false { tokens := tokens }).map
      fun (node, r) => (node, r.tokens)

/-- Whether the next token shows that a document has no content. -/
def endsContent : List Token → Bool
  | [] => true
  | .version .. :: _ => true
  | .handle .. :: _ => true
  | .documentStart :: _ => true
  | .documentEnd :: _ => true
  | _ => false

/-- The node of the only document of a text. A text without any document has none; a text with
more than one is not read. -/
def document? (text : List Char) : Option (Option Node) := do
  let tokens ← tokens? text
  if tokens.isEmpty then
    return none
  let (ds, rest) ← readDirectives {} tokens
  let (node, rest) ←
    match rest with
    | .documentStart :: rest =>
      if endsContent rest then some (.omitted, rest) else readContent ds rest
    | rest =>
      if ds.hasVersion || !ds.handles.isEmpty then none else readContent ds rest
  guard (rest.all (· = .documentEnd))
  return some node

end BeanForge.Yaml
