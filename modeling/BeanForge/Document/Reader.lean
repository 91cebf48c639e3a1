import BeanForge.Document
import BeanForge.Yaml.Node
/-!
# Documents from YAML text

The fields of a document and its declarations, read from the entries of YAML mappings. Unknown
fields are skipped whatever they hold, and known ones may be given once. Any scalar is a text,
as it is spelled, unless it is plain and empty or one of the words for null. Collections may be
nested in each other up to a depth of 128, and following aliases is limited to a hundred times
the steps of the document, so that no text makes reading run away.
-/
namespace BeanForge.Document

open Yaml

/-- Reading, with the number of times that an alias may still be followed. -/
abbrev Reading := StateT Nat Option

/-- How deep collections may be nested. -/
def maxDepth : Nat := 128

def nullTag : List Char := "tag:yaml.org,2002:null".toList

/-- The tag of truth values. -/
def boolTag : List Char := "tag:yaml.org,2002:bool".toList

def isNullWord (text : String) : Bool :=
  text == "null" || text == "Null" || text == "NULL" || text == "~"

/-- The words for truth values. -/
def truth? (text : String) : Option Bool :=
  if text ∈ ["true", "True", "TRUE"] then some true
  else if text ∈ ["false", "False", "FALSE"] then some false
  else none

/-- The node that a node stands for: itself, or what an alias names. -/
def follow (anchors : List (Nat × Node)) : Node → Reading Node
  | .reference n => do
    match ← get with
    | 0 => failure
    | left + 1 =>
      set left
      match anchors.reverse.lookup n with
      | some node => return node
      | none => failure
  | node => return node

/-- Whether a scalar stands for nothing. One that has the tag of nulls has to. -/
def isNull? (tag : Option (List Char)) (style : ScalarStyle) (text : String) : Option Bool :=
  if style ≠ .plain then some false
  else
    match tag with
    | none => some (text.isEmpty || isNullWord text)
    | some tag =>
      if tag ≠ nullTag then some false
      else if isNullWord text then some true
      else none

def readText (anchors : List (Nat × Node)) (node : Node) : Reading String := do
  match ← follow anchors node with
  | .scalar _ _ _ text => return String.ofList text
  | _ => failure

/-- The text of a scalar that may stand for nothing. -/
def readOptionalText (anchors : List (Nat × Node)) (node : Node) : Reading (Option String) := do
  match ← follow anchors node with
  | .scalar _ tag style text =>
    let text := String.ofList text
    match isNull? tag style text with
    | some isNull => return if isNull then none else some text
    | none => failure
  | _ => failure

/-- The truth value that a scalar stands for. -/
def readBool (anchors : List (Nat × Node)) (node : Node) : Reading Bool := do
  match ← follow anchors node with
  | .scalar _ tag style text =>
    guard (style = .plain || (style = .literal && tag = some boolTag))
    match truth? (String.ofList text) with
    | some b => return b
    | none => failure
  | _ => failure

/-- The items of a sequence that may be missing, with what reads one of them; that is `none`
where a sequence would be nested too deep. -/
def readOptionalList {α : Type} (anchors : List (Nat × Node))
    (readItem : Option (Node → Reading α)) (node : Node) : Reading (Option (List α)) := do
  match ← follow anchors node with
  | .scalar _ tag style text =>
    match isNull? tag style (String.ofList text) with
    | some true => return none
    | some false => if style = .plain && text.isEmpty then return some [] else failure
    | none => failure
  | .sequence _ items =>
    match readItem with
    | some read => return some (← items.mapM read)
    | none => failure
  | _ => failure

/-- Reads the entries of a mapping into a structure. A step reads a known field and is `none` for
an unknown one. -/
def readFields {α : Type} (anchors : List (Nat × Node))
    (step : String → Node → Option (α → Reading α)) (start : α)
    (entries : List (Node × Node)) : Reading α := do
  let (result, _) ← entries.foldlM (fun (state : α × List String) entry => do
    let key ← readText anchors entry.1
    match step key entry.2 with
    | none => return state
    | some read =>
      guard (key ∉ state.2)
      return (← read state.1, key :: state.2)) (start, [])
  return result

def declarationField (anchors : List (Nat × Node)) (readItem : Option (Node → Reading Declaration))
    (key : String) (node : Node) : Option (Declaration → Reading Declaration) :=
  match key with
  | "name" => some fun d => do return { d with name := ← readOptionalText anchors node }
  | "type" => some fun d => do return { d with typeName := ← readOptionalText anchors node }
  | "access" => some fun d => do return { d with access := ← readOptionalText anchors node }
  | "list" => some fun d => do return { d with isList := ← readBool anchors node }
  | "class_name" => some fun d => do return { d with className := ← readOptionalText anchors node }
  | "properties" => some fun d => do
    return { d with properties := ← readOptionalList anchors readItem node }
  | "json_path" => some fun d => do return { d with jsonPath := ← readOptionalText anchors node }
  | "json_optional" => some fun d => do return { d with jsonOptional := ← readBool anchors node }
  | _ => none

/-- Reads a declaration at a place where collections may be nested to the given depth. A scalar
without content is a declaration without fields. -/
def readDeclaration (anchors : List (Nat × Node)) : Nat → Node → Reading Declaration
  | 0, node => do
    match ← follow anchors node with
    | .scalar _ _ .plain [] => return {}
    | _ => failure
  | 1, node => do
    match ← follow anchors node with
    | .scalar _ _ .plain [] => return {}
    | .mapping _ entries => readFields anchors (declarationField anchors none) {} entries
    | _ => failure
  | depth + 2, node => do
    match ← follow anchors node with
    | .scalar _ _ .plain [] => return {}
    | .mapping _ entries =>
      readFields anchors (declarationField anchors (some (readDeclaration anchors depth))) {}
        entries
    | _ => failure

def documentField (anchors : List (Nat × Node)) (key : String) (node : Node) :
    Option (Document → Reading Document) :=
  match key with
  | "name" => some fun d => do return { d with name := ← readOptionalText anchors node }
  | "module" => some fun d => do return { d with moduleName := ← readOptionalText anchors node }
  | "source" => some fun d => do return { d with source := ← readOptionalText anchors node }
  | "no_qt" => some fun d => do return { d with noQt := ← readBool anchors node }
  | "properties" => some fun d => do
    return { d with
      properties := ← readOptionalList anchors
        (some (readDeclaration anchors (maxDepth - 2))) node }
  | _ => none

/-- The document that a node describes. A scalar without content is a document without
fields. -/
def ofNode? (node : Node) : Option Document :=
  let anchors := node.anchored
  let read : Reading Document := do
    match ← follow anchors node with
    | .scalar _ _ .plain [] => return {}
    | .mapping _ entries => readFields anchors (documentField anchors) {} entries
    | _ => failure
  read.run' (100 * node.steps)

/-- The document that a YAML text describes, if the text can be read and fits. -/
def ofYaml? (text : String) : Option Document := do
  match ← Yaml.document? text.toList with
  | none => return {}
  | some node => ofNode? node

end BeanForge.Document
