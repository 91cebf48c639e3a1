import BeanForge.Json
import BeanForge.Model
/-!
# Code models as JSON

The fields of a code model in the order in which they are emitted, and the way back. What a
target does not use is left out: a property has the fields of a wrapper only with `qt_type`, and
those of a decoder only with `json_path`.
-/
namespace BeanForge

def Json.texts (ss : List String) : Json :=
  .array (ss.map .text)

/-- A field that is left out if it has no value. -/
def Json.optional (key : String) (value : Option String) : List (String × Json) :=
  (value.map fun s => (key, Json.text s)).toList

def Json.texts? (j : Json) : Option (List String) := do
  (← j.array?).mapM Json.text?

/-- The text of a mandatory field. -/
def Json.textField? (j : Json) (key : String) : Option String := do
  (← j.field? key).text?

/-- The truth value of a mandatory field. -/
def Json.boolField? (j : Json) (key : String) : Option Bool := do
  (← j.field? key).bool?

/-- The text of a field that may be left out. -/
def Json.optionalField? (j : Json) (key : String) : Option (Option String) :=
  match j.field? key with
  | none => some none
  | some v => v.text?.map some

/-- The fields of a property that has a wrapper. -/
def QtView.jsonFields (q : QtView) : List (String × Json) :=
  [("qt_type", .text q.type)] ++ Json.optional "qt_class" q.wrapper ++
    [("is_qt_object", .bool q.isObject), ("nested_name", .text q.nestedName)]

/-- The view of a wrapper that the fields of a property stand for. -/
def QtView.ofJson? (j : Json) : Option QtView := do
  return {
    type := ← j.textField? "qt_type"
    wrapper := ← j.optionalField? "qt_class"
    isObject := ← j.boolField? "is_qt_object"
    nestedName := ← j.textField? "nested_name" }

/-- The fields of a property that is read from JSON. -/
def JsonSource.jsonFields (s : JsonSource) : List (String × Json) :=
  [("json_path", .text s.path), ("json_optional", .bool s.optional),
    ("json_type", .text s.shape.text), ("json_prefix", Json.texts s.parents),
    ("json_suffix", .text s.key), ("json_conversion_method", .text s.conversion)]

/-- The place in JSON that the fields of a property stand for. -/
def JsonSource.ofJson? (j : Json) : Option JsonSource := do
  return {
    path := ← j.textField? "json_path"
    optional := ← j.boolField? "json_optional"
    shape := ← JsonShape.ofText? (← j.textField? "json_type")
    parents := ← (← j.field? "json_prefix").texts?
    key := ← j.textField? "json_suffix"
    conversion := ← j.textField? "json_conversion_method" }

/-- The object that a property is emitted as. -/
def Member.toJson (m : Member) : Json :=
  .object <|
    [("name", .text m.name), ("access", .text m.access.text), ("type", .text m.type),
      ("nested_type", .text m.nestedType), ("member_type", .text m.memberType),
      ("nested_member_type", .text m.nestedMemberType), ("type_type", .text m.kind.text),
      ("getter", .text m.getter)] ++
    Json.optional "setter" m.setter ++
    [("initial_value", .text m.initialValue), ("setter_type", .text m.parameterType),
      ("setter_impl", .text m.stored)] ++
    m.qt.elim [] QtView.jsonFields ++ m.json.elim [] JsonSource.jsonFields

/-- The property that an object stands for. -/
def Member.ofJson? (j : Json) : Option Member := do
  return {
    name := ← j.textField? "name"
    access := ← Access.ofText? (← j.textField? "access")
    type := ← j.textField? "type"
    nestedType := ← j.textField? "nested_type"
    memberType := ← j.textField? "member_type"
    nestedMemberType := ← j.textField? "nested_member_type"
    kind := ← TypeKind.ofText? (← j.textField? "type_type")
    getter := ← j.textField? "getter"
    setter := ← j.optionalField? "setter"
    initialValue := ← j.textField? "initial_value"
    parameterType := ← j.textField? "setter_type"
    stored := ← j.textField? "setter_impl"
    qt := ← if (j.field? "qt_type").isSome then (QtView.ofJson? j).map some else some none
    json := ← if (j.field? "json_path").isSome then (JsonSource.ofJson? j).map some
      else some none }

/-- The object that a step of a decode plan is emitted as. -/
def Lookup.toJson (l : Lookup) : Json :=
  .object [("parents", Json.texts l.parents), ("key", .text l.key)]

/-- The step that an object stands for. -/
def Lookup.ofJson? (j : Json) : Option Lookup := do
  return ⟨← (← j.field? "parents").texts?, ← j.textField? "key"⟩

namespace ClassModel

mutual

def toJson : ClassModel → Json
  | ⟨name, moduleName, nestedName, members, classes, isConst, rootName, plan⟩ =>
    .object <|
      [("name", .text name), ("module", .text moduleName), ("nested_name", .text nestedName),
        ("properties", .array (members.map Member.toJson)),
        ("classes", .array (toJsonAll classes)), ("const", .bool isConst)] ++
      Json.optional "root_name" rootName ++
      (plan.map fun ls => ("json_tree", Json.array (ls.map Lookup.toJson))).toList

def toJsonAll : List ClassModel → List Json
  | [] => []
  | c :: cs => c.toJson :: toJsonAll cs

end

/-- The decode plan of a class, if it has one. -/
def planField? (j : Json) : Option (Option (List Lookup)) :=
  match j.field? "json_tree" with
  | none => some none
  | some v => (v.array?.bind fun ls => ls.mapM Lookup.ofJson?).map some

/-- The class that a value of at most the given depth stands for. -/
def ofJson? : Nat → Json → Option ClassModel
  | 0, _ => none
  | depth + 1, j => do
    return {
      name := ← j.textField? "name"
      moduleName := ← j.textField? "module"
      nestedName := ← j.textField? "nested_name"
      members := ← (← (← j.field? "properties").array?).mapM Member.ofJson?
      classes := ← (← (← j.field? "classes").array?).mapM (ofJson? depth)
      isConst := ← j.boolField? "const"
      rootName := ← j.optionalField? "root_name"
      plan := ← planField? j }

end ClassModel

namespace Json

mutual

/-- How deep arrays and objects are nested in a value. -/
def depth : Json → Nat
  | bool _ => 1
  | text _ => 1
  | array items => 1 + depthItems items
  | object fields => 1 + depthFields fields

/-- The largest depth of the items of an array. -/
def depthItems : List Json → Nat
  | [] => 0
  | item :: items => max item.depth (depthItems items)

/-- The largest depth of the fields of an object. -/
def depthFields : List (String × Json) → Nat
  | [] => 0
  | (_, value) :: fields => max value.depth (depthFields fields)

end

end Json

namespace Model

def toJson (m : Model) : Json :=
  .object [("target", .text m.target.text), ("includes", Json.texts m.includes),
    ("has_list", .bool m.hasList), ("root", m.root.toJson)]

/-- The model that an object stands for. -/
def ofJson? (j : Json) : Option Model := do
  return {
    target := ← Target.ofText? (← j.textField? "target")
    includes := ← (← j.field? "includes").texts?
    hasList := ← j.boolField? "has_list"
    root := ← ClassModel.ofJson? j.depth (← j.field? "root") }

def emit (m : Model) : String :=
  m.toJson.render

end Model

end BeanForge
