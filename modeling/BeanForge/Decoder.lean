import BeanForge.Model
import BeanForge.SourceText
import BeanForge.Text.Literal
import BeanForge.TypeName
/-!
# Decoders

The header and the source of a factory that decodes a value class from a JSON object. Every
nested class has a parse function, defined before the functions that call it. A body binds the
objects of the decode plan, reads each property from the object its path leads to, and returns
the value that all properties make; a missing mandatory property makes it return nothing.

Locals of different kinds cannot clash, whatever keys and properties are called: objects are
`json_root` and `json_<n>_<key>`, temporaries `json_value` and `json_parsed`, and properties
`field_<name>`.
A class whose objects or parse functions cannot be found has no body.
-/
namespace BeanForge.Decoder

open Text SourceText

/-- An argument of a constructor: a local that is copied or moved. -/
structure Argument where
  source : String
  moved : Bool
  deriving DecidableEq, Repr

def Argument.text (a : Argument) : String :=
  if a.moved then "std::move(" ++ a.source ++ ")" else a.source

/-- A statement of a decoding function. -/
inductive Statement where
  /-- Binds an object to what another holds under a key. -/
  | bind (object parent key : String)
  /-- Returns nothing if an object lacks a key. -/
  | require (object key : String)
  /-- Declares a local with a converted value. -/
  | scalar (type field object key conversion : String)
  /-- Declares a local with the default value of its type. -/
  | declareDefault (type field : String)
  /-- Declares a local with an empty list. -/
  | declareList (type field : String)
  /-- Appends the converted elements of an array. -/
  | appendScalars (field object key conversion : String)
  /-- Stores what a function parses from a value, if there is one; returns nothing if the
  function does. -/
  | parse (field object key function : String)
  /-- Appends what a function parses from each element of an array; returns nothing if the
  function does. -/
  | appendParsed (field object key function : String)
  /-- Returns a value constructed from locals. -/
  | construct (type : String) (arguments : List Argument)
  deriving DecidableEq, Repr

structure DecodeFunction where
  result : String
  name : String
  body : List Statement
  deriving DecidableEq, Repr

/-- The parameter of every function. -/
def rootLocal : String := "json_root"

/-- The local for an element of an array, in a loop over the array. -/
def elementLocal : String := "json_value"

/-- The local for what a parse function finds. -/
def parsedLocal : String := "json_parsed"

def fieldLocal (name : String) : String :=
  "field_" ++ name

/-- The local of an object of the decode plan. -/
def objectLocal (index : Nat) (key : String) : String :=
  "json_" ++ toString index ++ "_" ++ identifier key

/-- The parse function of a nested class. -/
def functionName (index : Nat) (className : String) : String :=
  "parse_" ++ toString index ++ "_" ++ identifier className

def factoryName (m : Model) : String :=
  m.root.name ++ "JsonFactory"

/-- The entry of a key that was added last. -/
def lastOf {κ : Type} [BEq κ] {ν : Type} (table : List (κ × ν)) (key : κ) : Option ν :=
  table.reverse.lookup key

/-- The parse functions by the class as written anywhere. -/
def functionTable (classes : List ClassModel) : List (String × String) :=
  classes.zipIdx.map fun (c, i) => (c.nestedName, functionName i c.name)

/-- The steps of a class's decode plan. -/
def steps (c : ClassModel) : List Lookup :=
  c.plan.getD []

/-- The object locals by the segments that lead to the object. -/
def objectTable (c : ClassModel) : List (List String × String) :=
  ([JsonPath.rootSegment], rootLocal) ::
    (steps c).zipIdx.map fun (l, i) => (l.segments, objectLocal i l.key)

/-- The statement that looks up one object of the plan. -/
def bindStatement (objects : List (List String × String)) (l : Lookup) : Option Statement := do
  return .bind (← lastOf objects l.segments) (← lastOf objects l.parents) l.key

/-- The statements that read one property from an object. -/
def readStatements (functions : List (String × String)) (m : Member) (s : JsonSource)
    (object : String) : Option (List Statement) := do
  let field := fieldLocal m.name
  let type := m.nestedMemberType
  let presence := if s.optional then [] else [Statement.require object s.key]
  match s.shape with
  | .simple => return presence ++ [.scalar type field object s.key s.conversion]
  | .array =>
    return presence ++
      [.declareList type field, .appendScalars field object s.key s.conversion]
  | .object =>
    let f ← lastOf functions m.nestedType
    return presence ++ [.declareDefault type field, .parse field object s.key f]
  | .objectArray =>
    let f ← lastOf functions m.nestedType
    return presence ++ [.declareList type field, .appendParsed field object s.key f]

/-- The statements that read a property; one without a place in JSON needs none. -/
def memberStatements (functions : List (String × String)) (objects : List (List String × String))
    (m : Member) : Option (List Statement) :=
  match m.json with
  | none => some []
  | some s => do readStatements functions m s (← lastOf objects s.parents)

/-- How the local of a property is handed to the constructor: simple types are copied. -/
def argument (m : Member) : Argument :=
  ⟨fieldLocal m.name, !TypeName.isSimple m.memberType⟩

def body? (functions : List (String × String)) (c : ClassModel) : Option (List Statement) := do
  let objects := objectTable c
  let binds ← (steps c).mapM (bindStatement objects)
  let reads ← c.members.mapM (memberStatements functions objects)
  return binds ++ reads.flatten ++ [.construct c.nestedName (c.members.map argument)]

def parseFunction? (functions : List (String × String)) (c : ClassModel) :
    Option DecodeFunction := do
  return ⟨c.nestedName, ← lastOf functions c.nestedName, ← body? functions c⟩

/-- The parse functions of all nested classes, children before parents. -/
def parseFunctions? (m : Model) : Option (List DecodeFunction) :=
  m.root.nested.mapM (parseFunction? (functionTable m.root.nested))

def entryFunction? (m : Model) : Option DecodeFunction := do
  return ⟨m.root.name, factoryName m ++ "::fromJson",
    ← body? (functionTable m.root.nested) m.root⟩

/-- The expression that wraps a key. -/
def keyText (key : String) : String :=
  "QLatin1String(" ++ literal key ++ ")"

/-- The expression for what an object holds under a key. -/
def valueText (object key : String) : String :=
  object ++ ".value(" ++ keyText key ++ ")"

/-- The lines that return nothing. -/
def giveUp (margin : String) : List String :=
  [margin ++ "    return std::nullopt;", margin ++ closing]

/-- The line that starts a loop over the elements of an array. -/
def loopStart (object key : String) : String :=
  "    for (const QJsonValue &" ++ elementLocal ++ " : " ++ valueText object key ++
    ".toArray()) " ++ opening

/-- The lines that call a parse function and stop if it finds nothing. -/
def parseCall (function value : String) : List String :=
  ["        const auto " ++ parsedLocal ++ " = " ++ function ++ "(" ++ value ++ ".toObject());",
    "        if (!" ++ parsedLocal ++ ") " ++ opening] ++ giveUp "        "

def Statement.text : Statement → String
  | bind object parent key =>
    line ("    const QJsonObject " ++ object ++ " " ++
      braced (valueText parent key ++ ".toObject()") ++ ";")
  | require object key =>
    lines (("    if (!" ++ object ++ ".contains(" ++ keyText key ++ ")) " ++ opening) ::
      giveUp "    ")
  | scalar type field object key conversion =>
    line ("    " ++ type ++ " " ++ field ++ " " ++
      braced (valueText object key ++ "." ++ conversion ++ "()") ++ ";")
  | declareDefault type field | declareList type field =>
    line ("    " ++ type ++ " " ++ field ++ " " ++ braced "" ++ ";")
  | appendScalars field object key conversion =>
    lines [loopStart object key,
      "        " ++ field ++ ".push_back(" ++ elementLocal ++ "." ++ conversion ++ "());",
      "    " ++ closing]
  | parse field object key function =>
    lines <|
      [("    if (" ++ object ++ ".contains(" ++ keyText key ++ ")) " ++ opening)] ++
      parseCall function (valueText object key) ++
      ["        " ++ field ++ " = *" ++ parsedLocal ++ ";", "    " ++ closing]
  | appendParsed field object key function =>
    lines <|
      [loopStart object key] ++ parseCall function elementLocal ++
      ["        " ++ field ++ ".push_back(*" ++ parsedLocal ++ ");", "    " ++ closing]
  | construct type [] => line ("    return " ++ type ++ " " ++ braced "" ++ ";")
  | construct type (a :: rest) =>
    line ("    return " ++ type ++ " " ++ bracedList "    " ((a :: rest).map Argument.text) ++ ";")

/-- The type of a decoded value that may be missing. -/
def optionalOf (type : String) : String :=
  "std::optional<" ++ type ++ ">"

/-- The parameter list of every function. -/
def parameterText : String :=
  "(const QJsonObject &" ++ rootLocal ++ ")"

def DecodeFunction.text (f : DecodeFunction) : String :=
  line (optionalOf f.result ++ " " ++ f.name ++ parameterText) ++
  line opening ++ String.join (f.body.map Statement.text) ++ line closing

def header (m : Model) (stem : String) : String :=
  guarded (guardName stem "JSONFACTORY_H") <|
    includeSystem "optional" ++ includeSystem "QJsonObject" ++ includeLocal (stem ++ ".h") ++
    emptyLine ++ openNamespace m.root.moduleName ++ emptyLine ++
    lines ["class " ++ factoryName m, opening, "public:",
      "    static " ++ optionalOf m.root.name ++ " fromJson" ++ parameterText ++ ";",
      closing ++ ";"] ++ emptyLine ++
    closeNamespace m.root.moduleName

/-- The parse functions in a namespace without a name; nothing if there are none. -/
def parseFunctionsText (fs : List DecodeFunction) : String :=
  if fs.isEmpty then ""
  else
    line ("namespace " ++ opening) ++ emptyLine ++
    String.join (fs.map fun f => f.text ++ emptyLine) ++
    line (closing ++ " // namespace") ++ emptyLine

/-- The source of a model, if all objects and functions are found. -/
def source? (m : Model) (stem : String) : Option String := do
  let functions ← parseFunctions? m
  let entry ← entryFunction? m
  return includeLocal (stem ++ "jsonfactory.h") ++
    String.join (m.includes.map includeSystem) ++ includeSystem "QJsonValue" ++ emptyLine ++
    openNamespace m.root.moduleName ++ emptyLine ++
    parseFunctionsText functions ++
    entry.text ++ emptyLine ++
    closeNamespace m.root.moduleName

/-- The two files of a model, if all objects and functions are found. -/
def files? (m : Model) (stem : String) : Option (List OutputFile) := do
  return [⟨stem ++ "jsonfactory.h", header m stem⟩,
    ⟨stem ++ "jsonfactory.cpp", ← source? m stem⟩]

end BeanForge.Decoder
