import BeanForge.ValueClass
/-!
# The code of value classes

What stands in the header and in the source of a value class, line by line. The rules are stated
apart from the renderer, each form with all of its text, and say which list of the class every line
comes from. A name may hold newlines; in the header the lines that it then takes are shifted with
the others.
-/
namespace BeanForge.ValueClass

/-- A part of the declaration of a class at a depth. -/
inductive Part where
  /-- What stands in front of the classes nested in it. -/
  | start (depth : Nat) (c : ClassModel)
  /-- What stands behind them. -/
  | finish (depth : Nat) (c : ClassModel)

mutual

/-- The parts of a class at a depth, with those of its classes in between. -/
def parts (depth : Nat) : ClassModel → List Part
  | ⟨name, moduleName, nestedName, members, classes, isConst, rootName, plan⟩ =>
    let c : ClassModel :=
      ⟨name, moduleName, nestedName, members, classes, isConst, rootName, plan⟩
    .start depth c :: partsAll (depth + 1) classes ++ [.finish depth c]

def partsAll (depth : Nat) : List ClassModel → List Part
  | [] => []
  | c :: cs => parts depth c ++ partsAll depth cs

end

def Method.declarationCode (className : String) : Method → List String
  | construct ps =>
    ["    explicit " ++ className, "    (",
      "        " ++ Text.join ",\n        " (ps.map fun p => p.type ++ p.name), "    );"]
  | equal => ["    bool operator==(const " ++ className ++ " &other) const;"]
  | notEqual => ["    bool operator!=(const " ++ className ++ " &other) const;"]
  | getter result name => ["    " ++ result ++ " " ++ name ++ "() const;"]
  | setter name p => ["    void " ++ name ++ "(" ++ p.type ++ p.name ++ ");"]

def Field.code (f : Field) : String :=
  "    " ++ f.type ++ " m_" ++ f.property ++ " \x7b" ++ f.initial ++ "\x7d;"

def startCode (c : ClassModel) : List String :=
  ["class " ++ c.name, "\x7b", "public:"]

def endCode (c : ClassModel) : List String :=
  ["    explicit " ++ c.name ++ "() = default;"] ++
  (constructors c).flatMap (Method.declarationCode c.name) ++
  ["    DEFAULT_COPY_DEFAULT_MOVE(" ++ c.name ++ ");"] ++
  (functions Member.memberType c).flatMap (Method.declarationCode c.name) ++
  (if c.members.isEmpty then [] else ["private:"]) ++
  (fields c).map Field.code ++
  ["\x7d;"]

/-- Code shifted by some levels, newlines in names included. -/
def shifted (depth : Nat) (code : List String) : List String :=
  (code.flatMap (Text.split '\n')).map (Text.margin depth ++ ·)

def Part.code : Part → List String
  | start depth c => shifted depth (startCode c)
  | finish depth c => shifted depth (endCode c)

def headerCode (m : Model) (stem : String) : List String :=
  ["#ifndef " ++ Text.capitals stem ++ "_H", "#define " ++ Text.capitals stem ++ "_H", "",
    "#include <microcore/core/globals.h>"] ++
  m.includes.map (fun header => "#include <" ++ header ++ ">") ++
  ["", "namespace " ++ m.root.moduleName ++ " \x7b", ""] ++
  (parts 0 m.root).flatMap Part.code ++
  ["", "\x7d // namespace " ++ m.root.moduleName, "",
    "#endif // " ++ Text.capitals stem ++ "_H"]

def Method.definitionCode (owner className : String) : Method → List String
  | construct ps =>
    [owner ++ "::" ++ className, "(",
      "    " ++ Text.join ",\n    " (ps.map fun p => p.type ++ p.name), ")"]
  | equal => ["bool " ++ owner ++ "::operator==(const " ++ className ++ " &other) const"]
  | notEqual => ["bool " ++ owner ++ "::operator!=(const " ++ className ++ " &other) const"]
  | getter result name => [result ++ " " ++ owner ++ "::" ++ name ++ "() const"]
  | setter name p => ["void " ++ owner ++ "::" ++ name ++ "(" ++ p.type ++ p.name ++ ")"]

/-- The initializers of a constructor: a colon before the first, commas before the others. -/
def initializerCode : List (String × String) → List String
  | [] => []
  | (property, value) :: rest =>
    ("    : m_" ++ property ++ " \x7b" ++ value ++ "\x7d") ::
      rest.map fun (property, value) => "    , m_" ++ property ++ " \x7b" ++ value ++ "\x7d"

def Body.code : Body → List String
  | storeAll values => initializerCode values ++ ["\x7b", "\x7d"]
  | compare [] => ["\x7b", "    static_cast<void>(other);", "    return true;", "\x7d"]
  | compare (p :: ps) =>
    ["\x7b"] ++
    (p :: ps).flatMap (fun p =>
      ["    if (m_" ++ p ++ " != other.m_" ++ p ++ ") \x7b", "        return false;",
        "    \x7d"]) ++
    ["    return true;", "\x7d"]
  | negate => ["\x7b", "    return !(*this == other);", "\x7d"]
  | fetch p => ["\x7b", "    return m_" ++ p ++ ";", "\x7d"]
  | store p value => ["\x7b", "    m_" ++ p ++ " = " ++ value ++ ";", "\x7d"]

def Definition.code (d : Definition) : List String :=
  d.method.definitionCode d.owner d.className ++ d.body.code ++ [""]

def sourceCode (m : Model) (stem : String) : List String :=
  ["#include \"" ++ stem ++ ".h\"", "", "namespace " ++ m.root.moduleName ++ " \x7b", ""] ++
  (m.root.postorder.flatMap definitions).flatMap Definition.code ++
  ["\x7d // namespace " ++ m.root.moduleName]

end BeanForge.ValueClass
