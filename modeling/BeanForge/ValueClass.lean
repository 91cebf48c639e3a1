import BeanForge.Model
import BeanForge.SourceText
/-!
# Value classes

The header and the source of a value class. Both are written from lists of member functions:
`declared` for the header and `definitions` for the source, which pair each function with its
body. Nested classes stand inside their parent in the header, one level further to the right,
and before it in the source.
-/
namespace BeanForge.ValueClass

open Text SourceText

/-- The header that defines the macro for copying and moving. -/
def globalsHeader : String := "microcore/core/globals.h"

/-- A member function of a value class. -/
inductive Method where
  /-- The constructor that takes a value for every property. -/
  | construct (parameters : List Parameter)
  | equal
  | notEqual
  | getter (result name : String)
  | setter (name : String) (parameter : Parameter)
  deriving DecidableEq, Repr

structure Field where
  type : String
  property : String
  initial : String
  deriving DecidableEq, Repr

/-- The body of a member function. -/
inductive Body where
  /-- Stores an expression in the data member of each property. -/
  | storeAll (values : List (String × String))
  /-- Compares the data members of these properties. -/
  | compare (properties : List String)
  /-- Negates the comparison. -/
  | negate
  /-- Returns the data member of a property. -/
  | fetch (property : String)
  /-- Stores an expression in the data member of a property. -/
  | store (property value : String)
  deriving DecidableEq, Repr

structure Definition where
  /-- The class as written outside of it. -/
  owner : String
  /-- The class as written inside of it. -/
  className : String
  method : Method
  body : Body
  deriving DecidableEq, Repr

/-- The parameter that carries a property. -/
def parameter (m : Member) : Parameter :=
  ⟨m.parameterType, m.name⟩

/-- The getter of a property and its setter, if it has one. The type of the property is written
as it is inside or outside of the class. -/
def accessors (typeOf : Member → String) (m : Member) : List Method :=
  .getter (typeOf m) m.getter :: (m.setter.map fun s => .setter s (parameter m)).toList

/-- The constructor with parameters, which a class without properties does not have. -/
def constructors (c : ClassModel) : List Method :=
  if c.members.isEmpty then [] else [.construct (c.members.map parameter)]

/-- The functions of a class apart from its constructors. -/
def functions (typeOf : Member → String) (c : ClassModel) : List Method :=
  [.equal, .notEqual] ++ c.members.flatMap (accessors typeOf)

/-- The member functions that the header declares without a body. -/
def declared (c : ClassModel) : List Method :=
  constructors c ++ functions Member.memberType c

def fields (c : ClassModel) : List Field :=
  c.members.map fun m => ⟨m.memberType, m.name, m.initialValue⟩

def accessorDefinitions (c : ClassModel) (m : Member) : List Definition :=
  ⟨c.nestedName, c.name, .getter m.nestedMemberType m.getter, .fetch m.name⟩ ::
    (m.setter.map fun s =>
      ⟨c.nestedName, c.name, .setter s (parameter m), .store m.name m.stored⟩).toList

/-- The member functions that the source defines for a class. -/
def definitions (c : ClassModel) : List Definition :=
  ((constructors c).map fun f =>
    ⟨c.nestedName, c.name, f, .storeAll (c.members.map fun m => (m.name, m.stored))⟩) ++
  [⟨c.nestedName, c.name, .equal, .compare (c.members.map (·.name))⟩,
    ⟨c.nestedName, c.name, .notEqual, .negate⟩] ++
  c.members.flatMap (accessorDefinitions c)

/-- The parameter list of a constructor, one parameter on each line. -/
def parameterLines (margin : String) (ps : List Parameter) (close : String) : String :=
  line (margin ++ "(") ++
    line (margin ++ "    " ++ join (",\n" ++ margin ++ "    ") (ps.map Parameter.text)) ++
    line (margin ++ close)

def comparison (owner operator className : String) : String :=
  "bool " ++ owner ++ "operator" ++ operator ++ "(const " ++ className ++ " &other) const"

/-- The lines that declare a member function of a class. -/
def declareMethod (className : String) : Method → String
  | .construct ps =>
    line ("    explicit " ++ className) ++ parameterLines "    " ps ");"
  | .equal => line ("    " ++ comparison "" "==" className ++ ";")
  | .notEqual => line ("    " ++ comparison "" "!=" className ++ ";")
  | .getter result name => line ("    " ++ result ++ " " ++ name ++ "() const;")
  | .setter name p => line ("    void " ++ name ++ "(" ++ p.text ++ ");")

/-- The line that declares a data member. -/
def declareField (f : Field) : String :=
  line ("    " ++ f.type ++ " m_" ++ f.property ++ " " ++ braced f.initial ++ ";")

/-- What stands in a class before the classes nested in it. -/
def blockStart (c : ClassModel) : String :=
  lines ["class " ++ c.name, opening, "public:"]

/-- What stands in a class after the classes nested in it. -/
def blockEnd (c : ClassModel) : String :=
  line ("    explicit " ++ c.name ++ "() = default;") ++
  String.join ((constructors c).map (declareMethod c.name)) ++
  line ("    DEFAULT_COPY_DEFAULT_MOVE(" ++ c.name ++ ");") ++
  String.join ((functions Member.memberType c).map (declareMethod c.name)) ++
  (if c.members.isEmpty then "" else line "private:") ++
  String.join ((fields c).map declareField) ++
  line (closing ++ ";")

mutual

/-- The declaration of a class, with the classes nested in it indented inside. -/
def declaration : ClassModel → String
  | ⟨name, moduleName, nestedName, members, classes, isConst, rootName, plan⟩ =>
    let c : ClassModel :=
      ⟨name, moduleName, nestedName, members, classes, isConst, rootName, plan⟩
    blockStart c ++ nestedDeclarations classes ++ blockEnd c

/-- The declarations of several classes, indented. -/
def nestedDeclarations : List ClassModel → String
  | [] => ""
  | c :: cs => line (indent (declaration c)) ++ nestedDeclarations cs

end

def Body.text : Body → String
  | storeAll _ => lines [opening, closing]
  | compare ps =>
    line opening ++
    (if ps.isEmpty then line "    static_cast<void>(other);" else "") ++
    String.join (ps.map fun p =>
      lines ["    if (m_" ++ p ++ " != other.m_" ++ p ++ ") " ++ opening,
        "        return false;", "    " ++ closing]) ++
    lines ["    return true;", closing]
  | negate => lines [opening, "    return !(*this == other);", closing]
  | fetch p => lines [opening, "    return m_" ++ p ++ ";", closing]
  | store p value => lines [opening, "    m_" ++ p ++ " = " ++ value ++ ";", closing]

/-- The lines of a constructor's initializers: a colon before the first, commas before the
others. -/
def initializerLines (lead : String) : List (String × String) → String
  | [] => ""
  | (p, value) :: rest =>
    line ("    " ++ lead ++ " m_" ++ p ++ " " ++ braced value) ++ initializerLines "," rest

def Body.initializers : Body → List (String × String)
  | storeAll values => values
  | _ => []

/-- The lines before the body of a definition. -/
def Definition.heading (d : Definition) : String :=
  let owner := d.owner ++ "::"
  match d.method with
  | .construct ps => line (owner ++ d.className) ++ parameterLines "" ps ")"
  | .equal => line (comparison owner "==" d.className)
  | .notEqual => line (comparison owner "!=" d.className)
  | .getter result name => line (result ++ " " ++ owner ++ name ++ "() const")
  | .setter name p => line ("void " ++ owner ++ name ++ "(" ++ p.text ++ ")")

/-- The lines of a definition and an empty one after it. -/
def Definition.text (d : Definition) : String :=
  d.heading ++ initializerLines ":" d.body.initializers ++ d.body.text ++ emptyLine

/-- All definitions of a source, children before their parents. -/
def allDefinitions (c : ClassModel) : List Definition :=
  c.postorder.flatMap definitions

def header (m : Model) (stem : String) : String :=
  guarded (guardName stem "H") <|
    includeSystem globalsHeader ++ String.join (m.includes.map includeSystem) ++ emptyLine ++
    openNamespace m.root.moduleName ++ emptyLine ++
    declaration m.root ++ emptyLine ++
    closeNamespace m.root.moduleName

def source (m : Model) (stem : String) : String :=
  includeLocal (stem ++ ".h") ++ emptyLine ++
  openNamespace m.root.moduleName ++ emptyLine ++
  String.join ((allDefinitions m.root).map Definition.text) ++
  closeNamespace m.root.moduleName

def files (m : Model) (stem : String) : List OutputFile :=
  [⟨stem ++ ".h", header m stem⟩, ⟨stem ++ ".cpp", source m stem⟩]

end BeanForge.ValueClass
