import BeanForge.MemberName
import BeanForge.Model
import BeanForge.TypeName
/-!
# From schema to code model

One pass for all targets. The tree of the schema is kept; each place gains the names and types
that depend on the classes around it, and what the profile of the target asks for: flattened
class names, wrappers, or decode plans.
-/
namespace BeanForge

/-- A name with the names of the classes around it in front. -/
def qualify (scope : List String) (name : String) : String :=
  Text.join "::" scope ++ "::" ++ name

/-- The names of the classes around a class and its own, run together. -/
def flatten (scope : List String) (name : String) : String :=
  String.join scope ++ name

namespace Property

/-- The name of the class that a property declares. -/
def className? (p : Property) : Option String :=
  p.nested.map (·.name)

def isClass (p : Property) : Bool :=
  p.nested.isSome

/-- What the wrapper shows of a property. -/
def qtView (scope : List String) (p : Property) : QtView :=
  let wrapper := p.className?.map fun c => flatten scope c ++ "Object"
  { type := match wrapper with
      | some w => w ++ " *"
      | none => p.typeName
    wrapper := wrapper
    isObject := wrapper.isSome
    nestedName := qualify scope p.name }

/-- How a property is read from the place it is bound to. -/
def jsonSource (p : Property) (b : JsonBinding) : JsonSource :=
  { path := b.path
    optional := b.optional
    shape := JsonShape.ofProperty p.isClass p.isList
    parents := (JsonPath.rooted b.path).1
    key := (JsonPath.rooted b.path).2
    conversion := (TypeName.conversion? p.typeName).getD "" }

/-- The code of a property, given the names of the classes around it. -/
def member (profile : Profile) (scope : List String) (p : Property) : Member :=
  let type := p.className?.getD p.typeName
  let nestedType := (p.className?.map (qualify scope)).getD p.typeName
  let stored := fun t => if p.isList then TypeName.listOf profile.listContainer t else t
  { name := p.name
    access := p.access
    type := type
    nestedType := nestedType
    memberType := stored type
    nestedMemberType := stored nestedType
    kind :=
      if p.isList then .list
      else if TypeName.isSimple p.typeName then .simple
      else .object
    getter := MemberName.getter p.typeName p.name
    setter := if p.access = .readWrite then some (MemberName.setter p.name) else none
    initialValue := if p.isList then "" else TypeName.initialValue p.typeName
    parameterType := TypeName.parameter (stored type)
    stored := TypeName.stored (stored type) p.name
    qt := if profile.wrappers then some (p.qtView scope) else none
    json := if profile.decodes then p.binding.map p.jsonSource else none }

/-- The paths of the values that the properties of a class are read from. -/
def boundPaths (ps : List Property) : List String :=
  ps.filterMap fun p => p.binding.map (·.path)

/-- A class is constant if all its own properties are. -/
def allConst (ps : List Property) : Bool :=
  ps.all fun p => p.access = .const

end Property

/-- The name that a nested class is declared under. -/
def ClassNaming.apply (naming : ClassNaming) (scope : List String) (name : String) : String :=
  match naming with
  | .nested => name
  | .flattened => flatten scope name

namespace Schema

/-- The code of a class, given the code of the classes declared in it. -/
def classModel (s : Schema) (profile : Profile) (scope : List String) (name nestedName : String)
    (ps : List Property) (classes : List ClassModel) : ClassModel :=
  { name := name
    moduleName := s.moduleName
    nestedName := nestedName
    members := ps.map (Property.member profile scope)
    classes := classes
    isConst := Property.allConst ps
    rootName := if profile.decodes then some s.name else none
    plan := if profile.decodes then some (decodePlan (Property.boundPaths ps)) else none }

mutual

/-- The code of the class that a property declares, if it does. -/
def nestedClass? (s : Schema) (profile : Profile) (scope : List String) :
    Property → Option ClassModel
  | ⟨_, _, _, _, some ⟨name, ps⟩, _⟩ =>
    let inner := scope ++ [name]
    some (s.classModel profile inner (profile.classNaming.apply scope name)
      (qualify scope name) ps (nestedClasses s profile inner ps))
  | ⟨_, _, _, _, none, _⟩ => none

/-- The code of the classes that properties declare, in the order of the properties. -/
def nestedClasses (s : Schema) (profile : Profile) (scope : List String) :
    List Property → List ClassModel
  | [] => []
  | p :: ps => (nestedClass? s profile scope p).toList ++ nestedClasses s profile scope ps

end

mutual

/-- Whether a property or one in the class it declares is a list. -/
def hasListIn : Property → Bool
  | ⟨_, _, _, isList, some ⟨_, ps⟩, _⟩ => isList || hasList ps
  | ⟨_, _, _, isList, none, _⟩ => isList

/-- Whether some property at any depth is a list. -/
def hasList : List Property → Bool
  | [] => false
  | p :: ps => hasListIn p || hasList ps

end

mutual

/-- The declared type of a property, then those in the class it declares. -/
def typeNamesIn : Property → List String
  | ⟨_, typeName, _, _, some ⟨_, ps⟩, _⟩ => typeName :: typeNames ps
  | ⟨_, typeName, _, _, none, _⟩ => [typeName]

/-- The declared types of all properties at any depth. -/
def typeNames : List Property → List String
  | [] => []
  | p :: ps => typeNamesIn p ++ typeNames ps

end

/-- Adds a text to a strictly increasing list, unless it is there. -/
def insertSorted (text : String) : List String → List String
  | [] => [text]
  | t :: ts =>
    if text < t then text :: t :: ts
    else if text = t then t :: ts
    else t :: insertSorted text ts

/-- The texts in increasing order, each once. -/
def sortDistinct (texts : List String) : List String :=
  texts.foldr insertSorted []

/-- The headers that the generated code needs: that of lists first, then those of the Qt types
in order. -/
def includes (profile : Profile) (ps : List Property) : List String :=
  (if hasList ps then [profile.listHeader] else []) ++
    (if profile.typeHeaders then sortDistinct ((typeNames ps).filter TypeName.isQt) else [])

def model (s : Schema) (target : Target) : Model :=
  let profile := target.profile
  { target := target
    includes := includes profile s.properties
    hasList := hasList s.properties
    root := s.classModel profile [s.name] s.name s.name s.properties
      (s.nestedClasses profile [s.name] s.properties) }

end Schema

end BeanForge
