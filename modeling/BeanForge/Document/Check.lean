import BeanForge.Document
import BeanForge.JsonPath
import BeanForge.Rejection
import BeanForge.Target
import BeanForge.TypeName
/-!
# Checking documents

`Document.check` turns a document into a schema or reports the first fault it meets, with its
place. Declarations are checked in order, and the scope that a declaration opens is checked
before the next declaration. Names and class names have to differ within a scope; other scopes
may use them again.
-/
namespace BeanForge

/-- The place of faults in a document that has no name. -/
def namelessLocation : String := "<schema>"

structure Taken where
  names : List String := []
  classes : List String := []

/-- The scope that a class opens in the scope around it. -/
def nestedScope (scope className : String) : String :=
  scope ++ "::" ++ className

namespace Declaration

/-- The place of a declaration: its name in its scope, or its index if it has no name. -/
def location (scope : String) (index : Nat) (name : Option String) : String :=
  match name with
  | some name => scope ++ "/" ++ name
  | none => scope ++ "/properties[" ++ toString index ++ "]"

/-- The path of a declaration, checked for a type that is read from it. -/
def checkPath (jsonPath : Option String) (type : String) : Except Fault String := do
  let path ← jsonPath.elim (.error (.missingPropertyField "json_path")) .ok
  if path.toList.head? = some '/' then
    .error .leadingSlash
  if (JsonPath.segments path).any (·.isEmpty) then
    .error (.emptySegment path)
  if (TypeName.conversion? type).isNone then
    .error (.notConvertible type)
  return path

structure Outline where
  name : String
  typeName : String
  access : Access
  binding : Option JsonBinding

/-- Checks all of a declaration but the class it may declare. -/
def outline (decodes : Bool) (takenNames : List String) (d : Declaration) :
    Except Fault Outline := do
  let name ← d.name.elim (.error (.missingPropertyField "name")) .ok
  if name ∈ takenNames then
    .error (.duplicateName name)
  let type ← d.typeName.elim (.error (.missingPropertyField "type")) .ok
  let spelling ← d.access.elim (.error (.missingPropertyField "access")) .ok
  let access ← (Access.ofText? spelling).elim (.error (.unknownAccess spelling)) .ok
  if decodes then
    let path ← checkPath d.jsonPath type
    return ⟨name, type, access, some ⟨path, d.jsonOptional⟩⟩
  return ⟨name, type, access, none⟩

mutual

/-- Checks a declaration and the scope of the class it declares. The names it takes in its own
scope are added to those already taken. -/
def check (decodes : Bool) (scope : String) (index : Nat) (taken : Taken) :
    Declaration → Except Rejection (Property × Taken)
  | ⟨name, typeName, access, isList, className, properties, jsonPath, jsonOptional⟩ =>
    let here := location scope index name
    match outline decodes taken.names
        ⟨name, typeName, access, isList, none, none, jsonPath, jsonOptional⟩ with
    | .error fault => .error ⟨here, fault⟩
    | .ok o =>
      let names := o.name :: taken.names
      if o.typeName = classType then
        match className, properties with
        | none, _ => .error ⟨here, .missingPropertyField "class_name"⟩
        | some _, none => .error ⟨here, .missingPropertyField "properties"⟩
        | some c, some ds =>
          if c ∈ taken.classes then .error ⟨here, .duplicateClass c⟩
          else
            match checkScope decodes (nestedScope scope c) 0 {} ds with
            | .error r => .error r
            | .ok ps =>
              .ok (⟨o.name, o.typeName, o.access, isList, some ⟨c, ps⟩, o.binding⟩,
                ⟨names, c :: taken.classes⟩)
      else
        .ok (⟨o.name, o.typeName, o.access, isList, none, o.binding⟩,
          ⟨names, taken.classes⟩)

/-- Checks the declarations of a scope from an index on. -/
def checkScope (decodes : Bool) (scope : String) (index : Nat) (taken : Taken) :
    List Declaration → Except Rejection (List Property)
  | [] => .ok []
  | d :: ds =>
    match d.check decodes scope index taken with
    | .error r => .error r
    | .ok (p, taken) =>
      match checkScope decodes scope (index + 1) taken ds with
      | .error r => .error r
      | .ok ps => .ok (p :: ps)

end

end Declaration

namespace Document

/-- Checks what the document says about its target. -/
def checkUse (profile : Profile) (d : Document) : Except Fault Unit := do
  if profile.decodes then
    let source ← d.source.elim (.error (.missingField "source")) .ok
    if source ≠ "json" then
      .error (.unsupportedSource source)
  if profile.wrappers && d.noQt then
    .error .wrappersForbidden

/-- The schema a document describes, or the first fault that keeps it from being used for the
target. -/
def check (target : Target) (d : Document) : Except Rejection Schema := do
  let name ← d.name.elim (.error ⟨namelessLocation, .missingField "name"⟩) .ok
  let moduleName ← d.moduleName.elim (.error ⟨name, .missingField "module"⟩) .ok
  let declarations ← d.properties.elim (.error ⟨name, .missingField "properties"⟩) .ok
  (d.checkUse target.profile).mapError fun fault => ⟨name, fault⟩
  let properties ← Declaration.checkScope target.profile.decodes name 0 {} declarations
  return ⟨name, moduleName, properties⟩

end Document

end BeanForge
