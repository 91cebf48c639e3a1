import BeanForge.Document.Check
/-!
# Violations in document order

Everything that is wrong with a document, in the order in which its author meets it: the rules
for the whole document first, then the declarations from the first to the last, each followed by
the declarations of its class. `Document.check` reports the head of this list.
-/
namespace BeanForge

/-- A fault, if a rule is broken. -/
def Fault.unless (holds : Bool) (fault : Fault) : List Fault :=
  if holds then [] else [fault]

namespace Declaration

def pathFaults : Option String → List Fault
  | none => [.missingPropertyField "json_path"]
  | some path =>
    Fault.unless (path.toList.head? != some '/') .leadingSlash ++
      Fault.unless (!(JsonPath.segments path).contains "") (.emptySegment path)

/-- What is wrong with a type that is read from JSON. -/
def conversionFaults (typeName : Option String) : List Fault :=
  typeName.elim [] fun type =>
    Fault.unless (TypeName.conversion? type).isSome (.notConvertible type)

def accessFaults : Option String → List Fault
  | none => [.missingPropertyField "access"]
  | some access => Fault.unless (Access.ofText? access).isSome (.unknownAccess access)

/-- What is wrong with a name, given the earlier declarations of the scope. -/
def nameFaults (earlier : List Declaration) : Option String → List Fault
  | none => [.missingPropertyField "name"]
  | some name => Fault.unless (!earlier.any (·.name == some name)) (.duplicateName name)

/-- What is wrong with the name of a declared class, given the earlier declarations. -/
def classNameFaults (earlier : List Declaration) : Option String → List Fault
  | none => []
  | some c =>
    Fault.unless
      (!earlier.any fun d => d.typeName == some classType && d.className == some c)
      (.duplicateClass c)

/-- What is wrong with a declaration, apart from its class. -/
def ownFaults (decodes : Bool) (earlier : List Declaration) (d : Declaration) : List Fault :=
  nameFaults earlier d.name ++
  Fault.unless d.typeName.isSome (.missingPropertyField "type") ++
  accessFaults d.access ++
  (if decodes then pathFaults d.jsonPath ++ conversionFaults d.typeName else [])

/-- What is wrong with the declaration of a class, apart from its properties. -/
def classFaults (earlier : List Declaration) (d : Declaration) : List Fault :=
  Fault.unless d.className.isSome (.missingPropertyField "class_name") ++
  Fault.unless d.properties.isSome (.missingPropertyField "properties") ++
  classNameFaults earlier d.className

/-- All that is wrong with a declaration itself. -/
def faults (decodes : Bool) (earlier : List Declaration) (d : Declaration) : List Fault :=
  d.ownFaults decodes earlier ++
    if d.typeName = some classType then d.classFaults earlier else []

mutual

/-- What is wrong in the class of a declaration. -/
def nestedViolations (decodes : Bool) (scope : String) : Declaration → List Rejection
  | ⟨_, typeName, _, _, className, some ds, _, _⟩ =>
    if typeName = some classType then
      scopeViolations decodes (nestedScope scope (className.getD "")) [] ds
    else []
  | ⟨_, _, _, _, _, none, _, _⟩ => []

/-- What is wrong with the declarations that follow some others in a scope. -/
def scopeViolations (decodes : Bool) (scope : String) (earlier : List Declaration) :
    List Declaration → List Rejection
  | [] => []
  | d :: ds =>
    (d.faults decodes earlier).map (Rejection.mk (location scope earlier.length d.name)) ++
      nestedViolations decodes scope d ++ scopeViolations decodes scope (earlier ++ [d]) ds

end

end Declaration

namespace Document

/-- What is wrong with the use of a document for a target. -/
def useFaults (profile : Profile) (d : Document) : List Fault :=
  (if profile.decodes then
    d.source.elim [.missingField "source"] fun source =>
      Fault.unless (source == "json") (.unsupportedSource source)
  else []) ++
  Fault.unless (!(profile.wrappers && d.noQt)) .wrappersForbidden

def rootFaults (profile : Profile) (d : Document) : List Fault :=
  Fault.unless d.name.isSome (.missingField "name") ++
  Fault.unless d.moduleName.isSome (.missingField "module") ++
  Fault.unless d.properties.isSome (.missingField "properties") ++
  d.useFaults profile

/-- All that is wrong with a document. -/
def violations (target : Target) (d : Document) : List Rejection :=
  (d.rootFaults target.profile).map (Rejection.mk (d.name.getD namelessLocation)) ++
    Declaration.scopeViolations target.profile.decodes (d.name.getD namelessLocation) []
      (d.properties.getD [])

end Document

end BeanForge
