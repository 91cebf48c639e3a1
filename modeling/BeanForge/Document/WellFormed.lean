import BeanForge.Document.Check
/-!
# Well-formed documents

What a document has to satisfy to be used for a target, said without checking it in any order,
and the schema that it then stands for. The names of a scope have to differ, and so have the
names of the classes declared in it; scopes put no demands on each other.
-/
namespace BeanForge

namespace Declaration

def declaresClass (d : Declaration) : Bool :=
  d.typeName == some classType

/-- A path that leads to a value: it has no empty segment, so it is not empty either and does not
start with a slash. -/
def GoodPath (path : String) : Prop :=
  "" ∉ JsonPath.segments path

/-- Whether a property can be read from JSON: it has a path to a value that converts to its
type. -/
def Decodable (d : Declaration) : Prop :=
  (∃ path, d.jsonPath = some path ∧ GoodPath path) ∧
    ∃ type, d.typeName = some type ∧ (TypeName.conversion? type).isSome

/-- What a declaration has to have besides a well-formed class. -/
def Complete (decodes : Bool) (d : Declaration) : Prop :=
  d.name.isSome ∧ d.typeName.isSome ∧ (∃ a : Access, d.access = some a.text) ∧
    (decodes → d.Decodable)

/-- No two declarations of a scope have the same name, and no two declare classes of the same
name. -/
def Distinct (ds : List Declaration) : Prop :=
  (ds.map (·.name)).Nodup ∧ ((ds.filter declaresClass).map (·.className)).Nodup

mutual

/-- A declaration that has what it needs and whose class, if it declares one, is well formed. -/
def WellFormed (decodes : Bool) : Declaration → Prop
  | ⟨name, typeName, access, isList, className, some ds, jsonPath, jsonOptional⟩ =>
    Complete decodes
        ⟨name, typeName, access, isList, className, some ds, jsonPath, jsonOptional⟩ ∧
      (typeName = some classType → className.isSome ∧ Distinct ds ∧ AllWellFormed decodes ds)
  | ⟨name, typeName, access, isList, className, none, jsonPath, jsonOptional⟩ =>
    Complete decodes
        ⟨name, typeName, access, isList, className, none, jsonPath, jsonOptional⟩ ∧
      typeName ≠ some classType

def AllWellFormed (decodes : Bool) : List Declaration → Prop
  | [] => True
  | d :: ds => d.WellFormed decodes ∧ AllWellFormed decodes ds

end

theorem allWellFormed_iff (decodes : Bool) (ds : List Declaration) :
    AllWellFormed decodes ds ↔ ∀ d ∈ ds, d.WellFormed decodes := by
  induction ds with
  | nil => simp [AllWellFormed]
  | cons d ds ih => simp [AllWellFormed, ih]

/-- Declarations that make a scope: they are well formed and do not clash. -/
def WellFormedScope (decodes : Bool) (ds : List Declaration) : Prop :=
  Distinct ds ∧ ∀ d ∈ ds, d.WellFormed decodes

/-- The binding that a declaration asks for. -/
def binding? (decodes : Bool) (path : Option String) (optional : Bool) : Option JsonBinding :=
  if decodes then path.map fun p => ⟨p, optional⟩ else none

mutual

/-- The property that a declaration stands for. Only a declaration of a class has one. -/
def typed (decodes : Bool) : Declaration → Property
  | ⟨name, typeName, access, isList, some c, some ds, jsonPath, jsonOptional⟩ =>
    ⟨name.getD "", typeName.getD "", (access.bind Access.ofText?).getD .const, isList,
      if typeName = some classType then some ⟨c, typedAll decodes ds⟩ else none,
      binding? decodes jsonPath jsonOptional⟩
  | ⟨name, typeName, access, isList, _, _, jsonPath, jsonOptional⟩ =>
    ⟨name.getD "", typeName.getD "", (access.bind Access.ofText?).getD .const, isList, none,
      binding? decodes jsonPath jsonOptional⟩

/-- The properties that several declarations stand for, in the same order. -/
def typedAll (decodes : Bool) : List Declaration → List Property
  | [] => []
  | d :: ds => d.typed decodes :: typedAll decodes ds

end

end Declaration

namespace Document

/-- A document that can be used for a target. -/
def WellFormed (target : Target) (d : Document) : Prop :=
  d.name.isSome ∧ d.moduleName.isSome ∧
    (target.profile.decodes → d.source = some "json") ∧
    (target.profile.wrappers → d.noQt = false) ∧
    ∃ ds, d.properties = some ds ∧ Declaration.WellFormedScope target.profile.decodes ds

/-- The schema that a document stands for. -/
def typed (target : Target) (d : Document) : Schema :=
  ⟨d.name.getD "", d.moduleName.getD "",
    Declaration.typedAll target.profile.decodes (d.properties.getD [])⟩

end Document

end BeanForge
