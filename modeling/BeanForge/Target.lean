/-!
# Targets

What can be generated from a schema, and the choices in which the targets differ. Enrichment
consults the `Profile` of a target and never the target itself.
-/
namespace BeanForge

/-- What is generated from a schema. -/
inductive Target where
  /-- Plain value classes. -/
  | bean
  /-- Object wrappers that expose a value class through properties and signals. -/
  | qtbean
  /-- A factory that decodes a value class from JSON. -/
  | factory
  deriving DecidableEq, Repr, Inhabited

/-- The name of a target on the command line and in the emitted model. -/
def Target.text : Target → String
  | .bean => "bean"
  | .qtbean => "qtbean"
  | .factory => "factory"

def Target.ofText? : String → Option Target
  | "bean" => some .bean
  | "qtbean" => some .qtbean
  | "factory" => some .factory
  | _ => none

@[simp] theorem Target.ofText?_text (t : Target) : Target.ofText? t.text = some t := by
  cases t <;> rfl

/-- How the name of a nested class is formed. -/
inductive ClassNaming where
  /-- The declared name; the class stays inside its parent. -/
  | nested
  /-- All enclosing names run together, for classes that cannot be nested. -/
  | flattened
  deriving DecidableEq, Repr

/-- The choices in which the targets differ. -/
structure Profile where
  /-- The template that holds the elements of a list property. -/
  listContainer : String
  /-- The header needed as soon as some property is a list. -/
  listHeader : String
  /-- Whether the headers of Qt types are included. -/
  typeHeaders : Bool
  classNaming : ClassNaming
  /-- Whether properties carry the names of their wrappers. -/
  wrappers : Bool
  /-- Whether properties need a JSON binding and classes a decode plan. -/
  decodes : Bool
  deriving DecidableEq, Repr

def Target.profile : Target → Profile
  | .bean =>
    { listContainer := "std::vector", listHeader := "vector", typeHeaders := true,
      classNaming := .nested, wrappers := false, decodes := false }
  | .qtbean =>
    { listContainer := "std::vector", listHeader := "vector", typeHeaders := true,
      classNaming := .flattened, wrappers := true, decodes := false }
  | .factory =>
    { listContainer := "std::vector", listHeader := "QJsonArray", typeHeaders := false,
      classNaming := .nested, wrappers := false, decodes := true }

end BeanForge
