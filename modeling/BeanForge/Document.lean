/-!
# Schema documents

A schema as its author wrote it. Every field may be absent, so that what is missing can be
reported with its place by `Document.check` and is not refused while the text is read.
-/
namespace BeanForge

structure Declaration where
  name : Option String := none
  typeName : Option String := none
  access : Option String := none
  isList : Bool := false
  className : Option String := none
  properties : Option (List Declaration) := none
  jsonPath : Option String := none
  jsonOptional : Bool := false
  deriving Inhabited

/-- A schema document as written: the root class and its declarations. -/
structure Document where
  name : Option String := none
  moduleName : Option String := none
  source : Option String := none
  noQt : Bool := false
  properties : Option (List Declaration) := none
  deriving Inhabited

end BeanForge
