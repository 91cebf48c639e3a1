/-!
# Checked schemas

What `Document.check` makes of a document: all mandatory fields are there, access modes are
known, and a class is attached to exactly the properties that declare one.
-/
namespace BeanForge

/-- How a property may be used after construction. -/
inductive Access where
  /-- Fixed at construction. -/
  | const
  /-- Readable, and announced when it changes. -/
  | read
  /-- Readable and writable. -/
  | readWrite
  deriving DecidableEq, Repr, Inhabited

/-- The spelling of an access mode in a schema. -/
def Access.text : Access → String
  | .const => "c"
  | .read => "r"
  | .readWrite => "rw"

/-- Reads the spelling of an access mode. -/
def Access.ofText? : String → Option Access
  | "c" => some .const
  | "r" => some .read
  | "rw" => some .readWrite
  | _ => none

@[simp] theorem Access.ofText?_text (a : Access) : Access.ofText? a.text = some a := by
  cases a <;> rfl

structure JsonBinding where
  path : String
  optional : Bool
  deriving DecidableEq, Repr, Inhabited

/-- The type name that declares a nested class. -/
def classType : String := "class"

mutual

structure Property where
  name : String
  typeName : String
  access : Access
  isList : Bool := false
  nested : Option NestedClass := none
  binding : Option JsonBinding := none

structure NestedClass where
  name : String
  properties : List Property

end

structure Schema where
  name : String
  moduleName : String
  properties : List Property

end BeanForge
