import BeanForge.Text.Split
/-!
# Paths into a JSON document

A path names the objects to walk through and, last, the key of a value, with slashes between
them. `rooted` puts the document itself in front as a segment of its own.
-/
namespace BeanForge.JsonPath

/-- The segment that stands for the document. -/
def rootSegment : String := "root"

/-- All segments of a path. -/
def segments (path : String) : List String :=
  Text.split '/' path

/-- The objects to walk through, and the key of the value. -/
def parts (path : String) : List String × String :=
  ((segments path).dropLast, (segments path).getLastD "")

/-- The parts of a path that starts at the document. -/
def rooted (path : String) : List String × String :=
  parts (rootSegment ++ "/" ++ path)

end BeanForge.JsonPath

namespace BeanForge

/-- The shape of a value in a JSON document. -/
inductive JsonShape where
  | simple
  | array
  | object
  | objectArray
  deriving DecidableEq, Repr, Inhabited

/-- The name of a shape in the emitted model. -/
def JsonShape.text : JsonShape → String
  | .simple => "simple"
  | .array => "array"
  | .object => "object"
  | .objectArray => "objectarray"

def JsonShape.ofText? : String → Option JsonShape
  | "simple" => some .simple
  | "array" => some .array
  | "object" => some .object
  | "objectarray" => some .objectArray
  | _ => none

@[simp] theorem JsonShape.ofText?_text (s : JsonShape) : JsonShape.ofText? s.text = some s := by
  cases s <;> rfl

/-- Classes are read from objects and lists from arrays. -/
def JsonShape.ofProperty (isClass isList : Bool) : JsonShape :=
  match isClass, isList with
  | true, true => .objectArray
  | false, true => .array
  | true, false => .object
  | false, false => .simple

end BeanForge
