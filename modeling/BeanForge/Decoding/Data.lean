import BeanForge.TypeName
/-!
# Decoded data

The JSON values that a decoder reads and the values that it returns. Neither fixes what plain
values are: `α` stands for JSON values without parts, `β` for the results of converting a value.
-/
namespace BeanForge.Decoding

/-- A JSON value. -/
inductive Data (α : Type) where
  /-- A value without parts. -/
  | plain (a : α)
  | array (items : List (Data α))
  | object (fields : List (String × Data α))

abbrev Fields (α : Type) := List (String × Data α)

/-- The result of decoding. -/
inductive Value (β : Type) where
  | scalar (b : β)
  | list (items : List (Value β))
  /-- A value of a class, with the values of its properties in order. -/
  | record (type : String) (fields : List (Value β))
  /-- The default value of a type. -/
  | default (type : String)

/-- How the conversion methods read a value, which may be missing. -/
structure Conversion (α β : Type) where
  convert : String → Option (Data α) → β
  /-- The default value of a type. -/
  default : String → β
  /-- A missing value is read as the default value of the type that the method is for. -/
  convert_none : ∀ type method, TypeName.conversion? type = some method →
    convert method none = default type

variable {α : Type}

/-- The fields of the object that a value is; any other value counts as an empty object. -/
def asObject : Option (Data α) → Fields α
  | some (.object fields) => fields
  | _ => []

/-- The items of the array that a value is; any other value counts as an empty array. -/
def asArray : Option (Data α) → List (Data α)
  | some (.array items) => items
  | _ => []

/-- The object that is reached by taking one key after the other. -/
def walk (o : Fields α) (keys : List String) : Fields α :=
  keys.foldl (fun o key => asObject (o.lookup key)) o

@[simp] theorem walk_nil (o : Fields α) : walk o [] = o := rfl

theorem walk_append (o : Fields α) (keys more : List String) :
    walk o (keys ++ more) = walk (walk o keys) more := by
  simp [walk]

end BeanForge.Decoding
