import BeanForge.Decoding.Data
import BeanForge.Model.OfSchema
/-!
# Decoding by the schema

What the schema says about the value that an object stands for. Each property is looked up on
its own: from the object of its class along its path. A missing value is allowed only if the
property is optional. The keys of a path may be read as other keys than they are declared as; with
`id` the path is taken as declared.
-/
namespace BeanForge.Decoding

variable {α β : Type}

/-- What an object holds at the end of a path, if anything. -/
def valueAt (read : String → String) (o : Fields α) (path : String) : Option (Data α) :=
  (walk o ((JsonPath.parts path).1.map read)).lookup (read (JsonPath.parts path).2)

/-- The value that a property is bound to: `none` if it must be there and is not. -/
def boundValue (read : String → String) (o : Fields α) (b : JsonBinding) :
    Option (Option (Data α)) :=
  match valueAt read o b.path with
  | some v => some (some v)
  | none => if b.optional then some none else none

/-- The value of a property without a class, given what was found for it. A list holds one value for
each element, and a value that is missing is the default value of the type. -/
def decodePlain (C : Conversion α β) (typeName : String) (isList : Bool)
    (found : Option (Data α)) : Value β :=
  let method := (TypeName.conversion? typeName).getD ""
  if isList then .list ((asArray found).map fun v => .scalar (C.convert method (some v)))
  else .scalar (found.elim (C.default typeName) fun v => C.convert method (some v))

mutual

/-- The value of a property, given the names of the classes around it and the object of its
class. A property that is bound to nothing has the default value of its type. -/
def decodeProperty (read : String → String) (C : Conversion α β) (scope : List String) :
    Property → Fields α → Option (Value β)
  | ⟨_, typeName, _, _, _, none⟩, _ => some (.default typeName)
  | ⟨_, typeName, _, isList, none, some b⟩, o =>
    (boundValue read o b).map (decodePlain C typeName isList)
  | ⟨_, _, _, false, some ⟨name, ps⟩, some b⟩, o =>
    (boundValue read o b).bind fun found =>
      match found with
      | none => some (.default (qualify scope name))
      | some v =>
        (decodeProperties read C (scope ++ [name]) ps (asObject (some v))).map
          (.record (qualify scope name))
  | ⟨_, _, _, true, some ⟨name, ps⟩, some b⟩, o =>
    (boundValue read o b).bind fun found =>
      ((asArray found).mapM fun v =>
        (decodeProperties read C (scope ++ [name]) ps (asObject (some v))).map
          (.record (qualify scope name))).map .list

/-- The values of several properties of one class. -/
def decodeProperties (read : String → String) (C : Conversion α β) (scope : List String) :
    List Property → Fields α → Option (List (Value β))
  | [], _ => some []
  | p :: ps, o =>
    (decodeProperty read C scope p o).bind fun v =>
      (decodeProperties read C scope ps o).map (v :: ·)

end

/-- The value of the root class that an object stands for. -/
def decode (read : String → String) (C : Conversion α β) (s : Schema) (o : Fields α) :
    Option (Value β) :=
  (decodeProperties read C [s.name] s.properties o).map (.record s.name)

end BeanForge.Decoding
