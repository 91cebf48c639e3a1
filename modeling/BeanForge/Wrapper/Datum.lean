import BeanForge.Model
/-!
# Values of value classes

The values that wrappers own. A value of a class has one field for each property, and a getter or
setter of the class works on the field of its property. What is not a single value of a class
is a plain value, lists included.
-/
namespace BeanForge.Wrapper

/-- A value: plain, or of a class, with its fields in the order of the properties. -/
inductive Datum (α : Type) where
  | plain (a : α)
  | record (fields : List (String × Datum α))

namespace Datum

variable {α : Type}

mutual

/-- Decides whether two values are equal. -/
def decEq [DecidableEq α] : (a b : Datum α) → Decidable (a = b)
  | plain a, plain b =>
    if h : a = b then isTrue (by rw [h]) else isFalse fun e => h (Datum.plain.inj e)
  | record fs, record gs =>
    match decEqFields fs gs with
    | isTrue h => isTrue (by rw [h])
    | isFalse h => isFalse fun e => h (Datum.record.inj e)
  | plain _, record _ => isFalse nofun
  | record _, plain _ => isFalse nofun

/-- Decides whether two lists of fields are equal. -/
def decEqFields [DecidableEq α] : (fs gs : List (String × Datum α)) → Decidable (fs = gs)
  | [], [] => isTrue rfl
  | [], _ :: _ => isFalse nofun
  | _ :: _, [] => isFalse nofun
  | (p, a) :: fs, (q, b) :: gs =>
    if hp : p = q then
      match decEq a b, decEqFields fs gs with
      | isTrue ha, isTrue hf => isTrue (by rw [hp, ha, hf])
      | isFalse ha, _ => isFalse fun e => ha (Prod.mk.inj (List.cons.inj e).1).2
      | _, isFalse hf => isFalse fun e => hf (List.cons.inj e).2
    else isFalse fun e => hp (Prod.mk.inj (List.cons.inj e).1).1

end

instance [DecidableEq α] : DecidableEq (Datum α) := decEq

/-- The fields of a value; a plain value has none. -/
def fields : Datum α → List (String × Datum α)
  | record fs => fs
  | plain _ => []

def field? (d : Datum α) (property : String) : Option (Datum α) :=
  d.fields.lookup property

/-- The value that a path of properties leads to. -/
def at? : Datum α → List String → Option (Datum α)
  | d, [] => some d
  | d, p :: path => (d.field? p).bind fun inner => inner.at? path

/-- The value with another field of a property that it has. -/
def setField (d : Datum α) (property : String) (v : Datum α) : Datum α :=
  match d with
  | plain a => plain a
  | record fs => record (fs.map fun (p, old) => if p = property then (p, v) else (p, old))

/-- The value with another field of a property of the value that a path of properties leads to. -/
def setAt (property : String) (v : Datum α) : List String → Datum α → Datum α
  | [], d => d.setField property v
  | p :: path, d =>
    match d.field? p with
    | some inner => d.setField p (setAt property v path inner)
    | none => d

/-- What a getter of a class returns. -/
def get? (c : ClassModel) (getter : String) (d : Datum α) : Option (Datum α) :=
  (c.members.find? (·.getter == getter)).bind fun m => d.field? m.name

/-- The value after a setter of a class was called. -/
def set? (c : ClassModel) (setter : String) (d : Datum α) (v : Datum α) : Option (Datum α) :=
  (c.members.find? (·.setter == some setter)).map fun m => d.setField m.name v

/-- The value that the constructor of a class makes of one value for each property. -/
def construct? (c : ClassModel) (vs : List (Datum α)) : Option (Datum α) :=
  if vs.length = c.members.length then some (record ((c.members.map (·.name)).zip vs)) else none

end Datum

end BeanForge.Wrapper
