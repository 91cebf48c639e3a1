import BeanForge.PathTree
import BeanForge.Schema
import BeanForge.Target
/-!
# Code models

A code model has the shape of the schema it is made from, and at each place every name and type
that the generated code shows there, so that rendering only has to arrange them.
-/
namespace BeanForge

/-- How a data member is stored. -/
inductive TypeKind where
  | simple
  | list
  | object
  deriving DecidableEq, Repr, Inhabited

/-- The name of a kind in the emitted model. -/
def TypeKind.text : TypeKind → String
  | .simple => "simple"
  | .list => "list"
  | .object => "object"

def TypeKind.ofText? : String → Option TypeKind
  | "simple" => some .simple
  | "list" => some .list
  | "object" => some .object
  | _ => none

@[simp] theorem TypeKind.ofText?_text (k : TypeKind) : TypeKind.ofText? k.text = some k := by
  cases k <;> rfl

/-- What a wrapper needs to know about a property. -/
structure QtView where
  /-- A pointer to the wrapper of the property's class, or else the declared type. -/
  type : String
  /-- The wrapper of the property's class, also if the property is a list. -/
  wrapper : Option String
  isObject : Bool
  nestedName : String
  deriving DecidableEq, Repr, Inhabited

/-- What a decoder needs to know about a property. -/
structure JsonSource where
  path : String
  optional : Bool
  shape : JsonShape
  /-- The objects to walk through, from the document on. -/
  parents : List String
  /-- The key of the value in the last of these objects. -/
  key : String
  conversion : String
  deriving DecidableEq, Repr, Inhabited

/-- The code of one property. -/
structure Member where
  name : String
  access : Access
  /-- The declared type, or the name of the class the property declares. -/
  type : String
  /-- The type with all classes around it in front. -/
  nestedType : String
  /-- The stored type as written inside the class. -/
  memberType : String
  /-- The stored type as written outside the class. -/
  nestedMemberType : String
  kind : TypeKind
  getter : String
  setter : Option String
  initialValue : String
  /-- What stands before the name of a parameter that carries the property. -/
  parameterType : String
  /-- The expression that stores such a parameter. -/
  stored : String
  qt : Option QtView
  json : Option JsonSource
  deriving DecidableEq, Repr, Inhabited

/-- The code of one class and of the classes declared in it. -/
structure ClassModel where
  /-- The declared name, or all enclosing names run together. -/
  name : String
  moduleName : String
  /-- The name as written outside the class. -/
  nestedName : String
  members : List Member
  classes : List ClassModel
  /-- Whether all members are fixed at construction. -/
  isConst : Bool
  rootName : Option String
  plan : Option (List Lookup)
  deriving Inhabited

/-- The code of a schema for one target. -/
structure Model where
  target : Target
  includes : List String
  hasList : Bool
  root : ClassModel
  deriving Inhabited

namespace ClassModel

mutual

def count : ClassModel → Nat
  | ⟨_, _, _, _, classes, _, _, _⟩ => 1 + countAll classes

def countAll : List ClassModel → Nat
  | [] => 0
  | c :: cs => c.count + countAll cs

end

mutual

/-- The class after all classes declared in it, which come in order, each after its own. -/
def postorder : ClassModel → List ClassModel
  | ⟨name, moduleName, nestedName, members, classes, isConst, rootName, plan⟩ =>
    postorderAll classes ++
      [⟨name, moduleName, nestedName, members, classes, isConst, rootName, plan⟩]

/-- The classes of several trees, each tree in postorder. -/
def postorderAll : List ClassModel → List ClassModel
  | [] => []
  | c :: cs => c.postorder ++ postorderAll cs

end

/-- The classes declared in a class at any depth, children before their parents. -/
def nested (c : ClassModel) : List ClassModel :=
  postorderAll c.classes

theorem postorder_eq (c : ClassModel) : c.postorder = c.nested ++ [c] := by
  cases c; simp [postorder, nested]

mutual

theorem count_eq_length_postorder : ∀ c : ClassModel, c.count = c.postorder.length
  | ⟨_, _, _, _, classes, _, _, _⟩ => by
    rw [count, postorder, countAll_eq_length_postorderAll classes, List.length_append,
      List.length_singleton, Nat.add_comm]

theorem countAll_eq_length_postorderAll :
    ∀ classes : List ClassModel, countAll classes = (postorderAll classes).length
  | [] => rfl
  | c :: classes => by
    rw [countAll, postorderAll, count_eq_length_postorder c,
      countAll_eq_length_postorderAll classes, List.length_append]

end

end ClassModel

def Model.classCount (m : Model) : Nat :=
  m.root.count

end BeanForge
