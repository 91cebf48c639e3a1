import BeanForge.Schema
/-!
# Type names

What the generator knows about a type from its name alone. Three names are simple types, which
are passed by value and have an initial value; five can be read from a JSON value; those that
start with a `Q` have a header of their own. Every other name is taken as it is.
-/
namespace BeanForge.TypeName

/-- Types passed by value. -/
def isSimple (type : String) : Bool :=
  type == "int" || type == "double" || type == "bool"

/-- The initial value of a data member; empty where the member's own default is used. -/
def initialValue (type : String) : String :=
  if type = "int" then "0"
  else if type = "double" then "0."
  else if type = "bool" then "false"
  else ""

/-- What stands before a parameter's name: simple types are taken by value, all others by
rvalue reference. -/
def parameter (type : String) : String :=
  if isSimple type then type ++ " " else type ++ " &&"

/-- The expression that stores a parameter: copied if simple, moved otherwise. -/
def stored (type name : String) : String :=
  if isSimple type then name else "std::move(" ++ name ++ ")"

/-- Types with a header of their own. -/
def isQt (type : String) : Bool :=
  type.toList.head? == some 'Q'

/-- The method that converts a JSON value, for the types that JSON can carry. -/
def conversion? (type : String) : Option String :=
  if type = "QString" then some "toString"
  else if type = "int" then some "toInt"
  else if type = "double" then some "toDouble"
  else if type = "bool" then some "toBool"
  else if type = classType then some "toObject"
  else none

/-- The type of a list of elements. -/
def listOf (container element : String) : String :=
  container ++ "<" ++ element ++ ">"

theorem initialValue_eq_empty_iff (type : String) :
    initialValue type = "" ↔ isSimple type = false := by
  unfold initialValue isSimple
  by_cases h : type = "int"
  · simp [h]
  · by_cases h' : type = "double"
    · simp [h']
    · by_cases h'' : type = "bool" <;> simp [h, h', h'']

end BeanForge.TypeName
