import BeanForge.Text.UpperCase
/-!
# Names of member functions

Getters and setters are named after their property.
-/
namespace BeanForge.MemberName

/-- The getter is named like its property, with `is` in front for truth values. -/
def getter (type name : String) : String :=
  if type = "bool" then "is" ++ Text.upperFirst name else name

/-- The setter has `set` in front of the property's name. -/
def setter (name : String) : String :=
  "set" ++ Text.upperFirst name

end BeanForge.MemberName
