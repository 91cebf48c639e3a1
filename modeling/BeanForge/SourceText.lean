import BeanForge.Text.Identifier
import BeanForge.Text.Indent
/-!
# Pieces of C++ text

The few forms that all generated files share: blocks in braces, parameters, include lines,
namespaces and the guard of a header.
-/
namespace BeanForge.SourceText

def opening : String := "\x7b"

def closing : String := "\x7d"

def braced (text : String) : String :=
  opening ++ text ++ closing

/-- A list in braces over several lines, its entries further to the right than `margin`. -/
def bracedList (margin : String) (entries : List String) : String :=
  opening ++ "\n" ++ margin ++ "    " ++ Text.join (",\n" ++ margin ++ "    ") entries ++
    "\n" ++ margin ++ closing

/-- A parameter. The type ends in a way that the name can follow at once. -/
structure Parameter where
  type : String
  name : String
  deriving DecidableEq, Repr

def Parameter.text (p : Parameter) : String :=
  p.type ++ p.name

def includeSystem (header : String) : String :=
  Text.line ("#include <" ++ header ++ ">")

/-- Includes a header of the same directory. -/
def includeLocal (header : String) : String :=
  Text.line ("#include \"" ++ header ++ "\"")

def openNamespace (name : String) : String :=
  Text.line ("namespace " ++ name ++ " " ++ opening)

def closeNamespace (name : String) : String :=
  Text.line (closing ++ " // namespace " ++ name)

/-- The macro that guards a header from being read twice. -/
def guardName (stem ending : String) : String :=
  Text.capitals stem ++ "_" ++ ending

/-- A header between the lines of its guard. -/
def guarded (guard body : String) : String :=
  Text.line ("#ifndef " ++ guard) ++ Text.line ("#define " ++ guard) ++ Text.emptyLine ++
    body ++ Text.emptyLine ++ Text.line ("#endif // " ++ guard)

end BeanForge.SourceText

namespace BeanForge

/-- A generated file, named relative to the output directory. -/
structure OutputFile where
  name : String
  contents : String
  deriving DecidableEq, Repr, Inhabited

/-- A file that consists of some lines of code. -/
def OutputFile.ofLines (name : String) (code : List String) : OutputFile :=
  ⟨name, String.join (code.map (· ++ "\n"))⟩

end BeanForge
