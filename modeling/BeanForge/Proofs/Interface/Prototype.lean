import BeanForge.SourceText
/-!
# Prototypes of member functions

What a declaration in a header and a definition in a source have to share: name, parameters and
constness. The two write it differently: a header has the default values of parameters, and a
source the class in front of the name.
-/
namespace BeanForge.SourceText

/-- A parameter, with the value that it has in the declaration if it is left out. -/
structure Formal where
  text : String
  default : Option String := none
  deriving DecidableEq, Repr

/-- A member function without its body. Constructors have no result. -/
structure Prototype where
  result : Option String
  name : String
  parameters : List Formal
  isConst : Bool
  deriving DecidableEq, Repr

def Formal.declared (f : Formal) : String :=
  f.text ++ f.default.elim "" (" = " ++ ·)

namespace Prototype

/-- A prototype on one line, with the texts of its parameters. -/
def text (owner : String) (p : Prototype) (parameters : List String) : String :=
  p.result.elim "" (· ++ " ") ++ owner ++ p.name ++ "(" ++ Text.join ", " parameters ++ ")" ++
    (if p.isConst then " const" else "")

/-- A prototype as a header has it. Constructors must be called explicitly. -/
def declared (p : Prototype) : String :=
  (if p.result.isNone then "explicit " else "") ++ p.text "" (p.parameters.map Formal.declared)

/-- A prototype as the source has it for a class. -/
def defined (owner : String) (p : Prototype) : String :=
  p.text (owner ++ "::") (p.parameters.map Formal.text)

/-- Prototypes of the same function, whose result may be written in two ways. -/
structure Same (p q : Prototype) : Prop where
  name : p.name = q.name
  parameters : p.parameters = q.parameters
  isConst : p.isConst = q.isConst

end Prototype

end BeanForge.SourceText
