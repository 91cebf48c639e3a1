/-!
# Identifiers from free text

Keys, class names and file stems are free text; inside a generated name only ASCII letters and
digits of it are kept, and every other character becomes an underscore.
-/
namespace BeanForge.Text

/-- An ASCII letter or digit. -/
def isNameChar (c : Char) : Bool :=
  c.isAlphanum

/-- A fragment of an identifier: one character for each character of the text. -/
def identifier (text : String) : String :=
  String.ofList (text.toList.map fun c => if isNameChar c then c else '_')

def capitals (text : String) : String :=
  String.ofList ((identifier text).toList.map Char.toUpper)

end BeanForge.Text
