import BeanForge.Decoder
import BeanForge.Text.Literal.Reader
import Mathlib.Data.List.Basic
/-!
# What keys denote

A key stands in the source as a literal in UTF-8 that is wrapped by `QLatin1String`. What such an
expression denotes is read from its text by the rules of the two: the bytes of the literal up to the
first zero byte, each of them taken for a character.
-/
namespace BeanForge.Decoder

open Text

def Statement.key? : Statement → Option String
  | bind _ _ key | require _ key | scalar _ _ _ key _ | appendScalars _ _ key _
  | parse _ _ key _ | appendParsed _ _ key _ => some key
  | declareDefault .. | declareList .. | construct .. => none

def keys (body : List Statement) : List String :=
  body.filterMap Statement.key?

/-- What a compiler makes of the expression for a key. -/
def denotedKey? (expression : String) : Option String := do
  let rest ← expression.toList.dropPrefix? "QLatin1String(".toList
  let (units, rest) ← readLiteral rest
  if rest = [')'] then some (String.ofList (latin1Text (bytesOf units))) else none

/-- The key that is looked up for a declared key. -/
def denoted (key : String) : String :=
  (denotedKey? (keyText key)).getD key

end BeanForge.Decoder
