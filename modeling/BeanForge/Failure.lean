import BeanForge.FileTree
import BeanForge.Text.Indent
import BeanForge.Rejection
/-!
# Failures

Everything that can keep files from being generated, with its wording and, where another error
is behind it, the wording of that.
-/
namespace BeanForge

/-- Why no files were generated. -/
inductive Failure where
  /-- The document breaks a rule of schemas. -/
  | rejected (r : Rejection)
  /-- A file could not be read. -/
  | unreadable (path : String) (cause : FileError)
  /-- A file or directory could not be written. -/
  | unwritable (path : String) (cause : FileError)
  /-- The text is not YAML, or does not describe a document. -/
  | notADocument
  /-- The model refers to objects or classes that it does not hold. -/
  | unrenderable
  deriving DecidableEq, Repr

namespace Failure

/-- The wording of the error behind `notADocument`. -/
def documentCause : String := "the text does not describe a schema"

/-- The wording of the error behind `unrenderable`. -/
def renderCause : String := "an error occurred when formatting an argument"

def message : Failure → String
  | rejected r => r.message
  | unreadable path cause => "failed to read " ++ path ++ ": " ++ cause.message
  | unwritable path cause => "failed to write " ++ path ++ ": " ++ cause.message
  | notADocument => "failed to parse YAML: " ++ documentCause
  | unrenderable => "failed to render source: " ++ renderCause

/-- The wording of the error behind a failure. -/
def cause? : Failure → Option String
  | rejected _ => none
  | unreadable _ cause => some cause.message
  | unwritable _ cause => some cause.message
  | notADocument => some documentCause
  | unrenderable => some renderCause

def report (f : Failure) : String :=
  Text.line ("error: " ++ f.message) ++
    f.cause?.elim "" fun c => Text.line ("  caused by: " ++ c)

end Failure

end BeanForge
