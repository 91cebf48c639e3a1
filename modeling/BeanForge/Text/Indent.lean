import BeanForge.Text.Blank
import BeanForge.Text.Split
/-!
# Lines and indentation

A line is a text followed by a newline. A block is moved one level to the right by trimming the
blanks around it and putting four spaces in front of each of its lines, empty ones included.
-/
namespace BeanForge.Text

def line (text : String) : String :=
  text ++ "\n"

def emptyLine : String := "\n"

def lines (texts : List String) : String :=
  String.join (texts.map line)

/-- The spaces in front of a line that belongs `depth` levels further to the right. -/
def margin (depth : Nat) : String :=
  String.ofList (List.replicate (4 * depth) ' ')

/-- A block one level further to the right, without a final newline. -/
def indent (text : String) : String :=
  "    " ++ join "\n    " (split '\n' (String.ofList (trim text.toList)))

@[simp] theorem lines_nil : lines [] = "" := rfl

end BeanForge.Text
