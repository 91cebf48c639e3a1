/-!
# Characters and places of a YAML text

The classes of characters that YAML's indicators depend on, and a cursor that knows the place of
what it has not read yet. Before a text is read its line breaks are unified: carriage
returns, alone or before a newline, and next-line characters become newlines, while the two
Unicode separators stay what they are.
-/
namespace BeanForge.Yaml

/-- A character that ends a line. -/
def isBreak (c : Char) : Bool :=
  c == '\n' || c == '\u2028' || c == '\u2029'

/-- A blank within a line. -/
def isBlank (c : Char) : Bool :=
  c == ' ' || c == '\t'

/-- A character of anchors and handles. -/
def isWord (c : Char) : Bool :=
  c.isAlphanum || c == '_' || c == '-'

/-- A character that a text may contain at all. -/
def isAllowed (c : Char) : Bool :=
  let n := c.toNat
  n == 0x9 || n == 0xA || n == 0xD || (0x20 ≤ n && n ≤ 0x7E) || n == 0x85 ||
    (0xA0 ≤ n && n ≤ 0xFFFD) || 0x10000 ≤ n

/-- The text with unified line breaks. -/
def unifyBreaks : List Char → List Char
  | [] => []
  | '\r' :: '\n' :: rest => '\n' :: unifyBreaks rest
  | '\r' :: rest => '\n' :: unifyBreaks rest
  | '\u0085' :: rest => '\n' :: unifyBreaks rest
  | c :: rest => c :: unifyBreaks rest

/-- Whether a blank, a line break or the end of the text comes next. -/
def atGap : List Char → Bool
  | [] => true
  | c :: _ => isBlank c || isBreak c

/-- Whether a line break or the end of the text comes next. -/
def atLineEnd : List Char → Bool
  | [] => true
  | c :: _ => isBreak c

/-- Whether the sign that starts a document comes next. -/
def atDocumentStart : List Char → Bool
  | '-' :: '-' :: '-' :: rest => atGap rest
  | _ => false

/-- Whether the sign that ends a document comes next. -/
def atDocumentEnd : List Char → Bool
  | '.' :: '.' :: '.' :: rest => atGap rest
  | _ => false

/-- Whether one of the two signs stands at the start of a line. -/
def atMarker (column : Nat) (rest : List Char) : Bool :=
  column == 0 && (atDocumentStart rest || atDocumentEnd rest)

/-- A place in a text. A column is as wide as a character, however many octets it has. -/
structure Place where
  line : Nat := 0
  column : Nat := 0
  /-- The octets of the text before the place. -/
  octets : Nat := 0

def Place.behind (p : Place) (c : Char) : Place :=
  if isBreak c then ⟨p.line + 1, 0, p.octets + c.utf8Size⟩
  else ⟨p.line, p.column + 1, p.octets + c.utf8Size⟩

structure Cursor extends Place where
  rest : List Char

namespace Cursor

/-- The cursor behind the next characters. -/
def skip (n : Nat) (c : Cursor) : Cursor :=
  ⟨(c.rest.take n).foldl Place.behind c.toPlace, c.rest.drop n⟩

/-- The cursor behind a line break, if one comes next. -/
def skipBreak (c : Cursor) : Cursor :=
  match c.rest with
  | [] => c
  | b :: rest => if isBreak b then ⟨c.behind b, rest⟩ else c

/-- The next characters that have a property, and the cursor behind them. -/
def span (p : Char → Bool) (c : Cursor) : List Char × Cursor :=
  let run := c.rest.takeWhile p
  (run, c.skip run.length)

/-- The cursor behind the blanks of the line. -/
def skipBlanks (c : Cursor) : Cursor :=
  (c.span isBlank).2

/-- The cursor behind a comment, if one comes next. -/
def skipComment (c : Cursor) : Cursor :=
  match c.rest with
  | '#' :: _ => (c.span fun x => !isBreak x).2
  | _ => c

/-- The start of the next line, if only blanks and a comment are left of this one. -/
def endLine? (c : Cursor) : Option Cursor :=
  let c := c.skipBlanks.skipComment
  if atLineEnd c.rest then some c.skipBreak else none

end Cursor

end BeanForge.Yaml
