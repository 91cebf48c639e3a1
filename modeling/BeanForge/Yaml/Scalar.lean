import BeanForge.Yaml.Cursor
/-!
# Scalars of a YAML text

The four ways to write a text: plain, in single or double quotes, and as a block of lines. Each
reader takes the text from its first sign on and returns the characters, in reverse, and the
cursor behind them. Between two words a single line break is folded to a space, and of several
breaks the first is dropped.
-/
namespace BeanForge.Yaml

/-- How a scalar is written. -/
inductive ScalarStyle where
  | plain
  | singleQuoted
  | doubleQuoted
  | literal
  | folded
  deriving DecidableEq, Repr, Inhabited

/-- The blanks and breaks between two words. -/
structure Gap where
  /-- The blanks before any break, in reverse. -/
  blanks : List Char := []
  /-- Whether the line ended, by a break or an escaped one. -/
  broken : Bool := false
  /-- The first break. -/
  first : Option Char := none
  /-- The further breaks, in reverse. -/
  more : List Char := []
  deriving Inhabited

namespace Gap

/-- Whether nothing lies between the words. -/
def isEmpty (g : Gap) : Bool :=
  g.blanks.isEmpty && !g.broken

/-- The gap with one more blank, which counts only before a break. -/
def addBlank (g : Gap) (c : Char) : Gap :=
  if g.broken then g else { g with blanks := c :: g.blanks }

def addBreak (g : Gap) (c : Char) : Gap :=
  if g.broken then { g with more := c :: g.more }
  else { blanks := [], broken := true, first := some c, more := [] }

/-- The gap of an escaped break. -/
def escaped : Gap :=
  { broken := true }

/-- What the gap contributes to the text, in reverse. -/
def text (g : Gap) : List Char :=
  if !g.broken then g.blanks
  else if g.first = some '\n' then (if g.more.isEmpty then [' '] else g.more)
  else g.more ++ g.first.toList

end Gap

/-- A sign that ends or cannot follow a plain scalar in a flow collection. -/
def isFlowSign (c : Char) : Bool :=
  c == ',' || c == '[' || c == ']' || c == '\x7b' || c == '\x7d'

/-- Whether a colon and a sign of a flow collection come next. -/
def atFlowColon : List Char → Bool
  | ':' :: c :: _ => isFlowSign c || c == '?'
  | _ => false

/-- Whether the next character ends a plain scalar. -/
def endsPlain (flow : Bool) : List Char → Bool
  | [] => true
  | c :: rest => (c == ':' && atGap rest) || (flow && isFlowSign c)

/-- Reads a plain scalar of a block whose content starts at column `indent` or later. The gap is
what lies before the place that is returned. -/
def readPlain (flow : Bool) (indent : Nat) (start : Place) (gap : Gap) (acc : List Char) :
    List Char → Option (List Char × Gap × Cursor)
  | [] => some (acc, gap, ⟨start, []⟩)
  | c :: rest =>
    if isBlank c then
      if gap.broken && start.column < indent && c == '\t' then none
      else readPlain flow indent (start.behind c) (gap.addBlank c) acc rest
    else if isBreak c then
      readPlain flow indent (start.behind c) (gap.addBreak c) acc rest
    else
      let stops := (!gap.isEmpty && ((!flow && start.column < indent) || c == '#')) ||
        atMarker start.column (c :: rest)
      if stops then some (acc, gap, ⟨start, c :: rest⟩)
      else if flow && atFlowColon (c :: rest) then none
      else if endsPlain flow (c :: rest) then some (acc, gap, ⟨start, c :: rest⟩)
      else readPlain flow indent (start.behind c) {} (c :: (gap.text ++ acc)) rest

/-- The number a hexadecimal digit stands for. -/
def hexValue? (c : Char) : Option Nat :=
  if '0' ≤ c && c ≤ '9' then some (c.toNat - 0x30)
  else if 'a' ≤ c && c ≤ 'f' then some (c.toNat - 0x57)
  else if 'A' ≤ c && c ≤ 'F' then some (c.toNat - 0x37)
  else none

/-- The character that a one-letter escape stands for. -/
def simpleEscape? : Char → Option Char
  | '0' => some '\x00'
  | 'a' => some '\x07'
  | 'b' => some '\x08'
  | 't' => some '\t'
  | '\t' => some '\t'
  | 'n' => some '\n'
  | 'v' => some '\x0b'
  | 'f' => some '\x0c'
  | 'r' => some '\r'
  | 'e' => some '\x1b'
  | ' ' => some ' '
  | '"' => some '"'
  | '/' => some '/'
  | '\\' => some '\\'
  | 'N' => some '\u0085'
  | '_' => some '\u00a0'
  | 'L' => some '\u2028'
  | 'P' => some '\u2029'
  | _ => none

/-- The number of hexadecimal digits after an escape that names a code point. -/
def hexDigits? : Char → Option Nat
  | 'x' => some 2
  | 'u' => some 4
  | 'U' => some 8
  | _ => none

/-- The character of a code point, unless it is a surrogate or too large. -/
def character? (n : Nat) : Option Char :=
  if h : n.isValidChar then some (Char.ofNatAux n h) else none

/-- A code point that is being read: the digits that are left after the next one, and its value
so far. -/
structure HexRun where
  left : Nat
  value : Nat

/-- Reads a scalar in double quotes from behind the first of them. -/
def readDouble (start : Place) (gap : Gap) (hex : Option HexRun) (acc : List Char) :
    List Char → Option (List Char × Cursor)
  | [] => none
  | c :: rest =>
    match hex with
    | some ⟨left, value⟩ =>
      match hexValue? c with
      | none => none
      | some digit =>
        let value := value * 16 + digit
        match left with
        | left + 1 => readDouble (start.behind c) gap (some ⟨left, value⟩) acc rest
        | 0 =>
          match character? value with
          | none => none
          | some x => readDouble (start.behind c) gap none (x :: acc) rest
    | none =>
      if atMarker start.column (c :: rest) then none
      else if isBlank c then readDouble (start.behind c) (gap.addBlank c) none acc rest
      else if isBreak c then readDouble (start.behind c) (gap.addBreak c) none acc rest
      else if c = '"' then some (gap.text ++ acc, ⟨start.behind c, rest⟩)
      else if c = '\\' then
        match rest with
        | [] => none
        | e :: rest =>
          let next := (start.behind c).behind e
          if isBreak e then readDouble next .escaped none (gap.text ++ acc) rest
          else
            match simpleEscape? e, hexDigits? e with
            | some x, _ => readDouble next {} none (x :: (gap.text ++ acc)) rest
            | none, some n => readDouble next {} (some ⟨n - 1, 0⟩) (gap.text ++ acc) rest
            | none, none => none
      else readDouble (start.behind c) {} none (c :: (gap.text ++ acc)) rest

/-- Reads a scalar in single quotes from behind the first of them. -/
def readSingle (start : Place) (gap : Gap) (acc : List Char) :
    List Char → Option (List Char × Cursor)
  | [] => none
  | '\'' :: '\'' :: rest =>
    readSingle ((start.behind '\'').behind '\'') {} ('\'' :: (gap.text ++ acc)) rest
  | '\'' :: rest => some (gap.text ++ acc, ⟨start.behind '\'', rest⟩)
  | c :: rest =>
    if atMarker start.column (c :: rest) then none
    else if isBlank c then readSingle (start.behind c) (gap.addBlank c) acc rest
    else if isBreak c then readSingle (start.behind c) (gap.addBreak c) acc rest
    else readSingle (start.behind c) {} (c :: (gap.text ++ acc)) rest

/-- What happens to the breaks at the end of a block. -/
inductive Chomping where
  /-- All are dropped. -/
  | strip
  /-- One is kept. -/
  | clip
  /-- All are kept. -/
  | keep
  deriving DecidableEq, Repr

structure BlockState where
  /-- The column where the lines start; zero while it is not known. -/
  indent : Nat
  /-- The largest indentation of the lines before the first that is not empty. -/
  widest : Nat := 0
  /-- The break after the last line with content. -/
  lead : Option Char := none
  /-- The breaks of the empty lines after it, in reverse. -/
  breaks : List Char := []
  /-- Whether the last line with content starts with a blank. -/
  leadingBlank : Bool := false
  /-- Whether a line with content is being read. -/
  inLine : Bool := false

/-- The text before a further line of a block, in reverse. Breaks between two lines that do not
start with a blank are folded. -/
def joinLine (folded : Bool) (s : BlockState) (first : Char) (acc : List Char) : List Char :=
  if folded && s.lead = some '\n' && !s.leadingBlank && !isBlank first then
    s.breaks ++ (if s.breaks.isEmpty then [' '] else []) ++ acc
  else s.breaks ++ s.lead.toList ++ acc

/-- The text with what is left of the breaks at its end, in reverse. -/
def chomp (chomping : Chomping) (s : BlockState) (acc : List Char) : List Char :=
  match chomping with
  | .strip => acc
  | .clip => s.lead.toList ++ acc
  | .keep => s.breaks ++ s.lead.toList ++ acc

/-- Reads the lines of a block whose surroundings are indented by `base` columns or fewer. -/
def readLines (folded : Bool) (chomping : Chomping) (base : Nat) (start : Place)
    (s : BlockState) (acc : List Char) : List Char → Option (List Char × Cursor)
  | [] => some (chomp chomping s acc, ⟨start, []⟩)
  | c :: rest =>
    let next := start.behind c
    if s.inLine then
      if isBreak c then
        readLines folded chomping base next { s with lead := some c, inLine := false } acc rest
      else readLines folded chomping base next s (c :: acc) rest
    else
      let indenting := s.indent == 0 || start.column < s.indent
      let widest := max s.widest start.column
      if indenting && c == ' ' then readLines folded chomping base next s acc rest
      else if indenting && c == '\t' then none
      else if isBreak c then
        readLines folded chomping base next
          { s with breaks := c :: s.breaks, widest := widest } acc rest
      else
        let indent := if s.indent == 0 then max widest (max base 1) else s.indent
        if start.column == indent then
          readLines folded chomping base next
            { indent := indent, leadingBlank := isBlank c, inLine := true }
            (c :: joinLine folded s c acc) rest
        else some (chomp chomping s acc, ⟨start, c :: rest⟩)

/-- Reads the signs for chomping and indentation, in either order. -/
def readBlockSigns : List Char → Option (Chomping × Nat × Nat)
  | cs =>
    let chomping? : Char → Option Chomping := fun c =>
      if c == '+' then some .keep else if c == '-' then some .strip else none
    let digit? : Char → Option Nat := fun c =>
      if c.isDigit then some (c.toNat - 0x30) else none
    match cs with
    | [] => some (.clip, 0, 0)
    | c :: rest =>
      match chomping? c, digit? c with
      | some ch, _ =>
        match rest.head?.bind digit? with
        | some 0 => none
        | some d => some (ch, d, 2)
        | none => some (ch, 0, 1)
      | none, some 0 => none
      | none, some d =>
        match rest.head?.bind chomping? with
        | some ch => some (ch, d, 2)
        | none => some (.clip, d, 1)
      | none, none => some (.clip, 0, 0)

/-- Reads a block scalar from its sign on. `indent` is the column of the collection around it,
if there is one. -/
def readBlock (folded : Bool) (indent : Option Nat) (c : Cursor) :
    Option (List Char × Cursor) := do
  let c := c.skip 1
  let (chomping, increment, signs) ← readBlockSigns c.rest
  let c ← (c.skip signs).endLine?
  let start := if increment = 0 then 0 else indent.getD 0 + increment
  readLines folded chomping (indent.elim 0 (· + 1)) c.toPlace { indent := start } [] c.rest

end BeanForge.Yaml
