import BeanForge.Yaml.Scalar
/-!
# Tokens of a YAML text

The signs and scalars of a text in order. Block collections have tokens for their start and end,
which the text itself shows only by indentation; the token that makes a scalar a key is put in
front of it when its colon is found.
-/
namespace BeanForge.Yaml

/-- A token. -/
inductive Token where
  | version (major minor : Nat)
  | handle (name expansion : List Char)
  | documentStart
  | documentEnd
  | blockSequence
  | blockMapping
  | blockEnd
  | flowSequence
  | flowSequenceEnd
  | flowMapping
  | flowMappingEnd
  | entry
  | comma
  | key
  | value
  | reference (name : List Char)
  | anchor (name : List Char)
  | tag (handle suffix : List Char)
  | scalar (style : ScalarStyle) (text : List Char)
  deriving DecidableEq, Repr, Inhabited

/-- A place where a key may have started: a colon further on in the line makes it one. -/
structure PendingKey extends Place where
  /-- Whether nothing but a key can stand there. -/
  required : Bool
  /-- The number of tokens before it. -/
  position : Nat

structure Lexer where
  cursor : Cursor
  /-- The columns of the open block collections, innermost first. -/
  indents : List Nat := []
  /-- The pending key outside all flow collections and in each open one, innermost first. -/
  keys : List (Option PendingKey) := [none]
  /-- Whether a key may start at the next place. -/
  keyAllowed : Bool := true
  tokens : Array Token := #[]

namespace Lexer

def inFlow (l : Lexer) : Bool :=
  1 < l.keys.length

/-- Whether the column of a block collection is further to the left. -/
def isDeeper (column : Nat) : List Nat → Bool
  | [] => true
  | indent :: _ => indent < column

def push (l : Lexer) (t : Token) : Lexer :=
  { l with tokens := l.tokens.push t }

/-- Adds a token and moves behind the signs it is written with. -/
def take (l : Lexer) (n : Nat) (t : Token) : Lexer :=
  { l.push t with cursor := l.cursor.skip n }

/-- Gives up the pending key, unless nothing but a key can stand there. -/
def dropKey? (l : Lexer) : Option Lexer :=
  match l.keys with
  | some k :: keys => if k.required then none else some { l with keys := none :: keys }
  | _ => some l

/-- Notes that a key may start at this place. -/
def saveKey? (l : Lexer) : Option Lexer := do
  if l.keyAllowed then
    let l ← l.dropKey?
    let key : PendingKey :=
      { l.cursor.toPlace with
        required := !l.inFlow && l.indents.head? == some l.cursor.column
        position := l.tokens.size }
    return { l with keys := some key :: l.keys.tail }
  return l

/-- Gives up the pending keys that are on an earlier line or more than 1024 octets away. -/
def dropStaleKeys? (l : Lexer) : Option Lexer := do
  let keys ← l.keys.mapM fun key =>
    match key with
    | none => some none
    | some k =>
      if k.line < l.cursor.line || k.octets + 1024 < l.cursor.octets then
        if k.required then none else some none
      else some (some k)
  return { l with keys := keys }

/-- Opens a block collection at a column, unless one is open there, with its token at a
position. -/
def openBlock (l : Lexer) (column position : Nat) (t : Token) : Lexer :=
  if !l.inFlow && isDeeper column l.indents then
    { l with indents := column :: l.indents
             tokens := l.tokens.insertIdxIfInBounds position t }
  else l

/-- Closes the block collections whose column has a property. -/
def closeBlocks (l : Lexer) (closes : Nat → Bool) : Lexer :=
  if l.inFlow then l
  else
    let closed := l.indents.takeWhile closes
    { l with indents := l.indents.drop closed.length
             tokens := l.tokens ++ closed.map fun _ => Token.blockEnd }

/-- Moves over blanks, comments and empty lines to the next token. Tabs count as blanks only
where no key may start. -/
def skipFiller (flow : Bool) (keyAllowed comment : Bool) (start : Place) :
    List Char → Cursor × Bool
  | [] => (⟨start, []⟩, keyAllowed)
  | c :: rest =>
    if isBreak c then skipFiller flow (keyAllowed || !flow) false (start.behind c) rest
    else if comment || c == ' ' || (c == '\t' && (flow || !keyAllowed)) ||
        (c == '\uFEFF' && start.column == 0) then
      skipFiller flow keyAllowed comment (start.behind c) rest
    else if c == '#' then skipFiller flow keyAllowed true (start.behind c) rest
    else (⟨start, c :: rest⟩, keyAllowed)

/-- Moves to the next token. -/
def toNext? (l : Lexer) : Option Lexer := do
  let c := l.cursor
  let (cursor, keyAllowed) := skipFiller l.inFlow l.keyAllowed false c.toPlace c.rest
  let l ← { l with cursor := cursor, keyAllowed := keyAllowed }.dropStaleKeys?
  return l.closeBlocks (cursor.column < ·)

/-- The tokens of the text, when nothing is left of it. -/
def finish? (l : Lexer) : Option (List Token) := do
  let l ← (l.closeBlocks fun _ => true).dropKey?
  return l.tokens.toList

/-- A character of a tag, apart from escapes. -/
def isTagChar (verbatim : Bool) (c : Char) : Bool :=
  isWord c || ";/?:@&=+$.!~*'()".toList.contains c ||
    (verbatim && (c == ',' || c == '[' || c == ']'))

/-- The number of octets that follow the first one of a character. -/
def followers? (octet : Nat) : Option Nat :=
  if octet < 0x80 then some 0
  else if 0xC0 ≤ octet && octet < 0xE0 then some 1
  else if 0xE0 ≤ octet && octet < 0xF0 then some 2
  else if 0xF0 ≤ octet && octet < 0xF8 then some 3
  else none

/-- Reads the characters of a tag, each octet of an escaped character as one, and returns them
with their number of signs. `pending` octets of an escaped character are still missing. -/
def readTag (verbatim : Bool) (pending : Nat) : List Char → Option (List Char × Nat)
  | '%' :: a :: b :: rest =>
    match hexValue? a, hexValue? b with
    | some x, some y =>
      let octet := x * 16 + y
      let next? := match pending with
        | 0 => followers? octet
        | n + 1 => if 0x80 ≤ octet && octet < 0xC0 then some n else none
      match next? with
      | none => none
      | some next =>
        (readTag verbatim next rest).map fun (cs, n) => (Char.ofNat octet :: cs, n + 3)
    | _, _ => none
  | [] => if pending = 0 then some ([], 0) else none
  | c :: rest =>
    if pending ≠ 0 || c == '%' then none
    else if isTagChar verbatim c then
      (readTag verbatim 0 rest).map fun (cs, n) => (c :: cs, n + 1)
    else some ([], 0)

/-- The characters of a tag up to the first null, and the cursor behind all of them. -/
def readTagText? (verbatim : Bool) (c : Cursor) : Option (List Char × Cursor) := do
  let (cs, n) ← readTag verbatim 0 c.rest
  return (cs.takeWhile (· != '\x00'), c.skip n)

/-- Reads a handle: words between exclamation marks, of which the second may be missing. -/
def readHandle? (c : Cursor) : Option (List Char × Cursor) :=
  match c.rest with
  | '!' :: _ =>
    let (word, c) := (c.skip 1).span isWord
    match c.rest with
    | '!' :: _ => some ('!' :: word ++ ['!'], c.skip 1)
    | _ => some ('!' :: word, c)
  | _ => none

/-- Reads a number of at most nine digits. -/
def readNumber? (c : Cursor) : Option (Nat × Cursor) :=
  let (digits, c) := c.span Char.isDigit
  if digits.isEmpty || 9 < digits.length then none
  else some (digits.foldl (fun n d => n * 10 + (d.toNat - 0x30)) 0, c)

def readDirective? (c : Cursor) : Option (Token × Cursor) := do
  let (name, c) := (c.skip 1).span isWord
  if name.isEmpty || !atGap c.rest then
    none
  let c := c.skipBlanks
  if name = ['Y', 'A', 'M', 'L'] then
    let (major, c) ← readNumber? c
    guard (c.rest.head? = some '.')
    let (minor, c) ← readNumber? (c.skip 1)
    return (.version major minor, ← c.endLine?)
  else if name = ['T', 'A', 'G'] then
    let (handle, c) ← readHandle? c
    guard (handle = ['!'] || handle.getLast? = some '!')
    guard (c.rest.head?.any isBlank)
    let (expansion, c') ← readTagText? true c.skipBlanks
    guard (c'.column ≠ c.skipBlanks.column && atGap c'.rest)
    return (.handle handle expansion, ← c'.endLine?)
  else none

def readName? (c : Cursor) : Option (List Char × Cursor) :=
  let (name, c) := (c.skip 1).span isWord
  let ends := atGap c.rest || c.rest.head?.any fun x => "?:,]\x7d%@`".toList.contains x
  if name.isEmpty || !ends then none else some (name, c)

def readTagToken? (flow : Bool) (c : Cursor) : Option (Token × Cursor) := do
  let (token, c) ←
    match c.rest with
    | '!' :: '<' :: _ => do
      let start := c.skip 2
      let (suffix, c) ← readTagText? true start
      guard (c.column ≠ start.column && c.rest.head? = some '>')
      pure (Token.tag [] suffix, c.skip 1)
    | _ => do
      let (handle, c) ← readHandle? c
      let (suffix, c') ← readTagText? false c
      if handle.length ≠ 1 && handle.getLast? = some '!' then
        guard (c'.column ≠ c.column)
        pure (Token.tag handle suffix, c')
      else
        let whole := handle.tail ++ suffix
        pure (if whole.isEmpty then Token.tag [] ['!'] else Token.tag ['!'] whole, c')
  guard (atGap c.rest || (flow && c.rest.head? = some ','))
  return (token, c)

/-- Whether a plain scalar may start with the next characters. -/
def startsPlain (flow : Bool) : List Char → Bool
  | [] => false
  | c :: rest =>
    !(isBlank c || "-?:,[]\x7b\x7d#&*!|>'\"%@`".toList.contains c) ||
      (c == '-' && !(rest.head?.any isBlank)) ||
      (!flow && (c == '?' || c == ':') && !atGap rest)

def openFlow? (l : Lexer) (t : Token) : Option Lexer := do
  let l ← l.saveKey?
  return { l.take 1 t with keys := none :: l.keys, keyAllowed := true }

def closeFlow? (l : Lexer) (t : Token) : Option Lexer := do
  let l ← l.dropKey?
  let keys := if l.inFlow then l.keys.tail else l.keys
  return { l.take 1 t with keys := keys, keyAllowed := false }

/-- Takes the sign of a sequence's entry. -/
def takeEntry? (l : Lexer) : Option Lexer := do
  guard (l.inFlow || l.keyAllowed)
  let l ← (l.openBlock l.cursor.column l.tokens.size .blockSequence).dropKey?
  return { l.take 1 .entry with keyAllowed := true }

/-- Takes the sign of a mapping's key. -/
def takeKey? (l : Lexer) : Option Lexer := do
  guard (l.inFlow || l.keyAllowed)
  let l ← (l.openBlock l.cursor.column l.tokens.size .blockMapping).dropKey?
  return { l.take 1 .key with keyAllowed := !l.inFlow }

/-- Takes the sign of a mapping's value. A pending key becomes a key. -/
def takeValue? (l : Lexer) : Option Lexer :=
  match l.keys with
  | some k :: keys =>
    let l := { l with tokens := l.tokens.insertIdxIfInBounds k.position .key }
    let l := l.openBlock k.column k.position .blockMapping
    some { l.take 1 .value with keys := none :: keys, keyAllowed := false }
  | _ => do
    guard (l.inFlow || l.keyAllowed)
    let l := l.openBlock l.cursor.column l.tokens.size .blockMapping
    return { l.take 1 .value with keyAllowed := !l.inFlow }

/-- Takes a token that may be a key, given what reads it. -/
def takeNode? (l : Lexer) (read : Cursor → Option (Token × Cursor)) : Option Lexer := do
  let l ← l.saveKey?
  let (token, cursor) ← read l.cursor
  return { l.push token with cursor := cursor, keyAllowed := false }

/-- Takes a token that starts a line and ends all block collections. -/
def takeMark? (l : Lexer) (read : Cursor → Option (Token × Cursor)) : Option Lexer := do
  let l ← (l.closeBlocks fun _ => true).dropKey?
  let (token, cursor) ← read l.cursor
  return { l.push token with cursor := cursor, keyAllowed := false }

def takeQuoted? (l : Lexer) (double : Bool) : Option Lexer :=
  l.takeNode? fun c => do
    let c := c.skip 1
    if double then
      let (text, c) ← readDouble c.toPlace {} none [] c.rest
      return (.scalar .doubleQuoted text.reverse, c)
    else
      let (text, c) ← readSingle c.toPlace {} [] c.rest
      return (.scalar .singleQuoted text.reverse, c)

def takeBlock? (l : Lexer) (folded : Bool) : Option Lexer := do
  let l ← l.dropKey?
  let (text, cursor) ← readBlock folded l.indents.head? l.cursor
  let style := if folded then ScalarStyle.folded else .literal
  return { l.push (.scalar style text.reverse) with cursor := cursor, keyAllowed := true }

/-- Takes a plain scalar. A key may start after it if its line is over. -/
def takePlain? (l : Lexer) : Option Lexer := do
  let l ← l.saveKey?
  let c := l.cursor
  let indent := l.indents.head?.elim 0 (· + 1)
  let (text, gap, cursor) ← readPlain l.inFlow indent c.toPlace {} [] c.rest
  return { l.push (.scalar .plain text.reverse) with
    cursor := cursor, keyAllowed := gap.broken }

/-- Takes the next token, which starts with a character and continues with the given ones. -/
def takeToken? (l : Lexer) (c : Char) (rest : List Char) : Option Lexer :=
  let flow := l.inFlow
  let start := l.cursor.column == 0
  if start && c == '%' then l.takeMark? readDirective?
  else if start && atDocumentStart (c :: rest) then
    l.takeMark? fun c => some (.documentStart, c.skip 3)
  else if start && atDocumentEnd (c :: rest) then
    l.takeMark? fun c => some (.documentEnd, c.skip 3)
  else if c == '[' then l.openFlow? .flowSequence
  else if c == '\x7b' then l.openFlow? .flowMapping
  else if c == ']' then l.closeFlow? .flowSequenceEnd
  else if c == '\x7d' then l.closeFlow? .flowMappingEnd
  else if c == ',' then do
    let l ← l.dropKey?
    return { l.take 1 .comma with keyAllowed := true }
  else if c == '-' && atGap rest then l.takeEntry?
  else if c == '?' && (flow || atGap rest) then l.takeKey?
  else if c == ':' && (flow || atGap rest) then l.takeValue?
  else if c == '*' then
    l.takeNode? fun c => (readName? c).map fun (name, c) => (.reference name, c)
  else if c == '&' then
    l.takeNode? fun c => (readName? c).map fun (name, c) => (.anchor name, c)
  else if c == '!' then l.takeNode? (readTagToken? flow)
  else if c == '|' && !flow then l.takeBlock? false
  else if c == '>' && !flow then l.takeBlock? true
  else if c == '\'' then l.takeQuoted? false
  else if c == '"' then l.takeQuoted? true
  else if startsPlain flow (c :: rest) then l.takePlain?
  else none

/-- Takes the remaining tokens, of which there are at most as many as the bound says. -/
def run? : Nat → Lexer → Option (List Token)
  | 0, _ => none
  | bound + 1, l => do
    let l ← l.toNext?
    match l.cursor.rest with
    | [] => l.finish?
    | c :: rest => run? bound (← l.takeToken? c rest)

end Lexer

/-- The tokens of a text. Every token takes at least one character. -/
def tokens? (text : List Char) : Option (List Token) :=
  if text.all isAllowed then
    ({ cursor := { rest := unifyBreaks text } } : Lexer).run? (text.length + 1)
  else none

end BeanForge.Yaml
