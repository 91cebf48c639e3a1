import BeanForge.Text.Literal
/-!
# Reading string literals

The rules by which a compiler reads a literal. A backslash starts an escape: one letter or sign,
or one to three octal digits, as many as there are. Every other character but the quote and the
newline stands for itself. What a unit of a literal means depends on the type of the literal:
`textOf` takes escaped numbers as code points, `bytesOf` takes them as bytes among the UTF-8
bytes of the other characters.
-/
namespace BeanForge.Text

/-- A unit of a literal: a character, or the number of an octal escape. -/
inductive LiteralUnit where
  | char (c : Char)
  | number (n : Nat)
  deriving DecidableEq, Repr

/-- The number an octal digit stands for. -/
def octalValue? (c : Char) : Option Nat :=
  if '0' ≤ c && c ≤ '7' then some (c.toNat - 0x30) else none

/-- The character that an escape of one letter or sign stands for. -/
def plainEscape? : Char → Option Char
  | '"' => some '"'
  | '\\' => some '\\'
  | '\'' => some '\''
  | '?' => some '?'
  | 'n' => some '\n'
  | 'r' => some '\r'
  | 't' => some '\t'
  | 'a' => some '\x07'
  | 'b' => some '\x08'
  | 'v' => some '\x0b'
  | 'f' => some '\x0c'
  | _ => none

/-- Puts a unit in front of what was read behind it. -/
def withUnit (u : LiteralUnit) :
    Option (List LiteralUnit × List Char) → Option (List LiteralUnit × List Char) :=
  Option.map fun (us, rest) => (u :: us, rest)

/-- Reads a literal from behind its first quote, and returns what follows the last one. -/
def readUnits : List Char → Option (List LiteralUnit × List Char)
  | [] => none
  | '"' :: rest => some ([], rest)
  | '\n' :: _ => none
  | ['\\'] => none
  | '\\' :: a :: rest =>
    match octalValue? a with
    | none => (plainEscape? a).bind fun c => withUnit (.char c) (readUnits rest)
    | some i =>
      match rest with
      | [] => none
      | b :: rest' =>
        match octalValue? b with
        | none => withUnit (.number i) (readUnits (b :: rest'))
        | some j =>
          match rest' with
          | [] => none
          | c :: rest'' =>
            match octalValue? c with
            | none => withUnit (.number (i * 8 + j)) (readUnits (c :: rest''))
            | some k => withUnit (.number (i * 64 + j * 8 + k)) (readUnits rest'')
  | c :: rest => withUnit (.char c) (readUnits rest)

/-- Reads a literal, quotes included, and returns what follows it. -/
def readLiteral : List Char → Option (List LiteralUnit × List Char)
  | '"' :: rest => readUnits rest
  | _ => none

/-- The text of a literal whose numbers are code points. -/
def textOf (us : List LiteralUnit) : List Char :=
  us.map fun
    | .char c => c
    | .number n => Char.ofNat n

/-- The bytes of a unit of a literal in UTF-8 whose numbers are bytes. -/
def LiteralUnit.bytes : LiteralUnit → List UInt8
  | .char c => String.utf8EncodeChar c
  | .number n => [UInt8.ofNat n]

def bytesOf (us : List LiteralUnit) : List UInt8 :=
  us.flatMap LiteralUnit.bytes

/-- The text of a Latin-1 string that ends before its first zero byte. -/
def latin1Text (bytes : List UInt8) : List Char :=
  (bytes.takeWhile (· ≠ 0)).map fun b => Char.ofNat b.toNat

end BeanForge.Text
