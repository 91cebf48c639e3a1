/-!
# String literals

How a text is written as a literal of the generated language, and how such a literal is read.
Quotes, backslashes and three control characters have an escape of two characters; every other
control character becomes an octal escape of exactly three digits, so that a digit after it is
never taken for a part of it. All else stands for itself.
-/
namespace BeanForge.Text

/-- A control character: one of the two blocks C0 and C1, or the delete character. -/
def isControl (c : Char) : Bool :=
  let n := c.toNat
  n ≤ 0x1F || (0x7F ≤ n && n ≤ 0x9F)

/-- The octal digit of a number below eight. -/
def octalDigit (n : Nat) : Char :=
  Char.ofNat (0x30 + n % 8)

/-- The escape of a code point with three octal digits. -/
def octalEscape (n : Nat) : List Char :=
  ['\\', octalDigit (n / 64), octalDigit (n / 8), octalDigit n]

/-- How one character is written between the quotes. -/
def encodeChar (c : Char) : List Char :=
  if c = '"' then ['\\', '"']
  else if c = '\\' then ['\\', '\\']
  else if c = '\n' then ['\\', 'n']
  else if c = '\r' then ['\\', 'r']
  else if c = '\t' then ['\\', 't']
  else if isControl c then octalEscape c.toNat
  else [c]

/-- What stands between the quotes. -/
def encodeChars (cs : List Char) : List Char :=
  cs.flatMap encodeChar

/-- The literal of a text, quotes included. -/
def literal (text : String) : String :=
  String.ofList ('"' :: encodeChars text.toList ++ ['"'])

@[simp] theorem encodeChars_nil : encodeChars [] = [] := rfl

@[simp] theorem encodeChars_cons (c : Char) (cs : List Char) :
    encodeChars (c :: cs) = encodeChar c ++ encodeChars cs := rfl

end BeanForge.Text
