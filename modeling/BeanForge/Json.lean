/-!
# JSON values and their text

The values that a code model is made of: truth values, texts, arrays and objects. The text puts
every entry on a line of its own, two spaces further to the right than what it belongs to; empty
arrays and objects stay on one line. Objects keep the order of their fields.
-/
namespace BeanForge

/-- A JSON value without numbers and nulls, which code models do not have. -/
inductive Json where
  | bool (b : Bool)
  | text (s : String)
  | array (items : List Json)
  | object (fields : List (String × Json))
  deriving Inhabited

namespace Json

/-- The hexadecimal digit of a number below sixteen, in lower case. -/
def hexDigit (n : Nat) : Char :=
  if n % 16 < 10 then Char.ofNat (0x30 + n % 16) else Char.ofNat (0x57 + n % 16)

/-- How one character is written between the quotes. -/
def escape (c : Char) : List Char :=
  if c = '"' then ['\\', '"']
  else if c = '\\' then ['\\', '\\']
  else if c = '\n' then ['\\', 'n']
  else if c = '\r' then ['\\', 'r']
  else if c = '\t' then ['\\', 't']
  else if c = '\x08' then ['\\', 'b']
  else if c = '\x0c' then ['\\', 'f']
  else if c.toNat < 0x20 then
    ['\\', 'u', '0', '0', hexDigit (c.toNat / 16), hexDigit c.toNat]
  else [c]

def quote (s : String) : List Char :=
  '"' :: (s.toList.flatMap escape ++ ['"'])

/-- A new line at a depth. -/
def newLine (depth : Nat) : List Char :=
  '\n' :: List.replicate (2 * depth) ' '

mutual

/-- The text of a value whose first line starts at a depth. -/
def write (depth : Nat) : Json → List Char
  | bool true => ['t', 'r', 'u', 'e']
  | bool false => ['f', 'a', 'l', 's', 'e']
  | text s => quote s
  | array [] => ['[', ']']
  | array (item :: items) =>
    '[' :: newLine (depth + 1) ++ write (depth + 1) item ++ writeItems (depth + 1) items ++
      newLine depth ++ [']']
  | object [] => ['\x7b', '\x7d']
  | object ((key, value) :: fields) =>
    '\x7b' :: newLine (depth + 1) ++ quote key ++ [':', ' '] ++ write (depth + 1) value ++
      writeFields (depth + 1) fields ++ newLine depth ++ ['\x7d']

/-- The further items of an array, each after a comma. -/
def writeItems (depth : Nat) : List Json → List Char
  | [] => []
  | item :: items =>
    ',' :: newLine depth ++ write depth item ++ writeItems depth items

/-- The further fields of an object, each after a comma. -/
def writeFields (depth : Nat) : List (String × Json) → List Char
  | [] => []
  | (key, value) :: fields =>
    ',' :: newLine depth ++ quote key ++ [':', ' '] ++ write depth value ++
      writeFields depth fields

end

/-- The text of a value. -/
def render (j : Json) : String :=
  String.ofList (j.write 0)

/-- The fields of an object; other values have none. -/
def fields : Json → List (String × Json)
  | object fs => fs
  | _ => []

def field? (j : Json) (key : String) : Option Json :=
  j.fields.lookup key

def text? : Json → Option String
  | text s => some s
  | _ => none

/-- The truth value that a value is. -/
def bool? : Json → Option Bool
  | bool b => some b
  | _ => none

/-- The items of the array that a value is. -/
def array? : Json → Option (List Json)
  | array items => some items
  | _ => none

end Json

end BeanForge
