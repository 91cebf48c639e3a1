import BeanForge.Text.Hidden
import BeanForge.Text.Indent
/-!
# Log lines

What the program tells about its steps, and which of it is shown. A line has a level, a message
and named values. In a message, the characters that command a terminal are shown as their code
points. Most values are shown as they are; a text value may also be shown in quotes, and then its
hidden characters are shown as their code points.
-/
namespace BeanForge.Log

/-- How important a line is. -/
inductive Level where
  | error
  | warn
  | info
  | debug
  | trace
  deriving DecidableEq, Repr

/-- Levels in the order of growing detail. -/
def Level.detail : Level → Nat
  | error => 1
  | warn => 2
  | info => 3
  | debug => 4
  | trace => 5

def Level.text : Level → String
  | error => "ERROR"
  | warn => "WARN"
  | info => "INFO"
  | debug => "DEBUG"
  | trace => "TRACE"

/-- The most detailed lines to show; `none` shows nothing. -/
abbrev Filter := Option Level

/-- Reads a filter: the name of a level in any case, its number, or a word for nothing. -/
def Filter.ofText? (text : String) : Option Filter :=
  match String.ofList (text.toList.map Char.toLower) with
  | "off" | "0" => some none
  | "error" | "1" | "" => some (some .error)
  | "warn" | "2" => some (some .warn)
  | "info" | "3" => some (some .info)
  | "debug" | "4" => some (some .debug)
  | "trace" | "5" => some (some .trace)
  | _ => none

/-- Whether lines of a level are shown. -/
def Filter.shows (f : Filter) (level : Level) : Bool :=
  f.any fun most => level.detail ≤ most.detail

structure Entry where
  level : Level
  message : String
  values : List (String × String) := []
  deriving DecidableEq, Repr

/-- A code point in hexadecimal digits. -/
def hexText (n : Nat) : List Char :=
  Nat.toDigits 16 n

def codePoint (c : Char) : List Char :=
  ['\\', 'u', '\x7b'] ++ hexText c.toNat ++ ['\x7d']

/-- How one character of a message is shown. The bell, backspace, form feed, escape and delete
characters and the second block of control characters command a terminal; other control
characters, such as line breaks and tabs, stay as they are. -/
def messageChar (c : Char) : List Char :=
  match c with
  | '\x07' => "\\x07".toList
  | '\x08' => "\\x08".toList
  | '\x0c' => "\\x0c".toList
  | '\x1b' => "\\x1b".toList
  | '\x7f' => "\\x7f".toList
  | c => if 0x80 ≤ c.toNat && c.toNat ≤ 0x9F then codePoint c else [c]

/-- A message as it is shown. -/
def messageText (message : String) : String :=
  String.ofList (message.toList.flatMap messageChar)

def Entry.text (e : Entry) : String :=
  Text.line <|
    e.level.text ++ " " ++ messageText e.message ++
      String.join (e.values.map fun (name, value) => " " ++ name ++ "=" ++ value)

/-- The text of the lines that a filter shows. -/
def render (f : Filter) (entries : List Entry) : String :=
  String.join ((entries.filter fun e => f.shows e.level).map Entry.text)

/-- How one character of a text value is shown in quotes. -/
def quoteChar (c : Char) : List Char :=
  if c = '"' then ['\\', '"']
  else if c = '\\' then ['\\', '\\']
  else if c = '\n' then ['\\', 'n']
  else if c = '\r' then ['\\', 'r']
  else if c = '\t' then ['\\', 't']
  else if c = '\x00' then ['\\', '0']
  else if Text.isHidden c then codePoint c
  else [c]

def quoted (text : String) : String :=
  String.ofList ('"' :: text.toList.flatMap quoteChar ++ ['"'])

def quotedList (texts : List String) : String :=
  "[" ++ Text.join ", " (texts.map quoted) ++ "]"

end BeanForge.Log
