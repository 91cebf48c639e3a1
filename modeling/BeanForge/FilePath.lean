import BeanForge.Text.Split
/-!
# Paths of files

Paths are texts, kept as they were given because messages show them. Empty segments and dots
name nothing, except for what a path starts with: a slash for the top or a dot for the current
directory.
-/
namespace BeanForge.FilePath

/-- The segments of a path, last first. -/
def segments (path : String) : List String :=
  (Text.split '/' path).reverse

/-- The names in a path, first first. Empty segments are left out, dots are not. -/
def names (path : String) : List String :=
  (Text.split '/' path).filter (· != "")

/-- Whether a segment names nothing. -/
def isIdle (segment : String) : Bool :=
  segment == "" || segment == "."

/-- The segments, last first, from the last one that names something; the first segment of the
path is kept in any case. -/
def trimmed : List String → List String
  | [] => []
  | [s] => [s]
  | s :: t :: rest => if isIdle s then trimmed (t :: rest) else s :: t :: rest

/-- The path with the given segments, last first. -/
def ofSegments (segments : List String) : String :=
  if segments = [""] then "/" else Text.join "/" segments.reverse

/-- Whether a path starts at the top. -/
def isAbsolute (path : String) : Bool :=
  path.toList.head? == some '/'

def endsInSlash (path : String) : Bool :=
  path.toList.getLast? == some '/'

def join (directory file : String) : String :=
  if isAbsolute file then file
  else if directory.isEmpty || endsInSlash directory then directory ++ file
  else directory ++ "/" ++ file

/-- The directory around what a path names; the empty path is the current directory. -/
def parent? (path : String) : Option String :=
  match trimmed (segments path) with
  | [] => none
  | [s] => if s.isEmpty then none else some ""
  | _ :: rest => some (ofSegments (trimmed rest))

/-- The directories around a place with the given segments, last first, and that place itself.
The current directory is not listed. -/
def chain : List String → List String
  | [] => []
  | [s] => [ofSegments [s]]
  | s :: t :: rest =>
    if isIdle s then chain (t :: rest) else ofSegments (s :: t :: rest) :: chain (t :: rest)

/-- A path and the directories around it, innermost first. -/
def ancestors (path : String) : List String :=
  if path.isEmpty then [] else path :: chain (trimmed (segments path)).tail

/-- The last name of a path; dots that lead to a directory are not names. -/
def fileName? (path : String) : Option String :=
  match trimmed (segments path) with
  | [] => none
  | s :: _ => if isIdle s || s == ".." then none else some s

/-- A name without what follows its last dot. A dot at the start does not count. -/
def withoutExtension (name : String) : String :=
  match (Text.split '.' name).dropLast with
  | [] => name
  | [""] => name
  | pieces => Text.join "." pieces

/-- The last name of a path without its extension. -/
def stem? (path : String) : Option String :=
  (fileName? path).map withoutExtension

end BeanForge.FilePath
