import BeanForge.FilePath
/-!
# Trees of files

Plain files and directories below one directory, which is its own parent. A place is the list of
names on the way to it; `find?` is the view in which all operations are described. Paths are
followed name by name, from the top or else from the current directory, so that a missing name,
a file in place of a directory and a name that is too long are met in the order of the path.
-/
namespace BeanForge

/-- Why a file operation fails. -/
inductive FileError where
  | notFound
  | alreadyExists
  | notDirectory
  | isDirectory
  | nameTooLong
  | notUtf8
  | nulInName
  deriving DecidableEq, Repr

def FileError.message : FileError → String
  | notFound => "No such file or directory (os error 2)"
  | alreadyExists => "File exists (os error 17)"
  | notDirectory => "Not a directory (os error 20)"
  | isDirectory => "Is a directory (os error 21)"
  | nameTooLong => "File name too long (os error 36)"
  | notUtf8 => "stream did not contain valid UTF-8"
  | nulInName => "file name contained an unexpected NUL byte"

/-- The names on the way to a file or directory. -/
abbrev Place := List String

/-- What stands at a place. -/
inductive FileEntry where
  | file (bytes : ByteArray)
  | directory

structure FileTree where
  entries : List (Place × FileEntry) := []
  /-- The directory in which paths start that do not start at the top. -/
  current : Place := []

namespace FileTree

def find? (t : FileTree) : Place → Option FileEntry
  | [] => some .directory
  | place => t.entries.lookup place

/-- The tree with something put at a place. -/
def put (t : FileTree) (place : Place) (e : FileEntry) : FileTree :=
  { t with entries := (place, e) :: t.entries.filter (·.1 != place) }

/-- The longest name of a file, in bytes. -/
def maxName : Nat := 255

/-- The length from which on a path is too long, in bytes. -/
def maxPath : Nat := 4096

def start (t : FileTree) (path : String) : Place :=
  if FilePath.isAbsolute path then [] else t.current

/-- Follows the names of a path through directories. -/
def enter (t : FileTree) (here : Place) : List String → Except FileError Place
  | [] => .ok here
  | name :: names =>
    if name = "." then enter t here names
    else if name = ".." then enter t here.dropLast names
    else if maxName < name.utf8ByteSize then .error .nameTooLong
    else
      match t.find? (here ++ [name]) with
      | none => .error .notFound
      | some (.file _) => .error .notDirectory
      | some .directory => enter t (here ++ [name]) names

/-- What a path leads to: a directory reached by dots, or a name in a directory. -/
inductive Location where
  | reached (directory : Place)
  | named (directory : Place) (name : String)

/-- Follows a path up to its last name. -/
def locate (t : FileTree) (path : String) : Except FileError Location := do
  if '\x00' ∈ path.toList then
    .error .nulInName
  if path.isEmpty then
    .error .notFound
  if maxPath ≤ path.utf8ByteSize then
    .error .nameTooLong
  let names := FilePath.names path
  match names.getLast? with
  | none => return .reached (t.start path)
  | some last =>
    let directory ← t.enter (t.start path) names.dropLast
    if last = "." then return .reached directory
    else if last = ".." then return .reached directory.dropLast
    else return .named directory last

def lookIn (t : FileTree) (directory : Place) (name : String) :
    Except FileError (Option FileEntry) :=
  if maxName < name.utf8ByteSize then .error .nameTooLong
  else .ok (t.find? (directory ++ [name]))

def isDirectory (t : FileTree) (path : String) : Bool :=
  match t.locate path with
  | .ok (.reached _) => true
  | .ok (.named directory name) =>
    match t.lookIn directory name with
    | .ok (some .directory) => true
    | _ => false
  | .error _ => false

def read (t : FileTree) (path : String) : Except FileError ByteArray := do
  match ← t.locate path with
  | .reached _ => .error .isDirectory
  | .named directory name =>
    match ← t.lookIn directory name with
    | none => .error .notFound
    | some .directory => .error .isDirectory
    | some (.file bytes) =>
      if FilePath.endsInSlash path then .error .notDirectory else .ok bytes

/-- The tree with new bytes in a file, which is created if it is missing. -/
def write (t : FileTree) (path : String) (bytes : ByteArray) : Except FileError FileTree := do
  match ← t.locate path with
  | .reached _ => .error .isDirectory
  | .named directory name =>
    if FilePath.endsInSlash path then .error .isDirectory
    else
      match ← t.lookIn directory name with
      | some .directory => .error .isDirectory
      | _ => .ok (t.put (directory ++ [name]) (.file bytes))

def makeDirectory (t : FileTree) (path : String) : Except FileError FileTree := do
  match ← t.locate path with
  | .reached _ => .error .alreadyExists
  | .named directory name =>
    match ← t.lookIn directory name with
    | some _ => .error .alreadyExists
    | none => .ok (t.put (directory ++ [name]) .directory)

/-- The paths of all files and directories from the top, in order, directories with a slash at
the end. -/
def listing (t : FileTree) : List String :=
  let paths := t.entries.map fun (place, e) =>
    match e with
    | .file _ => Text.join "/" place
    | .directory => Text.join "/" place ++ "/"
  paths.mergeSort fun a b => a ≤ b

theorem find?_put (t : FileTree) (place q : Place) (e : FileEntry) (h : place ≠ []) :
    (t.put place e).find? q = if q = place then some e else t.find? q := by
  cases q with
  | nil => simp [find?, h.symm]
  | cons n ns =>
    by_cases hq : n :: ns = place
    · subst hq; simp [find?, put]
    · have hb : (n :: ns == place) = false := by simpa using hq
      simp only [find?, put, List.lookup_cons, hb, if_neg hq]
      induction t.entries with
      | nil => rfl
      | cons entry entries ih =>
        obtain ⟨p, v⟩ := entry
        by_cases hp : p = place
        · subst hp; simp [List.lookup_cons, hb, ih]
        · have hp' : (p != place) = true := by simpa using hp
          by_cases hn : (n :: ns == p) = true
          · simp [hp', List.lookup_cons, hn]
          · simp [hp', List.lookup_cons, hn, ih]

end FileTree

end BeanForge
