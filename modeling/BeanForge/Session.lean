import BeanForge.Document.Check
import BeanForge.Document.Reader
import BeanForge.Model.OfSchema
import BeanForge.Failure
import BeanForge.FileTree
import BeanForge.Log
import BeanForge.Model.Json
import BeanForge.Rendering
/-!
# Working with files

The steps that read schemas and write generated files. They are stated over any store of files;
a `FileTree` that changes from step to step is the store that theorems speak about. A step may
fail, and the lines it has logged up to then are kept.
-/
namespace BeanForge

/-- A place to keep files in. -/
class FileStore (m : Type → Type) where
  read : String → m (Except FileError ByteArray)
  write : String → ByteArray → m (Except FileError Unit)
  makeDirectory : String → m (Except FileError Unit)
  isDirectory : String → m Bool

/-- A step on a file tree that changes it only if it succeeds. -/
def FileTree.attempt (change : FileTree → Except FileError FileTree) :
    StateM FileTree (Except FileError Unit) := fun t =>
  match change t with
  | .ok t' => (.ok (), t')
  | .error e => (.error e, t)

instance : FileStore (StateM FileTree) where
  read path := fun t => (t.read path, t)
  write path bytes := FileTree.attempt (·.write path bytes)
  makeDirectory path := FileTree.attempt (·.makeDirectory path)
  isDirectory path := fun t => (t.isDirectory path, t)

section

variable {m : Type → Type} [Monad m] [FileStore m]

/-- Makes the first of several directories, each in the next one, and those of the others that
are missing. -/
def makeDirectories : List String → m (Except FileError Unit)
  | [] => pure (.ok ())
  | path :: around => do
    match ← FileStore.makeDirectory path with
    | .ok () => return .ok ()
    | .error .notFound =>
      match ← makeDirectories around with
      | .error e => return .error e
      | .ok () =>
        match ← FileStore.makeDirectory path with
        | .ok () => return .ok ()
        | .error e => return if ← FileStore.isDirectory path then .ok () else .error e
    | .error e => return if ← FileStore.isDirectory path then .ok () else .error e

/-- Makes a directory and those around it, unless they are there. -/
def ensureDirectory (path : String) : m (Except FileError Unit) :=
  makeDirectories (FilePath.ancestors path)

end

/-- A step that uses a store, logs lines, and may fail. -/
abbrev Session (m : Type → Type) := ExceptT Failure (StateT (List Log.Entry) m)

namespace Session

variable {m : Type → Type} [Monad m]

def log (level : Log.Level) (message : String) (values : List (String × String)) :
    Session m Unit :=
  modify fun entries => entries ++ [⟨level, message, values⟩]

/-- A step on the store whose error becomes a failure. -/
def store {α : Type} (step : m (Except FileError α)) (failure : FileError → Failure) :
    Session m α :=
  ExceptT.mk do
    return (← StateT.lift step).mapError failure

/-- The document in a file. -/
def loadDocument [FileStore m] (path : String) : Session m Document := do
  let bytes ← store (FileStore.read path) (.unreadable path)
  match String.fromUTF8? bytes with
  | none => throw (.unreadable path .notUtf8)
  | some text =>
    match Document.ofYaml? text with
    | none => throw .notADocument
    | some document =>
      log .debug "loaded schema"
        [("path", path), ("properties", toString (document.properties.elim 0 List.length))]
      return document

def checkDocument (document : Document) (target : Target) : Session m Schema := do
  match document.check target with
  | .error r => throw (.rejected r)
  | .ok schema =>
    log .debug "schema validated" [("bean", Log.quoted schema.name), ("target", target.text)]
    return schema

def buildModel (schema : Schema) (target : Target) : Session m Model := do
  let model := schema.model target
  log .debug "schema enriched"
    [("bean", schema.name), ("target", target.text), ("classes", toString model.classCount),
      ("includes", Log.quotedList model.includes)]
  return model

structure Summary where
  files : Nat
  classes : Nat
  deriving DecidableEq, Repr

/-- Writes a file, and makes the directories around it if they are missing. -/
def writeFile [FileStore m] (path : String) (contents : String) : Session m Unit := do
  if let some around := FilePath.parent? path then
    store (ensureDirectory around) (.unwritable around)
  store (FileStore.write path contents.toUTF8) (.unwritable path)

def writeOutput [FileStore m] (directory : String) (file : OutputFile) : Session m Unit := do
  let path := FilePath.join directory file.name
  writeFile path file.contents
  log .info ("wrote " ++ file.name) [("path", path)]

/-- Writes the files of a model into a directory, one after the other. -/
def generate [FileStore m] (model : Model) (stem directory : String) : Session m Summary := do
  match model.files? stem with
  | none => throw .unrenderable
  | some files =>
    files.forM (writeOutput directory)
    return ⟨files.length, model.classCount⟩

end Session

end BeanForge
