import BeanForge.CommandLine
/-!
# The program

Runs the command line on the files of the machine. Everything that is decided is decided by
`CommandLine.run`; here its store of files is the real one.
-/
namespace BeanForge

/-- The file error that an error of the machine is reported as. -/
def FileError.ofMachine : IO.Error → FileError
  | .alreadyExists .. => .alreadyExists
  | .inappropriateType _ 21 _ => .isDirectory
  | .inappropriateType .. => .notDirectory
  | .invalidArgument _ 36 _ => .nameTooLong
  | _ => .notFound

/-- An operation of the machine with its error as a file error. -/
def onMachine {α : Type} (act : IO α) : IO (Except FileError α) := do
  match ← act.toBaseIO with
  | .ok a => return .ok a
  | .error e => return .error (.ofMachine e)

instance : FileStore IO where
  read path := onMachine (IO.FS.readBinFile path)
  write path bytes := onMachine (IO.FS.writeBinFile path bytes)
  makeDirectory path := onMachine (IO.FS.createDir path)
  isDirectory path := do
    match ← onMachine (IO.FS.readBinFile path) with
    | .error .isDirectory => return true
    | _ => return false

end BeanForge

/-- Runs the program with the arguments of the command line. -/
def main (args : List String) : IO UInt32 := do
  let env : BeanForge.CommandLine.Environment :=
    { outputDirectory := ← IO.getEnv "MICROGEN_OUTPUT_DIR"
      logFilter := ← IO.getEnv "RUST_LOG" }
  let outcome ← BeanForge.CommandLine.run env args
  IO.print outcome.output
  IO.eprint outcome.errors
  return UInt32.ofNat outcome.exitCode
