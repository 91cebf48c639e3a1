import BeanForge.Session
/-!
# The command line

Which invocations are accepted and what each does: `parse` reads the arguments from left to
right, so the first thing that is wrong, or asks for the version, decides; `run` carries an
accepted invocation out over a store of files and says what is printed.
-/
namespace BeanForge.CommandLine

/-- The name and version that the program reports. -/
def versionText : String := "microgen 0.1.0"

/-- How the program is called. -/
def usage : String :=
  Text.lines
    ["Usage: microgen [OPTIONS] <bean|qtbean|factory> <INPUT> <OUTPUT_DIR>",
      "",
      "Options:",
      "      --stem <STEM>  File stem of the generated sources, else that of the input",
      "      --emit-ir      Print the code model as JSON instead of writing sources",
      "  -q, --quiet        Suppress all output but errors",
      "  -h, --help         Print help",
      "  -V, --version      Print version"]

structure Environment where
  outputDirectory : Option String := none
  logFilter : Option String := none

structure Request where
  target : Target
  input : String
  output : String
  stem : Option String := none
  emitModel : Bool := false
  quiet : Bool := false
  deriving DecidableEq, Repr

/-- What an invocation asks for. -/
inductive Invocation where
  | version
  | help
  | misuse
  | request (r : Request)
  deriving DecidableEq, Repr

structure Arguments where
  target : Option Target := none
  input : Option String := none
  output : Option String := none
  stem : Option String := none
  emitModel : Bool := false
  quiet : Bool := false

namespace Arguments

/-- Adds an argument that is not an option. -/
def addPlain? (a : Arguments) (arg : String) : Option Arguments :=
  match a.target, a.input, a.output with
  | none, _, _ => (Target.ofText? arg).map fun t => { a with target := some t }
  | some _, none, _ => if arg.isEmpty then none else some { a with input := some arg }
  | some _, some _, none => if arg.isEmpty then none else some { a with output := some arg }
  | some _, some _, some _ => none

/-- Sets the stem, which may be given once. -/
def setStem? (a : Arguments) (stem : String) : Option Arguments :=
  if a.stem.isSome then none else some { a with stem := some stem }

/-- Asks for the model, which may be done once. -/
def setEmit? (a : Arguments) : Option Arguments :=
  if a.emitModel then none else some { a with emitModel := true }

/-- Asks for less output, which may be done once. -/
def setQuiet? (a : Arguments) : Option Arguments :=
  if a.quiet then none else some { a with quiet := true }

/-- What the arguments ask for when all of them are read. -/
def finish (env : Environment) (a : Arguments) : Invocation :=
  match a.target, a.input, a.output <|> env.outputDirectory with
  | some target, some input, some output =>
    if output.isEmpty then .misuse
    else .request ⟨target, input, output, a.stem, a.emitModel, a.quiet⟩
  | _, _, _ => .misuse

end Arguments

/-- Whether an argument looks like an option. -/
def isOption (arg : String) : Bool :=
  arg.toList.head? == some '-' && arg != "-"

/-- A long option and the value attached to it. -/
def splitLong (arg : String) : String × Option String :=
  match Text.split '=' arg with
  | [] => (arg, none)
  | [name] => (name, none)
  | name :: values => (name, some (Text.join "=" values))

/-- Reads the letters after a single dash. -/
def readLetters (a : Arguments) : List Char → Except Invocation Arguments
  | [] => .ok a
  | 'q' :: letters =>
    match a.setQuiet? with
    | some a => readLetters a letters
    | none => .error .misuse
  | 'V' :: _ => .error .version
  | 'h' :: _ => .error .help
  | _ => .error .misuse

/-- Reads arguments none of which is an option any more. -/
def readPlain (a : Arguments) : List String → Except Invocation Arguments
  | [] => .ok a
  | arg :: args =>
    match a.addPlain? arg with
    | some a => readPlain a args
    | none => .error .misuse

def readArguments (a : Arguments) : List String → Except Invocation Arguments
  | [] => .ok a
  | arg :: args =>
    if arg = "--" then readPlain a args
    else if arg.startsWith "--" then
      match splitLong arg, args with
      | ("--stem", some stem), args =>
        match a.setStem? stem with
        | some a => readArguments a args
        | none => .error .misuse
      | ("--stem", none), stem :: args =>
        match if isOption stem then none else a.setStem? stem with
        | some a => readArguments a args
        | none => .error .misuse
      | ("--emit-ir", none), args =>
        match a.setEmit? with
        | some a => readArguments a args
        | none => .error .misuse
      | ("--quiet", none), args =>
        match a.setQuiet? with
        | some a => readArguments a args
        | none => .error .misuse
      | ("--version", none), _ => .error .version
      | ("--help", none), _ => .error .help
      | _, _ => .error .misuse
    else if isOption arg then
      match readLetters a (arg.toList.drop 1) with
      | .ok a => readArguments a args
      | .error i => .error i
    else
      match a.addPlain? arg with
      | some a => readArguments a args
      | none => .error .misuse

/-- What an invocation asks for. -/
def parse (env : Environment) (args : List String) : Invocation :=
  match readArguments {} args with
  | .ok a => a.finish env
  | .error i => i

/-- The lines to show: what the environment says, or else all but the details, and only
warnings if little output is asked for. -/
def filter (env : Environment) (quiet : Bool) : Log.Filter :=
  match env.logFilter.bind Log.Filter.ofText? with
  | some f => f
  | none => some (if quiet then .warn else .info)

/-- The stem of the generated files: the one asked for, or else that of the input. An input without
a stem would leave the name of the bean, in lower case as far as it is written in ASCII. -/
def Request.fileStem (r : Request) (beanName : Option String) : String :=
  r.stem.getD ((FilePath.stem? r.input <|> beanName.map String.toLower).getD "bean")

section

variable {m : Type → Type} [Monad m] [FileStore m]

/-- Does what is asked for and returns what to print. -/
def perform (r : Request) : Session m String := do
  Session.log .info "loading schema" [("path", r.input)]
  let document ← Session.loadDocument r.input
  let schema ← Session.checkDocument document r.target
  let model ← Session.buildModel schema r.target
  if r.emitModel then
    return Text.line model.emit
  let summary ← Session.generate model (r.fileStem document.name) r.output
  Session.log .info "done"
    [("target", r.target.text), ("files", toString summary.files),
      ("classes", toString summary.classes)]
  return ""

structure Outcome where
  exitCode : Nat
  output : String := ""
  errors : String := ""
  deriving DecidableEq, Repr

def run (env : Environment) (args : List String) : m Outcome := do
  match parse env args with
  | .version => return ⟨0, Text.line versionText, ""⟩
  | .help => return ⟨0, usage, ""⟩
  | .misuse => return ⟨2, "", usage⟩
  | .request r =>
    let (result, entries) ← ((perform r).run.run [])
    let lines := Log.render (filter env r.quiet) entries
    match result with
    | .ok output => return ⟨0, output, lines⟩
    | .error f => return ⟨1, "", lines ++ f.report⟩

end

end BeanForge.CommandLine
