import Weave.Command.FileTree
import Weave.Command.Options
import Weave.Configuration.Decode
import Weave.Text.Lines
import Weave.Toolchain

/-!
# Running the command

A run loads the configuration, chooses the converter, reads the input and writes the markup, in this
order; the first step that fails ends it. It is written over any monad that gives access to files:
a file system in use, or a file tree as a value.
-/

namespace Weave.Command

class FileAccess (m : Type → Type) where
  exists? : String → m Bool
  read : String → m (Except FileError String)
  write : String → String → m (Except FileError Unit)
  print : String → m (Except FileError Unit)

structure Conversion where
  /-- The language of the code blocks. -/
  language : String
  /-- The number of source lines, ended by line feeds. -/
  sourceLines : Nat
  deriving DecidableEq, Repr

/-- The place of the configuration below the working directory. -/
def localConfiguration : String := "folio/config.toml"

/-- The place of the configuration below the configuration directory of the user. -/
def userConfiguration (directory : String) : String :=
  directory ++ "/folio/config.toml"

section

variable {m : Type → Type} [Monad m] [FileAccess m]

/-- An answer of the file system as a step of a run. -/
def fileStep {α : Type} (answer : m (Except FileError α)) : ExceptT Failure m α :=
  ExceptT.mk do
    match ← answer with
    | .ok a => return .ok a
    | .error e => return .error (.file e)

def pureStep {α : Type} (result : Except Failure α) : ExceptT Failure m α :=
  ExceptT.mk (return result)

/-- The question whether a path leads to anything, as a step of a run. -/
def existsStep (path : String) : ExceptT Failure m Bool :=
  ExceptT.lift (FileAccess.exists? path)

/-- The configuration in a file, which has to be there. -/
def loadFile (path : String) : ExceptT Failure m Configuration := do
  if ← existsStep path then
    let text ← fileStep (FileAccess.read path)
    match Configuration.ofString? text with
    | some c => return c
    | none => throw (.configuration .malformed)
  else throw (.configuration (.missingFile path))

/-- The configuration in the first of some files that is there, or the default. -/
def loadFirst : List String → ExceptT Failure m Configuration
  | [] => return {}
  | path :: rest => do
    if ← existsStep path then loadFile path else loadFirst rest

/-- The configuration of a run. One that is named explicitly is the only one looked at. -/
def loadConfiguration (explicit : Option String) (places : List String) :
    ExceptT Failure m Configuration :=
  match explicit with
  | some path => loadFile path
  | none => loadFirst places

/-- The converter of a run, by the name of the language or else by the path of the input. -/
def chooseConverter (c : Configuration) (options : Options) : Except Failure Converter :=
  match options.language with
  | some name => c.converter name
  | none => c.converterFor options.input

/-- Write the markup to a file, or print it with a line feed behind it. -/
def deliver (output : Option String) (markup : String) : ExceptT Failure m Unit :=
  match output with
  | some path => fileStep (FileAccess.write path markup)
  | none => fileStep (FileAccess.print (markup ++ "\n"))

/-- Run the command. The list holds the places where a configuration is looked for. -/
def run (places : List String) (options : Options) : ExceptT Failure m Conversion := do
  let configuration ← loadConfiguration options.configuration places
  let converter ← pureStep (chooseConverter configuration options)
  let source ← fileStep (FileAccess.read options.input)
  deliver options.output (converter.convert source)
  return ⟨converter.language, Text.lineFeedCount source⟩

end

/-- A file tree and all that has been printed. A world takes whatever is printed. -/
structure World where
  files : FileTree := {}
  printed : String := ""
  deriving DecidableEq, Repr

instance : FileAccess (StateM World) where
  exists? path := do return (← get).files.contains path
  read path := do return (← get).files.read path
  write path text := do
    match (← get).files.write path text with
    | .ok files =>
      modify fun world => { world with files }
      return .ok ()
    | .error e => return .error e
  print text := do
    modify fun world => { world with printed := world.printed ++ text }
    return .ok ()

/-- Run the command on a world. -/
def runOn (places : List String) (options : Options) (world : World) :
    Except Failure Conversion × World :=
  (run places options : ExceptT Failure (StateM World) Conversion).run.run world

end Weave.Command
