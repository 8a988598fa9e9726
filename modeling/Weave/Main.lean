import Weave.Command.Run

/-!
# The command

Runs the command on the files of the system.
-/

namespace Weave.Command

/-- Whether an error has a number, which some calls of the system give negated. -/
def hasNumber (code number : UInt32) : Bool :=
  code == number || code == -number

def fileError (e : IO.Error) : FileError :=
  match e with
  | .noFileOrDirectory .. => .notFound
  | .inappropriateType _ code _ =>
    if hasNumber code 20 then .notADirectory
    else if hasNumber code 21 then .isADirectory
    else .other (toString e)
  | _ => .other (toString e)

instance : FileAccess IO where
  -- A path that cannot be followed leads to nothing, also where a directory on its way may not be
  -- searched. A file that may not be read is there all the same.
  exists? path := do
    try
      let _ ← IO.FS.realPath path
      return true
    catch _ => return false
  read path := do
    try
      match String.fromUTF8? (← IO.FS.readBinFile path) with
      | some text => return .ok text
      | none => return .error .notText
    catch e => return .error (fileError e)
  write path text := do
    try
      IO.FS.writeFile path text
      return .ok ()
    catch e => return .error (fileError e)
  -- Only what has left the buffer is printed.
  print text := do
    try
      let output ← IO.getStdout
      output.putStr text
      output.flush
      return .ok ()
    catch e => return .error (fileError e)

/-- How the command is called. -/
def usage : String :=
  "Usage: folio [OPTIONS] <INPUT>\n\n" ++
  "  -o, --output <FILE>    write the markup to a file\n" ++
  "  -l, --language <NAME>  the language of the input\n" ++
  "  -c, --config <FILE>    the configuration\n" ++
  "      --log-level <LEVEL>\n" ++
  "  -h, --help\n" ++
  "  -V, --version\n"

def UsageError.message : UsageError → String
  | missingInput => "an input file is required"
  | unknownArgument text => s!"unexpected argument `{text}`"
  | missingValue _ => "an option lacks its value"
  | repeatedOption _ => "an option is given more than once"
  | unexpectedValue text => s!"`{text}` takes no value"
  | helpWanted => usage
  | versionWanted => "folio 0.1.0"

/-- The places where a configuration is looked for. -/
def configurationPlaces : IO (List String) := do
  let directory ← match ← IO.getEnv "XDG_CONFIG_HOME" with
    | some directory => pure (some directory)
    | none => pure ((← IO.getEnv "HOME").map (· ++ "/.config"))
  return localConfiguration :: (directory.map userConfiguration).toList

/-- Call the command and give its exit code. -/
def call (arguments : List String) : IO UInt32 := do
  match Options.ofArguments arguments with
  | .error .helpWanted => IO.print usage; return 0
  | .error .versionWanted => IO.println UsageError.versionWanted.message; return 0
  | .error e => IO.eprintln e.message; return 2
  | .ok options =>
    match ← (run (← configurationPlaces) options : ExceptT Failure IO Conversion).run with
    | .ok _ => return 0
    | .error failure =>
      let report := failure.report
      IO.eprintln s!"{report.code}: {report.text}"
      match report.help with
      | some help => IO.eprintln s!"help: {help}"
      | none => pure ()
      return 1

end Weave.Command

def main (arguments : List String) : IO UInt32 :=
  Weave.Command.call arguments
