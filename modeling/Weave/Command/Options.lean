/-!
# Options of the command

The command takes one input and a few options with a value. The value of an option is attached to it
or is the next argument. An option waits for its value, and for the check that it stands there once,
until the next option or the input has been recognised, so a fault in what comes next is reported
first.
-/

namespace Weave.Command

/-- What the command is asked to do. -/
structure Options where
  input : String
  output : Option String := none
  language : Option String := none
  configuration : Option String := none
  logLevel : String := "info"
  deriving DecidableEq, Repr

inductive OptionName where
  | output
  | language
  | configuration
  | logLevel
  deriving DecidableEq, Repr

/-- Why the arguments ask for nothing that can be done. -/
inductive UsageError where
  | missingInput
  | unknownArgument (text : String)
  | missingValue (option : OptionName)
  | repeatedOption (option : OptionName)
  | unexpectedValue (text : String)
  | helpWanted
  | versionWanted
  deriving DecidableEq, Repr

/-- What a name on the command line stands for. -/
inductive Switch where
  | option (name : OptionName)
  | help
  | version
  deriving DecidableEq, Repr

def longSwitch? : String → Option Switch
  | "output" => some (.option .output)
  | "language" => some (.option .language)
  | "config" => some (.option .configuration)
  | "log-level" => some (.option .logLevel)
  | "help" => some .help
  | "version" => some .version
  | _ => none

def shortSwitch? : Char → Option Switch
  | 'o' => some (.option .output)
  | 'l' => some (.option .language)
  | 'c' => some (.option .configuration)
  | 'h' => some .help
  | 'V' => some .version
  | _ => none

structure ArgumentReader where
  input : Option String := none
  /-- The options whose value is settled. -/
  settled : List (OptionName × String) := []
  /-- An option that waits, with its value if that has come. -/
  waiting : Option (OptionName × Option String) := none
  /-- Whether all that follows is input. -/
  plain : Bool := false

namespace ArgumentReader

def settle (r : ArgumentReader) (option : OptionName) (value : String) :
    Except UsageError ArgumentReader :=
  if r.settled.any (·.1 == option) then .error (.repeatedOption option)
  else .ok { r with settled := r.settled ++ [(option, value)] }

def release (r : ArgumentReader) : Except UsageError ArgumentReader :=
  match r.waiting with
  | none => .ok r
  | some (option, none) => .error (.missingValue option)
  | some (option, some value) => settle { r with waiting := none } option value

/-- Take a switch with the value attached to it, if there is one. -/
def switch (r : ArgumentReader) (text : String) (switch : Switch) (value : Option String) :
    Except UsageError ArgumentReader :=
  match switch, value with
  | .option name, some value => do (← r.release).settle name value
  | .option name, none => do return { ← r.release with waiting := some (name, none) }
  | _, some _ => .error (.unexpectedValue text)
  | .help, none => do
    let _ ← r.release
    .error .helpWanted
  | .version, none => do
    let _ ← r.release
    .error .versionWanted

def plainArgument (r : ArgumentReader) (text : String) : Except UsageError ArgumentReader :=
  match r.waiting, r.plain with
  | some (option, none), false => .ok { r with waiting := some (option, some text) }
  | _, _ =>
    if r.input.isSome then .error (.unknownArgument text)
    else do return { ← r.release with input := some text }

/-- Take one argument. Of a short option all that stands behind its letter is the value, a leading
equals sign left out. -/
def step (r : ArgumentReader) (text : String) : Except UsageError ArgumentReader :=
  if r.plain then r.plainArgument text
  else match text.toList with
    | ['-', '-'] => .ok { r with plain := true }
    | '-' :: '-' :: rest =>
      let value := match rest.dropWhile (· != '=') with
        | _ :: value => some (String.ofList value)
        | [] => none
      match longSwitch? (String.ofList (rest.takeWhile (· != '='))) with
      | some s => r.switch text s value
      | none => .error (.unknownArgument text)
    | '-' :: letter :: rest =>
      match shortSwitch? letter, rest with
      | none, _ => .error (.unknownArgument text)
      | some (.option name), [] => r.switch text (.option name) none
      | some (.option name), '=' :: value => r.switch text (.option name) (String.ofList value)
      | some (.option name), value => r.switch text (.option name) (String.ofList value)
      | some s, _ => r.switch text s none
    | _ => r.plainArgument text

def value? (r : ArgumentReader) (option : OptionName) : Option String :=
  (r.settled.find? (·.1 == option)).map Prod.snd

def finish (r : ArgumentReader) : Except UsageError Options := do
  let r ← r.release
  match r.input with
  | none => .error .missingInput
  | some input => return {
      input
      output := r.value? .output
      language := r.value? .language
      configuration := r.value? .configuration
      logLevel := (r.value? .logLevel).getD "info" }

def readAll (r : ArgumentReader) : List String → Except UsageError Options
  | [] => r.finish
  | text :: rest =>
    match r.step text with
    | .ok r => readAll r rest
    | .error e => .error e

end ArgumentReader

/-- Read the arguments of the command. -/
def Options.ofArguments (arguments : List String) : Except UsageError Options :=
  ArgumentReader.readAll {} arguments

end Weave.Command
