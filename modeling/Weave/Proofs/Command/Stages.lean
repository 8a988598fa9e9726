import Weave.Command.Run
import Weave.Proofs.Command.FileTree
import Weave.Proofs.Text.LineCount

/-!
# The stages of a run

A run has four stages: the configuration is loaded, the converter chosen, the input read, the markup
delivered. The first three only look at the files. So a run either fails as its first failing stage
does, and then nothing has changed, or it passes all stages, and then nothing has changed but what
the markup was delivered to.
-/

namespace Weave.Command

section

variable {α β : Type}

/-- What a step gives on a world, and the world that it leaves. -/
def on (step : ExceptT Failure (StateM World) α) (world : World) : Except Failure α × World :=
  step.run.run world

theorem on_bind (step : ExceptT Failure (StateM World) α)
    (next : α → ExceptT Failure (StateM World) β) (world : World) :
    on (step >>= next) world = match on step world with
      | (.ok a, rest) => on (next a) rest
      | (.error failure, rest) => (.error failure, rest) := by
  unfold on ExceptT.run StateT.run
  simp only [bind, ExceptT.bind, ExceptT.mk, StateT.bind]
  cases step world with
  | mk result rest => cases result <;> rfl

/-! ### Looking at files -/

/-- Whether a step only looks at the files, for an answer that depends on them. -/
def Looks (step : ExceptT Failure (StateM World) α) (answer : FileTree → Except Failure α) : Prop :=
  ∀ world, on step world = (answer world.files, world)

theorem Looks.on_bind {step : ExceptT Failure (StateM World) α}
    {answer : FileTree → Except Failure α} (looks : Looks step answer)
    (next : α → ExceptT Failure (StateM World) β) (world : World) :
    on (step >>= next) world = match answer world.files with
      | .ok a => on (next a) world
      | .error failure => (.error failure, world) := by
  rw [Command.on_bind, looks world]
  cases answer world.files <;> rfl

theorem looks_pureStep (result : Except Failure α) :
    Looks (pureStep result) fun _ => result :=
  fun _ => rfl

theorem looks_existsStep (path : String) :
    Looks (existsStep path) fun tree => .ok (tree.contains path) :=
  fun _ => rfl

theorem on_fileStep (answer : StateM World (Except FileError α)) (world : World) :
    on (fileStep answer) world =
      ((answer.run world).1.mapError Failure.file, (answer.run world).2) := by
  unfold on fileStep ExceptT.run ExceptT.mk StateT.run
  simp only [bind, StateT.bind]
  cases answer world with
  | mk result rest => cases result <;> rfl

theorem looks_read (path : String) :
    Looks (fileStep (FileAccess.read path)) fun tree => (tree.read path).mapError .file :=
  fun world => on_fileStep (FileAccess.read path) world

end

/-! ### The configuration -/

namespace FileTree

/-- What a file says about the configuration. -/
def configurationAt (tree : FileTree) (path : String) : Except Failure Configuration :=
  if tree.contains path then
    match tree.read path with
    | .ok text => (Configuration.ofString? text).elim (.error (.configuration .malformed)) .ok
    | .error e => .error (.file e)
  else .error (.configuration (.missingFile path))

/-- The configuration of a run: what the file named explicitly says, or else the first one that is
there. -/
def configurationFor (tree : FileTree) (explicit : Option String) (places : List String) :
    Except Failure Configuration :=
  (explicit.or (places.find? tree.contains)).elim (.ok {}) tree.configurationAt

end FileTree

theorem looks_loadFile (path : String) :
    Looks (loadFile path) fun tree => tree.configurationAt path := by
  intro world
  rw [loadFile, (looks_existsStep path).on_bind]
  dsimp only [FileTree.configurationAt]
  split
  next there =>
    rw [(looks_read path).on_bind]
    cases world.files.read path with
    | error e => rfl
    | ok text =>
      dsimp only [Except.mapError]
      cases Configuration.ofString? text <;> rfl
  next => rfl

theorem looks_loadFirst (places : List String) :
    Looks (loadFirst places) fun tree => tree.configurationFor none places := by
  intro world
  -- The loop passes over the places that `find?` passes over.
  induction places with
  | nil => rfl
  | cons path rest ih =>
    rw [loadFirst, (looks_existsStep path).on_bind]
    dsimp only
    split
    next there =>
      rw [looks_loadFile path world]
      simp [FileTree.configurationFor, there]
    next missing =>
      rw [ih]
      simp [FileTree.configurationFor, missing]

theorem looks_loadConfiguration (explicit : Option String) (places : List String) :
    Looks (loadConfiguration explicit places) fun tree =>
      tree.configurationFor explicit places := by
  cases explicit with
  | some path => exact looks_loadFile path
  | none => exact looks_loadFirst places

/-! ### Delivery -/

/-- The markup is printed, a line feed behind it, or stands in the output file, and nothing else has
changed. -/
inductive Delivered (markup : String) (before after : World) : Option String → Prop where
  | printed (files : after.files = before.files)
      (text : after.printed = before.printed ++ markup ++ "\n") : Delivered markup before after none
  | written {path : String} {place : Place} (target : before.files.target path = .ok place)
      (content : after.files.read path = .ok markup)
      (others : before.files.SameBut place after.files)
      (silent : after.printed = before.printed) : Delivered markup before after (some path)

theorem on_deliver_none (markup : String) (world : World) :
    on (deliver none markup) world =
      (.ok (), { world with printed := world.printed ++ (markup ++ "\n") }) :=
  rfl

theorem on_deliver_some (path markup : String) (world : World) :
    on (deliver (some path) markup) world =
      match world.files.write path markup with
      | .ok files => (.ok (), { world with files })
      | .error e => (.error (.file e), world) := by
  rw [deliver, on_fileStep]
  simp only [FileAccess.write, StateT.run, bind, StateT.bind, get, getThe, MonadStateOf.get,
    StateT.get, pure]
  cases world.files.write path markup <;> rfl

theorem delivered_of_write {path markup : String} {world : World} {files : FileTree}
    (wrote : world.files.write path markup = .ok files) :
    Delivered markup world { world with files } (some path) := by
  obtain ⟨place, target, rfl⟩ := FileTree.write_eq_ok_iff.mp wrote
  obtain ⟨parent, name, leads, rfl⟩ := FileTree.leadsTo_of_target target
  exact .written target (FileTree.read_put leads markup) (FileTree.sameBut_put _ _ _) rfl

/-! ### Runs -/

/-- All that a run looks at is there. -/
structure Ready (places : List String) (options : Options) (files : FileTree)
    (c : Configuration) (converter : Converter) (source : String) : Prop where
  configuration : files.configurationFor options.configuration places = .ok c
  converter : chooseConverter c options = .ok converter
  source : files.read options.input = .ok source

/-- The failure of the first stage that fails, of those that a run goes through. -/
inductive FailsFirst (places : List String) (options : Options) (files : FileTree) :
    Failure → Prop where
  | configuration {failure : Failure}
      (here : files.configurationFor options.configuration places = .error failure) :
      FailsFirst places options files failure
  | converter {c : Configuration} {failure : Failure}
      (loaded : files.configurationFor options.configuration places = .ok c)
      (here : chooseConverter c options = .error failure) : FailsFirst places options files failure
  | input {c : Configuration} {converter : Converter} {e : FileError}
      (loaded : files.configurationFor options.configuration places = .ok c)
      (chosen : chooseConverter c options = .ok converter)
      (here : files.read options.input = .error e) : FailsFirst places options files (.file e)
  | output {c : Configuration} {converter : Converter} {source path : String} {e : FileError}
      (ready : Ready places options files c converter source) (wanted : options.output = some path)
      (here : files.write path (converter.convert source) = .error e) :
      FailsFirst places options files (.file e)

theorem failsFirst_or_ready (places : List String) (options : Options) (files : FileTree) :
    (∃ failure, FailsFirst places options files failure) ∨
    ∃ c converter source, Ready places options files c converter source := by
  cases loaded : files.configurationFor options.configuration places with
  | error failure => exact Or.inl ⟨failure, .configuration loaded⟩
  | ok c =>
    cases chosen : chooseConverter c options with
    | error failure => exact Or.inl ⟨failure, .converter loaded chosen⟩
    | ok converter =>
      cases read : files.read options.input with
      | error e => exact Or.inl ⟨.file e, .input loaded chosen read⟩
      | ok source => exact Or.inr ⟨c, converter, source, loaded, chosen, read⟩

/-- With a language named, the markup is what the toolchain makes of the source. -/
theorem Ready.convert {places : List String} {options : Options} {files : FileTree}
    {c : Configuration} {converter : Converter} {source language : String}
    (ready : Ready places options files c converter source)
    (named : options.language = some language) :
    c.convert language source = .ok (converter.convert source) := by
  have chosen : c.converter language = .ok converter := by
    simpa [chooseConverter, named] using ready.converter
  rw [Configuration.convert, chosen]

theorem runOn_eq (places : List String) (options : Options) (world : World) :
    runOn places options world =
      match world.files.configurationFor options.configuration places with
      | .error failure => (.error failure, world)
      | .ok c => match chooseConverter c options with
        | .error failure => (.error failure, world)
        | .ok converter => match world.files.read options.input with
          | .error e => (.error (.file e), world)
          | .ok source => match on (deliver options.output (converter.convert source)) world with
            | (.ok _, rest) => (.ok ⟨converter.language, Text.lineFeedCount source⟩, rest)
            | (.error failure, rest) => (.error failure, rest) := by
  change on (run places options) world = _
  -- The first three steps only look at the files, so each hands the world on as it was.
  rw [run, (looks_loadConfiguration options.configuration places).on_bind]
  cases world.files.configurationFor options.configuration places with
  | error failure => rfl
  | ok c =>
    dsimp only
    rw [(looks_pureStep (chooseConverter c options)).on_bind]
    cases chooseConverter c options with
    | error failure => rfl
    | ok converter =>
      dsimp only
      rw [(looks_read options.input).on_bind]
      cases world.files.read options.input with
      | error e => rfl
      | ok source =>
        dsimp only [Except.mapError]
        rw [on_bind]
        cases on (deliver options.output (converter.convert source)) world with
        | mk result rest => cases result <;> rfl

/-- A run that is ready comes down to its delivery. -/
theorem Ready.runOn_eq {places : List String} {options : Options} {world : World}
    {c : Configuration} {converter : Converter} {source : String}
    (ready : Ready places options world.files c converter source) :
    runOn places options world =
      match on (deliver options.output (converter.convert source)) world with
      | (.ok _, rest) => (.ok ⟨converter.language, Text.lineFeedCount source⟩, rest)
      | (.error failure, rest) => (.error failure, rest) := by
  rw [Command.runOn_eq, ready.configuration]
  dsimp only
  rw [ready.converter]
  dsimp only
  rw [ready.source]

theorem runOn_of_failsFirst {places : List String} {options : Options} {world : World}
    {failure : Failure} (fails : FailsFirst places options world.files failure) :
    runOn places options world = (.error failure, world) := by
  -- The outcomes of the stages in front of the failing one are known, so the run comes to it.
  cases fails with
  | configuration here => rw [runOn_eq, here]
  | converter loaded here =>
    rw [runOn_eq, loaded]
    dsimp only
    rw [here]
  | input loaded chosen here =>
    rw [runOn_eq, loaded]
    dsimp only
    rw [chosen]
    dsimp only
    rw [here]
  | output ready wanted here => rw [ready.runOn_eq, wanted, on_deliver_some, here]

/-- A run that is ready delivers the markup, unless the output file cannot be written. -/
theorem Ready.fails_or_delivers {places : List String} {options : Options} {world : World}
    {c : Configuration} {converter : Converter} {source : String}
    (ready : Ready places options world.files c converter source) :
    (∃ failure, FailsFirst places options world.files failure) ∨
    ∃ after,
      runOn places options world =
        (.ok ⟨converter.language, Text.lineFeedCount source⟩, after) ∧
      Delivered (converter.convert source) world after options.output := by
  cases output : options.output with
  | none =>
    refine Or.inr ⟨{ world with printed := world.printed ++ (converter.convert source ++ "\n") },
      ?_, .printed rfl String.append_assoc.symm⟩
    rw [ready.runOn_eq, output, on_deliver_none]
  | some path =>
    cases wrote : world.files.write path (converter.convert source) with
    | error e => exact Or.inl ⟨_, .output ready output wrote⟩
    | ok files =>
      refine Or.inr ⟨{ world with files }, ?_, delivered_of_write wrote⟩
      rw [ready.runOn_eq, output, on_deliver_some, wrote]

/-- A run fails as its first failing stage does, and changes nothing, or it passes all stages and
delivers the markup. -/
theorem runOn_fails_or_delivers (places : List String) (options : Options) (world : World) :
    (∃ failure, FailsFirst places options world.files failure ∧
      runOn places options world = (.error failure, world)) ∨
    ∃ c converter source after,
      Ready places options world.files c converter source ∧
      runOn places options world =
        (.ok ⟨converter.language, Text.lineFeedCount source⟩, after) ∧
      Delivered (converter.convert source) world after options.output ∧
      ∀ language ∈ options.language,
        c.convert language source = .ok (converter.convert source) := by
  rcases failsFirst_or_ready places options world.files with
    ⟨failure, fails⟩ | ⟨c, converter, source, ready⟩
  · exact Or.inl ⟨failure, fails, runOn_of_failsFirst fails⟩
  · rcases ready.fails_or_delivers with ⟨failure, fails⟩ | ⟨after, ran, delivered⟩
    · exact Or.inl ⟨failure, fails, runOn_of_failsFirst fails⟩
    · exact Or.inr ⟨c, converter, source, after, ready, ran, delivered, fun _ => ready.convert⟩

example :
    (runOn [] { input := "a.ls", output := some "./a.ls" }
      { files := ⟨[(["a.ls"], .file (.text "# b\nc"))]⟩ }).2.files =
      ⟨[(["a.ls"], .file (.text "b\n@code(language: \"livescript\" \"c\")"))]⟩ := by
  decide +kernel

/-! ### Reported lines -/

theorem sourceLines_of_runOn {places : List String} {options : Options} {world : World}
    {conversion : Conversion} (ran : (runOn places options world).1 = .ok conversion) :
    ∃ source, world.files.read options.input = .ok source ∧
      conversion.sourceLines = Text.lineFeedCount source := by
  rcases failsFirst_or_ready places options world.files with
    ⟨failure, fails⟩ | ⟨c, converter, source, ready⟩
  · rw [runOn_of_failsFirst fails] at ran
    contradiction
  · rcases ready.fails_or_delivers with ⟨failure, fails⟩ | ⟨after, delivered, -⟩
    · rw [runOn_of_failsFirst fails] at ran
      contradiction
    · rw [delivered] at ran
      obtain rfl := Except.ok.inj ran
      exact ⟨source, ready.source, rfl⟩

/-- A run reports as many lines as the converter cuts the input into, less those that end in a
carriage return alone. -/
theorem runOn_sourceLines {places : List String} {options : Options} {world : World}
    {conversion : Conversion} (ran : (runOn places options world).1 = .ok conversion) :
    ∃ source, world.files.read options.input = .ok source ∧
      (Text.cutLines source).length =
        conversion.sourceLines + Text.loneReturns source.toList ∧
      (conversion.sourceLines = (Text.cutLines source).length ↔ Text.Paired source) := by
  obtain ⟨source, read, reported⟩ := sourceLines_of_runOn ran
  have counted := Text.length_cutLines source
  -- The counts differ by the lone carriage returns, so they agree when there are none.
  refine ⟨source, read, by omega, ?_⟩
  rw [Text.Paired, ← Text.loneReturns_eq_zero_iff]
  omega

theorem runOn_sourceLines_paired_returns :
    let world : World := { files := ⟨[(["a.ls"], .file (.text "# a\r\nx\r"))]⟩ }
    ∃ source, world.files.read "a.ls" = .ok source ∧
      (Text.cutLines source).length = 2 + Text.loneReturns source.toList ∧
      (2 = (Text.cutLines source).length ↔ Text.Paired source) := by
  intro world
  have ran : (runOn [] { input := "a.ls" } world).1 = .ok ⟨"livescript", 2⟩ := by decide +kernel
  exact runOn_sourceLines ran

theorem runOn_sourceLines_lone_return :
    let world : World := { files := ⟨[(["a.js"], .file (.text "// a\rx"))]⟩ }
    (runOn [] { input := "a.js" } world).1 = .ok ⟨"js", 1⟩ ∧
      (Text.cutLines "// a\rx").length = 2 := by
  intro world
  exact ⟨by decide +kernel, by decide +kernel⟩

end Weave.Command
