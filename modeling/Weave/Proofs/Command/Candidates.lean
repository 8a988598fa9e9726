import Weave.Proofs.Command.Stages

/-!
# Candidates for the configuration

A configuration that is named is the only candidate. Otherwise the first of the usual places decides
at which there is anything, and the default where there is nothing. The candidate that decides may
turn out to hold no configuration; no other one is looked at for that. What a path leads to depends
only on the places on its way, so nothing that is changed behind the deciding candidate is noticed.
-/

namespace Weave.Command

namespace FileTree

variable {before after : FileTree}

/-! ### What is looked at on the way of a path -/

/-- The places on the way that the parts of a path lead, from a place on. -/
def trail (place : Place) : List String → List Place
  | [] => [place]
  | part :: rest => place :: trail (child place part) rest

/-- The places on the way of a path. -/
def placesOn (path : String) : List Place :=
  trail (start path) (Path.parts path)

/-- The place at the end of a path. -/
def spot (path : String) : Place :=
  (Path.parts path).foldl child (start path)

theorem walk_eq_of_trail {place : Place} {parts : List String}
    (same : ∀ other ∈ trail place parts, after.get? other = before.get? other) :
    after.walk place parts = before.walk place parts := by
  induction parts generalizing place with
  | nil => rfl
  | cons part rest ih =>
    obtain ⟨here, further⟩ := List.forall_mem_cons.mp same
    -- Whether the walk goes on is decided by what is at the place that it has reached.
    rw [walk, walk, here, ih further]

/-- A walk that comes through ends where the parts of its path lead. -/
theorem walk_eq_ok {tree : FileTree} {place finish : Place} {parts : List String}
    (walked : tree.walk place parts = .ok finish) : finish = parts.foldl child place := by
  induction parts generalizing place with
  | nil => exact (Except.ok.inj walked).symm
  | cons part rest ih =>
    rw [walk] at walked
    split at walked
    · contradiction
    · contradiction
    · exact ih walked

theorem foldl_child_mem_trail (place : Place) (parts : List String) :
    parts.foldl child place ∈ trail place parts := by
  induction parts generalizing place with
  | nil => exact List.mem_singleton_self place
  | cons part rest ih => exact List.mem_cons_of_mem place (ih (child place part))

/-- Trees that hold the same on the way of a path hold the same at its end. -/
theorem find_eq_of_placesOn {path : String}
    (same : ∀ place ∈ placesOn path, after.get? place = before.get? place) :
    after.find path = before.find path := by
  have walked : after.walk (start path) (Path.parts path) =
      before.walk (start path) (Path.parts path) := walk_eq_of_trail same
  unfold find
  rw [walked]
  cases reached : before.walk (start path) (Path.parts path) with
  | error e => rfl
  | ok finish =>
    obtain rfl : finish = spot path := walk_eq_ok reached
    have last := same (spot path) (foldl_child_mem_trail (start path) (Path.parts path))
    simp only [bind, Except.bind, last]

theorem contains_eq_of_find {path : String} (same : after.find path = before.find path) :
    after.contains path = before.contains path := by
  rw [contains, contains, same]

theorem configurationAt_eq_of_find {path : String} (same : after.find path = before.find path) :
    after.configurationAt path = before.configurationAt path := by
  have read : after.read path = before.read path := by
    unfold FileTree.read
    rw [same]
  rw [configurationAt, configurationAt, contains_eq_of_find same, read]

/-- A file gives a configuration exactly when it can be read and holds one. -/
theorem configurationAt_eq_ok_iff (tree : FileTree) (path : String) (c : Configuration) :
    tree.configurationAt path = .ok c ↔
      ∃ text, tree.read path = .ok text ∧ Configuration.ofString? text = some c := by
  unfold configurationAt
  split
  next there =>
    cases read : tree.read path with
    | error e => simp
    | ok text => cases held : Configuration.ofString? text <;> simp [held]
  next missing =>
    -- What is not there cannot be read either.
    have unread : ∀ text, tree.read path ≠ .ok text := by
      intro text
      unfold contains at missing
      unfold FileTree.read
      cases found : tree.find path with
      | error e => simp
      | ok node => simp [found, Except.isOk, Except.toBool] at missing
    simp [unread]

/-- Whether two trees differ at a place and below it at most. -/
def SameOutside (top : Place) (before after : FileTree) : Prop :=
  ∀ place, ¬top <+: place → after.get? place = before.get? place

theorem sameOutside_put (tree : FileTree) (place : Place) (node : FileNode) :
    SameOutside place tree (tree.put place node) := by
  intro other outside
  have apart : other ≠ place := fun same => outside (same ▸ List.prefix_refl place)
  exact sameBut_put tree place node other apart

/-- Whether a path keeps clear of a place and of all that is below it. -/
def Avoids (path : String) (top : Place) : Prop :=
  ∀ place ∈ placesOn path, ¬top <+: place

theorem find_eq_of_avoids {path : String} {top : Place} (avoids : Avoids path top)
    (same : SameOutside top before after) : after.find path = before.find path :=
  find_eq_of_placesOn fun place member => same place (avoids place member)

end FileTree

/-! ### The search -/

/-- How a search for the configuration goes, with the places that were found empty, the candidate
that decides, if there is one, and the places that were not looked at. -/
inductive Decided (tree : FileTree) :
    (explicit : Option String) → (places earlier : List String) → (decider : Option String) →
      (later : List String) → Prop where
  | explicit (path : String) (places : List String) :
      Decided tree (some path) places [] (some path) places
  | first {earlier : List String} {path : String} (later : List String)
      (missing : ∀ place ∈ earlier, tree.contains place = false)
      (there : tree.contains path = true) :
      Decided tree none (earlier ++ path :: later) earlier (some path) later
  | default {places : List String} (missing : ∀ place ∈ places, tree.contains place = false) :
      Decided tree none places places none []

/-- Every search is decided. -/
theorem exists_decided (tree : FileTree) (explicit : Option String) (places : List String) :
    ∃ earlier decider later, Decided tree explicit places earlier decider later := by
  cases explicit with
  | some path => exact ⟨[], some path, places, .explicit path places⟩
  | none =>
    cases found : places.find? tree.contains with
    | none =>
      have missing : ∀ place ∈ places, tree.contains place = false := by
        simpa using List.find?_eq_none.mp found
      exact ⟨places, none, [], .default missing⟩
    | some path =>
      obtain ⟨there, earlier, later, rfl, missing⟩ := List.find?_eq_some_iff_append.mp found
      exact ⟨earlier, some path, later, .first later (by simpa using missing) there⟩

namespace Decided

variable {tree : FileTree} {explicit : Option String} {places earlier later : List String}
  {decider : Option String}

/-- The candidate that decides gives the configuration. -/
theorem configurationFor_eq (decided : Decided tree explicit places earlier decider later) :
    tree.configurationFor explicit places = decider.elim (.ok {}) tree.configurationAt := by
  cases decided with
  | explicit path places => rfl
  | first later missing there =>
    -- The search comes past all the places in front, as there is nothing at any of them.
    have unfound : earlier.find? tree.contains = none :=
      List.find?_eq_none.mpr fun place member => by simp [missing place member]
    simp [FileTree.configurationFor, List.find?_append, unfound, there]
  | default missing =>
    have unfound : places.find? tree.contains = none :=
      List.find?_eq_none.mpr fun place member => by simp [missing place member]
    simp [FileTree.configurationFor, unfound]

/-- A search goes the same way in any tree that holds the same where it looks. -/
theorem congr {other : FileTree} (decided : Decided tree explicit places earlier decider later)
    (same : ∀ path ∈ earlier ++ decider.toList, other.find path = tree.find path) :
    Decided other explicit places earlier decider later := by
  -- What is passed over and what decides are looked at, so the other tree has the same there.
  have contains : ∀ path ∈ earlier ++ decider.toList, other.contains path = tree.contains path :=
    fun path member => FileTree.contains_eq_of_find (same path member)
  cases decided with
  | explicit path places => exact .explicit path places
  | first later missing there =>
    refine .first later (fun place member => ?_) ?_
    · rw [contains place (List.mem_append_left _ member)]
      exact missing place member
    · rw [contains _ (List.mem_append_right _ (List.mem_singleton_self _))]
      exact there
  | default missing =>
    refine .default fun place member => ?_
    rw [contains place (List.mem_append_left _ member)]
    exact missing place member

theorem configurationFor_congr {other : FileTree}
    (decided : Decided tree explicit places earlier decider later)
    (same : ∀ path ∈ earlier ++ decider.toList, other.find path = tree.find path) :
    other.configurationFor explicit places = tree.configurationFor explicit places := by
  -- Both trees have the same candidate decide, and that is looked at in both.
  rw [decided.configurationFor_eq, (decided.congr same).configurationFor_eq]
  cases decider with
  | none => rfl
  | some path =>
    have last : path ∈ earlier ++ (some path).toList :=
      List.mem_append_right _ (List.mem_singleton_self path)
    exact FileTree.configurationAt_eq_of_find (same path last)

end Decided

/-- Loading the configuration only looks at files, and one candidate decides what it gives: the file
that is named, else the first of the usual places at which there is anything, else the default. A
file that decides gives the configuration that it holds, and if it cannot be read or holds none,
loading fails. Loading gives the same in every tree that holds the same where the search looks. So
it does when a later candidate is changed or removed, unless what the search looks at is that file
or lies below it. -/
theorem loadConfiguration_decided (explicit : Option String) (places : List String)
    (world : World) :
    (∃ earlier decider later, Decided world.files explicit places earlier decider later) ∧
    ∀ earlier decider later, Decided world.files explicit places earlier decider later →
      on (loadConfiguration explicit places) world =
        (decider.elim (.ok {}) world.files.configurationAt, world) ∧
      (∀ path ∈ decider, ∀ c, (on (loadConfiguration explicit places) world).1 = .ok c ↔
        ∃ text, world.files.read path = .ok text ∧ Configuration.ofString? text = some c) ∧
      (∀ other : World,
        (∀ path ∈ earlier ++ decider.toList, other.files.find path = world.files.find path) →
          (on (loadConfiguration explicit places) other).1 =
            (on (loadConfiguration explicit places) world).1) ∧
      ∀ candidate ∈ later,
        (∀ path ∈ earlier ++ decider.toList, FileTree.Avoids path (FileTree.spot candidate)) →
          ∀ other : World,
            FileTree.SameOutside (FileTree.spot candidate) world.files other.files →
              (on (loadConfiguration explicit places) other).1 =
                (on (loadConfiguration explicit places) world).1 := by
  refine ⟨exists_decided world.files explicit places, fun earlier decider later decided => ?_⟩
  have looks := looks_loadConfiguration explicit places
  have gives : on (loadConfiguration explicit places) world =
      (decider.elim (.ok {}) world.files.configurationAt, world) := by
    rw [looks world, ← decided.configurationFor_eq]
  -- Where the search looks the other tree agrees, so one candidate decides in both, and as it did.
  have agree (other : World)
      (same : ∀ path ∈ earlier ++ decider.toList,
        other.files.find path = world.files.find path) :
      (on (loadConfiguration explicit places) other).1 =
        (on (loadConfiguration explicit places) world).1 := by
    rw [looks other, looks world]
    exact decided.configurationFor_congr same
  refine ⟨gives, ?_, agree, ?_⟩
  · rintro path decides c
    obtain rfl := Option.mem_def.mp decides
    rw [gives]
    exact world.files.configurationAt_eq_ok_iff path c
  · intro candidate _ avoids other same
    exact agree other fun path looked =>
      FileTree.find_eq_of_avoids (avoids path looked) same

/-- A local file that is no text is not passed over, whatever becomes of the file of the user. -/
theorem loadConfiguration_decided_unreadable :
    let user := userConfiguration ".config"
    let world : World := { files := ⟨[(["folio"], .directory),
      (["folio", "config.toml"], .file .bytes), ([".config"], .directory),
      ([".config", "folio"], .directory),
      ([".config", "folio", "config.toml"], .file (.text ""))]⟩ }
    let other : World := { files := world.files.put (FileTree.spot user) (.file (.text "x =")) }
    (on (loadConfiguration none [localConfiguration, user]) world).1 =
        .error (.file .notText) ∧
      (on (loadConfiguration none [localConfiguration, user]) other).1 =
        .error (.file .notText) := by
  intro user world other
  have decided : Decided world.files none [localConfiguration, user] [] (some localConfiguration)
      [user] := by
    refine @Decided.first world.files [] localConfiguration [user] ?_ ?_
    · exact fun place member => absurd member List.not_mem_nil
    · decide +kernel
  obtain ⟨gives, -, -, unnoticed⟩ := (loadConfiguration_decided none _ world).2 _ _ _ decided
  have refused : (on (loadConfiguration none [localConfiguration, user]) world).1 =
      .error (.file .notText) := by
    rw [gives]
    decide +kernel
  refine ⟨refused, ?_⟩
  rw [← refused]
  refine unnoticed user (List.mem_singleton_self user) ?_ other ?_
  · intro path looked
    obtain rfl := List.mem_singleton.mp looked
    unfold FileTree.Avoids
    decide +kernel
  · exact FileTree.sameOutside_put world.files (FileTree.spot user) (.file (.text "x ="))

end Weave.Command
