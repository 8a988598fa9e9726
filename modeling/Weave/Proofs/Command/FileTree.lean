import Weave.Command.FileTree

/-!
# Writing to a file tree

A file that has been written is read back under the path it was written to, and a write changes the
place of that file only. No path leads through the place of a file, so the paths that led somewhere
before a write still lead there.
-/

namespace Weave

namespace Path

private theorem notMem_of_mem_splitOn (c : Char) (cs : List Char) :
    ∀ part ∈ cs.splitOn c, c ∉ part := by
  induction cs with
  | nil => simp [List.splitOn]
  | cons d cs ih =>
    simp only [List.splitOn, List.splitOnP_cons_eq_if_modifyHead] at ih ⊢
    intro part member
    split at member
    · rcases List.mem_cons.mp member with rfl | member
      · exact List.not_mem_nil
      · exact ih part member
    next other =>
      -- The character in front joins the first part, which is the only one that changes.
      cases split : List.splitOnP (· == c) cs with
      | nil => exact absurd split (List.splitOnP_ne_nil _ _)
      | cons first rest =>
        rw [split] at member ih
        rcases List.mem_cons.mp member with rfl | member
        · have apart : c ≠ d := fun same => other (by simp [same])
          have free := ih first List.mem_cons_self
          simp [apart, free]
        · exact ih part (List.mem_cons_of_mem _ member)

/-- The parts of a path are divided by every slash. -/
theorem ne_slash_of_mem_parts {path part : String} (member : part ∈ parts path) : part ≠ "/" := by
  rintro rfl
  obtain ⟨text, found, same⟩ := List.mem_map.mp (List.mem_filter.mp member).1
  have slash : text = ['/'] := by
    simpa using congrArg String.toList same
  exact notMem_of_mem_splitOn '/' path.toList text found (by simp [slash])

end Path

namespace Command.FileTree

/-- Whether two trees differ at one place at most. -/
def SameBut (place : Place) (before after : FileTree) : Prop :=
  ∀ other, other ≠ place → after.get? other = before.get? other

theorem sameBut_put (tree : FileTree) (place : Place) (node : FileNode) :
    SameBut place tree (tree.put place node) := by
  intro other apart
  -- Only what stood at the place is filtered out, and the search is for another place.
  have behind :
      (tree.nodes.filter fun held => held.1 != place).find? (fun held => held.1 == other) =
        tree.nodes.find? fun held => held.1 == other := by
    rw [List.find?_filter]
    congr 1
    funext held
    by_cases same : held.1 = other
    · simp [same, apart]
    · simp [same]
  have found : (tree.put place node).nodes.find? (fun held => held.1 == other) =
      tree.nodes.find? fun held => held.1 == other := by
    rw [put, List.find?_cons_of_neg (by simpa using Ne.symm apart)]
    exact behind
  exact congrArg (fun node? => if isTop other then some .directory else node?.map Prod.snd) found

theorem get?_put (tree : FileTree) (place : Place) (node : FileNode) (below : isTop place = false) :
    (tree.put place node).get? place = some node := by
  simp [get?, put, below]

variable {tree : FileTree} {place parent : Place} {node : FileNode}

/-- A walk does not lead through a place that is no directory, so it stays the same whatever is put
there. -/
theorem walk_put {begin finish : Place} {parts : List String}
    (closed : tree.get? place ≠ some .directory) (walked : tree.walk begin parts = .ok finish) :
    (tree.put place node).walk begin parts = .ok finish := by
  induction parts generalizing begin with
  | nil => exact walked
  | cons part rest ih =>
    rw [walk] at walked ⊢
    split at walked
    · contradiction
    · contradiction
    next opened =>
      -- The walk goes on from a directory, which the place is not.
      have apart : begin ≠ place := fun same => closed (same ▸ opened)
      rw [sameBut_put tree place node begin apart, opened]
      exact ih walked

theorem walk_concat {begin : Place} {parts : List String} (name : String)
    (walked : tree.walk begin parts = .ok parent) (opened : tree.get? parent = some .directory) :
    tree.walk begin (parts ++ [name]) = .ok (child parent name) := by
  induction parts generalizing begin with
  | nil =>
    obtain rfl := Except.ok.inj walked
    rw [List.nil_append, walk, opened]
    rfl
  | cons part rest ih =>
    rw [walk] at walked
    rw [List.cons_append, walk]
    split at walked
    · contradiction
    · contradiction
    next => exact ih walked

/-- How a path leads to the place where it has a file written: through the directories before its
last part, which is a name for a file in the last of them. -/
structure LeadsTo (tree : FileTree) (path : String) (parent : Place) (name : String) : Prop where
  walked : ∃ before, Path.parts path = before ++ [name] ∧
    tree.walk (start path) before = .ok parent
  opened : tree.get? parent = some .directory
  named : name ≠ "." ∧ name ≠ ".."
  unslashed : Path.endsInSlash path = false
  closed : tree.get? (parent ++ [name]) ≠ some .directory

theorem leadsTo_of_target {path : String} (found : tree.target path = .ok place) :
    ∃ parent name, LeadsTo tree path parent name ∧ place = parent ++ [name] := by
  -- Each test that the target has passed is one of the fields; a failed one contradicts it.
  unfold target at found
  split at found
  · contradiction
  next name last =>
    obtain ⟨before, parts⟩ := List.getLast?_eq_some_iff.mp last
    rw [parts, List.dropLast_concat] at found
    cases walked : tree.walk (start path) before with
    | error e => simp [walked, bind, Except.bind] at found
    | ok parent =>
      simp only [walked, bind, Except.bind] at found
      split at found
      · contradiction
      · contradiction
      next opened =>
        simp only [Bool.or_eq_true, decide_eq_true_eq] at found
        split at found
        · contradiction
        next fit =>
          split at found
          · contradiction
          next closed =>
            simp only [not_or, Bool.not_eq_true] at fit
            exact ⟨parent, name, ⟨⟨before, parts, walked⟩, opened, fit.1, fit.2, closed⟩,
              (Except.ok.inj found).symm⟩

/-- A name in a directory is not one of the places that are always there. -/
theorem LeadsTo.isTop_eq_false {path name : String} (leads : LeadsTo tree path parent name) :
    isTop (parent ++ [name]) = false := by
  obtain ⟨before, parts, -⟩ := leads.walked
  have member : name ∈ Path.parts path := by simp [parts]
  have whole := Path.ne_slash_of_mem_parts member
  have apart : parent ++ [name] ≠ ["/"] := by
    intro same
    have snoc : parent ++ [name] = [] ++ ["/"] := same
    obtain ⟨-, last⟩ := List.append_inj' snoc rfl
    exact whole (List.singleton_inj.mp last)
  simp [isTop, leads.named.2, apart]

/-- A file that has been written is read back under its path. -/
theorem read_put {path name : String} (leads : LeadsTo tree path parent name) (text : String) :
    (tree.put (parent ++ [name]) (.file (.text text))).read path = .ok text := by
  obtain ⟨before, parts, walked⟩ := leads.walked
  have inside : parent ≠ parent ++ [name] := by simp
  -- The parent, and the walk to it, stay as they were when a file is put below.
  have opened := (sameBut_put tree (parent ++ [name]) (.file (.text text)) parent inside).trans
    leads.opened
  have reached := walk_concat name (walk_put leads.closed walked) opened
  have here : child parent name = parent ++ [name] := by simp [child, leads.named]
  rw [here, ← parts] at reached
  have filled : path ≠ "" := by
    rintro rfl
    have none : Path.parts "" = [] := by decide
    simp [none] at parts
  simp [read, find, filled, reached, bind, Except.bind,
    get?_put tree _ (.file (.text text)) leads.isTop_eq_false, leads.unslashed]

theorem write_eq_ok_iff {path text : String} {after : FileTree} :
    tree.write path text = .ok after ↔
      ∃ place, tree.target path = .ok place ∧ after = tree.put place (.file (.text text)) := by
  unfold write
  cases tree.target path <;> simp [eq_comm]

end Command.FileTree

end Weave
