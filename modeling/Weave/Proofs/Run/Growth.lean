import Weave.Proofs.Run.Rewriting

/-!
# Runs that grow

Runs are merged as they come. When more of them follow, all merged runs but the last are final, and
the last can only take in lines at its end.
-/

namespace Weave.Run

/-- What a run may become when more runs follow it: kind, place and language stay, and lines come
only behind those that it has. A blank run stays as it is. -/
inductive GrowsTo : Run → Run → Prop
  | doc (line : Nat) (lines more : List String) :
      GrowsTo (.doc line lines) (.doc line (lines ++ more))
  | code (line : Nat) (language : String) (lines more : List String) :
      GrowsTo (.code line language lines) (.code line language (lines ++ more))
  | blank (line : Nat) (text : String) : GrowsTo (.blank line text) (.blank line text)

theorem growsTo_extend (run : Run) (more : List String) : GrowsTo run (run.extend more) := by
  cases run with
  | doc line lines => exact .doc line lines more
  | code line language lines => exact .code line language lines more
  | blank line text => exact .blank line text

theorem merge_cons_of_apart {first next : Run} (rest : List Run)
    (apart : first.absorb? next = none) :
    merge (first :: next :: rest) = first :: merge (next :: rest) := by
  simp only [merge, mergeFrom, apart]

/-- Runs that do not merge among themselves stay as they are, whatever follows the last of them. -/
theorem merge_append_of_apart (done : List Run) (last : Run) (more : List Run)
    (apart : Apart (done ++ [last])) :
    merge (done ++ last :: more) = done ++ mergeFrom last more := by
  -- By induction on what is done: a run looks no further than its neighbour, which stays.
  induction done with
  | nil => rfl
  | cons first rest ih =>
    have behind := ih (List.IsChain.tail apart)
    -- The neighbour of the first is the last run, where no other stands between them.
    cases rest with
    | nil =>
      have neighbours : first.absorb? last = none := (List.isChain_cons_cons.mp apart).1
      exact merge_cons_of_apart more neighbours
    | cons next rest =>
      have neighbours : first.absorb? next = none := (List.isChain_cons_cons.mp apart).1
      rw [List.cons_append, List.cons_append, merge_cons_of_apart _ neighbours]
      exact congrArg (first :: ·) behind

/-- Runs that are merged have a last one, and it is the only one that changes when more runs follow:
those before it stay, and in its place stands what it has grown to. -/
theorem merge_append_grows (runs : List Run) (filled : runs ≠ []) :
    (∃ done last, merge runs = done ++ [last]) ∧
    ∀ done last, merge runs = done ++ [last] →
      ∀ more, ∃ grown behind,
        merge (runs ++ more) = done ++ grown :: behind ∧ GrowsTo last grown := by
  constructor
  · obtain ⟨first, rest, rfl⟩ := List.exists_cons_of_ne_nil filled
    have merged := mergeFrom_ne_nil first rest
    exact ⟨_, _, (List.dropLast_append_getLast merged).symm⟩
  · intro done last merged more
    have apart : Apart (done ++ [last]) := merged ▸ apart_merge runs
    have together : merge (runs ++ more) = done ++ mergeFrom last more := by
      rw [← merge_merge_append, merged, List.append_assoc, List.singleton_append,
        merge_append_of_apart done last more apart]
    -- What the last run takes in stands behind its own lines.
    obtain ⟨lines, behind, equal⟩ := mergeFrom_eq_cons last more
    exact ⟨last.extend lines, behind, by rw [together, equal], growsTo_extend last lines⟩

/-- Code of another language and the documentation before it are final; the code takes in a blank
line and a line of its own language, and what follows stands behind it. -/
theorem merge_append_grows_code :
    let runs := [doc 1 ["a"], code 2 "js" ["f("], code 3 "ls" ["g"]]
    let more := [blank 4 "", code 9 "ls" ["h"], code 5 "js" [")"], blank 6 " "]
    runs ≠ [] ∧ merge runs = [doc 1 ["a"], code 2 "js" ["f("]] ++ [code 3 "ls" ["g"]] ∧
      (∃ grown behind, merge (runs ++ more) = [doc 1 ["a"], code 2 "js" ["f("]] ++ grown :: behind ∧
        GrowsTo (code 3 "ls" ["g"]) grown) ∧
      merge (runs ++ more) = [doc 1 ["a"], code 2 "js" ["f("], code 3 "ls" ["g", "", "h"],
        code 5 "js" [")", " "]] := by
  intro runs more
  have filled : runs ≠ [] := List.cons_ne_nil _ _
  have merged : merge runs = [doc 1 ["a"], code 2 "js" ["f("]] ++ [code 3 "ls" ["g"]] := by decide
  exact ⟨filled, merged, (merge_append_grows runs filled).2 _ _ merged more, by decide⟩

end Weave.Run
