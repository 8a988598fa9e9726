import Mathlib.Data.List.Chain
import Mathlib.Logic.Relation
import Weave.Proofs.Run.Merging

/-!
# Merging in any order

Two neighbours that merge may be replaced by the run made of them anywhere in a list. Such steps
come to an end in whatever order they are taken, and what they end in is what merging from left to
right gives.
-/

namespace Weave.Run

open Relation

/-- Some two neighbours are replaced by the run that they merge to. -/
inductive Joining : List Run → List Run → Prop
  | pair (before : List Run) {first second grown : Run} (after : List Run)
      (merged : first.absorb? second = some grown) :
      Joining (before ++ first :: second :: after) (before ++ grown :: after)

/-- No two neighbours merge. -/
def Apart (runs : List Run) : Prop :=
  runs.IsChain fun first second => first.absorb? second = none

theorem absorb?_eq_none_iff (first second : Run) :
    first.absorb? second = none ↔ first.takes second = false := by
  rw [absorb?_eq]
  cases first.takes second <;> simp

/-! ### One step -/

theorem Joining.length {runs next : List Run} (step : Joining runs next) :
    next.length + 1 = runs.length := by
  cases step with
  | pair before after merged =>
    simp only [List.length_append, List.length_cons]
    omega

theorem Joining.cons (run : Run) {runs next : List Run} (step : Joining runs next) :
    Joining (run :: runs) (run :: next) := by
  cases step with
  | pair before after merged => exact .pair (run :: before) after merged

/-- Joining two neighbours does not change what a list merges to. -/
theorem Joining.merge_eq {runs next : List Run} (step : Joining runs next) :
    merge next = merge runs := by
  cases step with
  | @pair before first second grown after merged =>
    -- Behind the runs before it, the pair is what merging from its first would take in anyway.
    have pair : merge (grown :: after) = merge (first :: second :: after) := by
      simp only [merge, mergeFrom, merged]
    rw [merge_append before, pair, ← merge_append before]

theorem not_joining_of_apart {runs next : List Run} (apart : Apart runs) : ¬Joining runs next := by
  rintro (⟨before, after, merged⟩)
  have none_merges := List.isChain_iff_forall_rel_of_append_cons_cons.mp apart rfl
  rw [merged] at none_merges
  contradiction

/-! ### All steps -/

theorem joining_terminates : WellFounded fun next runs => Joining runs next := by
  refine Subrelation.wf ?_ (measure List.length).wf
  intro next runs step
  have shorter := step.length
  exact show next.length < runs.length by omega

theorem merge_eq_of_joinings {runs result : List Run} (steps : ReflTransGen Joining runs result) :
    merge result = merge runs := by
  induction steps with
  | refl => rfl
  | tail _ step ih => rw [step.merge_eq, ih]

private theorem joinings_mergeFrom (last : Run) (rest : List Run) :
    ReflTransGen Joining (last :: rest) (mergeFrom last rest) := by
  -- A run that takes in the next one is the first step; any other run stays before all steps.
  induction rest generalizing last with
  | nil => exact .refl
  | cons next rest ih =>
    simp only [mergeFrom]
    split
    next grown merged => exact .head (.pair [] rest merged) (ih grown)
    next => exact (ih next).lift (last :: ·) fun _ _ step => step.cons last

/-- Merging from left to right is one way to join neighbours. -/
theorem joinings_merge (runs : List Run) : ReflTransGen Joining runs (merge runs) := by
  cases runs with
  | nil => exact .refl
  | cons first rest => exact joinings_mergeFrom first rest

private theorem apart_mergeFrom (last : Run) (rest : List Run) : Apart (mergeFrom last rest) := by
  induction rest generalizing last with
  | nil => exact List.isChain_singleton last
  | cons next rest ih =>
    by_cases taken : last.takes next = true
    · rw [mergeFrom_cons, if_pos taken]
      exact ih _
    · rw [mergeFrom_cons, if_neg taken]
      have behind := ih next
      -- What the next run takes in does not make it one that this run takes in.
      obtain ⟨more, others, equal⟩ := mergeFrom_eq_cons next rest
      rw [equal] at behind ⊢
      refine List.isChain_cons_cons.mpr ⟨?_, behind⟩
      rw [absorb?_eq_none_iff, takes_extend]
      exact Bool.eq_false_iff.mpr taken

theorem apart_merge (runs : List Run) : Apart (merge runs) := by
  cases runs with
  | nil => exact List.isChain_nil
  | cons first rest => exact apart_mergeFrom first rest

/-- However neighbours are joined, it comes to an end; from every list on the way the merged list
can still be reached, and it is the only one of them in which nothing is left to join. In the merged
list no neighbours merge. So merging what is merged changes nothing, and runs may be merged in
pieces. -/
theorem joining_ends_in_merge (runs : List Run) :
    Acc (fun next runs => Joining runs next) runs ∧
    (∀ result, ReflTransGen Joining runs result →
      ReflTransGen Joining result (merge runs) ∧
        ((∀ next, ¬Joining result next) ↔ result = merge runs)) ∧
    Apart (merge runs) ∧
    merge (merge runs) = merge runs ∧
    ∀ more, merge (merge runs ++ merge more) = merge (runs ++ more) := by
  refine ⟨joining_terminates.apply runs, ?_, apart_merge runs, merge_merge runs,
    fun more => (merge_append runs more).symm⟩
  intro result steps
  have onward : ReflTransGen Joining result (merge runs) :=
    merge_eq_of_joinings steps ▸ joinings_merge result
  refine ⟨onward, ?_, ?_⟩
  · intro ended
    -- Where nothing is left to join, the way to the merged list has no steps.
    rcases onward.cases_head with same | ⟨next, step, _⟩
    · exact same
    · exact absurd step (ended next)
  · rintro rfl next
    exact not_joining_of_apart (apart_merge runs)

/-- Joined from the right, with code of two languages, a blank line and numbers out of order. -/
theorem joining_from_the_right :
    let runs := [code 1 "js" ["f("], code 2 "js" [")"], blank 3 "", code 8 "ls" ["g!"],
      doc 4 ["a"], doc 9 ["b", "c"]]
    let result := [code 1 "js" ["f(", ")", ""], code 8 "ls" ["g!"], doc 4 ["a", "b", "c"]]
    ReflTransGen Joining runs result ∧ (∀ next, ¬Joining result next) ∧ result = merge runs := by
  intro runs result
  let behind := [code 8 "ls" ["g!"], doc 4 ["a", "b", "c"]]
  have docs : Joining runs (code 1 "js" ["f("] :: code 2 "js" [")"] :: blank 3 "" :: behind) :=
    .pair [code 1 "js" ["f("], code 2 "js" [")"], blank 3 "", code 8 "ls" ["g!"]] [] rfl
  have blankLine : Joining (code 1 "js" ["f("] :: code 2 "js" [")"] :: blank 3 "" :: behind)
      (code 1 "js" ["f("] :: code 2 "js" [")", ""] :: behind) :=
    .pair [code 1 "js" ["f("]] behind rfl
  have codes : Joining (code 1 "js" ["f("] :: code 2 "js" [")", ""] :: behind) result :=
    .pair [] behind rfl
  have steps : ReflTransGen Joining runs result := .head docs (.head blankLine (.single codes))
  have ended : ∀ next, ¬Joining result next := fun next =>
    not_joining_of_apart (by simp [result, Apart, absorb?])
  exact ⟨steps, ended, ((joining_ends_in_merge runs).2.1 result steps).2.mp ended⟩

end Weave.Run
