import Weave.Tag.Evaluation

/-!
# What taking arguments does

A step that takes an argument gives what the argument is or the fault it finds, and leaves the
arguments without it.
-/

namespace Weave

namespace Taking

variable {α β : Type}

/-- What a computation gives for some arguments, and what it leaves of them. -/
def on (t : Taking α) (arguments : Arguments) : Except Fault α × Arguments :=
  t.run.run arguments

theorem on_bind (t : Taking α) (next : α → Taking β) (arguments : Arguments) :
    (t >>= next).on arguments = match t.on arguments with
      | (.ok a, rest) => (next a).on rest
      | (.error fault, rest) => (.error fault, rest) := by
  unfold on ExceptT.run StateT.run
  simp only [bind, ExceptT.bind, ExceptT.mk, StateT.bind]
  cases t arguments with
  | mk result rest => cases result <;> rfl

theorem on_optional (name : String) (arguments : Arguments) :
    (optional name).on arguments =
      (.ok (arguments.bound.get? name), ⟨arguments.bound.erase name⟩) := rfl

theorem on_any (name : String) (arguments : Arguments) :
    (any name).on arguments =
      ((arguments.bound.get? name).elim (.error (.missing name)) .ok,
        ⟨arguments.bound.erase name⟩) := by
  rw [any, on_bind, on_optional]
  cases arguments.bound.get? name <;> rfl

theorem on_shaped (name : String) (wanted : Shape) (read? : Value → Option α)
    (arguments : Arguments) :
    (shaped name wanted read?).on arguments =
      ((arguments.bound.get? name).elim (.error (.missing name)) (narrow name wanted read?),
        ⟨arguments.bound.erase name⟩) := by
  rw [shaped, on_bind, on_any]
  cases arguments.bound.get? name <;> rfl

theorem on_shapedOr (name : String) (wanted : Shape) (read? : Value → Option α) (default : α)
    (arguments : Arguments) :
    (shapedOr name wanted read? default).on arguments =
      ((arguments.bound.get? name).elim (.ok default) (narrow name wanted read?),
        ⟨arguments.bound.erase name⟩) := by
  rw [shapedOr, on_bind, on_optional]
  cases arguments.bound.get? name <;> rfl

theorem on_list {name : String} {items : List Value} {arguments : Arguments}
    (found : arguments.bound.get? name = some (.list items)) :
    (list name).on arguments = (.ok items, ⟨arguments.bound.erase name⟩) := by
  rw [list, on_shaped, found]
  rfl

theorem on_number {name : String} {x : Number} {arguments : Arguments}
    (found : arguments.bound.get? name = some (.number x)) :
    (number name).on arguments = (.ok x, ⟨arguments.bound.erase name⟩) := by
  rw [number, on_shaped, found]
  rfl

/-- Checking what a string stands for comes after checking that it is one. -/
theorem on_string_orFault (name : String) (check : String → Except Fault α)
    (arguments : Arguments) :
    (string name >>= fun text => Tag.orFault (check text)).on arguments =
      ((arguments.bound.get? name).elim (.error (.missing name)) fun value =>
          (narrow name .string Value.string? value).bind check,
        ⟨arguments.bound.erase name⟩) := by
  rw [on_bind, string, on_shaped]
  cases arguments.bound.get? name with
  | none => rfl
  | some value =>
    simp only [Option.elim_some]
    cases narrow name .string Value.string? value <;> rfl

end Taking

end Weave
