import Weave.Document.Fields
import Weave.Tag.Violation

/-!
# Arguments of tags

Binding matches an invocation with the parameters of a tag: keywords bind by name, then positional
values fill, in order, the parameters that no keyword names. What is bound is taken by name, and
taking removes it, also where it turns out to have the wrong shape.
-/

namespace Weave

/-- The arguments of one call, as they are written. -/
structure Invocation where
  positional : List Value := []
  /-- A name may be repeated; binding refuses it. -/
  keywords : List (String × Value) := []

/-- Bound arguments that have not been taken. -/
structure Arguments where
  bound : Fields Value

namespace Arguments

/-- Bind keywords in the order in which they are written. -/
def bindKeywords (parameters : List String) (bound : Fields Value) :
    List (String × Value) → Except Fault (Fields Value)
  | [] => .ok bound
  | (name, value) :: rest =>
    if name ∉ parameters then .error (.unexpectedKeyword name parameters)
    else if (bound.get? name).isSome then .error (.repeated name)
    else bindKeywords parameters (bound.insert name value) rest

/-- Bind positional values to the parameters that are still free. -/
def bindPositional (parameters : List String) (bound : Fields Value) (values : List Value) :
    Except Fault (Fields Value) :=
  let free := parameters.filter fun p => (bound.get? p).isNone
  if free.length < values.length then .error (.tooManyPositionals parameters)
  else .ok (bound.insertAll (free.zip values))

def bind (parameters : List String) (call : Invocation) : Except Fault Arguments :=
  match bindKeywords parameters [] call.keywords with
  | .error fault => .error fault
  | .ok bound =>
    match bindPositional parameters bound call.positional with
    | .error fault => .error fault
    | .ok bound => .ok ⟨bound⟩

def contains (arguments : Arguments) (name : String) : Bool :=
  (arguments.bound.get? name).isSome

end Arguments

/-- A computation that takes arguments. What is left of them is known also when it fails. -/
abbrev Taking := ExceptT Fault (StateM Arguments)

namespace Taking

/-- Take an argument, if it is bound. -/
def optional (name : String) : Taking (Option Value) := do
  let arguments ← get
  set (Arguments.mk (arguments.bound.erase name))
  return arguments.bound.get? name

def any (name : String) : Taking Value := do
  match ← optional name with
  | some value => return value
  | none => throw (.missing name)

/-- What a value is when it has the wanted shape. -/
def narrow {α : Type} (name : String) (wanted : Shape) (read? : Value → Option α)
    (value : Value) : Except Fault α :=
  match read? value with
  | some a => .ok a
  | none => .error (.mismatch name wanted value.shape)

def shaped {α : Type} (name : String) (wanted : Shape) (read? : Value → Option α) :
    Taking α := do
  let value ← any name
  ExceptT.mk (pure (narrow name wanted read? value))

/-- Take an argument of one shape, or a default where it is not bound. -/
def shapedOr {α : Type} (name : String) (wanted : Shape) (read? : Value → Option α)
    (default : α) : Taking α := do
  match ← optional name with
  | some value => ExceptT.mk (pure (narrow name wanted read? value))
  | none => return default

def string (name : String) : Taking String :=
  shaped name .string Value.string?

def stringOr (name : String) (default : String) : Taking String :=
  shapedOr name .string Value.string? default

def boolOr (name : String) (default : Bool) : Taking Bool :=
  shapedOr name .boolean Value.bool? default

def number (name : String) : Taking Number :=
  shaped name .number Value.number?

def list (name : String) : Taking (List Value) :=
  shaped name .sequence Value.list?

def symbol (name : String) : Taking String :=
  shaped name .symbol Value.symbol?

end Taking

end Weave
