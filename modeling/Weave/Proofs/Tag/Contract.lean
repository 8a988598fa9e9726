import Mathlib.Data.List.Basic
import Weave.Proofs.Tag.Taking

/-!
# The contracts of tags

A contract lists what a tag asks of each of its parameters. The evaluation of a tag takes its
arguments step by step, each step in its own way; what becomes of a call is nevertheless decided by
the first parameter of the contract that is not met.
-/

namespace Weave

/-- What a parameter asks of the value bound to it. -/
inductive Demand where
  | any
  | shaped (shape : Shape)
  /-- A string that is not blank. -/
  | signature
  /-- A string that names a level of stability, in either case. -/
  | level
  deriving DecidableEq, Repr

/-- The fault of a value under a parameter that makes a demand. -/
def Demand.fault? (name : String) : Demand → Value → Option Fault
  | any, _ => none
  | shaped wanted, value =>
    if value.shape = wanted then none else some (.mismatch name wanted value.shape)
  | signature, .string text => if Text.allBlank text then some .emptySignature else none
  | signature, value => some (.mismatch name .string value.shape)
  | level, .string text =>
    if Stability.all.any fun s => s.name.toList == text.toList.map Char.toLower then none
    else some (.unknownStability text)
  | level, value => some (.mismatch name .string value.shape)

/-- A parameter with what it asks, and whether it may stay unbound. -/
structure Parameter where
  name : String
  demand : Demand
  required : Bool
  deriving DecidableEq, Repr

namespace Parameter

def needs (name : String) (demand : Demand) : Parameter := ⟨name, demand, true⟩

def admits (name : String) (demand : Demand) : Parameter := ⟨name, demand, false⟩

/-- The fault of what is bound to a parameter. -/
def fault? (p : Parameter) (bound : Fields Value) : Option Fault :=
  match bound.get? p.name with
  | none => if p.required then some (.missing p.name) else none
  | some value => p.demand.fault? p.name value

theorem fault?_erase (p : Parameter) (name : String) (bound : Fields Value)
    (apart : name ≠ p.name) : p.fault? (bound.erase name) = p.fault? bound := by
  simp only [fault?, Fields.get?_erase, apart, if_false]

@[simp] theorem fault?_admits_any (name : String) (bound : Fields Value) :
    (admits name .any).fault? bound = none := by
  unfold fault?
  split <;> rfl

end Parameter

open Parameter (needs admits)

/-- The fault of the first parameter that is not met. -/
def firstFault? (ps : List Parameter) (bound : Fields Value) : Option Fault :=
  ps.findSome? fun p => p.fault? bound

@[simp] theorem firstFault?_nil (bound : Fields Value) : firstFault? [] bound = none := rfl

theorem firstFault?_cons (p : Parameter) (ps : List Parameter) (bound : Fields Value) :
    firstFault? (p :: ps) bound = (p.fault? bound).or (firstFault? ps bound) := by
  simp only [firstFault?, List.findSome?_cons]
  cases p.fault? bound <;> rfl

theorem firstFault?_erase (ps : List Parameter) (name : String) (bound : Fields Value)
    (apart : name ∉ ps.map Parameter.name) :
    firstFault? ps (bound.erase name) = firstFault? ps bound := by
  induction ps with
  | nil => rfl
  | cons p ps ih =>
    simp only [List.map_cons, List.mem_cons, not_or] at apart
    rw [firstFault?_cons, firstFault?_cons, p.fault?_erase name bound apart.1, ih apart.2]

/-- What a tag asks of its parameters, in their order. -/
def Tag.contract : Tag → List Parameter
  | tagged => [needs "tag" .any, needs "value" .any]
  | custom => [needs "key" .any, needs "value" .any]
  | negation => [needs "value" .any]
  | isBoolean => [needs "value" .any]
  | arithmetic _ => [needs "left" (.shaped .number), needs "right" (.shaped .number)]
  | comparison _ => [needs "left" (.shaped .number), needs "right" (.shaped .number)]
  | equal => [needs "left" .any, needs "right" .any]
  | symbolName => [needs "value" (.shaped .symbol)]
  | first => [needs "value" (.shaped .sequence)]
  | last => [needs "value" (.shaped .sequence)]
  | nth => [needs "value" (.shaped .sequence), needs "index" (.shaped .number)]
  | raw => [needs "format" (.shaped .string), needs "block" (.shaped .string)]
  | styled _ => [needs "value" .any]
  | declaration => [needs "kind" (.shaped .string), needs "children" (.shaped .sequence)]
  | titled => [needs "title" (.shaped .string), needs "children" (.shaped .sequence)]
  | callable _ => [needs "signature" .signature, needs "children" (.shaped .sequence)]
  | classDeclaration => [needs "signature" .signature, needs "children" (.shaped .sequence)]
  | code => [needs "language" (.shaped .string), needs "block" (.shaped .string)]
  | sample =>
    [needs "language" (.shaped .string), needs "block" (.shaped .string),
      admits "line-numbers" (.shaped .boolean), admits "emphasise-lines" .any,
      admits "caption" (.shaped .string)]
  | items _ => [needs "items" (.shaped .sequence)]
  | visibility _ => []
  | text _ => [needs "block" (.shaped .string)]
  | stability => [needs "block" .level]
  | throws => [needs "name" .any, needs "block" (.shaped .string)]
  | literal => [needs "block" (.shaped .string)]
  | link => [needs "text" .any, needs "url" .any]
  | ref => [needs "id" (.shaped .string), needs "block" (.shaped .string)]
  | note _ => [needs "block" (.shaped .string)]
  | version _ => [needs "version" (.shaped .string), admits "block" (.shaped .string)]

theorem Tag.contract_names (tag : Tag) : tag.contract.map Parameter.name = tag.parameters := by
  cases tag <;> rfl

/-- The fault that a computation ends with. -/
def faultOf {α : Type} : Except Fault α → Option Fault
  | .ok _ => none
  | .error fault => some fault

theorem faultOf_eq_some_iff {α : Type} (result : Except Fault α) (fault : Fault) :
    faultOf result = some fault ↔ result = .error fault := by
  cases result <;> simp [faultOf]

theorem faultOf_eq_none_iff {α : Type} (result : Except Fault α) :
    faultOf result = none ↔ ∃ a, result = .ok a := by
  cases result <;> simp [faultOf]

namespace Taking

variable {α β γ : Type}

/-- A step takes a parameter: it faults as the parameter does, and leaves the other arguments. -/
def Takes (p : Parameter) (t : Taking α) : Prop :=
  ∀ arguments, faultOf (t.on arguments).1 = p.fault? arguments.bound ∧
    (t.on arguments).2 = ⟨arguments.bound.erase p.name⟩

/-- A computation faults as the first parameter of a list that is not met. -/
def Follows (ps : List Parameter) (t : Taking α) : Prop :=
  ∀ arguments, faultOf (t.on arguments).1 = firstFault? ps arguments.bound

theorem follows_pure (a : α) : Follows [] (pure a) := fun _ => rfl

theorem Takes.bind_error {p : Parameter} {t : Taking α} {arguments : Arguments} {fault : Fault}
    (takes : Takes p t) (next : α → Taking β) (broken : p.fault? arguments.bound = some fault) :
    ((t >>= next).on arguments).1 = .error fault := by
  have ended := (takes arguments).1.trans broken
  rw [faultOf_eq_some_iff] at ended
  rw [on_bind]
  cases run : t.on arguments with
  | mk result rest =>
    obtain rfl : result = .error fault := by rw [← ended, run]
    rfl

theorem Takes.bind_ok {p : Parameter} {t : Taking α} {arguments : Arguments}
    (takes : Takes p t) (next : α → Taking β) (met : p.fault? arguments.bound = none) :
    ∃ a, (t >>= next).on arguments = (next a).on ⟨arguments.bound.erase p.name⟩ := by
  obtain ⟨a, ended⟩ := (faultOf_eq_none_iff _).mp ((takes arguments).1.trans met)
  have left := (takes arguments).2
  refine ⟨a, ?_⟩
  rw [on_bind]
  cases run : t.on arguments with
  | mk result rest =>
    obtain rfl : result = .ok a := by rw [← ended, run]
    rw [← left, run]

/-- What is taken is gone from the arguments, so the rest must not ask for it again. -/
theorem Takes.bind {p : Parameter} {ps : List Parameter} {t : Taking α} {next : α → Taking β}
    (takes : Takes p t) (follows : ∀ a, Follows ps (next a))
    (apart : p.name ∉ ps.map Parameter.name) : Follows (p :: ps) (t >>= next) := by
  intro arguments
  rw [firstFault?_cons]
  cases fault : p.fault? arguments.bound with
  | some broken =>
    rw [takes.bind_error next fault]
    rfl
  | none =>
    -- The rest sees the arguments without this one, which changes none of its faults.
    obtain ⟨a, run⟩ := takes.bind_ok next fault
    rw [run, Option.none_or, ← firstFault?_erase ps p.name arguments.bound apart]
    exact follows a _

theorem Takes.return {p : Parameter} {t : Taking α} (f : α → β) (takes : Takes p t) :
    Follows [p] (t >>= fun a => pure (f a)) :=
  takes.bind (fun a => follows_pure (f a)) List.not_mem_nil

theorem Takes.both {p q : Parameter} {t : Taking α} {u : Taking β} (f : α → β → γ)
    (first : Takes p t) (second : Takes q u) (apart : p.name ≠ q.name) :
    Follows [p, q] (t >>= fun a => u >>= fun b => pure (f a b)) :=
  first.bind (fun a => second.return (f a)) (by simpa using apart)

/-- The values that a reader reads are those of one shape. -/
def Reads (wanted : Shape) (read? : Value → Option α) : Prop :=
  ∀ value, (read? value).isSome = true ↔ value.shape = wanted

theorem reads_string : Reads .string Value.string? := by
  intro value
  cases value <;> simp [Value.string?, Value.shape]

theorem reads_number : Reads .number Value.number? := by
  intro value
  cases value <;> simp [Value.number?, Value.shape]

theorem reads_list : Reads .sequence Value.list? := by
  intro value
  cases value <;> simp [Value.list?, Value.shape]

theorem reads_symbol : Reads .symbol Value.symbol? := by
  intro value
  cases value <;> simp [Value.symbol?, Value.shape]

theorem reads_bool : Reads .boolean Value.bool? := by
  intro value
  cases value <;> simp [Value.bool?, Value.shape]

theorem faultOf_narrow {wanted : Shape} {read? : Value → Option α} (reads : Reads wanted read?)
    (name : String) (value : Value) :
    faultOf (narrow name wanted read? value) = (Demand.shaped wanted).fault? name value := by
  have shape := reads value
  unfold narrow Demand.fault?
  cases h : read? value with
  | none =>
    have other : value.shape ≠ wanted := by simpa [h] using shape
    simp [faultOf, other]
  | some a =>
    have same : value.shape = wanted := by simpa [h] using shape
    simp [faultOf, same]

theorem takes_optional (name : String) : Takes (admits name .any) (optional name) := by
  intro arguments
  rw [on_optional]
  exact ⟨(Parameter.fault?_admits_any name arguments.bound).symm, rfl⟩

theorem takes_any (name : String) : Takes (needs name .any) (any name) := by
  intro arguments
  rw [on_any]
  refine ⟨?_, rfl⟩
  unfold Parameter.fault? needs
  cases arguments.bound.get? name <;> rfl

theorem takes_shaped {wanted : Shape} {read? : Value → Option α} (reads : Reads wanted read?)
    (name : String) : Takes (needs name (.shaped wanted)) (shaped name wanted read?) := by
  intro arguments
  rw [on_shaped]
  refine ⟨?_, rfl⟩
  unfold Parameter.fault? needs
  cases arguments.bound.get? name with
  | none => rfl
  | some value => exact faultOf_narrow reads name value

theorem takes_shapedOr {wanted : Shape} {read? : Value → Option α} (reads : Reads wanted read?)
    (name : String) (default : α) :
    Takes (admits name (.shaped wanted)) (shapedOr name wanted read? default) := by
  intro arguments
  rw [on_shapedOr]
  refine ⟨?_, rfl⟩
  unfold Parameter.fault? admits
  cases arguments.bound.get? name with
  | none => rfl
  | some value => exact faultOf_narrow reads name value

theorem takes_string (name : String) : Takes (needs name (.shaped .string)) (string name) :=
  takes_shaped reads_string name

theorem takes_number (name : String) : Takes (needs name (.shaped .number)) (number name) :=
  takes_shaped reads_number name

theorem takes_list (name : String) : Takes (needs name (.shaped .sequence)) (list name) :=
  takes_shaped reads_list name

theorem takes_symbol (name : String) : Takes (needs name (.shaped .symbol)) (symbol name) :=
  takes_shaped reads_symbol name

/-- A string may be looked at once more after its shape is found right. -/
theorem takes_checked {name : String} {demand : Demand} {check : String → Except Fault α}
    (text : ∀ text, demand.fault? name (.string text) = faultOf (check text))
    (other : ∀ value : Value, value.shape ≠ .string →
      demand.fault? name value = some (.mismatch name .string value.shape)) :
    Takes (needs name demand) (string name >>= fun text => Tag.orFault (check text)) := by
  intro arguments
  rw [on_string_orFault]
  refine ⟨?_, rfl⟩
  unfold Parameter.fault? needs
  cases arguments.bound.get? name with
  | none => rfl
  | some value =>
    -- The check is made of strings only; every other shape is refused before it.
    cases value with
    | string content => exact (text content).symm
    | _ => exact (other _ (by simp [Value.shape])).symm

end Taking

end Weave
