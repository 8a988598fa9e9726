import Weave.Proofs.Tag.Taking

/-!
# Arguments asked for in any order

What is answered for a name depends on the value bound to it and on whether it has been taken
before, by a request that got what it wanted or by one that did not. So requests for different names
may change places.
-/

namespace Weave

/-- What can be asked of bound arguments under a name: whether there is a value, or the value
itself. -/
inductive Wish where
  | contains
  | optional
  | any
  | string
  | stringOr (default : String)
  | boolOr (default : Bool)
  | number
  | list
  | symbol
  deriving DecidableEq, Repr

namespace Wish

def Answer : Wish → Type
  | contains => Bool
  | optional => Option Value
  | any => Value
  | string => String
  | stringOr _ => String
  | boolOr _ => Bool
  | number => Number
  | list => List Value
  | symbol => String

/-- Whether the value is gone afterwards. -/
def takes : Wish → Bool
  | contains => false
  | _ => true

/-- What is answered under a name that has no value. -/
def absent (name : String) : (wish : Wish) → Except Fault wish.Answer
  | contains => .ok false
  | optional => .ok none
  | any => .error (.missing name)
  | string => .error (.missing name)
  | stringOr default => .ok default
  | boolOr default => .ok default
  | number => .error (.missing name)
  | list => .error (.missing name)
  | symbol => .error (.missing name)

/-- What is answered under a name that has a value. -/
def present (name : String) (value : Value) : (wish : Wish) → Except Fault wish.Answer
  | contains => .ok true
  | optional => .ok (some value)
  | any => .ok value
  | string => Taking.narrow name .string Value.string? value
  | stringOr _ => Taking.narrow name .string Value.string? value
  | boolOr _ => Taking.narrow name .boolean Value.bool? value
  | number => Taking.narrow name .number Value.number? value
  | list => Taking.narrow name .sequence Value.list? value
  | symbol => Taking.narrow name .symbol Value.symbol? value

def answer (wish : Wish) (name : String) (value? : Option Value) : Except Fault wish.Answer :=
  value?.elim (wish.absent name) fun value => wish.present name value

end Wish

structure Request where
  name : String
  wish : Wish
  deriving DecidableEq, Repr

/-- An answer, with the wish that it is for. -/
abbrev Reply := (wish : Wish) × Except Fault wish.Answer

namespace Request

/-- Ask the arguments. -/
def serve (r : Request) : Taking r.wish.Answer :=
  match r.wish with
  | .contains => return (← get).contains r.name
  | .optional => Taking.optional r.name
  | .any => Taking.any r.name
  | .string => Taking.string r.name
  | .stringOr default => Taking.stringOr r.name default
  | .boolOr default => Taking.boolOr r.name default
  | .number => Taking.number r.name
  | .list => Taking.list r.name
  | .symbol => Taking.symbol r.name

def reply (r : Request) (value? : Option Value) : Reply :=
  ⟨r.wish, r.wish.answer r.name value?⟩

/-- Whether a request takes what is bound to a name. -/
def takes (r : Request) (name : String) : Bool :=
  r.wish.takes && r.name == name

/-- Whether one of some requests takes what is bound to a name. -/
def taken (requests : List Request) (name : String) : Bool :=
  requests.any fun r => r.takes name

end Request

namespace Arguments

/-- The arguments without those that a request takes. -/
def after (arguments : Arguments) (r : Request) : Arguments :=
  if r.wish.takes then ⟨arguments.bound.erase r.name⟩ else arguments

/-- Ask for one thing after the other, also after a fault. -/
def serveAll (arguments : Arguments) : List Request → List Reply × Arguments
  | [] => ([], arguments)
  | r :: rest =>
    let (answer, left) := r.serve.on arguments
    let (replies, final) := left.serveAll rest
    (⟨r.wish, answer⟩ :: replies, final)

end Arguments

/-! ### One request -/

/-- What a request is answered depends on what is bound to its name, and it leaves the rest. -/
theorem Request.on_serve (r : Request) (arguments : Arguments) :
    r.serve.on arguments =
      (r.wish.answer r.name (arguments.bound.get? r.name), arguments.after r) := by
  obtain ⟨name, wish⟩ := r
  -- One case for each wish; those that narrow a value are told by the lemmas of `Taking`.
  cases wish with
  | contains =>
    unfold Wish.answer
    change (Except.ok (arguments.bound.get? name).isSome, arguments) = _
    cases arguments.bound.get? name <;> rfl
  | optional =>
    unfold Wish.answer
    change (Except.ok (arguments.bound.get? name), _) = _
    cases arguments.bound.get? name <;> rfl
  | any => exact Taking.on_any name arguments
  | string => exact Taking.on_shaped name .string Value.string? arguments
  | stringOr default => exact Taking.on_shapedOr name .string Value.string? default arguments
  | boolOr default => exact Taking.on_shapedOr name .boolean Value.bool? default arguments
  | number => exact Taking.on_shaped name .number Value.number? arguments
  | list => exact Taking.on_shaped name .sequence Value.list? arguments
  | symbol => exact Taking.on_shaped name .symbol Value.symbol? arguments

namespace Arguments

theorem get?_after (arguments : Arguments) (r : Request) (name : String) :
    (arguments.after r).bound.get? name =
      if r.takes name then none else arguments.bound.get? name := by
  unfold after Request.takes
  cases r.wish.takes with
  | false => simp
  | true => simp [Fields.get?_erase]

/-- A request changes nothing under another name. -/
theorem get?_after_of_ne (arguments : Arguments) {r : Request} {name : String}
    (apart : r.name ≠ name) : (arguments.after r).bound.get? name = arguments.bound.get? name := by
  simp [get?_after, Request.takes, apart]

theorem after_comm (arguments : Arguments) (r s : Request) :
    (arguments.after r).after s = (arguments.after s).after r := by
  unfold after Fields.erase
  -- Both erase by a filter, so the fields that stay keep their order.
  cases r.wish.takes <;> cases s.wish.takes <;> simp [List.filter_filter, Bool.and_comm]

/-! ### Many requests -/

theorem serveAll_cons (arguments : Arguments) (r : Request) (rest : List Request) :
    arguments.serveAll (r :: rest) =
      (r.reply (arguments.bound.get? r.name) :: ((arguments.after r).serveAll rest).1,
        ((arguments.after r).serveAll rest).2) := by
  rw [serveAll, r.on_serve]
  rfl

theorem serveAll_append (arguments : Arguments) (before behind : List Request) :
    arguments.serveAll (before ++ behind) =
      ((arguments.serveAll before).1 ++ ((arguments.serveAll before).2.serveAll behind).1,
        ((arguments.serveAll before).2.serveAll behind).2) := by
  induction before generalizing arguments with
  | nil => rfl
  | cons r rest ih => simp only [List.cons_append, serveAll_cons, ih]

theorem length_serveAll (arguments : Arguments) (requests : List Request) :
    (arguments.serveAll requests).1.length = requests.length := by
  induction requests generalizing arguments with
  | nil => rfl
  | cons r rest ih => simp only [serveAll_cons, List.length_cons, ih]

/-- A name has its value as long as no request has taken it. -/
theorem get?_serveAll (arguments : Arguments) (requests : List Request) (name : String) :
    (arguments.serveAll requests).2.bound.get? name =
      if Request.taken requests name then none else arguments.bound.get? name := by
  induction requests generalizing arguments with
  | nil => rfl
  | cons r rest ih =>
    -- What the first request takes is gone for all that follow.
    rw [serveAll_cons, ih, get?_after, Request.taken, Request.taken, List.any_cons]
    cases r.takes name <;> simp

/-- The answer to a request among others. -/
theorem reply_serveAll (arguments : Arguments) (before behind : List Request) (r : Request) :
    (arguments.serveAll (before ++ r :: behind)).1[before.length]? =
      some (r.reply (if Request.taken before r.name then none
        else arguments.bound.get? r.name)) := by
  rw [serveAll_append, serveAll_cons, get?_serveAll, ← length_serveAll arguments before]
  simp

/-- Requests for different names are answered the same in either order, and so is all that
follows. -/
theorem serveAll_swap (arguments : Arguments) (behind : List Request) {r s : Request}
    (apart : r.name ≠ s.name) :
    ∃ first second later left,
      arguments.serveAll (r :: s :: behind) = (first :: second :: later, left) ∧
      arguments.serveAll (s :: r :: behind) = (second :: first :: later, left) := by
  refine ⟨_, _, _, _, by rw [serveAll_cons, serveAll_cons], ?_⟩
  -- Neither request changes what is bound to the name of the other.
  rw [serveAll_cons, serveAll_cons, get?_after_of_ne arguments apart,
    get?_after_of_ne arguments apart.symm, after_comm]

/-- The first request that takes what is bound to a name sees exactly that, and every request after
it is answered as if nothing had been bound. Until then the name is there, and no longer. Two
requests for different names may change places: both are answered as before, and so is every request
after them. -/
theorem replies_by_history (arguments : Arguments) (before behind : List Request) :
    (∀ r value, arguments.bound.get? r.name = some value → Request.taken before r.name = false →
      (arguments.serveAll (before ++ r :: behind)).1[before.length]? =
        some ⟨r.wish, r.wish.present r.name value⟩) ∧
    (∀ r, arguments.bound.get? r.name = none ∨ Request.taken before r.name = true →
      (arguments.serveAll (before ++ r :: behind)).1[before.length]? =
        some ⟨r.wish, r.wish.absent r.name⟩) ∧
    (∀ name, (arguments.serveAll before).2.contains name = true ↔
      arguments.contains name = true ∧ Request.taken before name = false) ∧
    ∀ r s : Request, r.name ≠ s.name →
      ∃ earlier first second later left, earlier.length = before.length ∧
        arguments.serveAll (before ++ r :: s :: behind) =
          (earlier ++ first :: second :: later, left) ∧
        arguments.serveAll (before ++ s :: r :: behind) =
          (earlier ++ second :: first :: later, left) := by
  refine ⟨?_, ?_, ?_, ?_⟩
  · intro r value bound free
    rw [reply_serveAll, free, bound]
    rfl
  · intro r absent
    have nothing : (if Request.taken before r.name then none
        else arguments.bound.get? r.name) = none := by
      rcases absent with unbound | taken
      · simp [unbound]
      · simp [taken]
    rw [reply_serveAll, nothing]
    rfl
  · intro name
    rw [contains, contains, get?_serveAll]
    cases Request.taken before name <;> simp
  · intro r s apart
    -- The requests before leave the same arguments for both orders.
    obtain ⟨first, second, later, left, straight, swapped⟩ :=
      (arguments.serveAll before).2.serveAll_swap behind apart
    refine ⟨_, first, second, later, left, length_serveAll arguments before, ?_, ?_⟩
    · rw [serveAll_append, straight]
    · rw [serveAll_append, swapped]

/-- A caption of the wrong shape is refused once; after that it is as good as not given. -/
theorem replies_by_history_refused :
    let arguments : Arguments := ⟨[("caption", .bool true), ("language", .string "js")]⟩
    let refused : Request := ⟨"caption", .stringOr "Example"⟩
    let again : Request := ⟨"caption", .boolOr false⟩
    let language : Request := ⟨"language", .string⟩
    (arguments.serveAll [refused, again, language]).1[0]? =
        some ⟨.stringOr "Example", .error (.mismatch "caption" .string .boolean)⟩ ∧
      (arguments.serveAll [refused, again, language]).1[1]? = some ⟨.boolOr false, .ok false⟩ ∧
      (arguments.serveAll [refused]).2.contains "caption" = false ∧
      ∃ earlier first second later left, earlier.length = 1 ∧
        arguments.serveAll [refused, again, language] =
          (earlier ++ first :: second :: later, left) ∧
        arguments.serveAll [refused, language, again] =
          (earlier ++ second :: first :: later, left) := by
  intro arguments refused again language
  have seen := (arguments.replies_by_history [] [again, language]).1 refused (.bool true) rfl rfl
  obtain ⟨-, gone, there, -⟩ := arguments.replies_by_history [refused] [language]
  obtain ⟨-, -, -, swaps⟩ := arguments.replies_by_history [refused] []
  refine ⟨seen, gone again (Or.inr rfl), ?_, swaps again language (by decide)⟩
  exact Bool.eq_false_iff.mpr fun held => absurd ((there "caption").mp held).2 (by decide)

end Arguments

end Weave
