import Mathlib.Data.List.Basic
import Mathlib.Data.List.Nodup
import Weave.Proofs.Tag.Taking

/-!
# What binding gives the parameters

A call binds when its keywords name parameters, no two of them the same one, and its positional
values are no more than the parameters left. Then each keyword gives its value to the parameter of
its name, and the positional values go, in order, to the parameters that no keyword names.
-/

namespace Weave

namespace Fields

variable {α : Type}

theorem get?_append (name : String) (fields more : Fields α) :
    get? name (fields ++ more) = (get? name fields).or (get? name more) := by
  induction fields with
  | nil => rfl
  | cons head rest ih =>
    obtain ⟨key, value⟩ := head
    by_cases here : key = name <;> simp [get?, here, ih]

/-- Among fields of different names, each is found under its own. -/
theorem get?_eq_some_iff (name : String) (value : α) (fields : Fields α)
    (distinct : (keys fields).Nodup) : get? name fields = some value ↔ (name, value) ∈ fields := by
  induction fields with
  | nil => simp [get?]
  | cons head rest ih =>
    obtain ⟨key, first⟩ := head
    simp only [keys, List.map_cons, List.nodup_cons] at distinct
    by_cases here : key = name
    · subst here
      -- No later field has this name.
      have absent : (key, value) ∉ rest := fun member =>
        distinct.1 (List.mem_map_of_mem (f := Prod.fst) member)
      simp [get?, absent, eq_comm]
    · have apart : name ≠ key := fun same => here same.symm
      simp [get?, here, apart, ih distinct.2]

theorem get?_perm (name : String) {fields others : Fields α} (distinct : (keys fields).Nodup)
    (perm : fields.Perm others) : get? name fields = get? name others := by
  have same : (keys others).Nodup := (perm.map Prod.fst).nodup_iff.mp distinct
  apply Option.ext
  intro value
  rw [get?_eq_some_iff name value fields distinct, get?_eq_some_iff name value others same,
    perm.mem_iff]

theorem insert_of_fresh (name : String) (value : α) (fields : Fields α)
    (fresh : name ∉ keys fields) : insert name value fields = fields ++ [(name, value)] := by
  induction fields with
  | nil => rfl
  | cons head rest ih =>
    obtain ⟨key, first⟩ := head
    simp only [keys, List.map_cons, List.mem_cons, not_or] at fresh
    have apart : key ≠ name := fun same => fresh.1 same.symm
    simp only [insert, apart, if_false, List.cons_append, ih fresh.2]

theorem keys_append (fields more : Fields α) : keys (fields ++ more) = keys fields ++ keys more :=
  List.map_append

theorem isSome_get?_iff (name : String) (fields : Fields α) :
    (get? name fields).isSome = true ↔ name ∈ keys fields := by
  rw [Option.isSome_iff_ne_none, ne_eq, get?_eq_none_iff, not_not]

theorem nodup_keys_concat {name : String} (value : α) {fields : Fields α}
    (distinct : (keys fields).Nodup) (fresh : name ∉ keys fields) :
    (keys (fields ++ [(name, value)])).Nodup := by
  have last : keys [(name, value)] = [name] := rfl
  rw [keys_append, last, List.nodup_append]
  refine ⟨distinct, List.nodup_singleton name, ?_⟩
  rintro key member other single rfl
  obtain rfl := List.mem_singleton.mp single
  exact fresh member

theorem insertAll_of_fresh (fields : Fields α) (more : List (String × α))
    (distinct : (keys more).Nodup) (fresh : ∀ name ∈ keys more, name ∉ keys fields) :
    insertAll fields more = fields ++ more := by
  induction more generalizing fields with
  | nil => simp [insertAll]
  | cons head rest ih =>
    obtain ⟨name, value⟩ := head
    simp only [keys, List.map_cons, List.nodup_cons, List.forall_mem_cons] at distinct fresh
    have first := insert_of_fresh name value fields fresh.1
    -- The name inserted first is none of those that follow, so these stay fresh.
    have apart : ∀ other ∈ keys rest, other ∉ keys (fields ++ [(name, value)]) := by
      intro other member
      rw [keys_append, List.mem_append, not_or]
      refine ⟨fresh.2 other member, ?_⟩
      rintro same
      obtain rfl : other = name := by simpa [keys] using same
      exact distinct.1 member
    calc insertAll fields ((name, value) :: rest)
        = insertAll (fields ++ [(name, value)]) rest := congrArg (insertAll · rest) first
      _ = fields ++ (name, value) :: rest := by
        rw [ih _ distinct.2 apart, List.append_assoc, List.singleton_append]

theorem keys_zip_sublist (names : List String) (values : List α) :
    (keys (names.zip values)).Sublist names := by
  induction names generalizing values with
  | nil => exact List.Sublist.refl []
  | cons name names ih =>
    cases values with
    | nil => exact List.nil_sublist _
    | cons value values => exact (ih values).cons_cons name

end Fields

namespace Arguments

/-- Keywords bind when they name parameters and no name stands twice. -/
theorem bindKeywords_eq_ok_iff (parameters : List String) (bound result : Fields Value)
    (keywords : List (String × Value)) (distinct : (Fields.keys bound).Nodup) :
    bindKeywords parameters bound keywords = .ok result ↔
      result = bound ++ keywords ∧ (∀ name ∈ Fields.keys keywords, name ∈ parameters) ∧
        (Fields.keys (bound ++ keywords)).Nodup := by
  induction keywords generalizing bound with
  | nil =>
    simp only [bindKeywords, List.append_nil, Except.ok.injEq, distinct, and_true]
    simp [Fields.keys, eq_comm]
  | cons head rest ih =>
    obtain ⟨name, value⟩ := head
    have later : Fields.keys ((name, value) :: rest) = name :: Fields.keys rest := rfl
    rw [bindKeywords]
    by_cases known : name ∈ parameters
    · rw [if_neg (not_not_intro known)]
      by_cases free : name ∈ Fields.keys bound
      · have repeated := (Fields.isSome_get?_iff name bound).mpr free
        have twice : ¬(Fields.keys (bound ++ (name, value) :: rest)).Nodup := by
          rw [Fields.keys_append, later, List.nodup_append]
          exact fun parts => parts.2.2 name free name List.mem_cons_self rfl
        simp only [repeated, if_true, reduceCtorEq, twice, and_false]
      · have fresh : (bound.get? name).isSome = false := by
          rw [← Bool.not_eq_true, Fields.isSome_get?_iff]
          exact free
        have more := Fields.nodup_keys_concat value distinct free
        -- The keyword is bound behind those before it.
        rw [fresh, if_neg Bool.false_ne_true, Fields.insert_of_fresh name value bound free,
          ih _ more, List.append_assoc, List.singleton_append, later, List.forall_mem_cons]
        simp only [known, true_and]
    · have unknown : ¬∀ key ∈ Fields.keys ((name, value) :: rest), key ∈ parameters :=
        fun all => known (all name List.mem_cons_self)
      simp only [known, not_false_eq_true, if_true, reduceCtorEq, unknown, false_and, and_false]

end Arguments

namespace Invocation

/-- The parameters that no keyword of a call names, in their order. -/
def unnamed (call : Invocation) (parameters : List String) : List String :=
  parameters.filter fun p => p ∉ Fields.keys call.keywords

/-- What a call gives to its parameters: the values of its keywords, and its positional values in
order to the parameters that no keyword names. -/
def given (call : Invocation) (parameters : List String) : Fields Value :=
  call.keywords ++ (call.unnamed parameters).zip call.positional

/-- What a call gives to a parameter. -/
def given? (call : Invocation) (parameters : List String) (name : String) : Option Value :=
  (call.given parameters).get? name

end Invocation

namespace Arguments

theorem filter_free (parameters : List String) (bound : Fields Value) :
    (parameters.filter fun p => (bound.get? p).isNone) =
      parameters.filter fun p => p ∉ Fields.keys bound := by
  apply List.filter_congr
  intro p _
  rw [Bool.eq_iff_iff, Option.isNone_iff_eq_none, Fields.get?_eq_none_iff, decide_eq_true_eq]

/-- Positional values bind when enough parameters are left for them. -/
theorem bindPositional_eq_ok_iff {parameters : List String} (distinct : parameters.Nodup)
    (bound result : Fields Value) (values : List Value) :
    bindPositional parameters bound values = .ok result ↔
      values.length ≤ (parameters.filter fun p => p ∉ Fields.keys bound).length ∧
        result = bound ++ (parameters.filter fun p => p ∉ Fields.keys bound).zip values := by
  simp only [bindPositional, filter_free]
  generalize left : (parameters.filter fun p => p ∉ Fields.keys bound) = names
  by_cases fits : names.length < values.length
  · rw [if_pos fits]
    simp only [reduceCtorEq, Nat.not_le.mpr fits, false_and]
  · have taken := Fields.keys_zip_sublist names values
    -- The values are bound to parameters that are free, each to another one.
    have once : (Fields.keys (names.zip values)).Nodup := by
      subst left
      exact taken.nodup (distinct.filter _)
    have fresh : ∀ name ∈ Fields.keys (names.zip values), name ∉ Fields.keys bound := by
      intro name member
      subst left
      simpa using (List.mem_filter.mp (taken.subset member)).2
    rw [if_neg fits, Fields.insertAll_of_fresh bound _ once fresh, Except.ok.injEq]
    simp only [Nat.not_lt.mp fits, true_and, eq_comm]

private theorem bind_eq_ok_iff_exists (parameters : List String) (call : Invocation)
    (arguments : Arguments) :
    bind parameters call = .ok arguments ↔
      ∃ bound, bindKeywords parameters [] call.keywords = .ok bound ∧
        bindPositional parameters bound call.positional = .ok arguments.bound := by
  unfold bind
  cases bindKeywords parameters [] call.keywords with
  | error fault => simp
  | ok bound =>
    obtain ⟨fields⟩ := arguments
    simp only [Except.ok.injEq, exists_eq_left']
    cases bindPositional parameters bound call.positional <;> simp

/-- A call binds when its keywords name parameters, no two the same one, and its positional values
are no more than the other parameters. What is bound is what the call gives. -/
theorem bind_eq_ok_iff {parameters : List String} (distinct : parameters.Nodup)
    (call : Invocation) (arguments : Arguments) :
    bind parameters call = .ok arguments ↔
      arguments = ⟨call.given parameters⟩ ∧
        (∀ name ∈ Fields.keys call.keywords, name ∈ parameters) ∧
        (Fields.keys call.keywords).Nodup ∧
        call.positional.length ≤ (call.unnamed parameters).length := by
  obtain ⟨fields⟩ := arguments
  rw [bind_eq_ok_iff_exists]
  simp only [bindKeywords_eq_ok_iff parameters [] _ call.keywords List.nodup_nil,
    bindPositional_eq_ok_iff distinct, List.nil_append]
  constructor
  · rintro ⟨_, ⟨rfl, known, once⟩, fits, rfl⟩
    exact ⟨rfl, known, once, fits⟩
  · rintro ⟨given, known, once, fits⟩
    exact ⟨call.keywords, ⟨rfl, known, once⟩, fits, congrArg Arguments.bound given⟩

end Arguments

theorem Tag.nodup_parameters (tag : Tag) : tag.parameters.Nodup := by
  cases tag <;> simp [parameters]

end Weave
