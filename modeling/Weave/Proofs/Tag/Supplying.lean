import Weave.Proofs.Tag.BindingOutcome
import Weave.Proofs.Tag.Invocation

/-!
# Arguments that are taken, and arguments that are missing

A tag that succeeds has taken every argument it was given. A tag that reports an argument as
missing names one of its parameters, and that argument can be added as a keyword: no other parameter
is bound in another way for it, and it is not reported again. So adding what is reported comes to an
end.
-/

namespace Weave

namespace Taking

variable {α β γ : Type}

/-- When a computation succeeds, the arguments of some names are gone, and no others. -/
def Uses (names : List String) (t : Taking α) : Prop :=
  ∀ arguments a, (t.on arguments).1 = .ok a →
    (t.on arguments).2.bound = arguments.bound.filter fun field => field.1 ∉ names

theorem uses_pure (a : α) : Uses [] (pure a) :=
  fun arguments _ _ => (List.filter_eq_self.mpr (by simp)).symm

theorem uses_orFault (result : Except Fault α) : Uses [] (Tag.orFault result) :=
  fun arguments _ _ => (List.filter_eq_self.mpr (by simp)).symm

theorem Takes.uses {p : Parameter} {t : Taking α} (takes : Takes p t) : Uses [p.name] t := by
  intro arguments a _
  rw [(takes arguments).2, Fields.erase]
  simp

theorem Uses.bind {names more : List String} {t : Taking α} {next : α → Taking β}
    (start : Uses names t) (behind : ∀ a, Uses more (next a)) :
    Uses (names ++ more) (t >>= next) := by
  intro arguments b succeeds
  rw [on_bind] at succeeds ⊢
  cases run : t.on arguments with
  | mk result rest =>
    rw [run] at succeeds
    cases result with
    | error fault => contradiction
    | ok a =>
      -- What the first step leaves is what the second step finds.
      have left : rest.bound = arguments.bound.filter fun field => field.1 ∉ names := by
        have used := start arguments a
        rw [run] at used
        exact used rfl
      rw [behind a rest b succeeds, left, List.filter_filter]
      apply List.filter_congr
      intro field _
      simp [Bool.and_comm]

theorem Uses.return {names : List String} {t : Taking α} (f : α → β) (uses : Uses names t) :
    Uses names (t >>= fun a => pure (f a)) := by
  simpa using uses.bind fun a => uses_pure (f a)

theorem Uses.both {names more : List String} {t : Taking α} {u : Taking β} (f : α → β → γ)
    (first : Uses names t) (second : Uses more u) :
    Uses (names ++ more) (t >>= fun a => u >>= fun b => pure (f a b)) :=
  first.bind fun a => second.return (f a)

theorem Uses.congr {names more : List String} {t : Taking α} (uses : Uses names t)
    (same : ∀ name, name ∈ names ↔ name ∈ more) : Uses more t := by
  intro arguments a succeeds
  rw [uses arguments a succeeds]
  apply List.filter_congr
  intro field _
  rw [decide_eq_decide, same]

end Taking

namespace Tag

open Taking

theorem uses_signature (read? : String → Option Signature) :
    Uses ["signature"] (takeSignature read?) :=
  (takes_string "signature").uses.bind fun _ => uses_orFault _

theorem uses_stability : Uses ["block"] takeStability :=
  (takes_string "block").uses.bind fun _ => uses_orFault _

/-- A tag that succeeds has asked for all of its parameters. -/
theorem value_uses (tag : Tag) : Uses tag.parameters tag.value := by
  cases tag with
  | tagged => exact (takes_any "tag").uses.both _ (takes_any "value").uses
  | custom => exact (takes_any "key").uses.both _ (takes_any "value").uses
  | negation => exact (takes_any "value").uses.return _
  | isBoolean => exact (takes_any "value").uses.return _
  | arithmetic op => exact (takes_number "left").uses.both _ (takes_number "right").uses
  | comparison op => exact (takes_number "left").uses.both _ (takes_number "right").uses
  | equal => exact (takes_any "left").uses.both _ (takes_any "right").uses
  | symbolName => exact (takes_symbol "value").uses.return _
  | first => exact (takes_list "value").uses.return _
  | last => exact (takes_list "value").uses.return _
  | nth =>
    exact (takes_list "value").uses.bind fun items =>
      (takes_number "index").uses.bind fun index => uses_orFault (itemAt items index)
  | raw => exact (takes_string "format").uses.both _ (takes_string "block").uses
  | styled style => exact (takes_any "value").uses.return _
  | declaration => exact (takes_string "kind").uses.both _ (takes_list "children").uses
  | titled => exact (takes_string "title").uses.both _ (takes_list "children").uses
  | callable kind => exact (uses_signature _).both _ (takes_list "children").uses
  | classDeclaration => exact (uses_signature _).both _ (takes_list "children").uses
  | code => exact (takes_string "language").uses.both _ (takes_string "block").uses
  | sample =>
    -- The caption is taken before the emphasis, against the order of the parameters.
    have taken : Uses ["language", "block", "line-numbers", "caption", "emphasise-lines"]
        sample.value :=
      (takes_string "language").uses.bind fun _ => (takes_string "block").uses.bind fun _ =>
        (takes_shapedOr reads_bool "line-numbers" true).uses.bind fun _ =>
          (takes_shapedOr reads_string "caption" defaultCaption).uses.both _
            (takes_optional "emphasise-lines").uses
    exact taken.congr fun name => by simp [parameters, or_comm, or_left_comm]
  | items ordered => exact (takes_list "items").uses.return _
  | visibility v => exact uses_pure _
  | text key => exact (takes_string "block").uses.return _
  | stability => exact uses_stability.return _
  | throws => exact (takes_any "name").uses.both _ (takes_string "block").uses
  | literal => exact (takes_string "block").uses.return _
  | link => exact (takes_any "text").uses.both _ (takes_any "url").uses
  | ref => exact (takes_string "id").uses.both _ (takes_string "block").uses
  | note kind => exact (takes_string "block").uses.return _
  | version change =>
    exact (takes_string "version").uses.both _ (takes_shapedOr reads_string "block" "").uses

end Tag

/-- A call that succeeds leaves none of what was bound. -/
theorem Tag.nothing_left {tag : Tag} {call : Invocation} {arguments : Arguments} {value : Value}
    (binding : Arguments.bind tag.parameters call = .ok arguments)
    (succeeds : (tag.value.on arguments).1 = .ok value) :
    (tag.value.on arguments).2.bound = [] := by
  rw [tag.value_uses arguments value succeeds, List.filter_eq_nil_iff]
  obtain ⟨rfl, known, -, -⟩ := (Arguments.bind_eq_ok_iff tag.nodup_parameters call _).mp binding
  intro field member
  have parameter : field.1 ∈ tag.parameters :=
    Invocation.mem_parameters_of_given known (List.mem_map_of_mem member)
  simpa using parameter

/-! ### What is missing -/

theorem Parameter.fault?_eq_missing {p : Parameter} {bound : Fields Value} {name : String}
    (broken : p.fault? bound = some (.missing name)) : p.name = name ∧ bound.get? name = none := by
  unfold fault? at broken
  split at broken
  next absent =>
    -- Only what is not bound is missing.
    split at broken
    · obtain rfl : p.name = name := by simpa using broken
      exact ⟨rfl, absent⟩
    · contradiction
  next value _ =>
    have other : ∀ demand : Demand, demand.fault? p.name value ≠ some (.missing name) := by
      intro demand
      fun_cases Demand.fault? p.name demand value <;> simp_all [Demand.fault?]
    exact absurd broken (other p.demand)

theorem missing_of_firstFault? {ps : List Parameter} {bound : Fields Value} {name : String}
    (first : firstFault? ps bound = some (.missing name)) :
    name ∈ ps.map Parameter.name ∧ bound.get? name = none := by
  obtain ⟨p, member, broken⟩ := List.exists_of_findSome?_eq_some first
  obtain ⟨rfl, absent⟩ := Parameter.fault?_eq_missing broken
  exact ⟨List.mem_map_of_mem member, absent⟩

/-- An argument is reported as missing only when the contract asks for it and it is not bound. -/
theorem Tag.missing_of_value {tag : Tag} {arguments : Arguments} {name : String}
    (failed : (tag.value.on arguments).1 = .error (.missing name)) :
    name ∈ tag.parameters ∧ arguments.bound.get? name = none := by
  cases first : firstFault? tag.contract arguments.bound with
  | some fault =>
    rw [value_error first] at failed
    obtain rfl := Except.error.inj failed
    rw [← tag.contract_names]
    exact missing_of_firstFault? first
  | none =>
    -- Where the contract is met, only the index of `nth` can be at fault.
    by_cases index : tag = nth
    · subst index
      obtain ⟨items, index, -, -, run⟩ := nth_ok first
      rw [run] at failed
      rcases fault_of_itemAt failed with other | other <;> contradiction
    · obtain ⟨value, run⟩ := value_ok index first
      rw [run] at failed
      contradiction

theorem Fault.missing_of_code {fault : Fault} (code : fault.code.name = "E101") :
    ∃ name, fault = .missing name := by
  cases fault with
  | missing name => exact ⟨name, rfl⟩
  | _ => simp [Fault.code, ErrorCode.name] at code

/-! ### Adding a keyword -/

/-- Where a parameter gets no positional value, the values go to the same parameters without it. -/
private theorem zip_filter_ne {names : List String} {values : List Value} {name : String}
    (fits : values.length ≤ names.length) (free : name ∉ Fields.keys (names.zip values)) :
    (names.filter fun p => p ≠ name).zip values = names.zip values ∧
      values.length ≤ (names.filter fun p => p ≠ name).length := by
  induction names generalizing values with
  | nil =>
    obtain rfl : values = [] := List.length_eq_zero_iff.mp (Nat.le_zero.mp fits)
    exact ⟨rfl, Nat.zero_le _⟩
  | cons first names ih =>
    cases values with
    | nil => exact ⟨by simp, Nat.zero_le _⟩
    | cons value values =>
      simp only [List.zip_cons_cons, Fields.keys, List.map_cons, List.mem_cons, not_or] at free
      obtain ⟨same, enough⟩ := ih (Nat.le_of_succ_le_succ fits) free.2
      -- The first parameter has a value, so it is not the one left out.
      have kept : first ≠ name := Ne.symm free.1
      rw [List.filter_cons_of_pos (by simpa using kept), List.zip_cons_cons, same]
      exact ⟨rfl, Nat.succ_le_succ enough⟩

section Keyword

variable {parameters : List String} {positional : List Value}
  {before after : List (String × Value)} {name : String}

private theorem keys_keyword (value : Value) :
    (Fields.keys (before ++ (name, value) :: after)).Perm
      (name :: Fields.keys (before ++ after)) :=
  List.perm_middle.map Prod.fst

private theorem unnamed_keyword (value : Value) :
    Invocation.unnamed ⟨positional, before ++ (name, value) :: after⟩ parameters =
      (Invocation.unnamed ⟨positional, before ++ after⟩ parameters).filter fun p => p ≠ name := by
  rw [Invocation.unnamed, Invocation.unnamed, List.filter_filter]
  apply List.filter_congr
  intro p _
  rw [Bool.eq_iff_iff]
  simp [(keys_keyword value).mem_iff]

/-- A parameter that is not bound can be bound by one more keyword, wherever that stands. Nothing
else is bound in another way. -/
theorem Arguments.bind_keyword (distinct : parameters.Nodup) (value : Value)
    {arguments : Arguments}
    (binding : bind parameters ⟨positional, before ++ after⟩ = .ok arguments)
    (known : name ∈ parameters) (free : arguments.bound.get? name = none) :
    ∃ more, bind parameters ⟨positional, before ++ (name, value) :: after⟩ = .ok more ∧
      ∀ other, more.bound.get? other =
        if name = other then some value else arguments.bound.get? other := by
  obtain ⟨rfl, all, once, fits⟩ := (bind_eq_ok_iff distinct _ _).mp binding
  rw [Fields.get?_eq_none_iff, Invocation.given, Fields.keys_append, List.mem_append,
    not_or] at free
  -- The positional values go where they went before.
  obtain ⟨same, enough⟩ := zip_filter_ne fits free.2
  rw [← unnamed_keyword value] at same enough
  have names : (Fields.keys (before ++ (name, value) :: after)).Perm
      (name :: Fields.keys (before ++ after)) := keys_keyword value
  have onceMore : (Fields.keys (before ++ (name, value) :: after)).Nodup :=
    names.nodup_iff.mpr (List.nodup_cons.mpr ⟨free.1, once⟩)
  have allMore : ∀ key ∈ Fields.keys (before ++ (name, value) :: after), key ∈ parameters := by
    intro key member
    rcases List.mem_cons.mp (names.mem_iff.mp member) with rfl | earlier
    · exact known
    · exact all key earlier
  refine ⟨_, (bind_eq_ok_iff distinct _ _).mpr ⟨rfl, allMore, onceMore, enough⟩, ?_⟩
  intro other
  have given : (Invocation.given ⟨positional, before ++ (name, value) :: after⟩ parameters).Perm
      ((name, value) :: Invocation.given ⟨positional, before ++ after⟩ parameters) := by
    rw [Invocation.given, same]
    exact List.perm_middle.append_right _
  have keys : (Fields.keys
      (Invocation.given ⟨positional, before ++ (name, value) :: after⟩ parameters)).Nodup :=
    Invocation.nodup_keys_given distinct onceMore
  rw [Fields.get?_perm other keys given, Fields.get?]

end Keyword

namespace Tag

/-- Adding the argument that is reported as missing, with some value, as a keyword anywhere among
those of the call. -/
inductive Supplies (tag : Tag) : Invocation → Invocation → Prop
  | keyword {positional : List Value} {before after : List (String × Value)} {name : String}
      (value : Value)
      (reported : tag.apply ⟨positional, before ++ after⟩ = .error (.missing name)) :
      Supplies tag ⟨positional, before ++ after⟩ ⟨positional, before ++ (name, value) :: after⟩

/-- Only a call that binds has arguments missing. -/
theorem binds_of_missing {tag : Tag} {call : Invocation} {name : String}
    (reported : tag.apply call = .error (.missing name)) :
    ∃ arguments, Arguments.bind tag.parameters call = .ok arguments := by
  cases binding : Arguments.bind tag.parameters call with
  | ok arguments => exact ⟨arguments, rfl⟩
  | error fault =>
    have failed : fault = .missing name := by simpa [apply, binding] using reported
    subst failed
    rcases Arguments.bind_code binding with code | code <;> contradiction

/-- What is reported as missing is a parameter that is not bound. Bound by a keyword, it is not
reported again, and the other parameters are bound as they were. -/
theorem supplied {tag : Tag} {positional : List Value} {before after : List (String × Value)}
    {name : String} {arguments : Arguments} (value : Value)
    (binding : Arguments.bind tag.parameters ⟨positional, before ++ after⟩ = .ok arguments)
    (reported : tag.apply ⟨positional, before ++ after⟩ = .error (.missing name)) :
    name ∈ tag.parameters ∧
      ∃ more,
        Arguments.bind tag.parameters ⟨positional, before ++ (name, value) :: after⟩ = .ok more ∧
        more.bound.get? name = some value ∧
        (∀ other, other ≠ name → more.bound.get? other = arguments.bound.get? other) ∧
        tag.apply ⟨positional, before ++ (name, value) :: after⟩ ≠ .error (.missing name) := by
  rw [apply_of_bind binding] at reported
  obtain ⟨parameter, absent⟩ := missing_of_value reported
  obtain ⟨more, bindingMore, bound⟩ :=
    Arguments.bind_keyword tag.nodup_parameters value binding parameter absent
  have here : more.bound.get? name = some value := by rw [bound, if_pos rfl]
  refine ⟨parameter, more, bindingMore, here, ?_, ?_⟩
  · intro other apart
    rw [bound, if_neg (Ne.symm apart)]
  · intro again
    rw [apply_of_bind bindingMore] at again
    -- Only a parameter that is not bound is reported, and this one is bound now.
    rw [(missing_of_value again).2] at here
    contradiction

/-- Every step adds a keyword, and there are no more keywords than parameters. -/
theorem supplies_terminates (tag : Tag) : WellFounded fun next call => Supplies tag call next := by
  have shrinks : ∀ next call, Supplies tag call next →
      tag.parameters.length - next.keywords.length <
        tag.parameters.length - call.keywords.length := by
    rintro _ _ (@⟨positional, before, after, name, value, reported⟩)
    obtain ⟨arguments, binding⟩ := binds_of_missing reported
    obtain ⟨-, more, bindingMore, -⟩ := supplied value binding reported
    -- The call binds with one keyword more, so that keyword is among the parameters.
    obtain ⟨-, known, once, -⟩ :=
      (Arguments.bind_eq_ok_iff tag.nodup_parameters _ _).mp bindingMore
    have count := Invocation.length_unnamed tag.nodup_parameters known once
    simp only [List.length_append, List.length_cons] at count ⊢
    omega
  exact Subrelation.wf (shrinks _ _) (measure fun call : Invocation =>
    tag.parameters.length - call.keywords.length).wf

/-- A call that binds and succeeds has had all of its arguments taken. One that fails because an
argument is missing names a parameter that is not bound; given as a keyword, with any value and
anywhere among the others, it is bound, the other parameters stay bound as they were, and it is not
reported as missing again. However missing arguments are supplied, it comes to an end. -/
theorem arguments_taken_or_supplied (tag : Tag) (call : Invocation) (arguments : Arguments)
    (binding : Arguments.bind tag.parameters call = .ok arguments) :
    (∀ value, (tag.value.on arguments).1 = .ok value →
      (tag.value.on arguments).2.bound = []) ∧
    (∀ fault, tag.apply call = .error fault → fault.code.name = "E101" →
      ∃ name ∈ tag.parameters, fault = .missing name ∧
        ∀ before after value, call.keywords = before ++ after →
          ∃ more, Arguments.bind tag.parameters
              ⟨call.positional, before ++ (name, value) :: after⟩ = .ok more ∧
            more.bound.get? name = some value ∧
            (∀ other, other ≠ name → more.bound.get? other = arguments.bound.get? other) ∧
            tag.apply ⟨call.positional, before ++ (name, value) :: after⟩ ≠
              .error (.missing name)) ∧
    Acc (fun next call => Supplies tag call next) call := by
  refine ⟨fun value => nothing_left binding, ?_, (supplies_terminates tag).apply call⟩
  intro fault failed code
  obtain ⟨name, rfl⟩ := Fault.missing_of_code code
  have parameter := (missing_of_value ((apply_of_bind binding).symm.trans failed)).1
  refine ⟨name, parameter, rfl, ?_⟩
  intro before after value keywords
  obtain ⟨positional, _⟩ := call
  obtain rfl := keywords
  exact (supplied value binding failed).2

/-- The code of an example is missing behind its caption. A value of the wrong shape is reported
otherwise when it is supplied; with a string the call succeeds and leaves nothing. -/
theorem arguments_taken_or_supplied_sample :
    let caption : String × Value := ("caption", .string "f")
    let bound : Arguments := ⟨[caption, ("language", .string "js")]⟩
    let filled : Arguments := ⟨[("block", .string "f()"), caption, ("language", .string "js")]⟩
    Arguments.bind sample.parameters ⟨[.string "js"], [caption]⟩ = .ok bound ∧
      sample.apply ⟨[.string "js"], [caption]⟩ = .error (.missing "block") ∧
      (∃ more, Arguments.bind sample.parameters
          ⟨[.string "js"], [("block", .bool true), caption]⟩ = .ok more ∧
        more.bound.get? "block" = some (.bool true) ∧
        more.bound.get? "language" = bound.bound.get? "language") ∧
      sample.apply ⟨[.string "js"], [("block", .bool true), caption]⟩ ≠ .error (.missing "block") ∧
      Arguments.bind sample.parameters ⟨[.string "js"], [("block", .string "f()"), caption]⟩ =
        .ok filled ∧
      (∃ value, (sample.value.on filled).1 = .ok value) ∧
      (sample.value.on filled).2.bound = [] := by
  intro caption bound filled
  have reported : sample.apply ⟨[.string "js"], [caption]⟩ = .error (.missing "block") := rfl
  obtain ⟨name, -, same, supply⟩ :=
    (arguments_taken_or_supplied sample ⟨[.string "js"], [caption]⟩ bound rfl).2.1 _ reported rfl
  obtain rfl := Fault.missing.inj same
  obtain ⟨more, binds, here, others, progress⟩ := supply [] [caption] (.bool true) rfl
  have taken := (arguments_taken_or_supplied sample
    ⟨[.string "js"], [("block", .string "f()"), caption]⟩ filled rfl).1
  exact ⟨rfl, reported, ⟨more, binds, here, others "language" (by decide)⟩, progress, rfl,
    ⟨_, rfl⟩, taken _ rfl⟩

end Tag

end Weave
