import Weave.Proofs.Tag.Binding

/-!
# What becomes of a call that is bound

Binding succeeds exactly when the keywords name parameters, each another one, and there is a
parameter for every value; then no value is lost. Otherwise the first keyword that is at fault is
reported, and the positional values only when no keyword is.
-/

namespace Weave

namespace Invocation

variable {parameters : List String} {call : Invocation}

/-- Every parameter is named by a keyword or left to the positional values. -/
theorem length_unnamed (distinct : parameters.Nodup)
    (known : ∀ name ∈ Fields.keys call.keywords, name ∈ parameters)
    (once : (Fields.keys call.keywords).Nodup) :
    (call.unnamed parameters).length + call.keywords.length = parameters.length := by
  -- The parameters that keywords name are the keywords in another order.
  have named : (parameters.filter fun p => p ∈ Fields.keys call.keywords).Perm
      (Fields.keys call.keywords) := by
    refine (List.perm_ext_iff_of_nodup (distinct.filter _) once).mpr fun name => ?_
    simp only [List.mem_filter, decide_eq_true_eq, and_iff_right_iff_imp]
    exact known name
  have count : call.keywords.length =
      (parameters.filter fun p => p ∈ Fields.keys call.keywords).length := by
    rw [named.length_eq, Fields.keys, List.length_map]
  have split := List.length_eq_length_filter_add
    (fun p => decide (p ∈ Fields.keys call.keywords)) (l := parameters)
  simp only [unnamed, decide_not]
  omega

/-- No parameter is given two values. -/
theorem nodup_keys_given (distinct : parameters.Nodup)
    (once : (Fields.keys call.keywords).Nodup) :
    (Fields.keys (call.given parameters)).Nodup := by
  have left := Fields.keys_zip_sublist (call.unnamed parameters) call.positional
  rw [given, Fields.keys_append, List.nodup_append]
  refine ⟨once, left.nodup (distinct.filter _), ?_⟩
  rintro name named other member rfl
  -- The positional values go to parameters that no keyword names.
  have unnamed := List.of_mem_filter (left.subset member)
  exact absurd named (by simpa using unnamed)

theorem mem_parameters_of_given
    (known : ∀ name ∈ Fields.keys call.keywords, name ∈ parameters) {name : String}
    (member : name ∈ Fields.keys (call.given parameters)) : name ∈ parameters := by
  rw [given, Fields.keys_append, List.mem_append] at member
  rcases member with keyword | positional
  · exact known name keyword
  · have left := Fields.keys_zip_sublist (call.unnamed parameters) call.positional
    exact List.mem_of_mem_filter (left.subset positional)

theorem length_given (fits : call.positional.length ≤ (call.unnamed parameters).length) :
    (call.given parameters).length = call.positional.length + call.keywords.length := by
  rw [given, List.length_append, List.length_zip, Nat.min_eq_right fits, Nat.add_comm]

theorem given?_of_mem (distinct : parameters.Nodup) (once : (Fields.keys call.keywords).Nodup)
    {name : String} {value : Value} (member : (name, value) ∈ call.given parameters) :
    call.given? parameters name = some value :=
  (Fields.get?_eq_some_iff name value _ (nodup_keys_given distinct once)).mpr member

theorem mem_given_of_positional {place : Nat} {name : String} {value : Value}
    (free : (call.unnamed parameters)[place]? = some name)
    (here : call.positional[place]? = some value) : (name, value) ∈ call.given parameters := by
  have paired : ((call.unnamed parameters).zip call.positional)[place]? = some (name, value) := by
    rw [List.getElem?_zip_eq_some]
    exact ⟨free, here⟩
  exact List.mem_append_right _ (List.mem_of_getElem? paired)

end Invocation

namespace Arguments

/-- The first keyword at fault names no parameter, or a parameter that one before it names. -/
inductive FirstAtFault (parameters : List String) : List (String × Value) → Fault → Prop
  | unknown {before : List (String × Value)} {name : String} (value : Value)
      (after : List (String × Value))
      (clean : ∀ key ∈ Fields.keys before, key ∈ parameters) (once : (Fields.keys before).Nodup)
      (stranger : name ∉ parameters) :
      FirstAtFault parameters (before ++ (name, value) :: after)
        (.unexpectedKeyword name parameters)
  | repeated {before : List (String × Value)} {name : String} (value : Value)
      (after : List (String × Value))
      (clean : ∀ key ∈ Fields.keys before, key ∈ parameters) (once : (Fields.keys before).Nodup)
      (known : name ∈ parameters) (again : name ∈ Fields.keys before) :
      FirstAtFault parameters (before ++ (name, value) :: after) (.repeated name)

variable {parameters : List String}

theorem bindKeywords_append {bound middle : Fields Value} {before : List (String × Value)}
    (after : List (String × Value)) (binds : bindKeywords parameters bound before = .ok middle) :
    bindKeywords parameters bound (before ++ after) = bindKeywords parameters middle after := by
  induction before generalizing bound with
  | nil =>
    obtain rfl := Except.ok.inj binds
    rfl
  | cons head rest ih =>
    obtain ⟨name, value⟩ := head
    rw [bindKeywords] at binds
    rw [List.cons_append, bindKeywords]
    split at binds
    · contradiction
    next known =>
      split at binds
      · contradiction
      next fresh => rw [if_neg known, if_neg fresh, ih binds]

theorem bindKeywords_of_firstAtFault {keywords : List (String × Value)} {fault : Fault}
    (first : FirstAtFault parameters keywords fault) :
    bindKeywords parameters [] keywords = .error fault := by
  -- What stands before the keyword binds, so it is this keyword that is reported.
  have bindsBefore {before : List (String × Value)}
      (clean : ∀ key ∈ Fields.keys before, key ∈ parameters)
      (once : (Fields.keys before).Nodup) : bindKeywords parameters [] before = .ok before :=
    (bindKeywords_eq_ok_iff parameters [] before before List.nodup_nil).mpr ⟨rfl, clean, once⟩
  cases first with
  | unknown value after clean once stranger =>
    rw [bindKeywords_append _ (bindsBefore clean once), bindKeywords, if_pos stranger]
  | repeated value after clean once known again =>
    rw [bindKeywords_append _ (bindsBefore clean once), bindKeywords,
      if_neg (not_not_intro known), if_pos ((Fields.isSome_get?_iff _ _).mpr again)]

/-- Keywords that do not all bind have a first one at fault. -/
private theorem firstAtFault_of_bindKeywords {before keywords : List (String × Value)}
    {fault : Fault} (clean : ∀ key ∈ Fields.keys before, key ∈ parameters)
    (once : (Fields.keys before).Nodup)
    (failed : bindKeywords parameters before keywords = .error fault) :
    FirstAtFault parameters (before ++ keywords) fault := by
  -- The keywords that are bound already carry the induction: they have no fault.
  induction keywords generalizing before with
  | nil => contradiction
  | cons head rest ih =>
    obtain ⟨name, value⟩ := head
    rw [bindKeywords] at failed
    split at failed
    next stranger =>
      obtain rfl := Except.error.inj failed
      exact .unknown value rest clean once stranger
    next known =>
      have known : name ∈ parameters := not_not.mp known
      split at failed
      next again =>
        obtain rfl := Except.error.inj failed
        exact .repeated value rest clean once known ((Fields.isSome_get?_iff _ _).mp again)
      next fresh =>
        -- The keyword joins those before it.
        have fresh : name ∉ Fields.keys before := mt (Fields.isSome_get?_iff name before).mpr fresh
        rw [Fields.insert_of_fresh name value before fresh] at failed
        have cleaner : ∀ key ∈ Fields.keys (before ++ [(name, value)]), key ∈ parameters := by
          intro key member
          rw [Fields.keys_append, List.mem_append] at member
          rcases member with earlier | last
          · exact clean key earlier
          · obtain rfl : key = name := List.mem_singleton.mp last
            exact known
        have first := ih cleaner (Fields.nodup_keys_concat value once fresh) failed
        rwa [List.append_assoc, List.singleton_append] at first

theorem bindKeywords_eq_error_iff {keywords : List (String × Value)} {fault : Fault} :
    bindKeywords parameters [] keywords = .error fault ↔
      FirstAtFault parameters keywords fault :=
  ⟨@firstAtFault_of_bindKeywords parameters [] keywords fault (by simp [Fields.keys])
    List.nodup_nil, bindKeywords_of_firstAtFault⟩

theorem bindPositional_eq_error_iff {bound : Fields Value} {values : List Value} {fault : Fault} :
    bindPositional parameters bound values = .error fault ↔
      (parameters.filter fun p => p ∉ Fields.keys bound).length < values.length ∧
        fault = .tooManyPositionals parameters := by
  simp only [bindPositional, filter_free]
  split
  next many => simp only [Except.error.injEq, many, true_and, eq_comm]
  next fits => simp only [reduceCtorEq, fits, false_and]

private theorem bind_eq_error_iff_exists (call : Invocation) (fault : Fault) :
    bind parameters call = .error fault ↔
      bindKeywords parameters [] call.keywords = .error fault ∨
      ∃ bound, bindKeywords parameters [] call.keywords = .ok bound ∧
        bindPositional parameters bound call.positional = .error fault := by
  unfold bind
  cases bindKeywords parameters [] call.keywords with
  | error other => simp
  | ok bound =>
    simp only [reduceCtorEq, false_or, Except.ok.injEq, exists_eq_left']
    cases bindPositional parameters bound call.positional <;> simp

/-- Too many positional values are reported only when no keyword is at fault. -/
theorem bind_eq_error_iff (distinct : parameters.Nodup) (call : Invocation) (fault : Fault) :
    bind parameters call = .error fault ↔
      FirstAtFault parameters call.keywords fault ∨
      (∀ name ∈ Fields.keys call.keywords, name ∈ parameters) ∧
        (Fields.keys call.keywords).Nodup ∧
        parameters.length < call.positional.length + call.keywords.length ∧
        fault = .tooManyPositionals parameters := by
  rw [bind_eq_error_iff_exists, bindKeywords_eq_error_iff]
  simp only [bindKeywords_eq_ok_iff parameters [] _ call.keywords List.nodup_nil,
    bindPositional_eq_error_iff, List.nil_append, and_assoc, exists_eq_left]
  refine or_congr_right <| and_congr_right fun known => and_congr_right fun once =>
    and_congr_left fun _ => ?_
  -- Where no keyword is at fault, each takes one parameter away from the positional values.
  have count : (parameters.filter fun p => p ∉ Fields.keys call.keywords).length +
      call.keywords.length = parameters.length := Invocation.length_unnamed distinct known once
  omega

/-- Binding succeeds exactly when every keyword names a parameter, no two the same one, and there
are parameters enough. Then as many parameters are bound as there are values, that of a keyword to
its value and the free ones, in order, to the positional values. Otherwise the first keyword at
fault is reported, or the number of positional values when none is. -/
theorem bind_outcome (distinct : parameters.Nodup) (call : Invocation) :
    ((∃ arguments, bind parameters call = .ok arguments) ↔
      (∀ name ∈ Fields.keys call.keywords, name ∈ parameters) ∧
        (Fields.keys call.keywords).Nodup ∧
        call.positional.length + call.keywords.length ≤ parameters.length) ∧
    (∀ arguments, bind parameters call = .ok arguments →
      (Fields.keys arguments.bound).Nodup ∧
        (∀ name ∈ Fields.keys arguments.bound, name ∈ parameters) ∧
        arguments.bound.length = call.positional.length + call.keywords.length ∧
        (∀ (name : String) (value : Value), (name, value) ∈ call.keywords →
          arguments.bound.get? name = some value) ∧
        (∀ (place : Nat) (value : Value), call.positional[place]? = some value →
          ∃ name, (call.unnamed parameters)[place]? = some name ∧
            arguments.bound.get? name = some value)) ∧
    (∀ fault, bind parameters call = .error fault ↔
      FirstAtFault parameters call.keywords fault ∨
      (∀ name ∈ Fields.keys call.keywords, name ∈ parameters) ∧
        (Fields.keys call.keywords).Nodup ∧
        parameters.length < call.positional.length + call.keywords.length ∧
        fault = .tooManyPositionals parameters) ∧
    (∀ name, (Fault.unexpectedKeyword name parameters).violation.code.name = "E102" ∧
      (Fault.repeated name).violation.code.name = "E103" ∧
      (Fault.tooManyPositionals parameters).violation.code.name = "E102") ∧
    ∀ tag : Tag, tag.parameters.Nodup := by
  refine ⟨?_, ?_, bind_eq_error_iff distinct call, fun _ => ⟨rfl, rfl, rfl⟩,
    Tag.nodup_parameters⟩
  · simp only [bind_eq_ok_iff distinct, exists_eq_left]
    refine and_congr_right fun known => and_congr_right fun once => ?_
    -- Each keyword takes a parameter of its own away from the positional values.
    have count := Invocation.length_unnamed distinct known once
    omega
  · intro arguments binds
    obtain ⟨rfl, known, once, fits⟩ := (bind_eq_ok_iff distinct call arguments).mp binds
    refine ⟨Invocation.nodup_keys_given distinct once,
      fun name => Invocation.mem_parameters_of_given known, Invocation.length_given fits, ?_, ?_⟩
    · intro name value member
      exact Invocation.given?_of_mem distinct once (List.mem_append_left _ member)
    · intro place value here
      have bound : place < (call.unnamed parameters).length :=
        Nat.lt_of_lt_of_le (List.getElem?_eq_some_iff.mp here).1 fits
      have free := List.getElem?_eq_getElem bound
      exact ⟨_, free, Invocation.given?_of_mem distinct once
        (Invocation.mem_given_of_positional free here)⟩

/-- A keyword takes the second of three parameters, and the positional values go around it. -/
theorem bind_outcome_around_keyword :
    let parameters := ["language", "block", "caption"]
    let call : Invocation := ⟨[.string "js", .bool true], [("block", .string "f()")]⟩
    parameters.Nodup ∧ ∃ arguments, bind parameters call = .ok arguments ∧
      arguments.bound.get? "language" = some (.string "js") ∧
      arguments.bound.get? "block" = some (.string "f()") ∧
      arguments.bound.get? "caption" = some (.bool true) := by
  intro parameters call
  have distinct : parameters.Nodup := by decide
  have outcome := bind_outcome distinct call
  obtain ⟨arguments, binds⟩ := outcome.1.mpr (by decide)
  obtain ⟨-, -, -, keyword, positional⟩ := outcome.2.1 arguments binds
  obtain ⟨first, language, one⟩ := positional 0 (.string "js") rfl
  obtain ⟨second, caption, two⟩ := positional 1 (.bool true) rfl
  obtain rfl : "language" = first := Option.some.inj language
  obtain rfl : "caption" = second := Option.some.inj caption
  exact ⟨distinct, arguments, binds, one, keyword _ _ (List.mem_singleton_self _), two⟩

end Arguments

end Weave
