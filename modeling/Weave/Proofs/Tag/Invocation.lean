import Weave.Proofs.Tag.Contract

/-!
# What becomes of a call

Every tag follows its contract. `nth` may besides refuse an index when both of its arguments have
their shapes.
-/

namespace Weave

open Taking

namespace Value

theorem list_of_shape {value : Value} (shape : value.shape = .sequence) :
    ∃ items, value = .list items := by
  cases value with
  | list items => exact ⟨items, rfl⟩
  | _ => contradiction

theorem number_of_shape {value : Value} (shape : value.shape = .number) :
    ∃ index, value = .number index := by
  cases value with
  | number index => exact ⟨index, rfl⟩
  | _ => contradiction

end Value

/-- A required parameter without a fault is bound to a value of its shape. -/
theorem Parameter.bound_of_fault?_eq_none {name : String} {wanted : Shape} {bound : Fields Value}
    (clear : (needs name (.shaped wanted)).fault? bound = none) :
    ∃ value, bound.get? name = some value ∧ value.shape = wanted := by
  unfold fault? needs at clear
  cases found : bound.get? name with
  | none => simp [found] at clear
  | some value => exact ⟨value, rfl, by simpa [found, Demand.fault?] using clear⟩

theorem fault_of_itemAt {items : List Value} {index : Number} {fault : Fault}
    (failed : itemAt items index = .error fault) :
    fault = .notAnInteger index ∨ fault = .outOfRange index items.length := by
  unfold itemAt at failed
  split at failed
  · exact Or.inl (Except.error.inj failed).symm
  · split at failed
    · exact Or.inr (Except.error.inj failed).symm
    · contradiction

namespace Signature

theorem isNone_ofFunction? (text : String) :
    (ofFunction? text).isNone = Text.allBlank text := by
  unfold ofFunction?
  split
  next blank => simp [blank]
  next filled => split <;> simp_all

theorem isNone_ofClass? (text : String) :
    (ofClass? text).isNone = Text.allBlank text := by
  unfold ofClass?
  split
  next blank => simp [blank]
  next filled =>
    split
    · simp_all
    · split <;> simp_all

end Signature

namespace Tag

theorem takes_signature {read? : String → Option Signature}
    (blank : ∀ text, (read? text).isNone = Text.allBlank text) :
    Takes (.needs "signature" .signature) (takeSignature read?) := by
  apply takes_checked
  · intro text
    simp only [Demand.fault?, ← blank text]
    cases read? text <;> rfl
  · intro value other
    cases value <;> simp_all [Value.shape, Demand.fault?]

theorem takes_stability : Takes (.needs "block" .level) takeStability := by
  apply takes_checked
  · intro text
    -- The level is looked up by the comparison that the demand makes.
    have found : (Stability.ofName? text).isSome = _ := List.isSome_find?
    simp only [Demand.fault?, ← found]
    cases Stability.ofName? text <;> rfl
  · intro value other
    cases value <;> simp_all [Value.shape, Demand.fault?]

theorem sample_follows : Follows sample.contract sample.value := by
  intro arguments
  -- The caption is taken before the emphasis, against the order of the parameters.
  have taken : Follows
      [.needs "language" (.shaped .string), .needs "block" (.shaped .string),
        .admits "line-numbers" (.shaped .boolean), .admits "caption" (.shaped .string),
        .admits "emphasise-lines" .any] sample.value :=
    (takes_string "language").bind (fun _ =>
      (takes_string "block").bind (fun _ =>
        (takes_shapedOr reads_bool "line-numbers" true).bind (fun _ =>
          (takes_shapedOr reads_string "caption" defaultCaption).bind (fun _ =>
            (takes_optional "emphasise-lines").return _)
            (by decide)) (by decide)) (by decide)) (by decide)
  rw [taken arguments]
  -- Emphasis may have any shape, so it is never the first fault.
  simp only [contract, firstFault?_cons, Parameter.fault?_admits_any, firstFault?_nil,
    Option.or_none, Option.none_or]

/-- Every tag but `nth` faults exactly as its contract says. -/
theorem value_follows (tag : Tag) (other : tag ≠ nth) : Follows tag.contract tag.value := by
  cases tag with
  | nth => contradiction
  | tagged => exact (takes_any "tag").both _ (takes_any "value") (by decide)
  | custom => exact (takes_any "key").both _ (takes_any "value") (by decide)
  | negation => exact (takes_any "value").return _
  | isBoolean => exact (takes_any "value").return _
  | arithmetic op => exact (takes_number "left").both _ (takes_number "right") (by decide)
  | comparison op => exact (takes_number "left").both _ (takes_number "right") (by decide)
  | equal => exact (takes_any "left").both _ (takes_any "right") (by decide)
  | symbolName => exact (takes_symbol "value").return _
  | first => exact (takes_list "value").return _
  | last => exact (takes_list "value").return _
  | raw => exact (takes_string "format").both _ (takes_string "block") (by decide)
  | styled style => exact (takes_any "value").return _
  | declaration => exact (takes_string "kind").both _ (takes_list "children") (by decide)
  | titled => exact (takes_string "title").both _ (takes_list "children") (by decide)
  | callable kind =>
    exact (takes_signature Signature.isNone_ofFunction?).both _ (takes_list "children") (by decide)
  | classDeclaration =>
    exact (takes_signature Signature.isNone_ofClass?).both _ (takes_list "children") (by decide)
  | code => exact (takes_string "language").both _ (takes_string "block") (by decide)
  | sample => exact sample_follows
  | items ordered => exact (takes_list "items").return _
  | visibility v => exact follows_pure _
  | text key => exact (takes_string "block").return _
  | stability => exact takes_stability.return _
  | throws => exact (takes_any "name").both _ (takes_string "block") (by decide)
  | literal => exact (takes_string "block").return _
  | link => exact (takes_any "text").both _ (takes_any "url") (by decide)
  | ref => exact (takes_string "id").both _ (takes_string "block") (by decide)
  | note kind => exact (takes_string "block").return _
  | version change =>
    exact (takes_string "version").both _ (takes_shapedOr reads_string "block" "") (by decide)

private theorem firstFault?_nth (bound : Fields Value) :
    firstFault? nth.contract bound =
      ((Parameter.needs "value" (.shaped .sequence)).fault? bound).or
        ((Parameter.needs "index" (.shaped .number)).fault? bound) := by
  simp only [contract, firstFault?_cons, firstFault?_nil, Option.or_none]

theorem nth_error {arguments : Arguments} {fault : Fault}
    (first : firstFault? nth.contract arguments.bound = some fault) :
    (nth.value.on arguments).1 = .error fault := by
  rw [firstFault?_nth, Option.or_eq_some_iff] at first
  rcases first with broken | ⟨met, broken⟩
  · exact (takes_list "value").bind_error _ broken
  · -- Taking the items leaves the index as it was bound.
    obtain ⟨items, run⟩ := (takes_list "value").bind_ok
      (fun items => number "index" >>= fun index => orFault (itemAt items index)) met
    have same := Parameter.fault?_erase (.needs "index" (.shaped .number)) "value"
      arguments.bound (by decide)
    have ended : ((number "index" >>= fun index => orFault (itemAt items index)).on
        ⟨arguments.bound.erase "value"⟩).1 = .error fault :=
      (takes_number "index").bind_error _ (same.trans broken)
    exact (congrArg Prod.fst run).trans ended

theorem value_nth {items : List Value} {index : Number} {arguments : Arguments}
    (sequence : arguments.bound.get? "value" = some (.list items))
    (position : arguments.bound.get? "index" = some (.number index)) :
    (nth.value.on arguments).1 = itemAt items index := by
  have later : (arguments.bound.erase "value").get? "index" = some (.number index) := by
    rw [Fields.get?_erase, if_neg (by decide), position]
  have taken : (number "index").on ⟨arguments.bound.erase "value"⟩ = (.ok index, _) :=
    on_number later
  rw [value, on_bind, on_list sequence]
  dsimp only
  rw [on_bind, taken]
  rfl

theorem nth_ok {arguments : Arguments}
    (clear : firstFault? nth.contract arguments.bound = none) :
    ∃ items index, arguments.bound.get? "value" = some (.list items) ∧
      arguments.bound.get? "index" = some (.number index) ∧
      (nth.value.on arguments).1 = itemAt items index := by
  rw [firstFault?_nth, Option.or_eq_none_iff] at clear
  obtain ⟨sequence, first, shape⟩ := Parameter.bound_of_fault?_eq_none clear.1
  obtain ⟨items, rfl⟩ := Value.list_of_shape shape
  obtain ⟨position, second, shape⟩ := Parameter.bound_of_fault?_eq_none clear.2
  obtain ⟨index, rfl⟩ := Value.number_of_shape shape
  exact ⟨items, index, first, second, value_nth first second⟩

/-- The first parameter that is not met ends the evaluation, for every tag. -/
theorem value_error {tag : Tag} {arguments : Arguments} {fault : Fault}
    (first : firstFault? tag.contract arguments.bound = some fault) :
    (tag.value.on arguments).1 = .error fault := by
  by_cases index : tag = nth
  · subst index
    exact nth_error first
  · exact (faultOf_eq_some_iff _ _).mp ((value_follows tag index arguments).trans first)

theorem value_ok {tag : Tag} {arguments : Arguments} (other : tag ≠ nth)
    (clear : firstFault? tag.contract arguments.bound = none) :
    ∃ value, (tag.value.on arguments).1 = .ok value :=
  (faultOf_eq_none_iff _).mp ((value_follows tag other arguments).trans clear)

end Tag

/-! ### Codes -/

theorem Arguments.bindKeywords_code {parameters : List String} {bound : Fields Value}
    {keywords : List (String × Value)} {fault : Fault}
    (failed : bindKeywords parameters bound keywords = .error fault) :
    fault.code = .unexpectedArgument ∨ fault.code = .duplicateArgument := by
  induction keywords generalizing bound with
  | nil => contradiction
  | cons head rest ih =>
    obtain ⟨name, value⟩ := head
    unfold bindKeywords at failed
    split at failed
    · rw [← Except.error.inj failed]
      exact Or.inl rfl
    · split at failed
      · rw [← Except.error.inj failed]
        exact Or.inr rfl
      · exact ih failed

theorem Arguments.bindPositional_code {parameters : List String} {bound : Fields Value}
    {values : List Value} {fault : Fault}
    (failed : bindPositional parameters bound values = .error fault) :
    fault.code = .unexpectedArgument := by
  simp only [bindPositional] at failed
  split at failed
  · rw [← Except.error.inj failed]
    rfl
  · contradiction

theorem Arguments.bind_code {parameters : List String} {call : Invocation} {fault : Fault}
    (failed : bind parameters call = .error fault) :
    fault.code = .unexpectedArgument ∨ fault.code = .duplicateArgument := by
  unfold bind at failed
  split at failed
  next keywords =>
    rw [Except.error.inj failed] at keywords
    exact bindKeywords_code keywords
  next bound keywords =>
    split at failed
    next positional =>
      rw [Except.error.inj failed] at positional
      exact Or.inl (bindPositional_code positional)
    · contradiction

theorem invoke_of_found {name : String} {tag : Tag} (found : Tag.ofName? name = some tag)
    (call : Invocation) :
    invoke name call =
      (tag.apply call).mapError fun fault => fault.violation.withTag name := by
  have named := (Tag.ofName?_eq_some_iff name tag).mp found
  unfold invoke resolve
  simp only [found, named]
  cases tag.apply call <;> rfl

theorem invoke_of_unknown {name : String} (unknown : Tag.ofName? name = none)
    (call : Invocation) :
    invoke name call = .error ((Fault.unknownTag name).violation.withTag name) := by
  unfold invoke resolve
  simp only [unknown]

theorem Tag.apply_of_bind {tag : Tag} {call : Invocation} {arguments : Arguments}
    (binding : Arguments.bind tag.parameters call = .ok arguments) :
    tag.apply call = (tag.value.on arguments).1 := by
  simp only [apply, binding]
  rfl

end Weave
