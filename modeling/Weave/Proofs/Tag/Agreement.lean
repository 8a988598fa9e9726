import Weave.Proofs.Tag.Binding
import Weave.Proofs.Tag.Invocation

/-!
# Calls that give the same values

A tag looks at its arguments by name only. So calls that give the same values to the same parameters
have the same outcome, whether a value is written as a keyword or by its position and whatever the
order of the keywords.
-/

namespace Weave

/-- Whether two lots of arguments are the same under every name. -/
def Arguments.Agree (first second : Arguments) : Prop :=
  ∀ name, first.bound.get? name = second.bound.get? name

theorem Arguments.Agree.erase {first second : Arguments} (agree : first.Agree second)
    (name : String) :
    Agree ⟨first.bound.erase name⟩ ⟨second.bound.erase name⟩ := by
  intro other
  simp only [Fields.get?_erase, agree other]

namespace Taking

variable {α β γ : Type}

/-- A computation that looks at its arguments by name only: from arguments that agree it gives the
same result, and what it leaves of them agrees. -/
def ByName (t : Taking α) : Prop :=
  ∀ first second : Arguments, first.Agree second →
    (t.on first).1 = (t.on second).1 ∧ (t.on first).2.Agree (t.on second).2

theorem byName_pure (a : α) : ByName (pure a) :=
  fun _ _ agree => ⟨rfl, agree⟩

theorem byName_orFault (result : Except Fault α) : ByName (Tag.orFault result) :=
  fun _ _ agree => ⟨rfl, agree⟩

theorem ByName.bind {t : Taking α} {next : α → Taking β} (start : ByName t)
    (behind : ∀ a, ByName (next a)) : ByName (t >>= next) := by
  intro first second agree
  have same := start first second agree
  rw [on_bind, on_bind]
  cases one : t.on first with
  | mk result rest =>
    cases other : t.on second with
    | mk result' rest' =>
      rw [one, other] at same
      obtain ⟨rfl, left⟩ := same
      cases result with
      | ok a => exact behind a rest rest' left
      | error fault => exact ⟨rfl, left⟩

theorem ByName.return {t : Taking α} (f : α → β) (start : ByName t) :
    ByName (t >>= fun a => pure (f a)) :=
  start.bind fun a => byName_pure (f a)

theorem ByName.both {t : Taking α} {u : Taking β} (f : α → β → γ) (start : ByName t)
    (behind : ByName u) : ByName (t >>= fun a => u >>= fun b => pure (f a b)) :=
  start.bind fun a => behind.return (f a)

theorem byName_optional (name : String) : ByName (optional name) := by
  intro first second agree
  rw [on_optional, on_optional, agree name]
  exact ⟨rfl, agree.erase name⟩

theorem byName_any (name : String) : ByName (any name) := by
  intro first second agree
  rw [on_any, on_any, agree name]
  exact ⟨rfl, agree.erase name⟩

theorem byName_shaped (name : String) (wanted : Shape) (read? : Value → Option α) :
    ByName (shaped name wanted read?) := by
  intro first second agree
  rw [on_shaped, on_shaped, agree name]
  exact ⟨rfl, agree.erase name⟩

theorem byName_shapedOr (name : String) (wanted : Shape) (read? : Value → Option α)
    (default : α) : ByName (shapedOr name wanted read? default) := by
  intro first second agree
  rw [on_shapedOr, on_shapedOr, agree name]
  exact ⟨rfl, agree.erase name⟩

theorem byName_string (name : String) : ByName (string name) := byName_shaped name _ _

theorem byName_number (name : String) : ByName (number name) := byName_shaped name _ _

theorem byName_list (name : String) : ByName (list name) := byName_shaped name _ _

theorem byName_symbol (name : String) : ByName (symbol name) := byName_shaped name _ _

end Taking

namespace Tag

open Taking

theorem byName_signature (read? : String → Option Signature) : ByName (takeSignature read?) :=
  (byName_string "signature").bind fun _ => byName_orFault _

theorem byName_stability : ByName takeStability :=
  (byName_string "block").bind fun _ => byName_orFault _

/-- No tag observes the order in which its arguments are kept. -/
theorem value_byName (tag : Tag) : ByName tag.value := by
  cases tag with
  | tagged => exact (byName_any "tag").both _ (byName_any "value")
  | custom => exact (byName_any "key").both _ (byName_any "value")
  | negation => exact (byName_any "value").return _
  | isBoolean => exact (byName_any "value").return _
  | arithmetic op => exact (byName_number "left").both _ (byName_number "right")
  | comparison op => exact (byName_number "left").both _ (byName_number "right")
  | equal => exact (byName_any "left").both _ (byName_any "right")
  | symbolName => exact (byName_symbol "value").return _
  | first => exact (byName_list "value").return _
  | last => exact (byName_list "value").return _
  | nth =>
    exact (byName_list "value").bind fun items =>
      (byName_number "index").bind fun index => byName_orFault (itemAt items index)
  | raw => exact (byName_string "format").both _ (byName_string "block")
  | styled style => exact (byName_any "value").return _
  | declaration => exact (byName_string "kind").both _ (byName_list "children")
  | titled => exact (byName_string "title").both _ (byName_list "children")
  | callable kind => exact (byName_signature _).both _ (byName_list "children")
  | classDeclaration => exact (byName_signature _).both _ (byName_list "children")
  | code => exact (byName_string "language").both _ (byName_string "block")
  | sample =>
    exact (byName_string "language").bind fun _ => (byName_string "block").bind fun _ =>
      (byName_shapedOr "line-numbers" _ _ _).bind fun _ =>
        (byName_shapedOr "caption" _ _ _).both _ (byName_optional "emphasise-lines")
  | items ordered => exact (byName_list "items").return _
  | visibility v => exact byName_pure _
  | text key => exact (byName_string "block").return _
  | stability => exact byName_stability.return _
  | throws => exact (byName_any "name").both _ (byName_string "block")
  | literal => exact (byName_string "block").return _
  | link => exact (byName_any "text").both _ (byName_any "url")
  | ref => exact (byName_string "id").both _ (byName_string "block")
  | note kind => exact (byName_string "block").return _
  | version change => exact (byName_string "version").both _ (byName_shapedOr "block" _ _ _)

/-- The outcome of a call that binds depends on what it gives to each parameter. -/
private theorem apply_of_given? {tag : Tag} {first second : Invocation}
    (binds : ∃ arguments, Arguments.bind tag.parameters first = .ok arguments)
    (alsoBinds : ∃ arguments, Arguments.bind tag.parameters second = .ok arguments)
    (same : ∀ name, first.given? tag.parameters name = second.given? tag.parameters name) :
    tag.apply first = tag.apply second := by
  obtain ⟨one, binding⟩ := binds
  obtain ⟨other, otherBinding⟩ := alsoBinds
  have oneGiven := ((Arguments.bind_eq_ok_iff tag.nodup_parameters first one).mp binding).1
  have otherGiven :=
    ((Arguments.bind_eq_ok_iff tag.nodup_parameters second other).mp otherBinding).1
  have agree : one.Agree other := by
    subst oneGiven otherGiven
    exact same
  rw [apply_of_bind binding, apply_of_bind otherBinding]
  exact (tag.value_byName one other agree).1

/-- A call binds in every order of its keywords, and gives the same to each parameter. -/
private theorem bind_perm {parameters : List String} (distinct : parameters.Nodup)
    (positional : List Value) {keywords others : List (String × Value)}
    (perm : keywords.Perm others)
    (binds : ∃ arguments, Arguments.bind parameters ⟨positional, keywords⟩ = .ok arguments) :
    (∃ arguments, Arguments.bind parameters ⟨positional, others⟩ = .ok arguments) ∧
      ∀ name, Invocation.given? ⟨positional, keywords⟩ parameters name =
        Invocation.given? ⟨positional, others⟩ parameters name := by
  obtain ⟨arguments, binding⟩ := binds
  obtain ⟨-, known, once, fits⟩ := (Arguments.bind_eq_ok_iff distinct _ _).mp binding
  have names : (Fields.keys keywords).Perm (Fields.keys others) := perm.map Prod.fst
  -- Which parameters are left for positional values depends on the names that keywords have.
  have unnamed : Invocation.unnamed ⟨positional, keywords⟩ parameters =
      Invocation.unnamed ⟨positional, others⟩ parameters := by
    apply List.filter_congr
    intro p _
    simp only [names.mem_iff]
  constructor
  · refine ⟨_, (Arguments.bind_eq_ok_iff distinct _ _).mpr ⟨rfl, ?_, names.nodup_iff.mp once, ?_⟩⟩
    · exact fun name member => known name (names.mem_iff.mpr member)
    · rw [← unnamed]
      exact fits
  · intro name
    simp only [Invocation.given?, Invocation.given, Fields.get?_append, unnamed,
      Fields.get?_perm name once perm]

/-- Calls that bind and give the same values to the same parameters have the same outcome, however
their arguments are written; and a call that succeeds does so in every order of its keywords, with
the same value. -/
theorem apply_determined_by_given (tag : Tag) :
    (∀ first second : Invocation,
      (∃ arguments, Arguments.bind tag.parameters first = .ok arguments) →
      (∃ arguments, Arguments.bind tag.parameters second = .ok arguments) →
      (∀ name, first.given? tag.parameters name = second.given? tag.parameters name) →
        tag.apply first = tag.apply second ∧ invoke tag.name first = invoke tag.name second) ∧
    (∀ (positional : List Value) (keywords others : List (String × Value)),
      keywords.Perm others → ∀ value, tag.apply ⟨positional, keywords⟩ = .ok value →
        tag.apply ⟨positional, others⟩ = .ok value) := by
  constructor
  · intro first second binds alsoBinds same
    have outcome := apply_of_given? binds alsoBinds same
    refine ⟨outcome, ?_⟩
    rw [invoke_of_found (ofName?_name tag), invoke_of_found (ofName?_name tag), outcome]
  · intro positional keywords others perm value applied
    -- A call that succeeds has bound.
    have binds : ∃ arguments,
        Arguments.bind tag.parameters ⟨positional, keywords⟩ = .ok arguments := by
      cases binding : Arguments.bind tag.parameters ⟨positional, keywords⟩ with
      | ok arguments => exact ⟨arguments, rfl⟩
      | error fault => simp [apply, binding] at applied
    obtain ⟨alsoBinds, same⟩ := bind_perm tag.nodup_parameters positional perm binds
    rw [← apply_of_given? binds alsoBinds same, applied]

/-- A link is the same with its text by position and its target by keyword, with both by keyword,
and with the keywords the other way round. -/
theorem link_apply_keywords :
    link.apply ⟨[.string "Manual"], [("url", .string "/manual")]⟩ =
        link.apply ⟨[], [("text", .string "Manual"), ("url", .string "/manual")]⟩ ∧
      link.apply ⟨[], [("url", .string "/manual"), ("text", .string "Manual")]⟩ =
        .ok (.node (.link (.string "/manual") (.string "Manual"))) := by
  constructor
  · exact ((apply_determined_by_given link).1 _ _ ⟨_, rfl⟩ ⟨_, rfl⟩ fun _ => rfl).1
  · exact (apply_determined_by_given link).2 [] _ _ (List.Perm.swap _ _ []) _ rfl

end Tag

end Weave
