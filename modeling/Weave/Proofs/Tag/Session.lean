import Weave.Proofs.Document.Canonical
import Weave.Proofs.Tag.Binding
import Weave.Proofs.Tag.Invocation

/-!
# What a session produces

A session is a sequence of calls in which a value that is produced may be given to later calls, also
inside other values. A call puts what it is given into a node of its own or picks it out of a list,
and changes nothing inside it. So every declaration and every section that a session produces looks
as it did when it was made.
-/

namespace Weave

/-- The values that a call gives. -/
def Invocation.values (call : Invocation) : List Value :=
  call.positional ++ call.keywords.map Prod.snd

theorem Fields.mem_of_get? {α : Type} {name : String} {value : α} {fields : Fields α}
    (found : fields.get? name = some value) : value ∈ fields.map Prod.snd := by
  induction fields with
  | nil => contradiction
  | cons head rest ih =>
    obtain ⟨key, first⟩ := head
    by_cases here : key = name
    · simp only [get?, here, if_true, Option.some.injEq] at found
      exact List.mem_cons.mpr (Or.inl found.symm)
    · simp only [get?, here, if_false] at found
      exact List.mem_cons_of_mem _ (ih found)

namespace Arguments

/-- Whether a property holds throughout every argument that is left. -/
def Throughout (property : Value → Prop) (arguments : Arguments) : Prop :=
  ∀ value ∈ arguments.bound.map Prod.snd, value.Throughout property

variable {property : Value → Prop} {arguments : Arguments}

theorem Throughout.erase (all : arguments.Throughout property) (name : String) :
    Throughout property ⟨arguments.bound.erase name⟩ := by
  intro value member
  obtain ⟨field, left, rfl⟩ := List.mem_map.mp member
  exact all _ (List.mem_map_of_mem (List.mem_filter.mp left).1)

/-- Binding gives the values of the call and no others. -/
theorem throughout_of_bind {parameters : List String} {call : Invocation}
    (distinct : parameters.Nodup) (binding : bind parameters call = .ok arguments)
    (all : ∀ value ∈ call.values, value.Throughout property) : arguments.Throughout property := by
  obtain ⟨rfl, -⟩ := (bind_eq_ok_iff distinct call arguments).mp binding
  intro value member
  apply all
  simp only [Invocation.given, List.map_append, List.mem_append] at member
  rcases member with keyword | positional
  · exact List.mem_append_right _ keyword
  · obtain ⟨⟨name, _⟩, paired, rfl⟩ := List.mem_map.mp positional
    exact List.mem_append_left _ (List.of_mem_zip paired).2

end Arguments

namespace Taking

variable {α β γ : Type} {property : Value → Prop} {result : α → Prop}

/-- From arguments throughout which a property holds, a computation gives only some results, and
leaves such arguments. -/
def Yields (property : Value → Prop) (t : Taking α) (result : α → Prop) : Prop :=
  ∀ arguments : Arguments, arguments.Throughout property →
    (∀ a, (t.on arguments).1 = .ok a → result a) ∧ (t.on arguments).2.Throughout property

theorem yields_pure {a : α} (holds : result a) : Yields property (pure a) result := by
  rintro arguments all
  refine ⟨?_, all⟩
  rintro _ ⟨⟩
  exact holds

theorem yields_orFault {outcome : Except Fault α} (holds : ∀ a, outcome = .ok a → result a) :
    Yields property (Tag.orFault outcome) result :=
  fun _ all => ⟨holds, all⟩

theorem Yields.bind {t : Taking α} {next : α → Taking β} {last : β → Prop}
    (start : Yields property t result) (behind : ∀ a, result a → Yields property (next a) last) :
    Yields property (t >>= next) last := by
  intro arguments all
  obtain ⟨ends, left⟩ := start arguments all
  rw [on_bind]
  cases run : t.on arguments with
  | mk outcome rest =>
    rw [run] at ends left
    cases outcome with
    | ok a => exact behind a (ends a rfl) rest left
    | error fault => exact ⟨fun _ failed => (nomatch failed), left⟩

theorem Yields.return {t : Taking α} {last : β → Prop} (f : α → β)
    (start : Yields property t result) (holds : ∀ a, result a → last (f a)) :
    Yields property (t >>= fun a => pure (f a)) last :=
  start.bind fun a first => yields_pure (holds a first)

theorem Yields.both {t : Taking α} {u : Taking β} {other : β → Prop} {last : γ → Prop}
    (f : α → β → γ) (start : Yields property t result) (behind : Yields property u other)
    (holds : ∀ a b, result a → other b → last (f a b)) :
    Yields property (t >>= fun a => u >>= fun b => pure (f a b)) last :=
  start.bind fun a first => behind.return (f a) fun b => holds a b first

theorem yields_optional (name : String) :
    Yields property (optional name) fun found => ∀ value ∈ found, value.Throughout property := by
  intro arguments all
  rw [on_optional]
  refine ⟨?_, all.erase name⟩
  rintro _ ⟨⟩ value found
  exact all value (Fields.mem_of_get? found)

theorem yields_any (name : String) : Yields property (any name) (Value.Throughout property) := by
  intro arguments all
  rw [on_any]
  refine ⟨?_, all.erase name⟩
  intro value taken
  cases found : arguments.bound.get? name with
  | none => simp [found] at taken
  | some bound =>
    obtain rfl : bound = value := by simpa [found] using taken
    exact all bound (Fields.mem_of_get? found)

/-- What is read off an argument is read off a value with the property. -/
theorem yields_shaped (name : String) (wanted : Shape) (read? : Value → Option α) :
    Yields property (shaped name wanted read?)
      fun a => ∃ value : Value, value.Throughout property ∧ read? value = some a :=
  (yields_any name).bind fun value all => yields_orFault fun a narrowed => by
    refine ⟨value, all, ?_⟩
    unfold narrow at narrowed
    cases read : read? value with
    | none => simp [read] at narrowed
    | some b =>
      obtain rfl : b = a := by simpa [read] using narrowed
      rfl

theorem yields_shapedOr (name : String) (wanted : Shape) (read? : Value → Option α) (default : α) :
    Yields property (shapedOr name wanted read? default) fun _ => True :=
  (yields_optional name).bind fun found _ => by
    cases found with
    | none => exact yields_pure trivial
    | some value => exact yields_orFault fun _ _ => trivial

theorem yields_string (name : String) : Yields property (string name) fun _ => True :=
  fun arguments all => ⟨fun _ _ => trivial, (yields_shaped name _ _ arguments all).2⟩

theorem yields_number (name : String) : Yields property (number name) fun _ => True :=
  fun arguments all => ⟨fun _ _ => trivial, (yields_shaped name _ _ arguments all).2⟩

theorem yields_symbol (name : String) : Yields property (symbol name) fun _ => True :=
  fun arguments all => ⟨fun _ _ => trivial, (yields_shaped name _ _ arguments all).2⟩

theorem yields_list (name : String) :
    Yields property (list name) fun items => ∀ item ∈ items, item.Throughout property := by
  intro arguments all
  obtain ⟨read, left⟩ := yields_shaped name .sequence Value.list? arguments all
  refine ⟨?_, left⟩
  intro items taken
  obtain ⟨value, throughout, listed⟩ := read items taken
  cases value with
  | list held =>
    obtain rfl : held = items := Option.some.inj listed
    exact ((Value.throughout_iff property _).mp throughout).2
  | _ => contradiction

end Taking

namespace Tag

open Taking Value

theorem yields_signature (read? : String → Option Signature) :
    Yields Canonical (takeSignature read?) fun s => ∃ text, read? text = some s :=
  (yields_string "signature").bind fun text _ => yields_orFault fun s read => by
    refine ⟨text, ?_⟩
    split at read
    next found => rw [found, Except.ok.inj read]
    · contradiction

theorem yields_stability : Yields Canonical takeStability fun _ => True :=
  (yields_string "block").bind fun _ _ => yields_orFault fun _ _ => trivial

/-- A declaration with a signature holds strings and its children. -/
theorem signed_throughout {kind : String} {s : Signature} {children : List Value}
    (signed : kind ∈ signedKinds) (named : Text.allBlank s.name = false)
    (parents : s.parents.isSome = true → kind = "class")
    (inside : ∀ child ∈ children, child.Throughout Canonical) :
    (Value.node (.declaration (Declaration.withSignature { kind, children } s))).Throughout
      Canonical := by
  have canonical := Declaration.signedBy_withSignature children signed named parents
  refine throughout_of_parts (Or.inr ⟨s, canonical⟩) ?_
  intro part held
  simp only [Value.parts, Node.parts, Declaration.withSignature_metadata, List.mem_append] at held
  rcases held with said | child
  · exact s.metadata_throughout part said
  · exact inside part child

theorem mem_or_nothing_of_itemAt {items : List Value} {index : Number} {item : Value}
    (found : itemAt items index = .ok item) : item ∈ items ∨ item = .nothing := by
  unfold itemAt at found
  split at found
  · contradiction
  · split at found
    · contradiction
    · obtain rfl := Except.ok.inj found
      cases there : items[index.toPosition]? with
      | none => exact Or.inr rfl
      | some item => exact Or.inl (List.mem_of_getElem? there)

/-- A tag whose arguments are canonical throughout makes such a value. -/
theorem value_yields (tag : Tag) : Yields Canonical tag.value (Throughout Canonical) := by
  cases tag with
  -- values made of texts, numbers and booleans
  | negation => exact (yields_any "value").return _ fun _ _ => throughout_leaf trivial rfl
  | isBoolean => exact (yields_any "value").return _ fun _ _ => throughout_leaf trivial rfl
  | arithmetic op =>
    exact (yields_number "left").both _ (yields_number "right") fun _ _ _ _ =>
      throughout_leaf trivial rfl
  | comparison op =>
    exact (yields_number "left").both _ (yields_number "right") fun _ _ _ _ =>
      throughout_leaf trivial rfl
  | equal =>
    exact (yields_any "left").both _ (yields_any "right") fun _ _ _ _ => throughout_leaf trivial rfl
  | symbolName => exact (yields_symbol "value").return _ fun _ _ => throughout_leaf trivial rfl
  | raw =>
    exact (yields_string "format").both _ (yields_string "block") fun _ _ _ _ =>
      throughout_leaf trivial rfl
  | code =>
    exact (yields_string "language").both _ (yields_string "block") fun _ _ _ _ =>
      throughout_leaf trivial rfl
  | visibility v => exact yields_pure (throughout_leaf trivial rfl)
  | text key => exact (yields_string "block").return _ fun _ _ => throughout_leaf trivial rfl
  | stability => exact yields_stability.return _ fun _ _ => throughout_leaf trivial rfl
  | literal => exact (yields_string "block").return _ fun _ _ => throughout_leaf trivial rfl
  | ref =>
    exact (yields_string "id").both _ (yields_string "block") fun _ _ _ _ =>
      throughout_leaf trivial rfl
  | note kind => exact (yields_string "block").return _ fun _ _ => throughout_leaf trivial rfl
  | version change =>
    exact (yields_string "version").both _ (yields_shapedOr "block" _ _ _) fun _ _ _ _ =>
      throughout_leaf trivial rfl
  -- items of a list
  | first =>
    refine (yields_list "value").return _ fun items inside => ?_
    cases items with
    | nil => exact throughout_leaf trivial rfl
    | cons item rest => exact inside item List.mem_cons_self
  | last =>
    refine (yields_list "value").return _ fun items inside => ?_
    cases found : items.getLast? with
    | none => exact throughout_leaf trivial rfl
    | some item => exact inside item (List.mem_of_getLast? found)
  | nth =>
    refine (yields_list "value").bind fun items inside =>
      (yields_number "index").bind fun index _ => yields_orFault fun item found => ?_
    rcases mem_or_nothing_of_itemAt found with member | rfl
    · exact inside item member
    · exact throughout_leaf trivial rfl
  -- nodes that hold what is given
  | tagged =>
    refine (yields_any "tag").both _ (yields_any "value") fun _ value _ held => ?_
    exact throughout_of_parts trivial (by simpa [Value.parts, Node.parts] using held)
  | custom =>
    refine (yields_any "key").both _ (yields_any "value") fun key value first second => ?_
    exact throughout_of_parts trivial
      (by simpa [Value.parts, Node.parts, Entry.parts] using ⟨first, second⟩)
  | styled style =>
    refine (yields_any "value").return _ fun value held => ?_
    exact throughout_of_parts trivial (by simpa [Value.parts, Node.parts] using held)
  | sample =>
    refine (yields_string "language").bind fun _ _ => (yields_string "block").bind fun _ _ =>
      (yields_shapedOr "line-numbers" _ _ _).bind fun _ _ =>
        (yields_shapedOr "caption" _ _ _).both _ (yields_optional "emphasise-lines") ?_
    intro _ emphasis _ held
    exact throughout_of_parts trivial (by simpa [Value.parts, Node.parts] using held)
  | items ordered =>
    refine (yields_list "items").return _ fun items inside => ?_
    exact throughout_of_parts trivial inside
  | throws =>
    refine (yields_any "name").both _ (yields_string "block") fun name _ held _ => ?_
    exact throughout_of_parts trivial (by simpa [Value.parts, Node.parts, Entry.parts] using held)
  | link =>
    refine (yields_any "text").both _ (yields_any "url") fun text url first second => ?_
    exact throughout_of_parts trivial (by simpa [Value.parts, Node.parts] using ⟨second, first⟩)
  -- declarations and sections
  | declaration =>
    refine (yields_string "kind").both _ (yields_list "children") fun _ children _ inside => ?_
    exact throughout_of_parts (Or.inl ⟨rfl, rfl⟩) inside
  | titled =>
    refine (yields_string "title").both _ (yields_list "children") fun _ children _ inside => ?_
    exact throughout_of_parts rfl inside
  | callable kind =>
    refine (yields_signature _).both _ (yields_list "children") fun s children read inside => ?_
    obtain ⟨text, read⟩ := read
    obtain ⟨named, orphan⟩ := Signature.ofFunction?_eq_some read
    exact signed_throughout (by cases kind <;> decide) named (by simp [orphan]) inside
  | classDeclaration =>
    refine (yields_signature _).both _ (yields_list "children") fun s children read inside => ?_
    obtain ⟨text, read⟩ := read
    exact signed_throughout (by decide) (Signature.ofClass?_eq_some read) (fun _ => rfl) inside

end Tag

/-! ### Sessions -/

/-- A call succeeds when its name is that of a tag, its arguments bind, and the tag makes a value of
them. -/
theorem invoke_eq_ok_iff (name : String) (call : Invocation) (value : Value) :
    invoke name call = .ok value ↔
      ∃ tag arguments, Tag.ofName? name = some tag ∧
        Arguments.bind tag.parameters call = .ok arguments ∧
          (tag.value.on arguments).1 = .ok value := by
  -- A call fails at the first of these stages that fails.
  cases found : Tag.ofName? name with
  | none => simp [invoke_of_unknown found]
  | some tag =>
    rw [invoke_of_found found]
    cases binding : Arguments.bind tag.parameters call with
    | error fault => simp [Tag.apply, binding, Except.mapError]
    | ok arguments =>
      rw [Tag.apply_of_bind binding]
      cases run : (tag.value.on arguments).1 <;> simp [binding, run, Except.mapError]

/-- A call to which canonical values are given produces a value that is canonical throughout. -/
theorem invoke_canonical {name : String} {call : Invocation} {value : Value}
    (given : ∀ value ∈ call.values, value.Throughout Value.Canonical)
    (made : invoke name call = .ok value) : value.Throughout Value.Canonical := by
  obtain ⟨tag, arguments, -, binding, run⟩ := (invoke_eq_ok_iff name call value).mp made
  have all := Arguments.throughout_of_bind tag.nodup_parameters binding given
  exact (tag.value_yields arguments all).1 value run

/-- What the calls of a session produce. A call that is refused produces nothing. -/
def produced (calls : List (String × Invocation)) : List Value :=
  calls.filterMap fun (name, call) => (invoke name call).toOption

/-- A value that one can write: made of earlier values, booleans, numbers, strings and symbols by
putting them into lists and records. -/
inductive Value.Written (earlier : List Value) : Value → Prop
  | earlier {value : Value} (member : value ∈ earlier) : Written earlier value
  | bool (b : Bool) : Written earlier (.bool b)
  | number (x : Number) : Written earlier (.number x)
  | string (s : String) : Written earlier (.string s)
  | symbol (label : String) : Written earlier (.symbol label)
  | list {items : List Value} (each : ∀ item ∈ items, Written earlier item) :
      Written earlier (.list items)
  | record {fields : List (String × Value)} (each : ∀ field ∈ fields, Written earlier field.2) :
      Written earlier (.record fields)

/-- Calls each of which is given values written with what the calls before it produce. -/
inductive Session : List (String × Invocation) → Prop
  | start : Session []
  | call {calls : List (String × Invocation)} (before : Session calls) (name : String)
      {call : Invocation} (written : ∀ value ∈ call.values, value.Written (produced calls)) :
      Session (calls ++ [(name, call)])

namespace Value

theorem Written.canonical {earlier : List Value} {value : Value} (written : value.Written earlier)
    (all : ∀ value ∈ earlier, value.Throughout Canonical) : value.Throughout Canonical := by
  induction written with
  | earlier member => exact all _ member
  | bool => exact throughout_leaf trivial rfl
  | number => exact throughout_leaf trivial rfl
  | string => exact throughout_leaf trivial rfl
  | symbol => exact throughout_leaf trivial rfl
  | list _ ih => exact throughout_of_parts trivial ih
  | record _ ih =>
    refine throughout_of_parts trivial ?_
    intro part held
    obtain ⟨field, member, rfl⟩ := List.mem_map.mp held
    exact ih field member

end Value

theorem mem_produced {calls : List (String × Invocation)} {value : Value} :
    value ∈ produced calls ↔ ∃ called ∈ calls, invoke called.1 called.2 = .ok value := by
  have result (outcome : Except Violation Value) :
      outcome.toOption = some value ↔ outcome = .ok value := by
    cases outcome <;> simp [Except.toOption]
  simp only [produced, List.mem_filterMap, result]

theorem mem_produced_snoc {calls : List (String × Invocation)} {name : String}
    {call : Invocation} {value : Value} :
    value ∈ produced (calls ++ [(name, call)]) ↔
      value ∈ produced calls ∨ invoke name call = .ok value := by
  simp only [mem_produced, List.mem_append, List.mem_singleton, or_and_right, exists_or,
    exists_eq_left]

/-- Every value of a session is canonical throughout. -/
theorem Session.canonical {calls : List (String × Invocation)} (session : Session calls) :
    ∀ value ∈ produced calls, value.Throughout Value.Canonical := by
  induction session with
  | start => exact fun _ made => absurd made List.not_mem_nil
  | call before name written ih =>
    intro value made
    -- What the last call produces is made of canonical values, as all before it are canonical.
    rcases mem_produced_snoc.mp made with earlier | last
    · exact ih value earlier
    · exact invoke_canonical (fun given member => (written given member).canonical ih) last

/-- Evaluation that ends without a violation gives what the calls produce. -/
theorem produced_of_evaluate {calls : List (String × Invocation)} {values : List Value}
    (evaluated : evaluate calls = .ok values) : produced calls = values := by
  induction calls generalizing values with
  | nil => exact Except.ok.inj evaluated
  | cons head rest ih =>
    obtain ⟨name, call⟩ := head
    rw [evaluate] at evaluated
    cases first : invoke name call with
    | error violation =>
      rw [first] at evaluated
      contradiction
    | ok value =>
      cases more : evaluate rest with
      | error violation =>
        rw [first, more] at evaluated
        contradiction
      | ok others =>
        rw [first, more] at evaluated
        rw [← Except.ok.inj evaluated, ← ih more]
        simp [produced, first, Except.toOption]

/-- Every declaration that stands anywhere in a value of a session is bare, or its metadata say
what its signature says; and every section is without metadata. -/
theorem declarations_of_session {calls : List (String × Invocation)} (session : Session calls) :
    ∀ value, (value ∈ produced calls ∨ ∃ values, evaluate calls = .ok values ∧ value ∈ values) →
      (∀ d, (Value.node (.declaration d)).Within value → d.Canonical) ∧
        ∀ s, (Value.node (.titled s)).Within value → s.metadata = [] := by
  intro value member
  have made : value ∈ produced calls := by
    rcases member with made | ⟨values, evaluated, given⟩
    · exact made
    · rw [produced_of_evaluate evaluated]
      exact given
  have canonical := session.canonical value made
  exact ⟨fun d within => canonical _ within, fun s within => canonical _ within⟩

/-- What is made of `Stack(size) < List`. -/
def stackClass : Declaration Value where
  kind := "class"
  signature := some ⟨"Stack", "Stack(size)", some "List"⟩
  metadata :=
    [("name", .string "Stack"), ("signature", .string "Stack(size)"), ("parents", .string "List")]
  children := []

/-- A section that holds the class inside a record. -/
def stackSection : Section Value where
  title := "Data"
  children := [.record [("api", .node (.declaration stackClass))]]

/-- The class is canonical where it stands in the section of a later call. -/
theorem stackSection_canonical :
    (Value.node (.declaration stackClass)).Within (.node (.titled stackSection)) ∧
      stackClass.Canonical ∧ stackSection.metadata = [] := by
  have declared : Session [("class", ⟨[.string "Stack(size) < List", .list []], []⟩)] := by
    refine .call .start "class" ?_
    simp only [Invocation.values, List.map_nil, List.append_nil, List.forall_mem_cons]
    exact ⟨.string _, .list (by simp), by simp⟩
  have session : Session [("class", ⟨[.string "Stack(size) < List", .list []], []⟩),
      ("section", ⟨[.string "Data", .list stackSection.children], []⟩)] := by
    refine .call declared "section" ?_
    simp only [Invocation.values, List.map_nil, List.append_nil, List.forall_mem_cons]
    refine ⟨.string _, .list ?_, by simp⟩
    simp only [stackSection, List.forall_mem_cons]
    refine ⟨.record ?_, by simp⟩
    simp only [List.forall_mem_cons]
    exact ⟨.earlier (mem_produced.mpr ⟨_, List.mem_singleton_self _, rfl⟩), by simp⟩
  have within : (Value.node (.declaration stackClass)).Within (.node (.titled stackSection)) :=
    .part (List.mem_singleton_self _) (.part (List.mem_singleton_self _) (.self _))
  have canonical := declarations_of_session session (.node (.titled stackSection))
    (Or.inl (mem_produced.mpr ⟨_, List.mem_cons_of_mem _ (List.mem_singleton_self _), rfl⟩))
  exact ⟨within, canonical.1 stackClass within, canonical.2 stackSection (.self _)⟩

end Weave
