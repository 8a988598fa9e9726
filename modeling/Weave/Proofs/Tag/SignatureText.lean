import Weave.Proofs.Document.Canonical
import Weave.Proofs.Document.SignatureSplit
import Weave.Proofs.Tag.Invocation

/-!
# Signatures of functions and of classes

A text that is not blank is a signature for a function and for a class. The two differ only where
the text names parents; and what is written of the signature of a class is read as the same
signature.
-/

namespace Weave

namespace Signature

/-- A signature as it is written, its parents behind a `<`. -/
def print (s : Signature) : String :=
  s.text ++ match s.parents with
    | some parents => " < " ++ parents
    | none => ""

/-- The signature of a class with parents, its name and its parents trimmed. -/
def ofHeir (name group parents : List Char) : Signature where
  name := String.ofList (Text.dropBlankEnd (Text.dropBlank name))
  text := String.ofList (Text.dropBlankEnd (Text.dropBlank name) ++ group)
  parents := some (String.ofList (Text.dropBlankEnd (Text.dropBlank parents)))

/-- A text is a name and a group, and behind blanks and a `<` it names parents. -/
structure NamesParents (text name group parents : List Char) : Prop where
  whole : ∃ gap, gap.all Text.isBlank = true ∧ text = name ++ (group ++ (gap ++ '<' :: parents))
  plain : '(' ∉ name
  named : name.all Text.isBlank = false
  group : IsGroup group
  parented : parents.all Text.isBlank = false

/-! ### Parents -/

theorem parents?_eq_some_iff {rest : List Char} {parents : String} :
    parents? rest = some parents ↔
      ∃ names, (∃ gap, gap.all Text.isBlank = true ∧ rest = gap ++ '<' :: names) ∧
        names.all Text.isBlank = false ∧
        parents = String.ofList (Text.dropBlankEnd (Text.dropBlank names)) := by
  unfold parents?
  constructor
  · intro found
    split at found
    next names behind =>
      dsimp only at found
      split at found
      · contradiction
      next filled =>
        -- The blanks before the `<` are those that reading drops.
        obtain ⟨gap, blank, split⟩ := Text.exists_gap rest
        rw [behind] at split
        refine ⟨names, ⟨gap, blank, split⟩, ?_, (Option.some.inj found).symm⟩
        rwa [List.isEmpty_iff, Text.trim_eq_nil_iff, Bool.not_eq_true] at filled
    · contradiction
  · rintro ⟨names, ⟨gap, blank, rfl⟩, parented, rfl⟩
    have filled : (Text.dropBlankEnd (Text.dropBlank names)).isEmpty = false := by
      rw [← Bool.not_eq_true, List.isEmpty_iff, Text.trim_eq_nil_iff, parented]
      exact Bool.false_ne_true
    rw [Text.dropBlank_append_of_blank blank, Text.dropBlank_cons_of_not (by decide)]
    simp only [filled, Bool.false_eq_true, if_false]

theorem NamesParents.parts? {text : String} {name group names : List Char}
    (given : NamesParents text.toList name group names) :
    ∃ rest, parts? text = some ⟨Text.dropBlankEnd (Text.dropBlank name), group, rest⟩ ∧
      parents? rest = some (String.ofList (Text.dropBlankEnd (Text.dropBlank names))) := by
  obtain ⟨⟨gap, blank, whole⟩, plain, named, isGroup, parented⟩ := given
  refine ⟨gap ++ '<' :: names, parts?_eq_some_iff.mpr ⟨⟨name, group, gap ++ '<' :: names⟩, ?_⟩, ?_⟩
  · exact ⟨split?_eq_some_iff.mpr ⟨whole, plain, isGroup⟩, named, rfl⟩
  · exact parents?_eq_some_iff.mpr ⟨names, ⟨gap, blank, rfl⟩, parented, rfl⟩

theorem exists_namesParents {text : String} {parts : Parts} {parents : String}
    (split : Signature.parts? text = some parts) (found : parents? parts.rest = some parents) :
    ∃ name group names, NamesParents text.toList name group names := by
  obtain ⟨whole, splitWhole, named, rfl⟩ := parts?_eq_some_iff.mp split
  obtain ⟨text, plain, isGroup⟩ := split?_eq_some_iff.mp splitWhole
  obtain ⟨names, ⟨gap, blank, rest⟩, parented, -⟩ := parents?_eq_some_iff.mp found
  exact ⟨whole.name, whole.group, names, ⟨gap, blank, by rw [text, ← rest]⟩, plain, named, isGroup,
    parented⟩

/-! ### The two readings of a text -/

theorem ofFunction?_of_filled {text : String} (filled : Text.allBlank text = false) :
    ofFunction? text =
      some ⟨(Signature.parts? text).elim text fun parts => String.ofList parts.name, text,
        none⟩ := by
  unfold ofFunction?
  rw [filled, if_neg Bool.false_ne_true]
  cases Signature.parts? text <;> rfl

theorem text_of_ofFunction? {text : String} {s : Signature} (read : ofFunction? text = some s) :
    s.text = text ∧ s.parents = none := by
  have filled : Text.allBlank text = false := by
    rw [← isNone_ofFunction?, read, Option.isNone_some]
  rw [ofFunction?_of_filled filled] at read
  obtain rfl := Option.some.inj read
  exact ⟨rfl, rfl⟩

theorem NamesParents.filled {text : String} {name group names : List Char}
    (given : NamesParents text.toList name group names) : Text.allBlank text = false := by
  obtain ⟨⟨gap, -, whole⟩, -, named, -, -⟩ := given
  rw [Text.allBlank, whole, List.all_append, named, Bool.false_and]

theorem NamesParents.ofClass? {text : String} {name group names : List Char}
    (given : NamesParents text.toList name group names) :
    ofClass? text = some (ofHeir name group names) := by
  obtain ⟨rest, parts, parents⟩ := given.parts?
  unfold Signature.ofClass?
  rw [given.filled, if_neg Bool.false_ne_true]
  simp only [parts, parents]
  rfl

/-- Without parents a class is read as a function is. -/
theorem ofClass?_of_not_namesParents {text : String}
    (orphan : ¬∃ name group names, NamesParents text.toList name group names) :
    Signature.ofClass? text = ofFunction? text := by
  unfold Signature.ofClass? ofFunction?
  cases Text.allBlank text with
  | true => rfl
  | false =>
    cases parts : Signature.parts? text with
    | none => rfl
    | some found =>
      cases parents : parents? found.rest with
      | none => simp only [parents, Bool.false_eq_true, if_false]
      | some names =>
        -- Parents that are read are named in the text.
        have named := exists_namesParents parts parents
        exact absurd named orphan

/-- What is written of a class with parents names its parents again. -/
theorem NamesParents.print_ofHeir {text name group names : List Char}
    (given : NamesParents text name group names) :
    NamesParents (ofHeir name group names).print.toList
      (Text.dropBlankEnd (Text.dropBlank name)) group
      (' ' :: Text.dropBlankEnd (Text.dropBlank names)) where
  whole := ⟨[' '], rfl, by simp [print, ofHeir]⟩
  plain := fun member => given.plain (Text.mem_of_mem_trim member)
  named := by rw [Text.all_isBlank_trim, given.named]
  group := given.group
  parented := by rw [List.all_cons, Text.all_isBlank_trim, given.parented, Bool.and_false]

/-- A name and parents that are trimmed already stay as they are. -/
theorem ofHeir_trim (name group parents : List Char) :
    ofHeir (Text.dropBlankEnd (Text.dropBlank name)) group
        (' ' :: Text.dropBlankEnd (Text.dropBlank parents)) = ofHeir name group parents := by
  have blank : [' '].all Text.isBlank = true := rfl
  have behind := Text.dropBlank_append_of_blank blank (Text.dropBlankEnd (Text.dropBlank parents))
  rw [List.singleton_append] at behind
  simp only [ofHeir, behind, (Text.trimmed_trim name).trim_eq, (Text.trimmed_trim parents).trim_eq]

theorem print_of_orphan {s : Signature} (orphan : s.parents = none) : s.print = s.text := by
  rw [print, orphan, String.append_empty]

/-- A tag that takes a text for its signature fails where the text is none, with the fault that says
so. -/
theorem takeSignature_eq_error_iff {read? : String → Option Signature} {text : String}
    {arguments : Arguments} (given : arguments.bound.get? "signature" = some (.string text))
    (fault : Fault) :
    ((Tag.takeSignature read?).on arguments).1 = .error fault ↔
      read? text = none ∧ fault = .emptySignature := by
  unfold Tag.takeSignature
  rw [Taking.on_string_orFault, given, Option.elim_some]
  cases found : read? text with
  | none => simp [Taking.narrow, Value.string?, Except.bind, found, eq_comm]
  | some signature => simp [Taking.narrow, Value.string?, Except.bind, found]

theorem isNone_iff_allBlank {read? : String → Option Signature}
    (either : read? ∈ [ofFunction?, Signature.ofClass?]) (text : String) :
    read? text = none ↔ Text.allBlank text = true := by
  rw [← Option.isNone_iff_eq_none]
  rcases List.mem_pair.mp either with rfl | rfl
  · rw [isNone_ofFunction?]
  · rw [isNone_ofClass?]

/-- The name before the group is that of the class with parents and of the function alike. -/
theorem NamesParents.ofFunction? {text : String} {name group names : List Char}
    (given : NamesParents text.toList name group names) :
    ofFunction? text =
      some ⟨String.ofList (Text.dropBlankEnd (Text.dropBlank name)), text, none⟩ := by
  obtain ⟨rest, parts, -⟩ := given.parts?
  rw [ofFunction?_of_filled given.filled, parts, Option.elim_some]

/-- What is written of a class is read as the same class. -/
theorem ofClass?_print {text : String} {s : Signature}
    (read : Signature.ofClass? text = some s) : Signature.ofClass? s.print = some s := by
  by_cases parented : ∃ name group names, NamesParents text.toList name group names
  · obtain ⟨name, group, names, given⟩ := parented
    obtain rfl := Option.some.inj (given.ofClass?.symm.trans read)
    -- The printed text is split at the same places; its parts are trimmed already.
    have again := given.print_ofHeir.ofClass?
    rw [again, ofHeir_trim]
  · have function := ofClass?_of_not_namesParents parented
    rw [read] at function
    -- Without parents the class has the text that it is read from.
    obtain ⟨kept, orphan⟩ := text_of_ofFunction? function.symm
    rw [print_of_orphan orphan, kept, read]

/-- A text that is not blank is a signature, of a function and of a class, with one name, which is
not blank. The function keeps the text. The class is the function unless the text names parents;
then it keeps the trimmed name with the group and the trimmed names of the parents. What is written
of the class is read as the same class. A blank text is refused. -/
theorem signatures_of_text (text : String) :
    (Text.allBlank text = false →
      ∃ f g, ofFunction? text = some f ∧ ofClass? text = some g ∧
        g.name = f.name ∧ f.text = text ∧ f.parents = none ∧ Text.allBlank f.name = false ∧
        (g.parents = none → g = f) ∧
        (g.parents.isSome = true ↔
          ∃ name group names, NamesParents text.toList name group names) ∧
        (∀ name group names, NamesParents text.toList name group names →
          g.text = String.ofList (Text.dropBlankEnd (Text.dropBlank name) ++ group) ∧
          g.parents = some (String.ofList (Text.dropBlankEnd (Text.dropBlank names)))) ∧
        ofClass? g.print = some g) ∧
    (∀ read? ∈ [ofFunction?, ofClass?],
      (read? text = none ↔ Text.allBlank text = true) ∧
      ∀ arguments : Arguments, arguments.bound.get? "signature" = some (.string text) →
        ∀ fault, ((Tag.takeSignature read?).on arguments).1 = .error fault ↔
          Text.allBlank text = true ∧ fault = .emptySignature) ∧
    Fault.emptySignature.violation.code.name = "E203" := by
  refine ⟨fun filled => ?_, fun read? either => ?_, rfl⟩
  · by_cases parented : ∃ name group names, NamesParents text.toList name group names
    · obtain ⟨name, group, names, given⟩ := parented
      -- The text names its parents in one way, as it is read in one way.
      have unique (name' group' names' : List Char)
          (given' : NamesParents text.toList name' group' names') :
          ofHeir name group names = ofHeir name' group' names' :=
        Option.some.inj (given.ofClass?.symm.trans given'.ofClass?)
      refine ⟨_, ofHeir name group names, given.ofFunction?, given.ofClass?, rfl, rfl, rfl,
        (ofFunction?_eq_some given.ofFunction?).1, ?_, ?_, ?_, ofClass?_print given.ofClass?⟩
      · exact fun orphan => absurd orphan (Option.some_ne_none _)
      · exact iff_of_true rfl ⟨name, group, names, given⟩
      · intro name' group' names' given'
        rw [unique name' group' names' given']
        exact ⟨rfl, rfl⟩
    · have function := ofFunction?_of_filled filled
      have asClass := (ofClass?_of_not_namesParents parented).trans function
      refine ⟨_, _, function, asClass, rfl, rfl, rfl, (ofFunction?_eq_some function).1,
        fun _ => rfl, ?_, ?_, ofClass?_print asClass⟩
      · exact iff_of_false Bool.false_ne_true parented
      · intro name group names given
        exact absurd ⟨name, group, names, given⟩ parented
  · have refused := isNone_iff_allBlank either text
    refine ⟨refused, fun arguments given fault => ?_⟩
    rw [takeSignature_eq_error_iff given, refused]

/-- A class with groups in its group and two `<` behind it is written without the blanks; and a
blank signature is refused although other arguments are given. -/
theorem signatures_of_text_nested :
    let text := "  Stack (a(b), c)\t<  List < Bag "
    let blank : Arguments := ⟨[("children", .list []), ("signature", .string " \t")]⟩
    Text.allBlank text = false ∧
      NamesParents text.toList "  Stack ".toList "(a(b), c)".toList "  List < Bag ".toList ∧
      (∃ g, ofClass? text = some g ∧ g.text = "Stack(a(b), c)" ∧ g.parents = some "List < Bag" ∧
        ofClass? g.print = some g) ∧
      ((Tag.takeSignature ofClass?).on blank).1 = .error .emptySignature := by
  intro text blank
  have filled : Text.allBlank text = false := by decide
  have group : IsGroup "(a(b), c)".toList :=
    (group?_eq_some_iff.mp (show group? "(a(b), c)".toList = some ("(a(b), c)".toList, []) from
      by decide)).2
  have given : NamesParents text.toList "  Stack ".toList "(a(b), c)".toList
      "  List < Bag ".toList :=
    ⟨⟨['\t'], by decide, by decide⟩, by decide, by decide, group, by decide⟩
  obtain ⟨f, g, -, asClass, -, -, -, -, -, -, parts, printed⟩ := (signatures_of_text text).1 filled
  obtain ⟨kept, parents⟩ := parts _ _ _ given
  have refused := ((signatures_of_text " \t").2.1 ofClass? (by simp)).2 blank rfl .emptySignature
  exact ⟨filled, given, ⟨g, asClass, kept.trans (by decide), parents.trans (by decide), printed⟩,
    refused.mpr ⟨by decide, rfl⟩⟩

end Signature

end Weave
