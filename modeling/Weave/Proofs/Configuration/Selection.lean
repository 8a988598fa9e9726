import Mathlib.Data.List.TakeWhile
import Weave.Proofs.Configuration.Effective
import Weave.Toolchain

/-!
# Converters selected by a path

A path selects the first known language that lists its extension, which stands behind the last dot
of the file name. A path that has none selects as one whose extension is empty does. So it selects
no language, but for configurations in which a language lists the empty extension.
-/

namespace Weave

namespace Path

/-- How an extension stands in a file name: behind the last dot, and not at the start. -/
structure NameExtension (name extension : String) : Prop where
  split : ∃ stem, stem ≠ [] ∧ name.toList = stem ++ '.' :: extension.toList
  undotted : '.' ∉ extension.toList

/-- The parts of a path that lead somewhere else than where they start. -/
def steps (path : String) : List String :=
  (parts path).filter (· != ".")

/-- Whether a path leads to a file whose name has an extension. -/
inductive HasExtension (path extension : String) : Prop where
  | name {before : List String} {name : String} (last : steps path = before ++ [name])
      (inside : name ≠ "..") (extended : NameExtension name extension)

theorem nameExtension?_eq_some_iff (name extension : String) :
    nameExtension? name = some extension ↔ NameExtension name extension := by
  have halves : name.toList.reverse.takeWhile (· != '.') ++
      name.toList.reverse.dropWhile (· != '.') = name.toList.reverse :=
    List.takeWhile_append_dropWhile
  constructor
  · intro found
    unfold nameExtension? at found
    split at found
    next first rest dotted =>
      -- Backwards: the extension, the last dot, and a stem that is not empty.
      obtain rfl := Option.some.inj found
      refine ⟨⟨(first :: rest).reverse, by simp, ?_⟩, ?_⟩
      · rw [dotted] at halves
        simpa using congrArg List.reverse halves.symm
      · rw [String.toList_ofList, List.mem_reverse]
        intro member
        simpa using List.mem_takeWhile_imp member
    · contradiction
  · rintro ⟨⟨stem, filled, split⟩, undotted⟩
    have plain : ∀ c ∈ extension.toList.reverse, (c != '.') = true := by
      intro c member
      have apart : c ≠ '.' := fun same => undotted (same ▸ List.mem_reverse.mp member)
      simpa using apart
    -- Read backwards, the name starts with its extension, and a dot stands behind that.
    have reversed : name.toList.reverse = extension.toList.reverse ++ '.' :: stem.reverse := by
      simp [split]
    have dotted : name.toList.reverse.dropWhile (· != '.') = '.' :: stem.reverse := by
      rw [reversed, List.dropWhile_append_of_pos plain]
      rfl
    have behind : name.toList.reverse.takeWhile (· != '.') = extension.toList.reverse := by
      rw [reversed, List.takeWhile_append_of_pos plain]
      simp
    obtain ⟨first, rest, start⟩ := List.exists_cons_of_ne_nil (List.reverse_ne_nil_iff.mpr filled)
    unfold nameExtension?
    rw [dotted, behind, start]
    simp

theorem extension?_eq_some_iff (path extension : String) :
    extension? path = some extension ↔ HasExtension path extension := by
  unfold extension?
  constructor
  · intro found
    split at found
    · contradiction
    next name last =>
      split at found
      · contradiction
      next inside =>
        obtain ⟨before, split⟩ := List.getLast?_eq_some_iff.mp last
        exact ⟨split, inside, (nameExtension?_eq_some_iff name extension).mp found⟩
  · rintro ⟨split, inside, extended⟩
    have last := congrArg List.getLast? split
    rw [List.getLast?_concat, steps] at last
    rw [last]
    simpa [inside] using (nameExtension?_eq_some_iff _ extension).mpr extended

theorem extension?_eq_none_iff (path : String) :
    extension? path = none ↔ ∀ extension, ¬HasExtension path extension := by
  rw [Option.eq_none_iff_forall_ne_some]
  exact forall_congr' fun extension => not_congr (extension?_eq_some_iff path extension)

end Path

namespace Configuration

/-- Whether no converter was found because the language is not known. -/
def Unknown (result : Except Failure Converter) : Prop :=
  ∃ name, result = .error (.unknownLanguage name)

/-- Whether a language is the first known one that lists an extension. -/
def FirstToList (c : Configuration) (extension : String) (l : Language) : Prop :=
  extension ∈ l.extensions ∧ ∃ before behind, c.known = before ++ l :: behind ∧
    ∀ earlier ∈ before, extension ∉ earlier.extensions

theorem languageFor?_eq_some_iff (c : Configuration) (extension : String) (l : Language) :
    c.languageFor? extension = some l ↔ c.FirstToList extension l := by
  rw [languageFor?_eq, List.find?_eq_some_iff_append, FirstToList]
  simp

theorem languageFor?_eq_none_iff (c : Configuration) (extension : String) :
    c.languageFor? extension = none ↔ ∀ l ∈ c.known, extension ∉ l.extensions := by
  rw [languageFor?_eq, List.find?_eq_none]
  simp

/-- What a language gives: its converter, or why its comment pattern makes none. -/
inductive MadeFor (l : Language) : Except Failure Converter → Prop where
  | converter {converter : Converter} (made : l.converter = .ok converter) :
      MadeFor l (.ok converter)
  | patternError {e : ConverterError} (refused : l.converter = .error e) :
      MadeFor l (.error (.converter e))

theorem madeFor_converterOf (l : Language) : MadeFor l (converterOf l) := by
  unfold converterOf
  cases made : l.converter with
  | ok converter => exact .converter made
  | error e => exact .patternError made

theorem MadeFor.not_unknown {l : Language} {result : Except Failure Converter}
    (made : MadeFor l result) : ¬Unknown result := by
  rintro ⟨name, unknown⟩
  cases made <;> simp at unknown

/-- What an extension gives: the first language that lists it, if there is one. -/
structure SelectedBy (c : Configuration) (extension : String)
    (result : Except Failure Converter) : Prop where
  unknown : Unknown result ↔ ∀ l ∈ c.known, extension ∉ l.extensions
  listed : ¬Unknown result → ∃ l, c.FirstToList extension l ∧ MadeFor l result

theorem selectedBy_converterFor (c : Configuration) {path extension : String}
    (extended : (Path.extension? path).getD "" = extension) :
    c.SelectedBy extension (c.converterFor path) := by
  rw [converterFor, extended]
  cases found : c.languageFor? extension with
  | none =>
    have unlisted := (c.languageFor?_eq_none_iff extension).mp found
    have unknown : Unknown (.error (.unknownLanguage path)) := ⟨path, rfl⟩
    exact ⟨iff_of_true unknown unlisted, fun known => absurd unknown known⟩
  | some l =>
    -- A language that is known is never reported as unknown, even if its pattern is refused.
    have first := (c.languageFor?_eq_some_iff extension l).mp found
    have made := madeFor_converterOf l
    have listed : ¬∀ l ∈ c.known, extension ∉ l.extensions := by
      rw [← languageFor?_eq_none_iff, found]
      exact Option.some_ne_none l
    exact ⟨iff_of_false made.not_unknown listed, fun _ => ⟨l, first, made⟩⟩

/-- A path with an extension selects by that extension. One without selects by the empty extension,
so it is not always refused: a configured language may list the empty extension. -/
theorem converterFor_selects (c : Configuration) (path : String) :
    (∀ extension, Path.HasExtension path extension →
      c.SelectedBy extension (c.converterFor path)) ∧
    ((∀ extension, ¬Path.HasExtension path extension) →
      c.SelectedBy "" (c.converterFor path)) := by
  constructor
  · intro extension has
    refine c.selectedBy_converterFor ?_
    rw [(Path.extension?_eq_some_iff path extension).mpr has, Option.getD_some]
  · intro hasNone
    refine c.selectedBy_converterFor ?_
    rw [(Path.extension?_eq_none_iff path).mpr hasNone, Option.getD_none]

theorem converterFor_selects_dotted_names :
    let plain : Language := ⟨"plain", "^//(.*)$", "text", [""]⟩
    let c : Configuration := ⟨[plain]⟩
    c.SelectedBy "ls" (c.converterFor "src/.a.b.ls/.") ∧
      c.SelectedBy "" (c.converterFor "src/.ls") ∧
      ¬Unknown (c.converterFor "src/.ls") := by
  intro plain c
  have has : Path.HasExtension "src/.a.b.ls/." "ls" :=
    (Path.extension?_eq_some_iff _ _).mp (by decide)
  have hasNone : ∀ extension, ¬Path.HasExtension "src/.ls" extension :=
    (Path.extension?_eq_none_iff _).mp (by decide)
  have selected := (c.converterFor_selects "src/.ls").2 hasNone
  refine ⟨(c.converterFor_selects "src/.a.b.ls/.").1 "ls" has, selected, ?_⟩
  exact fun unknown => selected.unknown.mp unknown plain (by decide) (by decide)

/-- A path without an extension is not always refused. -/
theorem converterFor_empty_extension :
    ¬∀ (c : Configuration) (path : String),
      Unknown (c.converterFor path) ↔ (∀ extension, ¬Path.HasExtension path extension) ∨
        ∃ extension, Path.HasExtension path extension ∧
          ∀ l ∈ c.known, extension ∉ l.extensions := by
  intro refused
  let plain : Language := ⟨"plain", "^//(.*)$", "text", [""]⟩
  let c : Configuration := ⟨[plain]⟩
  have absent : Path.extension? "README" = none := by decide
  have hasNone : ∀ extension, ¬Path.HasExtension "README" extension :=
    (Path.extension?_eq_none_iff _).mp absent
  have selected : c.SelectedBy "" (c.converterFor "README") :=
    c.selectedBy_converterFor (by rw [absent, Option.getD_none])
  have unknown := (refused c "README").mpr (Or.inl hasNone)
  exact selected.unknown.mp unknown plain (by decide) (by decide)

end Configuration

end Weave
