import Mathlib.Data.List.TakeWhile
import Weave.Toolchain

/-!
# Looking up languages

A language that is found by a file extension can be looked up once more by its name. The same entry
is found unless the configuration has an entry of that name further to the front, which by then has
been passed over because it does not handle the extension. A preset is never found by its extension
when an entry has its name.
-/

namespace Weave.Configuration

/-- The entries before the first one that handles an extension. -/
def passedOver (c : Configuration) (extension : String) : List Language :=
  c.languages.takeWhile fun l => !l.handles extension

theorem named?_preset :
    ∀ l ∈ Language.presets, Language.named? Language.presets l.name = some l := by
  decide

theorem handles_of_handling? {languages : List Language} {extension : String} {l : Language}
    (found : Language.handling? languages extension = some l) : l.handles extension = true := by
  have handles := List.find?_some found
  exact handles

theorem languages_of_handling? {c : Configuration} {extension : String} {l : Language}
    (found : Language.handling? c.languages extension = some l) :
    ∃ behind, c.languages = c.passedOver extension ++ l :: behind := by
  obtain ⟨handles, before, behind, split, passed⟩ := List.find?_eq_some_iff_append.mp found
  have front : c.passedOver extension = before := by
    rw [passedOver, split, List.takeWhile_append_of_pos passed]
    simp [handles]
  exact ⟨behind, by rw [front, split]⟩

theorem language?_of_configured {c : Configuration} {extension : String} {l : Language}
    (found : Language.handling? c.languages extension = some l) :
    c.language? l.name = (Language.named? (c.passedOver extension) l.name).or (some l) := by
  obtain ⟨behind, split⟩ := languages_of_handling? found
  have named : Language.named? c.languages l.name =
      (Language.named? (c.passedOver extension) l.name).or (some l) := by
    rw [split, Language.named?, List.find?_append]
    simp [Language.named?]
  rw [language?, named, Option.or_assoc, Option.some_or]

theorem language?_of_preset {c : Configuration} {extension : String} {l : Language}
    (found : Language.handling? (Language.presets.filter fun l => !c.overrides l.name) extension =
      some l) :
    c.language? l.name = (Language.named? (c.passedOver extension) l.name).or (some l) := by
  obtain ⟨preset, kept⟩ := List.mem_filter.mp (List.mem_of_find?_eq_some found)
  -- No entry has the name of the preset, so none of those passed over has it either.
  have unnamed (languages : List Language) (within : languages ⊆ c.languages) :
      Language.named? languages l.name = none := by
    refine List.find?_eq_none.mpr fun entry member same => ?_
    have overridden : c.overrides l.name = true := List.any_eq_true.mpr ⟨entry, within member, same⟩
    simp [overridden] at kept
  rw [language?, unnamed c.languages (List.Subset.refl _),
    unnamed (c.passedOver extension) (List.takeWhile_subset _), named?_preset l preset]

theorem language?_name {c : Configuration} {extension : String} {l : Language}
    (found : c.languageFor? extension = some l) :
    l.handles extension = true ∧
      c.language? l.name = (Language.named? (c.passedOver extension) l.name).or (some l) := by
  rcases Option.or_eq_some_iff.mp found with configured | ⟨-, preset⟩
  · exact ⟨handles_of_handling? configured, language?_of_configured configured⟩
  · exact ⟨handles_of_handling? preset, language?_of_preset preset⟩

/-- The entries that are passed over do not handle the extension. -/
theorem not_handles_of_passedOver {c : Configuration} {extension : String} {entry : Language}
    (passed : entry ∈ c.passedOver extension) : entry.handles extension = false := by
  simpa using List.mem_takeWhile_imp passed

theorem converterFor_eq {c : Configuration} {extension path : String} {l : Language}
    (found : c.languageFor? extension = some l) (named : c.language? l.name = some l)
    (extended : (Path.extension? path).getD "" = extension) :
    c.converterFor path = c.converter l.name := by
  rw [converterFor, extended, found, converter, language, named]

/-- The name of a language that was found by an extension stands for that language, and files with
the extension are converted as under that name, exactly when no entry that was passed over has the
name. Otherwise the name stands for the first of these entries. -/
theorem language?_of_languageFor? {c : Configuration} {extension : String} {l : Language}
    (found : c.languageFor? extension = some l) :
    (c.language? l.name = some l ↔ ∀ entry ∈ c.passedOver extension, entry.name ≠ l.name) ∧
    (c.language? l.name = some l → ∀ path, (Path.extension? path).getD "" = extension →
      c.converterFor path = c.converter l.name) ∧
    c.language? l.name = (Language.named? (c.passedOver extension) l.name).or (some l) := by
  obtain ⟨handles, looked⟩ := language?_name found
  refine ⟨?_, fun named _ => converterFor_eq found named, looked⟩
  rw [looked]
  constructor
  · intro same entry passed repeated
    -- Then the first entry passed over that has the name is found, and it does not handle the
    -- extension.
    cases earlier : Language.named? (c.passedOver extension) l.name with
    | none => simpa [repeated] using List.find?_eq_none.mp earlier entry passed
    | some first =>
      rw [earlier, Option.some_or, Option.some.injEq] at same
      have missed := not_handles_of_passedOver (List.mem_of_find?_eq_some earlier)
      rw [same, handles] at missed
      contradiction
  · intro free
    have absent : Language.named? (c.passedOver extension) l.name = none :=
      List.find?_eq_none.mpr fun entry passed => by simpa using free entry passed
    rw [absent, Option.none_or]

theorem language?_of_shared_extension :
    let entry : Language := ⟨"c", "^//(.*)$", "c", ["c"]⟩
    let header : Language := ⟨"header", "^#(.*)$", "c", ["h"]⟩
    let c : Configuration := ⟨[entry, header, { entry with extensions := ["h"] }]⟩
    c.languageFor? "h" = some header ∧
      ((c.language? header.name = some header ↔
          ∀ entry ∈ c.passedOver "h", entry.name ≠ header.name) ∧
        (c.language? header.name = some header → ∀ path, (Path.extension? path).getD "" = "h" →
          c.converterFor path = c.converter header.name) ∧
        c.language? header.name =
          (Language.named? (c.passedOver "h") header.name).or (some header)) := by
  intro entry header c
  have found : c.languageFor? "h" = some header := by decide
  exact ⟨found, language?_of_languageFor? found⟩

/-- An entry that repeats the name of another is found by its extension only. -/
theorem language?_repeated_name :
    ¬∀ (c : Configuration) (extension : String) (l : Language),
      c.languageFor? extension = some l → c.language? l.name = some l := by
  intro same
  let first : Language := ⟨"c", "^//(.*)$", "c", ["c"]⟩
  let second : Language := ⟨"c", "^#(.*)$", "h", ["h"]⟩
  exact absurd (same ⟨[first, second]⟩ "h" second (by decide)) (by decide)

end Weave.Configuration
