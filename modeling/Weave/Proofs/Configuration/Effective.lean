import Mathlib.Data.List.Basic
import Weave.Configuration.Basic

/-!
# The languages that are known

Both lookups of a configuration go through one list, the entries and behind them the presets whose
name no entry has. A preset that an entry overrides has no place in it, and an entry with a new name
at the end of the configuration comes after the other entries and before the presets.
-/

namespace Weave.Configuration

/-- The languages that are known under a configuration, in the order of their precedence. -/
def known (c : Configuration) : List Language :=
  c.languages ++ Language.presets.filter fun preset =>
    preset.name ∉ c.languages.map Language.name

theorem overrides_iff (c : Configuration) (name : String) :
    c.overrides name = true ↔ name ∈ c.languages.map Language.name := by
  simp [overrides]

theorem find?_known (c : Configuration) (wanted : Language → Bool) :
    c.known.find? wanted = (c.languages.find? wanted).or
      ((Language.presets.filter fun preset => !c.overrides preset.name).find? wanted) := by
  have kept : (fun preset : Language => decide (preset.name ∉ c.languages.map Language.name)) =
      fun preset => !c.overrides preset.name := by
    funext preset
    rw [Bool.eq_iff_iff]
    simp [← overrides_iff]
  rw [known, List.find?_append, kept]

theorem languageFor?_eq (c : Configuration) (extension : String) :
    c.languageFor? extension = c.known.find? fun l => l.extensions.contains extension := by
  rw [find?_known]
  rfl

theorem language?_eq (c : Configuration) (name : String) :
    c.language? name = c.known.find? fun l => l.name == name := by
  rw [find?_known, language?, Language.named?, Language.named?, List.find?_filter]
  cases found : c.languages.find? fun l => l.name == name with
  | some l => rfl
  | none =>
    -- No entry has the name, so none overrides a preset that has it.
    have free : c.overrides name = false := by
      simpa [overrides] using found
    rw [Option.none_or, Option.none_or]
    congr 1
    funext preset
    by_cases same : preset.name = name
    · simp [same, free]
    · simp [same]

/-! ### Overridden presets -/

/-- A language found that has the name of an entry is an entry. -/
theorem find?_languages_of_overrides {c : Configuration} {wanted : Language → Bool} {l : Language}
    (found : c.known.find? wanted = some l) (overridden : c.overrides l.name = true) :
    c.languages.find? wanted = some l := by
  rw [find?_known] at found
  rcases Option.or_eq_some_iff.mp found with entry | ⟨-, preset⟩
  · exact entry
  · have kept := (List.mem_filter.mp (List.mem_of_find?_eq_some preset)).2
    simp [overridden] at kept

/-! ### One more entry -/

/-- The configuration with one more entry at its end. -/
def append (c : Configuration) (entry : Language) : Configuration :=
  ⟨c.languages ++ [entry]⟩

variable {c : Configuration} {entry : Language}

theorem find?_known_append (fresh : entry.name ∉ Language.presets.map Language.name)
    (wanted : Language → Bool) :
    (c.append entry).known.find? wanted = (c.languages.find? wanted).or
      (if wanted entry then some entry
        else (Language.presets.filter fun preset => !c.overrides preset.name).find? wanted) := by
  have kept : (Language.presets.filter fun preset => !(c.append entry).overrides preset.name) =
      Language.presets.filter fun preset => !c.overrides preset.name := by
    refine List.filter_congr fun preset member => ?_
    have apart : entry.name ≠ preset.name := fun same =>
      fresh (same ▸ List.mem_map_of_mem member)
    simp [overrides, append, apart]
  rw [find?_known, kept, append, List.find?_append, Option.or_assoc]
  cases wants : wanted entry <;> simp only [List.find?_cons, List.find?_nil, wants] <;> rfl

/-- The new entry is found only where it is wanted and no other entry is. -/
theorem find?_known_append_of_answered
    (fresh : entry.name ∉ Language.presets.map Language.name) {wanted : Language → Bool}
    (answered : wanted entry = false ∨ ∃ earlier ∈ c.languages, wanted earlier = true) :
    (c.append entry).known.find? wanted = c.known.find? wanted := by
  rw [find?_known_append fresh, find?_known]
  rcases answered with unwanted | ⟨earlier, member, wants⟩
  · simp [unwanted]
  · have found : (c.languages.find? wanted).isSome = true :=
      List.find?_isSome.mpr ⟨earlier, member, wants⟩
    obtain ⟨l, found⟩ := Option.isSome_iff_exists.mp found
    rw [found, Option.some_or, Option.some_or]

/-- Both lookups give the first known language that fits. So an overridden preset is not found: what
equals it is found among the entries. And an entry with a new name changes the lookup of no other
name, and of no extension that it does not handle or that an earlier entry handles. -/
theorem lookups_go_through_known (c : Configuration) :
    (∀ name, c.language? name = c.known.find? fun l => l.name == name) ∧
    (∀ extension, c.languageFor? extension =
      c.known.find? fun l => l.extensions.contains extension) ∧
    (∀ preset ∈ Language.presets, preset.name ∈ c.languages.map Language.name →
      (∀ name, c.language? name = some preset →
        (c.languages.find? fun l => l.name == name) = some preset) ∧
      ∀ extension, c.languageFor? extension = some preset →
        (c.languages.find? fun l => l.extensions.contains extension) = some preset) ∧
    ∀ entry : Language, entry.name ∉ Language.presets.map Language.name →
      entry.name ∉ c.languages.map Language.name →
        (∀ name ≠ entry.name, (c.append entry).language? name = c.language? name) ∧
        (c.append entry).language? entry.name = some entry ∧
        ∀ extension,
          (extension ∉ entry.extensions ∨
            ∃ earlier ∈ c.languages, extension ∈ earlier.extensions) →
              (c.append entry).languageFor? extension = c.languageFor? extension := by
  refine ⟨c.language?_eq, c.languageFor?_eq, ?_, ?_⟩
  · intro preset _ overridden
    -- An overridden preset is not among the known languages: what equals it there is an entry.
    have entry := (c.overrides_iff preset.name).mpr overridden
    constructor
    · intro name found
      rw [language?_eq] at found
      exact find?_languages_of_overrides found entry
    · intro extension found
      rw [languageFor?_eq] at found
      exact find?_languages_of_overrides found entry
  · intro entry fresh new
    refine ⟨?_, ?_, ?_⟩
    · intro name other
      rw [language?_eq, language?_eq]
      exact find?_known_append_of_answered fresh (Or.inl (by simpa using other.symm))
    -- No entry had the name, and no preset has it, so the appended one is the first with it.
    · have unnamed : (c.languages.find? fun l => l.name == entry.name) = none := by
        simpa using new
      rw [language?_eq, find?_known_append fresh, unnamed]
      simp
    · intro extension answered
      rw [languageFor?_eq, languageFor?_eq]
      exact find?_known_append_of_answered fresh (by simpa using answered)

theorem lookups_go_through_known_overridden :
    let c : Configuration := ⟨[⟨"javascript", "^//(.*)$", "js", ["ts"]⟩]⟩
    let entry : Language := ⟨"c", "^//(.*)$", "c", ["c", "ts"]⟩
    c.languageFor? "mjs" ≠ some Language.javascript ∧
      (c.append entry).language? "javascript" = c.language? "javascript" ∧
      (c.append entry).language? "c" = some entry ∧
      (c.append entry).languageFor? "ts" = c.languageFor? "ts" := by
  intro c entry
  obtain ⟨-, -, overridden, appended⟩ := lookups_go_through_known c
  obtain ⟨names, own, extensions⟩ := appended entry (by decide) (by decide)
  refine ⟨fun found => ?_, names _ (by decide), own, extensions _ (by decide)⟩
  have entries := (overridden Language.javascript (by decide) (by decide)).2 "mjs" found
  exact absurd entries (by decide)

end Weave.Configuration
