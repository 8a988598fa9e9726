import Mathlib.Data.List.Basic
import Weave.Run.Markup

/-!
# Reading blocks of code back

A block of code is a head and two string literals, the language and the source. Writing puts a
backslash before each quote of the source and changes nothing else, so a literal that ends in a
backslash does not end where it should, and a quote in the language ends its literal early. These
are the only texts that do not come back.
-/

namespace Weave.Run

/-- What a string literal stands for and what follows it, read behind its opening quote. A backslash
with a quote behind it stands for the quote; any other quote ends the literal. -/
def readLiteral? : List Char → Option (List Char × List Char)
  | [] => none
  | '\\' :: '"' :: rest => (readLiteral? rest).map fun (text, behind) => ('"' :: text, behind)
  | '"' :: rest => some ([], rest)
  | c :: rest => (readLiteral? rest).map fun (text, behind) => (c :: text, behind)

/-- What is read of a block of code. -/
structure Block where
  language : String
  source : String
  /-- What follows the two literals. -/
  behind : String
  deriving DecidableEq, Repr

/-- The two literals of a block of code. -/
def readBlock? (markup : List Char) : Option Block := do
  let rest ← markup.dropPrefix? "@code(language: \"".toList
  let (language, rest) ← readLiteral? rest
  let rest ← rest.dropPrefix? [' ', '"']
  let (source, rest) ← readLiteral? rest
  return ⟨String.ofList language, String.ofList source, String.ofList rest⟩

theorem escapeQuotes_quote (rest : List Char) :
    escapeQuotes ('"' :: rest) = '\\' :: '"' :: escapeQuotes rest := rfl

theorem escapeQuotes_cons (c : Char) (rest : List Char) (plain : c ≠ '"') :
    escapeQuotes (c :: rest) = c :: escapeQuotes rest := by
  simp [escapeQuotes, plain]

theorem head?_escapeQuotes (text : List Char) : (escapeQuotes text).head? ≠ some '"' := by
  cases text with
  | nil => simp [escapeQuotes]
  | cons c rest =>
    by_cases quote : c = '"'
    · subst quote
      simp [escapeQuotes_quote]
    · simpa [escapeQuotes_cons c rest quote] using quote

theorem readLiteral?_cons (c : Char) (rest : List Char) (plain : c ≠ '"')
    (whole : ¬(c = '\\' ∧ rest.head? = some '"')) :
    readLiteral? (c :: rest) =
      (readLiteral? rest).map fun (text, behind) => (c :: text, behind) := by
  rw [readLiteral?]
  · rintro tail rfl rfl
    exact whole ⟨rfl, rfl⟩
  · rintro rfl
    exact plain rfl

private theorem readLiteral?_escapeQuotes (text behind : List Char)
    (ends : text.getLast? ≠ some '\\') :
    readLiteral? (escapeQuotes text ++ '"' :: behind) = some (text, behind) := by
  induction text with
  | nil => rfl
  | cons c rest ih =>
    -- The last character of the rest is that of the text, unless there is no rest.
    have tail : readLiteral? (escapeQuotes rest ++ '"' :: behind) = some (rest, behind) := by
      cases rest with
      | nil => rfl
      | cons d rest => exact ih (by simpa using ends)
    by_cases quote : c = '"'
    · subst quote
      rw [escapeQuotes_quote, List.cons_append, List.cons_append, readLiteral?, tail]
      rfl
    · -- A written text never begins with a quote, so a backslash before it stands for itself.
      have whole : ¬(c = '\\' ∧ (escapeQuotes rest ++ '"' :: behind).head? = some '"') := by
        rintro ⟨rfl, next⟩
        cases rest with
        | nil => exact ends rfl
        | cons d rest =>
          have inner : escapeQuotes (d :: rest) ≠ [] := by
            by_cases also : d = '"' <;> simp [escapeQuotes, also]
          rw [List.head?_append_of_ne_nil _ inner] at next
          exact head?_escapeQuotes (d :: rest) next
      rw [escapeQuotes_cons c rest quote, List.cons_append, readLiteral?_cons c _ quote whole, tail]
      rfl

private theorem eq_escapeQuotes_of_readLiteral? (input text behind : List Char)
    (found : readLiteral? input = some (text, behind)) :
    input = escapeQuotes text ++ '"' :: behind ∧ text.getLast? ≠ some '\\' := by
  fun_induction readLiteral? input generalizing text with
  | case1 => simp at found
  | case2 rest ih =>
    simp only [Option.map_eq_some_iff, Prod.exists, Prod.mk.injEq] at found
    obtain ⟨inner, _, read, rfl, rfl⟩ := found
    obtain ⟨same, ends⟩ := ih inner read
    refine ⟨by rw [same, escapeQuotes_quote]; rfl, ?_⟩
    cases inner <;> simp_all
  | case3 rest =>
    simp only [Option.some.injEq, Prod.mk.injEq] at found
    obtain ⟨rfl, rfl⟩ := found
    exact ⟨rfl, by simp⟩
  | case4 c rest whole plain ih =>
    simp only [Option.map_eq_some_iff, Prod.exists, Prod.mk.injEq] at found
    obtain ⟨inner, _, read, rfl, rfl⟩ := found
    obtain ⟨same, ends⟩ := ih inner read
    have quote : c ≠ '"' := plain
    refine ⟨by rw [same, escapeQuotes_cons c inner quote]; rfl, ?_⟩
    cases inner with
    | nil =>
      -- A backslash just before the closing quote would have been read as a quote.
      rintro last
      obtain rfl : c = '\\' := by simpa using last
      exact whole _ rfl same
    | cons d inner => simpa using ends

/-- A literal is read exactly as it is written, unless it ends in a backslash. -/
theorem readLiteral?_eq_some_iff (input text behind : List Char) :
    readLiteral? input = some (text, behind) ↔
      input = escapeQuotes text ++ '"' :: behind ∧ text.getLast? ≠ some '\\' := by
  constructor
  · exact eq_escapeQuotes_of_readLiteral? input text behind
  · rintro ⟨rfl, ends⟩
    exact readLiteral?_escapeQuotes text behind ends

theorem length_escapeQuotes (text : List Char) :
    (escapeQuotes text).length = text.length + text.count '"' := by
  induction text with
  | nil => rfl
  | cons c rest ih =>
    by_cases quote : c = '"'
    · subst quote
      simp only [escapeQuotes_quote, List.length_cons, ih, List.count_cons_self]
      omega
    · simp only [escapeQuotes_cons c rest quote, List.length_cons, ih, List.count_cons_of_ne quote]
      omega

theorem escapeQuotes_eq_self_iff (text : List Char) : escapeQuotes text = text ↔ '"' ∉ text := by
  constructor
  · intro same
    have size := length_escapeQuotes text
    rw [same] at size
    exact List.count_eq_zero.mp (by omega)
  · intro absent
    induction text with
    | nil => rfl
    | cons c rest ih =>
      rw [List.mem_cons, not_or] at absent
      rw [escapeQuotes_cons c rest (Ne.symm absent.1), ih absent.2]

/-- A block of code, character by character. -/
private theorem markup_code_toList (number : Nat) (language : String) (lines : List String) :
    (code number language lines).markup.toList =
      "@code(language: \"".toList ++ (language.toList ++ '"' :: ([' ', '"'] ++
        (escapeQuotes (joinLines lines).toList ++ '"' :: [')', '\n']))) := by
  have head : (code number language lines).markup = "@code(language: \"" ++ language ++ "\" \"" ++
      String.ofList (escapeQuotes (joinLines lines).toList) ++ "\")\n" := rfl
  rw [head]
  simp

private theorem readBlock?_eq_some_iff (rest : List Char) (block : Block) :
    readBlock? ("@code(language: \"".toList ++ rest) = some block ↔
      ∃ middle, readLiteral? rest = some (block.language.toList, [' ', '"'] ++ middle) ∧
        readLiteral? middle = some (block.source.toList, block.behind.toList) := by
  rw [readBlock?, List.dropPrefix?_append_of_beq rest (beq_self_eq_true _)]
  simp only [Option.bind_eq_bind, Option.bind_some, Option.bind_eq_some_iff, Prod.exists,
    List.dropPrefix?_eq_some_iff, beq_iff_eq]
  constructor
  · rintro ⟨language, _, first, middle, ⟨_, rfl, rfl⟩, source, behind, second, made⟩
    cases made
    simp only [String.toList_ofList]
    exact ⟨middle, first, second⟩
  · rintro ⟨middle, first, second⟩
    refine ⟨_, _, first, middle, ⟨_, rfl, rfl⟩, _, _, second, ?_⟩
    simp only [String.ofList_toList]
    rfl

/-- A block of code is read back as it was written exactly when its language has no quote in it and
neither its language nor its source ends in a backslash. -/
theorem readBlock?_markup_iff (number : Nat) (language : String) (lines : List String) :
    readBlock? (code number language lines).markup.toList =
        some ⟨language, joinLines lines, ")\n"⟩ ↔
      '"' ∉ language.toList ∧ language.toList.getLast? ≠ some '\\' ∧
        (joinLines lines).toList.getLast? ≠ some '\\' := by
  rw [markup_code_toList, readBlock?_eq_some_iff]
  simp only [readLiteral?_eq_some_iff]
  constructor
  · rintro ⟨middle, ⟨first, languageEnds⟩, second, sourceEnds⟩
    refine ⟨?_, languageEnds, sourceEnds⟩
    -- The language is read as if it were escaped, and it is not: so it has no quote to escape.
    rw [← escapeQuotes_eq_self_iff]
    subst second
    exact (List.append_cancel_right first).symm
  · rintro ⟨plain, languageEnds, sourceEnds⟩
    rw [(escapeQuotes_eq_self_iff _).mpr plain]
    exact ⟨_, ⟨rfl, languageEnds⟩, by simp, sourceEnds⟩

/-- A quote in the language ends its literal early, a backslash at the end of either text ends it
late. -/
theorem readBlock?_unescaped :
    readBlock? (code 1 "a\"b" ["x"]).markup.toList = none ∧
      readBlock? (code 1 "c\\" ["x"]).markup.toList = none ∧
      readBlock? (code 1 "c" ["x\\"]).markup.toList = none := by
  decide

end Weave.Run
