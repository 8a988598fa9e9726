import Weave.Proofs.Markup.Block
import Weave.Proofs.Markup.Emission
import Weave.Proofs.Text.Division

/-!
# The source in a block of code

A block of code may not end where its reader takes it to end, but no two sources are written the
same way. In what is written a quote always has a backslash before it, and taking away that one
gives the source back, whatever backslashes the source has itself. Where the lines come from a text,
none of them has a line feed in it, so the block tells the lines too.
-/

namespace Weave

namespace Run

/-! ### Backslashes before quotes -/

/-- A text without the backslash directly before each quote. -/
def dropEscapes : List Char → List Char
  | [] => []
  | '\\' :: '"' :: rest => '"' :: dropEscapes rest
  | c :: rest => c :: dropEscapes rest

theorem dropEscapes_cons (c : Char) (rest : List Char)
    (whole : ¬(c = '\\' ∧ rest.head? = some '"')) :
    dropEscapes (c :: rest) = c :: dropEscapes rest := by
  rw [dropEscapes]
  rintro tail rfl rfl
  exact whole ⟨rfl, rfl⟩

theorem dropEscapes_escapeQuotes (text : List Char) : dropEscapes (escapeQuotes text) = text := by
  induction text with
  | nil => rfl
  | cons c rest ih =>
    by_cases quote : c = '"'
    · subst quote
      rw [escapeQuotes_quote, dropEscapes, ih]
    · -- A backslash of the text has no quote behind it, since that quote is written with its own.
      have whole : ¬(c = '\\' ∧ (escapeQuotes rest).head? = some '"') :=
        fun both => head?_escapeQuotes rest both.2
      rw [escapeQuotes_cons c rest quote, dropEscapes_cons c _ whole, ih]

/-- In a written text a quote has a backslash before it. -/
theorem backslash_before_quote {text before behind : List Char} {c : Char}
    (found : escapeQuotes text = before ++ c :: '"' :: behind) : c = '\\' := by
  induction text generalizing before with
  | nil => simp [escapeQuotes] at found
  | cons d rest ih =>
    by_cases quote : d = '"'
    · subst quote
      rw [escapeQuotes_quote] at found
      -- The quote is this one, or it stands in what is written of the rest.
      rcases before with _ | ⟨_, _ | ⟨_, before⟩⟩
      · exact (List.cons.inj found).1.symm
      · obtain ⟨-, inner⟩ := List.cons.inj found
        obtain ⟨rfl, tail⟩ := List.cons.inj inner
        have starts : (escapeQuotes rest).head? = some '"' := by rw [tail]; rfl
        exact absurd starts (head?_escapeQuotes rest)
      · obtain ⟨-, inner⟩ := List.cons.inj found
        exact ih (List.cons.inj inner).2
    · rw [escapeQuotes_cons d rest quote] at found
      rcases before with _ | ⟨_, before⟩
      · have starts : (escapeQuotes rest).head? = some '"' := by
          rw [(List.cons.inj found).2]
          rfl
        exact absurd starts (head?_escapeQuotes rest)
      · exact ih (List.cons.inj found).2

/-! ### Blocks -/

/-- The source in the block of a language: what stands between head and tail of the block, without
the backslash before each quote. -/
def sourceOf? (language block : String) : Option String := do
  let rest ← block.toList.dropPrefix? (blockHead language).toList
  let text ← rest.dropSuffix? (blockTail ++ "\n").toList
  return String.ofList (dropEscapes text)

/-- What stands between the language of a block and its source. -/
private def between : List Char := ['"', ' ', '"']

private theorem blockHead_toList (language : String) :
    (blockHead language).toList = "@code(language: \"".toList ++ (language.toList ++ between) := by
  unfold blockHead between
  simp

private theorem markup_code (number : Nat) (language : String) (lines : List String) :
    (code number language lines).markup.toList =
      (blockHead language).toList ++
        (escapeQuotes (joinLines lines).toList ++ (blockTail ++ "\n").toList) := by
  rw [markup_eq, written]
  simp [endsLine, escaped]

theorem sourceOf?_markup (number : Nat) (language : String) (lines : List String) :
    sourceOf? language (code number language lines).markup = some (joinLines lines) := by
  have cut : (escapeQuotes (joinLines lines).toList ++ (blockTail ++ "\n").toList).dropSuffix?
      (blockTail ++ "\n").toList = some (escapeQuotes (joinLines lines).toList) :=
    List.dropSuffix?_eq_some_iff.mpr ⟨_, rfl, beq_self_eq_true _⟩
  rw [sourceOf?, markup_code, List.dropPrefix?_append_of_beq _ (beq_self_eq_true _)]
  simp only [Option.bind_eq_bind, Option.bind_some, cut, dropEscapes_escapeQuotes,
    String.ofList_toList]
  rfl

/-- The language ends at the last place where a quote has no backslash before it. -/
private theorem eq_nil_of_between {extra source text : List Char}
    (same : between ++ escapeQuotes source = extra ++ (between ++ escapeQuotes text)) :
    extra = [] := by
  -- Otherwise the source would have a quote behind a blank.
  have plain (before behind : List Char)
      (found : escapeQuotes source = before ++ ' ' :: '"' :: behind) : False :=
    absurd (backslash_before_quote found) (by decide)
  rcases extra with _ | ⟨a, _ | ⟨b, _ | ⟨c, extra⟩⟩⟩
  · rfl
  · simp [between] at same
  · have inner : escapeQuotes source = [] ++ ' ' :: '"' :: escapeQuotes text := by
      simp_all [between]
    exact (plain _ _ inner).elim
  · have inner : escapeQuotes source = (extra ++ ['"']) ++ ' ' :: '"' :: escapeQuotes text := by
      simp_all [between]
    exact (plain _ _ inner).elim

private theorem language_eq_of_between {language other source text : List Char}
    (same : language ++ (between ++ escapeQuotes source) =
      other ++ (between ++ escapeQuotes text)) : language = other := by
  rcases List.append_eq_append_iff.mp same with ⟨extra, rfl, behind⟩ | ⟨extra, rfl, behind⟩
  · rw [eq_nil_of_between behind, List.append_nil]
  · rw [eq_nil_of_between behind, List.append_nil]

/-- A block tells its language and its source. -/
theorem eq_of_markup_eq {number place : Nat} {language other : String} {lines more : List String}
    (same : (code number language lines).markup = (code place other more).markup) :
    language = other ∧ joinLines lines = joinLines more := by
  have languages : language = other := by
    have written : (blockHead language).toList ++
        (escapeQuotes (joinLines lines).toList ++ (blockTail ++ "\n").toList) =
        (blockHead other).toList ++
          (escapeQuotes (joinLines more).toList ++ (blockTail ++ "\n").toList) := by
      rw [← markup_code number, ← markup_code place, same]
    -- Both blocks end in the same way, and their heads begin in the same way.
    generalize (blockTail ++ "\n").toList = tail at written
    rw [← List.append_assoc, ← List.append_assoc, List.append_cancel_right_eq, blockHead_toList,
      blockHead_toList] at written
    generalize "@code(language: \"".toList = head at written
    rw [List.append_assoc head, List.append_assoc head, List.append_cancel_left_eq,
      List.append_assoc, List.append_assoc] at written
    exact String.toList_inj.mp (language_eq_of_between written)
  subst languages
  have sources := congrArg (sourceOf? language) same
  rw [sourceOf?_markup, sourceOf?_markup] at sources
  exact ⟨rfl, Option.some.inj sources⟩

/-! ### Lines of a block -/

theorem splitOn_joinLines {lines : List String} (filled : lines ≠ [])
    (whole : ∀ line ∈ lines, '\n' ∉ line.toList) :
    (joinLines lines).toList.splitOn '\n' = lines.map String.toList := by
  have feed : "\n".toList = ['\n'] := rfl
  rw [joinLines, String.toList_intercalate, feed]
  exact List.splitOn_intercalate '\n' (by simpa using whole) (by simpa using filled)

/-- Lines without line feeds can be told from what they are joined to. -/
theorem eq_of_joinLines_eq {lines more : List String} (filled : lines ≠ []) (filled' : more ≠ [])
    (whole : ∀ line ∈ lines, '\n' ∉ line.toList) (whole' : ∀ line ∈ more, '\n' ∉ line.toList)
    (same : joinLines lines = joinLines more) : lines = more := by
  have cut : lines.map String.toList = more.map String.toList := by
    rw [← splitOn_joinLines filled whole, same, splitOn_joinLines filled' whole']
  exact List.map_injective_iff.mpr (fun _ _ => String.toList_inj.mp) cut

/-- Whether code and blank runs are made of lines of a text: no line has a line feed in it, and code
has at least one. -/
def WholeLines : Run → Prop
  | doc _ _ => True
  | code _ _ lines => lines ≠ [] ∧ ∀ line ∈ lines, '\n' ∉ line.toList
  | blank _ text => '\n' ∉ text.toList

theorem wholeLines_ofLine (pattern : Pattern) (language : String) {line : String}
    (unbroken : '\n' ∉ line.toList) (number : Nat) :
    (ofLine pattern language line number).WholeLines := by
  unfold ofLine
  split
  · exact unbroken
  · split
    · trivial
    · exact ⟨List.cons_ne_nil _ _, by simpa using unbroken⟩

theorem wholeLines_of_absorb? {first second grown : Run} (start : first.WholeLines)
    (behind : second.WholeLines) (merged : first.absorb? second = some grown) :
    grown.WholeLines := by
  obtain ⟨takes, rfl⟩ := absorb?_eq_some first second grown merged
  cases first with
  | doc line lines => trivial
  | blank line text => exact start
  | code line language lines =>
    have later : ∀ line ∈ second.lines, '\n' ∉ line.toList := by
      cases second with
      | doc => simp [kind, Kind.takes] at takes
      | code line other more => exact behind.2
      | blank line text => exact List.forall_mem_singleton.mpr behind
    refine ⟨List.append_ne_nil_of_left_ne_nil start.1 _, ?_⟩
    exact List.forall_mem_append.mpr ⟨start.2, later⟩

private theorem wholeLines_mergeFrom {last : Run} {rest : List Run} (start : last.WholeLines)
    (all : ∀ run ∈ rest, run.WholeLines) : ∀ run ∈ mergeFrom last rest, run.WholeLines := by
  -- The last run may grow at every step, so the induction is for all that it can be.
  induction rest generalizing last with
  | nil => simpa [mergeFrom] using start
  | cons next rest ih =>
    rw [List.forall_mem_cons] at all
    rw [mergeFrom]
    split
    next grown merged => exact ih (wholeLines_of_absorb? start all.1 merged) all.2
    next => exact List.forall_mem_cons.mpr ⟨start, ih all.1 all.2⟩

theorem wholeLines_merge {runs : List Run} (all : ∀ run ∈ runs, run.WholeLines) :
    ∀ run ∈ merge runs, run.WholeLines := by
  cases runs with
  | nil => exact all
  | cons first rest =>
    rw [List.forall_mem_cons] at all
    exact wholeLines_mergeFrom all.1 all.2

end Run

namespace Converter

theorem runs_wholeLines (c : Converter) (text : String) : ∀ run ∈ c.runs text, run.WholeLines := by
  apply Run.wholeLines_merge
  intro run member
  rw [lineRuns_eq_mapIdx] at member
  obtain ⟨index, bound, rfl⟩ := List.mem_mapIdx.mp member
  have unbroken := (Text.divided_lines text).unbroken _ (List.getElem_mem bound)
  exact Run.wholeLines_ofLine c.pattern c.language unbroken.2 (index + 1)

/-- From a block of code the joined lines come back, whatever backslashes they have. Equal blocks
have equal languages and equal joined lines; where the lines come from texts, they have no line feed
in them, and equal blocks have equal lines. -/
theorem lines_of_markup :
    (∀ number language lines,
      Run.sourceOf? language (Run.code number language lines).markup =
        some (Run.joinLines lines)) ∧
    (∀ number language lines place other more,
      (Run.code number language lines).markup = (Run.code place other more).markup →
        language = other ∧ Run.joinLines lines = Run.joinLines more) ∧
    ∀ (c d : Converter) (text next : String) (number language lines place other more),
      Run.code number language lines ∈ c.runs text → Run.code place other more ∈ d.runs next →
        (∀ line ∈ lines, '\n' ∉ line.toList) ∧
        ((Run.code number language lines).markup = (Run.code place other more).markup →
          language = other ∧ lines = more) := by
  refine ⟨Run.sourceOf?_markup, fun _ _ _ _ _ _ => Run.eq_of_markup_eq, ?_⟩
  intro c d text next number language lines place other more member member'
  obtain ⟨filled, whole⟩ := c.runs_wholeLines text _ member
  obtain ⟨filled', whole'⟩ := d.runs_wholeLines next _ member'
  refine ⟨whole, fun same => ?_⟩
  -- Lines without line feeds are told from their joined text.
  obtain ⟨languages, joined⟩ := Run.eq_of_markup_eq same
  exact ⟨languages, Run.eq_of_joinLines_eq filled filled' whole whole' joined⟩

/-- Two texts with the same code, which has backslashes before a quote and at its end, give the same
block at different places. -/
theorem lines_of_markup_backslashes :
    let c : Converter := ⟨.ofExpr "(//)" (.group 1 (.literal ['/', '/'])), "js"⟩
    let lines := ["x\\\\\"", "", "y\\"]
    let more := ["x\\\\\"", "", "y\\"]
    Run.sourceOf? "js" (Run.code 1 "js" more).markup = some "x\\\\\"\n\ny\\" ∧
      Run.code 2 c.language lines ∈ c.runs "//\nx\\\\\"\r\n\r\ny\\" ∧
      Run.code 1 "js" more ∈ c.runs "x\\\\\"\n\ny\\\n//" ∧
      (Run.code 2 c.language lines).markup = (Run.code 1 "js" more).markup ∧
      (∀ line ∈ lines, '\n' ∉ line.toList) ∧ c.language = "js" ∧ lines = more := by
  intro c lines more
  have first : Run.code 2 c.language lines ∈ c.runs "//\nx\\\\\"\r\n\r\ny\\" := by
    decide +kernel
  have second : Run.code 1 "js" more ∈ c.runs "x\\\\\"\n\ny\\\n//" := by decide +kernel
  have blocks := lines_of_markup.2.2 c c _ _ 2 c.language lines 1 "js" more first second
  exact ⟨lines_of_markup.1 1 "js" more, first, second, rfl, blocks.1, blocks.2 rfl⟩

end Converter

end Weave
