import Mathlib.Data.List.Basic
import Weave.Proofs.Run.Kind

/-!
# Markup in one pass

The markup of a text is also what is written by reading its lines once and remembering only the kind
of the run that is open. The line feed that is left out at the end is the one behind the last run,
never a part of the text.
-/

namespace Weave

namespace Run

/-- A text with a backslash before each quote. -/
def escaped (text : String) : String :=
  String.ofList (escapeQuotes text.toList)

/-- What stands in a block of code before its source. -/
def blockHead (language : String) : String :=
  "@code(language: \"" ++ language ++ "\" \""

/-- What stands in a block of code behind its source. -/
def blockTail : String := "\")"

/-- What a line writes where no run is open. -/
def opening (language : String) : Line → String
  | ⟨.doc, body⟩ => body
  | ⟨.blank, body⟩ => body
  | ⟨.code, body⟩ => blockHead language ++ escaped body

/-- What a line writes behind the lines read so far. -/
def emit (language : String) : Option Kind → Line → String
  | none, line => opening language line
  | some .doc, line => "\n" ++ opening language line
  | some .code, ⟨.doc, body⟩ => blockTail ++ "\n\n" ++ body
  | some .code, ⟨_, body⟩ => "\n" ++ escaped body
  | some .blank, line => "\n\n" ++ opening language line

/-- What is written behind the last line. -/
def closing : Option Kind → String
  | some .code => blockTail
  | _ => ""

/-- What lines write, one after the other. -/
def emitAll (language : String) (before : Option Kind) : List Line → String
  | [] => closing before
  | line :: rest =>
    emit language before line ++ emitAll language (some (Kind.opened before line.kind)) rest

/-- What a run writes before it is known to be complete. -/
def standing : Run → String
  | doc _ lines => joinLines lines
  | code _ language lines => blockHead language ++ escaped (joinLines lines)
  | blank _ text => text

/-- The markup of a run without the line feed that ends it. -/
def written : Run → String
  | doc _ lines => joinLines lines
  | code _ language lines => blockHead language ++ escaped (joinLines lines) ++ blockTail
  | blank _ text => text

theorem escaped_append (first second : String) :
    escaped (first ++ second) = escaped first ++ escaped second := by
  simp [escaped, escapeQuotes]

theorem escaped_lineFeed : escaped "\n" = "\n" := by
  decide

theorem written_eq (run : Run) : run.written = run.standing ++ closing (some run.kind) := by
  cases run <;> simp [written, standing, closing, kind]

theorem markup_eq (run : Run) : run.markup = run.written ++ if run.endsLine then "\n" else "" := by
  cases run with
  | doc line lines => exact String.append_empty.symm
  | blank line text => rfl
  | code line language lines =>
    have ending : "\")\n" = blockTail ++ "\n" := by decide
    exact (congrArg (blockHead language ++ escaped (joinLines lines) ++ ·) ending).trans
      String.append_assoc.symm

/-! ### Separators -/

theorem joinLines_concat (lines : List String) (last : String) (filled : lines ≠ []) :
    joinLines (lines ++ [last]) = joinLines lines ++ "\n" ++ last := by
  rw [joinLines, String.intercalate_append_of_ne_nil filled (by simp), String.intercalate_singleton]
  rfl

theorem joinLines_concat_append (lines : List String) (last more : String) :
    joinLines (lines ++ [last ++ more]) = joinLines (lines ++ [last]) ++ more := by
  by_cases empty : lines = []
  · simp [empty, joinLines]
  · rw [joinLines_concat _ _ empty, joinLines_concat _ _ empty, String.append_assoc,
      String.append_assoc, String.append_assoc]

theorem markupOf_concat (done : List Run) (last : Run) :
    markupOf (done ++ [last]) = joinLines (done.map markup ++ [last.written]) := by
  rw [markupOf, List.getLast?_concat, List.map_append, List.map_singleton, markup_eq,
    joinLines_concat_append]
  -- The line feed that `markup_eq` puts behind the last run is the one that is dropped.
  cases ends : last.endsLine <;> simp [ends]

theorem markupOf_eq (runs : List Run) :
    markupOf runs =
      joinLines (runs.dropLast.map markup ++ (runs.getLast?.map written).toList) := by
  rcases List.eq_nil_or_concat' runs with rfl | ⟨done, last, rfl⟩
  · rfl
  · rw [markupOf_concat, List.dropLast_concat, List.getLast?_concat]
    rfl

theorem joinLines_map_markup (runs : List Run) :
    joinLines (runs.map markup) =
      markupOf runs ++ if runs.getLast?.any endsLine then "\n" else "" := by
  rcases List.eq_nil_or_concat' runs with rfl | ⟨done, last, rfl⟩
  · rfl
  · rw [List.map_append, List.map_singleton, markup_eq, joinLines_concat_append, markupOf_concat,
      List.getLast?_concat]
    rfl

theorem markupOf_cons (run : Run) (more : List Run) (filled : more ≠ []) :
    markupOf (run :: more) = run.markup ++ "\n" ++ markupOf more := by
  obtain ⟨done, last, rfl⟩ := (List.eq_nil_or_concat' more).resolve_left filled
  rw [← List.cons_append, markupOf_concat, markupOf_concat, List.map_cons, List.cons_append]
  exact String.intercalate_cons_of_ne_nil (by simp)

/-! ### The pass -/

theorem standing_single (language : String) (number : Nat) (line : Line) :
    (single language number line).standing = opening language line := by
  obtain ⟨kind, body⟩ := line
  cases kind <;> simp [single, standing, opening, joinLines]

/-- A line that goes on a run writes what the run grows by. -/
theorem standing_extend (language : String) (last : Run) (line : Line) (filled : last.lines ≠ [])
    (takes : last.kind.takes line.kind = true) :
    (last.extend [line.body]).standing = last.standing ++ emit language (some last.kind) line := by
  obtain ⟨kind, body⟩ := line
  cases last with
  | doc number lines =>
    cases kind <;> simp only [Run.kind, Kind.takes, Bool.false_eq_true] at takes
    rw [extend, standing, joinLines_concat lines body filled, String.append_assoc]
    rfl
  | code number own lines =>
    have grown : escaped (joinLines (lines ++ [body])) =
        escaped (joinLines lines) ++ ("\n" ++ escaped body) := by
      rw [joinLines_concat lines body filled, escaped_append, escaped_append, escaped_lineFeed,
        String.append_assoc]
    cases kind <;> simp only [Run.kind, Kind.takes, Bool.false_eq_true] at takes <;>
      simp only [extend, standing, grown, emit, Run.kind, String.append_assoc]
  | blank number text => simp [Run.kind, Kind.takes] at takes

/-- A line that starts a run first writes what completes the run before it. -/
theorem markup_opening (language : String) (last : Run) (line : Line)
    (apart : ¬ last.kind.takes line.kind = true) :
    last.markup ++ "\n" ++ opening language line =
      last.standing ++ emit language (some last.kind) line := by
  obtain ⟨kind, body⟩ := line
  rw [markup_eq, written_eq]
  cases last with
  | doc number lines => simp [standing, closing, Run.kind, endsLine, emit, String.append_assoc]
  | blank number text =>
    have ending : "\n\n" = "\n" ++ "\n" := by decide
    simp [standing, closing, Run.kind, endsLine, emit, ending, String.append_assoc]
  | code number own lines =>
    have ending : "\n\n" = "\n" ++ "\n" := by decide
    cases kind <;> simp only [Run.kind, Kind.takes, not_true_eq_false] at apart
    simp [closing, Run.kind, endsLine, emit, opening, ending, String.append_assoc]

theorem markupOf_mergeFrom (language : String) (last : Run) (number : Nat) (rest : List Line)
    (speaks : last.Speaks language) (filled : last.lines ≠ []) :
    markupOf (mergeFrom last (numbered language number rest)) =
      last.standing ++ emitAll language (some last.kind) rest := by
  induction rest generalizing last number with
  | nil =>
    rw [numbered, mergeFrom, emitAll, ← written_eq]
    exact markupOf_concat [] last
  | cons line rest ih =>
    rw [mergeFrom_numbered_cons language last number line rest speaks, emitAll, Kind.opened_some,
      ← String.append_assoc]
    by_cases takes : last.kind.takes line.kind = true
    · -- The run stays open: the line writes what the run grows by.
      have grown := extend_lines last [line.body] (Kind.ne_blank_of_takes _ _ takes)
      rw [if_pos takes, if_pos takes, ← standing_extend language last line filled takes,
        ih _ _ (extend_speaks language last [line.body] speaks) (by simp [grown]), extend_kind]
    · -- The run is complete: what ends it and the separator come before the line.
      rw [if_neg takes, if_neg takes, ← markup_opening language last line takes,
        markupOf_cons _ _ (mergeFrom_ne_nil _ _),
        ih _ _ (single_speaks language number line) (by simp), single_kind, standing_single,
        String.append_assoc, String.append_assoc, String.append_assoc]

end Run

namespace Converter

private theorem convert_eq (c : Converter) (text : String) :
    c.convert text = Run.emitAll c.language none (c.classified text) := by
  rw [convert, runs, lineRuns_eq_numbered]
  cases c.classified text with
  | nil => rfl
  | cons first rest =>
    rw [Run.numbered, Run.merge,
      Run.markupOf_mergeFrom c.language _ _ rest (Run.single_speaks c.language 1 first) (by simp),
      Run.standing_single, Run.single_kind]
    rfl

/-- The markup of a text is what its lines write in one pass. All runs are written whole, and what
is left out of their markup at the end is the line feed behind the last of them. -/
theorem convert_eq_emitAll (c : Converter) (text : String) :
    c.convert text = Run.emitAll c.language none (c.classified text) ∧
    c.convert text =
      Run.joinLines ((c.runs text).dropLast.map Run.markup ++
        ((c.runs text).getLast?.map Run.written).toList) ∧
    Run.joinLines ((c.runs text).map Run.markup) =
      c.convert text ++ if (c.runs text).getLast?.any Run.endsLine then "\n" else "" :=
  ⟨c.convert_eq text, Run.markupOf_eq (c.runs text), Run.joinLines_map_markup (c.runs text)⟩

end Converter

end Weave
