import Mathlib.Data.List.TakeWhile
import Weave.Language
import Weave.Proofs.Markup.Emission
import Weave.Proofs.Pattern.Comment
import Weave.Proofs.Text.Lines

/-!
# Documentation that comes back

Documentation written as comments of a source language, one line for each comment, comes back as it
was when the source is converted, whatever its indentation and its line ends.
-/

namespace Weave

/-- A line of documentation in a source file. -/
structure CommentLine where
  indentation : String
  body : String
  ending : Text.LineEnd
  blank : Text.allBlank indentation = true
  indented : Text.Unbroken indentation
  unbroken : Text.Unbroken body

/-- What can mark comments: a text in one line that starts with a character that is not blank. -/
structure Marks (marker : String) : Prop where
  unbroken : Text.Unbroken marker
  visible : ∃ c behind, marker.toList = c :: behind ∧ Text.isBlank c = false

namespace CommentLine

/-- The line with the marker of comments and one space before its body. -/
def source (marker : String) (line : CommentLine) : String :=
  line.indentation ++ (marker ++ (" " ++ line.body))

/-- Lines one after the other, of which the last has its terminator if the text is closed. -/
def sourceText (marker : String) (closed : Bool) : List CommentLine → String
  | [] => ""
  | [last] => if closed then last.source marker ++ last.ending.text else last.source marker
  | line :: next :: rest =>
    line.source marker ++ line.ending.text ++ sourceText marker closed (next :: rest)

variable {marker : String}

theorem source_unbroken (marks : Marks marker) (line : CommentLine) :
    Text.Unbroken (line.source marker) := by
  have space : Text.Unbroken " " := by simp [Text.Unbroken]
  exact line.indented.append (marks.unbroken.append (space.append line.unbroken))

/-! ### Lines -/

theorem source_ne_empty (marker : String) (line : CommentLine) : line.source marker ≠ "" := by
  simp [source]

theorem exists_sourceText_cons (marker : String) (closed : Bool) (line : CommentLine)
    (rest : List CommentLine) :
    ∃ more, sourceText marker closed (line :: rest) = line.source marker ++ more := by
  cases rest with
  | nil =>
    cases closed with
    | true => exact ⟨line.ending.text, rfl⟩
    | false => exact ⟨"", String.append_empty.symm⟩
  | cons next rest => exact ⟨_, String.append_assoc⟩

/-- The lines of what is written are the lines that are written. -/
theorem lines_sourceText (marks : Marks marker) (closed : Bool) (lines : List CommentLine) :
    Text.lines (sourceText marker closed lines) = lines.map (source marker) := by
  fun_induction sourceText marker closed lines with
  | case1 => rfl
  | case2 last _ => exact Text.lines_ended _ last.ending (source_unbroken marks last)
  | case3 last _ =>
    exact Text.lines_unbroken _ (source_unbroken marks last) (source_ne_empty marker last)
  | case4 line next rest ih =>
    -- A carriage return and the line behind it share no pair: that line starts with no line feed.
    obtain ⟨more, begins⟩ := exists_sourceText_cons marker closed next rest
    have apart : ¬Text.SharesPair (line.source marker ++ line.ending.text)
        (sourceText marker closed (next :: rest)) := by
      rw [begins]
      exact (source_unbroken marks next).not_sharesPair (source_ne_empty marker next) _ _
    rw [Text.lines_append _ _ (Text.endsLine_ended _ line.ending) apart, ih,
      Text.lines_ended _ line.ending (source_unbroken marks line)]
    rfl

/-! ### Bodies -/

theorem dropBlank_source {c : Char} {behind : List Char} (begins : marker.toList = c :: behind)
    (visible : Text.isBlank c = false) (line : CommentLine) :
    Text.dropBlank (line.source marker).toList = marker.toList ++ ' ' :: line.body.toList := by
  have gone : line.indentation.toList.dropWhile Text.isBlank = [] :=
    List.dropWhile_eq_nil_iff.mpr (List.all_eq_true.mp line.blank)
  simp [Text.dropBlank, source, List.dropWhile_append, gone, begins, visible]

theorem commentBody?_source {c : Char} {behind : List Char} (begins : marker.toList = c :: behind)
    (visible : Text.isBlank c = false) (line : CommentLine) :
    Pattern.commentBody? marker.toList (line.source marker).toList = some line.body.toList := by
  have read : marker.toList.isPrefixOf? (marker.toList ++ ' ' :: line.body.toList) =
      some (' ' :: line.body.toList) := List.isPrefixOf?_eq_some_iff_append_eq.mpr rfl
  -- Only the space that was written is dropped, whatever the body starts with.
  have space : Text.isBlank ' ' = true := by decide
  simp [Pattern.commentBody?, dropBlank_source begins visible, read, Pattern.dropOneBlank, space,
    line.unbroken.2]

theorem source_not_blank {c : Char} {behind : List Char} (begins : marker.toList = c :: behind)
    (visible : Text.isBlank c = false) (line : CommentLine) :
    Text.allBlank (line.source marker) = false := by
  simp [Text.allBlank, source, begins, visible]

/-- Each line is documentation with its body. -/
theorem ofText_source (marks : Marks marker) (pattern : String) (line : CommentLine) :
    Run.Line.ofText (.ofExpr pattern (Pattern.lineComment marker.toList)) (line.source marker) =
      ⟨.doc, line.body⟩ := by
  obtain ⟨c, behind, begins, visible⟩ := marks.visible
  have body := commentBody?_source begins visible line
  rw [begins] at body
  rw [Run.Line.ofText, source_not_blank begins visible line, begins,
    Pattern.firstGroup?_lineComment visible, body]
  simp

end CommentLine

namespace Run

theorem mergeFrom_doc (language : String) (line number : Nat) (lines bodies : List String) :
    mergeFrom (doc line lines) (numbered language number (bodies.map (Line.mk .doc))) =
      [doc line (lines ++ bodies)] := by
  induction bodies generalizing lines number with
  | nil => simp [numbered, mergeFrom]
  | cons body bodies ih =>
    rw [List.map_cons, mergeFrom_numbered_cons language (doc line lines) number _ _ trivial]
    simpa [Run.kind, Kind.takes, extend] using ih (number + 1) (lines ++ [body])

/-- Lines of documentation make one run, and its markup is the lines. -/
theorem markupOf_merge_doc (language : String) (number : Nat) (bodies : List String) :
    markupOf (merge (numbered language number (bodies.map (Line.mk .doc)))) = joinLines bodies := by
  cases bodies with
  | nil => rfl
  | cons body bodies =>
    have one : merge (numbered language number ((body :: bodies).map (Line.mk .doc))) =
        [doc number (body :: bodies)] := mergeFrom_doc language number (number + 1) [body] bodies
    rw [one, markupOf_eq]
    simp [written, joinLines]

end Run

/-- Comments with the marker of the pattern come back as they were written. -/
theorem Converter.convert_sourceText {marker : String} (marks : Marks marker)
    (pattern language : String) (closed : Bool) (lines : List CommentLine) :
    convert ⟨.ofExpr pattern (Pattern.lineComment marker.toList), language⟩
        (CommentLine.sourceText marker closed lines) =
      Run.joinLines (lines.map CommentLine.body) := by
  have classified : classified ⟨.ofExpr pattern (Pattern.lineComment marker.toList), language⟩
      (CommentLine.sourceText marker closed lines) =
        (lines.map CommentLine.body).map (Run.Line.mk .doc) := by
    rw [classified_eq_map, CommentLine.lines_sourceText marks, List.map_map, List.map_map]
    exact List.map_congr_left fun line _ => CommentLine.ofText_source marks pattern line
  rw [convert, runs, lineRuns_eq_numbered, classified, Run.markupOf_merge_doc]

namespace Language

theorem converter_javascript :
    javascript.converter =
      .ok ⟨.ofExpr javascript.commentPattern (Pattern.lineComment "//".toList), "js"⟩ := by
  have read : Pattern.ofString? javascript.commentPattern =
      some (.ofExpr javascript.commentPattern (Pattern.lineComment "//".toList)) := by
    decide +kernel
  rw [converter, Converter.ofPattern, read]
  rfl

theorem converter_livescript :
    livescript.converter =
      .ok ⟨.ofExpr livescript.commentPattern (Pattern.lineComment "#".toList), "livescript"⟩ := by
  have read : Pattern.ofString? livescript.commentPattern =
      some (.ofExpr livescript.commentPattern (Pattern.lineComment "#".toList)) := by
    decide +kernel
  rw [converter, Converter.ofPattern, read]
  rfl

theorem marks_javascript : Marks "//" where
  unbroken := by simp [Text.Unbroken]
  visible := ⟨'/', ['/'], by decide, by decide⟩

theorem marks_livescript : Marks "#" where
  unbroken := by simp [Text.Unbroken]
  visible := ⟨'#', [], by decide, by decide⟩

/-- Documentation written as comments of a language that is known without configuration comes back
from its converter. -/
theorem convert_comments (closed : Bool) (lines : List CommentLine) :
    (javascript.converter.map fun c => c.convert (CommentLine.sourceText "//" closed lines)) =
        .ok (Run.joinLines (lines.map CommentLine.body)) ∧
      (livescript.converter.map fun c => c.convert (CommentLine.sourceText "#" closed lines)) =
        .ok (Run.joinLines (lines.map CommentLine.body)) := by
  constructor
  · rw [converter_javascript, Except.map, Converter.convert_sourceText marks_javascript]
  · rw [converter_livescript, Except.map, Converter.convert_sourceText marks_livescript]

/-- Blanks of all kinds stand before the comments and in them, and the last body is empty. -/
theorem convert_comments_rare_blanks :
    let lines : List CommentLine := [
      ⟨"\u00A0\u2003", " \u2028// a\u0085", .carriageReturn, by decide, by decide, by decide⟩,
      ⟨"\t\x0B", "", .pair, by decide, by decide, by decide⟩,
      ⟨"\u3000", "b ", .lineFeed, by decide, by decide, by decide⟩,
      ⟨"", "", .carriageReturn, by decide, by decide, by decide⟩]
    let slashes := "\u00A0\u2003//  \u2028// a\u0085\r\t\x0B// \r\n\u3000// b \n// \r"
    let hashes := "\u00A0\u2003#  \u2028// a\u0085\r\t\x0B# \r\n\u3000# b \n# "
    CommentLine.sourceText "//" true lines = slashes ∧
      CommentLine.sourceText "#" false lines = hashes ∧
      (javascript.converter.map fun c => c.convert slashes) = .ok " \u2028// a\u0085\n\nb \n" ∧
      (livescript.converter.map fun c => c.convert hashes) = .ok " \u2028// a\u0085\n\nb \n" := by
  intro lines slashes hashes
  have closed : CommentLine.sourceText "//" true lines = slashes := by decide +kernel
  have unclosed : CommentLine.sourceText "#" false lines = hashes := by decide +kernel
  have bodies : Run.joinLines (lines.map CommentLine.body) = " \u2028// a\u0085\n\nb \n" := by
    decide +kernel
  have fromSlashes := (convert_comments true lines).1
  have fromHashes := (convert_comments false lines).2
  rw [closed, bodies] at fromSlashes
  rw [unclosed, bodies] at fromHashes
  exact ⟨closed, unclosed, fromSlashes, fromHashes⟩

end Language

end Weave
