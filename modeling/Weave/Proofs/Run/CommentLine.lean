import Weave.Proofs.Markup.Comment

/-!
# Lines that are comments

Under the pattern of a marker, a line that is not blank is documentation when the marker stands
behind its indentation. Documentation is all that stands behind that marker, but for one blank at
its start; every other line is code, and stays as it is.
-/

namespace Weave

namespace Pattern

theorem notMem_dropOneBlank {c : Char} {marker text rest : List Char} (absent : c ∉ text)
    (split : Text.dropBlank text = marker ++ rest) : c ∉ dropOneBlank rest := by
  intro member
  have behind : c ∈ Text.dropBlank text := by
    rw [split]
    exact List.mem_append_right marker ((dropOneBlank_suffix rest).subset member)
  exact absent ((List.dropWhile_sublist Text.isBlank).subset behind)

/-- In a text without line feeds the body is all that stands behind the marker and one blank. -/
theorem commentBody?_eq_some_iff {marker text : List Char} (unbroken : '\n' ∉ text)
    (body : List Char) :
    commentBody? marker text = some body ↔
      ∃ rest, Text.dropBlank text = marker ++ rest ∧ body = dropOneBlank rest := by
  simp only [commentBody?, Option.bind_eq_bind, Option.bind_eq_some_iff,
    List.isPrefixOf?_eq_some_iff_append_eq]
  refine exists_congr fun rest => ?_
  rw [eq_comm (a := marker ++ rest)]
  refine and_congr_right fun split => ?_
  rw [if_neg (notMem_dropOneBlank unbroken split), Option.some.injEq]
  exact eq_comm

end Pattern

namespace Run

theorem ofLine_eq_doc_iff {pattern : Pattern} {line : String} (filled : Text.allBlank line = false)
    (language : String) (number : Nat) (lines : List String) :
    ofLine pattern language line number = doc number lines ↔
      ∃ body, pattern.firstGroup? line = some body ∧ lines = [body] := by
  cases found : pattern.firstGroup? line with
  | none => simp [ofLine, filled, found]
  | some body => simp [ofLine, filled, found, eq_comm]

theorem ofLine_eq_code_iff {pattern : Pattern} {line : String} (filled : Text.allBlank line = false)
    (language : String) (number : Nat) :
    ofLine pattern language line number = code number language [line] ↔
      pattern.firstGroup? line = none := by
  cases found : pattern.firstGroup? line <;> simp [ofLine, filled, found]

end Run

/-- The documentation in what stands behind a marker: all but one blank at its start. -/
def commentBody (behind : String) : String :=
  String.ofList (Pattern.dropOneBlank behind.toList)

theorem firstGroup?_eq_some_iff {marker : String} (marks : Marks marker) (source : String)
    {line : String} (unbroken : Text.Unbroken line) (body : String) :
    (Pattern.ofExpr source (Pattern.lineComment marker.toList)).firstGroup? line = some body ↔
      ∃ behind, Text.trimStart line = marker ++ behind ∧ body = commentBody behind := by
  obtain ⟨c, more, begins, visible⟩ := marks.visible
  rw [begins, Pattern.firstGroup?_lineComment visible, ← begins, Option.map_eq_some_iff]
  simp only [Pattern.commentBody?_eq_some_iff unbroken.2]
  -- Both sides say how the line splits behind its marker, one in characters, one in texts.
  constructor
  · rintro ⟨_, ⟨rest, split, rfl⟩, rfl⟩
    refine ⟨String.ofList rest, ?_, by rw [commentBody, String.toList_ofList]⟩
    rw [Text.trimStart, split, String.ofList_append, String.ofList_toList]
  · rintro ⟨behind, split, rfl⟩
    refine ⟨_, ⟨behind.toList, ?_, rfl⟩, rfl⟩
    rw [← String.toList_append, ← split, Text.trimStart, String.toList_ofList]

namespace Run

variable {marker line : String}

theorem ofLine_lineComment_eq_doc_iff (marks : Marks marker) (source : String)
    (filled : Text.allBlank line = false) (unbroken : Text.Unbroken line) (language : String)
    (number : Nat) (lines : List String) :
    ofLine (.ofExpr source (Pattern.lineComment marker.toList)) language line number =
        doc number lines ↔
      ∃ behind, Text.trimStart line = marker ++ behind ∧ lines = [commentBody behind] := by
  rw [ofLine_eq_doc_iff filled]
  simp only [firstGroup?_eq_some_iff marks source unbroken]
  constructor
  · rintro ⟨_, ⟨behind, split, rfl⟩, rfl⟩
    exact ⟨behind, split, rfl⟩
  · rintro ⟨behind, split, rfl⟩
    exact ⟨_, ⟨behind, split, rfl⟩, rfl⟩

theorem ofLine_lineComment_eq_code_iff (marks : Marks marker) (source : String)
    (filled : Text.allBlank line = false) (unbroken : Text.Unbroken line) (language : String)
    (number : Nat) :
    ofLine (.ofExpr source (Pattern.lineComment marker.toList)) language line number =
        code number language [line] ↔
      ¬∃ behind, Text.trimStart line = marker ++ behind := by
  rw [ofLine_eq_code_iff filled, Option.eq_none_iff_forall_ne_some]
  simp only [ne_eq, firstGroup?_eq_some_iff marks source unbroken]
  constructor
  · rintro absent ⟨behind, split⟩
    exact absent _ ⟨behind, split, rfl⟩
  · rintro apart _ ⟨behind, split, -⟩
    exact apart ⟨behind, split⟩

end Run

namespace Language

/-- The markers of comments in the presets, in the order of these. -/
def presetMarkers : List String :=
  ["//", "#"]

/-- The converter of a preset takes the lines with its marker behind their indentation for
documentation, and all others that are not blank for code. -/
theorem ofLine_preset (line : String) (filled : Text.allBlank line = false)
    (unbroken : Text.Unbroken line) (language : String) (number : Nat) :
    ∀ preset ∈ presets.zip presetMarkers, ∃ c, preset.1.converter = .ok c ∧
      (∀ lines, Run.ofLine c.pattern language line number = .doc number lines ↔
        ∃ behind, Text.trimStart line = preset.2 ++ behind ∧ lines = [commentBody behind]) ∧
      (Run.ofLine c.pattern language line number = .code number language [line] ↔
        ¬∃ behind, Text.trimStart line = preset.2 ++ behind) := by
  simp only [presets, presetMarkers, List.zip_cons_cons, List.zip_nil_right, List.forall_mem_cons]
  refine ⟨⟨_, converter_javascript, ?_, ?_⟩, ⟨_, converter_livescript, ?_, ?_⟩, by simp⟩
  · exact Run.ofLine_lineComment_eq_doc_iff marks_javascript _ filled unbroken language number
  · exact Run.ofLine_lineComment_eq_code_iff marks_javascript _ filled unbroken language number
  · exact Run.ofLine_lineComment_eq_doc_iff marks_livescript _ filled unbroken language number
  · exact Run.ofLine_lineComment_eq_code_iff marks_livescript _ filled unbroken language number

theorem ofLine_preset_marker_twice :
    Text.allBlank "\t//  // x\u2003" = false ∧ Text.Unbroken "\t//  // x\u2003" ∧
      ∃ c, javascript.converter = .ok c ∧
        Run.ofLine c.pattern "js" "\t//  // x\u2003" 3 = .doc 3 [" // x\u2003"] := by
  have filled : Text.allBlank "\t//  // x\u2003" = false := by decide
  have unbroken : Text.Unbroken "\t//  // x\u2003" := by simp [Text.Unbroken]
  have first : (javascript, "//") ∈ presets.zip presetMarkers := by
    simp [presets, presetMarkers]
  obtain ⟨c, made, documentation, -⟩ := ofLine_preset _ filled unbroken "js" 3 _ first
  refine ⟨filled, unbroken, c, made, (documentation _).mpr ⟨"  // x\u2003", ?_, ?_⟩⟩
  · decide
  · decide

end Language

end Weave
