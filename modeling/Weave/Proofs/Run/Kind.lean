import Weave.Converter
import Weave.Proofs.Text.Scan

/-!
# Kinds of lines

A classified line is a run of its own, known by its kind and its body. Merging looks at kinds only,
because all code of one text has the language of its converter.
-/

namespace Weave

namespace Run

/-- What the lines of a run are. -/
inductive Kind where
  | doc
  | code
  | blank
  deriving DecidableEq, Repr

def kind : Run → Kind
  | doc _ _ => .doc
  | code _ _ _ => .code
  | blank _ _ => .blank

/-- A line of a run, with the kind of that run. -/
structure Line where
  kind : Kind
  body : String
  deriving DecidableEq, Repr

def parts (run : Run) : List Line :=
  run.lines.map (Line.mk run.kind)

def single (language : String) (number : Nat) : Line → Run
  | ⟨.doc, body⟩ => doc number [body]
  | ⟨.code, body⟩ => code number language [body]
  | ⟨.blank, body⟩ => blank number body

/-- Lines as runs of their own, numbered from a first number. -/
def numbered (language : String) (number : Nat) : List Line → List Run
  | [] => []
  | line :: rest => single language number line :: numbered language (number + 1) rest

@[simp] theorem single_kind (language : String) (number : Nat) (line : Line) :
    (single language number line).kind = line.kind := by
  obtain ⟨kind, body⟩ := line
  cases kind <;> rfl

@[simp] theorem single_line (language : String) (number : Nat) (line : Line) :
    (single language number line).line = number := by
  obtain ⟨kind, body⟩ := line
  cases kind <;> rfl

@[simp] theorem single_lines (language : String) (number : Nat) (line : Line) :
    (single language number line).lines = [line.body] := by
  obtain ⟨kind, body⟩ := line
  cases kind <;> rfl

theorem map_kind_numbered (language : String) (number : Nat) (lines : List Line) :
    (numbered language number lines).map kind = lines.map Line.kind := by
  induction lines generalizing number with
  | nil => rfl
  | cons line rest ih => simp [numbered, ih]

theorem flatMap_parts_numbered (language : String) (number : Nat) (lines : List Line) :
    (numbered language number lines).flatMap parts = lines := by
  induction lines generalizing number with
  | nil => rfl
  | cons line rest ih => simp [numbered, parts, ih]

/-- A line classified by its text alone. -/
def Line.ofText (pattern : Pattern) (text : String) : Line :=
  if Text.allBlank text then ⟨.blank, text⟩
  else match pattern.firstGroup? text with
    | some body => ⟨.doc, body⟩
    | none => ⟨.code, text⟩

theorem ofLine_eq_single (pattern : Pattern) (language text : String) (number : Nat) :
    ofLine pattern language text number = single language number (Line.ofText pattern text) := by
  unfold ofLine Line.ofText
  split
  · rfl
  · cases pattern.firstGroup? text <;> rfl

/-! ### Growing -/

/-- Whether a run takes in the lines of the one behind it. -/
def Kind.takes : Kind → Kind → Bool
  | .doc, .doc => true
  | .code, .code => true
  | .code, .blank => true
  | _, _ => false

/-- Whether code in a run, if there is any, is of a language. -/
def Speaks (language : String) : Run → Prop
  | code _ own _ => own = language
  | _ => True

/-- A run with more lines at its end. A blank run stays as it is. -/
def extend : Run → List String → Run
  | doc line lines, more => doc line (lines ++ more)
  | code line language lines, more => code line language (lines ++ more)
  | blank line text, _ => blank line text

@[simp] theorem extend_line (run : Run) (more : List String) :
    (run.extend more).line = run.line := by
  cases run <;> rfl

@[simp] theorem extend_kind (run : Run) (more : List String) :
    (run.extend more).kind = run.kind := by
  cases run <;> rfl

@[simp] theorem extend_nil (run : Run) : run.extend [] = run := by
  cases run <;> simp [extend]

theorem extend_lines (run : Run) (more : List String) (solid : run.kind ≠ .blank) :
    (run.extend more).lines = run.lines ++ more := by
  cases run with
  | doc line lines => rfl
  | code line language lines => rfl
  | blank line text => exact absurd rfl solid

theorem extend_speaks (language : String) (run : Run) (more : List String)
    (speaks : run.Speaks language) : (run.extend more).Speaks language := by
  cases run with
  | code line own lines => exact speaks
  | doc line lines => trivial
  | blank line text => trivial

theorem single_speaks (language : String) (number : Nat) (line : Line) :
    (single language number line).Speaks language := by
  obtain ⟨kind, body⟩ := line
  cases kind with
  | code => rfl
  | doc => trivial
  | blank => trivial

theorem Kind.ne_blank_of_takes (kind next : Kind) (takes : kind.takes next = true) :
    kind ≠ .blank := by
  cases kind <;> simp_all [Kind.takes]

/-- What becomes of two neighbours: the first grows by the lines of the second, or stays. -/
theorem absorb?_eq_some (run next grown : Run) (merged : run.absorb? next = some grown) :
    run.kind.takes next.kind = true ∧ grown = run.extend next.lines := by
  cases run <;> cases next <;> simp_all [absorb?, Kind.takes, kind, extend, lines]

theorem absorb?_single (language : String) (run : Run) (number : Nat) (line : Line)
    (speaks : run.Speaks language) :
    run.absorb? (single language number line) =
      if run.kind.takes line.kind then some (run.extend [line.body]) else none := by
  obtain ⟨kind, body⟩ := line
  cases run with
  | doc => cases kind <;> rfl
  | blank => cases kind <;> rfl
  | code number own lines =>
    -- Merging compares the languages, which are the same here.
    cases speaks
    cases kind <;> simp [absorb?, single, Run.kind, Kind.takes, extend]

theorem mergeFrom_numbered_cons (language : String) (run : Run) (number : Nat) (line : Line)
    (rest : List Line) (speaks : run.Speaks language) :
    mergeFrom run (numbered language number (line :: rest)) =
      if run.kind.takes line.kind then
        mergeFrom (run.extend [line.body]) (numbered language (number + 1) rest)
      else
        run :: mergeFrom (single language number line) (numbered language (number + 1) rest) := by
  rw [numbered, mergeFrom, absorb?_single language run number line speaks]
  cases run.kind.takes line.kind <;> rfl

theorem mergeFrom_eq_cons (last : Run) (rest : List Run) :
    ∃ more behind, mergeFrom last rest = last.extend more :: behind := by
  induction rest generalizing last with
  | nil => exact ⟨[], [], by simp [mergeFrom]⟩
  | cons next rest ih =>
    simp only [mergeFrom]
    split
    next grown merged =>
      obtain ⟨takes, rfl⟩ := absorb?_eq_some last next grown merged
      -- What is taken in now stands before what is taken in later.
      obtain ⟨more, behind, equal⟩ := ih (last.extend next.lines)
      refine ⟨next.lines ++ more, behind, ?_⟩
      rw [equal]
      cases last <;> simp [extend]
    next => exact ⟨[], mergeFrom next rest, by rw [extend_nil]⟩

theorem mergeFrom_ne_nil (last : Run) (rest : List Run) : mergeFrom last rest ≠ [] := by
  obtain ⟨more, behind, equal⟩ := mergeFrom_eq_cons last rest
  rw [equal]
  exact List.cons_ne_nil _ _

/-! ### What is open -/

/-- The kind of the run that is open behind a line; before the first line none is. -/
def Kind.opened : Option Kind → Kind → Kind
  | some .code, .blank => .code
  | _, kind => kind

theorem Kind.opened_some (kind next : Kind) :
    opened (some kind) next = if kind.takes next then kind else next := by
  cases kind <;> cases next <;> rfl

/-- The kind of the run that is open behind lines of some kinds. -/
def Kind.openAfter (before : Option Kind) (kinds : List Kind) : Option Kind :=
  kinds.foldl (fun before next => some (opened before next)) before

@[simp] theorem Kind.openAfter_nil (before : Option Kind) : openAfter before [] = before := rfl

@[simp] theorem Kind.openAfter_cons (before : Option Kind) (next : Kind) (rest : List Kind) :
    openAfter before (next :: rest) = openAfter (some (opened before next)) rest := rfl

@[simp] theorem Kind.openAfter_concat (before : Option Kind) (kinds : List Kind) (next : Kind) :
    openAfter before (kinds ++ [next]) = some (opened (openAfter before kinds) next) := by
  simp [openAfter]

end Run

namespace Converter

/-- The lines of a text, each with the kind it is classified as. -/
def classified (c : Converter) (text : String) : List Run.Line :=
  (c.lineRuns text).flatMap Run.parts

private theorem mapIdx_ofLine (pattern : Pattern) (language : String) (number : Nat)
    (texts : List String) :
    texts.mapIdx (fun index text => Run.ofLine pattern language text (index + number)) =
      Run.numbered language number (texts.map (Run.Line.ofText pattern)) := by
  induction texts generalizing number with
  | nil => rfl
  | cons text rest ih =>
    rw [List.mapIdx_cons, List.map_cons, Run.numbered, ← ih (number + 1), Run.ofLine_eq_single]
    simp [Nat.add_assoc, Nat.add_comm 1]

theorem lineRuns_eq_mapIdx (c : Converter) (text : String) :
    c.lineRuns text =
      (Text.lines text).mapIdx fun index line =>
        Run.ofLine c.pattern c.language line (index + 1) := by
  rw [lineRuns, Text.cutLines_eq_lines]

theorem classified_eq_map (c : Converter) (text : String) :
    c.classified text = (Text.lines text).map (Run.Line.ofText c.pattern) := by
  rw [classified, lineRuns_eq_mapIdx, mapIdx_ofLine, Run.flatMap_parts_numbered]

/-- The lines of a text as runs are its classified lines, numbered from one. -/
theorem lineRuns_eq_numbered (c : Converter) (text : String) :
    c.lineRuns text = Run.numbered c.language 1 (c.classified text) := by
  rw [classified_eq_map, lineRuns_eq_mapIdx, mapIdx_ofLine]

end Converter

end Weave
