import Weave.Proofs.Run.Kind

/-!
# Which lines make up a run

The runs of a text hold its lines in order, each run starts where the one before it ends, and
whether a line goes on the run before it depends on the kinds of all lines up to it.
-/

namespace Weave

namespace Run

/-- Whether the line with a number is one of the lines of a run. -/
def Holds (run : Run) (number : Nat) : Prop :=
  run.line ≤ number ∧ number < run.line + run.lines.length

/-- Runs that follow each other without gaps from a number on. -/
def Tiles : Nat → List Run → Prop
  | _, [] => True
  | number, run :: rest => run.line = number ∧ Tiles (number + run.lines.length) rest

/-! ### Contents and places -/

private theorem mergeFrom_lines (last : Run) (rest : List Run) :
    (mergeFrom last rest).flatMap lines = last.lines ++ rest.flatMap lines := by
  induction rest generalizing last with
  | nil => simp [mergeFrom]
  | cons next rest ih =>
    simp only [mergeFrom]
    split
    next grown merged =>
      obtain ⟨takes, rfl⟩ := absorb?_eq_some last next grown merged
      have solid := Kind.ne_blank_of_takes _ _ takes
      rw [ih, extend_lines last next.lines solid, List.flatMap_cons, List.append_assoc]
    next => rw [List.flatMap_cons, ih, List.flatMap_cons]

/-- Merging neither loses nor reorders lines. -/
theorem merge_lines (runs : List Run) : (merge runs).flatMap lines = runs.flatMap lines := by
  cases runs with
  | nil => rfl
  | cons first rest => rw [merge, mergeFrom_lines, List.flatMap_cons]

private theorem mergeFrom_tiles (number : Nat) (last : Run) (rest : List Run)
    (tiles : Tiles number (last :: rest)) : Tiles number (mergeFrom last rest) := by
  induction rest generalizing number last with
  | nil => exact tiles
  | cons next rest ih =>
    obtain ⟨start, follows, behind⟩ := tiles
    simp only [mergeFrom]
    split
    next grown merged =>
      obtain ⟨takes, rfl⟩ := absorb?_eq_some last next grown merged
      -- The run has grown up to the end of the one that it took in.
      have solid := Kind.ne_blank_of_takes _ _ takes
      apply ih
      refine ⟨by rw [extend_line, start], ?_⟩
      rw [extend_lines last next.lines solid, List.length_append, ← Nat.add_assoc]
      exact behind
    next => exact ⟨start, ih _ _ ⟨follows, behind⟩⟩

/-- Merged runs stand where the runs that they are made of stand. -/
theorem merge_tiles (number : Nat) (runs : List Run) (tiles : Tiles number runs) :
    Tiles number (merge runs) := by
  cases runs with
  | nil => exact tiles
  | cons first rest => exact mergeFrom_tiles number first rest tiles

theorem tiles_numbered (language : String) (number : Nat) (lines : List Line) :
    Tiles number (numbered language number lines) := by
  induction lines generalizing number with
  | nil => trivial
  | cons line rest ih =>
    refine ⟨single_line language number line, ?_⟩
    simpa using ih (number + 1)

theorem le_line_of_tiles (number : Nat) (runs : List Run) (tiles : Tiles number runs) (run : Run)
    (member : run ∈ runs) : number ≤ run.line := by
  induction runs generalizing number with
  | nil => simp at member
  | cons first rest ih =>
    obtain ⟨start, behind⟩ := tiles
    rcases List.mem_cons.mp member with rfl | later
    · exact Nat.le_of_eq start.symm
    · have bound := ih _ behind later
      omega

theorem end_le_of_tiles (number : Nat) (runs : List Run) (tiles : Tiles number runs) (run : Run)
    (member : run ∈ runs) :
    run.line + run.lines.length ≤ number + (runs.flatMap lines).length := by
  induction runs generalizing number with
  | nil => simp at member
  | cons first rest ih =>
    obtain ⟨start, behind⟩ := tiles
    rw [List.flatMap_cons, List.length_append]
    rcases List.mem_cons.mp member with rfl | later
    · omega
    · have bound := ih _ behind later
      omega

/-- Whether the line behind some lines goes on the run that they leave open. -/
def Kind.Joins (before : Option Kind) (next : Kind) : Prop :=
  ∃ kind, before = some kind ∧ kind.takes next = true

theorem Holds.extend {run : Run} {number : Nat} (held : run.Holds number) (more : List String) :
    (run.extend more).Holds number := by
  obtain ⟨low, high⟩ := held
  cases run with
  | blank line text => exact ⟨low, high⟩
  | doc line lines =>
    refine ⟨low, Nat.lt_of_lt_of_le high ?_⟩
    simp [Run.extend, Run.line, Run.lines]
  | code line language lines =>
    refine ⟨low, Nat.lt_of_lt_of_le high ?_⟩
    simp [Run.extend, Run.line, Run.lines]

private theorem exists_holds_mergeFrom (last : Run) (rest : List Run) :
    ∃ run ∈ mergeFrom last rest, ∀ number, last.Holds number → run.Holds number := by
  obtain ⟨more, behind, equal⟩ := mergeFrom_eq_cons last rest
  rw [equal]
  exact ⟨last.extend more, List.mem_cons_self, fun _ held => held.extend more⟩

/-- No run reaches over the place where a run ends and the others start. -/
private theorem not_holds_both (last : Run) (others : List Run) (number : Nat)
    (place : last.line + last.lines.length = number + 1) (tiles : Tiles (number + 1) others) :
    ¬ ∃ run ∈ last :: others, run.Holds number ∧ run.Holds (number + 1) := by
  rintro ⟨run, member, ⟨low, _⟩, ⟨_, high⟩⟩
  rcases List.mem_cons.mp member with rfl | later
  · omega
  · have start := le_line_of_tiles _ _ tiles run later
    omega

private theorem holds_both_cons_iff (last : Run) (others : List Run) (number : Nat)
    (behind : last.line + last.lines.length ≤ number) :
    (∃ run ∈ last :: others, run.Holds number ∧ run.Holds (number + 1)) ↔
      ∃ run ∈ others, run.Holds number ∧ run.Holds (number + 1) := by
  have ended : ¬ last.Holds number := fun held => absurd held.2 (by omega)
  simp only [List.mem_cons, or_and_right, exists_or, exists_eq_left, ended, false_and, false_or]

private theorem holds_both_iff (language : String) (last : Run) (number : Nat) (rest : List Line)
    (speaks : last.Speaks language) (filled : last.lines ≠ [])
    (place : last.line + last.lines.length = number + 1) (i : Nat) (line : Line)
    (here : rest[i]? = some line) :
    (∃ run ∈ mergeFrom last (numbered language (number + 1) rest),
      run.Holds (number + i) ∧ run.Holds (number + i + 1)) ↔
    Kind.Joins (Kind.openAfter (some last.kind) ((rest.take i).map Line.kind)) line.kind := by
  induction rest generalizing last number i with
  | nil => simp at here
  | cons next rest ih =>
    rw [mergeFrom_numbered_cons language last (number + 1) next rest speaks]
    have size : 0 < last.lines.length := List.length_pos_iff.mpr filled
    by_cases takes : last.kind.takes next.kind = true
    · have grown := extend_lines last [next.body] (Kind.ne_blank_of_takes _ _ takes)
      rw [if_pos takes]
      cases i with
      | zero =>
        -- The last line of the run and the line that it takes in stay together.
        obtain rfl : next = line := by simpa using here
        refine iff_of_true ?_ ⟨last.kind, rfl, takes⟩
        obtain ⟨run, member, keeps⟩ := exists_holds_mergeFrom (last.extend [next.body])
          (numbered language (number + 1 + 1) rest)
        refine ⟨run, member, keeps _ ?_, keeps _ ?_⟩ <;>
          simp only [Holds, extend_line, grown, List.length_append, List.length_singleton] <;>
          omega
      | succ i =>
        have moved := ih (last.extend [next.body]) (number + 1)
          (extend_speaks language last [next.body] speaks) (by simp [grown])
          (by simp [grown, ← place, Nat.add_assoc]) i here
        rw [extend_kind] at moved
        rw [show number + (i + 1) = number + 1 + i by omega, moved]
        simp [Kind.opened_some, takes]
    · rw [if_neg takes]
      cases i with
      | zero =>
        -- One run ends before this line and the next one starts with it.
        obtain rfl : next = line := by simpa using here
        refine iff_of_false (not_holds_both last _ number place ?_) ?_
        · exact mergeFrom_tiles _ _ _ (tiles_numbered language (number + 1) (next :: rest))
        · rintro ⟨kind, same, joined⟩
          cases same
          exact takes joined
      | succ i =>
        have moved := ih (single language (number + 1) next) (number + 1)
          (single_speaks language (number + 1) next) (by simp) (by simp) i here
        rw [single_kind] at moved
        rw [show number + (i + 1) = number + 1 + i by omega,
          holds_both_cons_iff last _ _ (by omega), moved]
        simp [Kind.opened_some, takes]

private theorem merge_holds_both_iff (language : String) (lines : List Line) (i : Nat) (line : Line)
    (here : lines[i + 1]? = some line) :
    (∃ run ∈ merge (numbered language 1 lines), run.Holds (i + 1) ∧ run.Holds (i + 2)) ↔
    Kind.Joins (Kind.openAfter none ((lines.take (i + 1)).map Line.kind)) line.kind := by
  cases lines with
  | nil => simp at here
  | cons first rest =>
    have both := holds_both_iff language (single language 1 first) 1 rest
      (single_speaks language 1 first) (by simp) (by simp) i line (by simpa using here)
    rw [single_kind, Nat.add_comm 1 i] at both
    exact both

/-- Whether some line before a place is code and none between the two is documentation. -/
def Kind.CodeSinceDoc (kinds : List Kind) (place : Nat) : Prop :=
  ∃ j < place, kinds[j]? = some .code ∧ ∀ k, j < k → k < place → kinds[k]? ≠ some .doc

theorem Kind.openAfter_take_succ (before : Option Kind) (kinds : List Kind) (i : Nat) (kind : Kind)
    (here : kinds[i]? = some kind) :
    openAfter before (kinds.take (i + 1)) =
      some (opened (openAfter before (kinds.take i)) kind) := by
  rw [List.take_add_one, here, Option.toList_some, openAfter_concat]

theorem Kind.opened_eq_code_iff (before : Option Kind) (next : Kind) :
    opened before next = .code ↔ next = .code ∨ next = .blank ∧ before = some .code := by
  rcases before with _ | (_ | _ | _) <;> cases next <;> simp [opened]

theorem Kind.opened_eq_doc_iff (before : Option Kind) (next : Kind) :
    opened before next = .doc ↔ next = .doc := by
  rcases before with _ | (_ | _ | _) <;> cases next <;> simp [opened]

theorem Kind.openAfter_eq_code_iff (kinds : List Kind) (i : Nat) (bound : i ≤ kinds.length) :
    openAfter none (kinds.take i) = some .code ↔ CodeSinceDoc kinds i := by
  induction i with
  | zero => simp [CodeSinceDoc]
  | succ i ih =>
    obtain ⟨kind, here⟩ : ∃ kind, kinds[i]? = some kind :=
      ⟨kinds[i], List.getElem?_eq_getElem bound⟩
    rw [openAfter_take_succ none kinds i kind here, Option.some.injEq, opened_eq_code_iff,
      ih (by omega)]
    -- Code opens a run itself; a blank line only leaves open what code before it has opened.
    constructor
    · rintro (rfl | ⟨rfl, j, before, code, apart⟩)
      · exact ⟨i, by omega, here, fun k low high => absurd low (by omega)⟩
      · refine ⟨j, by omega, code, fun k low high => ?_⟩
        rcases Nat.lt_succ_iff_lt_or_eq.mp high with earlier | rfl
        · exact apart k low earlier
        · simp [here]
    · rintro ⟨j, before, code, apart⟩
      rcases Nat.lt_succ_iff_lt_or_eq.mp before with earlier | rfl
      · have other : kind ≠ .doc := fun same => apart i earlier (by omega) (by rw [here, same])
        cases kind with
        | doc => exact absurd rfl other
        | code => exact Or.inl rfl
        | blank => exact Or.inr ⟨rfl, j, earlier, code, fun k low high => apart k low (by omega)⟩
      · exact Or.inl (Option.some.inj (here.symm.trans code))

theorem Kind.joins_iff (before : Option Kind) (next : Kind) :
    Joins before next ↔ before = some .doc ∧ next = .doc ∨
      (next = .code ∨ next = .blank) ∧ before = some .code := by
  rcases before with _ | (_ | _ | _) <;> cases next <;> simp [Joins, takes]

end Run

namespace Converter

/-- The kinds of the lines of a text. -/
def kinds (c : Converter) (text : String) : List Run.Kind :=
  (c.lineRuns text).map Run.kind

theorem kinds_eq_map (c : Converter) (text : String) :
    c.kinds text = (c.classified text).map Run.Line.kind := by
  rw [kinds, lineRuns_eq_numbered, Run.map_kind_numbered]

theorem runs_tile (c : Converter) (text : String) : Run.Tiles 1 (c.runs text) := by
  rw [runs, lineRuns_eq_numbered]
  exact Run.merge_tiles 1 _ (Run.tiles_numbered c.language 1 _)

theorem runs_lines (c : Converter) (text : String) :
    (c.runs text).flatMap Run.lines = (c.lineRuns text).flatMap Run.lines :=
  Run.merge_lines (c.lineRuns text)

private theorem lt_length_of_holds (c : Converter) (text : String) (run : Run)
    (member : run ∈ c.runs text) (i : Nat) (held : run.Holds (i + 1)) :
    i < (c.kinds text).length := by
  have bound := Run.end_le_of_tiles 1 _ (c.runs_tile text) run member
  -- Each line of the text is one run before merging, so runs and kinds are as many.
  have count : ((c.lineRuns text).flatMap Run.lines).length = (c.kinds text).length := by
    rw [kinds, lineRuns_eq_numbered]
    generalize c.classified text = lines
    generalize 1 = number
    induction lines generalizing number with
    | nil => rfl
    | cons line rest ih => simp [Run.numbered, ih]
  rw [runs_lines, count] at bound
  obtain ⟨_, high⟩ := held
  omega

private theorem holds_both_iff (c : Converter) (text : String) (i : Nat) :
    (∃ run ∈ c.runs text, run.Holds (i + 1) ∧ run.Holds (i + 2)) ↔
      (c.kinds text)[i]? = some .doc ∧ (c.kinds text)[i + 1]? = some .doc ∨
      ((c.kinds text)[i + 1]? = some .code ∨ (c.kinds text)[i + 1]? = some .blank) ∧
        Run.Kind.CodeSinceDoc (c.kinds text) (i + 1) := by
  by_cases bound : i + 1 < (c.kinds text).length
  · obtain ⟨kind, first⟩ : ∃ kind, (c.kinds text)[i]? = some kind :=
      ⟨_, List.getElem?_eq_getElem (by omega)⟩
    obtain ⟨next, second⟩ : ∃ next, (c.kinds text)[i + 1]? = some next :=
      ⟨_, List.getElem?_eq_getElem bound⟩
    obtain ⟨line, here, rfl⟩ :
        ∃ line, (c.classified text)[i + 1]? = some line ∧ line.kind = next := by
      simpa [kinds_eq_map] using second
    have both := Run.merge_holds_both_iff c.language (c.classified text) i line here
    rw [← lineRuns_eq_numbered, List.map_take, ← kinds_eq_map] at both
    rw [runs, both, Run.Kind.joins_iff, Run.Kind.openAfter_eq_code_iff _ _ (by omega),
      Run.Kind.openAfter_take_succ none _ i kind first, first, second]
    simp only [Option.some.injEq, Run.Kind.opened_eq_doc_iff]
  · have missing : (c.kinds text)[i + 1]? = none := List.getElem?_eq_none (by omega)
    simp only [missing, reduceCtorEq, and_false, or_self, false_and, iff_false]
    rintro ⟨run, member, _, held⟩
    exact bound (lt_length_of_holds c text run member (i + 1) held)

end Converter

end Weave
