import Weave.Proofs.Run.Kind
import Weave.Proofs.Text.Scan

/-!
# Merging piece by piece

Merging what is merged already changes nothing but the seam: runs can be merged in pieces, and the
merged pieces once more. So a text that is cut behind a line end can be converted in two pieces, if
the runs of the second are numbered on from the first.
-/

namespace Weave

namespace Run

/-! ### Taking in -/

/-- Whether a run takes in the one behind it, which depends on their kinds and languages only. -/
def takes : Run → Run → Bool
  | doc _ _, doc _ _ => true
  | code _ language _, code _ other _ => language == other
  | code _ _ _, blank _ _ => true
  | _, _ => false

theorem absorb?_eq (first second : Run) :
    first.absorb? second =
      if first.takes second then some (first.extend second.lines) else none := by
  cases first <;> cases second <;> simp [absorb?, takes, extend, lines]

@[simp] theorem takes_extend (first second : Run) (more : List String) :
    first.takes (second.extend more) = first.takes second := by
  cases first <;> cases second <;> rfl

@[simp] theorem extend_takes (first second : Run) (more : List String) :
    (first.extend more).takes second = first.takes second := by
  cases first <;> cases second <;> rfl

theorem takes_trans (first second third : Run) (start : first.takes second = true)
    (behind : second.takes third = true) : first.takes third = true := by
  cases first <;> cases second <;> cases third <;> simp_all [takes]

theorem extend_extend (run : Run) (lines more : List String) :
    (run.extend lines).extend more = run.extend (lines ++ more) := by
  cases run <;> simp [extend]

theorem kind_ne_blank_of_takes (first second : Run) (taken : first.takes second = true) :
    first.kind ≠ .blank := by
  cases first <;> simp_all [takes, kind]

/-! ### Merging twice -/

theorem mergeFrom_cons (last next : Run) (rest : List Run) :
    mergeFrom last (next :: rest) =
      if last.takes next then mergeFrom (last.extend next.lines) rest
      else last :: mergeFrom next rest := by
  rw [mergeFrom, absorb?_eq]
  cases last.takes next <;> rfl

theorem mergeFrom_mergeFrom (last next : Run) (rest : List Run) :
    mergeFrom last (mergeFrom next rest) = mergeFrom last (next :: rest) := by
  induction rest generalizing last next with
  | nil => rfl
  | cons run rest ih =>
    by_cases behind : next.takes run = true
    · rw [mergeFrom_cons next, if_pos behind, ih, mergeFrom_cons last next,
        mergeFrom_cons last (next.extend run.lines), takes_extend,
        extend_lines next run.lines (kind_ne_blank_of_takes next run behind)]
      by_cases start : last.takes next = true
      · -- What the first takes in, it takes in together or one after the other.
        rw [if_pos start, if_pos start, mergeFrom_cons, extend_takes,
          if_pos (takes_trans last next run start behind), extend_extend]
      · rw [if_neg start, if_neg start, mergeFrom_cons next, if_pos behind]
    · rw [mergeFrom_cons next, if_neg behind, mergeFrom_cons last, mergeFrom_cons last next]
      by_cases start : last.takes next = true
      · rw [if_pos start, if_pos start, ih]
      · rw [if_neg start, if_neg start, ih]

theorem merge_mergeFrom_append (last : Run) (rest more : List Run) :
    merge (mergeFrom last rest ++ more) = mergeFrom last (rest ++ more) := by
  induction rest generalizing last with
  | nil => rfl
  | cons next rest ih =>
    rw [List.cons_append, mergeFrom_cons, mergeFrom_cons]
    by_cases taken : last.takes next = true
    · rw [if_pos taken, if_pos taken, ih]
    · rw [if_neg taken, if_neg taken, ← ih next]
      -- What has been merged behind the first begins with a run that the first does not take in.
      obtain ⟨lines, behind, equal⟩ := mergeFrom_eq_cons next rest
      rw [equal, List.cons_append, List.cons_append, merge, merge, mergeFrom_cons, takes_extend,
        if_neg taken]

theorem merge_merge_append (runs more : List Run) :
    merge (merge runs ++ more) = merge (runs ++ more) := by
  cases runs with
  | nil => rfl
  | cons first rest => exact merge_mergeFrom_append first rest more

theorem mergeFrom_append_merge (last : Run) (rest more : List Run) :
    mergeFrom last (rest ++ merge more) = mergeFrom last (rest ++ more) := by
  cases more with
  | nil => rfl
  | cons next more =>
    induction rest generalizing last with
    | nil => exact mergeFrom_mergeFrom last next more
    | cons run rest ih =>
      rw [List.cons_append, List.cons_append, mergeFrom_cons, mergeFrom_cons, ih, ih]

theorem merge_merge (runs : List Run) : merge (merge runs) = merge runs := by
  simpa using merge_merge_append runs []

/-- Runs may be merged in pieces, if the merged pieces are merged once more. -/
theorem merge_append (runs more : List Run) :
    merge (runs ++ more) = merge (merge runs ++ merge more) := by
  rw [merge_merge_append]
  cases runs with
  | nil => exact (merge_merge more).symm
  | cons first rest => exact (mergeFrom_append_merge first rest more).symm

/-! ### Numbering on -/

/-- A run with a number added to that of its first line. -/
def shift (count : Nat) : Run → Run
  | doc line lines => doc (count + line) lines
  | code line language lines => code (count + line) language lines
  | blank line text => blank (count + line) text

theorem shift_takes (count : Nat) (first second : Run) :
    (first.shift count).takes (second.shift count) = first.takes second := by
  cases first <;> cases second <;> rfl

theorem extend_shift (count : Nat) (first second : Run) :
    (first.shift count).extend (second.shift count).lines =
      (first.extend second.lines).shift count := by
  cases first <;> cases second <;> rfl

private theorem mergeFrom_map_shift (count : Nat) (last : Run) (rest : List Run) :
    mergeFrom (last.shift count) (rest.map (shift count)) =
      (mergeFrom last rest).map (shift count) := by
  induction rest generalizing last with
  | nil => rfl
  | cons next rest ih =>
    rw [List.map_cons, mergeFrom_cons, mergeFrom_cons, shift_takes, extend_shift]
    by_cases taken : last.takes next = true
    · rw [if_pos taken, if_pos taken, ih]
    · rw [if_neg taken, if_neg taken, List.map_cons, ih]

/-- Merging does not look at the numbers of lines. -/
theorem merge_map_shift (count : Nat) (runs : List Run) :
    merge (runs.map (shift count)) = (merge runs).map (shift count) := by
  cases runs with
  | nil => rfl
  | cons first rest => exact mergeFrom_map_shift count first rest

theorem single_shift (language : String) (count number : Nat) (line : Line) :
    (single language number line).shift count = single language (count + number) line := by
  obtain ⟨kind, body⟩ := line
  cases kind <;> rfl

theorem numbered_shift (language : String) (count number : Nat) (lines : List Line) :
    (numbered language number lines).map (shift count) =
      numbered language (count + number) lines := by
  induction lines generalizing number with
  | nil => rfl
  | cons line rest ih => rw [numbered, List.map_cons, single_shift, ih, numbered, Nat.add_assoc]

theorem numbered_append (language : String) (number : Nat) (lines more : List Line) :
    numbered language number (lines ++ more) =
      numbered language number lines ++ numbered language (number + lines.length) more := by
  induction lines generalizing number with
  | nil => rfl
  | cons line rest ih =>
    have place : number + 1 + rest.length = number + (line :: rest).length := by
      rw [List.length_cons]
      omega
    rw [List.cons_append, numbered, numbered, ih, place, List.cons_append]

end Run

namespace Converter

theorem lineRuns_append (c : Converter) (text next : String) (ended : Text.EndsLine text)
    (whole : ¬Text.SharesPair text next) :
    c.lineRuns (text ++ next) =
      c.lineRuns text ++ (c.lineRuns next).map (Run.shift (Text.cutLines text).length) := by
  have count : (c.classified text).length = (Text.cutLines text).length := by
    rw [classified_eq_map, List.length_map, Text.cutLines_eq_lines]
  have pieces : c.classified (text ++ next) = c.classified text ++ c.classified next := by
    simp only [classified_eq_map, Text.lines_append text next ended whole, List.map_append]
  simp only [lineRuns_eq_numbered]
  rw [pieces, Run.numbered_append, Run.numbered_shift, count, Nat.add_comm 1]

/-- A text cut behind a line end is converted in pieces: its runs are those of the two pieces, the
second numbered on from the first, merged at the seam. -/
theorem runs_append (c : Converter) (text next : String) (ended : Text.EndsLine text)
    (whole : ¬Text.SharesPair text next) :
    c.runs (text ++ next) =
      Run.merge (c.runs text ++ (c.runs next).map (Run.shift (Text.cutLines text).length)) := by
  unfold runs
  rw [c.lineRuns_append text next ended whole, Run.merge_append, Run.merge_map_shift]

/-- The code that ends the first piece takes in the blank line and the code with which the second
starts. -/
theorem runs_append_code_at_seam :
    let c : Converter := ⟨.ofExpr "(//)" (.group 1 (.literal ['/', '/'])), "js"⟩
    Text.EndsLine "//\rf(\r" ∧ ¬Text.SharesPair "//\rf(\r" "\r\n)\n//" ∧
      c.runs ("//\rf(\r" ++ "\r\n)\n//") =
        Run.merge (c.runs "//\rf(\r" ++
          (c.runs "\r\n)\n//").map (Run.shift (Text.cutLines "//\rf(\r").length)) ∧
      c.runs ("//\rf(\r" ++ "\r\n)\n//") =
        [.doc 1 ["//"], .code 2 "js" ["f(", "", ")"], .doc 5 ["//"]] := by
  intro c
  have ended : Text.EndsLine "//\rf(\r" := by simp [Text.EndsLine]
  have whole : ¬Text.SharesPair "//\rf(\r" "\r\n)\n//" := by simp [Text.SharesPair]
  exact ⟨ended, whole, c.runs_append _ _ ended whole, by decide +kernel⟩

end Converter

end Weave
