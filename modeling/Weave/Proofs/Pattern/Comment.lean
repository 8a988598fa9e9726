import Weave.Pattern
import Weave.Proofs.Pattern.Search

/-!
# The pattern of line comments

The pattern `^\s*`, a marker, `\s?(.*)$`, whose group is the body of the comment. A search with it
is at each place in one of four states: in the indentation, in the marker, behind the marker, or in
the body.
-/

namespace Weave.Pattern

/-! ### The pattern and its program -/

/-- The characters that a dot stands for: all but the line feed. -/
def lineChar : CharSet :=
  (CharSet.single '\n').compl

theorem contains_lineChar (c : Char) : lineChar.contains c = (c != '\n') := by
  have ranges : lineChar.ranges = [(0, 9), (11, 0x10FFFF)] := by decide
  have top : c.toNat ≤ 0x10FFFF := by
    have valid : c.toNat.isValidChar := c.valid
    unfold Nat.isValidChar at valid
    omega
  have feed : c = '\n' ↔ c.toNat = 10 := Char.toNat_inj.symm
  rw [Bool.eq_iff_iff]
  simp only [CharSet.contains, ranges, List.any_cons, List.any_nil, Bool.or_false, Bool.or_eq_true,
    Bool.and_eq_true, decide_eq_true_eq, bne_iff_ne, ne_eq, feed]
  omega

/-- The pattern of comments with a marker. -/
def lineComment (marker : List Char) : Expr :=
  .seq (.anchor .textStart) <| .seq (.rounds 0 none true (.char .blank)) <|
    .seq (.literal marker) <| .seq (.rounds 0 (some 1) true (.char .blank)) <|
      .seq (.group 1 (.rounds 0 none true (.char lineChar))) (.anchor .textEnd)

/-- The instructions behind the marker, which stand from a place in the program on. -/
def bodyInstrs (start : Nat) : List Instr :=
  [.fork (start + 1) (start + 2), .char .blank, .mark 0, .fork (start + 4) (start + 6),
    .char lineChar, .jump (start + 3), .mark 1, .anchor .textEnd, .accept]

/-- The instructions before the marker. -/
def indentInstrs : List Instr :=
  [.anchor .textStart, .fork 2 4, .char .blank, .jump 1]

def commentInstrs (marker : List Char) : List Instr :=
  indentInstrs ++
    ((marker.map fun c => .char (.single c)) ++ bodyInstrs (4 + marker.length))

theorem literal_eq_append (text : List Char) (p : Program) :
    p.literal text = p ++ (text.map fun c => Instr.char (.single c)).toArray := by
  unfold Program.literal
  induction text generalizing p with
  | nil => simp
  | cons c text ih =>
    rw [List.foldl_cons, ih]
    simp

theorem program_lineComment (marker : List Char) :
    (lineComment marker).program = (commentInstrs marker).toArray := by
  have consuming (set : CharSet) (filled : set ≠ .empty) : (Expr.char set).isConsuming = true := by
    simp [Expr.isConsuming, Expr.minLength?, filled]
  have blank := consuming .blank (by decide)
  have line := consuming lineChar (by decide)
  have start : marker.length + 1 + 1 + 1 + 1 = 4 + marker.length := by omega
  simp [Expr.program, lineComment, Expr.emit, Expr.width, Program.copies, Program.optionals,
    Instr.choice, literal_eq_append, blank, line, commentInstrs, indentInstrs, bodyInstrs,
    groupSlot, start]

/-! ### Bodies -/

/-- The rest of a line without its first character, where that is blank. -/
def dropOneBlank : List Char → List Char
  | [] => []
  | c :: rest => if Text.isBlank c then rest else c :: rest

/-- The body of a comment: what stands behind the indentation, the marker and at most one blank. A
body does not go on behind a line feed. -/
def commentBody? (marker text : List Char) : Option (List Char) := do
  let rest ← marker.isPrefixOf? (Text.dropBlank text)
  if '\n' ∈ dropOneBlank rest then none else some (dropOneBlank rest)

/-- The slots of a match up to the end of a text of some length, whose group is what is left. -/
def bodySlots? (length : Nat) (body : List Char) : Option Slots :=
  if '\n' ∈ body then none else some [some (length - body.length), some length]

/-! ### Instructions -/

private theorem at_indent {marker : List Char} {pc : Nat} (inside : pc < 4) :
    (lineComment marker).program[pc]? = indentInstrs[pc]? := by
  rw [program_lineComment, List.getElem?_toArray, commentInstrs, List.getElem?_append_left inside]

private theorem at_marker {marker front behind : List Char} {c : Char}
    (split : marker = front ++ c :: behind) :
    (lineComment marker).program[4 + front.length]? = some (.char (.single c)) := by
  have skip : 4 + front.length - indentInstrs.length = front.length := Nat.add_sub_cancel_left ..
  rw [program_lineComment, List.getElem?_toArray, commentInstrs,
    List.getElem?_append_right (Nat.le_add_right 4 _), skip]
  simp [split]

private theorem at_body {marker : List Char} (offset : Nat) :
    (lineComment marker).program[4 + marker.length + offset]? =
      (bodyInstrs (4 + marker.length))[offset]? := by
  have skip : 4 + marker.length + offset - indentInstrs.length = marker.length + offset := by
    rw [Nat.add_assoc]
    exact Nat.add_sub_cancel_left ..
  rw [program_lineComment, List.getElem?_toArray, commentInstrs,
    List.getElem?_append_right (by rw [Nat.add_assoc]; exact Nat.le_add_right 4 _), skip]
  simp [List.getElem?_append_right]

/-! ### Settling -/

/-- A program that matches at the start of a text only, with the instructions of a body from a place
on. -/
structure HasBody (program : Program) (start : Nat) : Prop where
  pos : 0 < start
  anchored : program[0]? = some (.anchor .textStart)
  body : ∀ offset, program[start + offset]? = (bodyInstrs start)[offset]?

theorem hasBody_lineComment (marker : List Char) :
    HasBody (lineComment marker).program (4 + marker.length) where
  pos := by omega
  anchored := at_indent (by decide)
  body := at_body

theorem advance_cons (program : Program) (c : Char) (thread : Thread) (threads : List Thread) :
    advance program c (thread :: threads) =
      advance program c [thread] ++ advance program c threads := by
  rw [advance, advance, advance, ← List.filterMap_append, List.singleton_append]

namespace HasBody

variable {program : Program} {start index : Nat} {before : Char} {rest : List Char}
  {entered : List Nat} {more : List Thread} {fresh slots : Slots}

/-- Behind the first place no further match begins. -/
theorem settles_fresh (comment : HasBody program start) (after : Option Char)
    (new : 0 ∉ entered) : Settles program ⟨index, some before, after⟩ entered [⟨0, fresh⟩] [] := by
  have stays : (Instr.anchor .textStart).onward? ⟨index, some before, after⟩ ⟨0, fresh⟩ = some [] :=
    rfl
  exact .onward new comment.anchored stays (.done _)

/-- The threads that live in a body. At the end of the text one of them accepts. -/
def bodyThreads (start index : Nat) (slots : Slots) (rest : List Char) : List Thread :=
  ⟨start + 4, slots⟩ ::
    if rest.isEmpty then [⟨start + 8, slots.set 1 (some index)⟩] else []

/-- A thread at the fork between the characters of the body and its end settles into the threads of
the body, if those behind it are all dropped. -/
theorem settles_round (comment : HasBody program start) (before : Option Char)
    (new : ∀ pc ∈ entered, pc < start + 3 ∨ pc = start + 5)
    (dropped : Settles program ⟨index, before, rest.head?⟩
      ((start + 7) :: (start + 6) :: (start + 4) :: (start + 3) :: entered) more []) :
    Settles program ⟨index, before, rest.head?⟩ entered (⟨start + 3, slots⟩ :: more)
      (bodyThreads start index slots rest) := by
  have outside {pc : Nat} (behind : start + 3 ≤ pc) (other : pc ≠ start + 5) : pc ∉ entered :=
    fun member => by
      have place := new pc member
      omega
  -- The fork is followed into the body first, and then to the end of the text behind it.
  refine .onward (outside (by simp) (by simp)) (comment.body 3) rfl ?_
  refine .reads (by simp [outside]) (comment.body 4) ?_
  refine .onward (by simp [outside]) (comment.body 6) rfl ?_
  cases rest with
  | nil =>
    refine .onward (by simp [outside]) (comment.body 7) rfl ?_
    exact .accepts (by simp [outside]) (comment.body 8)
  | cons c rest =>
    exact .onward (by simp [outside]) (comment.body 7) rfl dropped

/-- A thread behind a character of the body jumps back to the fork. -/
theorem settles_body (comment : HasBody program start) :
    Settles program ⟨index, some before, rest.head?⟩ [] ([⟨start + 5, slots⟩] ++ [⟨0, fresh⟩])
      (bodyThreads start index slots rest) := by
  refine .onward List.not_mem_nil (comment.body 5) rfl ?_
  refine comment.settles_round _ (by simp) ?_
  exact comment.settles_fresh _ (by simp)

/-- Behind the optional blank, a thread that has left the blank out is dropped. -/
theorem settles_behind_blank (comment : HasBody program start) (c : Char) (other : Slots) :
    Settles program ⟨index, some before, rest.head?⟩ []
      ((⟨start + 2, slots⟩ :: if c = '\n' then [] else [⟨start + 5, other⟩]) ++ [⟨0, fresh⟩])
      (bodyThreads start index (slots.set 0 (some index)) rest) := by
  refine .onward List.not_mem_nil (comment.body 2) rfl ?_
  refine comment.settles_round _ (by simp) ?_
  by_cases feed : c = '\n'
  · rw [if_pos feed]
    exact comment.settles_fresh _ (by simp)
  · rw [if_neg feed]
    refine .onward (by simp) (comment.body 5) rfl ?_
    refine .dropped (by simp) ?_
    exact comment.settles_fresh _ (by simp)

/-- Behind the marker a blank is preferred to the body. -/
theorem settles_behind_marker (comment : HasBody program start) :
    Settles program ⟨index, some before, rest.head?⟩ [] ([⟨start, slots⟩] ++ [⟨0, fresh⟩])
      (⟨start + 1, slots⟩ :: bodyThreads start index (slots.set 0 (some index)) rest) := by
  refine .onward List.not_mem_nil (comment.body 0) rfl ?_
  refine .reads (by simp) (comment.body 1) ?_
  refine .onward (by simp) (comment.body 2) rfl ?_
  refine comment.settles_round _ (by simp) ?_
  have behind := comment.pos
  exact comment.settles_fresh _ (by simp; omega)

theorem accepted?_bodyThreads_cons (comment : HasBody program start) (c : Char) :
    accepted? program (bodyThreads start index slots (c :: rest)) = none := by
  simp [accepted?, bodyThreads, comment.body 4, bodyInstrs]

theorem accepted?_bodyThreads_nil (comment : HasBody program start) :
    accepted? program (bodyThreads start index slots []) =
      some ⟨start + 8, slots.set 1 (some index)⟩ := by
  simp [accepted?, bodyThreads, comment.body 4, comment.body 8, bodyInstrs]

theorem advance_bodyThreads (comment : HasBody program start) (c : Char) :
    advance program c (bodyThreads start index slots (c :: rest)) =
      if c = '\n' then [] else [⟨start + 5, slots⟩] := by
  by_cases feed : c = '\n' <;>
    simp [advance, bodyThreads, comment.body 4, bodyInstrs, contains_lineChar, feed]

theorem accepted?_behind_marker (comment : HasBody program start) (threads : List Thread) :
    accepted? program (⟨start + 1, slots⟩ :: threads) = accepted? program threads := by
  simp [accepted?, comment.body 1, bodyInstrs]

theorem advance_behind_marker (comment : HasBody program start) (c : Char) :
    advance program c [⟨start + 1, slots⟩] =
      if Text.isBlank c then [⟨start + 2, slots⟩] else [] := by
  by_cases blank : Text.isBlank c = true <;>
    simp [advance, comment.body 1, bodyInstrs, CharSet.contains_blank, blank]

/-! ### Running -/

/-- A search without threads behind the first place finds nothing. -/
theorem run_nothing (comment : HasBody program start) (rest : List Char) (index : Nat)
    (before : Char) : run program fresh [] none index (some before) rest = none := by
  have dropped (after : Option Char) (index : Nat) (before : Char) :
      Settles program ⟨index, some before, after⟩ [] ([] ++ [⟨0, fresh⟩]) [] :=
    comment.settles_fresh after List.not_mem_nil
  induction rest generalizing index before with
  | nil => exact run_nil (dropped none index before)
  | cons c rest ih =>
    rw [run_cons (dropped c index before) rfl]
    exact ih (index + 1) c

/-- A search in the body matches to the end of the text, unless a line feed comes before it. -/
theorem run_body (comment : HasBody program start) {waiting : List Thread} (first : Nat)
    (settles : Settles program ⟨index, some before, rest.head?⟩ [] (waiting ++ [⟨0, fresh⟩])
      (bodyThreads start index [some first, none] rest)) :
    run program fresh waiting none index (some before) rest =
      if '\n' ∈ rest then none else some [some first, some (index + rest.length)] := by
  induction rest generalizing index before waiting with
  | nil =>
    rw [run_nil settles, comment.accepted?_bodyThreads_nil]
    simp
  | cons c rest ih =>
    rw [run_cons settles (comment.accepted?_bodyThreads_cons c), comment.advance_bodyThreads]
    by_cases feed : c = '\n'
    · -- The body cannot read a line feed, and no other thread is left.
      rw [if_pos feed, comment.run_nothing]
      simp [feed]
    · rw [if_neg feed, ih comment.settles_body]
      have apart : '\n' ≠ c := fun h => feed h.symm
      have length : index + 1 + rest.length = index + (rest.length + 1) := by omega
      simp only [List.mem_cons, apart, false_or, List.length_cons, length]

/-- Behind the marker, a search drops one blank and takes what is left for the body. -/
theorem run_behind_marker (comment : HasBody program start) :
    run program [none, none] [⟨start, [none, none]⟩] none index (some before) rest =
      bodySlots? (index + rest.length) (dropOneBlank rest) := by
  have settles : Settles program ⟨index, some before, rest.head?⟩ []
      ([⟨start, [none, none]⟩] ++ [⟨0, [none, none]⟩])
      (⟨start + 1, [none, none]⟩ :: bodyThreads start index [some index, none] rest) :=
    comment.settles_behind_marker
  cases rest with
  | nil =>
    rw [run_nil settles, comment.accepted?_behind_marker, comment.accepted?_bodyThreads_nil]
    simp [bodySlots?, dropOneBlank]
  | cons c rest =>
    have under_way : accepted? program
        (⟨start + 1, [none, none]⟩ :: bodyThreads start index [some index, none] (c :: rest)) =
          none := by
      rw [comment.accepted?_behind_marker, comment.accepted?_bodyThreads_cons]
    have length : index + 1 + rest.length = index + (rest.length + 1) := by omega
    rw [run_cons settles under_way, advance_cons, comment.advance_behind_marker,
      comment.advance_bodyThreads]
    -- A blank is read by the thread in front, which is preferred; it alone drops the blank.
    by_cases blank : Text.isBlank c = true
    · have first : index + (rest.length + 1) - rest.length = index + 1 := by omega
      rw [if_pos blank, List.singleton_append,
        comment.run_body (index + 1) (comment.settles_behind_blank c _)]
      simp only [dropOneBlank, blank, if_true, bodySlots?, List.length_cons, first, length]
    · -- A line feed is blank, so this character is none.
      have feed : c ≠ '\n' := by
        rintro rfl
        exact blank (by decide)
      have apart : '\n' ≠ c := fun h => feed h.symm
      rw [if_neg blank, List.nil_append, if_neg feed, comment.run_body index comment.settles_body]
      simp [dropOneBlank, blank, bodySlots?, apart, length]

end HasBody

/-! ### Searching -/

variable {marker : List Char} {index : Nat} {rest : List Char}

/-- In the marker, a search goes on while the characters are those of the marker. -/
theorem run_marker {front behind : List Char} (split : marker = front ++ behind) (before : Char) :
    run (lineComment marker).program [none, none] [⟨4 + front.length, [none, none]⟩] none index
        (some before) rest =
      (behind.isPrefixOf? rest).bind fun left =>
        bodySlots? (index + rest.length) (dropOneBlank left) := by
  have comment := hasBody_lineComment marker
  induction behind generalizing front rest index before with
  | nil =>
    -- The next instruction is the first one of the body.
    obtain rfl : marker = front := by simpa using split
    exact comment.run_behind_marker
  | cons c behind ih =>
    have here := at_marker split
    have settles : Settles (lineComment marker).program ⟨index, some before, rest.head?⟩ []
        ([⟨4 + front.length, [none, none]⟩] ++ [⟨0, [none, none]⟩])
        [⟨4 + front.length, [none, none]⟩] :=
      .reads List.not_mem_nil here (comment.settles_fresh _ (by simp; omega))
    have under_way : accepted? (lineComment marker).program
        [⟨4 + front.length, [none, none]⟩] = none := by
      simp [accepted?, here]
    cases rest with
    | nil =>
      rw [run_nil settles, under_way]
      rfl
    | cons d rest =>
      rw [run_cons settles under_way]
      by_cases same : c = d
      · -- The marker goes on, and so does the search, with one character less of it ahead.
        subst same
        have moved : advance (lineComment marker).program c [⟨4 + front.length, [none, none]⟩] =
            [⟨4 + (front ++ [c]).length, [none, none]⟩] := by
          simp [advance, here, CharSet.contains_single, Nat.add_assoc]
        have length : index + 1 + rest.length = index + (rest.length + 1) := by omega
        rw [moved, ih (by simpa using split)]
        simp [List.isPrefixOf?, length]
      · have stuck : advance (lineComment marker).program d [⟨4 + front.length, [none, none]⟩] =
            [] := by
          simp [advance, here, CharSet.contains_single, same]
        rw [stuck, comment.run_nothing]
        simp [List.isPrefixOf?, same]

section

variable {c : Char} {behind : List Char}

private theorem at_first : (lineComment (c :: behind)).program[4]? = some (.char (.single c)) := by
  have front : c :: behind = [] ++ c :: behind := rfl
  have here := at_marker front
  rwa [List.length_nil, Nat.add_zero] at here

private theorem at_blank {marker : List Char} :
    (lineComment marker).program[2]? = some (.char .blank) :=
  at_indent (by decide)

/-- A thread at the fork of the indentation settles before a blank and before the marker. -/
theorem settles_indent {place : Place} {entered : List Nat} {more : List Thread} {slots : Slots}
    (new : ∀ pc ∈ entered, pc = 0 ∨ pc = 3)
    (dropped : Settles (lineComment (c :: behind)).program place (4 :: 2 :: 1 :: entered) more []) :
    Settles (lineComment (c :: behind)).program place entered (⟨1, slots⟩ :: more)
      [⟨2, slots⟩, ⟨4, slots⟩] := by
  have outside {pc : Nat} (first : pc ≠ 0) (last : pc ≠ 3) : pc ∉ entered := fun member =>
    (new pc member).elim first last
  refine .onward (outside (by simp) (by simp)) (at_indent (by simp)) rfl ?_
  refine .reads (by simp [outside]) at_blank ?_
  exact .reads (by simp [outside]) at_first dropped

/-- At most one of the two threads reads a character, because the marker is not blank. -/
theorem advance_indent (visible : Text.isBlank c = false) (d : Char) (slots : Slots) :
    advance (lineComment (c :: behind)).program d [⟨2, slots⟩, ⟨4, slots⟩] =
      if Text.isBlank d then [⟨3, slots⟩] else if c = d then [⟨4 + [c].length, slots⟩] else [] := by
  rw [advance_cons]
  by_cases space : Text.isBlank d = true
  · have apart : c ≠ d := by
      rintro rfl
      simp [space] at visible
    simp [advance, at_blank, at_first, CharSet.contains_blank, CharSet.contains_single, space,
      apart]
  · by_cases same : c = d <;>
      simp [advance, at_blank, at_first, CharSet.contains_blank, CharSet.contains_single, space,
        same]

/-- In the indentation, a search goes on to the first character that is not blank. -/
theorem run_indent (visible : Text.isBlank c = false) {before : Option Char}
    {waiting : List Thread}
    (settles : Settles (lineComment (c :: behind)).program ⟨index, before, rest.head?⟩ []
      (waiting ++ [⟨0, [none, none]⟩]) [⟨2, [none, none]⟩, ⟨4, [none, none]⟩]) :
    run (lineComment (c :: behind)).program [none, none] waiting none index before rest =
      ((c :: behind).isPrefixOf? (Text.dropBlank rest)).bind fun left =>
        bodySlots? (index + rest.length) (dropOneBlank left) := by
  have comment := hasBody_lineComment (c :: behind)
  have under_way : accepted? (lineComment (c :: behind)).program
      [⟨2, [none, none]⟩, ⟨4, [none, none]⟩] = none := by
    simp [accepted?, at_blank, at_first]
  induction rest generalizing index before waiting with
  | nil =>
    rw [run_nil settles, under_way]
    rfl
  | cons d rest ih =>
    have length : index + 1 + rest.length = index + (rest.length + 1) := by omega
    rw [run_cons settles under_way, advance_indent visible]
    by_cases space : Text.isBlank d = true
    · -- The thread behind the blank jumps back to the fork.
      have again : Settles (lineComment (c :: behind)).program ⟨index + 1, some d, rest.head?⟩ []
          ([⟨3, [none, none]⟩] ++ [⟨0, [none, none]⟩]) [⟨2, [none, none]⟩, ⟨4, [none, none]⟩] :=
        .onward List.not_mem_nil (at_indent (by decide)) rfl <|
          settles_indent (by simp) (comment.settles_fresh _ (by simp))
      rw [if_pos space, ih again]
      simp [Text.dropBlank, space, length]
    · -- This character ends the indentation, so it has to begin the marker.
      have kept : Text.dropBlank (d :: rest) = d :: rest := by
        simp [Text.dropBlank, space]
      rw [if_neg space, kept]
      by_cases same : c = d
      · subst same
        have split : c :: behind = [c] ++ behind := rfl
        rw [if_pos rfl, run_marker split]
        simp [List.isPrefixOf?, length]
      · rw [if_neg same, comment.run_nothing]
        simp [List.isPrefixOf?, same]

theorem search_lineComment (visible : Text.isBlank c = false) (text : List Char) :
    search (lineComment (c :: behind)).program 1 text =
      ((c :: behind).isPrefixOf? (Text.dropBlank text)).bind fun left =>
        bodySlots? text.length (dropOneBlank left) := by
  have settles : Settles (lineComment (c :: behind)).program ⟨0, none, text.head?⟩ []
      ([] ++ [⟨0, [none, none]⟩]) [⟨2, [none, none]⟩, ⟨4, [none, none]⟩] := by
    refine .onward List.not_mem_nil (at_indent (by decide)) rfl ?_
    exact settles_indent (by simp) (.done _)
  have found := run_indent visible settles
  rwa [Nat.zero_add] at found

theorem groups_lineComment (marker : List Char) : (lineComment marker).groups = 1 := rfl

theorem dropOneBlank_suffix (text : List Char) : dropOneBlank text <:+ text := by
  cases text with
  | nil => exact List.suffix_refl []
  | cons d rest =>
    by_cases blank : Text.isBlank d = true <;> simp [dropOneBlank, blank]

theorem groupText?_bodySlots {text body : List Char} (suffix : body <:+ text) :
    groupText? text [some (text.length - body.length), some text.length] 1 = some body := by
  have left := List.suffix_iff_eq_drop.mp suffix
  simp [groupText?, groupSlot, ← left]

/-- The pattern of comments with a marker that is not blank gives the body of a comment. -/
theorem firstGroup?_lineComment (visible : Text.isBlank c = false) (source text : String) :
    (ofExpr source (lineComment (c :: behind))).firstGroup? text =
      (commentBody? (c :: behind) text.toList).map String.ofList := by
  rw [firstGroup?, match?, ofExpr, groups_lineComment, search_lineComment visible, commentBody?]
  cases found : (c :: behind).isPrefixOf? (Text.dropBlank text.toList) with
  | none => rfl
  | some left =>
    -- The body is what is left at the end of the text, so the slots cut it out of the whole.
    have whole := List.isPrefixOf?_eq_some_iff_append_eq.mp found
    have suffix : dropOneBlank left <:+ text.toList :=
      (dropOneBlank_suffix left).trans <| (List.suffix_append (c :: behind) left).trans <|
        whole ▸ List.dropWhile_suffix _
    by_cases feed : '\n' ∈ dropOneBlank left <;>
      simp [bodySlots?, feed, groupText?_bodySlots suffix]

end

end Weave.Pattern
