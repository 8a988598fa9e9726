import Mathlib.Data.List.Perm.Subperm
import Weave.Pattern.Search

/-!
# How threads settle

A search in terms of single instructions. Waiting threads settle one after the other: a thread at an
instruction that has been entered at this place is dropped, and any other enters its instruction and
goes on from there. The bound given to `follow` is enough for that.
-/

namespace Weave.Pattern

/-- Where a thread goes on from an instruction, if that neither reads a character nor accepts. -/
def Instr.onward? (place : Place) (thread : Thread) : Instr → Option (List Thread)
  | char _ => none
  | anchor a =>
    some (if a.holds place.before place.after then [{ thread with pc := thread.pc + 1 }] else [])
  | mark slot => some [⟨thread.pc + 1, thread.slots.set slot (some place.index)⟩]
  | fork first second => some [{ thread with pc := first }, { thread with pc := second }]
  | jump target => some [{ thread with pc := target }]
  | accept => none

theorem Instr.length_onward_le {place : Place} {thread : Thread} {instr : Instr}
    {next : List Thread} (goes : instr.onward? place thread = some next) : next.length ≤ 2 := by
  cases instr with
  | char set => contradiction
  | accept => contradiction
  | anchor a =>
    obtain rfl := Option.some.inj goes
    split <;> simp
  | _ =>
    obtain rfl := Option.some.inj goes
    simp

/-- Waiting threads settle into the threads that live at a place, where some instructions have been
entered before. -/
inductive Settles (program : Program) (place : Place) :
    List Nat → List Thread → List Thread → Prop
  | done (entered : List Nat) : Settles program place entered [] []
  | dropped {entered : List Nat} {thread : Thread} {waiting threads : List Thread}
      (before : thread.pc ∈ entered) (rest : Settles program place entered waiting threads) :
      Settles program place entered (thread :: waiting) threads
  | onward {entered : List Nat} {thread : Thread} {waiting next threads : List Thread}
      {instr : Instr} (new : thread.pc ∉ entered) (here : program[thread.pc]? = some instr)
      (goes : instr.onward? place thread = some next)
      (rest : Settles program place (thread.pc :: entered) (next ++ waiting) threads) :
      Settles program place entered (thread :: waiting) threads
  | reads {entered : List Nat} {thread : Thread} {waiting threads : List Thread} {set : CharSet}
      (new : thread.pc ∉ entered) (here : program[thread.pc]? = some (.char set))
      (rest : Settles program place (thread.pc :: entered) waiting threads) :
      Settles program place entered (thread :: waiting) (thread :: threads)
  | accepts {entered : List Nat} {thread : Thread} {waiting : List Thread}
      (new : thread.pc ∉ entered) (here : program[thread.pc]? = some .accept) :
      Settles program place entered (thread :: waiting) [thread]

variable {program : Program} {place : Place} {entered : List Nat} {waiting threads : List Thread}

/-- The instructions entered, as a list and as the flags that a search keeps. -/
structure Flagged (program : Program) (entered : List Nat) (flags : Array Bool) : Prop where
  size : flags.size = program.size
  distinct : entered.Nodup
  within : ∀ pc ∈ entered, pc < program.size
  flag : ∀ pc < program.size, (flags.getD pc true = true ↔ pc ∈ entered)

namespace Flagged

variable {flags : Array Bool} {pc : Nat} {instr : Instr}

theorem start (program : Program) : Flagged program [] (Array.replicate program.size false) where
  size := Array.size_replicate
  distinct := List.nodup_nil
  within := fun _ member => absurd member List.not_mem_nil
  flag := fun pc inside => by simp [Array.getD, inside]

theorem lt_size (here : program[pc]? = some instr) : pc < program.size :=
  (Array.getElem?_eq_some_iff.mp here).1

theorem enter (flagged : Flagged program entered flags) (new : pc ∉ entered)
    (here : program[pc]? = some instr) :
    Flagged program (pc :: entered) (flags.setIfInBounds pc true) where
  size := by rw [Array.size_setIfInBounds, flagged.size]
  distinct := List.nodup_cons.mpr ⟨new, flagged.distinct⟩
  within := List.forall_mem_cons.mpr ⟨lt_size here, flagged.within⟩
  flag := by
    intro other inside
    have before := flagged.flag other inside
    simp only [Array.getD_eq_getD_getElem?, Array.getElem?_setIfInBounds,
      List.mem_cons] at before ⊢
    -- The flag of the instruction entered is set, and no other flag changes.
    by_cases same : pc = other
    · subst same
      simp [flagged.size, inside]
    · have apart : other ≠ pc := fun h => same h.symm
      simpa [same, apart] using before

/-- While an instruction is new, fewer have been entered than there are. -/
theorem length_lt (flagged : Flagged program entered flags) (new : pc ∉ entered)
    (here : program[pc]? = some instr) : entered.length < program.size := by
  have more := flagged.enter new here
  have inside : (pc :: entered).Subperm (List.range program.size) :=
    List.subperm_of_subset more.distinct fun other member =>
      List.mem_range.mpr (more.within other member)
  exact Nat.lt_of_succ_le (by simpa using inside.length_le)

theorem getD_of_mem (flagged : Flagged program entered flags) (before : pc ∈ entered) :
    flags.getD pc true = true :=
  (flagged.flag pc (flagged.within pc before)).mpr before

theorem getD_of_new (flagged : Flagged program entered flags) (new : pc ∉ entered)
    (here : program[pc]? = some instr) : flags.getD pc true = false :=
  Bool.eq_false_iff.mpr fun set => new ((flagged.flag pc (lt_size here)).mp set)

theorem follow_onward (flagged : Flagged program entered flags) {thread : Thread}
    {next : List Thread} (new : thread.pc ∉ entered) (here : program[thread.pc]? = some instr)
    (goes : instr.onward? place thread = some next) (bound : Nat) (settled : List Thread) :
    follow program place (bound + 1) flags settled (thread :: waiting) =
      follow program place bound (flags.setIfInBounds thread.pc true) settled
        (next ++ waiting) := by
  rw [follow, flagged.getD_of_new new here, here]
  cases instr with
  | char set => contradiction
  | accept => contradiction
  | anchor a =>
    obtain rfl := Option.some.inj goes
    by_cases held : a.holds place.before place.after = true <;> simp [held]
  | _ =>
    obtain rfl := Option.some.inj goes
    rfl

end Flagged

/-- Following comes to the threads that settle, if its bound allows for dropping every waiting
thread and for entering every instruction that is left. -/
theorem follow_of_settles (settles : Settles program place entered waiting threads)
    {bound : Nat} {flags : Array Bool} (settled : List Thread)
    (flagged : Flagged program entered flags)
    (enough : waiting.length + 2 * (program.size - entered.length) ≤ bound) :
    follow program place bound flags settled waiting = settled.reverse ++ threads := by
  induction settles generalizing bound flags settled with
  | done => cases bound <;> simp [follow]
  | dropped before _ ih =>
    cases bound with
    | zero => simp at enough
    | succ bound =>
      rw [follow, if_pos (flagged.getD_of_mem before)]
      exact ih settled flagged (by simp only [List.length_cons] at enough; omega)
  | onward new here goes _ ih =>
    -- One more instruction is entered, which pays for the two threads it may add.
    have room := flagged.length_lt new here
    have more := Instr.length_onward_le goes
    cases bound with
    | zero => simp at enough
    | succ bound =>
      rw [flagged.follow_onward new here goes]
      refine ih settled (flagged.enter new here) ?_
      simp only [List.length_cons, List.length_append] at enough ⊢
      omega
  | @reads _ thread _ _ _ new here _ ih =>
    have room := flagged.length_lt new here
    cases bound with
    | zero => simp at enough
    | succ bound =>
      rw [follow, flagged.getD_of_new new here, here]
      have left := ih (thread :: settled) (flagged.enter new here)
        (show _ ≤ bound by simp only [List.length_cons] at enough ⊢; omega)
      simpa using left
  | accepts new here =>
    cases bound with
    | zero => simp at enough
    | succ bound =>
      rw [follow, flagged.getD_of_new new here, here]
      simp

theorem live_of_settles (settles : Settles program place [] waiting threads) :
    live program place waiting = threads :=
  follow_of_settles settles [] (.start program) (Nat.le_refl _)

/-! ### Steps of a search -/

variable {fresh : Slots} {index : Nat} {before : Option Char}

theorem run_nil
    (settles : Settles program ⟨index, before, none⟩ [] (waiting ++ [⟨0, fresh⟩]) threads) :
    run program fresh waiting none index before [] =
      (accepted? program threads).map Thread.slots := by
  simp [run, live_of_settles settles]

/-- While no thread accepts, a search goes on with the threads that have read the next character. -/
theorem run_cons {c : Char} {rest : List Char}
    (settles : Settles program ⟨index, before, some c⟩ [] (waiting ++ [⟨0, fresh⟩]) threads)
    (under_way : accepted? program threads = none) :
    run program fresh waiting none index before (c :: rest) =
      run program fresh (advance program c threads) none (index + 1) (some c) rest := by
  rw [run]
  simp [live_of_settles settles, under_way]

end Weave.Pattern
