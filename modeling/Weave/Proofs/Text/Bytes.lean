import Weave.Text.Lines

/-!
# Bytes of a text

The encoding of a text is that of its parts, one behind the other. A byte that is a character of its
own is part of no other character, so the text can be cut before and behind it.
-/

namespace Weave.Text

theorem eq_append_ofList {text front : String} {rest : List Char}
    (split : text.toList = front.toList ++ rest) : text = front ++ String.ofList rest := by
  rw [← String.toList_inj, split, String.toList_append, String.toList_ofList]

/-- Of two fronts of a text the shorter one is a front of the other. -/
theorem exists_append_of_le {front rest longer tail : String}
    (same : front ++ rest = longer ++ tail) (shorter : front.utf8ByteSize ≤ longer.utf8ByteSize) :
    ∃ between, longer = front ++ between ∧ rest = between ++ tail := by
  rw [← String.toList_inj, String.toList_append, String.toList_append,
    List.append_eq_append_iff] at same
  rcases same with ⟨between, within, behind⟩ | ⟨between, within, behind⟩
  · refine ⟨String.ofList between, eq_append_ofList within, ?_⟩
    rw [← String.toList_inj, behind, String.toList_append, String.toList_ofList]
  -- The front that is not longer is the longer one here, so nothing stands between them.
  · obtain rfl := eq_append_ofList within
    have empty : String.ofList between = "" := by
      rw [String.utf8ByteSize_append] at shorter
      rw [← String.utf8ByteSize_eq_zero_iff]
      omega
    obtain rfl : between = [] := by simpa using empty
    refine ⟨"", by simp, ?_⟩
    rw [← String.toList_inj]
    simpa using behind.symm

/-! ### Bytes and boundaries -/

theorem byteAt?_eq_getElem? (text : String) (index : Nat) :
    byteAt? text index = text.toByteArray.data[index]? := by
  unfold byteAt?
  split
  next inside =>
    rw [Array.getElem?_eq_getElem (by simpa using inside)]
    rfl
  next outside => rw [Array.getElem?_eq_none (by simpa using outside)]

theorem byteAt?_eq_none_iff {text : String} {index : Nat} :
    byteAt? text index = none ↔ text.utf8ByteSize ≤ index := by
  simp [byteAt?_eq_getElem?]

theorem byteAt?_append_left {text : String} (more : String) {index : Nat}
    (inside : index < text.utf8ByteSize) : byteAt? (text ++ more) index = byteAt? text index := by
  simp only [byteAt?_eq_getElem?, String.toByteArray_append, ByteArray.data_append]
  exact Array.getElem?_append_left (by simpa using inside)

theorem byteAt?_append_right (text more : String) (index : Nat) :
    byteAt? (text ++ more) (text.utf8ByteSize + index) = byteAt? more index := by
  simp only [byteAt?_eq_getElem?, String.toByteArray_append, ByteArray.data_append]
  rw [Array.getElem?_append_right (by simp)]
  simp

theorem isBoundary_iff_exists_append {text : String} {index : Nat} :
    IsBoundary text index ↔
      ∃ before rest, text = before ++ rest ∧ before.utf8ByteSize = index := by
  simp [IsBoundary, String.Pos.Raw.isValid_iff_exists_append, String.Pos.Raw.ext_iff,
    eq_comm (a := index)]

theorem isBoundary_append (before rest : String) :
    IsBoundary (before ++ rest) before.utf8ByteSize :=
  isBoundary_iff_exists_append.mpr ⟨before, rest, rfl, rfl⟩

theorem slice?_append (before line rest : String) :
    slice? (before ++ (line ++ rest)) before.utf8ByteSize
      (before.utf8ByteSize + line.utf8ByteSize) = some line := by
  have start := isBoundary_append before (line ++ rest)
  have stop := isBoundary_append (before ++ line) rest
  rw [String.append_assoc, String.utf8ByteSize_append] at stop
  have cut := ByteArray.extract_append_size_add (a := before.toByteArray)
    (b := line.toByteArray ++ rest.toByteArray) (i := 0) (j := line.toByteArray.size)
  rw [slice?, dif_pos ⟨Nat.le_add_right _ _, start, stop⟩, Option.some_inj,
    ← String.toByteArray_inj, String.toByteArray_extract]
  simpa using cut.trans (ByteArray.extract_append_eq_left rfl)

/-! ### Characters of one byte -/

section

variable {c : Char} {byte : UInt8} (encodes : String.utf8EncodeChar c = [byte])

include encodes

/-- A byte that is a whole character stands within no other one. -/
theorem isBoundary_of_byteAt? {text : String} {index : Nat}
    (found : byteAt? text index = some byte) : IsBoundary text index := by
  have inside := index_lt_of_byteAt? found
  -- It is the first byte of its own encoding, and no encoding has such a byte further on.
  have first : byte.IsUTF8FirstByte := by
    have starts := @UInt8.isUTF8FirstByte_getElem_utf8EncodeChar c 0 (by simp [encodes])
    simpa [encodes] using starts
  rw [byteAt?, dif_pos inside, Option.some_inj] at found
  exact String.Pos.Raw.isValid_iff_isUTF8FirstByte.mpr (Or.inr ⟨inside, found ▸ first⟩)

theorem exists_singleton_append {text : String} (begins : byteAt? text 0 = some byte) :
    ∃ rest, text = String.singleton c ++ rest := by
  have filled := index_lt_of_byteAt? begins
  have room : 0 + 1 ≤ text.toByteArray.size := by
    rw [String.size_toByteArray]
    exact filled
  rw [byteAt?, dif_pos filled, Option.some_inj] at begins
  have first : text.toByteArray.extract 0 1 = [c].utf8Encode := by
    rw [ByteArray.extract_add_one room, List.utf8Encode_singleton, encodes, ← begins]
    rfl
  have whole : [c].utf8Encode ++ text.toByteArray.extract 1 text.toByteArray.size =
      text.toList.utf8Encode := by
    rw [← first, String.utf8Encode_toList,
      ← ByteArray.extract_eq_extract_append_extract 1 (Nat.zero_le 1) room,
      ByteArray.extract_zero_size]
  -- Encodings that begin alike are those of texts that begin alike.
  obtain ⟨rest, same⟩ := List.isPrefix_of_utf8Encode_append_eq_utf8Encode _ whole
  exact ⟨String.ofList rest, eq_append_ofList (by simpa using same.symm)⟩

theorem exists_append_of_byteAt? {text : String} {index : Nat}
    (found : byteAt? text index = some byte) :
    ∃ before rest, text = before ++ (String.singleton c ++ rest) ∧ before.utf8ByteSize = index := by
  obtain ⟨before, rest, rfl, rfl⟩ :=
    isBoundary_iff_exists_append.mp (isBoundary_of_byteAt? encodes found)
  have begins := (byteAt?_append_right before rest 0).symm.trans found
  obtain ⟨rest, rfl⟩ := exists_singleton_append encodes begins
  exact ⟨before, rest, rfl, rfl⟩

theorem byteAt?_singleton_append (rest : String) :
    byteAt? (String.singleton c ++ rest) 0 = some byte := by
  rw [byteAt?_append_left _ (by simp [c.utf8Size_pos]), byteAt?_eq_getElem?]
  simp [List.utf8Encode_singleton, encodes]

theorem byteAt?_zero_of_head? {text : String} (begins : c ∈ text.toList.head?) :
    byteAt? text 0 = some byte := by
  obtain ⟨rest, characters⟩ := List.head?_eq_some_iff.mp begins
  have split : text = String.singleton c ++ String.ofList rest :=
    eq_append_ofList (by simpa using characters)
  rw [split, byteAt?_singleton_append encodes]

theorem exists_byteAt?_of_mem {text : String} (member : c ∈ text.toList) :
    ∃ index < text.utf8ByteSize, byteAt? text index = some byte := by
  obtain ⟨front, tail, characters⟩ := List.append_of_mem member
  have split : text = String.ofList front ++ String.ofList (c :: tail) :=
    eq_append_ofList (by simpa using characters)
  have begins : byteAt? (String.ofList (c :: tail)) 0 = some byte :=
    byteAt?_zero_of_head? encodes (by simp)
  have found : byteAt? text (String.ofList front).utf8ByteSize = some byte := by
    rw [split]
    exact (byteAt?_append_right _ _ 0).trans begins
  exact ⟨_, index_lt_of_byteAt? found, found⟩

end

theorem encoding_lineFeed : String.utf8EncodeChar '\n' = [lineFeedByte] := rfl

theorem encoding_carriageReturn : String.utf8EncodeChar '\r' = [carriageReturnByte] := rfl

end Weave.Text
