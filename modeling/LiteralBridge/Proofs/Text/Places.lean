import Mathlib
import LiteralBridge.Text.Cut

/-! # Places in a text

A place in a text is a number of bytes. Where a part of the text ends, or begins, is a place between two
characters, and the character there is the first one of what follows. -/

namespace LiteralBridge.Text

open String.Pos.Raw (IsValid)

theorem byteLength_eq_utf8Len (cs : List Char) : byteLength cs = String.utf8Len cs := by
  induction cs with
  | nil => rfl
  | cons c rest ih => rw [byteLength, String.utf8Len_cons, ih, Nat.add_comm]

section Parts

variable {text : String} {front rest : List Char} (h : text.toList = front ++ rest)
include h

/-- A part with which the text begins ends between two characters. -/
theorem isValid_byteLength : IsValid text ⟨byteLength front⟩ := by
  refine String.Pos.Raw.isValid_iff_exists_append.mpr
    ⟨String.ofList front, String.ofList rest, ?_, ?_⟩
  · rw [← String.ofList_append, ← h, String.ofList_toList]
  · rw [byteLength_eq_utf8ByteSize]
    rfl

theorem get?_byteLength : String.Pos.Raw.get? text ⟨byteLength front⟩ = rest.head? := by
  rw [← String.ofList_toList (s := text), h, byteLength_eq_utf8Len, String.get?_of_valid]

end Parts

/-- A part in the middle of a text is what stands between the places where it begins and ends. -/
theorem extract_byteLength {text : String} {front token rest : List Char}
    (h : text.toList = front ++ (token ++ rest)) :
    (String.Pos.Raw.extract text ⟨byteLength front⟩ ⟨byteLength (front ++ token)⟩).toList = token := by
  rw [← List.append_assoc] at h
  rw [← String.ofList_toList (s := text), h, byteLength_append, byteLength_eq_utf8Len,
    byteLength_eq_utf8Len, String.extract_of_valid, String.toList_ofList]

/-- A place between two characters is where a part ends with which the text begins. -/
theorem exists_byteLength_of_isValid {text : String} {pos : Nat} (h : IsValid text ⟨pos⟩) :
    ∃ front rest, text.toList = front ++ rest ∧ pos = byteLength front := by
  obtain ⟨s, t, rfl, hp⟩ := String.Pos.Raw.isValid_iff_exists_append.mp h
  refine ⟨s.toList, t.toList, String.toList_append, ?_⟩
  rw [byteLength_eq_utf8ByteSize, String.ofList_toList]
  exact congrArg String.Pos.Raw.byteIdx hp

/-- A part with which the text ends begins between two characters. -/
theorem isValid_offsetOf {text : String} {rest : List Char} (h : rest <:+ text.toList) :
    IsValid text ⟨offsetOf text.toList rest⟩ := by
  obtain ⟨front, hf⟩ := h
  rw [← hf, offsetOf_append]
  exact isValid_byteLength hf.symm

theorem get?_offsetOf {text : String} {rest : List Char} (h : rest <:+ text.toList) :
    String.Pos.Raw.get? text ⟨offsetOf text.toList rest⟩ = rest.head? := by
  obtain ⟨front, hf⟩ := h
  rw [← hf, offsetOf_append]
  exact get?_byteLength hf.symm

theorem offsetOf_cons {text rest : List Char} {c : Char} (h : c :: rest <:+ text) :
    offsetOf text rest = offsetOf text (c :: rest) + c.utf8Size := by
  obtain ⟨front, rfl⟩ := h
  have ht : front ++ c :: rest = (front ++ [c]) ++ rest := by simp
  rw [offsetOf_append, ht, offsetOf_append, byteLength_append]
  rfl

theorem byteLength_pos {cs : List Char} (h : cs ≠ []) : 0 < byteLength cs := by
  cases cs with
  | nil => exact absurd rfl h
  | cons c rest => exact Nat.add_pos_left c.utf8Size_pos _

/-- Of two parts with which the text ends, the shorter one begins later. -/
theorem offsetOf_lt {text rest next : List Char} (h : rest <:+ text) (hn : next <:+ text)
    (hl : next.length < rest.length) : offsetOf text rest < offsetOf text next := by
  obtain ⟨token, rfl⟩ := List.suffix_of_suffix_length_le hn h (Nat.le_of_lt hl)
  obtain ⟨front, rfl⟩ := h
  have ht : token ≠ [] := by
    rintro rfl
    simp at hl
  have hp := byteLength_pos ht
  rw [offsetOf_append, ← List.append_assoc, offsetOf_append, byteLength_append]
  omega

/-- Only the empty part begins where the text ends. -/
theorem offsetOf_eq_utf8ByteSize_iff {text : String} {rest : List Char} (h : rest <:+ text.toList) :
    offsetOf text.toList rest = text.utf8ByteSize ↔ rest = [] := by
  have hend : offsetOf text.toList [] = text.utf8ByteSize := by
    rw [offsetOf, byteLength_eq_utf8ByteSize, String.ofList_toList]
    rfl
  constructor
  · intro ho
    by_contra hne
    have hlt := offsetOf_lt h List.nil_suffix (List.length_pos_of_ne_nil hne)
    omega
  · rintro rfl
    exact hend

theorem isValid_zero (text : String) : IsValid text ⟨0⟩ :=
  isValid_byteLength (List.nil_append text.toList).symm

end LiteralBridge.Text
