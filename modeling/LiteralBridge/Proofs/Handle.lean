import LiteralBridge.Encode
import LiteralBridge.Proofs.Literal.Scalars
import LiteralBridge.Proofs.Text.Cutting
import LiteralBridge.Proofs.Text.Trimming

/-! # Attributes of objects

The path of an attribute is the accessor of the object, a point and the name of the attribute. Of a
path as it is needed here, the accessor begins like a name and has no sign of an assignment in it;
then neither has the path of an attribute. -/

namespace LiteralBridge.Handle

open Text
open Literal (isBlank_eq_false_of_beginsLiteral beginsLiteral)

/-- The path of an attribute. -/
def path (h : Handle) (field : String) : String :=
  h.accessor ++ "." ++ field

theorem child_eq_ok {h target : Handle} {field : String} :
    h.child field = .ok target ↔ isIdentifier field = true ∧ target = ⟨h.path field⟩ := by
  rw [path, ← child?_eq_some_iff, child]
  cases h.child? field <;> simp

/-- The accessor begins like a name, and the sign of an assignment is not in it. -/
structure IsPath (h : Handle) : Prop where
  head : h.accessor.toList.head?.any isNameStart = true
  free : ¬ " = ".toList <:+: h.accessor.toList

/-! ## Paths of attributes -/

section Attribute

variable {h : Handle} {field : String}

theorem toList_path :
    (h.path field).toList = h.accessor.toList ++ '.' :: field.toList := by
  simp [path]

theorem point_mem_path : '.' ∈ (h.path field).toList := by
  simp [toList_path]

theorem isBlank_eq_false_of_isNameStart {c : Char} (hc : isNameStart c = true) :
    isBlank c = false :=
  isBlank_eq_false_of_beginsLiteral (by simp [beginsLiteral, hc])

theorem isBlank_eq_false_of_isNameRest {c : Char} (hc : isNameRest c = true) :
    isBlank c = false := by
  apply isBlank_eq_false_of_beginsLiteral
  simp only [isNameRest, Char.isAlphanum, Bool.or_eq_true] at hc
  rcases hc with (hc | hc) | hc
  · simp [beginsLiteral, isNameStart, hc]
  · simp [beginsLiteral, hc]
  · simp [beginsLiteral, isNameStart, hc]

variable (hp : h.IsPath) (hf : isIdentifier field = true)

include hp in
theorem head_path (field : String) (rest : List Char) :
    ((h.path field).toList ++ rest).head?.any isNameStart = true := by
  have hh := hp.head
  rw [toList_path]
  cases ha : h.accessor.toList with
  | nil => simp [ha] at hh
  | cons c more => simpa [ha] using hh

include hf in
/-- The name at the end of a path has no white space in it. -/
theorem not_blank_of_mem_field : ∀ c ∈ field.toList, isBlank c = false := by
  intro c hc
  apply isBlank_eq_false_of_isNameRest
  exact List.all_eq_true.mp (all_isNameRest_of_isName hf) c hc

include hp hf in
theorem trim_path : trim (h.path field).toList = (h.path field).toList := by
  apply trim_eq_self
  · intro c hc
    have hh := head_path hp field []
    rw [List.append_nil, Option.mem_def.mp hc] at hh
    exact isBlank_eq_false_of_isNameStart hh
  · intro c hc
    have hne : field.toList ≠ [] := by
      intro hnil
      simp [isIdentifier, hnil, isName] at hf
    have hl : (h.path field).toList.getLast? = field.toList.getLast? := by
      rw [toList_path, List.getLast?_append, List.getLast?_cons,
        List.getLast?_eq_some_getLast hne]
      rfl
    rw [hl] at hc
    exact not_blank_of_mem_field hf c (List.mem_of_getLast? hc)

include hp hf in
/-- The first sign of an assignment is the one after the name of the attribute. -/
theorem splitOnce_path (rest : List Char) :
    splitOnce " = ".toList ((h.path field).toList ++ rest) =
      (splitOnce " = ".toList rest).map fun cut => ((h.path field).toList ++ cut.1, cut.2) := by
  have hfield : ' ' ∉ field.toList := by
    intro hm
    have hb := not_blank_of_mem_field hf ' ' hm
    exact absurd hb (by decide)
  rw [toList_path, List.append_assoc, List.cons_append,
    splitOnce_append_cons (by decide) (by decide) hp.free]
  change Option.map _ (splitOnce (' ' :: ['=', ' ']) _) = Option.map _ (splitOnce (' ' :: ['=', ' ']) _)
  rw [splitOnce_append_of_not_mem hfield, Option.map_map]
  congr 1
  funext cut
  simp

end Attribute

end LiteralBridge.Handle
