import LiteralBridge.Text.Class

/-!
# Trimming, cutting and joining

Texts are lists of characters here. The main statements say that a place in a text is the length of
what stands before it (`offsetOf_append`) and that a cut loses nothing but the mark it was made at
(`append_of_splitOnce`).
-/

namespace LiteralBridge.Text

/-- The number of bytes of a text in UTF-8. -/
def byteLength : List Char → Nat
  | [] => 0
  | c :: rest => c.utf8Size + byteLength rest

/-- The place in a text, in bytes, where a part begins with which the text ends. -/
def offsetOf (cs rest : List Char) : Nat :=
  byteLength cs - byteLength rest

/-- The text without the characters of a class at its end. -/
def dropEndWhile (p : Char → Bool) (cs : List Char) : List Char :=
  (cs.reverse.dropWhile p).reverse

def trimStart (cs : List Char) : List Char :=
  cs.dropWhile isBlank

def trim (cs : List Char) : List Char :=
  dropEndWhile isBlank (trimStart cs)

/-- What follows `mark` in a text that begins with it. -/
def after? : (mark : List Char) → List Char → Option (List Char)
  | [], cs => some cs
  | _ :: _, [] => none
  | m :: mark, c :: cs => if m = c then after? mark cs else none

/-- The parts before and after the first occurrence of `mark`. -/
def splitOnce (mark : List Char) : List Char → Option (List Char × List Char)
  | [] => if mark.isEmpty then some ([], []) else none
  | c :: rest =>
    match after? mark (c :: rest) with
    | some after => some ([], after)
    | none => (splitOnce mark rest).map fun (before, after) => (c :: before, after)

/-- The texts with a comma and a space between neighbours. -/
def commaSeparated : List (List Char) → List Char
  | [] => []
  | [part] => part
  | part :: next :: rest => part ++ ',' :: ' ' :: commaSeparated (next :: rest)

/-- The pieces of a sequence, each with the item that ends it; the last one may lack it. -/
def pieces {α : Type} (ends : α → Bool) : List α → List (List α)
  | [] => []
  | a :: rest =>
    if ends a then [a] :: pieces ends rest
    else
      match pieces ends rest with
      | [] => [[a]]
      | piece :: more => (a :: piece) :: more

/-- The lines of a text, each with the line feed that ends it; the last one may lack it. -/
def terminatedLines (cs : List Char) : List (List Char) :=
  pieces (· == '\n') cs

/-- The content of a line: a line feed at its end goes, and a carriage return before it. -/
def lineContent (line : List Char) : List Char :=
  match line.reverse with
  | '\n' :: '\r' :: rest => rest.reverse
  | '\n' :: rest => rest.reverse
  | _ => line

/-- The contents of the lines of a text. A line feed ends a line, so none follows the last one. -/
def lines (cs : List Char) : List (List Char) :=
  (terminatedLines cs).map lineContent

theorem byteLength_append (cs ds : List Char) :
    byteLength (cs ++ ds) = byteLength cs + byteLength ds := by
  induction cs with
  | nil => simp [byteLength]
  | cons c rest ih => simp [byteLength, ih, Nat.add_assoc]

/-- The bytes of a list of characters are those of the string that it makes. -/
theorem byteLength_eq_utf8ByteSize (cs : List Char) :
    byteLength cs = (String.ofList cs).utf8ByteSize := by
  induction cs with
  | nil => simp [byteLength]
  | cons c rest ih =>
    rw [byteLength, ih, String.ofList_cons, String.utf8ByteSize_append,
      String.utf8ByteSize_singleton]

/-- A part that ends the text begins where the part before it ends. -/
theorem offsetOf_append (cs rest : List Char) : offsetOf (cs ++ rest) rest = byteLength cs := by
  rw [offsetOf, byteLength_append, Nat.add_sub_cancel]

/-- A text begins with the mark exactly if it is the mark and the rest. -/
theorem after?_eq_some_iff {mark cs rest : List Char} :
    after? mark cs = some rest ↔ cs = mark ++ rest := by
  induction mark generalizing cs with
  | nil => simp [after?]
  | cons m mark ih =>
    cases cs with
    | nil => simp [after?]
    | cons c cs =>
      by_cases h : m = c
      · simp [after?, h, ih]
      · simp [after?, h, Ne.symm h]

/-- What stands before the mark, the mark, and what stands after it make up the text. -/
theorem append_of_splitOnce {mark cs before after : List Char}
    (h : splitOnce mark cs = some (before, after)) : before ++ mark ++ after = cs := by
  induction cs generalizing before with
  | nil =>
    simp only [splitOnce] at h
    split at h <;> simp_all
  | cons c rest ih =>
    simp only [splitOnce] at h
    split at h
    · next found =>
      simp only [Option.some.injEq, Prod.mk.injEq] at h
      obtain ⟨rfl, rfl⟩ := h
      simpa using (after?_eq_some_iff.mp found).symm
    · obtain ⟨⟨b, a⟩, hb, he⟩ := Option.map_eq_some_iff.mp h
      simp only [Prod.mk.injEq] at he
      obtain ⟨rfl, rfl⟩ := he
      simp [← ih hb]

end LiteralBridge.Text
