import LiteralBridge.Text.Cut

/-!
# Lines

A text is framed as a single line: backslashes and line breaks are escaped.
`unframeChars_frameChars` says that nothing is lost.
-/

namespace LiteralBridge.Framing

open Text

/-- What is wrong with a backslash in a line. -/
inductive FrameFault where
  | unknownEscape (c : Char)
  | danglingBackslash
deriving DecidableEq

def FrameFault.message : FrameFault → String
  | unknownEscape c => "unknown escape \\" ++ String.singleton c
  | danglingBackslash => "dangling backslash"

/-- A line that is no frame: the place of the backslash, in bytes, and what is wrong with it. -/
structure FramingError where
  offset : Nat
  reason : FrameFault
deriving DecidableEq

def FramingError.message (e : FramingError) : String :=
  "bad framing at byte " ++ toString e.offset ++ ": " ++ e.reason.message

/-- A character of a text as it stands in a line. -/
def frameChar (c : Char) : List Char :=
  if c = '\\' then ['\\', '\\']
  else if c = '\n' then ['\\', 'n']
  else if c = '\r' then ['\\', 'r']
  else [c]

def frameChars (cs : List Char) : List Char :=
  cs.flatMap frameChar

/-- What a character means after a backslash. -/
def escaped? : Char → Option Char
  | '\\' => some '\\'
  | 'n' => some '\n'
  | 'r' => some '\r'
  | _ => none

/-- The text of a line, or what is wrong with a backslash and the line from there on. -/
def unframeChars : List Char → Except (FrameFault × List Char) (List Char)
  | [] => .ok []
  | [c] => if c = '\\' then .error (.danglingBackslash, [c]) else .ok [c]
  | c :: d :: rest =>
    if c = '\\' then
      match escaped? d with
      | none => .error (.unknownEscape d, c :: d :: rest)
      | some decoded => do
        let cs ← unframeChars rest
        .ok (decoded :: cs)
    else do
      let cs ← unframeChars (d :: rest)
      .ok (c :: cs)

def frame (text : String) : String :=
  String.ofList (frameChars text.toList)

def unframe (line : String) : Except FramingError String :=
  match unframeChars line.toList with
  | .ok cs => .ok (String.ofList cs)
  | .error (reason, rest) => .error ⟨offsetOf line.toList rest, reason⟩

theorem unframeChars_cons {c : Char} (h : c ≠ '\\') (rest : List Char) :
    unframeChars (c :: rest) = (unframeChars rest).map (c :: ·) := by
  cases rest with
  | nil => simp [unframeChars, h, Except.map]
  | cons d rest =>
    simp only [unframeChars, h, if_false]
    cases unframeChars (d :: rest) <;> rfl

theorem unframeChars_escape {d decoded : Char} (h : escaped? d = some decoded) (rest : List Char) :
    unframeChars ('\\' :: d :: rest) = (unframeChars rest).map (decoded :: ·) := by
  simp only [unframeChars, h, if_true]
  cases unframeChars rest <;> rfl

theorem unframeChars_frameChar_append (c : Char) (rest : List Char) :
    unframeChars (frameChar c ++ rest) = (unframeChars rest).map (c :: ·) := by
  rw [frameChar]
  split
  · next h => rw [h]; exact unframeChars_escape rfl rest
  · split
    · next h => rw [h]; exact unframeChars_escape rfl rest
    · split
      · next h => rw [h]; exact unframeChars_escape rfl rest
      · next h _ _ => exact unframeChars_cons h rest

/-- The line of a text means that text. -/
theorem unframeChars_frameChars (cs : List Char) : unframeChars (frameChars cs) = .ok cs := by
  induction cs with
  | nil => rfl
  | cons c rest ih =>
    have step : frameChars (c :: rest) = frameChar c ++ frameChars rest := by simp [frameChars]
    rw [step, unframeChars_frameChar_append, ih]
    rfl

end LiteralBridge.Framing
