/-!
# Classes of characters

The classes that host text is read and checked by: white space, control characters, and the
characters of a host identifier. Letters and digits without a further word are the ASCII ones
(`Char.isAlpha`, `Char.isDigit`, `Char.isAlphanum`).
-/

namespace LiteralBridge.Text

/-- White space: the twenty-five characters with the Unicode property of that name. -/
def isBlank (c : Char) : Bool :=
  let n := c.toNat
  (9 ≤ n && n ≤ 13) || n == 32 || n == 0x85 || n == 0xa0 || n == 0x1680 ||
    (0x2000 ≤ n && n ≤ 0x200a) || n == 0x2028 || n == 0x2029 || n == 0x202f || n == 0x205f ||
    n == 0x3000

/-- Control characters: the general category Cc. -/
def isControl (c : Char) : Bool :=
  let n := c.toNat
  n < 32 || (127 ≤ n && n < 160)

/-- A line feed or a carriage return. -/
def isLineBreak (c : Char) : Bool :=
  c == '\n' || c == '\r'

/-- The first character of a host identifier: an ASCII letter or an underscore. -/
def isNameStart (c : Char) : Bool :=
  c.isAlpha || c == '_'

/-- A later character of a host identifier: an ASCII letter, a digit or an underscore. -/
def isNameRest (c : Char) : Bool :=
  c.isAlphanum || c == '_'

/-- A host identifier in characters: a start and any number of later characters. -/
def isName : List Char → Bool
  | [] => false
  | c :: rest => isNameStart c && rest.all isNameRest

def isIdentifier (name : String) : Bool :=
  isName name.toList

theorem isNameRest_of_isNameStart {c : Char} (h : isNameStart c = true) :
    isNameRest c = true := by
  simp only [isNameStart, isNameRest, Char.isAlphanum, Bool.or_eq_true] at h ⊢
  exact h.imp_left .inl

/-- Every character of an identifier is a later character of one. -/
theorem all_isNameRest_of_isName {cs : List Char} (h : isName cs = true) :
    cs.all isNameRest = true := by
  cases cs with
  | nil => rfl
  | cons c rest =>
    simp only [isName, Bool.and_eq_true] at h
    simpa [isNameRest_of_isNameStart h.1] using h.2

end LiteralBridge.Text
