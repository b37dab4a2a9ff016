import LiteralBridge.Literal.Name
import LiteralBridge.Literal.Number

/-!
# Reading literals

Only constants are recognised, so the text of the host is never taken for code. Containers nest as
deep as a limit allows: `readValue` recurses on the levels that are left. A container is read by a
loop whose bound is the length of the whole text, which it cannot exhaust because each item takes at
least one character.
-/

namespace LiteralBridge.Literal

open Text

/-- Reads the items of a list or tuple and the closing bracket, and whether there was a comma. A
comma may follow the last item. -/
def readItems (item : Reader Literal) (opening closing : Char) :
    (bound : Nat) → Reader (List Literal × Bool)
  | 0, cs => .error ⟨.endOfText, cs⟩
  | bound + 1, cs =>
    let start := skipBlank cs
    if start.head? = some closing then .ok (([], false), start.tail)
    else do
      let (literal, afterItem) ← item start
      match skipBlank afterItem with
      | [] => .error ⟨.unclosed opening, []⟩
      | c :: rest =>
        if c = ',' then
          let ((literals, _), after) ← readItems item opening closing bound rest
          .ok ((literal :: literals, true), after)
        else if c = closing then .ok (([literal], false), rest)
        else .error ⟨.unseparated closing c, c :: rest⟩

/-- Reads what follows an item between braces: the closing brace, or a comma and whether another
item follows. -/
def readBraceSeparator : Reader Bool := fun cs =>
  match skipBlank cs with
  | [] => .error ⟨.unclosed '{', []⟩
  | c :: rest =>
    if c = '}' then .ok (false, rest)
    else if c = ',' then
      let start := skipBlank rest
      if start.head? = some '}' then .ok (false, start.tail) else .ok (true, start)
    else .error ⟨.unseparated '}' c, c :: rest⟩

/-- Reads the further members of a set and the closing brace. -/
def readMembers (item : Reader Literal) : (bound : Nat) → Reader (List Literal)
  | 0, cs => .error ⟨.endOfText, cs⟩
  | bound + 1, cs => do
    let (more, afterSeparator) ← readBraceSeparator cs
    if more then
      let (literal, afterItem) ← item afterSeparator
      let (literals, after) ← readMembers item bound afterItem
      .ok (literal :: literals, after)
    else .ok ([], afterSeparator)

/-- Reads the further entries of a table and the closing brace. -/
def readEntries (item : Reader Literal) : (bound : Nat) → Reader (List (Literal × Literal))
  | 0, cs => .error ⟨.endOfText, cs⟩
  | bound + 1, cs => do
    let (more, afterSeparator) ← readBraceSeparator cs
    if more then
      let (key, afterKey) ← item afterSeparator
      let ((), afterColon) ← expect ':' (skipBlank afterKey)
      let (value, afterValue) ← item afterColon
      let (entries, after) ← readEntries item bound afterValue
      .ok ((key, value) :: entries, after)
    else .ok ([], afterSeparator)

/-- Reads a set or a table after its opening brace. Empty braces are a table; else what follows the
first item decides. -/
def readBraces (item : Reader Literal) (bound : Nat) : Reader Literal := fun cs =>
  let start := skipBlank cs
  if start.head? = some '}' then .ok (.dict [], start.tail)
  else do
    let (first, afterFirst) ← item start
    let separator := skipBlank afterFirst
    if separator.head? = some ':' then
      let (value, afterValue) ← item separator.tail
      let (entries, after) ← readEntries item bound afterValue
      .ok (.dict ((first, value) :: entries), after)
    else
      let (members, after) ← readMembers item bound separator
      .ok (.set (first :: members), after)

/-- Parentheses around one item without a comma only group. -/
def ofParentheses : List Literal × Bool → Literal
  | ([literal], false) => literal
  | (items, _) => .tuple items

/-- Reads a number, or a name with a minus sign, from its first character on. -/
def readSigned : Reader Literal
  | '-' :: rest =>
    if rest.head?.any Char.isAlpha then readNegatedName ('-' :: rest) rest
    else readNumber ('-' :: rest) true rest
  | cs => readNumber cs false cs

/-- Reads one literal, of which the items of a container are read by `item`, if there is a level
left for them. -/
def readLevel (limit bound : Nat) (item? : Option (Reader Literal)) : Reader Literal := fun cs =>
  match skipBlank cs with
  | [] => .error ⟨.endOfText, []⟩
  | c :: rest =>
    if c = '[' ∨ c = '(' ∨ c = '{' then
      match item? with
      | Option.none => .error ⟨.tooDeep limit, rest⟩
      | some item =>
        if c = '[' then do
          let ((items, _), after) ← readItems item '[' ']' bound rest
          .ok (.list items, after)
        else if c = '(' then do
          let (items, after) ← readItems item '(' ')' bound rest
          .ok (ofParentheses items, after)
        else readBraces item bound rest
    else if c = '"' ∨ c = '\'' then do
      let (s, after) ← readString (c :: rest)
      .ok (.str s, after)
    else if c = '-' ∨ c.isDigit then readSigned (c :: rest)
    else if isNameStart c then readName (c :: rest)
    else .error ⟨.unexpected c, c :: rest⟩

/-- Reads one literal in which containers nest at most `room` deep. -/
def readValue (limit bound : Nat) : (room : Nat) → Reader Literal
  | 0 => readLevel limit bound Option.none
  | room + 1 => readLevel limit bound (some (readValue limit bound room))

/-- Reads a text that is one literal with nothing but white space around it. -/
def readText (limit : Nat) (cs : List Char) : Except Stop Literal := do
  let (literal, after) ← readValue limit (cs.length + 1) limit cs
  match skipBlank after with
  | [] => .ok literal
  | rest => .error ⟨.trailingText, rest⟩

/-- The literal that a text is, nested at most `limit` deep. -/
def parse (limit : Nat) (text : String) : Except ParseError Literal :=
  match readText limit text.toList with
  | .ok literal => .ok literal
  | .error stop => .error ⟨offsetOf text.toList stop.rest, stop.reason⟩

end LiteralBridge.Literal
