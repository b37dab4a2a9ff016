import LiteralBridge.Json.Number
import LiteralBridge.Json.Symbol
import LiteralBridge.Value.Entries

/-!
# Reading JSON

Readers for the tokens of JSON and for its containers, from which the documents of this library are
read. What is read for its content is held to the whole of the format. What is skipped has to be
well formed only: its numbers may be out of range, its strings may hold anything, and it may nest to
any depth.
-/

namespace LiteralBridge.Json

/-- A reader takes symbols from some point on and gives what it read and the rest, or nothing. -/
abbrev Reader (α : Type) := List Symbol → Option (α × List Symbol)

def isSpace : Symbol → Bool
  | .char c => c == ' ' || c == '\n' || c == '\t' || c == '\r'
  | .stray _ => false

def skipSpace (cs : List Symbol) : List Symbol :=
  cs.dropWhile isSpace

def readChar (c : Char) (cs : List Symbol) : Option (List Symbol) :=
  match skipSpace cs with
  | .char found :: rest => if found = c then some rest else none
  | _ => none

def readWord : (word : List Char) → List Symbol → Option (List Symbol)
  | [], cs => some cs
  | c :: word, .char found :: rest => if found = c then readWord word rest else none
  | _, _ => none

/-! ## Strings -/

def Symbol.char? : Symbol → Option Char
  | .char c => some c
  | .stray _ => none

/-- The number in four hexadecimal digits. -/
def readHex4 (cs : List Symbol) : Option Nat :=
  match (cs.take 4).mapM Symbol.char? with
  | some digits => if digits.length = 4 then Text.readHex digits else none
  | none => none

/-- The escapes of a single character. -/
def simpleEscape? : Char → Option Char
  | '"' => some '"'
  | '\\' => some '\\'
  | '/' => some '/'
  | 'b' => some '\x08'
  | 'f' => some '\x0c'
  | 'n' => some '\n'
  | 'r' => some '\r'
  | 't' => some '\t'
  | _ => none

/-- The first half of a pair that denotes a character beyond the first plane. -/
def isLeadingHalf (code : Nat) : Bool := 0xd800 ≤ code && code < 0xdc00

/-- The second half of such a pair. -/
def isTrailingHalf (code : Nat) : Bool := 0xdc00 ≤ code && code < 0xe000

/-- Reads an escape by number after its letter: the character and the number of symbols it takes,
with the letter. A half of a pair must not stand alone. -/
def readCodePoint (cs : List Symbol) : Option (Char × Nat) := do
  let code ← readHex4 cs
  if isTrailingHalf code then none
  else if isLeadingHalf code then
    match cs.drop 4 with
    | .char '\\' :: .char 'u' :: more => do
      let low ← readHex4 more
      if isTrailingHalf low then
        some (Char.ofNat (0x10000 + (code - 0xd800) * 0x400 + (low - 0xdc00)), 11)
      else none
    | _ => none
  else some (Char.ofNat code, 5)

/-- Reads an escape after its backslash: the character and the number of symbols it takes. -/
def readEscape : List Symbol → Option (Char × Nat)
  | .char c :: rest =>
    match simpleEscape? c with
    | some decoded => some (decoded, 1)
    | none => if c = 'u' then readCodePoint rest else none
  | _ => none

/-- Reads the inside of a string and its closing quote; the first `taken` symbols belong to an
escape that is already read. -/
def readBody : (taken : Nat) → Reader (List Char)
  | _, [] => none
  | taken + 1, _ :: rest => readBody taken rest
  | 0, .stray _ :: _ => none
  | 0, .char c :: rest =>
    if c = '"' then some ([], rest)
    else if c = '\\' then
      match readEscape rest with
      | none => none
      | some (decoded, taken) =>
        (readBody taken rest).map fun (cs, after) => (decoded :: cs, after)
    else if c.toNat < 32 then none
    else (readBody 0 rest).map fun (cs, after) => (c :: cs, after)

def readString : Reader String := fun cs => do
  let body ← readChar '"' cs
  let (content, after) ← readBody 0 body
  some (String.ofList content, after)

/-- The number of symbols that an escape takes, whatever character it denotes. -/
def skipEscape : List Symbol → Option Nat
  | .char c :: rest =>
    if (simpleEscape? c).isSome then some 1
    else if c = 'u' then (readHex4 rest).map fun _ => 5
    else none
  | _ => none

/-- Skips the inside of a string and its closing quote. -/
def skipBody : (taken : Nat) → List Symbol → Option (List Symbol)
  | _, [] => none
  | taken + 1, _ :: rest => skipBody taken rest
  | 0, .stray _ :: rest => skipBody 0 rest
  | 0, .char c :: rest =>
    if c = '"' then some rest
    else if c = '\\' then
      match skipEscape rest with
      | none => none
      | some taken => skipBody taken rest
    else if c.toNat < 32 then none
    else skipBody 0 rest

/-! ## Numbers -/

/-- The decimal digits in front, and the rest. -/
def spanDigits : List Symbol → List Char × List Symbol
  | .char c :: rest =>
    if c.isDigit then
      let (digits, after) := spanDigits rest
      (c :: digits, after)
    else ([], .char c :: rest)
  | rest => ([], rest)

def readDigits1 : Reader (List Char) := fun cs =>
  match spanDigits cs with
  | ([], _) => none
  | found => some found

/-- Whether digits may stand before a point: zero stands alone. -/
def isWhole : List Char → Bool
  | [] => false
  | ['0'] => true
  | c :: _ => c != '0'

def readFraction : Reader (List Char)
  | .char '.' :: rest => readDigits1 rest
  | rest => some ([], rest)

def readSign : List Symbol → Bool × List Symbol
  | .char '-' :: rest => (true, rest)
  | .char '+' :: rest => (false, rest)
  | rest => (false, rest)

def readExponent : Reader (Option (Bool × List Char))
  | .char c :: rest =>
    if c = 'e' ∨ c = 'E' then do
      let (negative, afterSign) := readSign rest
      let (digits, after) ← readDigits1 afterSign
      some (some (negative, digits), after)
    else some (none, .char c :: rest)
  | rest => some (none, rest)

/-- Reads a number after white space, without asking what it denotes. -/
def readNumeral : Reader Numeral := fun cs => do
  let start := skipSpace cs
  let (negative, afterSign) := match start with
    | .char '-' :: rest => (true, rest)
    | rest => (false, rest)
  let (whole, afterWhole) := spanDigits afterSign
  if isWhole whole then do
    let (fraction, afterFraction) ← readFraction afterWhole
    let (exponent, after) ← readExponent afterFraction
    some (⟨negative, whole, fraction, exponent⟩, after)
  else none

/-- Reads an integer without a sign that is below a bound. -/
def readNatBelow (bound : Nat) : Reader Nat := fun cs => do
  let (numeral, after) ← readNumeral cs
  let n := Text.ofDecimal numeral.whole
  if numeral.negative || !numeral.fraction.isEmpty || numeral.exponent.isSome || bound ≤ n then none
  else some (n, after)

/-! ## Containers -/

/-- Reads what stands between items, after which the next item follows, or the closing bracket. -/
def readSeparator (closing : Char) (cs : List Symbol) : Option (Bool × List Symbol) :=
  match skipSpace cs with
  | .char c :: rest =>
    if c = ',' then some (true, rest) else if c = closing then some (false, rest) else none
  | _ => none

/-- Reads items and their separators up to the closing bracket; there is an item. Each item is read
into a state. -/
def readItems {σ : Type} (closing : Char) (item : σ → Reader σ) : (bound : Nat) → σ → Reader σ
  | 0, _, _ => none
  | bound + 1, state, cs => do
    let (state, afterItem) ← item state cs
    let (more, after) ← readSeparator closing afterItem
    if more then readItems closing item bound state after else some (state, after)

/-- Reads the items of a container after its opening bracket; there may be none. -/
def readContainer {σ : Type} (closing : Char) (item : σ → Reader σ) (bound : Nat) (state : σ) :
    Reader σ := fun cs =>
  match readChar closing cs with
  | some after => some (state, after)
  | none => readItems closing item bound state cs

/-- Reads a member of an object: the key, a colon, and a value for the key. -/
def readMember {σ : Type} (value : σ → String → Reader σ) (state : σ) : Reader σ := fun cs => do
  let (key, afterKey) ← readString cs
  let afterColon ← readChar ':' afterKey
  value state key afterColon

def skipMember (value : List Symbol → Option (List Symbol)) (cs : List Symbol) :
    Option (List Symbol) := do
  let body ← readChar '"' cs
  let afterKey ← skipBody 0 body
  let afterColon ← readChar ':' afterKey
  value afterColon

/-- A reader for what is only skipped. -/
def skipping (skip : List Symbol → Option (List Symbol)) : Unit → Reader Unit := fun _ cs =>
  (skip cs).map fun after => ((), after)

/-- Skips a value in which containers nest less than `bound` deep and have fewer than `bound`
items. -/
def skipValue : (bound : Nat) → List Symbol → Option (List Symbol)
  | 0, _ => none
  | bound + 1, cs =>
    match skipSpace cs with
    | .char c :: rest =>
      if c = 'n' then readWord "ull".toList rest
      else if c = 't' then readWord "rue".toList rest
      else if c = 'f' then readWord "alse".toList rest
      else if c = '"' then skipBody 0 rest
      else if c = '[' then
        (readContainer ']' (skipping (skipValue bound)) (bound + 1) () rest).map Prod.snd
      else if c = '{' then
        (readContainer '}' (skipping (skipMember (skipValue bound))) (bound + 1) () rest).map
          Prod.snd
      else (readNumeral (.char c :: rest)).map Prod.snd
    | _ => none

/-- Reads one document, of which the values in containers are read by `inner`, if there is a level
left for them. -/
def readLevel (bound : Nat) (inner? : Option (Reader Json)) : Reader Json := fun cs =>
  match skipSpace cs with
  | .char c :: rest =>
    if c = 'n' then (readWord "ull".toList rest).map fun after => (null, after)
    else if c = 't' then (readWord "rue".toList rest).map fun after => (bool true, after)
    else if c = 'f' then (readWord "alse".toList rest).map fun after => (bool false, after)
    else if c = '"' then
      (readBody 0 rest).map fun (content, after) => (string (String.ofList content), after)
    else if c = '[' then do
      let inner ← inner?
      let item (items : List Json) : Reader (List Json) := fun cs => do
        let (j, after) ← inner cs
        some (j :: items, after)
      let (items, after) ← readContainer ']' item bound [] rest
      some (array items.reverse, after)
    else if c = '{' then do
      let inner ← inner?
      let value (members : List (String × Json)) (key : String) : Reader (List (String × Json)) :=
        fun cs => do
          let (j, after) ← inner cs
          some ((key, j) :: members, after)
      let (members, after) ← readContainer '}' (readMember value) bound [] rest
      some (object (Entries.ofList members.reverse), after)
    else do
      let (numeral, after) ← readNumeral (.char c :: rest)
      let n ← numeral.number?
      some (number n, after)
  | _ => none

/-- Reads one document in which containers nest at most `room` deep. -/
def readValue (bound : Nat) : (room : Nat) → Reader Json
  | 0 => readLevel bound none
  | room + 1 => readLevel bound (some (readValue bound room))

/-- How deep documents may nest. -/
def depthLimit : Nat := 127

/-- Reads a whole text, with nothing but white space around what is read. -/
def readWhole {α : Type} (read : (bound : Nat) → Reader α) (cs : List Symbol) : Option α := do
  let (a, after) ← read (cs.length + 1) cs
  if (skipSpace after).isEmpty then some a else none

/-- The document that a text is. The last member of an object with a key counts. -/
def parse? (text : String) : Option Json :=
  readWhole (fun bound => readValue bound depthLimit) (symbols text)

/-- What diagnostics say of a text that could not be read. -/
def malformedMessage : String :=
  "malformed JSON"

end LiteralBridge.Json
