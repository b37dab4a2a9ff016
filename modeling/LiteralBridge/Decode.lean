import LiteralBridge.Config.Basic
import LiteralBridge.Kind
import LiteralBridge.Literal.Parse
import LiteralBridge.Literal.Render
import LiteralBridge.Value.Basic

/-!
# Reading values from the host

The text of the host is parsed as a literal, and the literal is converted to the kind that the
caller expects. For the kind of objects nothing is parsed: the text is the accessor of the object.
-/

namespace LiteralBridge

/-- Why a text has not the expected kind. -/
inductive Mismatch where
  /-- The text is not a literal at all. -/
  | notLiteral (fault : Literal.Fault)
  | wrongShape (expected : Kind) (found : Literal.Shape)
  | outOfRange (i : Int) (range : IntegerRange)
  /-- No float has exactly this value, or too many integers share the float. -/
  | inexactFloat (i : Int)
  | memberNotText (found : Literal.Shape)
  | keyNotText (found : Literal.Shape)
  /-- A tuple has not the expected number of items. -/
  | arity (expected found : Nat)
  | rowNotList (row : Nat) (found : Literal.Shape)
  | raggedRow (row found expected : Nat)
  /-- An object was expected inside a literal. -/
  | nestedObject
  | emptyAccessor
  | noObject
  /-- An accessor has a line break. -/
  | multilineAccessor

def Mismatch.message : Mismatch → String
  | notLiteral fault => fault.message
  | wrongShape expected found => "expected " ++ expected.text ++ ", found " ++ found.name
  | outOfRange i range =>
    "integer " ++ String.ofList (Text.decimalInt i) ++ " is outside the " ++ range.name ++ " range"
  | inexactFloat i =>
    "integer " ++ String.ofList (Text.decimalInt i) ++ " has no exact float form"
  | memberNotText found => "set member must be str, found " ++ found.name
  | keyNotText found => "dict key must be str, found " ++ found.name
  | arity expected found =>
    "expected " ++ toString expected ++ " elements, found " ++ toString found
  | rowNotList row found => "row " ++ toString row ++ " is a " ++ found.name ++ ", not a list"
  | raggedRow row found expected =>
    "row " ++ toString row ++ " has " ++ toString found ++ " columns, expected " ++
      toString expected
  | nestedObject => "object references cannot be decoded from a literal"
  | emptyAccessor => "empty accessor"
  | noObject => "host returned None, not an object"
  | multilineAccessor => "accessor spans multiple lines"

/-- A text that could not be decoded. The host has already evaluated the request that it answers. -/
structure DecodeError where
  /-- The text as it was received. -/
  text : String
  expected : Kind
  /-- The place in the text, in bytes. -/
  offset : Nat
  reason : Mismatch

def DecodeError.message (e : DecodeError) : String :=
  "cannot decode " ++ Text.quoted e.text ++ " as " ++ e.expected.text ++ " at offset " ++
    toString e.offset ++ ": " ++ e.reason.message

namespace Literal

/-- The greatest integer up to which all integers are floats. -/
def greatestExactInteger : Nat := 0x20000000000000

/-- The low 64 bits of an integer, read with their sign. -/
def narrow (i : Int) : Int :=
  i.bmod 0x10000000000000000

/-- Integers of a range are kept as they are. -/
theorem narrow_of_contains {range : IntegerRange} {i : Int} (h : range.contains i = true) :
    narrow i = i := by
  obtain ⟨hlow, hhigh⟩ := range.word_of_contains h
  exact Int.bmod_eq_of_le (by omega) (by omega)

/-- An integer in the range. A literal has up to 128 bits, a value has 64. -/
def toInteger (range : IntegerRange) (i : Int) : Except Mismatch Value :=
  if range.contains i then .ok (.integer (narrow i)) else .error (.outOfRange i range)

/-- The strings in a list of literals. -/
def toNames : List Literal → Except Mismatch (List String)
  | [] => .ok []
  | str s :: rest => do
    let names ← toNames rest
    .ok (s :: names)
  | other :: _ => .error (.memberNotText other.shape)

/-- A set of names, in any order and with repetitions. -/
def toNameSet (items : List Literal) : Except Mismatch Value := do
  let names ← toNames items
  .ok (.enumSet (.ofList names))

def convertAll (convert : Literal → Except Mismatch Value) :
    List Literal → Except Mismatch (List Value)
  | [] => .ok []
  | item :: rest => do
    let v ← convert item
    let vs ← convertAll convert rest
    .ok (v :: vs)

def convertEntries (convert : Literal → Except Mismatch Value) :
    List (Literal × Literal) → Except Mismatch (List (String × Value))
  | [] => .ok []
  | (str key, value) :: rest => do
    let v ← convert value
    let entries ← convertEntries convert rest
    .ok ((key, v) :: entries)
  | (other, _) :: _ => .error (.keyNotText other.shape)

/-- Converts the rows of a matrix in order; `row` is the number of the first one. All must be as
long as the first row was, whose length `width?` is given from the second row on. -/
def convertRows (convert : Literal → Except Mismatch Value) :
    (row : Nat) → (width? : Option Nat) → List Literal → Except Mismatch (List (List Value))
  | _, _, [] => .ok []
  | row, width?, list cells :: rest =>
    let width := width?.getD cells.length
    if cells.length = width then do
      let vs ← convertAll convert cells
      let rows ← convertRows convert (row + 1) (some width) rest
      .ok (vs :: rows)
    else .error (.raggedRow row cells.length width)
  | row, _, other :: _ => .error (.rowNotList row other.shape)

def width : List (List Value) → Nat
  | [] => 0
  | row :: _ => row.length

/-- In a container, a missing value may stand for an item of any kind. -/
def orNull (convert : Literal → Except Mismatch Value) : Literal → Except Mismatch Value
  | none => .ok .null
  | literal => convert literal

mutual

/-- The value that a literal denotes by itself. A list is an array and a set is a set of names. -/
def toAny (range : IntegerRange) : Literal → Except Mismatch Value
  | none => .ok .null
  | bool b => .ok (.boolean b)
  | int i => toInteger range i
  | float x => .ok (.float x)
  | str s => .ok (.string s)
  | list items => do
    let vs ← toAnyAll range items
    .ok (.array vs)
  | tuple items => do
    let vs ← toAnyAll range items
    .ok (.tuple vs)
  | set items => toNameSet items
  | dict entries => do
    let vs ← toAnyEntries range entries
    .ok (.table vs)

def toAnyAll (range : IntegerRange) : List Literal → Except Mismatch (List Value)
  | [] => .ok []
  | item :: rest => do
    let v ← toAny range item
    let vs ← toAnyAll range rest
    .ok (v :: vs)

def toAnyEntries (range : IntegerRange) :
    List (Literal × Literal) → Except Mismatch (List (String × Value))
  | [] => .ok []
  | (str key, value) :: rest => do
    let v ← toAny range value
    let entries ← toAnyEntries range rest
    .ok ((key, v) :: entries)
  | (other, _) :: _ => .error (.keyNotText other.shape)

end

mutual

/-- The value of the given kind that a literal denotes. -/
def convert (range : IntegerRange) : Kind → Literal → Except Mismatch Value
  | .any, literal => toAny range literal
  | .null, none => .ok .null
  | .boolean, bool b => .ok (.boolean b)
  | .integer, int i => toInteger range i
  | .float, float x => .ok (.float x)
  | .float, int i =>
    if i.natAbs ≤ greatestExactInteger then .ok (.float (.ofInt i)) else .error (.inexactFloat i)
  | .string, str s => .ok (.string s)
  | .enum, str s => .ok (.enum s)
  | .enumSet, set items | .enumSet, list items | .enumSet, tuple items => toNameSet items
  | .array item, list items | .array item, tuple items => do
    let vs ← convertAll (orNull (convert range item)) items
    .ok (.array vs)
  | .matrix item, list rows => do
    let vs ← convertRows (orNull (convert range item)) 0 Option.none rows
    .ok (.matrix ⟨rows.length, width vs, vs.flatten⟩)
  | .tuple kinds, tuple items | .tuple kinds, list items =>
    if items.length = kinds.length then do
      let vs ← convertEach range kinds items
      .ok (.tuple vs)
    else .error (.arity kinds.length items.length)
  | .dict value, dict entries => do
    let vs ← convertEntries (orNull (convert range value)) entries
    .ok (.table vs)
  | .object, _ => .error .nestedObject
  | kind, literal => .error (.wrongShape kind literal.shape)

/-- Converts each item to the kind of its position. -/
def convertEach (range : IntegerRange) :
    List Kind → List Literal → Except Mismatch (List Value)
  | kind :: kinds, item :: rest => do
    let v ← convert range kind item
    let vs ← convertEach range kinds rest
    .ok (v :: vs)
  | _, _ => .ok []

end

end Literal

/-- The handle of the object that a text gives access to. The text must be a single line and must
not be the host's word for the absence of a value. -/
def decodeHandle (text : String) : Except DecodeError Handle :=
  let accessor := Text.trim text.toList
  let fail (offset : Nat) (reason : Mismatch) : Except DecodeError Handle :=
    .error ⟨text, .object, offset, reason⟩
  if accessor.isEmpty then fail 0 .emptyAccessor
  else if accessor = Literal.renderNone then fail 0 .noObject
  else if accessor.any Text.isLineBreak then
    fail (Text.byteLength (accessor.takeWhile fun c => !Text.isLineBreak c)) .multilineAccessor
  else .ok ⟨String.ofList accessor⟩

/-- The value of the expected kind that a text denotes. -/
def decode (config : Config) (kind : Kind) (text : String) : Except DecodeError Value :=
  match kind with
  | .object =>
    if Text.trim text.toList = Literal.renderNone then .ok .null
    else do
      let h ← decodeHandle text
      .ok (.handle h)
  | kind =>
    match Literal.parse config.maxDepth text with
    | .error e => .error ⟨text, kind, e.offset, .notLiteral e.reason⟩
    | .ok literal =>
      match literal.convert config.integerRange kind with
      | .error reason => .error ⟨text, kind, 0, reason⟩
      | .ok v => .ok v

/-- The value that a text denotes by itself. -/
def decodeAny (config : Config) (text : String) : Except DecodeError Value :=
  decode config .any text

end LiteralBridge
