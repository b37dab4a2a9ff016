import LiteralBridge.Config.Basic
import LiteralBridge.Literal.Render
import LiteralBridge.Value.Matrix

/-!
# Writing values for the host

A value is written as a literal, or the whole of it is refused. Accessors of handles are copied as
they are. Containers may nest as deep as the configuration allows: `room` counts the levels that are
left.
-/

namespace LiteralBridge

open Literal (render renderAll bracketed parenthesized renderSet renderEntry renderNone renderBool renderFloat
  renderString)

/-- Why a value, or a name, has no place in a request. -/
inductive EncodeError where
  | function (name : String)
  | outOfRange (i : Int) (range : IntegerRange)
  /-- The items of an array or a matrix have two different kinds. -/
  | mixedItems (first other : Tag)
  | matrixShape (rows cols count : Nat)
  | notIdentifier (name : String)
  | tooDeep (limit : Nat)
deriving DecidableEq

def EncodeError.message : EncodeError → String
  | function name => "function `" ++ name ++ "` cannot be encoded as a host literal"
  | outOfRange i range =>
    "integer " ++ String.ofList (Text.decimalInt i) ++ " is outside the " ++ range.name ++ " range"
  | mixedItems first other => "array mixes " ++ first.name ++ " and " ++ other.name ++ " elements"
  | matrixShape rows cols count =>
    "matrix shape " ++ toString rows ++ "x" ++ toString cols ++ " does not match " ++
      toString count ++ " items"
  | notIdentifier name => "`" ++ name ++ "` is not a valid host identifier"
  | tooDeep limit => "value nesting exceeds the limit of " ++ toString limit

/-- The attribute `field` of an object, whose name must be an identifier. -/
def Handle.child (h : Handle) (field : String) : Except EncodeError Handle :=
  match h.child? field with
  | some child => .ok child
  | none => .error (.notIdentifier field)

def Handle.key (h : Handle) (key : String) : Handle :=
  h.subscript (String.ofList (renderString key))

/-- An integer in the range. -/
def encodeInteger (range : IntegerRange) (i : Int) : Except EncodeError (List Char) :=
  if range.contains i then .ok (Text.decimalInt i) else .error (.outOfRange i range)

/-- A set of names, in order. -/
def renderNames (names : NameSet) : List Char :=
  renderSet (names.names.map renderString)

/-- A set of names is written as the literal of the set. -/
theorem renderNames_eq_render (names : NameSet) :
    renderNames names = (Literal.set (names.names.map .str)).render := by
  have hitems (items : List String) : renderAll (items.map .str) = items.map renderString := by
    induction items with
    | nil => rfl
    | cons name rest ih => rw [List.map_cons, renderAll, ih, render, List.map_cons]
  rw [renderNames, render, hitems]

/-- The levels left inside a container. -/
def descend (limit : Nat) : (room : Nat) → Except EncodeError Nat
  | 0 => .error (.tooDeep limit)
  | room + 1 => .ok room

/-- Items that are not null have one kind; otherwise the first kind and the first that differs from
it are reported. -/
def checkUniform (items : List Value) : Except EncodeError Unit :=
  match (items.filter fun v => !v.isNull).map Value.tag with
  | [] => .ok ()
  | first :: rest =>
    match rest.find? fun tag => tag != first with
    | none => .ok ()
    | some other => .error (.mixedItems first other)

/-- The items fill the shape, and a matrix without rows has no columns either, since nothing would
be written of them. -/
def checkShape (m : Matrix Value) : Except EncodeError Unit :=
  if m.isWellFormed && !(m.rows == 0 && m.cols != 0) then .ok ()
  else .error (.matrixShape m.rows m.cols m.items.length)

/-- The written items of a matrix, gathered into rows. -/
def renderRows (cols : Nat) : (rows : Nat) → List (List Char) → List (List Char)
  | 0, _ => []
  | rows + 1, items => bracketed '[' ']' (items.take cols) :: renderRows cols rows (items.drop cols)

namespace Value

mutual

/-- Writes a value whose containers may nest `room` deep. -/
def write (config : Config) (room : Nat) : Value → Except EncodeError (List Char)
  | null | undefined => .ok renderNone
  | boolean b => .ok (renderBool b)
  | integer i => encodeInteger config.integerRange i
  | float x => .ok (renderFloat x)
  | string s | enum s => .ok (renderString s)
  | enumSet names =>
    if names.names.isEmpty then .ok (renderNames names)
    else do
      let _ ← descend config.maxDepth room
      .ok (renderNames names)
  | array items => do
    let room ← descend config.maxDepth room
    checkUniform items
    let parts ← writeAll config room items
    .ok (bracketed '[' ']' parts)
  | tuple items => do
    let room ← descend config.maxDepth room
    let parts ← writeAll config room items
    .ok (parenthesized parts)
  | matrix ⟨rows, cols, items⟩ => do
    let room ← descend config.maxDepth room
    checkShape ⟨rows, cols, items⟩
    checkUniform items
    if rows = 0 then .ok (bracketed '[' ']' [])
    else
      let room ← descend config.maxDepth room
      let parts ← writeAll config room items
      .ok (bracketed '[' ']' (renderRows cols rows parts))
  | dict entries => do
    let room ← descend config.maxDepth room
    let parts ← writeEntries config room entries
    .ok (bracketed '{' '}' parts)
  | handle h => .ok h.accessor.toList
  | function name => .error (.function name)

def writeAll (config : Config) (room : Nat) : List Value → Except EncodeError (List (List Char))
  | [] => .ok []
  | v :: rest => do
    let part ← write config room v
    let parts ← writeAll config room rest
    .ok (part :: parts)

def writeEntries (config : Config) (room : Nat) :
    List (String × Value) → Except EncodeError (List (List Char))
  | [] => .ok []
  | (key, v) :: rest => do
    let part ← write config room v
    let parts ← writeEntries config room rest
    .ok (renderEntry (renderString key) part :: parts)

end

def encode (config : Config) (v : Value) : Except EncodeError String := do
  let text ← v.write config config.maxDepth
  .ok (String.ofList text)

end Value

def writeKeywords (config : Config) :
    List (String × Value) → Except EncodeError (List (List Char))
  | [] => .ok []
  | (name, v) :: rest =>
    if Text.isIdentifier name then do
      let part ← v.write config config.maxDepth
      let parts ← writeKeywords config rest
      .ok ((name.toList ++ '=' :: part) :: parts)
    else .error (.notIdentifier name)

/-- The argument list of a call: the positional arguments, then those with a name. -/
def encodeArguments (config : Config) (positional : List Value) (keyword : List (String × Value)) :
    Except EncodeError String := do
  let parts ← Value.writeAll config config.maxDepth positional
  let named ← writeKeywords config keyword
  .ok (String.ofList (Text.commaSeparated (parts ++ named)))

end LiteralBridge
