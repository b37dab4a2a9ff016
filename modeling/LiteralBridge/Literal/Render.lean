import LiteralBridge.Binary64.Render
import LiteralBridge.Literal.Basic
import LiteralBridge.Text.Cut

/-!
# The canonical form of literals

How scalars are written, and with them whole literals: one space after a comma or a colon, double
quotes, and escapes for everything that could end a string or a line. A value on its way to the host
is written with the same forms of scalars.
-/

namespace LiteralBridge.Literal

open Text

/-- One character of a string: quotes, backslashes, control characters and the line separators of
Unicode are escaped. -/
def escapeChar (c : Char) : List Char :=
  if c = '\\' then ['\\', '\\']
  else if c = '"' then ['\\', '"']
  else if c = '\'' then ['\\', '\'']
  else if c = '\n' then ['\\', 'n']
  else if c = '\r' then ['\\', 'r']
  else if c = '\t' then ['\\', 't']
  else if isControl c then '\\' :: 'x' :: hexDigits 2 c.toNat
  else if c = '\u2028' ∨ c = '\u2029' then '\\' :: 'u' :: hexDigits 4 c.toNat
  else [c]

def renderString (s : String) : List Char :=
  '"' :: (s.toList.flatMap escapeChar ++ ['"'])

def renderNone : List Char :=
  "None".toList

def renderBool (b : Bool) : List Char :=
  if b then "True".toList else "False".toList

/-- A float with enough digits to recover it. What no numeral denotes is written as a call. -/
def renderFloat (x : Binary64) : List Char :=
  if x.isNaN then "float('nan')".toList
  else if x.isFinite then x.renderFinite Binary64.hostFormat
  else if x.negative then "float('-inf')".toList
  else "float('inf')".toList

/-- Items between brackets. -/
def bracketed (opening closing : Char) (items : List (List Char)) : List Char :=
  opening :: (commaSeparated items ++ [closing])

/-- Items between parentheses. A single item keeps a comma, without which the parentheses would
only group. -/
def parenthesized : List (List Char) → List Char
  | [item] => '(' :: (item ++ [',', ')'])
  | items => bracketed '(' ')' items

/-- Items between braces. The set without items is a call, because empty braces are a table. -/
def renderSet : List (List Char) → List Char
  | [] => "set()".toList
  | items => bracketed '{' '}' items

def renderEntry (key value : List Char) : List Char :=
  key ++ ':' :: ' ' :: value

mutual

/-- The canonical form of a literal. -/
def render : Literal → List Char
  | none => renderNone
  | bool b => renderBool b
  | int i => decimalInt i
  | float x => renderFloat x
  | str s => renderString s
  | list items => bracketed '[' ']' (renderAll items)
  | tuple items => parenthesized (renderAll items)
  | set items => renderSet (renderAll items)
  | dict entries => bracketed '{' '}' (renderEntries entries)

def renderAll : List Literal → List (List Char)
  | [] => []
  | literal :: rest => render literal :: renderAll rest

def renderEntries : List (Literal × Literal) → List (List Char)
  | [] => []
  | (key, value) :: rest => renderEntry (render key) (render value) :: renderEntries rest

end

def source (literal : Literal) : String :=
  String.ofList literal.render

end LiteralBridge.Literal
