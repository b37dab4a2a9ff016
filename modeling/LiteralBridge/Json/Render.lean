import LiteralBridge.Binary64.Render
import LiteralBridge.Json.Basic

/-!
# The compact form of JSON documents

No white space, members in the order in which they are listed, and in strings only those characters
escaped that must be.
-/

namespace LiteralBridge.Json

open Text

/-- One character of a string. -/
def escapeChar (c : Char) : List Char :=
  if c = '"' then ['\\', '"']
  else if c = '\\' then ['\\', '\\']
  else if c = '\x08' then ['\\', 'b']
  else if c = '\t' then ['\\', 't']
  else if c = '\n' then ['\\', 'n']
  else if c = '\x0c' then ['\\', 'f']
  else if c = '\r' then ['\\', 'r']
  else if c.toNat < 32 then '\\' :: 'u' :: hexDigits 4 c.toNat
  else [c]

def renderString (s : String) : List Char :=
  '"' :: (s.toList.flatMap escapeChar ++ ['"'])

/-- A number. Floats keep a point or an exponent, which tells them from integers. -/
def renderNumber : JsonNumber → List Char
  | .integer i _ => decimalInt i
  | .float x _ => x.renderFinite Binary64.jsonFormat

/-- Texts with a comma between neighbours. -/
def joined : List (List Char) → List Char
  | [] => []
  | [part] => part
  | part :: next :: rest => part ++ ',' :: joined (next :: rest)

mutual

/-- The compact form of a document. -/
def render : Json → List Char
  | null => "null".toList
  | bool b => if b then "true".toList else "false".toList
  | number n => renderNumber n
  | string s => renderString s
  | array items => '[' :: (joined (renderItems items) ++ [']'])
  | object members => '{' :: (joined (renderMembers members) ++ ['}'])

def renderItems : List Json → List (List Char)
  | [] => []
  | item :: rest => render item :: renderItems rest

def renderMembers : List (String × Json) → List (List Char)
  | [] => []
  | (key, value) :: rest => (renderString key ++ ':' :: render value) :: renderMembers rest

end

def text (j : Json) : String :=
  String.ofList j.render

end LiteralBridge.Json
