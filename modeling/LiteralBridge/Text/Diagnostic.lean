import LiteralBridge.Text.Hidden
import LiteralBridge.Text.Numeral

/-!
# Texts and characters in diagnostics

A message quotes the text it speaks of so that the reader sees where it starts and ends: between
double quotes (`quoted`), or single quotes for one character (`quotedChar`). The quote in use and
the backslash are escaped, and a character that cannot be shown by itself is spelled by number.
-/

namespace LiteralBridge.Text

/-- How one character stands inside the given quotes. -/
def diagnosticChar (quote c : Char) : List Char :=
  if c = '\x00' then ['\\', '0']
  else if c = '\t' then ['\\', 't']
  else if c = '\r' then ['\\', 'r']
  else if c = '\n' then ['\\', 'n']
  else if c = '\\' ∨ c = quote then ['\\', c]
  else if isHidden c then '\\' :: 'u' :: '{' :: (hex c.toNat ++ ['}'])
  else [c]

def quoted (text : String) : String :=
  String.ofList ('"' :: (text.toList.flatMap (diagnosticChar '"') ++ ['"']))

def quotedChar (c : Char) : String :=
  String.ofList ('\'' :: (diagnosticChar '\'' c ++ ['\'']))

end LiteralBridge.Text
