import LiteralBridge.Text.Numeral

/-!
# Message identifiers

A message is identified by 128 bits, written as thirty-two hexadecimal digits in five groups. The
digits are read in either case, without hyphens, between braces, or as a resource name, whose scheme
and namespace are read in either case too (`URN:UUID:` as `urn:uuid:`).
-/

namespace LiteralBridge

structure MessageId where
  bits : BitVec 128
deriving DecidableEq

namespace MessageId

open Text

/-- The digits in groups of eight, four, four, four and twelve. -/
def hyphenated (digits : List Char) : List Char :=
  digits.take 8 ++ '-' :: (digits.drop 8).take 4 ++ '-' :: (digits.drop 12).take 4 ++
    '-' :: (digits.drop 16).take 4 ++ '-' :: digits.drop 20

/-- The canonical text of an identifier. -/
def render (id : MessageId) : List Char :=
  hyphenated (hexDigits 32 id.bits.toNat)

def text (id : MessageId) : String :=
  String.ofList id.render

def display (id : MessageId) : String :=
  "Msg(" ++ id.text ++ ")"

def ofDigits? (digits : List Char) : Option MessageId :=
  if digits.length = 32 then (readHex digits).map fun n => ⟨BitVec.ofNat 128 n⟩ else none

def ofHyphenated? (cs : List Char) : Option MessageId :=
  let digits := cs.filter (· != '-')
  if cs = hyphenated digits then ofDigits? digits else none

/-- What stands between braces. -/
def betweenBraces? : List Char → Option (List Char)
  | '{' :: rest => if rest.getLast? = some '}' then some rest.dropLast else none
  | _ => none

/-- What stands after the scheme and namespace of a resource name. -/
def afterUrn? (cs : List Char) : Option (List Char) :=
  if (cs.take 9).map Char.toLower = "urn:uuid:".toList then some (cs.drop 9) else none

def ofChars? (cs : List Char) : Option MessageId :=
  match afterUrn? cs with
  | some rest => ofHyphenated? rest
  | none =>
    match betweenBraces? cs with
    | some inner => ofHyphenated? inner
    | none => (ofDigits? cs).or (ofHyphenated? cs)

def ofText? (text : String) : Option MessageId :=
  ofChars? text.toList

end MessageId

end LiteralBridge
