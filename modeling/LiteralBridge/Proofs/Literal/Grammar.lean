import LiteralBridge.Literal.Parse

/-! # The grammar of host literals

Which texts are literals and what they denote, without a reader. Each relation takes a text, what its
first part denotes and the text that follows, so that a rule can name the character where a token must
end. `Denotes room` is the whole grammar for literals in which brackets nest at most `room` deep. -/

namespace LiteralBridge.Literal.Grammar

open Text

/-- White space, and then `next`. -/
def Blanks (text next : List Char) : Prop :=
  ∃ blanks, (∀ c ∈ blanks, isBlank c = true) ∧ text = blanks ++ next

/-- The text does not begin with a character of the class. -/
def Stops (p : Char → Bool) (next : List Char) : Prop :=
  ∀ c ∈ next.head?, p c = false

/-! ## Strings -/

/-- The escapes of a single character. -/
def simpleEscapes : List (Char × Char) :=
  [('\\', '\\'), ('\'', '\''), ('"', '"'), ('n', '\n'), ('r', '\r'), ('t', '\t'), ('a', '\x07'),
    ('b', '\x08'), ('f', '\x0c'), ('v', '\x0b')]

def hexEscapes : List (Char × Nat) :=
  [('x', 2), ('u', 4), ('U', 8)]

def isOctalDigit (c : Char) : Bool :=
  (octalValue? c).isSome

/-- An escape from the character after its backslash on, and the characters it stands for. The
digits of a number are those of a code point. -/
inductive Escape : List Char → List Char → List Char → Prop
  | simple {c decoded : Char} {next : List Char} (h : (c, decoded) ∈ simpleEscapes) :
      Escape (c :: next) [decoded] next
  | continuedLine {next : List Char} : Escape ('\n' :: next) [] next
  | octal {digits next : List Char} {decoded : Char} (pos : 1 ≤ digits.length)
      (le : digits.length ≤ 3) (code : readDigits octalValue? 8 0 digits = some decoded.toNat)
      (longest : digits.length < 3 → Stops isOctalDigit next) :
      Escape (digits ++ next) [decoded] next
  | hex {letter : Char} {digits next : List Char} {decoded : Char}
      (h : (letter, digits.length) ∈ hexEscapes) (code : readHex digits = some decoded.toNat) :
      Escape (letter :: (digits ++ next)) [decoded] next

/-- The inside of a string and the quote that ends it. -/
inductive Inside (quote : Char) : List Char → List Char → List Char → Prop
  | close {next : List Char} : Inside quote (quote :: next) [] next
  | plain {c : Char} {text content next : List Char} (hq : c ≠ quote) (hb : c ≠ '\\')
      (hl : isLineBreak c = false) (h : Inside quote text content next) :
      Inside quote (c :: text) (c :: content) next
  | escape {text decoded rest content next : List Char} (he : Escape text decoded rest)
      (h : Inside quote rest content next) : Inside quote ('\\' :: text) (decoded ++ content) next

/-- A string between single or double quotes. -/
def Quoted (text : List Char) (s : String) (next : List Char) : Prop :=
  ∃ quote inside, (quote = '"' ∨ quote = '\'') ∧ text = quote :: inside ∧
    Inside quote inside s.toList next

/-! ## Numbers -/

/-- A minus sign, or nothing. -/
def minus (negative : Bool) : List Char :=
  if negative then ['-'] else []

def Digits (digits : List Char) : Prop :=
  digits ≠ [] ∧ ∀ c ∈ digits, c.isDigit = true

/-- The integer with the given sign and digits. -/
def signed (negative : Bool) (digits : List Char) : Int :=
  if negative then -ofDecimal digits else ofDecimal digits

/-- A fraction, which may have no digits after its point, or nothing. -/
inductive Fraction : Option (List Char) → List Char → Prop
  | absent : Fraction Option.none []
  | digits {digits : List Char} (h : ∀ c ∈ digits, c.isDigit = true) :
      Fraction (some digits) ('.' :: digits)

/-- An exponent, whose sign may be left out if it is a plus, or nothing. -/
inductive Exponent : Option (Bool × List Char) → List Char → Prop
  | absent : Exponent Option.none []
  | unsigned {mark : Char} {digits : List Char} (hm : mark = 'e' ∨ mark = 'E')
      (hd : Digits digits) : Exponent (some (false, digits)) (mark :: digits)
  | signed {mark : Char} {negative : Bool} {digits : List Char} (hm : mark = 'e' ∨ mark = 'E')
      (hd : Digits digits) :
      Exponent (some (negative, digits)) (mark :: (if negative then '-' else '+') :: digits)

/-- A numeral without its sign: digits, a fraction and an exponent. -/
def Writes (text : List Char) (n : Numeral) : Prop :=
  Digits n.whole ∧ ∃ fraction exponent, Fraction n.fraction fraction ∧
    Exponent n.exponent exponent ∧ text = n.whole ++ (fraction ++ exponent)

/-- A number. Without fraction and exponent it is an integer of 128 bits, which begins with zero only
if all its digits are zero; else it is the float nearest to the decimal number written
(`Decimal.roundsTo_nearest`). -/
inductive Number : List Char → Literal → List Char → Prop
  | integer {negative : Bool} {digits next : List Char} (hd : Digits digits)
      (zeros : digits.head? = some '0' → ∀ c ∈ digits, c = '0')
      (fits : FitsInt (Grammar.signed negative digits)) (stop : Stops continuesNumber next) :
      Number (minus negative ++ (digits ++ next)) (.int (Grammar.signed negative digits)) next
  | float {negative : Bool} {n : Numeral} {text next : List Char} (h : Writes text n)
      (hf : n.isFloat = true) (stop : Stops continuesNumber next) :
      Number (minus negative ++ (text ++ next)) (.float (.ofWord negative n.decimal.nearest)) next

/-! ## Names and calls -/

/-- The argument of the call `float(...)`, trimmed and in lower case: a sign or none, and a word. -/
inductive SpecialFloat (argument : List Char) : Binary64 → Prop
  | infinity {word : List Char} (h : word = "inf".toList ∨ word = "infinity".toList)
      (ha : (trim argument).map lowerAscii = word ∨
        (trim argument).map lowerAscii = '+' :: word) : SpecialFloat argument (.infinity false)
  | negativeInfinity {word : List Char} (h : word = "inf".toList ∨ word = "infinity".toList)
      (ha : (trim argument).map lowerAscii = '-' :: word) : SpecialFloat argument (.infinity true)
  | nan {sign : List Char} (h : sign = [] ∨ sign = ['+'] ∨ sign = ['-'])
      (ha : (trim argument).map lowerAscii = sign ++ "nan".toList) : SpecialFloat argument .nan

def constants : List (String × Literal) :=
  [("None", .none), ("True", .bool true), ("False", .bool false),
    ("inf", .float (.infinity false)), ("nan", .float .nan)]

/-- A name, or a call with nothing between its name and the parenthesis. -/
inductive Name : List Char → Literal → List Char → Prop
  | constant {name : String} {literal : Literal} {next : List Char}
      (h : (name, literal) ∈ constants) (stop : Stops isNameRest next) :
      Name (name.toList ++ next) literal next
  | floatCall {text quoted after next : List Char} {argument : String} {x : Binary64}
      (hb : Blanks text quoted) (hq : Quoted quoted argument after) (ha : Blanks after (')' :: next))
      (hx : SpecialFloat argument.toList x) : Name ("float".toList ++ '(' :: text) (.float x) next
  | setCall {text next : List Char} (h : Blanks text (')' :: next)) :
      Name ("set".toList ++ '(' :: text) (.set []) next

/-- A literal without brackets. A minus sign may stand before a name only if it denotes a float. -/
inductive Scalar : List Char → Literal → List Char → Prop
  | name {text next : List Char} {literal : Literal} (h : Name text literal next) :
      Scalar text literal next
  | negated {text next : List Char} {x : Binary64} (h : Name text (.float x) next) :
      Scalar ('-' :: text) (.float x.neg) next
  | number {text next : List Char} {literal : Literal} (h : Number text literal next) :
      Scalar text literal next
  | string {text next : List Char} {s : String} (h : Quoted text s next) :
      Scalar text (.str s) next

/-! ## Brackets -/

/-- Items with commas between them, white space around each, and perhaps a comma after the last one.
The truth value says whether there is a comma. -/
inductive Separated {α : Type} (Item : List Char → α → List Char → Prop) :
    List Char → List α → Bool → List Char → Prop
  | nil {text next : List Char} (h : Blanks text next) : Separated Item text [] false next
  | last {text start after next : List Char} {x : α} (hb : Blanks text start)
      (hx : Item start x after) (ha : Blanks after next) : Separated Item text [x] false next
  | more {text start after rest next : List Char} {x : α} {xs : List α} {comma : Bool}
      (hb : Blanks text start) (hx : Item start x after) (ha : Blanks after (',' :: rest))
      (h : Separated Item rest xs comma next) : Separated Item text (x :: xs) true next

/-- An entry of a table: a key, a colon and a value. -/
def Entry (Item : List Char → Literal → List Char → Prop) (text : List Char)
    (entry : Literal × Literal) (next : List Char) : Prop :=
  ∃ after rest start, Item text entry.1 after ∧ Blanks after (':' :: rest) ∧ Blanks rest start ∧
    Item start entry.2 next

/-- A literal in brackets. Parentheses around a single item only group, unless it has a comma after
it; braces around nothing are a table. -/
inductive Bracketed (Item : List Char → Literal → List Char → Prop) :
    List Char → Literal → List Char → Prop
  | list {text next : List Char} {items : List Literal} {comma : Bool}
      (h : Separated Item text items comma (']' :: next)) :
      Bracketed Item ('[' :: text) (.list items) next
  | group {text next : List Char} {literal : Literal}
      (h : Separated Item text [literal] false (')' :: next)) :
      Bracketed Item ('(' :: text) literal next
  | tuple {text next : List Char} {items : List Literal} {comma : Bool}
      (h : Separated Item text items comma (')' :: next))
      (hc : items.length = 1 → comma = true) : Bracketed Item ('(' :: text) (.tuple items) next
  | set {text next : List Char} {items : List Literal} {comma : Bool}
      (h : Separated Item text items comma ('}' :: next)) (hne : items ≠ []) :
      Bracketed Item ('{' :: text) (.set items) next
  | dict {text next : List Char} {entries : List (Literal × Literal)} {comma : Bool}
      (h : Separated (Entry Item) text entries comma ('}' :: next)) :
      Bracketed Item ('{' :: text) (.dict entries) next

/-- A literal whose brackets nest at most `room` deep. -/
def Denotes : (room : Nat) → List Char → Literal → List Char → Prop
  | 0 => Scalar
  | room + 1 => fun text literal next =>
    Scalar text literal next ∨ Bracketed (Denotes room) text literal next

end LiteralBridge.Literal.Grammar
