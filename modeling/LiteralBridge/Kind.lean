import LiteralBridge.Text.Cut

/-!
# Kinds

The kind that a caller expects the host's text to have. Decoding is directed by it.
-/

namespace LiteralBridge

/-- An expected kind of value. -/
inductive Kind where
  /-- Whatever the text denotes. -/
  | any
  | null
  | boolean
  | integer
  | float
  | string
  /-- The name of a member of a host enumeration. -/
  | enum
  /-- A set of such names. -/
  | enumSet
  /-- A list with items of one kind. -/
  | array (item : Kind)
  /-- A rectangular list of lists. -/
  | matrix (item : Kind)
  /-- A sequence with a kind for each position. -/
  | tuple (items : List Kind)
  /-- A table from strings to values of one kind. -/
  | dict (value : Kind)
  /-- An object in the host; its text is an accessor. -/
  | object

namespace Kind

mutual

def display : Kind → List Char
  | any => "any".toList
  | null => "null".toList
  | boolean => "bool".toList
  | integer => "int".toList
  | float => "float".toList
  | string => "str".toList
  | enum => "enum".toList
  | enumSet => "enumset".toList
  | array item => "list[".toList ++ display item ++ [']']
  | matrix item => "matrix[".toList ++ display item ++ [']']
  | tuple items => "tuple[".toList ++ Text.commaSeparated (displayAll items) ++ [']']
  | dict value => "dict[str, ".toList ++ display value ++ [']']
  | object => "object".toList

def displayAll : List Kind → List (List Char)
  | [] => []
  | kind :: rest => display kind :: displayAll rest

end

def text (kind : Kind) : String :=
  String.ofList kind.display

/-- The kind with a short name, as the command line takes it. -/
def ofName? : String → Option Kind
  | "any" => some any
  | "null" | "none" => some null
  | "bool" => some boolean
  | "int" => some integer
  | "float" => some float
  | "str" => some string
  | "enum" => some enum
  | "enumset" => some enumSet
  | "list" => some (array any)
  | "dict" => some (dict any)
  | "object" => some object
  | _ => none

end Kind

end LiteralBridge
