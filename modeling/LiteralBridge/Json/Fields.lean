import LiteralBridge.Json.Read

/-!
# Records in JSON

A record is written as an object with a member for each field, or as an array of the fields in
order. These are the pieces that the readers of single records share.
-/

namespace LiteralBridge.Json

/-- Reads a value into a field that must not be set yet. -/
def readOnce {α : Type} (read : Reader α) (field : Option α) : Reader (Option α) :=
  match field with
  | some _ => fun _ => none
  | none => fun cs => (read cs).map fun (a, after) => (some a, after)

/-- Reads the bracket before the fields of a record: whether it opens an object or an array. -/
def readOpening (cs : List Symbol) : Option (Bool × List Symbol) :=
  match skipSpace cs with
  | .char c :: rest =>
    if c = '{' then some (true, rest) else if c = '[' then some (false, rest) else none
  | _ => none

/-- Reads a choice written as an object with a single member, whose key says which. -/
def readVariant {α : Type} (variant : String → Reader α) : Reader α := fun cs => do
  let body ← readChar '{' cs
  let (key, afterKey) ← readString body
  let afterColon ← readChar ':' afterKey
  let (a, afterValue) ← variant key afterColon
  let after ← readChar '}' afterValue
  some (a, after)

end LiteralBridge.Json
