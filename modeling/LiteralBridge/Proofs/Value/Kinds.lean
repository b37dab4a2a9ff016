import LiteralBridge.Decode
import LiteralBridge.Proofs.Value.Tree

/-! # Kinds of values

`HasKind` says, without the decoder, which values a kind expects. Of every kind but that of objects
there are only data. -/

namespace LiteralBridge.Value

/-- The value is of the kind. In a list, a matrix or a table any item may be null, in a tuple only
an item whose kind is null. -/
inductive HasKind : Value → Kind → Prop
  | null : HasKind null .null
  | undefined : HasKind undefined .null
  | boolean {b : Bool} : HasKind (boolean b) .boolean
  | integer {i : Int} : HasKind (integer i) .integer
  | float {x : Binary64} : HasKind (float x) .float
  | string {s : String} : HasKind (string s) .string
  | enum {name : String} : HasKind (enum name) .enum
  | enumSet {names : NameSet} : HasKind (enumSet names) .enumSet
  | array {items : List Value} {kind : Kind}
      (h : ∀ item ∈ items, item.isNull = false → HasKind item kind) :
      HasKind (array items) (.array kind)
  | matrix {rows cols : Nat} {items : List Value} {kind : Kind}
      (h : ∀ item ∈ items, item.isNull = false → HasKind item kind) :
      HasKind (matrix ⟨rows, cols, items⟩) (.matrix kind)
  | tuple {items : List Value} {kinds : List Kind} (hl : items.length = kinds.length)
      (h : ∀ (i : Nat) item kind, items[i]? = some item → kinds[i]? = some kind → HasKind item kind) :
      HasKind (tuple items) (.tuple kinds)
  | dict {entries : List (String × Value)} {kind : Kind}
      (h : ∀ entry ∈ entries, entry.2.isNull = false → HasKind entry.2 kind) :
      HasKind (dict entries) (.dict kind)
  | anyNull : HasKind null .any
  | anyUndefined : HasKind undefined .any
  | anyBoolean {b : Bool} : HasKind (boolean b) .any
  | anyInteger {i : Int} : HasKind (integer i) .any
  | anyFloat {x : Binary64} : HasKind (float x) .any
  | anyString {s : String} : HasKind (string s) .any
  | anyEnumSet {names : NameSet} : HasKind (enumSet names) .any
  | anyArray {items : List Value} (h : ∀ item ∈ items, HasKind item .any) :
      HasKind (array items) .any
  | anyTuple {items : List Value} (h : ∀ item ∈ items, HasKind item .any) :
      HasKind (tuple items) .any
  | anyDict {entries : List (String × Value)} (h : ∀ entry ∈ entries, HasKind entry.2 .any) :
      HasKind (dict entries) .any

/-- What holds of nulls, given or not, need be shown of other items only. -/
theorem everywhere_orNull {p : Value → Prop} (hn : p null) (hu : p undefined) {v : Value}
    (h : v.isNull = false → v.Everywhere p) : v.Everywhere p := by
  cases v with
  | null => exact hn
  | undefined => exact hu
  | _ => exact h rfl

/-- An item of a tuple has the kind of its place. -/
theorem exists_kind_of_mem {items : List Value} {kinds : List Kind}
    (hl : items.length = kinds.length) {item : Value} (h : item ∈ items) :
    ∃ (i : Nat) (kind : Kind), items[i]? = some item ∧ kinds[i]? = some kind := by
  obtain ⟨i, hi, hitem⟩ := List.mem_iff_getElem.mp h
  refine ⟨i, kinds[i], ?_, List.getElem?_eq_getElem _⟩
  rw [List.getElem?_eq_getElem hi, hitem]

/-- A value of a kind is data throughout. -/
theorem HasKind.everywhere_isData {v : Value} {kind : Kind} (h : v.HasKind kind) :
    v.Everywhere IsData := by
  have orNull {item : Value} (h : item.isNull = false → item.Everywhere IsData) :
      item.Everywhere IsData := everywhere_orNull trivial trivial h
  induction h with
  | null => trivial
  | undefined => trivial
  | boolean => trivial
  | integer => trivial
  | float => trivial
  | string => trivial
  | enum => trivial
  | enumSet => trivial
  | array h ih => exact ⟨trivial, everywhereAll_iff.mpr fun item hi => orNull (ih item hi)⟩
  | matrix h ih => exact ⟨trivial, everywhereAll_iff.mpr fun item hi => orNull (ih item hi)⟩
  | tuple hl h ih =>
    refine ⟨trivial, everywhereAll_iff.mpr fun item hi => ?_⟩
    obtain ⟨i, kind, hitem, hkind⟩ := exists_kind_of_mem hl hi
    exact ih i item kind hitem hkind
  | dict h ih =>
    exact ⟨trivial, everywhereEntries_iff.mpr fun entry he => orNull (ih entry he)⟩
  | anyNull => trivial
  | anyUndefined => trivial
  | anyBoolean => trivial
  | anyInteger => trivial
  | anyFloat => trivial
  | anyString => trivial
  | anyEnumSet => trivial
  | anyArray h ih => exact ⟨trivial, everywhereAll_iff.mpr ih⟩
  | anyTuple h ih => exact ⟨trivial, everywhereAll_iff.mpr ih⟩
  | anyDict h ih => exact ⟨trivial, everywhereEntries_iff.mpr ih⟩

end LiteralBridge.Value
