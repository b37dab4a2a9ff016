import LiteralBridge.Value.Entries
import LiteralBridge.Value.NameSet

/-! # Tables and sets of names in order

What is in order already is the table, or the set, that its list means. -/

namespace LiteralBridge

namespace Entries

variable {α β : Type}

theorem sorted_map {entries : List (String × α)} (h : Sorted entries) (f : α → β) :
    Sorted (entries.map fun entry => (entry.1, f entry.2)) :=
  List.pairwise_map.mpr h

theorem insert_of_forall_lt {key : String} (value : α) {entries : List (String × α)}
    (h : ∀ entry ∈ entries, entry.1 < key) :
    insert key value entries = entries ++ [(key, value)] := by
  induction entries with
  | nil => rfl
  | cons entry rest ih =>
    obtain ⟨k, v⟩ := entry
    obtain ⟨hk, hrest⟩ := List.forall_mem_cons.mp h
    have hge : ¬ key < k := fun hlt => String.lt_irrefl _ (String.lt_trans hlt hk)
    have hne : key ≠ k := by
      rintro rfl
      exact String.lt_irrefl _ hk
    rw [insert, if_neg hge, if_neg hne, ih hrest, List.cons_append]

theorem insertAll_of_sorted {table entries : List (String × α)} (h : Sorted (table ++ entries)) :
    insertAll table entries = table ++ entries := by
  induction entries generalizing table with
  | nil => exact (List.append_nil table).symm
  | cons entry rest ih =>
    obtain ⟨key, value⟩ := entry
    have hlt : ∀ e ∈ table, e.1 < key := fun e he =>
      (List.pairwise_append.mp h).2.2 e he (key, value) List.mem_cons_self
    rw [insertAll, insert_of_forall_lt value hlt, ih]
    · simp
    · simpa using h

/-- A table in order is the table of its entries. -/
theorem ofList_of_sorted {entries : List (String × α)} (h : Sorted entries) :
    ofList entries = entries :=
  @insertAll_of_sorted α [] entries h

theorem mem_insertAll {table entries : List (String × α)} {entry : String × α}
    (h : entry ∈ insertAll table entries) : entry ∈ table ∨ entry ∈ entries := by
  induction entries generalizing table with
  | nil => exact .inl h
  | cons head rest ih =>
    obtain ⟨key, value⟩ := head
    rcases ih h with h | h
    · rcases mem_insert h with rfl | h
      · exact .inr List.mem_cons_self
      · exact .inl h
    · exact .inr (List.mem_cons_of_mem _ h)

/-- A table holds nothing but entries of its list. -/
theorem forall_mem_ofList {p : String × α → Prop} {entries : List (String × α)}
    (h : ∀ entry ∈ entries, p entry) : ∀ entry ∈ ofList entries, p entry :=
  fun entry he => h entry ((mem_insertAll he).resolve_left List.not_mem_nil)

end Entries

/-- A set is the set of its names. -/
theorem NameSet.ofList_names (set : NameSet) : NameSet.ofList set.names = set :=
  ext_mem fun _ => mem_ofList

end LiteralBridge
