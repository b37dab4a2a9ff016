/-!
# Entries in key order

A table is a list of entries whose keys increase in code point order. `insert` keeps that order
(`sorted_insert`) and an entry inserted later replaces an earlier one with its key, so `ofList`
turns any list of entries into the table it means: each key with the last value it was given
(`lookup_ofList`).
-/

namespace LiteralBridge

namespace Entries

variable {α : Type u}

/-- The keys increase, so no key occurs twice. -/
def Sorted (entries : List (String × α)) : Prop :=
  entries.Pairwise fun a b => a.1 < b.1

/-- Puts a value under a key, in place of the value that was there. -/
def insert (key : String) (value : α) : List (String × α) → List (String × α)
  | [] => [(key, value)]
  | (k, v) :: rest =>
    if key < k then (key, value) :: (k, v) :: rest
    else if key = k then (key, value) :: rest
    else (k, v) :: insert key value rest

def insertAll (table : List (String × α)) : List (String × α) → List (String × α)
  | [] => table
  | (key, value) :: rest => insertAll (insert key value table) rest

/-- The table of a list of entries, in which the last value of a key counts. -/
def ofList (entries : List (String × α)) : List (String × α) :=
  insertAll [] entries

/-- Insertion brings in no entry but the new one. -/
theorem mem_insert {key : String} {value : α} {entries : List (String × α)} {entry : String × α}
    (h : entry ∈ insert key value entries) : entry = (key, value) ∨ entry ∈ entries := by
  induction entries with
  | nil => exact .inl (List.mem_singleton.mp h)
  | cons head rest ih =>
    obtain ⟨k, v⟩ := head
    rw [insert] at h
    split at h
    · exact List.mem_cons.mp h
    · split at h
      · exact (List.mem_cons.mp h).imp_right (List.mem_cons_of_mem _)
      · rcases List.mem_cons.mp h with rfl | h
        · exact .inr (List.mem_cons_self ..)
        · exact (ih h).imp_right (List.mem_cons_of_mem _)

/-- Insertion keeps the order of the keys. -/
theorem sorted_insert {key : String} {value : α} {entries : List (String × α)}
    (h : Sorted entries) : Sorted (insert key value entries) := by
  induction entries with
  | nil => simp [insert, Sorted]
  | cons head rest ih =>
    obtain ⟨k, v⟩ := head
    have hc := List.pairwise_cons.mp h
    simp only [insert]
    split
    · next hlt =>
      refine List.pairwise_cons.mpr ⟨fun e he => ?_, h⟩
      rcases List.mem_cons.mp he with rfl | he
      · exact hlt
      · exact String.lt_trans hlt (hc.1 e he)
    · split
      · next heq =>
        subst heq
        exact List.pairwise_cons.mpr hc
      · next hge hne =>
        refine List.pairwise_cons.mpr ⟨fun e he => ?_, ih hc.2⟩
        rcases mem_insert he with rfl | h'
        · exact Std.lt_of_le_of_ne (String.not_lt.mp hge) (Ne.symm hne)
        · exact hc.1 e h'

theorem sorted_insertAll {table entries : List (String × α)} (h : Sorted table) :
    Sorted (insertAll table entries) := by
  induction entries generalizing table with
  | nil => exact h
  | cons head rest ih => exact ih (sorted_insert h)

/-- Every list of entries makes a table with increasing keys. -/
theorem sorted_ofList (entries : List (String × α)) : Sorted (ofList entries) :=
  sorted_insertAll List.Pairwise.nil

/-- A look-up sees the inserted value under its key and nothing new elsewhere. -/
theorem lookup_insert (key : String) (value : α) {entries : List (String × α)}
    (h : Sorted entries) (k : String) :
    (insert key value entries).lookup k = if k = key then some value else entries.lookup k := by
  have miss {a b : String} (hab : ¬a = b) : (a == b) = false := by simpa using hab
  induction entries with
  | nil => by_cases hk : k = key <;> simp [insert, List.lookup_cons, hk, miss]
  | cons head rest ih =>
    obtain ⟨k', v⟩ := head
    have hc := List.pairwise_cons.mp h
    simp only [insert]
    split
    · by_cases hk : k = key <;> simp [List.lookup_cons, hk, miss]
    · split
      · next heq =>
        subst heq
        by_cases hk : k = key <;> simp [List.lookup_cons, hk, miss]
      · next hge hne =>
        by_cases hk : k = k'
        · subst hk
          simp [Ne.symm hne]
        · simp [List.lookup_cons, miss hk, ih hc.2]

/-- Inserting entries in order leaves each key with the last value it was given. -/
theorem lookup_insertAll {table entries : List (String × α)} (h : Sorted table) (k : String) :
    (insertAll table entries).lookup k = (entries.reverse.lookup k).or (table.lookup k) := by
  induction entries generalizing table with
  | nil => simp [insertAll]
  | cons head rest ih =>
    obtain ⟨key, value⟩ := head
    rw [insertAll, ih (sorted_insert h), lookup_insert key value h, List.reverse_cons,
      List.lookup_append, Option.or_assoc]
    by_cases hk : k = key
    · simp [hk]
    · have hb : (k == key) = false := by simpa using hk
      simp [List.lookup_cons, hk, hb]

/-- A table gives each key the last value it had in the list. -/
theorem lookup_ofList (entries : List (String × α)) (k : String) :
    (ofList entries).lookup k = entries.reverse.lookup k := by
  simp [ofList, lookup_insertAll (List.Pairwise.nil : Sorted ([] : List (String × α)))]

end Entries

end LiteralBridge
