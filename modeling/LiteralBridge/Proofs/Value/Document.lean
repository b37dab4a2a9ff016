import LiteralBridge.Value.Document
import LiteralBridge.Proofs.Json.Tree
import LiteralBridge.Proofs.Value.Kinds
import LiteralBridge.Proofs.Value.Writing

/-! # Documents as values

A document is refused for nothing but an integer that needs an unsigned word
(`Value.exists_ofJson_iff`). The value of any other document mirrors it: nothing is lost on the way
to the host, and the document of the value is the document (`Value.mirrors_of_ofJson`). -/

namespace LiteralBridge

open Literal (bind_eq_error bind_eq_ok exists_pairs_of_mapM)

/-- A number that a value holds: any float, and an integer if it fits a signed word of 64 bits. -/
def JsonNumber.IsSigned : JsonNumber → Prop
  | integer i _ => i < 0x8000000000000000
  | float _ _ => True

namespace Value

/-! ## Which documents are values -/

theorem exists_ofJsonAll_iff {items : List Json} :
    (∃ vs, ofJsonAll items = .ok vs) ↔ ∀ item ∈ items, ∃ v, ofJson item = .ok v := by
  induction items with
  | nil => simp [ofJsonAll]
  | cons item rest ih => simp [ofJsonAll, exists_bind_eq_ok, ih, exists_and_right]

theorem exists_ofJsonMembers_iff {members : List (String × Json)} :
    (∃ entries, ofJsonMembers members = .ok entries) ↔
      ∀ member ∈ members, ∃ v, ofJson member.2 = .ok v := by
  induction members with
  | nil => simp [ofJsonMembers]
  | cons member rest ih =>
    obtain ⟨key, j⟩ := member
    simp only [ofJsonMembers, exists_bind_eq_ok, List.forall_mem_cons]
    simp [ih, exists_and_right]

theorem exists_ofJson_number_iff {n : JsonNumber} :
    (∃ v, ofJson (.number n) = .ok v) ↔ n.IsSigned := by
  cases n with
  | integer i fits =>
    by_cases hi : i < 0x8000000000000000
    · simp [ofJson, JsonNumber.IsSigned, hi]
    · simp [ofJson, JsonNumber.IsSigned, hi]
  | float x finite => simp [ofJson, JsonNumber.IsSigned]

/-- A document has a value exactly if all numbers in it have one. -/
theorem exists_ofJson_iff {j : Json} :
    (∃ v, ofJson j = .ok v) ↔ ∀ n, Json.Occurs (.number n) j → n.IsSigned := by
  have scalar {j : Json} {v : Value} (hv : ofJson j = .ok v)
      (hn : ∀ n, ¬ Json.Occurs (.number n) j) :
      (∃ v, ofJson j = .ok v) ↔ ∀ n, Json.Occurs (.number n) j → n.IsSigned :=
    ⟨fun _ n h => absurd h (hn n), fun _ => ⟨v, hv⟩⟩
  induction j with
  | null => exact scalar rfl fun n h => nomatch h
  | bool b => exact scalar rfl fun n h => nomatch h
  | string s => exact scalar rfl fun n h => nomatch h
  | number n => rw [exists_ofJson_number_iff, Json.forall_occurs_number]
  | array items ih =>
    rw [Json.forall_occurs_array, ← forall₂_congr ih, ← exists_ofJsonAll_iff]
    simp [ofJson, exists_bind_eq_ok]
  | object members ih =>
    rw [Json.forall_occurs_object, ← forall₂_congr ih, ← exists_ofJsonMembers_iff]
    simp [ofJson, exists_bind_eq_ok]

theorem exists_mem_of_ofJsonAll_eq_error {items : List Json} {e : DocumentError}
    (h : ofJsonAll items = .error e) : ∃ item ∈ items, ofJson item = .error e := by
  induction items with
  | nil => simp [ofJsonAll] at h
  | cons item rest ih =>
    rcases bind_eq_error.mp h with h | ⟨v, -, h⟩
    · exact ⟨item, List.mem_cons_self, h⟩
    · rcases bind_eq_error.mp h with h | ⟨vs, -, h⟩
      · obtain ⟨part, hpart, he⟩ := ih h
        exact ⟨part, List.mem_cons_of_mem _ hpart, he⟩
      · simp at h

theorem exists_mem_of_ofJsonMembers_eq_error {members : List (String × Json)} {e : DocumentError}
    (h : ofJsonMembers members = .error e) : ∃ member ∈ members, ofJson member.2 = .error e := by
  induction members with
  | nil => simp [ofJsonMembers] at h
  | cons member rest ih =>
    rcases bind_eq_error.mp h with h | ⟨v, -, h⟩
    · exact ⟨member, List.mem_cons_self, h⟩
    · rcases bind_eq_error.mp h with h | ⟨entries, -, h⟩
      · obtain ⟨part, hpart, he⟩ := ih h
        exact ⟨part, List.mem_cons_of_mem _ hpart, he⟩
      · simp at h

/-- The integer that an error names is in the document, and is too large. -/
theorem occurs_of_ofJson_eq_error {j : Json} {e : DocumentError} (h : ofJson j = .error e) :
    ∃ i fits, e = .tooLarge i ∧ Json.Occurs (.number (.integer i fits)) j ∧
      0x8000000000000000 ≤ i := by
  induction j with
  | number n =>
    cases n with
    | integer i fits =>
      rw [ofJson] at h
      split at h
      · simp at h
      · next hi => exact ⟨i, fits, (Except.error.inj h).symm, .here, Int.not_lt.mp hi⟩
    | float x finite => simp [ofJson] at h
  | array items ih =>
    rcases bind_eq_error.mp h with h | ⟨vs, -, h⟩
    · obtain ⟨item, hm, he⟩ := exists_mem_of_ofJsonAll_eq_error h
      obtain ⟨i, fits, hfound, hi, hlarge⟩ := ih item hm he
      exact ⟨i, fits, hfound, .item hm hi, hlarge⟩
    · simp at h
  | object members ih =>
    rcases bind_eq_error.mp h with h | ⟨entries, -, h⟩
    · obtain ⟨member, hm, he⟩ := exists_mem_of_ofJsonMembers_eq_error h
      obtain ⟨i, fits, hfound, hi, hlarge⟩ := ih member hm he
      exact ⟨i, fits, hfound, .member hm hi, hlarge⟩
    · simp at h
  | _ => simp [ofJson] at h

theorem exists_error_ofJson_iff {j : Json} :
    (∃ e, ofJson j = .error e) ↔
      ∃ i fits, Json.Occurs (.number (.integer i fits)) j ∧ 0x8000000000000000 ≤ i := by
  constructor
  · rintro ⟨e, h⟩
    obtain ⟨i, fits, -, hi, hlarge⟩ := occurs_of_ofJson_eq_error h
    exact ⟨i, fits, hi, hlarge⟩
  · rintro ⟨i, fits, hi, hlarge⟩
    cases h : ofJson j with
    | error e => exact ⟨e, rfl⟩
    | ok v =>
      have hs : i < 0x8000000000000000 := exists_ofJson_iff.mp ⟨v, h⟩ _ hi
      exact absurd hs (Int.not_lt.mpr hlarge)

/-! ## Values that mirror documents -/

theorem ofJsonAll_eq_mapM (items : List Json) : ofJsonAll items = items.mapM ofJson := by
  induction items with
  | nil => rfl
  | cons item rest ih =>
    rw [ofJsonAll, ih, List.mapM_cons]
    rfl

/-- The keys of an object, each with the document and the value under it. -/
theorem exists_entries_of_ofJsonMembers {members : List (String × Json)}
    {entries : List (String × Value)} (h : ofJsonMembers members = .ok entries) :
    ∃ triples : List (String × Json × Value),
      members = (triples.map fun triple => (triple.1, triple.2.1)) ∧
      entries = (triples.map fun triple => (triple.1, triple.2.2)) ∧
      ∀ triple ∈ triples, ofJson triple.2.1 = .ok triple.2.2 := by
  induction members generalizing entries with
  | nil => exact ⟨[], rfl, (Except.ok.inj h).symm, by simp⟩
  | cons member rest ih =>
    obtain ⟨key, j⟩ := member
    obtain ⟨v, hv, h⟩ := bind_eq_ok.mp h
    obtain ⟨others, hothers, h⟩ := bind_eq_ok.mp h
    obtain ⟨triples, rfl, rfl, htriples⟩ := ih hothers
    exact ⟨(key, j, v) :: triples, rfl, (Except.ok.inj h).symm,
      List.forall_mem_cons.mpr ⟨hv, htriples⟩⟩

theorem toJsonAll_eq_map (items : List Value) : toJsonAll items = items.map toJson := by
  induction items with
  | nil => rfl
  | cons v rest ih => rw [toJsonAll, ih, List.map_cons]

theorem toJsonMembers_eq_map (entries : List (String × Value)) :
    toJsonMembers entries = entries.map fun entry => (entry.1, entry.2.toJson) := by
  induction entries with
  | nil => rfl
  | cons entry rest ih =>
    obtain ⟨key, v⟩ := entry
    rw [toJsonMembers, ih, List.map_cons]

/-- A value that stands for a document: it may be decoded as anything, and as nothing but itself, and
the document is what it is printed as. -/
structure Mirrors (v : Value) (j : Json) : Prop where
  hasKind : v.HasKind .any
  ordered : v.Ordered
  canonical : v.canonical = v
  toJson : v.toJson = j

namespace Mirrors

theorem number {n : JsonNumber} {v : Value} (h : ofJson (.number n) = .ok v) :
    v.Mirrors (.number n) := by
  cases n with
  | integer i fits =>
    rw [ofJson] at h
    split at h
    · obtain rfl := Except.ok.inj h
      refine ⟨.anyInteger, trivial, rfl, ?_⟩
      rw [Value.toJson, integerJson, dif_pos fits]
    · simp at h
  | float x finite =>
    obtain rfl := Except.ok.inj h
    have hnan : ¬ x.isNaN = true := by
      simp only [Binary64.isFinite, decide_eq_true_eq] at finite
      simp only [Binary64.isNaN, decide_eq_true_eq]
      exact Nat.lt_asymm finite
    refine ⟨.anyFloat, trivial, ?_, ?_⟩
    · rw [Value.canonical, Binary64.canonical, if_neg hnan]
    · rw [Value.toJson, floatJson, dif_pos finite]

theorem array {pairs : List (Json × Value)} (h : ∀ pair ∈ pairs, pair.2.Mirrors pair.1) :
    (array (pairs.map Prod.snd)).Mirrors (.array (pairs.map Prod.fst)) where
  hasKind := .anyArray (List.forall_mem_map.mpr fun pair hp => (h pair hp).hasKind)
  ordered := orderedItems_iff.mpr (List.forall_mem_map.mpr fun pair hp => (h pair hp).ordered)
  canonical := by
    rw [Value.canonical, canonicalAll_eq_map, List.map_map]
    congr 1
    exact List.map_congr_left fun pair hp => (h pair hp).canonical
  toJson := by
    rw [Value.toJson, toJsonAll_eq_map, List.map_map]
    congr 1
    exact List.map_congr_left fun pair hp => (h pair hp).toJson

theorem dict {triples : List (String × Json × Value)}
    (hs : Entries.Sorted (triples.map fun triple => (triple.1, triple.2.2)))
    (h : ∀ triple ∈ triples, triple.2.2.Mirrors triple.2.1) :
    (dict (triples.map fun triple => (triple.1, triple.2.2))).Mirrors
      (.object (triples.map fun triple => (triple.1, triple.2.1))) where
  hasKind := .anyDict (List.forall_mem_map.mpr fun triple ht => (h triple ht).hasKind)
  ordered :=
    ⟨hs, orderedEntries_iff.mpr (List.forall_mem_map.mpr fun triple ht => (h triple ht).ordered)⟩
  canonical := by
    rw [Value.canonical, canonicalEntries_eq_map, List.map_map]
    congr 1
    exact List.map_congr_left fun triple ht => congrArg (triple.1, ·) (h triple ht).canonical
  toJson := by
    rw [Value.toJson, toJsonMembers_eq_map, List.map_map]
    congr 1
    exact List.map_congr_left fun triple ht => congrArg (triple.1, ·) (h triple ht).toJson

end Mirrors

/-- The value of a document stands for the document. -/
theorem mirrors_of_ofJson {j : Json} {v : Value} (ho : j.Ordered) (h : ofJson j = .ok v) :
    v.Mirrors j := by
  induction j generalizing v with
  | null =>
    obtain rfl := Except.ok.inj h
    exact ⟨.anyNull, trivial, rfl, rfl⟩
  | bool b =>
    obtain rfl := Except.ok.inj h
    exact ⟨.anyBoolean, trivial, rfl, rfl⟩
  | number n => exact .number h
  | string s =>
    obtain rfl := Except.ok.inj h
    exact ⟨.anyString, trivial, rfl, rfl⟩
  | array items ih =>
    obtain ⟨vs, hvs, h⟩ := bind_eq_ok.mp h
    obtain rfl := Except.ok.inj h
    obtain ⟨pairs, rfl, rfl, hpairs⟩ := exists_pairs_of_mapM (ofJsonAll_eq_mapM items ▸ hvs)
    apply Mirrors.array
    intro pair hp
    have hmem := List.mem_map_of_mem (f := Prod.fst) hp
    exact ih pair.1 hmem (Json.orderedItems_iff.mp ho pair.1 hmem) (hpairs pair hp)
  | object members ih =>
    obtain ⟨entries, hentries, h⟩ := bind_eq_ok.mp h
    obtain rfl := Except.ok.inj h
    obtain ⟨triples, rfl, rfl, htriples⟩ := exists_entries_of_ofJsonMembers hentries
    have hkeys : Entries.Sorted (triples.map fun triple => (triple.1, triple.2.1)) := ho.1
    have hs : Entries.Sorted (triples.map fun triple => (triple.1, triple.2.2)) := by
      rw [Entries.Sorted, List.pairwise_map] at hkeys ⊢
      exact hkeys
    rw [table, Entries.ofList_of_sorted hs]
    apply Mirrors.dict hs
    intro triple ht
    have hmem := List.mem_map_of_mem (f := fun triple => (triple.1, triple.2.1)) ht
    exact ih _ hmem (Json.orderedMembers_iff.mp ho.2 _ hmem) (htriples triple ht)

end Value

end LiteralBridge
