import LiteralBridge.Proofs.Value.Return
import Mathlib.Data.List.Sort

/-! # Order and repetition

The host lists the members of a set and the entries of a table in any order, and the same one more than
once. Of a set the names count, and of a table the last value of each key, so texts that tell the same
differently are read as one value (`decode_reordered`). -/

namespace LiteralBridge

/-! ## Tables -/

namespace Entries

variable {α β : Type}

/-- The entries in another order, but those of one key in the order they had. -/
structure Reordered (entries reordered : List (String × α)) : Prop where
  perm : reordered.Perm entries
  filter_eq (key : String) :
    reordered.filter (fun entry => entry.1 = key) = entries.filter fun entry => entry.1 = key

theorem Reordered.map {entries reordered : List (String × α)} (h : Reordered entries reordered)
    (f : α → β) :
    Reordered (entries.map fun entry => (entry.1, f entry.2))
      (reordered.map fun entry => (entry.1, f entry.2)) where
  perm := h.perm.map _
  filter_eq key := by
    rw [List.filter_map, List.filter_map]
    exact congrArg (List.map _) (h.filter_eq key)

/-- Only the entries of its key count in a look-up. -/
theorem lookup_filter (entries : List (String × α)) (key : String) :
    (entries.filter fun entry => entry.1 = key).lookup key = entries.lookup key := by
  induction entries with
  | nil => rfl
  | cons entry rest ih =>
    obtain ⟨k, v⟩ := entry
    by_cases hk : k = key
    · simp [hk]
    · have hb : (key == k) = false := by simpa using Ne.symm hk
      rw [List.filter_cons_of_neg (by simpa using hk), ih, List.lookup_cons, hb]

theorem mem_iff_lookup {entries : List (String × α)} (h : Sorted entries) {key : String} {value : α} :
    (key, value) ∈ entries ↔ entries.lookup key = some value := by
  rw [List.lookup_eq_some_iff]
  constructor
  · intro hm
    obtain ⟨before, after, rfl⟩ := List.append_of_mem hm
    refine ⟨before, after, rfl, fun entry he => ?_⟩
    have hlt : entry.1 < key := (List.pairwise_append.mp h).2.2 entry he (key, value) List.mem_cons_self
    simpa using (Std.ne_of_lt hlt).symm
  · rintro ⟨before, after, rfl, -⟩
    exact List.mem_append_cons_self

/-- Two tables that look the same up under every key are the same list. -/
theorem eq_of_lookup_eq {xs ys : List (String × α)} (hx : Sorted xs) (hy : Sorted ys)
    (h : ∀ key, xs.lookup key = ys.lookup key) : xs = ys := by
  have : Std.Antisymm fun a b : String × α => a.1 < b.1 :=
    ⟨fun _ _ hab hba => absurd (String.lt_trans hab hba) (String.lt_irrefl _)⟩
  have : Std.Irrefl fun a b : String × α => a.1 < b.1 := ⟨fun _ => String.lt_irrefl _⟩
  refine List.Pairwise.eq_of_mem_iff hx hy fun entry => ?_
  rw [mem_iff_lookup hx, mem_iff_lookup hy, h]

/-- Entries that are reordered make the same table. -/
theorem Reordered.ofList_eq {entries reordered : List (String × α)}
    (h : Reordered entries reordered) : ofList reordered = ofList entries := by
  refine eq_of_lookup_eq (sorted_ofList _) (sorted_ofList _) fun key => ?_
  rw [lookup_ofList, lookup_ofList, ← lookup_filter, List.filter_reverse, h.filter_eq,
    ← List.filter_reverse, lookup_filter]

/-- A table has under a key what the last entry of that key has. -/
theorem lookup_ofList_eq_some {entries : List (String × α)} {key : String} {value : α} :
    (ofList entries).lookup key = some value ↔
      ∃ before after, entries = before ++ (key, value) :: after ∧ ∀ entry ∈ after, entry.1 ≠ key := by
  rw [lookup_ofList, List.lookup_eq_some_iff]
  constructor
  · rintro ⟨after, before, h, hne⟩
    refine ⟨before.reverse, after.reverse, ?_, fun entry he => ?_⟩
    · rw [← List.reverse_reverse entries, h]
      simp
    · have hn := hne entry (List.mem_reverse.mp he)
      rintro rfl
      simp at hn
  · rintro ⟨before, after, rfl, hne⟩
    refine ⟨after.reverse, before.reverse, by simp, fun entry he => ?_⟩
    simpa using Ne.symm (hne entry (List.mem_reverse.mp he))

end Entries

/-! ## Literals -/

namespace Literal

/-- A set that is written as one, or as a list or a tuple of its names. -/
def Names (literal : Literal) (names : List String) : Prop :=
  literal = .set (names.map .str) ∨ literal.IsSequence (names.map .str)

/-- The literal with its sets and tables told differently, at any depth: the members of a set may be
any that are the same names, and the entries of a table may be reordered. What is inside a list, a tuple
or a table is given in pairs of a literal and the other. -/
inductive Rearranged : Literal → Literal → Prop
  | refl {literal : Literal} : Rearranged literal literal
  | trans {literal other third : Literal} (h : Rearranged literal other)
      (h' : Rearranged other third) : Rearranged literal third
  | list {pairs : List (Literal × Literal)} (h : ∀ pair ∈ pairs, Rearranged pair.1 pair.2) :
      Rearranged (.list (pairs.map Prod.fst)) (.list (pairs.map Prod.snd))
  | tuple {pairs : List (Literal × Literal)} (h : ∀ pair ∈ pairs, Rearranged pair.1 pair.2) :
      Rearranged (.tuple (pairs.map Prod.fst)) (.tuple (pairs.map Prod.snd))
  | set {names names' : List String} (h : ∀ name, name ∈ names ↔ name ∈ names') :
      Rearranged (.set (names.map .str)) (.set (names'.map .str))
  | dict {entries : List (String × Literal × Literal)}
      (h : ∀ entry ∈ entries, Rearranged entry.2.1 entry.2.2) :
      Rearranged (.dict (entries.map fun entry => (.str entry.1, entry.2.1)))
        (.dict (entries.map fun entry => (.str entry.1, entry.2.2)))
  | reordered {entries reordered : List (String × Literal)}
      (h : Entries.Reordered entries reordered) :
      Rearranged (.dict (entries.map fun entry => (.str entry.1, entry.2)))
        (.dict (reordered.map fun entry => (.str entry.1, entry.2)))

/-! ## Conversion -/

/-- Null stands for what is missing only. -/
theorem orNull_eq_ok {converted : Literal → Except Mismatch Value} {literal : Literal} {v : Value} :
    orNull converted literal = .ok v ↔
      literal.shape = .none ∧ v = .null ∨ literal.shape ≠ .none ∧ converted literal = .ok v := by
  cases literal <;> simp [orNull, shape, eq_comm]

/-- Where the kind is left to the text, null is null already. -/
theorem orNull_convert_any (range : IntegerRange) : orNull (convert range .any) = toAny range := by
  funext literal
  cases literal <;> simp [orNull, convert, toAny]

/-- A literal that has the type of another and the same values as any kind that the other has one
of. -/
structure Follows (range : IntegerRange) (literal other : Literal) : Prop where
  shape_eq : other.shape = literal.shape
  convert {kind : Kind} {v : Value} (h : literal.convert range kind = .ok v) :
    other.convert range kind = .ok v

namespace Follows

variable {range : IntegerRange} {literal other : Literal} {v : Value}

theorem orNull {kind : Kind} (h : Follows range literal other)
    (hc : orNull (Literal.convert range kind) literal = .ok v) :
    orNull (Literal.convert range kind) other = .ok v := by
  rw [orNull_eq_ok] at hc ⊢
  rw [h.shape_eq]
  exact hc.imp_right fun hc => ⟨hc.1, h.convert hc.2⟩

theorem toAny (h : Follows range literal other) (hc : literal.toAny range = .ok v) :
    other.toAny range = .ok v := by
  have hany (literal : Literal) : literal.convert range .any = literal.toAny range := by
    rw [Literal.convert]
  rw [← hany] at hc ⊢
  exact h.convert hc

theorem eq_str {s : String} (h : Follows range (.str s) other) : other = .str s := by
  have hc : other.convert range .string = .ok (.string s) := h.convert rfl
  cases other with
  | str s' =>
    obtain rfl := Value.string.inj (Except.ok.inj hc)
    rfl
  | _ => cases h.shape_eq

theorem exists_list {items : List Literal} (h : Follows range (.list items) other) :
    ∃ items', other = .list items' := by
  cases other with
  | list items' => exact ⟨items', rfl⟩
  | _ => cases h.shape_eq

end Follows

/-! ### Items -/

section Items

variable {converted : Literal → Except Mismatch Value} {pairs : List (Literal × Literal)}

theorem convertAll_of_pairs
    (h : ∀ pair ∈ pairs, ∀ {v}, converted pair.1 = .ok v → converted pair.2 = .ok v)
    {vs : List Value} (hc : convertAll converted (pairs.map Prod.fst) = .ok vs) :
    convertAll converted (pairs.map Prod.snd) = .ok vs := by
  induction pairs generalizing vs with
  | nil => exact hc
  | cons pair rest ih =>
    obtain ⟨hpair, hrest⟩ := List.forall_mem_cons.mp h
    obtain ⟨v, hv, hc⟩ := bind_eq_ok.mp hc
    obtain ⟨others, hothers, hc⟩ := bind_eq_ok.mp hc
    rw [List.map_cons, convertAll, hpair hv, ok_bind, ih hrest hothers, ok_bind]
    exact hc

theorem toNames_of_pairs {range : IntegerRange} (h : ∀ pair ∈ pairs, Follows range pair.1 pair.2)
    {names : List String} (hc : toNames (pairs.map Prod.fst) = .ok names) :
    toNames (pairs.map Prod.snd) = .ok names := by
  have hfst : pairs.map Prod.fst = names.map .str := eq_map_str_of_toNames hc
  have hsnd : pairs.map Prod.snd = pairs.map Prod.fst := by
    refine List.map_congr_left fun pair hp => ?_
    have hm : pair.1 ∈ names.map .str := hfst ▸ List.mem_map_of_mem hp
    obtain ⟨name, -, hname⟩ := List.mem_map.mp hm
    rw [← hname]
    exact (hname ▸ h pair hp).eq_str
  rw [hsnd, hc]

theorem length_of_convertAll {items : List Literal} {vs : List Value}
    (h : convertAll converted items = .ok vs) : items.length = vs.length := by
  obtain ⟨pairs, rfl, rfl, -⟩ := exists_pairs_of_mapM (convertAll_eq_mapM items ▸ h)
  rw [List.length_map, List.length_map]

/-- Rows are followed by rows of their length. -/
theorem convertRows_of_pairs
    (h : ∀ pair ∈ pairs, ∀ {cells vs}, pair.1 = .list cells → convertAll converted cells = .ok vs →
      ∃ cells', pair.2 = .list cells' ∧ convertAll converted cells' = .ok vs)
    {number : Nat} {width? : Option Nat} {rows : List (List Value)}
    (hc : convertRows converted number width? (pairs.map Prod.fst) = .ok rows) :
    convertRows converted number width? (pairs.map Prod.snd) = .ok rows := by
  induction pairs generalizing number width? rows with
  | nil => exact hc
  | cons pair rest ih =>
    obtain ⟨hpair, hrest⟩ := List.forall_mem_cons.mp h
    obtain ⟨row, row'⟩ := pair
    cases row with
    | list cells =>
      rw [List.map_cons, convertRows] at hc
      by_cases hlen : cells.length = width?.getD cells.length
      · rw [if_pos hlen] at hc
        obtain ⟨vs, hvs, hc⟩ := bind_eq_ok.mp hc
        obtain ⟨others, hothers, hc⟩ := bind_eq_ok.mp hc
        obtain ⟨cells', rfl, hvs'⟩ := hpair rfl hvs
        have hcells : cells'.length = cells.length := by
          rw [length_of_convertAll hvs', length_of_convertAll hvs]
        rw [List.map_cons, convertRows, hcells, if_pos hlen, hvs', ok_bind, ih hrest hothers, ok_bind]
        exact hc
      · simp [hlen] at hc
    | _ => simp [convertRows] at hc

theorem convertEach_of_pairs {range : IntegerRange} {kinds : List Kind}
    (h : ∀ pair ∈ pairs, Follows range pair.1 pair.2) {vs : List Value}
    (hc : convertEach range kinds (pairs.map Prod.fst) = .ok vs) :
    convertEach range kinds (pairs.map Prod.snd) = .ok vs := by
  induction pairs generalizing kinds vs with
  | nil => exact hc
  | cons pair rest ih =>
    obtain ⟨hpair, hrest⟩ := List.forall_mem_cons.mp h
    cases kinds with
    | nil => exact hc
    | cons kind kinds =>
      obtain ⟨v, hv, hc⟩ := bind_eq_ok.mp hc
      obtain ⟨others, hothers, hc⟩ := bind_eq_ok.mp hc
      rw [List.map_cons, convertEach, hpair.convert hv, ok_bind, ih hrest hothers, ok_bind]
      exact hc

end Items

/-! ### Entries -/

section Tables

variable {converted : Literal → Except Mismatch Value}

theorem convertEntries_of_forall {α : Type} {xs : List α} {key : α → String} {literal : α → Literal}
    {value : α → Value} (h : ∀ x ∈ xs, converted (literal x) = .ok (value x)) :
    convertEntries converted (xs.map fun x => (.str (key x), literal x)) =
      .ok (xs.map fun x => (key x, value x)) := by
  induction xs with
  | nil => rfl
  | cons x rest ih =>
    obtain ⟨hx, hrest⟩ := List.forall_mem_cons.mp h
    rw [List.map_cons, convertEntries, hx, ok_bind, ih hrest, ok_bind, List.map_cons]

/-- The value of an entry depends on its literal only. -/
theorem exists_values_of_convertEntries {literals : List (Literal × Literal)}
    {vs : List (String × Value)} (h : convertEntries converted literals = .ok vs) :
    ∃ (entries : List (String × Literal)) (value : Literal → Value),
      literals = (entries.map fun entry => (.str entry.1, entry.2)) ∧
      vs = (entries.map fun entry => (entry.1, value entry.2)) ∧
      ∀ entry ∈ entries, converted entry.2 = .ok (value entry.2) := by
  obtain ⟨triples, rfl, rfl, htriples⟩ := exists_entries_of_convertEntries h
  have hvalue : ∀ triple ∈ triples, (converted triple.2.1).toOption.getD .null = triple.2.2 := by
    intro triple ht
    rw [htriples triple ht]
    rfl
  refine ⟨triples.map fun triple => (triple.1, triple.2.1),
    fun literal => (converted literal).toOption.getD .null, ?_, ?_, ?_⟩
  · rw [List.map_map]
    rfl
  · rw [List.map_map]
    refine List.map_congr_left fun triple ht => ?_
    rw [← hvalue triple ht]
    rfl
  · refine List.forall_mem_map.mpr fun triple ht => ?_
    rw [htriples triple ht, ← hvalue triple ht]

theorem map_str_injective :
    Function.Injective (List.map fun entry : String × Literal => (Literal.str entry.1, entry.2)) := by
  refine List.map_injective_iff.mpr fun entry other h => ?_
  obtain ⟨hkey, hvalue⟩ := Prod.mk.inj h
  exact Prod.ext (Literal.str.inj hkey) hvalue

theorem convertEntries_of_pairs {entries : List (String × Literal × Literal)}
    (h : ∀ entry ∈ entries, ∀ {v}, converted entry.2.1 = .ok v → converted entry.2.2 = .ok v)
    {vs : List (String × Value)}
    (hc : convertEntries converted (entries.map fun entry => (.str entry.1, entry.2.1)) = .ok vs) :
    convertEntries converted (entries.map fun entry => (.str entry.1, entry.2.2)) = .ok vs := by
  obtain ⟨found, value, he, rfl, hvalue⟩ := exists_values_of_convertEntries hc
  have hfound : (entries.map fun entry => (entry.1, entry.2.1)) = found := by
    refine map_str_injective ?_
    rw [← he, List.map_map]
    rfl
  subst hfound
  rw [convertEntries_of_forall fun entry he => h entry he (List.forall_mem_map.mp hvalue entry he),
    List.map_map]
  rfl

theorem exists_table_of_reordered {entries reordered : List (String × Literal)}
    (h : Entries.Reordered entries reordered) {vs : List (String × Value)}
    (hc : convertEntries converted (entries.map fun entry => (.str entry.1, entry.2)) = .ok vs) :
    ∃ vs', convertEntries converted (reordered.map fun entry => (.str entry.1, entry.2)) = .ok vs' ∧
      Value.table vs' = Value.table vs := by
  obtain ⟨entries, value, he, rfl, hvalue⟩ := exists_values_of_convertEntries hc
  obtain rfl := map_str_injective he
  refine ⟨reordered.map fun entry => (entry.1, value entry.2),
    convertEntries_of_forall fun entry he => hvalue entry (h.perm.mem_iff.mp he), ?_⟩
  exact congrArg Value.dict (h.map value).ofList_eq

/-- A table has under a key the value of the last entry with that key. -/
theorem lookup_table_eq_some {literals : List (Literal × Literal)} {vs : List (String × Value)}
    (h : convertEntries converted literals = .ok vs) {key : String} {v : Value} :
    (Entries.ofList vs).lookup key = some v ↔
      ∃ before literal after, literals = before ++ (.str key, literal) :: after ∧
        (∀ entry ∈ after, entry.1 ≠ .str key) ∧ converted literal = .ok v := by
  obtain ⟨entries, value, rfl, rfl, hvalue⟩ := exists_values_of_convertEntries h
  rw [Entries.lookup_ofList_eq_some]
  constructor
  · rintro ⟨before, after, he, hne⟩
    obtain ⟨before, rest, rfl, rfl, hrest⟩ := List.map_eq_append_iff.mp he
    obtain ⟨entry, after, rfl, hentry, rfl⟩ := List.map_eq_cons_iff.mp hrest
    obtain ⟨rfl, rfl⟩ := Prod.mk.inj hentry
    refine ⟨_, entry.2, _, by rw [List.map_append, List.map_cons], ?_, hvalue entry (by simp)⟩
    refine List.forall_mem_map.mpr fun other ho heq => ?_
    exact List.forall_mem_map.mp hne other ho (Literal.str.inj heq)
  · rintro ⟨before, literal, after, he, hne, hv⟩
    obtain ⟨before, rest, rfl, rfl, hrest⟩ := List.map_eq_append_iff.mp he
    obtain ⟨entry, after, rfl, hentry, rfl⟩ := List.map_eq_cons_iff.mp hrest
    obtain ⟨hkey, rfl⟩ := Prod.mk.inj hentry
    obtain rfl := Literal.str.inj hkey
    have heq : value entry.2 = v := by
      rw [hvalue entry (by simp)] at hv
      exact Except.ok.inj hv
    refine ⟨_, _, by rw [List.map_append, List.map_cons, heq], ?_⟩
    refine List.forall_mem_map.mpr fun other ho heq => ?_
    exact List.forall_mem_map.mp hne other ho (congrArg Literal.str heq)

end Tables

/-! ### Literals -/

namespace Follows

variable {range : IntegerRange} {pairs : List (Literal × Literal)}

theorem list (h : ∀ pair ∈ pairs, Follows range pair.1 pair.2) :
    Follows range (.list (pairs.map Prod.fst)) (.list (pairs.map Prod.snd)) where
  shape_eq := rfl
  convert {kind v} hc := by
    cases kind with
    | any =>
      rw [Literal.convert, Literal.toAny, toAnyAll_eq] at hc ⊢
      obtain ⟨vs, hvs, hc⟩ := bind_eq_ok.mp hc
      rw [convertAll_of_pairs (fun pair hp => (h pair hp).toAny) hvs]
      exact hc
    | enumSet =>
      obtain ⟨names, hnames, hc⟩ := bind_eq_ok.mp (show toNameSet _ = _ from hc)
      show toNameSet _ = _
      rw [toNameSet, toNames_of_pairs h hnames]
      exact hc
    | array kind =>
      obtain ⟨vs, hvs, hc⟩ := bind_eq_ok.mp hc
      rw [Literal.convert, convertAll_of_pairs (fun pair hp => (h pair hp).orNull) hvs]
      exact hc
    | matrix kind =>
      obtain ⟨rows, hrows, hc⟩ := bind_eq_ok.mp hc
      rw [Literal.convert, convertRows_of_pairs (fun pair hp cells vs hcells hvs => ?_) hrows]
      · rw [List.length_map] at hc ⊢
        exact hc
      · obtain ⟨row, row'⟩ := pair
        obtain rfl := hcells
        obtain ⟨cells', rfl⟩ := (h _ hp).exists_list
        have hrow : Literal.convert range (.array kind) (.list cells) = .ok (.array vs) := by
          rw [Literal.convert, hvs]
          rfl
        obtain ⟨vs', hvs', heq⟩ := bind_eq_ok.mp ((h _ hp).convert hrow)
        obtain rfl := Value.array.inj (Except.ok.inj heq)
        exact ⟨cells', rfl, hvs'⟩
    | tuple kinds =>
      rw [Literal.convert, List.length_map] at hc ⊢
      by_cases hl : pairs.length = kinds.length
      · rw [if_pos hl] at hc ⊢
        obtain ⟨vs, hvs, hc⟩ := bind_eq_ok.mp hc
        rw [convertEach_of_pairs h hvs]
        exact hc
      · simp [hl] at hc
    | _ => simp [Literal.convert] at hc

theorem tuple (h : ∀ pair ∈ pairs, Follows range pair.1 pair.2) :
    Follows range (.tuple (pairs.map Prod.fst)) (.tuple (pairs.map Prod.snd)) where
  shape_eq := rfl
  convert {kind v} hc := by
    cases kind with
    | any =>
      rw [Literal.convert, Literal.toAny, toAnyAll_eq] at hc ⊢
      obtain ⟨vs, hvs, hc⟩ := bind_eq_ok.mp hc
      rw [convertAll_of_pairs (fun pair hp => (h pair hp).toAny) hvs]
      exact hc
    | enumSet => exact (list h).convert (show Literal.convert range .enumSet (.list _) = _ from hc)
    | array kind => exact (list h).convert (show Literal.convert range (.array kind) (.list _) = _ from hc)
    | tuple kinds =>
      exact (list h).convert (show Literal.convert range (.tuple kinds) (.list _) = _ from hc)
    | _ => simp [Literal.convert] at hc

theorem set {names names' : List String} (h : ∀ name, name ∈ names ↔ name ∈ names') :
    Follows range (.set (names.map .str)) (.set (names'.map .str)) where
  shape_eq := rfl
  convert {kind v} hc := by
    have hset : toNameSet (names'.map .str) = toNameSet (names.map .str) := by
      rw [toNameSet, toNameSet, toNames_map, toNames_map]
      exact congrArg (Except.ok ∘ Value.enumSet) (NameSet.ext_mem (by simp [h]))
    cases kind with
    | any =>
      rw [Literal.convert, Literal.toAny] at hc ⊢
      rw [hset, hc]
    | enumSet =>
      rw [Literal.convert] at hc ⊢
      rw [hset, hc]
    | _ => simp [Literal.convert] at hc

/-- Tables are followed if their entries are, whatever kind the values are of. -/
theorem of_entries {literals literals' : List (Literal × Literal)}
    (h : ∀ {kind : Kind} {vs : List (String × Value)},
      convertEntries (Literal.orNull (Literal.convert range kind)) literals = .ok vs →
      ∃ vs', convertEntries (Literal.orNull (Literal.convert range kind)) literals' = .ok vs' ∧
        Value.table vs' = Value.table vs) :
    Follows range (.dict literals) (.dict literals') where
  shape_eq := rfl
  convert {kind v} hc := by
    cases kind with
    | any =>
      rw [Literal.convert, Literal.toAny, toAnyEntries_eq, ← orNull_convert_any] at hc ⊢
      obtain ⟨vs, hvs, hc⟩ := bind_eq_ok.mp hc
      obtain ⟨vs', hvs', htable⟩ := h hvs
      rw [hvs', ok_bind, htable]
      exact hc
    | dict kind =>
      obtain ⟨vs, hvs, hc⟩ := bind_eq_ok.mp hc
      obtain ⟨vs', hvs', htable⟩ := h hvs
      rw [Literal.convert, hvs', ok_bind, htable]
      exact hc
    | _ => simp [Literal.convert] at hc

theorem dict {entries : List (String × Literal × Literal)}
    (h : ∀ entry ∈ entries, Follows range entry.2.1 entry.2.2) :
    Follows range (.dict (entries.map fun entry => (.str entry.1, entry.2.1)))
      (.dict (entries.map fun entry => (.str entry.1, entry.2.2))) := by
  refine of_entries fun hvs => ⟨_, ?_, rfl⟩
  exact convertEntries_of_pairs (fun entry he => (h entry he).orNull) hvs

theorem reordered {entries reordered : List (String × Literal)}
    (h : Entries.Reordered entries reordered) :
    Follows range (.dict (entries.map fun entry => (.str entry.1, entry.2)))
      (.dict (reordered.map fun entry => (.str entry.1, entry.2))) :=
  of_entries fun hvs => exists_table_of_reordered h hvs

end Follows

/-- However a literal is rearranged, it is converted to the same value. -/
theorem Rearranged.follows {literal other : Literal} (h : Rearranged literal other)
    (range : IntegerRange) : Follows range literal other := by
  induction h with
  | refl => exact ⟨rfl, id⟩
  | trans h h' ih ih' => exact ⟨ih'.shape_eq.trans ih.shape_eq, fun hc => ih'.convert (ih.convert hc)⟩
  | list h ih => exact .list ih
  | tuple h ih => exact .tuple ih
  | set h => exact .set h
  | dict h ih => exact .dict ih
  | reordered h => exact .reordered h

theorem convert_of_names {range : IntegerRange} {literal : Literal} {names : List String}
    (h : literal.Names names) : literal.convert range .enumSet = .ok (.enumSet (.ofList names)) := by
  have hset : toNameSet (names.map .str) = .ok (.enumSet (.ofList names)) := by
    rw [toNameSet, toNames_map]
    rfl
  rcases h with rfl | rfl | rfl <;> exact hset

/-- A table is read from the entries of a table, also where the kind is left to the text. -/
theorem exists_entries_of_convert {range : IntegerRange} {kind value : Kind}
    (hk : kind = .dict value ∨ kind = .any ∧ value = .any) {literal : Literal}
    {table : List (String × Value)} (h : literal.convert range kind = .ok (.dict table)) :
    ∃ literals vs, literal = .dict literals ∧ table = Entries.ofList vs ∧
      convertEntries (orNull (convert range value)) literals = .ok vs := by
  rcases hk with rfl | ⟨rfl, rfl⟩
  · cases literal with
    | dict literals =>
      obtain ⟨vs, hvs, h⟩ := bind_eq_ok.mp h
      exact ⟨literals, vs, rfl, (Value.dict.inj (Except.ok.inj h)).symm, hvs⟩
    | _ => simp [convert] at h
  · rw [convert] at h
    cases literal with
    | dict literals =>
      obtain ⟨vs, hvs, h⟩ := bind_eq_ok.mp h
      rw [toAnyEntries_eq, ← orNull_convert_any] at hvs
      exact ⟨literals, vs, rfl, (Value.dict.inj (Except.ok.inj h)).symm, hvs⟩
    | _ =>
      generalize hv : Value.dict table = v at h
      cases converts_of_toAny h
      cases hv

end Literal

/-! ## Texts -/

/-- A set that was read can be written, as the list of its names in order. -/
theorem encode_of_decode_enumSet {config : Config} {text : String} {set : NameSet}
    (h : decode config .enumSet text = .ok (.enumSet set)) :
    (Value.enumSet set).encode config = .ok (String.ofList (renderNames set)) := by
  obtain ⟨literal, hp, hc⟩ := (decode_eq_ok (by simp)).mp h
  have hn := (Literal.converts_of_convert hc).nesting_le.trans (Literal.depth_le_of_parse hp)
  have he : (Value.enumSet set).Everywhere (Value.Encodable config.integerRange) := trivial
  have hdata : (Value.enumSet set).Everywhere Value.IsData := trivial
  obtain ⟨sent, hsent⟩ := Value.exists_encode_iff.mpr ⟨he, hn⟩
  rw [hsent, ← Value.source_of_encode hdata hsent, Literal.source, Value.literal, renderNames_eq_render]

/-- What the order of a text does to its value. Two texts of the same names are read as one set, which
is written with each name once and in order. A table has under each key the value of its last entry. And
what is read as a value is read as the same one, and written again in the same way or refused for the
same reason, however its sets and tables are rearranged. -/
theorem decode_reordered (config : Config) :
    (∀ {text text' : String} {literal literal' : Literal} {names names' : List String},
      Literal.parse config.maxDepth text = .ok literal → literal.Names names →
      Literal.parse config.maxDepth text' = .ok literal' → literal'.Names names' →
      (∀ name, name ∈ names ↔ name ∈ names') →
      ∃ set : NameSet, decode config .enumSet text = .ok (.enumSet set) ∧
        decode config .enumSet text' = .ok (.enumSet set) ∧
        (Value.enumSet set).encode config = .ok (String.ofList (renderNames set)) ∧
        set.names.Pairwise (· < ·) ∧ ∀ name, name ∈ set.names ↔ name ∈ names) ∧
    (∀ {kind value : Kind} {text : String} {table : List (String × Value)},
      kind = .dict value ∨ kind = .any ∧ value = .any →
      decode config kind text = .ok (.dict table) →
      ∃ literals, Literal.parse config.maxDepth text = .ok (.dict literals) ∧ Entries.Sorted table ∧
        ∀ key v, table.lookup key = some v ↔
          ∃ before literal after, literals = before ++ (.str key, literal) :: after ∧
            (∀ entry ∈ after, entry.1 ≠ .str key) ∧
            Literal.orNull (Literal.convert config.integerRange value) literal = .ok v) ∧
    (∀ {kind : Kind} {text text' : String} {literal literal' : Literal} {v : Value},
      kind ≠ .object → Literal.parse config.maxDepth text = .ok literal →
      Literal.parse config.maxDepth text' = .ok literal' → literal.Rearranged literal' →
      decode config kind text = .ok v →
      decode config kind text' = .ok v ∧
        (decode config kind text').map (Value.encode config) =
          (decode config kind text).map (Value.encode config)) := by
  refine ⟨?sets, ?tables, ?rearranged⟩
  case sets =>
    intro text text' literal literal' names names' hp hl hp' hl' hmem
    have hset : NameSet.ofList names' = NameSet.ofList names := NameSet.ext_mem (by simp [hmem])
    have hd : decode config .enumSet text = .ok (.enumSet (.ofList names)) :=
      (decode_eq_ok (by simp)).mpr ⟨literal, hp, Literal.convert_of_names hl⟩
    have hd' : decode config .enumSet text' = .ok (.enumSet (.ofList names)) :=
      (decode_eq_ok (by simp)).mpr ⟨literal', hp', hset ▸ Literal.convert_of_names hl'⟩
    exact ⟨_, hd, hd', encode_of_decode_enumSet hd, (NameSet.ofList names).sorted,
      fun name => NameSet.mem_ofList⟩
  case tables =>
    intro kind value text table hk hd
    have hne : kind ≠ .object := by
      rintro rfl
      simp at hk
    obtain ⟨literal, hp, hc⟩ := (decode_eq_ok hne).mp hd
    obtain ⟨literals, vs, rfl, rfl, hvs⟩ := Literal.exists_entries_of_convert hk hc
    exact ⟨literals, hp, Entries.sorted_ofList vs, fun key v => Literal.lookup_table_eq_some hvs⟩
  case rearranged =>
    intro kind text text' literal literal' v hk hp hp' hr hd
    have hd' : decode config kind text' = .ok v := by
      obtain ⟨found, hfound, hc⟩ := (decode_eq_ok hk).mp hd
      obtain rfl := Except.ok.inj (hp.symm.trans hfound)
      exact (decode_eq_ok hk).mpr ⟨literal', hp', (hr.follows config.integerRange).convert hc⟩
    exact ⟨hd', by rw [hd, hd']⟩

set_option maxRecDepth 20000 in
/-- A set and a tuple of the same names, and a table with a key that is written twice, around which an
entry changes its place and the names in it theirs. -/
theorem decode_reordered_table_of_set :
    let text := "\x7b'k': 1, 'a': \x7b'y', 'x'\x7d, 'k': 2\x7d"
    let text' := "\x7b'k': 1, 'k': 2, 'a': \x7b'x', 'y', 'x'\x7d\x7d"
    let table := [("a", Value.enumSet (.ofList ["x", "y"])), ("k", .integer 2)]
    (∃ set : NameSet, decode {} .enumSet "\x7b'b', 'a', 'b'\x7d" = .ok (.enumSet set) ∧
      decode {} .enumSet "('a', 'b')" = .ok (.enumSet set)) ∧
    decode {} .any text = .ok (.dict table) ∧
    (∃ literals, Literal.parse 64 text = .ok (.dict literals) ∧
      ∃ before literal after, literals = before ++ (.str "k", literal) :: after ∧
        Literal.orNull (Literal.convert .int32 .any) literal = .ok (.integer 2)) ∧
    decode {} .any text' = .ok (.dict table) := by
  intro text text' table
  obtain ⟨sets, tables, rearranged⟩ := decode_reordered {}
  have hp : Literal.parse 64 text = .ok (.dict [(.str "k", .int 1),
      (.str "a", .set (["y", "x"].map .str)), (.str "k", .int 2)]) := by cbv
  have hp' : Literal.parse 64 text' = .ok (.dict [(.str "k", .int 1), (.str "k", .int 2),
      (.str "a", .set (["x", "y", "x"].map .str))]) := by cbv
  have hd : decode {} .any text = .ok (.dict table) := (decode_eq_ok (by simp)).mpr ⟨_, hp, rfl⟩
  refine ⟨?_, hd, ?_, ?_⟩
  · have hset : Literal.parse 64 "\x7b'b', 'a', 'b'\x7d" = .ok (.set (["b", "a", "b"].map .str)) := by
      cbv
    have htuple : Literal.parse 64 "('a', 'b')" = .ok (.tuple (["a", "b"].map .str)) := by cbv
    obtain ⟨set, hset, htuple, -⟩ := sets hset (.inl rfl) htuple (.inr (.inr rfl)) (by simp)
    exact ⟨set, hset, htuple⟩
  · obtain ⟨literals, hparse, -, hlookup⟩ := tables (.inr ⟨rfl, rfl⟩) hd
    obtain ⟨before, literal, after, hl, -, hv⟩ := (hlookup "k" (.integer 2)).mp rfl
    exact ⟨literals, hparse, before, literal, after, hl, hv⟩
  · let names (members : List String) := Literal.set (members.map .str)
    let entries := [("k", Literal.int 1), ("a", names ["y", "x"]), ("k", .int 2)]
    let reordered := [("k", Literal.int 1), ("k", .int 2), ("a", names ["y", "x"])]
    have ho : Entries.Reordered entries reordered := by
      refine ⟨.cons _ (.swap _ _ _), fun key => ?_⟩
      by_cases hk : "k" = key
      · subst hk
        simp [entries, reordered]
      · simp [entries, reordered, List.filter_cons, hk]
    have hset : (names ["y", "x"]).Rearranged (names ["x", "y", "x"]) := .set (by simp [or_comm])
    have hr : Literal.Rearranged (.dict (reordered.map fun entry => (.str entry.1, entry.2)))
        (.dict [(.str "k", .int 1), (.str "k", .int 2), (.str "a", names ["x", "y", "x"])]) :=
      @Literal.Rearranged.dict [("k", .int 1, .int 1), ("k", .int 2, .int 2),
        ("a", names ["y", "x"], names ["x", "y", "x"])] (by simpa using ⟨.refl, .refl, hset⟩)
    exact (rearranged (by simp) hp hp' (.trans (.reordered ho) hr) hd).1

end LiteralBridge
