import LiteralBridge.Decode
import LiteralBridge.Proofs.Kind.Tree
import LiteralBridge.Proofs.Literal.Readers
import LiteralBridge.Proofs.Literal.Tree

/-! # What literals are converted to

`Converts` says, rule by rule, which value of a kind a literal denotes. Whatever the converter yields
is such a value (`converts_of_convert`), so what holds of every rule holds of all that is decoded. -/

namespace LiteralBridge.Literal

/-! ## Converters of containers -/

section Containers

variable {converted : Literal → Except Mismatch Value}

theorem convertAll_eq_mapM (items : List Literal) : convertAll converted items = items.mapM converted := by
  induction items with
  | nil => rfl
  | cons item rest ih =>
    rw [convertAll, ih, List.mapM_cons]
    rfl

/-- The keys of a table, each with the literal and the value under it. -/
theorem exists_entries_of_convertEntries {literals : List (Literal × Literal)}
    {vs : List (String × Value)} (h : convertEntries converted literals = .ok vs) :
    ∃ entries : List (String × Literal × Value),
      literals = (entries.map fun entry => (.str entry.1, entry.2.1)) ∧
      vs = (entries.map fun entry => (entry.1, entry.2.2)) ∧
      ∀ entry ∈ entries, converted entry.2.1 = .ok entry.2.2 := by
  induction literals generalizing vs with
  | nil => exact ⟨[], rfl, (Except.ok.inj h).symm, by simp⟩
  | cons literal rest ih =>
    obtain ⟨key, value⟩ := literal
    cases key with
    | str key =>
      obtain ⟨v, hv, h⟩ := bind_eq_ok.mp h
      obtain ⟨others, hothers, h⟩ := bind_eq_ok.mp h
      obtain ⟨entries, rfl, rfl, hentries⟩ := ih hothers
      exact ⟨(key, value, v) :: entries, rfl, (Except.ok.inj h).symm,
        List.forall_mem_cons.mpr ⟨hv, hentries⟩⟩
    | _ => simp [convertEntries] at h

/-- The rows of a matrix, all as long as the first one, or as one before it. -/
theorem exists_rows_of_convertRows {number : Nat} {width? : Option Nat} {literals : List Literal}
    {vs : List (List Value)} (h : convertRows converted number width? literals = .ok vs) :
    ∃ (rows : List (List (Literal × Value))) (cols : Nat),
      literals = (rows.map fun row => .list (row.map Prod.fst)) ∧
      vs = (rows.map fun row => row.map Prod.snd) ∧ (∀ w ∈ width?, rows ≠ [] → w = cols) ∧
      (∀ row ∈ rows, row.length = cols) ∧
      ∀ row ∈ rows, ∀ pair ∈ row, converted pair.1 = .ok pair.2 := by
  induction literals generalizing number width? vs with
  | nil => exact ⟨[], 0, rfl, (Except.ok.inj h).symm, by simp, by simp, by simp⟩
  | cons literal rest ih =>
    cases literal with
    | list cells =>
      rw [convertRows] at h
      by_cases hlen : cells.length = width?.getD cells.length
      · rw [if_pos hlen] at h
        obtain ⟨values, hvalues, h⟩ := bind_eq_ok.mp h
        obtain ⟨others, hothers, h⟩ := bind_eq_ok.mp h
        obtain ⟨row, rfl, rfl, hrow⟩ := exists_pairs_of_mapM (convertAll_eq_mapM cells ▸ hvalues)
        obtain ⟨rows, cols, rfl, rfl, hwidth, hcols, hrows⟩ := ih hothers
        rw [List.length_map] at hlen hwidth
        refine ⟨row :: rows, row.length, rfl, (Except.ok.inj h).symm, ?_, ?_,
          List.forall_mem_cons.mpr ⟨hrow, hrows⟩⟩
        · intro w hw _
          simpa [Option.mem_def.mp hw] using hlen.symm
        · refine List.forall_mem_cons.mpr ⟨rfl, fun other ho => ?_⟩
          have hne := List.ne_nil_of_mem ho
          rw [hcols other ho, ← hwidth _ rfl hne, ← hlen]
      · simp [hlen] at h
    | _ => simp [convertRows] at h

/-- The items of a tuple, each with the kind of its place and with its value. -/
theorem exists_triples_of_convertEach {range : IntegerRange} {kinds : List Kind}
    {items : List Literal} {vs : List Value} (hl : items.length = kinds.length)
    (h : convertEach range kinds items = .ok vs) :
    ∃ triples : List (Kind × Literal × Value), kinds = triples.map Prod.fst ∧
      items = (triples.map fun triple => triple.2.1) ∧
      vs = (triples.map fun triple => triple.2.2) ∧
      ∀ triple ∈ triples, convert range triple.1 triple.2.1 = .ok triple.2.2 := by
  induction items generalizing kinds vs with
  | nil =>
    obtain rfl := List.length_eq_zero_iff.mp hl.symm
    exact ⟨[], rfl, rfl, (Except.ok.inj h).symm, by simp⟩
  | cons item rest ih =>
    cases kinds with
    | nil => simp at hl
    | cons kind kinds =>
      obtain ⟨v, hv, h⟩ := bind_eq_ok.mp h
      obtain ⟨others, hothers, h⟩ := bind_eq_ok.mp h
      obtain ⟨triples, rfl, rfl, rfl, htriples⟩ := ih (Nat.succ.inj hl) hothers
      exact ⟨(kind, item, v) :: triples, rfl, rfl, (Except.ok.inj h).symm,
        List.forall_mem_cons.mpr ⟨hv, htriples⟩⟩

/-- Only strings are members of a set. -/
theorem eq_map_str_of_toNames {items : List Literal} {names : List String}
    (h : toNames items = .ok names) : items = names.map .str := by
  induction items generalizing names with
  | nil => exact (Except.ok.inj h) ▸ rfl
  | cons item rest ih =>
    cases item with
    | str s =>
      obtain ⟨others, hothers, h⟩ := bind_eq_ok.mp h
      rw [← Except.ok.inj h, ih hothers, List.map_cons]
    | _ => simp [toNames] at h

end Containers

/-! ## The rules -/

/-- A list or a tuple, which the host does not always tell apart. -/
def IsSequence (literal : Literal) (items : List Literal) : Prop :=
  literal = .list items ∨ literal = .tuple items

/-- A missing item of a container. -/
abbrev missing : Literal × Value :=
  (.none, .null)

/-- The value that a literal denotes as a kind. What a container holds is given in pairs of a literal
and its value: each is missing in both, or the one denotes the other. An integer denotes itself. -/
inductive Converts (range : IntegerRange) : Kind → Literal → Value → Prop
  | null : Converts range .null .none .null
  | boolean {b : Bool} : Converts range .boolean (.bool b) (.boolean b)
  | integer {i : Int} (h : range.contains i = true) : Converts range .integer (.int i) (.integer i)
  | float {x : Binary64} : Converts range .float (.float x) (.float x)
  | wholeFloat {i : Int} (h : i.natAbs ≤ greatestExactInteger) :
      Converts range .float (.int i) (.float (.ofInt i))
  | string {s : String} : Converts range .string (.str s) (.string s)
  | enum {s : String} : Converts range .enum (.str s) (.enum s)
  | enumSet {literal : Literal} {names : List String}
      (hs : literal = .set (names.map .str) ∨ literal.IsSequence (names.map .str)) :
      Converts range .enumSet literal (.enumSet (.ofList names))
  | array {literal : Literal} {kind : Kind} {pairs : List (Literal × Value)}
      (hs : literal.IsSequence (pairs.map Prod.fst))
      (h : ∀ pair ∈ pairs, pair ≠ missing → Converts range kind pair.1 pair.2) :
      Converts range (.array kind) literal (.array (pairs.map Prod.snd))
  | matrix {kind : Kind} {rows : List (List (Literal × Value))} {cols : Nat}
      (hw : ∀ row ∈ rows, row.length = cols) (he : rows = [] → cols = 0)
      (h : ∀ row ∈ rows, ∀ pair ∈ row, pair ≠ missing → Converts range kind pair.1 pair.2) :
      Converts range (.matrix kind) (.list (rows.map fun row => .list (row.map Prod.fst)))
        (.matrix ⟨rows.length, cols, rows.flatten.map Prod.snd⟩)
  | tuple {literal : Literal} {triples : List (Kind × Literal × Value)}
      (hs : literal.IsSequence (triples.map fun triple => triple.2.1))
      (h : ∀ triple ∈ triples, Converts range triple.1 triple.2.1 triple.2.2) :
      Converts range (.tuple (triples.map Prod.fst)) literal
        (.tuple (triples.map fun triple => triple.2.2))
  | dict {kind : Kind} {entries : List (String × Literal × Value)}
      (h : ∀ entry ∈ entries, entry.2 ≠ missing → Converts range kind entry.2.1 entry.2.2) :
      Converts range (.dict kind) (.dict (entries.map fun entry => (.str entry.1, entry.2.1)))
        (.table (entries.map fun entry => (entry.1, entry.2.2)))
  | anyNull : Converts range .any .none .null
  | anyBoolean {b : Bool} : Converts range .any (.bool b) (.boolean b)
  | anyInteger {i : Int} (h : range.contains i = true) : Converts range .any (.int i) (.integer i)
  | anyFloat {x : Binary64} : Converts range .any (.float x) (.float x)
  | anyString {s : String} : Converts range .any (.str s) (.string s)
  | anyEnumSet {names : List String} :
      Converts range .any (.set (names.map .str)) (.enumSet (.ofList names))
  | anyArray {pairs : List (Literal × Value)}
      (h : ∀ pair ∈ pairs, Converts range .any pair.1 pair.2) :
      Converts range .any (.list (pairs.map Prod.fst)) (.array (pairs.map Prod.snd))
  | anyTuple {pairs : List (Literal × Value)}
      (h : ∀ pair ∈ pairs, Converts range .any pair.1 pair.2) :
      Converts range .any (.tuple (pairs.map Prod.fst)) (.tuple (pairs.map Prod.snd))
  | anyDict {entries : List (String × Literal × Value)}
      (h : ∀ entry ∈ entries, Converts range .any entry.2.1 entry.2.2) :
      Converts range .any (.dict (entries.map fun entry => (.str entry.1, entry.2.1)))
        (.table (entries.map fun entry => (entry.1, entry.2.2)))

/-! ## Soundness -/

theorem toAnyAll_eq (range : IntegerRange) (items : List Literal) :
    toAnyAll range items = convertAll (toAny range) items := by
  induction items with
  | nil => rfl
  | cons literal rest ih => rw [toAnyAll, convertAll, ih]

theorem toAnyEntries_eq (range : IntegerRange) (entries : List (Literal × Literal)) :
    toAnyEntries range entries = convertEntries (toAny range) entries := by
  induction entries with
  | nil => rfl
  | cons entry rest ih =>
    obtain ⟨key, value⟩ := entry
    cases key <;> simp only [toAnyEntries, convertEntries, ih]

theorem eq_integer_of_toInteger {range : IntegerRange} {i : Int} {v : Value}
    (h : toInteger range i = .ok v) : range.contains i = true ∧ v = .integer i := by
  by_cases hi : range.contains i = true
  · rw [toInteger, if_pos hi, narrow_of_contains hi] at h
    exact ⟨hi, (Except.ok.inj h).symm⟩
  · simp [toInteger, hi] at h

theorem exists_names_of_toNameSet {items : List Literal} {v : Value}
    (h : toNameSet items = .ok v) :
    ∃ names : List String, items = names.map .str ∧ v = .enumSet (.ofList names) := by
  obtain ⟨names, hnames, h⟩ := bind_eq_ok.mp h
  exact ⟨names, eq_map_str_of_toNames hnames, (Except.ok.inj h).symm⟩

/-- An item that is not missing is converted. -/
theorem converted_of_orNull {converted : Literal → Except Mismatch Value}
    {pair : Literal × Value} (h : orNull converted pair.1 = .ok pair.2) (hne : pair ≠ missing) :
    converted pair.1 = .ok pair.2 := by
  obtain ⟨literal, v⟩ := pair
  cases literal with
  | none =>
    obtain rfl := Except.ok.inj h
    exact absurd rfl hne
  | _ => exact h

section Soundness

variable {range : IntegerRange}

theorem converts_of_toAny {literal : Literal} {v : Value} (h : literal.toAny range = .ok v) :
    Converts range .any literal v := by
  induction literal generalizing v with
  | none => exact Except.ok.inj h ▸ .anyNull
  | bool b => exact Except.ok.inj h ▸ .anyBoolean
  | int i =>
    obtain ⟨hi, rfl⟩ := eq_integer_of_toInteger h
    exact .anyInteger hi
  | float x => exact Except.ok.inj h ▸ .anyFloat
  | str s => exact Except.ok.inj h ▸ .anyString
  | list items ih =>
    obtain ⟨vs, hvs, h⟩ := bind_eq_ok.mp h
    rw [toAnyAll_eq] at hvs
    obtain ⟨pairs, rfl, rfl, hpairs⟩ := exists_pairs_of_mapM (convertAll_eq_mapM items ▸ hvs)
    exact Except.ok.inj h ▸ .anyArray fun pair hp =>
      ih pair.1 (List.mem_map_of_mem hp) (hpairs pair hp)
  | tuple items ih =>
    obtain ⟨vs, hvs, h⟩ := bind_eq_ok.mp h
    rw [toAnyAll_eq] at hvs
    obtain ⟨pairs, rfl, rfl, hpairs⟩ := exists_pairs_of_mapM (convertAll_eq_mapM items ▸ hvs)
    exact Except.ok.inj h ▸ .anyTuple fun pair hp =>
      ih pair.1 (List.mem_map_of_mem hp) (hpairs pair hp)
  | set items ih =>
    obtain ⟨names, rfl, rfl⟩ := exists_names_of_toNameSet h
    exact .anyEnumSet
  | dict entries ih =>
    obtain ⟨vs, hvs, h⟩ := bind_eq_ok.mp h
    rw [toAnyEntries_eq] at hvs
    obtain ⟨entries, rfl, rfl, hentries⟩ := exists_entries_of_convertEntries hvs
    exact Except.ok.inj h ▸ .anyDict fun entry he =>
      (ih _ (List.mem_map_of_mem he)).2 (hentries entry he)

theorem converts_enumSet {literal : Literal} {v : Value}
    (h : literal.convert range .enumSet = .ok v) : Converts range .enumSet literal v := by
  cases literal with
  | list items =>
    obtain ⟨names, rfl, rfl⟩ := exists_names_of_toNameSet h
    exact .enumSet (.inr (.inl rfl))
  | tuple items =>
    obtain ⟨names, rfl, rfl⟩ := exists_names_of_toNameSet h
    exact .enumSet (.inr (.inr rfl))
  | set items =>
    obtain ⟨names, rfl, rfl⟩ := exists_names_of_toNameSet h
    exact .enumSet (.inl rfl)
  | _ => simp [convert] at h

section Containers

variable {kind : Kind}
  (ih : ∀ {literal v}, convert range kind literal = .ok v → Converts range kind literal v)
include ih

theorem converts_array {literal : Literal} {v : Value}
    (h : literal.convert range (.array kind) = .ok v) :
    Converts range (.array kind) literal v := by
  have sequence {items : List Literal} (hs : literal.IsSequence items)
      (h : (convertAll (orNull (convert range kind)) items >>= fun vs => .ok (.array vs)) =
        .ok v) : Converts range (.array kind) literal v := by
    obtain ⟨vs, hvs, h⟩ := bind_eq_ok.mp h
    obtain ⟨pairs, rfl, rfl, hpairs⟩ := exists_pairs_of_mapM (convertAll_eq_mapM items ▸ hvs)
    exact Except.ok.inj h ▸ .array hs fun pair hp hne => ih (converted_of_orNull (hpairs pair hp) hne)
  cases literal with
  | list items => exact sequence (.inl rfl) h
  | tuple items => exact sequence (.inr rfl) h
  | _ => simp [convert] at h

theorem converts_matrix {literal : Literal} {v : Value}
    (h : literal.convert range (.matrix kind) = .ok v) :
    Converts range (.matrix kind) literal v := by
  cases literal with
  | list literals =>
    obtain ⟨vs, hvs, h⟩ := bind_eq_ok.mp h
    obtain ⟨rows, cols, rfl, rfl, -, hcols, hrows⟩ := exists_rows_of_convertRows hvs
    have hflat : (rows.map fun row => row.map Prod.snd).flatten = rows.flatten.map Prod.snd :=
      List.map_flatten.symm
    rw [List.length_map, hflat] at h
    refine Except.ok.inj h ▸ .matrix (fun row hr => ?_) (fun he => ?_) fun row hr pair hp hne =>
      ih (converted_of_orNull (hrows row hr pair hp) hne)
    · cases rows with
      | nil => simp at hr
      | cons first rest =>
        rw [hcols row hr, List.map_cons, width, List.length_map]
        exact (hcols first List.mem_cons_self).symm
    · subst he
      rfl
  | _ => simp [convert] at h

theorem converts_dict {literal : Literal} {v : Value}
    (h : literal.convert range (.dict kind) = .ok v) : Converts range (.dict kind) literal v := by
  cases literal with
  | dict literals =>
    obtain ⟨vs, hvs, h⟩ := bind_eq_ok.mp h
    obtain ⟨entries, rfl, rfl, hentries⟩ := exists_entries_of_convertEntries hvs
    exact Except.ok.inj h ▸ .dict fun entry he hne => ih (converted_of_orNull (hentries entry he) hne)
  | _ => simp [convert] at h

end Containers

theorem converts_tuple {kinds : List Kind}
    (ih : ∀ kind ∈ kinds, ∀ {literal v}, convert range kind literal = .ok v →
      Converts range kind literal v) {literal : Literal} {v : Value}
    (h : literal.convert range (.tuple kinds) = .ok v) :
    Converts range (.tuple kinds) literal v := by
  have sequence {items : List Literal} (hs : literal.IsSequence items)
      (h : (if items.length = kinds.length then
        convertEach range kinds items >>= fun vs => .ok (.tuple vs)
        else .error (.arity kinds.length items.length)) = .ok v) :
      Converts range (.tuple kinds) literal v := by
    by_cases hl : items.length = kinds.length
    · rw [if_pos hl] at h
      obtain ⟨vs, hvs, h⟩ := bind_eq_ok.mp h
      obtain ⟨triples, rfl, rfl, rfl, htriples⟩ := exists_triples_of_convertEach hl hvs
      exact Except.ok.inj h ▸ .tuple hs fun triple ht =>
        ih triple.1 (List.mem_map_of_mem ht) (htriples triple ht)
    · simp [hl] at h
  cases literal with
  | list items => exact sequence (.inl rfl) h
  | tuple items => exact sequence (.inr rfl) h
  | _ => simp [convert] at h

/-- What the converter yields is what the literal denotes as the kind. -/
theorem converts_of_convert {kind : Kind} {literal : Literal} {v : Value}
    (h : literal.convert range kind = .ok v) : Converts range kind literal v := by
  induction kind generalizing literal v with
  | any =>
    rw [convert] at h
    exact converts_of_toAny h
  | null =>
    cases literal with
    | none => exact Except.ok.inj h ▸ .null
    | _ => simp [convert] at h
  | boolean =>
    cases literal with
    | bool b => exact Except.ok.inj h ▸ .boolean
    | _ => simp [convert] at h
  | integer =>
    cases literal with
    | int i =>
      obtain ⟨hi, rfl⟩ := eq_integer_of_toInteger h
      exact .integer hi
    | _ => simp [convert] at h
  | float =>
    cases literal with
    | float x => exact Except.ok.inj h ▸ .float
    | int i =>
      rw [convert] at h
      by_cases hi : i.natAbs ≤ greatestExactInteger
      · rw [if_pos hi] at h
        exact Except.ok.inj h ▸ .wholeFloat hi
      · simp [hi] at h
    | _ => simp [convert] at h
  | string =>
    cases literal with
    | str s => exact Except.ok.inj h ▸ .string
    | _ => simp [convert] at h
  | enum =>
    cases literal with
    | str s => exact Except.ok.inj h ▸ .enum
    | _ => simp [convert] at h
  | enumSet => exact converts_enumSet h
  | array kind ih => exact converts_array ih h
  | matrix kind ih => exact converts_matrix ih h
  | tuple kinds ih => exact converts_tuple (fun kind hk => ih kind hk) h
  | dict kind ih => exact converts_dict ih h
  | object => simp [convert] at h

end Soundness

end LiteralBridge.Literal

/-! ## Texts -/

namespace LiteralBridge

/-- Unless an object is expected, a text is parsed and its literal converted. -/
theorem decode_eq_ok {config : Config} {kind : Kind} (hk : kind ≠ .object) {text : String}
    {v : Value} :
    decode config kind text = .ok v ↔ ∃ literal, Literal.parse config.maxDepth text = .ok literal ∧
      literal.convert config.integerRange kind = .ok v := by
  unfold decode
  split
  · exact absurd rfl hk
  · cases Literal.parse config.maxDepth text with
    | error e => simp
    | ok literal =>
      cases hc : literal.convert config.integerRange kind with
      | error reason => simp [hc]
      | ok v => simp [hc]

end LiteralBridge
