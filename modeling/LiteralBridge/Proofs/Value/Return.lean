import LiteralBridge.Proofs.Value.RoundTrip
import LiteralBridge.Proofs.Value.Soundness

/-! # What was decoded can be sent back

However the host spells a value, the literal that it is converted from nests at least as deep
(`nesting_le`), and the items of a list have the kind that was asked for, so that they can be written
in one list again. So what was decoded as an explicit kind is encoded under the same configuration,
and decoded to the same value (`encode_of_decode`). -/

namespace LiteralBridge

open Literal (Converts)

/-! ## Values of an explicit kind -/

namespace Value

/-- The constructor of a value is determined by its kind, unless the value is null or the kind is
left to the text. -/
theorem HasKind.tag_eq {v w : Value} {kind : Kind} (hv : v.HasKind kind) (hw : w.HasKind kind)
    (hk : kind ≠ .any) (hnv : v.isNull = false) (hnw : w.isNull = false) : v.tag = w.tag := by
  cases hv with
  | null => simp [isNull] at hnv
  | undefined => simp [isNull] at hnv
  | anyNull => exact absurd rfl hk
  | anyUndefined => exact absurd rfl hk
  | anyBoolean => exact absurd rfl hk
  | anyInteger => exact absurd rfl hk
  | anyFloat => exact absurd rfl hk
  | anyString => exact absurd rfl hk
  | anyEnumSet => exact absurd rfl hk
  | anyArray => exact absurd rfl hk
  | anyTuple => exact absurd rfl hk
  | anyDict => exact absurd rfl hk
  | _ =>
    cases hw
    rfl

theorem ne_any_of_explicit {kind : Kind} (h : kind.Explicit) : kind ≠ .any := by
  rintro rfl
  exact h

theorem uniform_of_hasKind {items : List Value} {kind : Kind} (hk : kind.Explicit)
    (h : ∀ item ∈ items, item.isNull = false → item.HasKind kind) : Uniform items :=
  fun v hv w hw hnv hnw =>
    (h v hv hnv).tag_eq (h w hw hnw) (ne_any_of_explicit hk) hnv hnw

/-- A value of an explicit kind that was read can be encoded if the levels suffice. -/
theorem HasKind.everywhere_encodable {range : IntegerRange} {v : Value} {kind : Kind}
    (h : v.HasKind kind) (hk : kind.Explicit) (hr : v.Everywhere (IsRead range)) :
    v.Everywhere (Encodable range) := by
  have all {items : List Value}
      (ih : ∀ item ∈ items, item.isNull = false → item.Everywhere (IsRead range) →
        item.Everywhere (Encodable range))
      (hr : EverywhereAll (IsRead range) items) : EverywhereAll (Encodable range) items := by
    refine everywhereAll_iff.mpr fun item hi => everywhere_orNull trivial trivial fun hn => ?_
    exact ih item hi hn (everywhereAll_iff.mp hr item hi)
  induction h with
  | null => trivial
  | undefined => trivial
  | boolean => trivial
  | integer => exact hr
  | float => trivial
  | string => trivial
  | enum => trivial
  | enumSet => trivial
  | @array items kind h ih =>
    have hitem : kind.Explicit := hk
    exact ⟨uniform_of_hasKind hitem h, all (fun item hi hn => ih item hi hn hitem) hr.2⟩
  | @matrix rows cols items kind h ih =>
    have hitem : kind.Explicit := hk
    exact ⟨⟨hr.1, uniform_of_hasKind hitem h⟩, all (fun item hi hn => ih item hi hn hitem) hr.2⟩
  | tuple hl h ih =>
    refine ⟨trivial, everywhereAll_iff.mpr fun item hi => ?_⟩
    obtain ⟨i, kind, hitem, hkind⟩ := exists_kind_of_mem hl hi
    exact ih i item kind hitem hkind (Kind.explicitAll_iff.mp hk kind (List.mem_of_getElem? hkind))
      (everywhereAll_iff.mp hr.2 item hi)
  | dict h ih =>
    refine ⟨trivial, everywhereEntries_iff.mpr fun entry he => everywhere_orNull trivial trivial ?_⟩
    intro hn
    exact ih entry he hn hk (everywhereEntries_iff.mp hr.2 entry he)
  | _ => exact hk.elim

end Value

/-! ## What conversion keeps -/

namespace Literal.Converts

open Value

variable {range : IntegerRange} {kind : Kind} {literal : Literal} {v : Value}

/-- Tables are put in order when they are read. -/
theorem ordered (h : Converts range kind literal v) : v.Ordered := by
  have item {pair : Literal × Value} (ih : pair ≠ missing → pair.2.Ordered) : pair.2.Ordered :=
    of_ne_missing (p := fun pair => pair.2.Ordered) trivial ih
  have table {entries : List (String × Literal × Value)}
      (h : ∀ entry ∈ entries, entry.2.2.Ordered) :
      (Value.table (entries.map fun entry => (entry.1, entry.2.2))).Ordered :=
    ⟨Entries.sorted_ofList _,
      orderedEntries_iff.mpr (Entries.forall_mem_ofList (List.forall_mem_map.mpr h))⟩
  induction h with
  | array hs h ih =>
    exact orderedItems_iff.mpr (List.forall_mem_map.mpr fun pair hp => item (ih pair hp))
  | matrix hw he h ih =>
    refine orderedItems_iff.mpr (List.forall_mem_map.mpr fun pair hp => ?_)
    obtain ⟨row, hr, hp⟩ := List.mem_flatten.mp hp
    exact item (ih row hr pair hp)
  | tuple hs h ih => exact orderedItems_iff.mpr (List.forall_mem_map.mpr ih)
  | dict h ih => exact table fun entry he => item (ih entry he)
  | anyArray h ih => exact orderedItems_iff.mpr (List.forall_mem_map.mpr ih)
  | anyTuple h ih => exact orderedItems_iff.mpr (List.forall_mem_map.mpr ih)
  | anyDict h ih => exact table ih
  | _ => trivial

/-- Where the values of a list nest at most as deep as their literals, so does the list. -/
theorem nestingAll_map_le {α : Type} {xs : List α} {written : α → Literal} {read : α → Value}
    (h : ∀ x ∈ xs, (read x).nesting ≤ (written x).depth) :
    nestingAll (xs.map read) ≤ depthAll (xs.map written) := by
  refine nestingAll_le_iff.mpr (List.forall_mem_map.mpr fun x hx => ?_)
  exact (h x hx).trans (depthAll_le_iff.mp (Nat.le_refl _) _ (List.mem_map_of_mem hx))

theorem depth_of_isSequence {items : List Literal} (h : literal.IsSequence items) :
    literal.depth = depthAll items + 1 := by
  rcases h with rfl | rfl <;> rfl

/-- Names take a level only if there are some, and then their literal does too. -/
theorem nesting_enumSet_le {names : List String}
    (h : literal = .set (names.map .str) ∨ literal.IsSequence (names.map .str)) :
    (Value.enumSet (.ofList names)).nesting ≤ literal.depth := by
  cases names with
  | nil => exact Nat.zero_le _
  | cons name rest =>
    have hpos : 1 ≤ literal.depth := by
      rcases h with rfl | h
      · exact Nat.le_add_left 1 _
      · rw [depth_of_isSequence h]
        exact Nat.le_add_left 1 _
    refine Nat.le_trans ?_ hpos
    simp only [nesting]
    split <;> decide

theorem nesting_table_le {entries : List (String × Literal × Value)}
    (h : ∀ entry ∈ entries, entry.2.2.nesting ≤ entry.2.1.depth) :
    (Value.table (entries.map fun entry => (entry.1, entry.2.2))).nesting ≤
      (Literal.dict (entries.map fun entry => (.str entry.1, entry.2.1))).depth := by
  refine Nat.succ_le_succ (nestingEntries_le_iff.mpr (Entries.forall_mem_ofList ?_))
  refine List.forall_mem_map.mpr fun entry he => (h entry he).trans ?_
  have hdepth := depthEntries_le_iff.mp (Nat.le_refl (depthEntries
    (entries.map fun entry => (.str entry.1, entry.2.1))))
  exact (List.forall_mem_map.mp hdepth entry he).2

/-- A value nests at most as deep as the literal it was converted from. -/
theorem nesting_le (h : Converts range kind literal v) : v.nesting ≤ literal.depth := by
  have item {pair : Literal × Value} (ih : pair ≠ missing → pair.2.nesting ≤ pair.1.depth) :
      pair.2.nesting ≤ pair.1.depth :=
    of_ne_missing (p := fun pair => pair.2.nesting ≤ pair.1.depth) (Nat.le_refl _) ih
  induction h with
  | enumSet hs => exact nesting_enumSet_le hs
  | array hs h ih =>
    rw [depth_of_isSequence hs]
    exact Nat.succ_le_succ (nestingAll_map_le fun pair hp => item (ih pair hp))
  | @matrix kind rows cols hw he h ih =>
    cases hr : rows with
    | nil => exact Nat.le_refl _
    | cons row rest =>
      rw [← hr]
      have hne : (rows.map fun row => row.map Prod.fst) ≠ [] := by simp [hr]
      have hrows := depthAll_map_list hne
      rw [List.map_map, ← List.map_flatten] at hrows
      have hitems : nestingAll (rows.flatten.map Prod.snd) ≤ depthAll (rows.flatten.map Prod.fst) := by
        refine nestingAll_map_le fun pair hp => ?_
        obtain ⟨row, hr, hp⟩ := List.mem_flatten.mp hp
        exact item (ih row hr pair hp)
      have hlen : rows.length ≠ 0 := by simp [hr]
      rw [nesting, if_neg hlen, depth]
      change _ ≤ depthAll (rows.map (Literal.list ∘ fun row => row.map Prod.fst)) + 1
      omega
  | tuple hs h ih =>
    rw [depth_of_isSequence hs]
    exact Nat.succ_le_succ (nestingAll_map_le ih)
  | dict h ih => exact nesting_table_le fun entry he => item (ih entry he)
  | anyEnumSet => exact nesting_enumSet_le (.inl rfl)
  | anyArray h ih => exact Nat.succ_le_succ (nestingAll_map_le ih)
  | anyTuple h ih => exact Nat.succ_le_succ (nestingAll_map_le ih)
  | anyDict h ih => exact nesting_table_le ih
  | _ => exact Nat.le_refl _

end Literal.Converts

/-! ## Texts -/

/-- What was decoded as an explicit kind can be encoded under the same configuration, and comes back
as it was, but for a NaN, which comes back as the one NaN. Nothing in it is undefined. -/
theorem encode_of_decode {config : Config} {kind : Kind} (hk : kind.Explicit) {text : String}
    {v : Value} (h : decode config kind text = .ok v) :
    ∃ sent, v.encode config = .ok sent ∧ decode config kind sent = .ok v.canonical ∧
      v.Everywhere (· ≠ .undefined) := by
  by_cases hobj : kind = .object
  · subst hobj
    rcases decode_object_eq_ok.mp h with ⟨-, rfl⟩ | ⟨handle, -, hl, rfl⟩
    · exact ⟨_, rfl, decode_object_eq_ok.mpr (.inl ⟨by decide, rfl⟩), by simp [Value.Everywhere]⟩
    · refine ⟨_, rfl, decode_object_eq_ok.mpr (.inr ⟨handle, ?_, hl, rfl⟩), by simp [Value.Everywhere]⟩
      rw [String.toList_ofList]
      exact Text.trim_eq_self hl.head hl.last
  · obtain ⟨literal, hp, hc⟩ := (decode_eq_ok hobj).mp h
    have hconv := Literal.converts_of_convert hc
    have hread := hconv.everywhere_isRead
    have henc := hconv.hasKind.everywhere_encodable hk hread
    have hdepth := hconv.nesting_le.trans (Literal.depth_le_of_parse hp)
    obtain ⟨sent, hsent⟩ := Value.exists_encode_iff.mpr ⟨henc, hdepth⟩
    refine ⟨sent, hsent, (decode_eq_ok hobj).mpr ⟨v.literal.canonical, ?_, ?_⟩,
      hread.imp ?_⟩
    · exact Value.parse_of_encode hconv.hasKind.everywhere_isData hsent
    · exact Value.convert_literal hconv.hasKind hconv.ordered henc
    · rintro w hw rfl
      exact hw

set_option maxRecDepth 20000 in
/-- A table with a key that is written twice, a list for a tuple, a tuple for a set, parentheses that
only group, and commas after the last item. -/
theorem encode_of_decode_loose_table :
    let kind := Kind.dict (.tuple [.matrix .float, .enumSet])
    let text := "\x7b'b': None, 'b': [[[(-nan),], [2]], ('y', 'x', 'y')],\x7d"
    let v := Value.dict [("b", .tuple [.matrix ⟨2, 1, [.float Binary64.nan.neg, .float (.ofInt 2)]⟩,
      .enumSet (.ofList ["x", "y"])])]
    kind.Explicit ∧ decode {} kind text = .ok v ∧
      ∃ sent, v.encode {} = .ok sent ∧ decode {} kind sent = .ok v.canonical := by
  intro kind text v
  have hk : kind.Explicit := ⟨trivial, trivial, trivial⟩
  have hp : Literal.parse 64 text = .ok (.dict [(.str "b", .none), (.str "b", .list [.list
      [.list [.float Binary64.nan.neg], .list [.int 2]], .tuple [.str "y", .str "x", .str "y"]])]) := by
    cbv
  have h : decode {} kind text = .ok v := (decode_eq_ok (by simp [kind])).mpr ⟨_, hp, rfl⟩
  obtain ⟨sent, hsent, hback, -⟩ := encode_of_decode hk h
  exact ⟨hk, h, sent, hsent, hback⟩

end LiteralBridge
