import LiteralBridge.Json.Read
import LiteralBridge.Proofs.Value.Tables

/-! # Documents as trees

Induction over a document with a hypothesis for every item and every member, what occurs in a document,
and the order of its members: every document that is read lists them in key order
(`ordered_of_parse?`). -/

namespace LiteralBridge.Json

/-! ## Induction -/

section Induction

variable {motive : Json → Prop} (null : motive null) (bool : ∀ b, motive (bool b))
  (number : ∀ n, motive (number n)) (string : ∀ s, motive (string s))
  (array : ∀ items, (∀ item ∈ items, motive item) → motive (array items))
  (object : ∀ members, (∀ member ∈ members, motive member.2) → motive (object members))
include null bool number string array object

@[elab_as_elim, induction_eliminator]
theorem tree_induction (j : Json) : motive j := by
  refine @Json.rec motive (fun items => ∀ item ∈ items, motive item)
    (fun members => ∀ member ∈ members, motive member.2) (fun member => motive member.2)
    null bool number string array object ?_ ?_ ?_ ?_ ?_ j
  · exact List.forall_mem_nil _
  · intro item rest hitem hrest
    exact List.forall_mem_cons.mpr ⟨hitem, hrest⟩
  · exact List.forall_mem_nil _
  · intro member rest hmember hrest
    exact List.forall_mem_cons.mpr ⟨hmember, hrest⟩
  · intro _ _ hvalue
    exact hvalue

end Induction

/-- A document occurs in another if it is that document, or occurs in one of its items or members. -/
inductive Occurs (part : Json) : Json → Prop
  | here : Occurs part part
  | item {items : List Json} {item : Json} (hi : item ∈ items) (h : Occurs part item) :
    Occurs part (array items)
  | member {members : List (String × Json)} {member : String × Json} (hm : member ∈ members)
    (h : Occurs part member.2) : Occurs part (object members)

section Numbers

variable {p : JsonNumber → Prop}

theorem forall_occurs_number {n : JsonNumber} :
    (∀ m, Occurs (number m) (number n) → p m) ↔ p n := by
  constructor
  · intro h
    exact h n .here
  · intro h m hm
    cases hm
    exact h

theorem forall_occurs_array {items : List Json} :
    (∀ n, Occurs (number n) (array items) → p n) ↔
      ∀ item ∈ items, ∀ n, Occurs (number n) item → p n := by
  constructor
  · intro h item hi n hn
    exact h n (.item hi hn)
  · intro h n hn
    cases hn with
    | item hi hn => exact h _ hi n hn

theorem forall_occurs_object {members : List (String × Json)} :
    (∀ n, Occurs (number n) (object members) → p n) ↔
      ∀ member ∈ members, ∀ n, Occurs (number n) member.2 → p n := by
  constructor
  · intro h member hm n hn
    exact h n (.member hm hn)
  · intro h n hn
    cases hn with
    | member hm hn => exact h _ hm n hn

end Numbers

/-! ## Order -/

theorem orderedItems_iff {items : List Json} :
    OrderedItems items ↔ ∀ item ∈ items, item.Ordered := by
  induction items with
  | nil => simp [OrderedItems]
  | cons j rest ih => simp only [OrderedItems, ih, List.forall_mem_cons]

theorem orderedMembers_iff {members : List (String × Json)} :
    OrderedMembers members ↔ ∀ member ∈ members, member.2.Ordered := by
  induction members with
  | nil => simp [OrderedMembers]
  | cons member rest ih =>
    obtain ⟨key, j⟩ := member
    simp only [OrderedMembers, ih, List.forall_mem_cons]

section Readers

variable {σ : Type} {closing : Char} {item : σ → Reader σ} {p : σ → Prop}

/-- What reading an item keeps, reading items keeps. -/
theorem of_readItems (hp : ∀ {state cs next after}, p state →
      item state cs = some (next, after) → p next) {bound : Nat} {state next : σ}
    {cs after : List Symbol} (h : p state)
    (hr : readItems closing item bound state cs = some (next, after)) : p next := by
  induction bound generalizing state cs with
  | zero => simp [readItems] at hr
  | succ bound ih =>
    obtain ⟨⟨first, afterItem⟩, hitem, hr⟩ := Option.bind_eq_some_iff.mp hr
    obtain ⟨⟨more, rest⟩, -, hr⟩ := Option.bind_eq_some_iff.mp hr
    have hfirst := hp h hitem
    cases more with
    | true => exact ih hfirst hr
    | false =>
      obtain ⟨rfl, -⟩ := Prod.mk.inj (Option.some.inj hr)
      exact hfirst

theorem of_readContainer (hp : ∀ {state cs next after}, p state →
      item state cs = some (next, after) → p next) {bound : Nat} {state next : σ}
    {cs after : List Symbol} (h : p state)
    (hr : readContainer closing item bound state cs = some (next, after)) : p next := by
  rw [readContainer] at hr
  split at hr
  · obtain ⟨rfl, -⟩ := Prod.mk.inj (Option.some.inj hr)
    exact h
  · exact of_readItems hp h hr

theorem of_readMember {value : σ → String → Reader σ}
    (hp : ∀ {key state cs next after}, p state → value state key cs = some (next, after) → p next)
    {state next : σ} {cs after : List Symbol} (h : p state)
    (hr : readMember value state cs = some (next, after)) : p next := by
  obtain ⟨⟨key, afterKey⟩, -, hr⟩ := Option.bind_eq_some_iff.mp hr
  obtain ⟨afterColon, -, hr⟩ := Option.bind_eq_some_iff.mp hr
  exact hp h hr

end Readers

section Levels

variable {bound : Nat} {inner : Reader Json}
  (hi : ∀ {cs j after}, inner cs = some (j, after) → j.Ordered)
include hi

/-- The items of an array come in reverse. -/
theorem ordered_array_of_readContainer {items : List Json} {cs after : List Symbol}
    (hr : readContainer ']' (fun items cs => (inner cs).bind fun (j, after) =>
      some (j :: items, after)) bound [] cs = some (items, after)) :
    (array items.reverse).Ordered := by
  have hitems : ∀ item ∈ items, item.Ordered := by
    apply of_readContainer (p := fun items => ∀ item ∈ items, item.Ordered) ?_ (by simp) hr
    intro items cs next after hp hitem
    obtain ⟨⟨j, rest⟩, hread, hitem⟩ := Option.bind_eq_some_iff.mp hitem
    obtain ⟨rfl, -⟩ := Prod.mk.inj (Option.some.inj hitem)
    exact List.forall_mem_cons.mpr ⟨hi hread, hp⟩
  apply orderedItems_iff.mpr
  intro item hm
  exact hitems item (List.mem_reverse.mp hm)

/-- The members of an object are put into the order of their keys. -/
theorem ordered_object_of_readContainer {members : List (String × Json)} {cs after : List Symbol}
    (hr : readContainer '}' (readMember fun members key cs => (inner cs).bind fun (j, after) =>
      some ((key, j) :: members, after)) bound [] cs = some (members, after)) :
    (object (Entries.ofList members.reverse)).Ordered := by
  let p (members : List (String × Json)) : Prop := ∀ member ∈ members, member.2.Ordered
  have hmembers : p members := by
    apply of_readContainer (p := p) ?_ (by simp [p]) hr
    intro members cs next after hp hmember
    apply of_readMember (p := p) ?_ hp hmember
    intro key members cs next after hp hvalue
    obtain ⟨⟨j, rest⟩, hread, hvalue⟩ := Option.bind_eq_some_iff.mp hvalue
    obtain ⟨rfl, -⟩ := Prod.mk.inj (Option.some.inj hvalue)
    exact List.forall_mem_cons.mpr ⟨hi hread, hp⟩
  constructor
  · exact Entries.sorted_ofList _
  · apply orderedMembers_iff.mpr
    apply Entries.forall_mem_ofList
    intro member hm
    exact hmembers member (List.mem_reverse.mp hm)

end Levels

/-- A document is in order if the documents that are read inside of it are. -/
theorem ordered_of_readLevel {bound : Nat} {inner? : Option (Reader Json)}
    (hi : ∀ inner ∈ inner?, ∀ {cs j after}, inner cs = some (j, after) → j.Ordered)
    {cs after : List Symbol} {j : Json} (h : readLevel bound inner? cs = some (j, after)) :
    j.Ordered := by
  have scalar {α : Type} {read : Option α} {f : α → Json × List Symbol}
      (h : read.map f = some (j, after)) (hf : ∀ a, (f a).1.Ordered) : j.Ordered := by
    obtain ⟨a, -, ha⟩ := Option.map_eq_some_iff.mp h
    have hj := hf a
    rwa [ha] at hj
  rw [readLevel] at h
  split at h
  · split at h
    · exact scalar h fun _ => trivial
    split at h
    · exact scalar h fun _ => trivial
    split at h
    · exact scalar h fun _ => trivial
    split at h
    · exact scalar h fun _ => trivial
    split at h
    · obtain ⟨inner, hinner, h⟩ := Option.bind_eq_some_iff.mp h
      obtain ⟨⟨items, rest⟩, hr, h⟩ := Option.bind_eq_some_iff.mp h
      obtain ⟨rfl, -⟩ := Prod.mk.inj (Option.some.inj h)
      exact ordered_array_of_readContainer (hi inner hinner) hr
    split at h
    · obtain ⟨inner, hinner, h⟩ := Option.bind_eq_some_iff.mp h
      obtain ⟨⟨members, rest⟩, hr, h⟩ := Option.bind_eq_some_iff.mp h
      obtain ⟨rfl, -⟩ := Prod.mk.inj (Option.some.inj h)
      exact ordered_object_of_readContainer (hi inner hinner) hr
    · obtain ⟨⟨numeral, rest⟩, -, h⟩ := Option.bind_eq_some_iff.mp h
      obtain ⟨n, -, h⟩ := Option.bind_eq_some_iff.mp h
      obtain ⟨rfl, -⟩ := Prod.mk.inj (Option.some.inj h)
      trivial
  · simp at h

theorem ordered_of_readValue {bound room : Nat} {cs after : List Symbol} {j : Json}
    (h : readValue bound room cs = some (j, after)) : j.Ordered := by
  induction room generalizing cs j after with
  | zero => exact ordered_of_readLevel (by simp) h
  | succ room ih =>
    refine ordered_of_readLevel (fun inner hinner => ?_) h
    obtain rfl := Option.mem_some.mp hinner
    exact fun hread => ih hread

/-- A document that is read lists the members of every object in key order, and no key twice. -/
theorem ordered_of_parse? {text : String} {j : Json} (h : parse? text = some j) : j.Ordered := by
  obtain ⟨⟨read, after⟩, hread, h⟩ := Option.bind_eq_some_iff.mp h
  dsimp only at h
  split at h
  · obtain rfl := Option.some.inj h
    exact ordered_of_readValue hread
  · simp at h

end LiteralBridge.Json
