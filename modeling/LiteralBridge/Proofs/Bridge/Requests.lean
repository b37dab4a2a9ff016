import LiteralBridge.Proofs.Bridge.Operations
import LiteralBridge.Proofs.Literal.Unique

/-! # A request tells the operation

The text of a request can be read in one way only: where the name of the attribute ends, whether an
assignment or a call follows, and where each argument of a call ends and whether it has a name. So
nothing in a value or a name can turn one operation into another (`map_literal_eq_of_source_eq`). -/

namespace LiteralBridge.Operation

open Literal (beginsLiteral continuesNumber denotes_render head_render name_append_inj
  render_append_inj stops_cons stops_nil)
open Literal.Grammar (Stops)
open Text

/-! ## Arguments -/

/-- The argument with the literal that is read back. -/
def canonicalArgument (argument : Option String × Literal) : Option String × Literal :=
  (argument.1, argument.2.canonical)

/-- What may not stand right after an argument: what would go on in a number, and the sign that
follows the name of an argument. -/
def continuesArgument (c : Char) : Bool :=
  continuesNumber c || c == '='

theorem stops_continuesNumber {next : List Char} (h : Stops continuesArgument next) :
    Stops continuesNumber next :=
  h.mono fun c hc => by simp [continuesArgument, hc]

theorem head_renderArgument {argument : Option String × Literal} (ha : IsArgument argument) :
    ∃ c rest, renderArgument argument = c :: rest ∧ beginsLiteral c = true := by
  obtain ⟨name?, literal⟩ := argument
  cases name? with
  | none => exact head_render ha.2
  | some name =>
    have hid : isName name.toList = true := ha.1 name rfl
    rw [renderArgument]
    cases hn : name.toList with
    | nil => simp [hn, isName] at hid
    | cons c rest =>
      rw [hn, isName, Bool.and_eq_true] at hid
      exact ⟨c, _, rfl, by simp [beginsLiteral, hid.1]⟩

/-- A literal without a name is not read as the name of an argument. -/
theorem render_append_ne_name {literal : Literal} (hf : literal.Fits) {name : String}
    (hid : isIdentifier name = true) {next rest : List Char} (hs : Stops continuesArgument next) :
    literal.render ++ next ≠ name.toList ++ '=' :: rest := by
  intro h
  have hd := denotes_render hf (Nat.le_refl _) next (stops_continuesNumber hs)
  rw [h] at hd
  have hnext := hd.dropWhile_isNameRest hid (stops_cons.mpr (by decide)) (by simp)
  rw [hnext] at hs
  exact absurd (stops_cons.mp hs) (by decide)

/-- An argument, and the place where it ends, can be told from the text. -/
theorem renderArgument_append_inj {argument argument' : Option String × Literal}
    (ha : IsArgument argument) (ha' : IsArgument argument') {next next' : List Char}
    (hs : Stops continuesArgument next) (hs' : Stops continuesArgument next')
    (h : renderArgument argument ++ next = renderArgument argument' ++ next') :
    canonicalArgument argument = canonicalArgument argument' ∧ next = next' := by
  obtain ⟨name?, literal⟩ := argument
  obtain ⟨name'?, literal'⟩ := argument'
  have sign (rest : List Char) : Stops isNameRest ('=' :: rest) := stops_cons.mpr (by decide)
  have values (h : literal.render ++ next = literal'.render ++ next') :
      literal.canonical = literal'.canonical ∧ next = next' :=
    render_append_inj ha.2 ha'.2 (stops_continuesNumber hs) (stops_continuesNumber hs') h
  cases name? with
  | none =>
    cases name'? with
    | none =>
      obtain ⟨hl, hn⟩ := values h
      exact ⟨Prod.ext rfl hl, hn⟩
    | some name' =>
      rw [renderArgument, renderArgument, List.append_assoc] at h
      exact absurd h (render_append_ne_name ha.2 (ha'.1 name' rfl) hs)
  | some name =>
    cases name'? with
    | none =>
      rw [renderArgument, renderArgument, List.append_assoc] at h
      exact absurd h.symm (render_append_ne_name ha'.2 (ha.1 name rfl) hs')
    | some name' =>
      rw [renderArgument, renderArgument, List.append_assoc, List.append_assoc] at h
      obtain ⟨rfl, hrest⟩ := name_append_inj (ha.1 name rfl) (ha'.1 name' rfl) (sign _) (sign _) h
      obtain ⟨hl, hn⟩ := values (List.cons.inj hrest).2
      exact ⟨Prod.ext rfl hl, hn⟩

/-! ## Argument lists -/

/-- What is written after an argument: the parenthesis, or a comma and the further arguments. -/
def continuation : List (List Char) → List Char
  | [] => [')']
  | part :: rest => ',' :: ' ' :: (commaSeparated (part :: rest) ++ [')'])

theorem commaSeparated_cons (part : List Char) (rest : List (List Char)) :
    commaSeparated (part :: rest) ++ [')'] = part ++ continuation rest := by
  cases rest with
  | nil => rfl
  | cons next more => simp [commaSeparated, continuation]

theorem stops_continuation (parts : List (List Char)) :
    Stops continuesArgument (continuation parts) := by
  cases parts <;> exact stops_cons.mpr (by decide)

/-- An argument list does not begin with the parenthesis that ends it. -/
theorem commaSeparated_cons_ne {argument : Option String × Literal} (ha : IsArgument argument)
    (rest : List (List Char)) : commaSeparated (renderArgument argument :: rest) ++ [')'] ≠ [')'] := by
  obtain ⟨c, more, hc, hb⟩ := head_renderArgument ha
  rw [commaSeparated_cons, hc]
  intro h
  obtain ⟨rfl, -⟩ := List.cons.inj h
  exact absurd hb (by decide)

/-- The arguments of a list can be told from its text. -/
theorem commaSeparated_inj {arguments arguments' : List (Option String × Literal)}
    (ha : ∀ argument ∈ arguments, IsArgument argument)
    (ha' : ∀ argument ∈ arguments', IsArgument argument)
    (h : commaSeparated (arguments.map renderArgument) ++ [')'] =
      commaSeparated (arguments'.map renderArgument) ++ [')']) :
    arguments.map canonicalArgument = arguments'.map canonicalArgument := by
  induction arguments generalizing arguments' with
  | nil =>
    cases arguments' with
    | nil => rfl
    | cons argument' rest' =>
      exact absurd h.symm (commaSeparated_cons_ne (ha' argument' List.mem_cons_self) _)
  | cons argument rest ih =>
    cases arguments' with
    | nil => exact absurd h (commaSeparated_cons_ne (ha argument List.mem_cons_self) _)
    | cons argument' rest' =>
      obtain ⟨hfirst, hrest⟩ := List.forall_mem_cons.mp ha
      obtain ⟨hfirst', hrest'⟩ := List.forall_mem_cons.mp ha'
      rw [List.map_cons, List.map_cons, commaSeparated_cons, commaSeparated_cons] at h
      obtain ⟨he, h⟩ := renderArgument_append_inj hfirst hfirst' (stops_continuation _)
        (stops_continuation _) h
      rw [List.map_cons, List.map_cons, he, ih hrest hrest']
      cases rest with
      | nil =>
        cases rest' with
        | nil => rfl
        | cons next' more' => simp [continuation] at h
      | cons next more =>
        cases rest' with
        | nil => simp [continuation] at h
        | cons next' more' => exact (List.cons.inj (List.cons.inj h).2).2

/-- Arguments with a name are those that come after the others. -/
theorem gathered_inj {α : Type} {positional positional' : List α}
    {keyword keyword' : List (String × α)}
    (h : gathered positional keyword = gathered positional' keyword') :
    positional = positional' ∧ keyword = keyword' := by
  induction positional generalizing positional' with
  | nil =>
    cases positional' with
    | nil =>
      refine ⟨rfl, (List.map_inj_right ?_).mp h⟩
      rintro ⟨name, x⟩ ⟨name', x'⟩ he
      simpa using he
    | cons x' rest' =>
      cases keyword <;> simp [gathered] at h
  | cons x rest ih =>
    cases positional' with
    | nil => cases keyword' <;> simp [gathered] at h
    | cons x' rest' =>
      obtain ⟨hx, h⟩ := List.cons.inj h
      obtain ⟨rfl, rfl⟩ := ih h
      exact ⟨by rw [(Prod.mk.inj hx).2], rfl⟩

/-! ## Operations -/

theorem stops_suffix (op : Operation Literal) : Stops isNameRest op.suffix := by
  cases op with
  | read field => exact stops_nil _
  | write field literal => exact stops_cons.mpr (by decide)
  | call method positional keyword => exact stops_cons.mpr (by decide)

/-- What was written of an operation tells it, up to the NaN that is read back. -/
theorem map_canonical_eq_of_written_eq {op op' : Operation Literal} (hw : op.IsWritable)
    (hw' : op'.IsWritable) (h : op.written = op'.written) :
    op.map Literal.canonical = op'.map Literal.canonical := by
  obtain ⟨hname, h⟩ := name_append_inj hw.name hw'.name (stops_suffix op) (stops_suffix op') h
  cases op with
  | read field =>
    cases op' with
    | read field' => exact congrArg read hname
    | write field' literal' => simp [suffix] at h
    | call method' positional' keyword' => simp [suffix] at h
  | write field literal =>
    cases op' with
    | read field' => simp [suffix] at h
    | write field' literal' =>
      have hr : literal.render ++ [] = literal'.render ++ [] := by
        rw [List.append_nil, List.append_nil]
        exact List.append_cancel_left h
      have hf := (hw.arguments _ List.mem_cons_self).2
      have hf' := (hw'.arguments _ List.mem_cons_self).2
      obtain ⟨hl, -⟩ := render_append_inj hf hf' (stops_nil _) (stops_nil _) hr
      obtain rfl : field = field' := hname
      exact congrArg (write field) hl
    | call method' positional' keyword' => simp [suffix] at h
  | call method positional keyword =>
    cases op' with
    | read field' => simp [suffix] at h
    | write field' literal' => simp [suffix] at h
    | call method' positional' keyword' =>
      have he := commaSeparated_inj hw.arguments hw'.arguments (List.cons.inj h).2
      change (gathered positional keyword).map (fun argument => (argument.1, argument.2.canonical)) =
        (gathered positional' keyword').map fun argument => (argument.1, argument.2.canonical) at he
      rw [← gathered_map, ← gathered_map] at he
      obtain ⟨hp, hk⟩ := gathered_inj he
      obtain rfl : method = method' := hname
      rw [map, map, hp, hk]

/-- Requests with the same text are for the same operation: one reads, assigns or calls as the other
does, with the same names, and with arguments that are written as the same literals. Neither the
values nor the configurations can change that, as long as no object of the host is among the
arguments. -/
theorem map_literal_eq_of_source_eq {config config' : Config} {h : Handle}
    {op op' : Operation Value} {text : String}
    (hn : ∀ argument ∈ op.arguments, argument.2.Everywhere Value.IsNotHandle)
    (hn' : ∀ argument ∈ op'.arguments, argument.2.Everywhere Value.IsNotHandle)
    (hs : op.source config h = .ok text) (hs' : op'.source config' h = .ok text) :
    (op.map fun v => v.literal.canonical) = op'.map fun v => v.literal.canonical := by
  obtain ⟨ht, hw⟩ := written_of_source hn hs
  obtain ⟨ht', hw'⟩ := written_of_source hn' hs'
  have hwritten := (List.cons.inj (List.append_cancel_left (ht.symm.trans ht'))).2
  rw [← map_map Value.literal, ← map_map Value.literal,
    map_canonical_eq_of_written_eq hw hw' hwritten]

/-- Calls with one text, though their arguments differ: a name and a string, an undefined value and
null, a matrix and a list of lists, two NaN. -/
theorem map_literal_eq_of_source_eq_calls :
    let op := call "f" [.enum "a)=", .undefined, .matrix ⟨1, 2, [.integer 1, .null]⟩]
      [("inf", .float .nan)]
    let op' := call "f" [.string "a)=", .null, .array [.array [.integer 1, .undefined]]]
      [("inf", .float Binary64.nan.neg)]
    let text := "x.f(\"a)=\", None, [[1, None]], inf=float('nan'))"
    op.source {} ⟨"x"⟩ = .ok text ∧ op'.source ⟨.int64, 2, "#"⟩ ⟨"x"⟩ = .ok text ∧
      (op.map fun v => v.literal.canonical) = op'.map fun v => v.literal.canonical := by
  intro op op' text
  have hn : ∀ argument ∈ op.arguments, argument.2.Everywhere Value.IsNotHandle := by
    simp [op, arguments, gathered, Value.Everywhere, Value.EverywhereAll, Value.IsNotHandle]
  have hn' : ∀ argument ∈ op'.arguments, argument.2.Everywhere Value.IsNotHandle := by
    simp [op', arguments, gathered, Value.Everywhere, Value.EverywhereAll, Value.IsNotHandle]
  have hs : op.source {} ⟨"x"⟩ = .ok text := by rfl
  have hs' : op'.source ⟨.int64, 2, "#"⟩ ⟨"x"⟩ = .ok text := by rfl
  exact ⟨hs, hs', map_literal_eq_of_source_eq hn hn' hs hs'⟩

end LiteralBridge.Operation
