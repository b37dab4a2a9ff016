import LiteralBridge.Proofs.Literal.Acceptance
import LiteralBridge.Proofs.Literal.Lines
import LiteralBridge.Proofs.Literal.Quoting
import LiteralBridge.Proofs.Literal.Tree
import LiteralBridge.Proofs.Text.Trimming

/-! # Quotes come in pairs

A scan tells what is inside of strings from what is outside, and reads nothing else. A literal leaves it
outside (`scan_of_parse`), so a text that leaves it inside of a string is none. Of a text that is begun in
the middle of a string the scan takes the inside for the outside: it is inside of strings where the text
is not, unless it meets a backslash outside (`turned_render`). -/

namespace LiteralBridge.Literal

open Text Grammar

/-! ## The scan -/

/-- Where a scan is. It is lost after a backslash outside of strings, where none can stand. -/
inductive Zone where
  | outside
  | inside (quote : Char)
  /-- Behind a backslash in a string. -/
  | escaped (quote : Char)
  | lost
deriving DecidableEq

/-- Where a scan is after a character. -/
def Zone.next : Zone → Char → Zone
  | outside, c => if c = '"' ∨ c = '\'' then inside c else if c = '\\' then lost else outside
  | inside quote, c => if c = quote then outside else if c = '\\' then escaped quote else inside quote
  | escaped quote, _ => inside quote
  | lost, _ => lost

/-- Where a scan is after a text. -/
def scan (zone : Zone) (text : List Char) : Zone :=
  text.foldl Zone.next zone

@[simp] theorem scan_cons (zone : Zone) (c : Char) (text : List Char) :
    scan zone (c :: text) = scan (zone.next c) text := rfl

@[simp] theorem scan_append (zone : Zone) (text more : List Char) :
    scan zone (text ++ more) = scan (scan zone text) more :=
  List.foldl_append

@[simp] theorem scan_lost (text : List Char) : scan .lost text = .lost := by
  induction text with
  | nil => rfl
  | cons c rest ih => exact ih

def isMark (c : Char) : Bool :=
  c == '"' || c == '\'' || c == '\\'

theorem isMark_eq_false_iff {c : Char} :
    isMark c = false ↔ c ≠ '"' ∧ c ≠ '\'' ∧ c ≠ '\\' := by
  simp [isMark, and_assoc]

/-- A class without the marks. -/
theorem isMark_eq_false_of {p : Char → Bool}
    (hp : p '"' = false ∧ p '\'' = false ∧ p '\\' = false) {c : Char} (hc : p c = true) :
    isMark c = false := by
  have ne {mark : Char} (hm : p mark = false) : c ≠ mark := by
    rintro rfl
    rw [hm] at hc
    exact Bool.false_ne_true hc
  exact isMark_eq_false_iff.mpr ⟨ne hp.1, ne hp.2.1, ne hp.2.2⟩

/-- A text without marks. -/
def Plain (text : List Char) : Prop :=
  ∀ c ∈ text, isMark c = false

instance (text : List Char) : Decidable (Plain text) :=
  decidable_of_iff (text.all fun c => !isMark c) (by simp [Plain])

theorem plain_of_forall {p : Char → Bool}
    (hp : p '"' = false ∧ p '\'' = false ∧ p '\\' = false) {text : List Char}
    (h : ∀ c ∈ text, p c = true) : Plain text :=
  fun c hc => isMark_eq_false_of hp (h c hc)

theorem scan_outside_of_plain {text : List Char} (h : Plain text) : scan .outside text = .outside := by
  induction text with
  | nil => rfl
  | cons c rest ih =>
    obtain ⟨hc, hrest⟩ := List.forall_mem_cons.mp h
    obtain ⟨hdouble, hsingle, hbackslash⟩ := isMark_eq_false_iff.mp hc
    rw [scan_cons, Zone.next, if_neg (not_or.mpr ⟨hdouble, hsingle⟩), if_neg hbackslash, ih hrest]

theorem scan_inside_of_plain {quote : Char} (hq : isMark quote = true) {text : List Char}
    (h : Plain text) : scan (.inside quote) text = .inside quote := by
  induction text with
  | nil => rfl
  | cons c rest ih =>
    obtain ⟨hc, hrest⟩ := List.forall_mem_cons.mp h
    have hne : c ≠ quote := by
      rintro rfl
      rw [hc] at hq
      exact Bool.false_ne_true hq
    rw [scan_cons, Zone.next, if_neg hne, if_neg (isMark_eq_false_iff.mp hc).2.2, ih hrest]

/-! ## Literals are closed -/

/-- The text goes on with `next` after a part that a scan passes from one place to another. -/
def Passes (zone zone' : Zone) (text next : List Char) : Prop :=
  ∃ token, text = token ++ next ∧ scan zone token = zone'

/-- A part that opens no string or closes those that it opens. -/
abbrev Closed (text next : List Char) : Prop :=
  Passes .outside .outside text next

theorem passes_append {zone zone' : Zone} {token : List Char} (h : scan zone token = zone')
    (next : List Char) : Passes zone zone' (token ++ next) next :=
  ⟨token, rfl, h⟩

theorem passes_cons {zone zone' : Zone} {c : Char} (h : zone.next c = zone') (next : List Char) :
    Passes zone zone' (c :: next) next :=
  ⟨[c], rfl, h⟩

theorem closed_append {token : List Char} (h : Plain token) (next : List Char) :
    Closed (token ++ next) next :=
  passes_append (scan_outside_of_plain h) next

theorem closed_cons {c : Char} (h : isMark c = false) (next : List Char) : Closed (c :: next) next :=
  closed_append (List.forall_mem_singleton.mpr h) next

theorem Passes.trans {zone zone' zone'' : Zone} {text middle next : List Char}
    (h : Passes zone zone' text middle) (h' : Passes zone' zone'' middle next) :
    Passes zone zone'' text next := by
  obtain ⟨token, rfl, ht⟩ := h
  obtain ⟨token', rfl, ht'⟩ := h'
  exact ⟨token ++ token', (List.append_assoc ..).symm, by rw [scan_append, ht, ht']⟩

theorem plain_of_isBlank {blanks : List Char} (h : ∀ c ∈ blanks, isBlank c = true) : Plain blanks :=
  plain_of_forall (by decide) h

theorem Grammar.Blanks.closed {text next : List Char} (h : Blanks text next) : Closed text next := by
  obtain ⟨blanks, hb, rfl⟩ := h
  exact closed_append (plain_of_isBlank hb) next

/-! ### Strings -/

theorem plain_of_readDigits {value? : Char → Option Nat} {base n code : Nat} {digits : List Char}
    (hv : (value? '"').isSome = false ∧ (value? '\'').isSome = false ∧ (value? '\\').isSome = false)
    (h : readDigits value? base n digits = some code) : Plain digits :=
  plain_of_forall hv (isSome_of_readDigits h)

section Strings

variable {quote : Char} (hq : quote = '"' ∨ quote = '\'')
include hq

theorem isMark_quote : isMark quote = true := by
  rcases hq with rfl | rfl <;> decide

/-- An escape ends in the string that it is in. -/
theorem Grammar.Escape.passes {text decoded next : List Char} (h : Escape text decoded next) :
    Passes (.escaped quote) (.inside quote) text next := by
  have rest {digits : List Char} (hd : Plain digits) (next : List Char) :
      Passes (.inside quote) (.inside quote) (digits ++ next) next :=
    passes_append (scan_inside_of_plain (isMark_quote hq) hd) next
  cases h with
  | simple => exact passes_cons rfl next
  | continuedLine => exact passes_cons rfl next
  | @octal digits _ _ pos le code longest =>
    have hd := plain_of_readDigits (by decide) code
    cases digits with
    | nil => simp at pos
    | cons d digits => exact (passes_cons rfl _).trans (rest (List.forall_mem_cons.mp hd).2 next)
  | hex h code => exact (passes_cons rfl _).trans (rest (plain_of_readDigits (by decide) code) next)

theorem Grammar.Inside.passes {text content next : List Char} (h : Inside quote text content next) :
    Passes (.inside quote) .outside text next := by
  induction h with
  | close =>
    have hstep : (Zone.inside quote).next quote = .outside := if_pos rfl
    exact passes_cons hstep _
  | @plain c _ _ _ hne hb _ _ ih =>
    have hstep : (Zone.inside quote).next c = .inside quote := by
      rw [Zone.next, if_neg hne, if_neg hb]
    exact (passes_cons hstep _).trans ih
  | escape he _ ih =>
    have hne : '\\' ≠ quote := by
      rcases hq with rfl | rfl <;> decide
    have hstep : (Zone.inside quote).next '\\' = .escaped quote := by
      rw [Zone.next, if_neg hne, if_pos rfl]
    exact (passes_cons hstep _).trans ((he.passes hq).trans ih)

end Strings

theorem Grammar.Quoted.closed {text next : List Char} {s : String} (h : Quoted text s next) :
    Closed text next := by
  obtain ⟨quote, inside, hq, rfl, hi⟩ := h
  have hstep : Zone.outside.next quote = .inside quote := if_pos hq
  exact (passes_cons hstep _).trans (hi.passes hq)

/-! ### Scalars -/

theorem plain_of_isNumeral {text : List Char} (h : ∀ c ∈ text, isNumeral c = true) : Plain text :=
  plain_of_forall (by decide) h

theorem Grammar.Name.closed {text next : List Char} {literal : Literal} (h : Name text literal next) :
    Closed text next := by
  cases h with
  | constant h =>
    have hplain : ∀ e ∈ constants, Plain e.1.toList := by decide
    exact closed_append (hplain _ h) next
  | floatCall hb hq ha =>
    refine (closed_append (by decide) _).trans ((closed_cons (by decide) _).trans ?_)
    exact hb.closed.trans (hq.closed.trans (ha.closed.trans (closed_cons (by decide) next)))
  | setCall h =>
    refine (closed_append (by decide) _).trans ((closed_cons (by decide) _).trans ?_)
    exact h.closed.trans (closed_cons (by decide) next)

theorem Grammar.Number.closed {text next : List Char} {literal : Literal}
    (h : Number text literal next) : Closed text next := by
  have minus (negative : Bool) (next : List Char) : Closed (minus negative ++ next) next :=
    closed_append (plain_of_isNumeral (isNumeral_of_mem_minus negative)) next
  cases h with
  | integer hd =>
    have hplain := plain_of_isNumeral fun c hc => isNumeral_of_isDigit (hd.2 c hc)
    exact (minus _ _).trans (closed_append hplain next)
  | float h => exact (minus _ _).trans (closed_append (plain_of_isNumeral h.isNumeral) next)

theorem Grammar.Scalar.closed {text next : List Char} {literal : Literal}
    (h : Scalar text literal next) : Closed text next := by
  cases h with
  | name h => exact h.closed
  | negated h => exact (closed_cons (by decide) _).trans h.closed
  | number h => exact h.closed
  | string h => exact h.closed

/-! ### Brackets -/

theorem Grammar.Separated.closed {α : Type} {Item : List Char → α → List Char → Prop}
    (hi : ∀ {text x next}, Item text x next → Closed text next) {text next : List Char} {xs : List α}
    {comma : Bool} (h : Separated Item text xs comma next) : Closed text next := by
  induction h with
  | nil h => exact h.closed
  | last hb hx ha => exact hb.closed.trans ((hi hx).trans ha.closed)
  | more hb hx ha _ ih =>
    refine hb.closed.trans ((hi hx).trans (ha.closed.trans ?_))
    exact (closed_cons (by decide) _).trans ih

theorem Grammar.Bracketed.closed {Item : List Char → Literal → List Char → Prop}
    (hi : ∀ {text literal next}, Item text literal next → Closed text next) {text next : List Char}
    {literal : Literal} (h : Bracketed Item text literal next) : Closed text next := by
  have entry {text next : List Char} {entry : Literal × Literal} (h : Entry Item text entry next) :
      Closed text next := by
    obtain ⟨after, rest, start, hk, ha, hb, hv⟩ := h
    refine (hi hk).trans (ha.closed.trans ((closed_cons (by decide) _).trans ?_))
    exact hb.closed.trans (hi hv)
  have brackets {opening closing : Char} {text next : List Char} (ho : isMark opening = false)
      (hc : isMark closing = false) (h : Closed text (closing :: next)) :
      Closed (opening :: text) next :=
    (closed_cons ho _).trans (h.trans (closed_cons hc next))
  cases h with
  | list h => exact brackets (by decide) (by decide) (h.closed hi)
  | group h => exact brackets (by decide) (by decide) (h.closed hi)
  | tuple h => exact brackets (by decide) (by decide) (h.closed hi)
  | set h => exact brackets (by decide) (by decide) (h.closed hi)
  | dict h => exact brackets (by decide) (by decide) (h.closed entry)

theorem Grammar.Denotes.closed {room : Nat} {text next : List Char} {literal : Literal}
    (h : Denotes room text literal next) : Closed text next := by
  induction room generalizing text literal next with
  | zero => exact Scalar.closed h
  | succ room ih =>
    rcases h with h | h
    · exact h.closed
    · exact h.closed ih

/-- All strings of a literal are closed at its end. -/
theorem scan_of_parse {limit : Nat} {text : String} {literal : Literal}
    (h : parse limit text = .ok literal) : scan .outside text.toList = .outside := by
  obtain ⟨start, rest, hb, hd, ha⟩ := readText_eq_ok.mp (parse_eq_ok.mp h)
  obtain ⟨token, ht, hs⟩ := hb.closed.trans (hd.closed.trans ha.closed)
  rw [ht, List.append_nil, hs]

/-- White space around a text makes no difference to a scan that ends outside. -/
theorem scan_of_scan_trim {text : List Char} (h : scan .outside (trim text) = .outside) :
    scan .outside text = .outside := by
  have hfront : Plain (text.takeWhile isBlank) :=
    plain_of_isBlank (List.all_eq_true.mp List.all_takeWhile)
  have hback : Plain ((trimStart text).rtakeWhile isBlank) :=
    plain_of_isBlank fun c hc => List.mem_rtakeWhile_imp hc
  rw [← takeWhile_append_trim text, scan_append, scan_append, scan_outside_of_plain hfront, h, scan_outside_of_plain hback]

/-! ## Texts that are scanned the other way round -/

/-- Inside of a string that was never opened, or lost. -/
def Zone.IsTurned (zone : Zone) : Prop :=
  zone = .inside '"' ∨ zone = .lost

/-- A scan that begins inside of a string does not end outside. -/
def Turned (text : List Char) : Prop :=
  (scan (.inside '"') text).IsTurned

theorem Turned.scan {text : List Char} (h : Turned text) {zone : Zone} (hz : zone.IsTurned) :
    (scan zone text).IsTurned := by
  rcases hz with rfl | rfl
  · exact h
  · exact .inr (scan_lost text)

theorem turned_append {text more : List Char} (h : Turned text) (h' : Turned more) :
    Turned (text ++ more) := by
  rw [Turned, scan_append]
  exact h'.scan h

theorem turned_of_plain {text : List Char} (h : Plain text) : Turned text :=
  .inl (scan_inside_of_plain (by decide) h)

theorem turned_cons {c : Char} (hc : isMark c = false) {text : List Char} (h : Turned text) :
    Turned (c :: text) :=
  turned_append (turned_of_plain (List.forall_mem_singleton.mpr hc)) h

/-- The inside of a written string has no quotes of its own but behind backslashes. -/
theorem scan_flatMap_escapeChar (cs : List Char) :
    scan .outside (cs.flatMap escapeChar) = .outside ∨ scan .outside (cs.flatMap escapeChar) = .lost := by
  induction cs with
  | nil => exact .inl rfl
  | cons c cs ih =>
    rw [List.flatMap_cons, scan_append]
    rcases escapeChar_cases c with ⟨escape, he, -⟩ | ⟨he, hquote, hbackslash, -⟩
    · rw [he, scan_cons, Zone.next, if_neg (by decide), if_pos rfl, scan_lost, scan_lost]
      exact .inr rfl
    · have hsingle : c ≠ '\'' := by
        rintro rfl
        cases he
      rw [he, scan_outside_of_plain]
      · exact ih
      · exact List.forall_mem_singleton.mpr (isMark_eq_false_iff.mpr ⟨hquote, hsingle, hbackslash⟩)

/-- A string that is begun in the middle. -/
theorem isTurned_scan_inside (cs : List Char) :
    (scan .outside (cs.flatMap escapeChar ++ ['"'])).IsTurned := by
  rw [scan_append]
  rcases scan_flatMap_escapeChar cs with h | h
  · rw [h]
    exact .inl rfl
  · rw [h]
    exact .inr rfl

theorem turned_renderString (s : String) : Turned (renderString s) :=
  isTurned_scan_inside s.toList

theorem turned_bracketed {opening closing : Char} {parts : List (List Char)}
    (ho : isMark opening = false) (hc : isMark closing = false) (h : ∀ part ∈ parts, Turned part) :
    Turned (bracketed opening closing parts) := by
  have separated : Turned (commaSeparated parts) := by
    induction parts with
    | nil => exact .inl rfl
    | cons part rest ih =>
      obtain ⟨hpart, hrest⟩ := List.forall_mem_cons.mp h
      cases rest with
      | nil => exact hpart
      | cons next more =>
        rw [commaSeparated]
        exact turned_append hpart (turned_cons (by decide) (turned_cons (by decide) (ih hrest)))
  rw [bracketed]
  exact turned_cons ho (turned_append separated (turned_cons hc (.inl rfl)))

theorem turned_parenthesized {parts : List (List Char)} (h : ∀ part ∈ parts, Turned part) :
    Turned (parenthesized parts) := by
  unfold parenthesized
  split
  · next part =>
    exact turned_cons (by decide) (turned_append (h part List.mem_cons_self) (turned_of_plain (by decide)))
  · exact turned_bracketed (by decide) (by decide) h

theorem turned_renderSet {parts : List (List Char)} (h : ∀ part ∈ parts, Turned part) :
    Turned (renderSet parts) := by
  unfold renderSet
  split
  · exact turned_of_plain (by decide)
  · exact turned_bracketed (by decide) (by decide) h

/-- The single quotes of a call do not matter inside of double ones. -/
theorem turned_renderFloat (x : Binary64) : Turned (renderFloat x) := by
  unfold renderFloat
  split
  · exact .inl (by decide)
  split
  · next hfinite => exact turned_of_plain (plain_of_isNumeral (isNumeral_of_mem_renderFinite hfinite))
  split
  · exact .inl (by decide)
  · exact .inl (by decide)

/-- A scan that comes to a literal inside of a string is not outside at its end. -/
theorem turned_render (literal : Literal) : Turned literal.render := by
  induction literal with
  | none => exact turned_of_plain (by decide)
  | bool b => cases b <;> exact turned_of_plain (by decide)
  | int i => exact turned_of_plain (plain_of_isNumeral (isNumeral_of_mem_decimalInt i))
  | float x => exact turned_renderFloat x
  | str s => exact turned_renderString s
  | list items ih =>
    rw [render, renderAll_eq_map]
    exact turned_bracketed (by decide) (by decide) (List.forall_mem_map.mpr ih)
  | tuple items ih =>
    rw [render, renderAll_eq_map]
    exact turned_parenthesized (List.forall_mem_map.mpr ih)
  | set items ih =>
    rw [render, renderAll_eq_map]
    exact turned_renderSet (List.forall_mem_map.mpr ih)
  | dict entries ih =>
    rw [render, renderEntries_eq_map]
    refine turned_bracketed (by decide) (by decide) (List.forall_mem_map.mpr fun entry he => ?_)
    exact turned_append (ih entry he).1 (turned_cons (by decide) (turned_cons (by decide) (ih entry he).2))

end LiteralBridge.Literal
