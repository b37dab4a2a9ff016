import LiteralBridge.Proofs.Literal.Readers

/-! # Reading strings

`readString_eq_ok` says that the reader of strings accepts exactly the strings of the grammar. An
escape is read by the number of characters that it takes, which `readBody` then skips. -/

namespace LiteralBridge.Literal

open Text Grammar

/-! ## Escapes -/

theorem simpleEscape?_eq_some {c decoded : Char} :
    simpleEscape? c = some decoded ↔ (c, decoded) ∈ simpleEscapes := by
  constructor
  · intro h
    unfold simpleEscape? at h
    split at h <;> simp_all [simpleEscapes, eq_comm]
  · intro h
    simp only [simpleEscapes, List.mem_cons, Prod.mk.injEq, List.not_mem_nil, or_false] at h
    rcases h with ⟨rfl, rfl⟩ | ⟨rfl, rfl⟩ | ⟨rfl, rfl⟩ | ⟨rfl, rfl⟩ | ⟨rfl, rfl⟩ | ⟨rfl, rfl⟩ |
      ⟨rfl, rfl⟩ | ⟨rfl, rfl⟩ | ⟨rfl, rfl⟩ | ⟨rfl, rfl⟩ <;> rfl

theorem hexEscapeWidth?_eq_some {c : Char} {width : Nat} :
    hexEscapeWidth? c = some width ↔ (c, width) ∈ hexEscapes := by
  constructor
  · intro h
    simp only [hexEscapeWidth?] at h
    split at h <;> simp_all [hexEscapes, eq_comm]
  · intro h
    simp only [hexEscapes, List.mem_cons, Prod.mk.injEq, List.not_mem_nil, or_false] at h
    rcases h with ⟨rfl, rfl⟩ | ⟨rfl, rfl⟩ | ⟨rfl, rfl⟩ <;> rfl

theorem codePoint_eq_ok {code : Nat} {c : Char} : codePoint code = .ok c ↔ code = c.toNat := by
  constructor
  · intro h
    by_cases hv : code.isValidChar
    · rw [codePoint, dif_pos hv, Except.ok.injEq] at h
      rw [← h]
      exact (UInt32.toNat_ofNatLT ..).symm
    · rw [codePoint, dif_neg hv] at h
      simp at h
  · rintro rfl
    have hv : c.toNat.isValidChar := c.valid
    rw [codePoint, dif_pos hv, Except.ok.injEq]
    exact Char.ext (UInt32.toNat_inj.mp (UInt32.toNat_ofNatLT ..))

theorem isSome_of_readDigits {value? : Char → Option Nat} {base : Nat} {digits : List Char}
    {n code : Nat} (h : readDigits value? base n digits = some code) :
    ∀ c ∈ digits, (value? c).isSome = true := by
  induction digits generalizing n with
  | nil => simp
  | cons d rest ih =>
    intro c hc
    simp only [readDigits] at h
    cases hd : value? d with
    | none => simp [hd] at h
    | some value =>
      rw [hd] at h
      rcases List.mem_cons.mp hc with rfl | hc
      · simp [hd]
      · exact ih h c hc

theorem octalDigits_eq (text : List Char) :
    octalDigits text = (text.takeWhile isOctalDigit).take 3 :=
  List.take_takeWhile.symm

theorem octalDigits_append_drop (text : List Char) :
    octalDigits text ++ text.drop (octalDigits text).length = text := by
  apply List.prefix_iff_eq_append.mp
  rw [octalDigits_eq]
  exact (List.take_prefix ..).trans (List.takeWhile_prefix _)

/-- Fewer than three octal digits are all there are. -/
theorem stops_drop_octalDigits {text : List Char} (h : (octalDigits text).length < 3) :
    Stops isOctalDigit (text.drop (octalDigits text).length) := by
  have hd : octalDigits text = text.takeWhile isOctalDigit := by
    rw [octalDigits_eq] at h ⊢
    apply List.take_of_length_le
    rw [List.length_take] at h
    omega
  have hr : text.drop (octalDigits text).length = text.dropWhile isOctalDigit := by
    have ha := octalDigits_append_drop text
    rw [hd] at ha ⊢
    exact List.append_cancel_left (ha.trans List.takeWhile_append_dropWhile.symm)
  rw [hr]
  exact stops_dropWhile isOctalDigit text

theorem octalDigits_append {digits next : List Char} (h : ∀ c ∈ digits, isOctalDigit c = true)
    (le : digits.length ≤ 3) (longest : digits.length < 3 → Stops isOctalDigit next) :
    octalDigits (digits ++ next) = digits := by
  rw [octalDigits_eq]
  by_cases hl : digits.length < 3
  · rw [takeWhile_append_of_stops h (longest hl), List.take_of_length_le le]
  · have hl : digits.length = 3 := by omega
    rw [List.takeWhile_append_of_pos h, ← hl, List.take_left]

/-- The digits of octal escapes are no letters of other escapes. -/
theorem escape_of_isOctalDigit {c : Char} (h : isOctalDigit c = true) :
    simpleEscape? c = Option.none ∧ hexEscapeWidth? c = Option.none ∧ c ≠ '\n' := by
  refine ⟨?_, ?_, ?_⟩
  · cases hs : simpleEscape? c with
    | none => rfl
    | some decoded =>
      have hd : simpleEscapes.all (fun e => !isOctalDigit e.1) = true := by decide
      have hc := List.all_eq_true.mp hd _ (simpleEscape?_eq_some.mp hs)
      simp [h] at hc
  · cases hw : hexEscapeWidth? c with
    | none => rfl
    | some width =>
      have hd : hexEscapes.all (fun e => !isOctalDigit e.1) = true := by decide
      have hc := List.all_eq_true.mp hd _ (hexEscapeWidth?_eq_some.mp hw)
      simp [h] at hc
  · rintro rfl
    exact absurd h (by decide)

/-- The letters of hexadecimal escapes have no other meaning. -/
theorem escape_of_hexEscape {c : Char} {width : Nat} (h : (c, width) ∈ hexEscapes) :
    simpleEscape? c = Option.none ∧ c ≠ '\n' := by
  simp only [hexEscapes, List.mem_cons, Prod.mk.injEq, List.not_mem_nil, or_false] at h
  rcases h with ⟨rfl, -⟩ | ⟨rfl, -⟩ | ⟨rfl, -⟩ <;> decide

theorem map_codePoint_eq_ok {code taken : Nat} {r : Option Char × Nat} :
    ((codePoint code).map fun decoded => (some decoded, taken)) = .ok r ↔
      ∃ c : Char, code = c.toNat ∧ r = (some c, taken) := by
  cases h : codePoint code with
  | error reason =>
    simp only [Except.map, reduceCtorEq, false_iff, not_exists, not_and]
    rintro c rfl
    rw [codePoint_eq_ok.mpr rfl] at h
    simp at h
  | ok c =>
    obtain rfl := codePoint_eq_ok.mp h
    simp only [Except.map, Except.ok.injEq]
    constructor
    · rintro rfl
      exact ⟨c, rfl, rfl⟩
    · rintro ⟨d, hd, rfl⟩
      rw [Char.toNat_inj.mp hd]

theorem escape_take_of_hex {c decoded : Char} {rest : List Char} {width : Nat}
    (hw : hexEscapeWidth? c = some width) (hl : ¬ (rest.take width).length < width)
    (hr : readHex (rest.take width) = some decoded.toNat) :
    Escape (c :: rest) [decoded] (rest.drop width) := by
  have hlen : (rest.take width).length = width :=
    Nat.le_antisymm (List.length_take_le ..) (Nat.not_lt.mp hl)
  have hm : (c, (rest.take width).length) ∈ hexEscapes := by
    rw [hlen]
    exact hexEscapeWidth?_eq_some.mp hw
  have h : Escape (c :: (rest.take width ++ rest.drop width)) [decoded] (rest.drop width) :=
    .hex hm hr
  rwa [List.take_append_drop] at h

theorem escape_octalDigits {text : List Char} {decoded : Char}
    (he : ¬ (octalDigits text).isEmpty = true)
    (hr : readDigits octalValue? 8 0 (octalDigits text) = some decoded.toNat) :
    Escape text [decoded] (text.drop (octalDigits text).length) := by
  have hpos : 1 ≤ (octalDigits text).length := List.length_pos_iff.mpr (by simpa using he)
  have hle : (octalDigits text).length ≤ 3 := by
    rw [octalDigits_eq]
    exact List.length_take_le ..
  have h := Escape.octal hpos hle hr stops_drop_octalDigits
  rwa [octalDigits_append_drop] at h

/-- An escape that was read is one of the grammar. -/
theorem escape_of_readEscape {text : List Char} {decoded : Option Char} {taken : Nat}
    (h : readEscape text = .ok (decoded, taken)) :
    Escape text decoded.toList (text.drop taken) := by
  cases text with
  | nil => simp [readEscape] at h
  | cons c rest =>
    rw [readEscape] at h
    cases hs : simpleEscape? c with
    | some simple =>
      simp only [hs, Except.ok.injEq, Prod.mk.injEq] at h
      obtain ⟨rfl, rfl⟩ := h
      exact .simple (simpleEscape?_eq_some.mp hs)
    | none =>
      simp only [hs] at h
      by_cases hn : c = '\n'
      · simp only [hn, if_pos, Except.ok.injEq, Prod.mk.injEq] at h
        obtain ⟨rfl, rfl⟩ := h
        exact hn ▸ .continuedLine
      rw [if_neg hn] at h
      cases hw : hexEscapeWidth? c with
      | some width =>
        simp only [hw] at h
        by_cases hl : (rest.take width).length < width
        · rw [if_pos hl] at h
          simp at h
        rw [if_neg hl] at h
        cases hr : readHex (rest.take width) with
        | none => simp [hr] at h
        | some code =>
          simp only [hr] at h
          obtain ⟨d, rfl, he⟩ := map_codePoint_eq_ok.mp h
          obtain ⟨rfl, rfl⟩ := Prod.mk.inj he
          exact escape_take_of_hex hw hl hr
      | none =>
        simp only [hw] at h
        by_cases he : (octalDigits (c :: rest)).isEmpty = true
        · simp [he] at h
        rw [if_neg he] at h
        cases hr : readDigits octalValue? 8 0 (octalDigits (c :: rest)) with
        | none => simp [hr] at h
        | some code =>
          simp only [hr] at h
          obtain ⟨d, rfl, he'⟩ := map_codePoint_eq_ok.mp h
          obtain ⟨rfl, rfl⟩ := Prod.mk.inj he'
          exact escape_octalDigits he hr

/-- The reader takes the characters of an escape of the grammar, no more and no fewer. -/
theorem readEscape_of_escape {text decoded next : List Char} (h : Escape text decoded next) :
    ∃ c taken, readEscape text = .ok (c, taken) ∧ c.toList = decoded ∧ text.drop taken = next := by
  cases h with
  | @simple c decoded next h =>
    refine ⟨some decoded, 1, ?_, rfl, rfl⟩
    simp [readEscape, simpleEscape?_eq_some.mpr h]
  | continuedLine => exact ⟨Option.none, 1, rfl, rfl, rfl⟩
  | @octal digits next decoded pos le code longest =>
    have hd : ∀ c ∈ digits, isOctalDigit c = true := isSome_of_readDigits code
    refine ⟨some decoded, digits.length, ?_, rfl, List.drop_left ..⟩
    cases digits with
    | nil => simp at pos
    | cons d rest =>
      obtain ⟨hs, hw, hn⟩ := escape_of_isOctalDigit (hd d (List.mem_cons_self ..))
      have ho := octalDigits_append hd le longest
      rw [List.cons_append] at ho ⊢
      simp only [readEscape, hs, hw, if_neg hn, ho, code]
      exact map_codePoint_eq_ok.mpr ⟨decoded, rfl, rfl⟩
  | @hex letter digits next decoded h code =>
    refine ⟨some decoded, digits.length + 1, ?_, rfl, by simp⟩
    have hs := escape_of_hexEscape h
    simp only [readEscape, hs.1, if_neg hs.2, hexEscapeWidth?_eq_some.mpr h, List.take_left,
      Nat.lt_irrefl, if_false, code]
    exact map_codePoint_eq_ok.mpr ⟨decoded, rfl, rfl⟩

/-! ## Strings -/

/-- Skipping the characters of an escape is dropping them. -/
theorem readBody_drop (start : List Char) (quote : Char) (taken : Nat) (text : List Char) :
    readBody start quote taken text = readBody start quote 0 (text.drop taken) := by
  induction text generalizing taken with
  | nil => cases taken <;> simp [readBody]
  | cons c rest ih =>
    cases taken with
    | zero => rfl
    | succ taken =>
      rw [readBody, ih, List.drop_succ_cons]

theorem inside_of_readBody {start : List Char} {quote : Char} {taken : Nat}
    {text content next : List Char} (h : readBody start quote taken text = .ok (content, next)) :
    Inside quote (text.drop taken) content next := by
  induction text generalizing taken content with
  | nil => cases taken <;> simp [readBody] at h
  | cons c rest ih =>
    cases taken with
    | succ taken => exact ih h
    | zero =>
      rw [readBody] at h
      by_cases hq : c = quote
      · simp only [if_pos hq, Except.ok.injEq, Prod.mk.injEq] at h
        obtain ⟨rfl, rfl⟩ := h
        exact hq ▸ .close
      rw [if_neg hq] at h
      by_cases hb : c = '\\'
      · rw [if_pos hb] at h
        cases he : readEscape rest with
        | error reason => simp [he] at h
        | ok read =>
          obtain ⟨decoded, taken⟩ := read
          simp only [he] at h
          obtain ⟨⟨cs, after⟩, hr, hok⟩ := bind_eq_ok.mp h
          obtain ⟨rfl, rfl⟩ := Prod.mk.inj (Except.ok.inj hok)
          exact hb ▸ .escape (escape_of_readEscape he) (ih hr)
      rw [if_neg hb] at h
      cases hl : isLineBreak c with
      | true => simp [hl] at h
      | false =>
        simp only [hl, Bool.false_eq_true, if_false] at h
        obtain ⟨⟨cs, after⟩, hr, hok⟩ := bind_eq_ok.mp h
        obtain ⟨rfl, rfl⟩ := Prod.mk.inj (Except.ok.inj hok)
        exact .plain hq hb hl (ih hr)

theorem readBody_of_inside (start : List Char) {quote : Char} (hquote : quote ≠ '\\')
    {text content next : List Char} (h : Inside quote text content next) :
    readBody start quote 0 text = .ok (content, next) := by
  induction h with
  | close => simp [readBody]
  | plain hq hb hl _ ih => simp [readBody, hq, hb, hl, ih, ok_bind]
  | escape he _ ih =>
    obtain ⟨c, taken, hr, rfl, rfl⟩ := readEscape_of_escape he
    rw [readBody, if_neg hquote.symm, if_pos rfl]
    simp only [hr, readBody_drop start quote taken, ih, ok_bind]

/-- The reader of strings accepts exactly the strings of the grammar. -/
theorem readString_eq_ok {c : Char} {text next : List Char} {s : String} (hc : c = '"' ∨ c = '\'') :
    readString (c :: text) = .ok (s, next) ↔ Quoted (c :: text) s next := by
  constructor
  · intro h
    obtain ⟨⟨content, after⟩, hr, hok⟩ := bind_eq_ok.mp h
    obtain ⟨rfl, rfl⟩ := Prod.mk.inj (Except.ok.inj hok)
    refine ⟨c, text, hc, rfl, ?_⟩
    rw [String.toList_ofList]
    exact inside_of_readBody hr
  · rintro ⟨quote, inside, hq, he, h⟩
    obtain ⟨rfl, rfl⟩ := List.cons.inj he
    have hb : c ≠ '\\' := by
      rcases hq with rfl | rfl <;> decide
    simp only [readString, readBody_of_inside _ hb h, ok_bind, String.ofList_toList]

/-! ## Lengths -/

theorem Grammar.Escape.length_lt {text decoded next : List Char} (h : Escape text decoded next) :
    next.length < text.length := by
  cases h with
  | octal pos =>
    simp only [List.length_append]
    omega
  | hex =>
    simp only [List.length_cons, List.length_append]
    omega
  | _ => simp

theorem Grammar.Inside.length_lt {quote : Char} {text content next : List Char}
    (h : Inside quote text content next) : next.length < text.length := by
  induction h with
  | close => simp
  | plain _ _ _ _ ih =>
    simp only [List.length_cons]
    omega
  | escape he _ ih =>
    have hl := he.length_lt
    simp only [List.length_cons]
    omega

theorem Grammar.Quoted.length_lt {text next : List Char} {s : String} (h : Quoted text s next) :
    next.length < text.length := by
  obtain ⟨quote, inside, -, rfl, hi⟩ := h
  have hl := hi.length_lt
  simp only [List.length_cons]
  omega

end LiteralBridge.Literal
