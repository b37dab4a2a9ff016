import LiteralBridge.Proofs.Walker.Cursor

/-! # Walking over strings

The walk over a string ends as `readString` does (`accords_string`). A fault of an escape is reported
at the backslash, which stands one byte before the place where the walk over the escape begins. -/

namespace LiteralBridge.Literal

open Text Grammar

namespace Walker

variable (text : String)

def skipTurn (p : Char → Bool) : Unit → Walker (ForInStep Unit) := fun () => do
  match ← peek text with
  | some c =>
    if p c then
      let _ ← bump text
      return .yield ()
    else return .done ()
  | Option.none => return .done ()

def skipWhile (p : Char → Bool) : Walker Unit :=
  loop (skipTurn text p) (text.length + 1) ()

def expect (c : Char) : Walker Unit := do
  match ← peek text with
  | some found =>
    if found = c then
      let _ ← bump text
      return ()
    else fail (.wanted c (some found))
  | Option.none => fail (.wanted c Option.none)

/-- Takes at most `count` octal digits, which continue a number. -/
def octal : (count code : Nat) → Walker Nat
  | 0, code => return code
  | count + 1, code => do
    match (← peek text).bind octalValue? with
    | some d =>
      let _ ← bump text
      octal count (code * 8 + d)
    | Option.none => return code

/-- Takes `count` hexadecimal digits, which continue a number of 32 bits. -/
def hexNumber (start : Nat) : (count code : Nat) → Walker Nat
  | 0, code => return code
  | count + 1, code => do
    match (← peek text).bind hexValue? with
    | some d =>
      let _ ← bump text
      if code * 16 + d < 0x100000000 then hexNumber start count (code * 16 + d)
      else throw .unreachable
    | Option.none => failAt start .truncatedHex

def character (start code : Nat) : Walker (Option Char) :=
  match codePoint code with
  | .ok c => return some c
  | .error reason => failAt start reason

/-- Takes an escape after its backslash, and gives what it stands for. -/
def escape : Walker (Option Char) := do
  let here ← cursor
  if here.pos = 0 then throw .underflow
  else
    let start := here.pos - 1
    match ← bump text with
    | Option.none => failAt start .unfinishedEscape
    | some c =>
      match simpleEscape? c with
      | some decoded => return some decoded
      | Option.none =>
        if c = '\n' then return Option.none
        else
          match octalValue? c with
          | some d =>
            let code ← octal text 2 d
            character start code
          | Option.none =>
            match hexEscapeWidth? c with
            | some width =>
              let code ← hexNumber text start width 0
              character start code
            | Option.none => failAt start (.unknownEscape c)

def stringTurn (start : Nat) (quote : Char) (content : List Char) :
    Walker (ForInStep (List Char)) := do
  match ← bump text with
  | Option.none => failAt start .unclosedString
  | some c =>
    if c = quote then return .done content
    else if c = '\\' then
      let decoded ← escape text
      return .yield (content ++ decoded.toList)
    else if isLineBreak c then fail .lineBreakInString
    else return .yield (content ++ [c])

def string : Walker String := do
  let here ← cursor
  match ← bump text with
  | some quote =>
    if quote = '"' ∨ quote = '\'' then
      let content ← loop (stringTurn text here.pos quote) (text.length + 1) []
      return String.ofList content
    else throw .unreachable
  | Option.none => throw .unreachable

end Walker

section Tokens

variable {text : String} {limit depth : Nat} {rest : List Char} {t : Trail}

theorem Stands.length_lt (h : Stands text limit depth rest t) : rest.length < text.length + 1 := by
  rw [← String.length_toList]
  exact Nat.lt_succ_of_le h.suffix.length_le

/-! ## Single characters -/

def readSkipTurn (p : Char → Bool) : Unit → Reader (ForInStep Unit)
  | (), [] => .ok (.done (), [])
  | (), c :: rest => if p c then .ok (.yield (), rest) else .ok (.done (), c :: rest)

theorem retraces_skipTurn (p : Char → Bool) (x : Unit) :
    Retraces text limit depth (Walker.skipTurn text p x) (readSkipTurn p x) := by
  intro rest t h
  refine h.peek.then fun h => ?_
  cases rest with
  | nil => exact h.pure _
  | cons c rest =>
    simp only [List.head?_cons, readSkipTurn]
    split
    · exact h.bump.then fun h => h.pure _
    · exact h.pure _

theorem advances_readSkipTurn (p : Char → Bool) : Advances (readSkipTurn p) := by
  intro x y rest next hr
  cases rest with
  | nil => cases hr
  | cons c rest =>
    rw [readSkipTurn] at hr
    split at hr
    · obtain ⟨-, rfl⟩ := Prod.mk.inj (Except.ok.inj hr)
      exact Nat.lt_succ_self _
    · cases hr

theorem unrolls_readSkipTurn (p : Char → Bool) :
    Unrolls (readSkipTurn p) fun _ _ rest => .ok ((), rest.dropWhile p) := by
  intro bound x rest
  cases rest with
  | nil => rfl
  | cons c rest =>
    simp only [readSkipTurn, List.dropWhile_cons]
    split <;> rfl

theorem Stands.skipWhile (h : Stands text limit depth rest t) (p : Char → Bool) :
    Accords text limit depth ((Walker.skipWhile text p).run t) (.ok ((), rest.dropWhile p)) :=
  accords_loop (retraces_skipTurn p) (advances_readSkipTurn p) (unrolls_readSkipTurn p) h h.length_lt

theorem Stands.skipBlanks (h : Stands text limit depth rest t) :
    Accords text limit depth ((Walker.skipWhile text isBlank).run t) (.ok ((), skipBlank rest)) :=
  h.skipWhile isBlank

theorem retraces_expect (c : Char) : Retraces text limit depth (Walker.expect text c) (expect c) := by
  intro rest t h
  refine h.peek.then fun h => ?_
  cases rest with
  | nil => exact h.fail _
  | cons found rest =>
    simp only [List.head?_cons, expect]
    split
    · exact h.bump.then fun h => h.pure _
    · exact h.fail _

theorem Stands.expect {c : Char} (h : Stands text limit depth (c :: rest) t) :
    Accords text limit depth ((Walker.expect text c).run t) (.ok ((), rest)) := by
  have hc := retraces_expect c h
  rwa [expect_cons] at hc

/-! ## Escapes -/

theorem exists_readDigits_octal {digits : List Char} (code : Nat)
    (h : ∀ c ∈ digits, isOctalDigit c = true) :
    ∃ n, readDigits octalValue? 8 code digits = some n := by
  induction digits generalizing code with
  | nil => exact ⟨code, rfl⟩
  | cons c rest ih =>
    obtain ⟨d, hd⟩ := Option.isSome_iff_exists.mp (h c (List.mem_cons_self ..))
    obtain ⟨n, hn⟩ := ih (code * 8 + d) fun c hc => h c (List.mem_cons_of_mem _ hc)
    exact ⟨n, by rw [readDigits, hd]; exact hn⟩

/-- As many octal digits are taken as there are, but no more than `count`. -/
theorem accords_octal {count code n : Nat} (h : Stands text limit depth rest t)
    (hn : readDigits octalValue? 8 code ((rest.take count).takeWhile isOctalDigit) = some n) :
    Accords text limit depth ((Walker.octal text count code).run t)
      (.ok (n, rest.drop ((rest.take count).takeWhile isOctalDigit).length)) := by
  induction count generalizing code rest t with
  | zero =>
    obtain rfl := Option.some.inj hn
    exact h.pure code
  | succ count ih =>
    refine h.peek.then fun h => ?_
    cases rest with
    | nil =>
      obtain rfl := Option.some.inj hn
      exact h.pure code
    | cons c rest =>
      rw [List.take_succ_cons, List.takeWhile_cons] at hn ⊢
      rw [List.head?_cons, Option.bind_some]
      cases hd : octalValue? c with
      | none =>
        have ho : isOctalDigit c = false := by simp [isOctalDigit, hd]
        rw [ho] at hn ⊢
        obtain rfl := Option.some.inj hn
        exact h.pure code
      | some d =>
        have ho : isOctalDigit c = true := by simp [isOctalDigit, hd]
        rw [if_pos ho, readDigits, hd] at hn
        rw [if_pos ho]
        exact h.bump.then fun h => ih h hn

theorem hexValue?_lt {c : Char} {d : Nat} (h : hexValue? c = some d) : d < 16 := by
  have bound {c low high : Char} (h : low ≤ c ∧ c ≤ high) :
      c.toNat - low.toNat ≤ high.toNat - low.toNat :=
    Nat.sub_le_sub_right (UInt32.le_iff_toNat_le.mp h.2) _
  unfold hexValue? at h
  split at h
  · next hc =>
    have hb := bound hc
    obtain rfl := Option.some.inj h
    exact Nat.lt_of_le_of_lt hb (by decide)
  split at h
  · next hc =>
    have hb := bound hc
    obtain rfl := Option.some.inj h
    exact Nat.lt_of_le_of_lt (Nat.add_le_add_right hb 10) (by decide)
  split at h
  · next hc =>
    have hb := bound hc
    obtain rfl := Option.some.inj h
    exact Nat.lt_of_le_of_lt (Nat.add_le_add_right hb 10) (by decide)
  · cases h

/-- Hexadecimal digits of a number of 32 bits, all of which must be there. -/
def readHexDigits (start : List Char) (count code : Nat) : Reader Nat := fun rest =>
  if (rest.take count).length < count then .error ⟨.truncatedHex, start⟩
  else
    match readDigits hexValue? 16 code (rest.take count) with
    | some n => .ok (n, rest.drop count)
    | Option.none => .error ⟨.truncatedHex, start⟩

theorem readHexDigits_cons (start : List Char) (count code : Nat) {c : Char} {d : Nat}
    (hd : hexValue? c = some d) (rest : List Char) :
    readHexDigits start (count + 1) code (c :: rest) =
      readHexDigits start count (code * 16 + d) rest := by
  simp only [readHexDigits, List.take_succ_cons, List.length_cons, Nat.add_lt_add_iff_right,
    readDigits, hd, List.drop_succ_cons]

/-- The number stays within its bits as long as the digits left have room for what they can add. -/
theorem accords_hexNumber {start : List Char} {count code : Nat}
    (h : Stands text limit depth rest t) (hs : start <:+ text.toList)
    (hb : (code + 1) * 16 ^ count ≤ 0x100000000) :
    Accords text limit depth ((Walker.hexNumber text (offsetOf text.toList start) count code).run t)
      (readHexDigits start count code rest) := by
  induction count generalizing code rest t with
  | zero => exact h.pure code
  | succ count ih =>
    refine h.peek.then fun h => ?_
    cases rest with
    | nil => exact h.failAt hs _
    | cons c rest =>
      rw [List.head?_cons, Option.bind_some]
      cases hd : hexValue? c with
      | none =>
        have hr : readHexDigits start (count + 1) code (c :: rest) =
            .error ⟨.truncatedHex, start⟩ := by
          simp [readHexDigits, readDigits, hd]
        rw [hr]
        exact h.failAt hs _
      | some d =>
        have hlt := hexValue?_lt hd
        have hmore : (code * 16 + d + 1) * 16 ^ count ≤ 0x100000000 :=
          calc (code * 16 + d + 1) * 16 ^ count
            _ ≤ (code + 1) * 16 * 16 ^ count := Nat.mul_le_mul_right _ (by omega)
            _ = (code + 1) * 16 ^ (count + 1) := by rw [Nat.pow_succ', Nat.mul_assoc]
            _ ≤ 0x100000000 := hb
        have hfits : code * 16 + d < 0x100000000 := by
          have hpos : 0 < 16 ^ count := Nat.pow_pos (by decide)
          exact Nat.le_trans (Nat.le_mul_of_pos_right _ hpos) hmore
        rw [readHexDigits_cons start count code hd]
        refine h.bump.then fun h => ?_
        rw [if_pos hfits]
        exact ih h hmore

/-- What a character with a code point is read as, before `next`. -/
theorem accords_character {start next : List Char} (h : Stands text limit depth next t)
    (hs : start <:+ text.toList) (code : Nat) :
    Accords text limit depth ((Walker.character (offsetOf text.toList start) code).run t)
      (match codePoint code with
        | .ok c => .ok (some c, next)
        | .error reason => .error ⟨reason, start⟩) := by
  rw [Walker.character]
  cases codePoint code with
  | ok c => exact h.pure (some c)
  | error reason => exact h.failAt hs reason

/-- An escape read from the character behind its backslash on. -/
def readEscapeAt : Reader (Option Char) := fun rest =>
  match readEscape rest with
  | .error reason => .error ⟨reason, '\\' :: rest⟩
  | .ok (decoded, taken) => .ok (decoded, rest.drop taken)

theorem readEscapeAt_octal {c : Char} {rest : List Char} {n : Nat}
    (ho : isOctalDigit c = true)
    (hn : readDigits octalValue? 8 0 (octalDigits (c :: rest)) = some n) :
    readEscapeAt (c :: rest) =
      match codePoint n with
      | .ok decoded => .ok (some decoded, (c :: rest).drop (octalDigits (c :: rest)).length)
      | .error reason => .error ⟨reason, '\\' :: c :: rest⟩ := by
  obtain ⟨hsimple, hwidth, hline⟩ := escape_of_isOctalDigit ho
  have hne : (octalDigits (c :: rest)).isEmpty = false := by
    rw [octalDigits_eq, List.takeWhile_cons, if_pos ho]
    rfl
  simp only [readEscapeAt, readEscape, hsimple, hwidth, if_neg hline, hne, hn]
  cases codePoint n <;> rfl

theorem readEscapeAt_hex {c : Char} {width : Nat} (hw : hexEscapeWidth? c = some width)
    (rest : List Char) :
    readEscapeAt (c :: rest) = readHexDigits ('\\' :: c :: rest) width 0 rest >>= fun
      | (code, next) =>
        match codePoint code with
        | .ok decoded => .ok (some decoded, next)
        | .error reason => .error ⟨reason, '\\' :: c :: rest⟩ := by
  obtain ⟨hsimple, hline⟩ := escape_of_hexEscape (hexEscapeWidth?_eq_some.mp hw)
  simp only [readEscapeAt, readEscape, hsimple, if_neg hline, hw, readHexDigits, readHex]
  by_cases hl : (rest.take width).length < width
  · rw [if_pos hl, if_pos hl]
    rfl
  rw [if_neg hl, if_neg hl]
  cases readDigits hexValue? 16 0 (rest.take width) with
  | none => rfl
  | some code =>
    dsimp only
    rw [ok_bind]
    cases codePoint code <;> rfl

theorem readEscapeAt_unknown {c : Char} (hs : simpleEscape? c = Option.none) (hn : c ≠ '\n')
    (ho : isOctalDigit c = false) (hw : hexEscapeWidth? c = Option.none) (rest : List Char) :
    readEscapeAt (c :: rest) = .error ⟨.unknownEscape c, '\\' :: c :: rest⟩ := by
  have he : (octalDigits (c :: rest)).isEmpty = true := by
    rw [octalDigits_eq, List.takeWhile_cons, ho]
    rfl
  simp only [readEscapeAt, readEscape, hs, if_neg hn, hw, he, if_true]

section Escapes

variable {c : Char}

/-- An octal escape has one digit at least, and two more at most. -/
theorem accords_octalEscape {d : Nat} (hd : octalValue? c = some d)
    (h : Stands text limit depth rest t) (hs : '\\' :: c :: rest <:+ text.toList) :
    Accords text limit depth
      ((Walker.octal text 2 d >>=
        Walker.character (offsetOf text.toList ('\\' :: c :: rest))).run t)
      (readEscapeAt (c :: rest)) := by
  have ho : isOctalDigit c = true := by simp [isOctalDigit, hd]
  have hdigits : octalDigits (c :: rest) = c :: (rest.take 2).takeWhile isOctalDigit :=
    List.takeWhile_cons_of_pos ho
  obtain ⟨n, hcode⟩ := exists_readDigits_octal d
    fun x hx => List.all_eq_true.mp (List.all_takeWhile (l := rest.take 2)) x hx
  have hall : readDigits octalValue? 8 0 (octalDigits (c :: rest)) = some n := by
    rw [hdigits, readDigits, hd]
    simpa only [Nat.zero_mul, Nat.zero_add] using hcode
  rw [readEscapeAt_octal ho hall, hdigits]
  exact (accords_octal h hcode).then fun h => accords_character h hs n

/-- No escape has so many hexadecimal digits that they could exceed the bits of the number. -/
theorem accords_hexEscape {width : Nat} (hw : hexEscapeWidth? c = some width)
    (h : Stands text limit depth rest t) (hs : '\\' :: c :: rest <:+ text.toList) :
    Accords text limit depth
      ((Walker.hexNumber text (offsetOf text.toList ('\\' :: c :: rest)) width 0 >>=
        Walker.character (offsetOf text.toList ('\\' :: c :: rest))).run t)
      (readEscapeAt (c :: rest)) := by
  have hwidths : ∀ e ∈ hexEscapes, (0 + 1) * 16 ^ e.2 ≤ 0x100000000 := by decide
  have hb := hwidths _ (hexEscapeWidth?_eq_some.mp hw)
  rw [readEscapeAt_hex hw]
  exact (accords_hexNumber h hs hb).bind fun _ h => accords_character h hs _

/-- A fault of an escape is reported at the position of its backslash, one byte before the one where the
walk over the escape begins. -/
theorem accords_escape (h : Stands text limit depth rest t) (hs : '\\' :: rest <:+ text.toList) :
    Accords text limit depth ((Walker.escape text).run t) (readEscapeAt rest) := by
  have hpos : offsetOf text.toList rest = offsetOf text.toList ('\\' :: rest) + 1 := offsetOf_cons hs
  refine h.cursor.then fun h => ?_
  dsimp only
  rw [hpos, if_neg (Nat.succ_ne_zero _), Nat.add_sub_cancel]
  cases rest with
  | nil => exact h.bump_nil.then fun h => h.failAt hs _
  | cons c rest =>
    refine h.bump.then fun h => ?_
    dsimp only
    cases hsimple : simpleEscape? c with
    | some decoded =>
      have hr : readEscapeAt (c :: rest) = .ok (some decoded, rest) := by
        simp [readEscapeAt, readEscape, hsimple]
      rw [hr]
      exact h.pure _
    | none =>
      dsimp only
      by_cases hn : c = '\n'
      · have hr : readEscapeAt (c :: rest) = .ok (Option.none, rest) := hn ▸ rfl
        rw [if_pos hn, hr]
        exact h.pure _
      rw [if_neg hn]
      cases hd : octalValue? c with
      | some d => exact accords_octalEscape hd h hs
      | none =>
        dsimp only
        cases hw : hexEscapeWidth? c with
        | some width => exact accords_hexEscape hw h hs
        | none =>
          rw [readEscapeAt_unknown hsimple hn (by simp [isOctalDigit, hd]) hw]
          exact h.failAt hs _

end Escapes

/-! ## Strings -/

def readStringTurn (start : List Char) (quote : Char) (content : List Char) :
    Reader (ForInStep (List Char))
  | [] => .error ⟨.unclosedString, start⟩
  | c :: rest =>
    if c = quote then .ok (.done content, rest)
    else if c = '\\' then
      readEscapeAt rest >>= fun (decoded, next) => .ok (.yield (content ++ decoded.toList), next)
    else if isLineBreak c then .error ⟨.lineBreakInString, rest⟩
    else .ok (.yield (content ++ [c]), rest)

theorem retraces_stringTurn {start : List Char} (hs : start <:+ text.toList) (quote : Char)
    (content : List Char) :
    Retraces text limit depth
      (Walker.stringTurn text (offsetOf text.toList start) quote content)
      (readStringTurn start quote content) := by
  intro rest t h
  have hrest := h.suffix
  cases rest with
  | nil => exact h.bump_nil.then fun h => h.failAt hs _
  | cons c rest =>
    refine h.bump.then fun h => ?_
    rw [readStringTurn]
    dsimp only
    split
    · exact h.pure _
    split
    · next hb => exact (accords_escape h (hb ▸ hrest)).bind fun _ h => h.pure _
    split
    · exact h.fail _
    · exact h.pure _

/-- What the turns of a string have read so far stands before what is still read. -/
theorem unrolls_readStringTurn (start : List Char) (quote : Char) :
    Unrolls (readStringTurn start quote) fun _ content rest =>
      (readBody start quote 0 rest).map (prepend content) := by
  intro bound content rest
  cases rest with
  | nil => rfl
  | cons c rest =>
    simp only [readBody, readStringTurn]
    split
    · simp [Except.map, ok_bind, prepend]
    split
    · next hb =>
      subst hb
      rw [readEscapeAt]
      cases readEscape rest with
      | error reason => rfl
      | ok read =>
        dsimp only
        rw [readBody_drop]
        exact map_prepend_bind _ content read.1.toList
    split
    · rfl
    · exact map_prepend_bind _ content [c]

theorem advances_readStringTurn (start : List Char) (quote : Char) :
    Advances (readStringTurn start quote) := by
  intro content y rest next hr
  cases rest with
  | nil => cases hr
  | cons c rest =>
    rw [readStringTurn] at hr
    split at hr
    · cases hr
    split at hr
    · obtain ⟨⟨decoded, found⟩, he, hok⟩ := bind_eq_ok.mp hr
      obtain ⟨-, rfl⟩ := Prod.mk.inj (Except.ok.inj hok)
      rw [readEscapeAt] at he
      split at he
      · cases he
      · obtain ⟨-, rfl⟩ := Prod.mk.inj (Except.ok.inj he)
        simp only [List.length_drop, List.length_cons]
        omega
    split at hr
    · cases hr
    · obtain ⟨-, rfl⟩ := Prod.mk.inj (Except.ok.inj hr)
      exact Nat.lt_succ_self _

/-- A walk from a quote on takes a string as the reader of strings does. -/
theorem accords_string {quote : Char} (h : Stands text limit depth (quote :: rest) t)
    (hq : quote = '"' ∨ quote = '\'') :
    Accords text limit depth ((Walker.string text).run t) (readString (quote :: rest)) := by
  have hs := h.suffix
  refine h.cursor.then fun h => h.bump.then fun h => ?_
  dsimp only
  rw [if_pos hq]
  have hread : readString (quote :: rest) =
      (readBody (quote :: rest) quote 0 rest).map (prepend []) >>=
        fun read => .ok (String.ofList read.1, read.2) := by
    rw [readString]
    cases readBody (quote :: rest) quote 0 rest <;> rfl
  rw [hread]
  exact (accords_loop (retraces_stringTurn hs quote) (advances_readStringTurn _ quote)
    (unrolls_readStringTurn _ quote) h h.length_lt).bind fun _ h => h.pure _

end Tokens

end LiteralBridge.Literal
