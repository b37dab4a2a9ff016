import LiteralBridge.Proofs.Walker.Strings

/-! # Walking over numbers and names

The walks over numbers and names end as `readSigned` and `readName` do. What they mean is decided by the
part of the text between the place where they begin and the cursor. -/

namespace LiteralBridge.Literal

open Text Grammar

/-- The sign of a token, and what follows it. -/
def splitSign : List Char → Bool × List Char
  | '-' :: rest => (true, rest)
  | rest => (false, rest)

/-- The float that a whole token writes. -/
def tokenFloat? (token : List Char) : Option Binary64 :=
  match readNumeral (splitSign token).2 with
  | .ok (n, []) => some (.ofWord (splitSign token).1 n.decimal.nearest)
  | _ => Option.none

/-- The integer that a whole token writes. -/
def tokenInt (token : List Char) : Int :=
  signed (splitSign token).1 (splitSign token).2

namespace Walker

variable (text : String)

def digits (reason : Fault) : Walker Unit := do
  let start ← cursor
  skipWhile text Char.isDigit
  let stop ← cursor
  if stop.pos = start.pos then fail reason else return ()

/-- Takes a fraction, and tells whether there is one. -/
def fraction : Walker Bool := do
  let next ← peek text
  if next = some '.' then
    let _ ← bump text
    skipWhile text Char.isDigit
    return true
  else return false

def exponentSign : Walker Unit := do
  let next ← peek text
  if next = some '+' ∨ next = some '-' then
    let _ ← bump text
    return ()
  else return ()

/-- Takes an exponent, and tells whether there is one. -/
def exponent : Walker Bool := do
  let next ← peek text
  if next = some 'e' ∨ next = some 'E' then
    let _ ← bump text
    exponentSign text
    digits text .noExponentDigits
    return true
  else return false

/-- The number that is written between `start` and the cursor. Its digits begin at `first`. -/
def tokenNumber (start first : Nat) (isFloat : Bool) : Walker Literal := do
  let stop ← cursor
  let token ← slice text start stop.pos
  if isFloat then
    match tokenFloat? token with
    | some x => return .float x
    | Option.none => throw .unreachable
  else
    let whole ← slice text first stop.pos
    if 1 < whole.length ∧ whole.head? = some '0' ∧ whole.any (· != '0') then
      failAt start .leadingZeros
    else if FitsInt (tokenInt token) then return .int (tokenInt token)
    else failAt start .integerTooLarge

/-- Takes a number after its sign. The number with its sign begins at `start`. -/
def unsigned (start : Nat) : Walker Literal := do
  let first ← cursor
  digits text .noDigits
  let hasFraction ← fraction text
  let hasExponent ← exponent text
  let next ← peek text
  if next.any continuesNumber then fail .malformedNumber
  else tokenNumber text start first.pos (hasFraction || hasExponent)

def floatCall (start : Nat) : Walker Literal := do
  expect text '('
  skipWhile text isBlank
  let next ← peek text
  if next.any fun c => c == '"' || c == '\'' then
    let argument ← string text
    skipWhile text isBlank
    expect text ')'
    match specialFloat? argument.toList with
    | some x => return .float x
    | Option.none => failAt start (.unsupportedFloat argument)
  else fail .floatWithoutString

def setCall : Walker Literal := do
  expect text '('
  skipWhile text isBlank
  expect text ')'
  return .set []

def name : Walker Literal := do
  let start ← cursor
  skipWhile text isNameRest
  let stop ← cursor
  let token ← slice text start.pos stop.pos
  match String.ofList token with
  | "None" => return .none
  | "True" => return .bool true
  | "False" => return .bool false
  | "inf" => return .float (.infinity false)
  | "nan" => return .float .nan
  | "float" => floatCall text start.pos
  | "set" => setCall text
  | found => failAt start.pos (.unknownName found)

def number : Walker Literal := do
  let start ← cursor
  let next ← peek text
  if next = some '-' then
    let _ ← bump text
    let second ← peek text
    if second.any Char.isAlpha then
      match ← name text with
      | .float x => return .float x.neg
      | other => failAt start.pos (.notNegatable other.shape)
    else unsigned text start.pos
  else unsigned text start.pos

end Walker

section Scalars

variable {text : String} {limit depth : Nat} {rest : List Char} {t : Trail}

/-! ## Parts of numbers -/

theorem Stands.skipDigits (h : Stands text limit depth rest t) :
    Accords text limit depth ((Walker.skipWhile text Char.isDigit).run t)
      (.ok ((), (spanDigits rest).2)) :=
  h.skipWhile Char.isDigit

/-- The position tells whether there was a digit. -/
theorem accords_digits (h : Stands text limit depth rest t) (reason : Fault) :
    Accords text limit depth ((Walker.digits text reason).run t)
      (if (spanDigits rest).1.isEmpty then .error ⟨reason, rest⟩
        else .ok ((), (spanDigits rest).2)) := by
  have hs := h.suffix
  have happend := spanDigits_append_eq rest
  refine h.cursor.then fun h => h.skipDigits.then fun h => h.cursor.then fun h => ?_
  dsimp only
  cases hd : (spanDigits rest).1 with
  | nil =>
    rw [hd, List.nil_append] at happend
    rw [happend] at h ⊢
    rw [if_pos rfl]
    exact h.fail reason
  | cons d digits =>
    have hl := congrArg List.length happend
    rw [hd, List.length_append, List.length_cons] at hl
    have hlt := offsetOf_lt hs h.suffix (by omega)
    rw [if_neg (Nat.ne_of_gt hlt)]
    exact h.pure ()

theorem readFraction_of_head? (h : rest.head? ≠ some '.') :
    readFraction rest = (Option.none, rest) := by
  unfold readFraction
  split
  · exact absurd rfl h
  · rfl

theorem accords_fraction (h : Stands text limit depth rest t) :
    Accords text limit depth ((Walker.fraction text).run t)
      (.ok ((readFraction rest).1.isSome, (readFraction rest).2)) := by
  refine h.peek.then fun h => ?_
  by_cases hp : rest.head? = some '.'
  · rw [if_pos hp]
    obtain ⟨tail, rfl⟩ := List.head?_eq_some_iff.mp hp
    exact h.bump.then fun h => (h.skipWhile Char.isDigit).then fun h => h.pure true
  · rw [if_neg hp, readFraction_of_head? hp]
    exact h.pure false

theorem readExponentSign_of_head? (h : ¬(rest.head? = some '+' ∨ rest.head? = some '-')) :
    readExponentSign rest = (false, rest) := by
  unfold readExponentSign
  split
  · exact absurd (.inr rfl) h
  · exact absurd (.inl rfl) h
  · rfl

theorem accords_exponentSign (h : Stands text limit depth rest t) :
    Accords text limit depth ((Walker.exponentSign text).run t)
      (.ok ((), (readExponentSign rest).2)) := by
  refine h.peek.then fun h => ?_
  by_cases hp : rest.head? = some '+' ∨ rest.head? = some '-'
  · rw [if_pos hp]
    rcases hp with hp | hp
    · obtain ⟨tail, rfl⟩ := List.head?_eq_some_iff.mp hp
      exact h.bump.then fun h => h.pure ()
    · obtain ⟨tail, rfl⟩ := List.head?_eq_some_iff.mp hp
      exact h.bump.then fun h => h.pure ()
  · rw [if_neg hp, readExponentSign_of_head? hp]
    exact h.pure ()

theorem accords_exponent (h : Stands text limit depth rest t) :
    Accords text limit depth ((Walker.exponent text).run t)
      ((readExponent rest).map fun (exponent, next) => (exponent.isSome, next)) := by
  refine h.peek.then fun h => ?_
  cases rest with
  | nil => exact h.pure false
  | cons c rest =>
    rw [List.head?_cons, readExponent]
    by_cases hc : c = 'e' ∨ c = 'E'
    · rw [if_pos (by simpa using hc), if_pos hc]
      refine h.bump.then fun h => (accords_exponentSign h).then fun h => ?_
      have hdigits := accords_digits h .noExponentDigits
      dsimp only
      by_cases he : (spanDigits (readExponentSign rest).2).1.isEmpty = true
      · rw [if_pos he] at hdigits ⊢
        exact hdigits.halt
      · rw [if_neg he] at hdigits ⊢
        exact hdigits.then fun h => h.pure true
    · rw [if_neg (by simpa using hc), if_neg hc]
      exact h.pure false

/-! ## Numbers -/

theorem splitSign_minus (negative : Bool) {digits more : List Char} (hd : Digits digits) :
    splitSign (minus negative ++ (digits ++ more)) = (negative, digits ++ more) := by
  obtain ⟨hne, hall⟩ := hd
  cases negative with
  | true => rfl
  | false =>
    cases digits with
    | nil => exact absurd rfl hne
    | cons d rest =>
      have hd : d ≠ '-' := by
        rintro rfl
        exact absurd (hall '-' (List.mem_cons_self ..)) (by decide)
      simp [minus, splitSign, hd]

theorem tokenFloat?_of_writes (negative : Bool) {token : List Char} {n : Numeral}
    (h : Writes token n) :
    tokenFloat? (minus negative ++ token) = some (.ofWord negative n.decimal.nearest) := by
  have hread := readNumeral_of_writes h (stops_nil continuesNumber)
  rw [List.append_nil] at hread
  obtain ⟨hd, fraction, exponent, -, -, rfl⟩ := h
  rw [tokenFloat?, splitSign_minus negative hd]
  dsimp only
  rw [hread]

theorem tokenInt_of_digits (negative : Bool) {digits : List Char} (hd : Digits digits) :
    tokenInt (minus negative ++ digits) = signed negative digits := by
  have hs : splitSign (minus negative ++ (digits ++ [])) = (negative, digits ++ []) :=
    splitSign_minus negative hd
  rw [List.append_nil] at hs
  rw [tokenInt, hs]

theorem hasLeadingZeros_iff {n : Numeral} :
    n.hasLeadingZeros = true ↔
      1 < n.whole.length ∧ n.whole.head? = some '0' ∧ n.whole.any (· != '0') = true := by
  obtain ⟨whole, fraction, exponent⟩ := n
  cases whole with
  | nil => simp [Numeral.hasLeadingZeros]
  | cons c rest =>
    by_cases hc : c = '0'
    · subst hc
      have hlength : rest.any (· != '0') = true → 1 < rest.length + 1 := by
        intro hany
        obtain ⟨d, hd, -⟩ := List.any_eq_true.mp hany
        have hpos := List.length_pos_of_mem hd
        omega
      simpa [Numeral.hasLeadingZeros] using hlength
    · simp [Numeral.hasLeadingZeros, hc]

theorem literal_of_leadingZeros {n : Numeral} (negative : Bool) (hf : n.isFloat = false)
    (hz : n.hasLeadingZeros = true) : n.literal negative = .error .leadingZeros := by
  simp [Numeral.literal, hf, hz]

theorem literal_of_not_fits {n : Numeral} {negative : Bool} (hf : n.isFloat = false)
    (hz : n.hasLeadingZeros = false) (hi : ¬ FitsInt (signed negative n.whole)) :
    n.literal negative = .error .integerTooLarge := by
  rw [signed] at hi
  simp [Numeral.literal, hf, hz, hi]

/-- What a number denotes is decided by the part of the text that was walked over. -/
theorem accords_tokenNumber {token next : List Char} {n : Numeral} {negative : Bool}
    (h : Stands text limit depth next t) (hw : Writes token n)
    (hs : (minus negative ++ token) ++ next <:+ text.toList) :
    Accords text limit depth
      ((Walker.tokenNumber text (offsetOf text.toList ((minus negative ++ token) ++ next))
        (offsetOf text.toList (token ++ next)) n.isFloat).run t)
      (match n.literal negative with
        | .error reason => .error ⟨reason, (minus negative ++ token) ++ next⟩
        | .ok literal => .ok (literal, next)) := by
  refine h.cursor.then fun h => (h.slice hs).then fun h => ?_
  cases hf : n.isFloat with
  | true =>
    rw [if_pos rfl, tokenFloat?_of_writes negative hw, literal_of_isFloat negative hf]
    exact h.pure _
  | false =>
    have hdigits : token ++ next <:+ text.toList := by
      rw [List.append_assoc] at hs
      exact (List.suffix_append _ _).trans hs
    obtain rfl := hw.eq_whole hf
    rw [if_neg Bool.false_ne_true]
    refine (h.slice hdigits).then fun h => ?_
    rw [tokenInt_of_digits negative hw.1]
    cases hz : n.hasLeadingZeros with
    | true =>
      rw [if_pos (hasLeadingZeros_iff.mp hz), literal_of_leadingZeros negative hf hz]
      exact h.failAt hs _
    | false =>
      rw [if_neg (fun hzeros => by simp [hasLeadingZeros_iff.mpr hzeros] at hz)]
      by_cases hi : FitsInt (signed negative n.whole)
      · rw [if_pos hi, (literal_eq_ok_of_not_isFloat hf).mpr
          ⟨hasLeadingZeros_eq_false.mp hz, hi, rfl⟩]
        exact h.pure _
      · rw [if_neg hi, literal_of_not_fits hf hz hi]
        exact h.failAt hs _

/-- A number after its sign, from which it is reported if it denotes nothing. -/
theorem accords_unsigned (negative : Bool) (h : Stands text limit depth rest t)
    (hs : minus negative ++ rest <:+ text.toList) :
    Accords text limit depth
      ((Walker.unsigned text (offsetOf text.toList (minus negative ++ rest))).run t)
      (readNumber (minus negative ++ rest) negative rest) := by
  refine h.cursor.then fun h => ?_
  have hdigits := accords_digits h .noDigits
  by_cases he : (spanDigits rest).1.isEmpty = true
  · have hread : readNumeral rest = .error ⟨.noDigits, rest⟩ := by
      simp only [readNumeral, if_pos he]
    rw [if_pos he] at hdigits
    rw [readNumber, hread]
    exact hdigits.halt
  rw [if_neg he] at hdigits
  refine hdigits.then fun h => (accords_fraction h).then fun h => ?_
  have hexponent := accords_exponent h
  cases hx : readExponent (readFraction (spanDigits rest).2).2 with
  | error stop =>
    have hread : readNumeral rest = .error stop := by
      simp only [readNumeral, if_neg he, hx]
    rw [hx] at hexponent
    rw [readNumber, hread]
    exact hexponent.halt
  | ok read =>
    obtain ⟨exponent, next⟩ := read
    rw [hx] at hexponent
    refine hexponent.then fun h => h.peek.then fun h => ?_
    by_cases hc : next.head?.any continuesNumber = true
    · have hread : readNumeral rest = .error ⟨.malformedNumber, next⟩ := by
        simp only [readNumeral, if_neg he, hx, if_pos hc]
      rw [if_pos hc, readNumber, hread]
      exact h.fail _
    · have hread : readNumeral rest =
          .ok (⟨(spanDigits rest).1, (readFraction (spanDigits rest).2).1, exponent⟩, next) := by
        simp only [readNumeral, if_neg he, hx, if_neg hc]
      obtain ⟨token, hw, ht, -⟩ := writes_of_readNumeral hread
      have hstart : minus negative ++ rest = (minus negative ++ token) ++ next := by
        rw [ht, List.append_assoc]
      rw [hstart] at hs
      have htoken := accords_tokenNumber h hw hs
      rw [← ht] at htoken
      rw [if_neg hc, readNumber, hread, hstart]
      exact htoken

/-! ## Names -/

theorem retraces_setCall : Retraces text limit depth (Walker.setCall text) readSetCall := by
  intro rest t h
  refine (retraces_expect '(' h).bind fun _ h => h.skipBlanks.then fun h => ?_
  exact (retraces_expect ')' h).bind fun _ h => h.pure _

theorem accords_floatCall {start : List Char} (h : Stands text limit depth rest t)
    (hs : start <:+ text.toList) :
    Accords text limit depth ((Walker.floatCall text (offsetOf text.toList start)).run t)
      (readFloatCall start rest) := by
  refine (retraces_expect '(' h).bind fun {_ inside _} _ h => h.skipBlanks.then fun h =>
    h.peek.then fun h => ?_
  dsimp only
  by_cases hq : (skipBlank inside).head?.any (fun c => c == '"' || c == '\'') = true
  · rw [if_pos hq, if_pos hq]
    cases hi : skipBlank inside with
    | nil => simp [hi] at hq
    | cons quote tail =>
      rw [hi] at h hq
      have hquote : quote = '"' ∨ quote = '\'' := by simpa using hq
      refine (accords_string h hquote).bind fun {argument _ _} _ h => h.skipBlanks.then fun h => ?_
      refine (retraces_expect ')' h).bind fun _ h => ?_
      dsimp only
      cases specialFloat? argument.toList with
      | some x => exact h.pure _
      | none => exact h.failAt hs _
  · rw [if_neg hq, if_neg hq]
    exact h.fail _

theorem retraces_name : Retraces text limit depth (Walker.name text) readName := by
  intro rest t h
  have hs := h.suffix
  have happend : rest.takeWhile isNameRest ++ rest.dropWhile isNameRest = rest :=
    List.takeWhile_append_dropWhile
  refine h.cursor.then fun h => (h.skipWhile isNameRest).then fun h => h.cursor.then fun {t} h => ?_
  have htoken : Accords text limit depth ((Walker.slice text (offsetOf text.toList rest)
      (offsetOf text.toList (rest.dropWhile isNameRest))).run t)
      (.ok (rest.takeWhile isNameRest, rest.dropWhile isNameRest)) := by
    have hslice := h.slice (happend.symm ▸ hs)
    rwa [happend] at hslice
  refine htoken.then fun h => ?_
  rw [readName]
  generalize String.ofList (rest.takeWhile isNameRest) = found
  dsimp only
  by_cases hnone : found = "None"
  · subst hnone
    exact h.pure _
  by_cases htrue : found = "True"
  · subst htrue
    exact h.pure _
  by_cases hfalse : found = "False"
  · subst hfalse
    exact h.pure _
  by_cases hinf : found = "inf"
  · subst hinf
    exact h.pure _
  by_cases hnan : found = "nan"
  · subst hnan
    exact h.pure _
  by_cases hfloat : found = "float"
  · subst hfloat
    exact accords_floatCall h hs
  by_cases hset : found = "set"
  · subst hset
    exact retraces_setCall h
  -- Neither match has a case for the name.
  simp only
  exact h.failAt hs _

theorem retraces_number : Retraces text limit depth (Walker.number text) readSigned := by
  intro rest t h
  have hs := h.suffix
  refine h.cursor.then fun h => h.peek.then fun h => ?_
  by_cases hm : rest.head? = some '-'
  · obtain ⟨tail, rfl⟩ := List.head?_eq_some_iff.mp hm
    rw [if_pos hm, readSigned]
    refine h.bump.then fun h => h.peek.then fun h => ?_
    by_cases ha : tail.head?.any Char.isAlpha = true
    · rw [if_pos ha, if_pos ha]
      refine (retraces_name h).bind fun {literal _ _} _ h => ?_
      dsimp only
      cases literal with
      | float x => exact h.pure _
      | _ => exact h.failAt hs _
    · rw [if_neg ha, if_neg ha]
      exact accords_unsigned true h hs
  · have hread : readSigned rest = readNumber rest false rest := by
      unfold readSigned
      split
      · exact absurd rfl hm
      · rfl
    rw [if_neg hm, hread]
    exact accords_unsigned false h hs

end Scalars

end LiteralBridge.Literal
