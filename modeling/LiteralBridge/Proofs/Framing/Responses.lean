import LiteralBridge.Config.Basic
import LiteralBridge.Framing.Response
import LiteralBridge.Proofs.Framing.Lines
import LiteralBridge.Proofs.Literal.Acceptance
import LiteralBridge.Proofs.Text.Cutting
import LiteralBridge.Proofs.Text.Trimming

/-! # Results and faults are told apart

No literal and no accessor begins like a valid marker, so the line of a result is not read as a fault,
nor the line of a fault as a result (`parseResponse_unmistaken`). A fault of a named class whose
message begins with a visible character is even read as itself (`Survives.of_class`). -/

namespace LiteralBridge.Framing

open Text
open Literal (beginsLiteral isBlank_eq_false_of_beginsLiteral stops_cons)
open Literal.Grammar (Stops)

theorem parseResponse_frame (marker text : String) :
    parseResponse marker (frame text) = .ok (readResponse marker text) := by
  rw [parseResponse, unframe_frame]
  rfl

/-! ## Behind a marker or not -/

theorem readResponse_of_unmarked {marker text : String}
    (h : ¬ marker.toList <+: text.toList) : readResponse marker text = .ok text := by
  rw [readResponse]
  cases ha : after? marker.toList text.toList with
  | none => rfl
  | some body =>
    have he := after?_eq_some_iff.mp ha
    exact absurd ⟨body, he.symm⟩ h

theorem readResponse_append (marker body : String) :
    readResponse marker (marker ++ body) = .error (readFaultBody body.toList) := by
  have ha : after? marker.toList (marker ++ body).toList = some body.toList :=
    after?_eq_some_iff.mpr String.toList_append
  rw [readResponse, ha]

/-! ## Valid markers -/

/-- A valid marker begins with a character that no result begins with. -/
theorem checkMarker_eq_ok {marker : String} :
    checkMarker marker = .ok () ↔ ∃ c rest, marker.toList = c :: rest ∧
      isAlphanumeric c = false ∧ isBlank c = false ∧ beginsExpression c = false := by
  rw [checkMarker]
  cases marker.toList with
  | nil => simp
  | cons c rest => simp [and_assoc]

/-- What a result can begin with, a marker cannot: a letter or digit, white space, or the first
character of an expression. -/
theorem not_prefix_of_head {marker text : String} (hm : checkMarker marker = .ok ()) {c : Char}
    (hh : text.toList.head? = some c)
    (hc : isAlphanumeric c = true ∨ isBlank c = true ∨ beginsExpression c = true) :
    ¬ marker.toList <+: text.toList := by
  obtain ⟨d, rest, hd, ha, hb, he⟩ := checkMarker_eq_ok.mp hm
  rw [hd]
  intro hp
  obtain ⟨tail, ht⟩ := List.head?_eq_some_iff.mp hh
  rw [ht] at hp
  obtain ⟨rfl, -⟩ := List.cons_prefix_cons.mp hp
  simp [ha, hb, he] at hc

theorem isAlphanumeric_of_isNameRest {c : Char} (h : isNameRest c = true) :
    isAlphanumeric c = true ∨ beginsExpression c = true := by
  rcases Bool.or_eq_true_iff.mp h with h | h
  · exact .inl (isAlphanumeric_of_isAlphanum h)
  · exact .inr (by simp [beginsExpression, beq_iff_eq.mp h])

/-- The first characters of literals are among those that no marker begins with. -/
theorem not_marker_of_beginsLiteral {c : Char} (h : beginsLiteral c = true) :
    isAlphanumeric c = true ∨ beginsExpression c = true := by
  simp only [beginsLiteral, Literal.isBracket, Literal.isQuote, Bool.or_eq_true, beq_iff_eq] at h
  rcases h with (((((rfl | rfl) | rfl) | rfl | rfl) | rfl) | h) | h
  any_goals exact .inr rfl
  · exact .inl (isAlphanumeric_of_isAlphanum (by simp [Char.isAlphanum, h]))
  · exact isAlphanumeric_of_isNameRest (isNameRest_of_isNameStart h)

/-- A text that is read as a literal begins with white space or like a literal. -/
theorem head_of_parse {limit : Nat} {text : String} {literal : Literal}
    (h : Literal.parse limit text = .ok literal) :
    ∃ c, text.toList.head? = some c ∧ (isBlank c = true ∨ beginsLiteral c = true) := by
  obtain ⟨start, rest, ⟨blanks, hb, ht⟩, hd, -⟩ := (Literal.parse_eq_ok_iff limit text literal).mp h
  rw [ht]
  cases blanks with
  | cons b more => exact ⟨b, rfl, .inl (hb b List.mem_cons_self)⟩
  | nil =>
    obtain ⟨c, tail, rfl, hc⟩ := (Literal.recognizes_readValue 0 0 limit).head hd
    exact ⟨c, rfl, .inr hc⟩

theorem not_prefix_of_parse {marker text : String} (hm : checkMarker marker = .ok ()) {limit : Nat}
    {literal : Literal} (h : Literal.parse limit text = .ok literal) :
    ¬ marker.toList <+: text.toList := by
  obtain ⟨c, hh, hc⟩ := head_of_parse h
  apply not_prefix_of_head hm hh
  rcases hc with hb | hl
  · exact .inr (.inl hb)
  · exact (not_marker_of_beginsLiteral hl).imp_right .inr

/-! ## Responses that come back unchanged -/

/-- The line of a response is read as that response. -/
def Survives (marker : String) (response : Except RemoteFault String) : Prop :=
  parseResponse marker (frameResponse marker response) = .ok response

theorem Survives.of_unmarked {marker text : String} (h : ¬ marker.toList <+: text.toList) :
    Survives marker (.ok text) := by
  rw [Survives, frameResponse, parseResponse_frame, readResponse_of_unmarked h]

/-- The code points of white space. -/
def blankCodes : List Nat :=
  [9, 10, 11, 12, 13, 32, 0x85, 0xa0, 0x1680, 0x2000, 0x2001, 0x2002, 0x2003, 0x2004, 0x2005, 0x2006,
    0x2007, 0x2008, 0x2009, 0x200a, 0x2028, 0x2029, 0x202f, 0x205f, 0x3000]

theorem mem_blankCodes {c : Char} (h : isBlank c = true) : c.toNat ∈ blankCodes := by
  simp only [isBlank, Bool.or_eq_true, Bool.and_eq_true, decide_eq_true_eq, beq_iff_eq] at h
  simp only [blankCodes, List.mem_cons, List.not_mem_nil, or_false]
  omega

/-- The name of a class has neither white space nor a colon in it. -/
theorem isClassChar_ordinary {c : Char} (h : isClassChar c = true) :
    isBlank c = false ∧ c ≠ ':' := by
  constructor
  · cases hb : isBlank c with
    | false => rfl
    | true =>
      have hall : ∀ n ∈ blankCodes, isClassChar (Char.ofNat n) = false := by decide +kernel
      have hc := hall _ (mem_blankCodes hb)
      rw [Char.ofNat_toNat, h] at hc
      exact hc
  · rintro rfl
    exact absurd h (by decide +kernel)

theorem trim_of_isClassName {cs : List Char} (h : isClassName cs = true) : trim cs = cs := by
  have hall := List.all_eq_true.mp (Bool.and_eq_true_iff.mp h).2
  apply trim_eq_self
  · intro c hc
    exact (isClassChar_ordinary (hall c (List.mem_of_head? hc))).1
  · intro c hc
    exact (isClassChar_ordinary (hall c (List.mem_of_getLast? hc))).1

/-- A word of ASCII letters and digits is the name of a class. -/
theorem isClassName_of_isAlphanum {cs : List Char} (hne : cs ≠ [])
    (h : cs.all Char.isAlphanum = true) : isClassName cs = true := by
  have hall : cs.all isClassChar = true := by
    apply List.all_eq_true.mpr
    intro c hc
    have ha := isAlphanumeric_of_isAlphanum (List.all_eq_true.mp h c hc)
    simp [isClassChar, ha]
  simp [isClassName, hne, hall]

/-- The class of a fault stands before the first colon, and white space around it does not count. -/
theorem readFaultBody_of_trim {before : List Char} (hc : ':' ∉ before)
    (hk : isClassName (trim before) = true) (after : List Char) :
    readFaultBody (before ++ ':' :: after) =
      ⟨String.ofList (trim before), String.ofList (trimStart after), ""⟩ := by
  simp only [readFaultBody, splitOnce_singleton hc, hk, if_true]

theorem readFaultBody_of_class {kind message : List Char} (hk : isClassName kind = true)
    (hm : Stops isBlank message) :
    readFaultBody (kind ++ ':' :: ' ' :: message) =
      ⟨String.ofList kind, String.ofList message, ""⟩ := by
  have hall := List.all_eq_true.mp (Bool.and_eq_true_iff.mp hk).2
  have hcolon : ':' ∉ kind := fun hc => (isClassChar_ordinary (hall _ hc)).2 rfl
  have htrim : trim kind = kind := trim_of_isClassName hk
  have hread := readFaultBody_of_trim hcolon (htrim.symm ▸ hk) (' ' :: message)
  have hs : trimStart (' ' :: message) = message :=
    (Literal.Grammar.Blanks.space message).skipBlank_eq hm
  rwa [htrim, hs] at hread

/-- A fault of a named class comes back unchanged, but for white space before its message. -/
theorem Survives.of_class {fault : RemoteFault} (hk : isClassName fault.kind.toList = true)
    (hm : Stops isBlank fault.message.toList) (hr : fault.request = "") (marker : String) :
    Survives marker (.error fault) := by
  have hne : fault.kind.isEmpty = false := by
    cases he : fault.kind.isEmpty with
    | false => rfl
    | true =>
      rw [String.isEmpty_iff.mp he] at hk
      simp [isClassName] at hk
  have hb : (faultBody fault).toList = fault.kind.toList ++ ':' :: ' ' :: fault.message.toList := by
    simp [faultBody, hne]
  rw [Survives, frameResponse, parseResponse_frame, readResponse_append, hb,
    readFaultBody_of_class hk hm, String.ofList_toList, String.ofList_toList, ← hr]

/-! ## All responses -/

/-- With a valid marker the line of a result is read as that result if it is a literal or begins like
an accessor, and the line of any fault is read as a fault. -/
theorem parseResponse_unmistaken {marker : String} (hm : checkMarker marker = .ok ()) :
    (∀ text, ((∃ limit literal, Literal.parse limit text = .ok literal) ∨
        text.toList.head?.any isNameStart = true) →
      parseResponse marker (frameResponse marker (.ok text)) = .ok (.ok text)) ∧
    ∀ fault, ∃ found,
      parseResponse marker (frameResponse marker (.error fault)) = .ok (.error found) := by
  constructor
  · intro text h
    apply Survives.of_unmarked
    rcases h with ⟨limit, literal, hp⟩ | hn
    · exact not_prefix_of_parse hm hp
    · cases hh : text.toList.head? with
      | none => simp [hh] at hn
      | some c =>
        have hc : isNameStart c = true := by simpa [hh] using hn
        apply not_prefix_of_head hm hh
        exact (isAlphanumeric_of_isNameRest (isNameRest_of_isNameStart hc)).imp_right .inr
  · intro fault
    refine ⟨readFaultBody (faultBody fault).toList, ?_⟩
    rw [frameResponse, parseResponse_frame, readResponse_append]

/-- A string that begins with the marker behind a tabulator, and a fault that says nothing but the
marker and a line feed. -/
theorem parseResponse_unmistaken_percent :
    checkMarker "%%" = .ok () ∧
      parseResponse "%%" (frameResponse "%%" (.ok "\t'%%'")) = .ok (.ok "\t'%%'") ∧
      ∃ found, parseResponse "%%" (frameResponse "%%" (.error ⟨"", "%%:\n", ""⟩)) =
        .ok (.error found) := by
  have hm : checkMarker "%%" = .ok () :=
    checkMarker_eq_ok.mpr ⟨'%', ['%'], rfl, isAlphanumeric_ascii (by decide), by decide, by decide⟩
  have hp : Literal.parse 64 "\t'%%'" = .ok (.str "%%") := by cbv
  obtain ⟨hresult, hfault⟩ := parseResponse_unmistaken hm
  exact ⟨hm, hresult _ (.inl ⟨64, _, hp⟩), hfault _⟩

end LiteralBridge.Framing
