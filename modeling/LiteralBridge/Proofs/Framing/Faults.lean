import LiteralBridge.Proofs.Framing.Responses

/-! # Faults that come back unchanged

The line of a fault has the class and the message in one text, and where the class ends is told from
this text alone. So a fault is read back as itself only if its class is the name of one and its message
begins with no white space, or if it has no class and its message does not look as if it had one
(`parseResponse_error_iff`). -/

namespace LiteralBridge.Framing

open Text
open Literal (stops_dropWhile)
open Literal.Grammar (Stops)

/-- The name of a class: letters and digits, underscores and points, and at least one of them. -/
def IsClass (name : List Char) : Prop :=
  name ≠ [] ∧ ∀ c ∈ name, isAlphanumeric c = true ∨ c = '_' ∨ c = '.'

theorem isClassName_iff {name : List Char} : isClassName name = true ↔ IsClass name := by
  simp only [isClassName, isClassChar, IsClass, Bool.and_eq_true, Bool.not_eq_true',
    List.isEmpty_eq_false_iff, List.all_eq_true, Bool.or_eq_true, beq_iff_eq, or_assoc]

/-- Up to its first colon the text is the name of a class, but for white space around the name. -/
def BeginsWithClass (text : List Char) : Prop :=
  ∃ before after, text = before ++ ':' :: after ∧ ':' ∉ before ∧ IsClass (trim before)

/-- A text that does not begin with a class is a message as a whole. -/
theorem readFaultBody_of_not_begins {body : List Char} (h : ¬ BeginsWithClass body) :
    readFaultBody body = ⟨"", String.ofList body, ""⟩ := by
  by_cases hc : ':' ∈ body
  · obtain ⟨before, after, rfl, hb⟩ := List.eq_append_cons_of_mem hc
    have hk : isClassName (trim before) = false := by
      cases hk : isClassName (trim before) with
      | false => rfl
      | true => exact absurd ⟨before, after, rfl, hb, isClassName_iff.mp hk⟩ h
    simp [readFaultBody, splitOnce_singleton hb, hk]
  · simp [readFaultBody, splitOnce_singleton_eq_none hc]

/-- Of a text that begins with a class, the class is read trimmed and the message from its first
visible character on. -/
theorem readFaultBody_of_begins {body : List Char} (h : BeginsWithClass body) :
    IsClass (readFaultBody body).kind.toList ∧
      Stops isBlank (readFaultBody body).message.toList := by
  obtain ⟨before, after, rfl, hc, hk⟩ := h
  rw [readFaultBody_of_trim hc (isClassName_iff.mpr hk), String.toList_ofList, String.toList_ofList]
  exact ⟨hk, stops_dropWhile isBlank after⟩

theorem request_readFaultBody (body : List Char) : (readFaultBody body).request = "" := by
  rw [readFaultBody]
  split
  · dsimp only
    split <;> rfl
  · rfl

theorem survives_iff_readFaultBody {marker : String} {fault : RemoteFault} :
    Survives marker (.error fault) ↔ readFaultBody (faultBody fault).toList = fault := by
  rw [Survives, frameResponse, parseResponse_frame, readResponse_append, Except.ok.injEq,
    Except.error.injEq]

/-- A fault with a class comes back if that is the name of a class and no white space is before the
message. -/
theorem survives_iff_of_kind_ne {marker : String} {fault : RemoteFault} (hr : fault.request = "")
    (hk : fault.kind ≠ "") : Survives marker (.error fault) ↔
      IsClass fault.kind.toList ∧ Stops isBlank fault.message.toList := by
  constructor
  · intro h
    rw [survives_iff_readFaultBody] at h
    by_cases hb : BeginsWithClass (faultBody fault).toList
    · rw [← h]
      exact readFaultBody_of_begins hb
    · rw [readFaultBody_of_not_begins hb] at h
      rw [← h] at hk
      exact absurd rfl hk
  · rintro ⟨hclass, hm⟩
    exact .of_class (isClassName_iff.mpr hclass) hm hr marker

/-- A fault without a class comes back if its message does not begin with one. -/
theorem survives_iff_of_kind_eq {marker : String} {fault : RemoteFault} (hr : fault.request = "")
    (hk : fault.kind = "") :
    Survives marker (.error fault) ↔ ¬ BeginsWithClass fault.message.toList := by
  obtain ⟨kind, message, request⟩ := fault
  obtain rfl : kind = "" := hk
  obtain rfl : request = "" := hr
  have hbody : faultBody ⟨"", message, ""⟩ = message := rfl
  rw [survives_iff_readFaultBody, hbody]
  constructor
  · intro h hb
    have hclass := (readFaultBody_of_begins hb).1
    rw [h] at hclass
    exact hclass.1 rfl
  · intro hb
    rw [readFaultBody_of_not_begins hb, String.ofList_toList]

/-- Whatever the marker is, the line of a fault is read as this fault exactly if no request is noted in
it and it has the name of a class and a message that begins with no white space, or no class and a
message that does not begin with the name of a class and a colon. -/
theorem parseResponse_error_iff (marker : String) (fault : RemoteFault) :
    parseResponse marker (frameResponse marker (.error fault)) = .ok (.error fault) ↔
      fault.request = "" ∧
        (IsClass fault.kind.toList ∧ (∀ c ∈ fault.message.toList.head?, isBlank c = false) ∨
          fault.kind = "" ∧ ¬ BeginsWithClass fault.message.toList) := by
  change Survives marker (.error fault) ↔ _
  by_cases hr : fault.request = ""
  · by_cases hk : fault.kind = ""
    · have hclass : ¬ IsClass "".toList := fun h => h.1 rfl
      simp only [survives_iff_of_kind_eq hr hk, hr, hk, hclass, true_and, false_and, false_or]
    · simp only [survives_iff_of_kind_ne hr hk, hr, hk, true_and, false_and, or_false, Stops]
  · have hlost : ¬ Survives marker (.error fault) := by
      rw [survives_iff_readFaultBody]
      intro h
      exact hr (h ▸ request_readFaultBody _)
    simp only [hlost, hr, false_and]

end LiteralBridge.Framing
