import Mathlib.Control.Monad.Basic
import LiteralBridge.Command.Basic
import LiteralBridge.Proofs.Value.Document
import LiteralBridge.Proofs.Value.RoundTrip

/-! # Documents there and back

What one command writes a document as, the other prints as the same document
(`Command.run_decode_any_of_run_encode`). -/

namespace LiteralBridge

/-- The text of a value that stands for a document is decoded to that value. -/
theorem Value.Mirrors.decode_of_encode {config : Config} {v : Value} {j : Json} {text : String}
    (hm : v.Mirrors j) (h : v.encode config = .ok text) : decode config .any text = .ok v := by
  obtain ⟨he, -⟩ := Value.exists_encode_iff.mp ⟨text, h⟩
  apply Value.decode_eq_of_ne_object
  · simp
  · exact Value.parse_of_encode hm.hasKind.everywhere_isData h
  · rw [Value.convert_literal hm.hasKind hm.ordered he, hm.canonical]

namespace Command

variable {config : Config} {j : Json} {text : String}

theorem run_encode_eq_ok :
    (encode j).run config = .ok text ↔ ∃ v, Value.ofJson j = .ok v ∧ v.encode config = .ok text := by
  rw [run]
  cases Value.ofJson j with
  | error e => simp
  | ok v => cases h : v.encode config <;> simp [Except.mapError, h]

theorem run_decode_of_run_encode (ho : j.Ordered) (h : (encode j).run config = .ok text) :
    (decode .any text).run config = .ok j.text := by
  obtain ⟨v, hv, he⟩ := run_encode_eq_ok.mp h
  have hm := Value.mirrors_of_ofJson ho hv
  simp only [run, hm.decode_of_encode he, hm.toJson]

/-- Decoding the text of a document prints the document. Only a document with an integer that needs
an unsigned word has no value, and the value of any other is printed as the document. -/
theorem run_decode_any_of_run_encode (ho : j.Ordered) :
    (∀ config text, (encode j).run config = .ok text →
      (decode .any text).run config = .ok j.text) ∧
    ((∃ e, Value.ofJson j = .error e) ↔
      ∃ i fits, Json.Occurs (.number (.integer i fits)) j ∧ 0x8000000000000000 ≤ i) ∧
    ∀ v, Value.ofJson j = .ok v → v.toJson = j := by
  refine ⟨fun config text h => ?_, Value.exists_error_ofJson_iff, fun v hv => ?_⟩
  · exact run_decode_of_run_encode ho h
  · exact (Value.mirrors_of_ofJson ho hv).toJson

/-- Keys out of order, a null among floats, a negative zero, empty containers and a string of quotes
and an escape. -/
theorem run_decode_any_of_run_encode_mixed :
    let source := "\x7b\"b\": [null, -0.0, 1e2], \"a\": [\x7b\x7d, null], \"\": [\"'\\\"\\n\"]\x7d"
    let text := "\x7b\"\": [\"\\'\\\"\\n\"], \"a\": [\x7b\x7d, None], \"b\": [None, -0.0, 100.0]\x7d"
    let output := "\x7b\"\":[\"'\\\"\\n\"],\"a\":[\x7b\x7d,null],\"b\":[null,-0.0,100.0]\x7d"
    let j := Json.object [("", .array [.string "'\"\n"]), ("a", .array [.object [], .null]),
      ("b", .array [.null, .number (.float Binary64.zero.neg rfl),
        .number (.float (.ofWord false 0x4059000000000000) rfl)])]
    (Json.parse? source).map Json.text = some output ∧ j.Ordered ∧
      (encode j).run {} = .ok text ∧ (decode .any text).run {} = .ok output := by
  intro source text output j
  have ho : j.Ordered := by
    constructor
    · decide +kernel
    · simp [Json.Ordered, Json.OrderedItems, Json.OrderedMembers]
  have h : (encode j).run {} = .ok text := run_encode_eq_ok.mpr ⟨_, rfl, by decide +kernel⟩
  have hj : j.text = output := by decide +kernel
  refine ⟨by decide +kernel, ho, h, ?_⟩
  rw [← hj]
  exact (run_decode_any_of_run_encode ho).1 {} text h

/-- From the command line, under the same settings: what was printed for the text of a document is
decoded to the compact form of that document. -/
theorem execute_decode_any_of_execute_encode {overrides : Overrides}
    {file? : Option (Except FileFault ByteArray)} {document : String}
    (h : execute overrides file? ["encode", document] = .ok text) :
    ∃ j, Json.parse? document = some j ∧
      execute overrides file? ["decode", "any", text] = .ok j.text := by
  obtain ⟨command, hc, h⟩ := Literal.bind_eq_ok.mp h
  obtain ⟨config, hconfig, h⟩ := Literal.bind_eq_ok.mp h
  cases hj : Json.parse? document with
  | none => simp [ofArguments, hj] at hc
  | some j =>
    obtain rfl : encode j = command := by simpa [ofArguments, hj] using hc
    have hd := run_decode_of_run_encode (Json.ordered_of_parse? hj) h
    refine ⟨j, rfl, ?_⟩
    rw [execute, hconfig]
    exact hd

end Command

end LiteralBridge
