import LiteralBridge.Bridge.Echo
import LiteralBridge.Proofs.Bridge.Store
import LiteralBridge.Proofs.Literal.Limit

/-! # Values through an echo

What a value is written as is what a host that echoes literals answers to it, character for character,
if it nests no deeper than the literals of the host (`EchoHost.answer_source_of_le`). What nests
deeper begins with a bracket, so that it is no assignment either, whatever its strings look like
(`EchoHost.answer_source_of_lt`). -/

namespace LiteralBridge

open Text

/-- A literal with depth is written with a bracket in front. -/
theorem Literal.head_render_of_depth {literal : Literal} (hd : literal.depth ≠ 0) :
    ∃ c rest, literal.render = c :: rest ∧ isBracket c = true := by
  cases literal with
  | list items => exact ⟨'[', _, rfl, rfl⟩
  | tuple items =>
    rw [render]
    cases renderAll items with
    | nil => exact ⟨'(', _, rfl, rfl⟩
    | cons first more =>
      cases more with
      | nil => exact ⟨'(', _, rfl, rfl⟩
      | cons second more => exact ⟨'(', _, rfl, rfl⟩
  | set items =>
    cases items with
    | nil => exact absurd rfl hd
    | cons first rest => exact ⟨'{', _, rfl, rfl⟩
  | dict entries => exact ⟨'{', _, rfl, rfl⟩
  | _ => exact absurd rfl hd

/-! ## The host -/

namespace EchoHost

/-- The target of an assignment begins like a path, and so does the assignment. -/
theorem splitAssignment?_eq_none {source : String} {c : Char} {rest : List Char}
    (hs : source.toList = c :: rest) (hb : isBlank c = false) (hn : isNameStart c = false) :
    splitAssignment? source = none := by
  have hp : ¬ " = ".toList <+: c :: rest := by
    intro hp
    obtain ⟨rfl, -⟩ := List.cons_prefix_cons.mp hp
    exact absurd hb (by decide)
  rw [splitAssignment?, hs, splitOnce_cons hp]
  cases splitOnce " = ".toList rest with
  | none => rfl
  | some cut => simp [head?_trim_cons hb, hn]

section Literals

variable (host : EchoHost) {literal : Literal} (hf : literal.Fits)
  (hb : host.binding? literal.source = none)
include hf hb

/-- The canonical text of a literal that is not too deep is answered by itself. -/
theorem answer_source_of_le (hd : literal.depth ≤ depthLimit) :
    host.answer literal.source = (.ok literal.source, none) := by
  have hs : literal.canonical.source = literal.source := by
    rw [Literal.source, Literal.render_canonical, Literal.source]
  rw [answer, hb]
  simp only [Literal.parse_source_of_le hf hd, hs]

/-- The canonical text of a literal that is too deep denotes nothing. -/
theorem answer_source_of_lt (hd : depthLimit < literal.depth) :
    host.answer literal.source = (.error (undefinedName literal.source), none) := by
  obtain ⟨offset, hp⟩ := Literal.parse_source_of_lt hf hd
  obtain ⟨c, rest, hr, hc⟩ := Literal.head_render_of_depth (Nat.ne_zero_of_lt hd)
  have hsource : literal.source.toList = c :: rest := by
    rw [Literal.source, String.toList_ofList, hr]
  have hs : splitAssignment? literal.source = none := by
    apply splitAssignment?_eq_none hsource
    · exact Literal.isBlank_eq_false_of_beginsLiteral (Literal.beginsLiteral_of_isBracket hc)
    · exact (Literal.not_letter_of_mark (.inl hc)).2.2
  rw [answer, hb]
  simp only [hp, hs]

theorem execute_source_of_le (hd : literal.depth ≤ depthLimit) :
    Channel.execute host literal.source =
      (.ok literal.source, { host with requests := host.requests ++ [literal.source] }) := by
  simp only [Channel.execute, Evaluator.evaluate, host.answer_source_of_le hf hb hd, Reply.ofResult_ok]

theorem execute_source_of_lt (hd : depthLimit < literal.depth) :
    Channel.execute host literal.source =
      (.error (.remote ((undefinedName literal.source).withRequest literal.source)),
        { host with requests := host.requests ++ [literal.source] }) := by
  simp only [Channel.execute, Evaluator.evaluate, host.answer_source_of_lt hf hb hd,
    Reply.ofResult_error]

end Literals

end EchoHost

/-! ## Round trips -/

section RoundTrip

variable {config : Config} {v : Value}

/-- What was encoded is executed, and an answer to it is decoded. -/
theorem echoRoundTrip_of_encode {text : String} (h : v.encode config = .ok text) (kind : Kind) :
    echoRoundTrip config v kind =
      match (Channel.execute ({} : EchoHost) text).1 with
      | .ok answer => (decode config kind answer).mapError .undecodable
      | .error e => .error (.channel e) := by
  simp only [echoRoundTrip, h, Bridge.sendPrepared, Bridge.send]
  cases (Channel.execute ({} : EchoHost) text).1 with
  | ok answer => rfl
  | error e => rfl

theorem echoRoundTrip_eq_unencodable {kind : Kind} {e : EncodeError} :
    echoRoundTrip config v kind = .error (.unencodable e) ↔ v.encode config = .error e := by
  cases h : v.encode config with
  | error found =>
    have hr : echoRoundTrip config v kind = .error (.unencodable found) := by
      rw [echoRoundTrip, h]
      rfl
    rw [hr]
    simp
  | ok text =>
    rw [echoRoundTrip_of_encode h]
    cases (Channel.execute ({} : EchoHost) text).1 with
    | error found => simp
    | ok answer =>
      dsimp only
      cases decode config kind answer with
      | error found => simp [Except.mapError]
      | ok w => simp [Except.mapError]

end RoundTrip

/-- A fresh host that echoes answers the text of data by that text if it nests at most 64 deep, and by
an undefined name if it nests deeper. The round trip of the data then decodes the text, or fails with
the host. Only what cannot be encoded is refused before it is sent. -/
theorem echo_encode {config : Config} {v : Value} (hn : v.Everywhere Value.IsNotHandle) :
    (∀ text, v.encode config = .ok text →
      ∃ literal, Literal.parse config.maxDepth text = .ok literal ∧ literal.depth = v.nesting ∧
        (literal.depth ≤ 64 →
          Channel.execute ({} : EchoHost) text = (.ok text, { requests := [text] }) ∧
          ∀ kind, echoRoundTrip config v kind =
            (decode config kind text).mapError .undecodable) ∧
        (64 < literal.depth →
          let fault := (EchoHost.undefinedName text).withRequest text
          Channel.execute ({} : EchoHost) text = (.error (.remote fault), { requests := [text] }) ∧
          ∀ kind, echoRoundTrip config v kind = .error (.channel (.remote fault)))) ∧
    ∀ kind e, echoRoundTrip config v kind = .error (.unencodable e) ↔ v.encode config = .error e := by
  refine ⟨fun text h => ?_, fun kind e => echoRoundTrip_eq_unencodable⟩
  have he := (Value.exists_encode_iff.mp ⟨text, h⟩).1
  have hd := Value.everywhere_isData hn he
  have hf := Value.fits_literal he
  have hparse := Value.parse_of_encode hd h
  obtain rfl := Value.source_of_encode hd h
  refine ⟨v.literal.canonical, hparse, ?_, fun hle => ?_, fun hlt => ?_⟩
  · rw [Literal.depth_canonical, Value.depth_literal he]
  · rw [Literal.depth_canonical] at hle
    have hx := EchoHost.execute_source_of_le {} hf rfl hle
    refine ⟨hx, fun kind => ?_⟩
    rw [echoRoundTrip_of_encode h, hx]
  · rw [Literal.depth_canonical] at hlt
    have hx := EchoHost.execute_source_of_lt {} hf rfl hlt
    refine ⟨hx, fun kind => ?_⟩
    rw [echoRoundTrip_of_encode h, hx]

/-- A string that looks like an assignment, 65 lists deep. -/
theorem echo_encode_too_deep :
    let v := Nat.repeat (fun item => Value.array [item]) 65 (.string "x = 1")
    let text := String.ofList
      (List.replicate 65 '[' ++ "\"x = 1\"".toList ++ List.replicate 65 ']')
    v.Everywhere Value.IsNotHandle ∧ v.encode { maxDepth := 65 } = .ok text ∧
      echoRoundTrip { maxDepth := 65 } v .any =
        .error (.channel (.remote ((EchoHost.undefinedName text).withRequest text))) := by
  intro v text
  have hn : v.Everywhere Value.IsNotHandle := by
    simp [v, Nat.repeat, Value.Everywhere, Value.EverywhereAll, Value.IsNotHandle]
  have h : v.encode { maxDepth := 65 } = .ok text := by decide +kernel
  obtain ⟨literal, -, hd, -, hdeep⟩ := (echo_encode hn).1 text h
  have hlt : 64 < literal.depth := by
    rw [hd]
    decide +kernel
  exact ⟨hn, h, (hdeep hlt).2 .any⟩

end LiteralBridge
