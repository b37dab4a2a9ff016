import LiteralBridge.Proofs.Channel.Stream
import LiteralBridge.Proofs.Host.Echo
import LiteralBridge.Proofs.Literal.Unique

/-! # Answers read back from lines

A host that answers sources ahead of time, line by line, is not told from one that is asked directly,
as long as what it answers survives its line. An echoing host answers so, whatever it is asked, if
nothing is bound to a text that begins with the marker (`EchoHost.Unmarked.step`). -/

namespace LiteralBridge

open Text
open Framing (Survives checkMarker_eq_ok frame frameResponse isClassName_of_isAlphanum
  not_marker_of_beginsLiteral not_prefix_of_head unframe_frame)
open Literal.Grammar (Stops)

/-! ## Framed texts are single lines -/

namespace Framing

theorem isLineBreak_of_mem_frameResponse {marker : String} {response : Except RemoteFault String} :
    ∀ c ∈ (frameResponse marker response).toList, isLineBreak c = false := by
  cases response with
  | ok text => exact isLineBreak_of_mem_frame
  | error fault => exact isLineBreak_of_mem_frame

end Framing

open Framing (isLineBreak_of_mem_frameResponse)

/-! ## The host side -/

section Evaluations

variable {ε : Type} [Evaluator ε]

def evaluateAll (host : ε) : List String → List (Except RemoteFault String) × ε
  | [] => ([], host)
  | source :: rest =>
    let (result, host) := Evaluator.evaluate host source
    let (results, host) := evaluateAll host rest
    (result :: results, host)

theorem length_evaluateAll (host : ε) (sources : List String) :
    (evaluateAll host sources).1.length = sources.length := by
  induction sources generalizing host with
  | nil => rfl
  | cons source rest ih => exact congrArg (· + 1) (ih _)

/-- A property of hosts that evaluation keeps holds after a whole run, and what it gives of the result
of an evaluation holds of every result. -/
theorem evaluateAll_invariant {I : ε → Prop} {R : Except RemoteFault String → Prop}
    (step : ∀ {host}, I host → ∀ source,
      R (Evaluator.evaluate host source).1 ∧ I (Evaluator.evaluate host source).2)
    {host : ε} (h : I host) (sources : List String) :
    (∀ result ∈ (evaluateAll host sources).1, R result) ∧ I (evaluateAll host sources).2 := by
  induction sources generalizing host with
  | nil => exact ⟨by simp [evaluateAll], h⟩
  | cons source rest ih =>
    obtain ⟨hresult, hnext⟩ := step h source
    obtain ⟨hresults, hlast⟩ := ih hnext
    exact ⟨List.forall_mem_cons.mpr ⟨hresult, hresults⟩, hlast⟩

theorem serveAll_frame (host : ε) (marker : String) (sources : List String) :
    serveAll host marker (sources.map fun source => (frame source).toList) =
      ((evaluateAll host sources).1.map (frameResponse marker), (evaluateAll host sources).2) := by
  induction sources generalizing host with
  | nil => rfl
  | cons source rest ih =>
    have hline : serveLine host marker (frame source).toList =
        (frameResponse marker (Evaluator.evaluate host source).1,
          (Evaluator.evaluate host source).2) := by
      rw [serveLine, String.ofList_toList, unframe_frame]
    simp only [List.map_cons, serveAll, evaluateAll, hline, ih]

/-- The channel that replays the answers has a line for each of them. -/
theorem replayChannel_eq {marker : String} (hm : checkMarker marker = .ok ()) (host : ε)
    (sources : List String) :
    replayChannel host sources marker =
      (.ok { incoming := (evaluateAll host sources).1.map fun result =>
                .text ((frameResponse marker result).toList ++ ['\n'])
             marker := marker }, (evaluateAll host sources).2) := by
  have houtput : terminatedLines
      (joinLines ((evaluateAll host sources).1.map (frameResponse marker))).toList =
      (evaluateAll host sources).1.map fun result =>
        (frameResponse marker result).toList ++ ['\n'] := by
    rw [terminatedLines_joinLines
      (List.forall_mem_map.mpr fun _ _ => isLineBreak_of_mem_frameResponse), List.map_map]
    rfl
  simp only [replayChannel, serveLines, lines_joinLines_frame, serveAll_frame, IncomingLine.ofText, houtput,
    List.map_map, LineStream.withMarker, hm]
  rfl

end Evaluations

/-! ## The calling side -/

namespace LineStream

/-- A response that survives its line is attributed to the source that is asked for. -/
theorem interpret_frameResponse {marker : String} {response : Except RemoteFault String}
    (h : Survives marker response) (source : String) :
    interpret marker source (.text ((frameResponse marker response).toList ++ ['\n'])) =
      Reply.ofResult source response := by
  rw [Survives] at h
  rw [interpret, dropEndWhile_append_newline isLineBreak_of_mem_frameResponse, String.ofList_toList,
    h]

/-- Once all lines are read the channel is closed for good. -/
theorem executeAll_exhausted {stream : LineStream} (hi : stream.incoming = [])
    (sources : List String) :
    ∀ reply ∈ (executeAll stream sources).1, reply = .error (.transport .hostClosed) := by
  intro reply hr
  obtain ⟨j, hj⟩ := List.mem_iff_getElem?.mp hr
  rw [getElem?_executeAll, hi] at hj
  obtain ⟨source, -, rfl⟩ := Option.map_eq_some_iff.mp hj
  rfl

/-- Responses that survive their lines are read in order, one for each source, until none is left. -/
theorem executeAll_lines {marker : String} {responses : List (Except RemoteFault String)}
    (h : ∀ response ∈ responses, Survives marker response) {stream : LineStream}
    (hm : stream.marker = marker)
    (hi : stream.incoming = responses.map fun response =>
      .text ((frameResponse marker response).toList ++ ['\n']))
    {sources : List String} (hl : responses.length = sources.length) :
    (executeAll stream sources).1 = List.zipWith Reply.ofResult sources responses ∧
      (executeAll stream sources).2.incoming = [] := by
  constructor
  · apply List.ext_getElem?
    intro j
    rw [getElem?_executeAll, hi, hm, List.getElem?_map, List.getElem?_zipWith]
    cases hs : sources[j]? with
    | none => rfl
    | some source =>
      obtain ⟨hj, -⟩ := List.getElem?_eq_some_iff.mp hs
      rw [← hl] at hj
      have hsurvives : Survives marker responses[j] := h _ (List.getElem_mem hj)
      rw [List.getElem?_eq_getElem hj]
      exact congrArg some (interpret_frameResponse hsurvives source)
  · rw [executeAll_snd, afterSources, hi, ← hl, ← List.map_drop, List.drop_length, List.map_nil]

end LineStream

/-! ## Messages of the echoing host -/

/-- The text begins with a character that is no white space. -/
def Visible (text : String) : Prop :=
  text.toList.head?.any (fun c => !isBlank c) = true

instance (text : String) : Decidable (Visible text) :=
  inferInstanceAs (Decidable (_ = _))

theorem Visible.append {text : String} (h : Visible text) (more : String) :
    Visible (text ++ more) := by
  rw [Visible] at h ⊢
  rw [String.toList_append]
  cases ht : text.toList with
  | nil => simp [ht] at h
  | cons c rest => simpa [ht] using h

theorem Visible.stops {text : String} (h : Visible text) : Stops isBlank text.toList := by
  intro c hc
  rw [Visible, Option.mem_def.mp hc] at h
  simpa using h

theorem visible_message (reason : Literal.Fault) : Visible reason.message := by
  cases reason with
  | wanted expected found =>
    cases found with
    | none => exact .append (.append (by decide) _) _
    | some c => exact .append (.append (.append (by decide) _) _) _
  | unseparated closing found => exact .append (.append (.append (by decide) _) _) _
  | unknownName name => exact .append (.append (by decide) _) _
  | unexpected | tooDeep | unclosed | notNegatable | unsupportedFloat | unknownEscape
  | invalidCodePoint => exact .append (by decide) _
  | _ => decide

/-! ## The echoing host -/

namespace EchoHost

variable {host : EchoHost} {source : String}

/-- Asked directly, the host gives the results of its evaluations. -/
theorem executeAll_eq (host : EchoHost) (sources : List String) :
    executeAll host sources =
      (List.zipWith Reply.ofResult sources (evaluateAll host sources).1,
        (evaluateAll host sources).2) := by
  induction sources generalizing host with
  | nil => rfl
  | cons source rest ih =>
    simp only [executeAll, Channel.execute, ih, evaluateAll, List.zipWith_cons_cons]

/-- Whatever it answers, the host notes what it was asked. -/
theorem requests_evaluate (host : EchoHost) (source : String) :
    (Evaluator.evaluate host source).2.requests = host.requests ++ [source] := by
  simp only [Evaluator.evaluate]
  cases (host.answer source).2 with
  | none => rfl
  | some binding => rfl

theorem requests_evaluateAll (host : EchoHost) (sources : List String) :
    (evaluateAll host sources).2.requests = host.requests ++ sources := by
  induction sources generalizing host with
  | nil => exact (List.append_nil _).symm
  | cons source rest ih =>
    rw [evaluateAll, ih, requests_evaluate, List.append_assoc, List.singleton_append]

/-- No source is bound to a text that begins with the marker. -/
def Unmarked (marker : String) (host : EchoHost) : Prop :=
  ∀ source text, host.binding? source = some text → ¬ marker.toList <+: text.toList

/-- What the host answers is bound to the source, the source as a literal, that an assignment is made,
or that the source denotes nothing. -/
theorem answer_cases (host : EchoHost) (source : String) :
    (∃ text, host.binding? source = some text ∧ host.answer source = (.ok text, none)) ∨
    (∃ literal, Literal.parse depthLimit source = .ok literal ∧
      host.answer source = (.ok literal.source, none)) ∨
    (∃ target value literal, splitAssignment? source = some (target, value) ∧
      Literal.parse depthLimit value = .ok literal ∧
      host.answer source = (.ok "None", some (target, literal.source))) ∨
    host.answer source = (.error (undefinedName source), none) ∨
    ∃ e : Literal.ParseError, host.answer source = (.error ⟨"SyntaxError", e.message, ""⟩, none) := by
  rw [answer]
  cases host.binding? source with
  | some text => exact .inl ⟨text, rfl, rfl⟩
  | none =>
    refine .inr ?_
    cases Literal.parse depthLimit source with
    | ok literal => exact .inl ⟨literal, rfl, rfl⟩
    | error _ =>
      refine .inr ?_
      cases splitAssignment? source with
      | none => exact .inr (.inl rfl)
      | some assignment =>
        obtain ⟨target, value⟩ := assignment
        cases hv : Literal.parse depthLimit value with
        | ok literal => exact .inl ⟨target, value, literal, rfl, hv, by simp only [hv]⟩
        | error e => exact .inr (.inr ⟨e, by simp only [hv]⟩)

theorem survives_undefinedName (marker source : String) :
    Survives marker (.error (undefinedName source)) := by
  have hm : Visible (undefinedName source).message := by
    rw [message_undefinedName]
    exact .append (.append (by decide) _) _
  apply Survives.of_class
  · rw [kind_undefinedName]
    exact isClassName_of_isAlphanum (by decide) (by decide)
  · exact hm.stops
  · rfl

theorem survives_syntaxError (marker : String) (e : Literal.ParseError) :
    Survives marker (.error ⟨"SyntaxError", e.message, ""⟩) := by
  have hm : Visible e.message := .append (.append (visible_message e.reason) _) _
  apply Survives.of_class
  · show Framing.isClassName "SyntaxError".toList = true
    exact isClassName_of_isAlphanum (by decide) (by decide)
  · exact hm.stops
  · rfl

/-- An answer survives its line, and after it no bound text begins with the marker either. -/
theorem Unmarked.step {marker : String} (hm : checkMarker marker = .ok ()) (hu : host.Unmarked marker)
    (source : String) :
    Survives marker (Evaluator.evaluate host source).1 ∧
      (Evaluator.evaluate host source).2.Unmarked marker := by
  have literal_head {literal : Literal} {limit : Nat} {text : String}
      (h : Literal.parse limit text = .ok literal) : ¬ marker.toList <+: literal.source.toList := by
    obtain ⟨c, rest, hr, hc⟩ := Literal.head_render (Literal.fits_of_parse h)
    apply not_prefix_of_head hm (c := c)
    · simp [Literal.source, hr]
    · exact (not_marker_of_beginsLiteral hc).imp_right .inr
  rcases host.answer_cases source with ⟨text, hb, ha⟩ | ⟨literal, hl, ha⟩ |
    ⟨target, value, literal, -, hl, ha⟩ | ha | ⟨e, ha⟩
  · simp only [Evaluator.evaluate, ha]
    exact ⟨.of_unmarked (hu source text hb), hu⟩
  · simp only [Evaluator.evaluate, ha]
    exact ⟨.of_unmarked (literal_head hl), hu⟩
  · simp only [Evaluator.evaluate, ha]
    constructor
    · exact .of_unmarked (not_prefix_of_head hm rfl (.inl (isAlphanumeric_of_isAlphanum rfl)))
    · -- what is bound now is the canonical text of a literal
      intro other text hb
      rw [binding?_bind] at hb
      split at hb
      · rw [← Option.some.inj hb]
        exact literal_head hl
      · exact hu other text hb
  · simp only [Evaluator.evaluate, ha]
    exact ⟨survives_undefinedName marker source, hu⟩
  · simp only [Evaluator.evaluate, ha]
    exact ⟨survives_syntaxError marker e, hu⟩

end EchoHost

/-! ## The replay -/

/-- If the marker is valid and no bound text begins with it, the channel that replays the answers of a
host to sources gives what the host gives if it is asked directly, and the host is the same after it.
Nothing else can be had from the channel. -/
theorem executeAll_replayChannel {marker : String} (hm : checkMarker marker = .ok ())
    {host : EchoHost} (hu : host.Unmarked marker) (sources : List String) :
    ∃ stream : LineStream,
      replayChannel host sources marker = (.ok stream, (executeAll host sources).2) ∧
      (executeAll stream sources).1 = (executeAll host sources).1 ∧
      ∀ later, ∀ reply ∈ (executeAll (executeAll stream sources).2 later).1,
        reply = .error (.transport .hostClosed) := by
  obtain ⟨hs, -⟩ :=
    evaluateAll_invariant (fun h source => EchoHost.Unmarked.step hm h source) hu sources
  let stream : LineStream := {
    incoming := (evaluateAll host sources).1.map fun result =>
      .text ((frameResponse marker result).toList ++ ['\n'])
    marker := marker }
  have hreplay : replayChannel host sources marker = (.ok stream, (evaluateAll host sources).2) :=
    replayChannel_eq hm host sources
  obtain ⟨hreplies, hempty⟩ :=
    stream.executeAll_lines hs rfl rfl (length_evaluateAll host sources)
  rw [EchoHost.executeAll_eq]
  exact ⟨stream, hreplay, hreplies, LineStream.executeAll_exhausted hempty⟩

/-- A host with a binding to a text that has the marker behind a space. Among the sources are the empty
text, one that begins with the marker, and some with line breaks. -/
theorem executeAll_replayChannel_line_breaks :
    let host : EchoHost := { bindings := [("a\nb", " !\r")] }
    let sources := ["a\nb", "x = '\\r'", "x", "", "!y: \r\n"]
    checkMarker "!" = .ok () ∧ host.Unmarked "!" ∧ ∃ stream : LineStream,
      replayChannel host sources "!" = (.ok stream, (executeAll host sources).2) ∧
      (executeAll stream sources).1 = (executeAll host sources).1 ∧
      ∀ later, ∀ reply ∈ (executeAll (executeAll stream sources).2 later).1,
        reply = .error (.transport .hostClosed) := by
  intro host sources
  have hm : checkMarker "!" = .ok () :=
    checkMarker_eq_ok.mpr ⟨'!', [], rfl, isAlphanumeric_ascii (by decide), by decide, by decide⟩
  have hu : host.Unmarked "!" := by
    intro source text hb
    simp only [EchoHost.binding?, host, List.lookup_cons, List.lookup_nil] at hb
    split at hb
    · rw [← Option.some.inj hb]
      decide
    · simp at hb
  exact ⟨hm, hu, executeAll_replayChannel hm hu sources⟩

end LiteralBridge
