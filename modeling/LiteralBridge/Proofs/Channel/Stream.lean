import LiteralBridge.Proofs.Framing.Responses
import LiteralBridge.Proofs.Host.Lines

/-! # Lines and requests stay together

Each request takes one line from the host, whatever becomes of the line. So the reply to a request is
told by this request and by the line at its place, and the requests are all written as they come
(`executeAll_inPlace`). -/

namespace LiteralBridge

open Text
open Framing (frame isLineBreak_of_mem_frame readFaultBody readResponse_append
  readResponse_of_unmarked unframe unframe_frame)

/-! ## Lines in bytes -/

namespace IncomingLine

/-- The bytes of a text in UTF-8. -/
def utf8 (cs : List Char) : List UInt8 :=
  cs.flatMap String.utf8EncodeChar

theorem toUTF8_ofList (cs : List Char) : (String.ofList cs).toUTF8 = ⟨(utf8 cs).toArray⟩ := by
  apply ByteArray.ext
  exact (congrArg ByteArray.data String.toByteArray_ofList).trans List.data_toByteArray

theorem ofLine_utf8 (cs : List Char) : ofLine (utf8 cs) = .text cs := by
  have h : String.fromUTF8? ⟨(utf8 cs).toArray⟩ = some (String.ofList cs) := by
    rw [← toUTF8_ofList]
    exact dif_pos (String.ofList cs).isValidUTF8
  simp only [ofLine, h, String.toList_ofList]

/-- The byte of a line feed stands for nothing else. -/
theorem eq_newline_of_mem_utf8EncodeChar {c : Char} (h : 10 ∈ String.utf8EncodeChar c) :
    c = '\n' := by
  have byte (n : Nat) (hn : 10 = UInt8.ofNat n) : n % 256 = 10 := by
    have hnat := congrArg UInt8.toNat hn
    simpa using hnat.symm
  have hcode : c.val.toNat = 10 := by
    -- from two bytes on, each of them is at least 128
    unfold String.utf8EncodeChar at h
    dsimp only at h
    split at h
    · have := byte _ (List.mem_singleton.mp h)
      omega
    split at h
    · simp only [List.mem_cons, List.not_mem_nil, or_false] at h
      rcases h with h | h <;> have := byte _ h <;> omega
    split at h
    · simp only [List.mem_cons, List.not_mem_nil, or_false] at h
      rcases h with h | h | h <;> have := byte _ h <;> omega
    · simp only [List.mem_cons, List.not_mem_nil, or_false] at h
      rcases h with h | h | h | h <;> have := byte _ h <;> omega
  exact Char.toNat_inj.mp hcode

theorem forall_mem_utf8 {content : List Char} (h : '\n' ∉ content) :
    ∀ byte ∈ utf8 content, (byte == 10) = false := by
  intro byte hb
  obtain ⟨c, hc, hb⟩ := List.mem_flatMap.mp hb
  refine beq_eq_false_iff_ne.mpr fun he => h ?_
  rw [he] at hb
  rwa [← eq_newline_of_mem_utf8EncodeChar hb]

/-- The lines of a text are those of its bytes. -/
theorem pieces_utf8 {text : List Char} {lines : List (List Char)} (h : IsCut text lines) :
    pieces (· == 10) (utf8 text) = lines.map utf8 := by
  induction h with
  | nil => rfl
  | @unterminated content hne hc =>
    have hbytes : utf8 content ≠ [] := by
      cases content with
      | nil => exact absurd rfl hne
      | cons c rest => simp [utf8, String.utf8EncodeChar_ne_nil]
    exact pieces_eq_singleton (forall_mem_utf8 hc) hbytes
  | @terminated content rest lines hc _ ih =>
    have hbytes : utf8 (content ++ '\n' :: rest) = utf8 content ++ 10 :: utf8 rest :=
      List.flatMap_append
    have hline : utf8 (content ++ ['\n']) = utf8 content ++ [10] := List.flatMap_append
    rw [hbytes, pieces_append_cons (forall_mem_utf8 hc) rfl, ih, List.map_cons, hline]

theorem ofBytes_toUTF8 (output : String) : ofBytes output.toUTF8.data.toList = ofText output := by
  have hbytes : output.toUTF8.data.toList = utf8 output.toList := by
    rw [← String.ofList_toList (s := output), toUTF8_ofList, String.toList_ofList]
  rw [ofBytes, hbytes, pieces_utf8 (isCut_terminatedLines _), List.map_map, ofText]
  exact List.map_congr_left fun cs _ => ofLine_utf8 cs

def totalSize : List IncomingLine → Nat
  | [] => 0
  | line :: rest => line.size + totalSize rest

theorem totalSize_map_text (lines : List (List Char)) :
    totalSize (lines.map text) = byteLength lines.flatten := by
  induction lines with
  | nil => rfl
  | cons line rest ih =>
    rw [List.map_cons, totalSize, ih, List.flatten_cons, byteLength_append, size]

end IncomingLine

/-! ## Lines of frames -/

/-- A frame is a single line. -/
theorem lines_joinLines_frame (sources : List String) :
    Text.lines (joinLines (sources.map frame)).toList =
      sources.map fun source => (frame source).toList := by
  rw [lines_joinLines (List.forall_mem_map.mpr fun _ _ => isLineBreak_of_mem_frame), List.map_map]
  rfl

/-! ## Runs -/

/-- There is a reply to each source. -/
theorem length_executeAll {σ : Type} [Channel σ] (channel : σ) (sources : List String) :
    (executeAll channel sources).1.length = sources.length := by
  induction sources generalizing channel with
  | nil => rfl
  | cons source rest ih => exact congrArg (· + 1) (ih _)

namespace LineStream

/-- The reply to a source, by the line from the host at its place if there is one. -/
def reply (marker source : String) : Option IncomingLine → Reply
  | some line => interpret marker source line
  | none => .error (.transport .hostClosed)

/-- The channel after requests: each of them has taken a line, if one was left, and stands on a line of
its own. -/
def afterSources (stream : LineStream) (sources : List String) : LineStream where
  incoming := stream.incoming.drop sources.length
  marker := stream.marker
  received := stream.received + IncomingLine.totalSize (stream.incoming.take sources.length)
  sent := stream.sent ++ joinLines (sources.map frame)

theorem afterSources_nil (stream : LineStream) : stream.afterSources [] = stream := by
  simp [afterSources, joinLines, IncomingLine.totalSize]

theorem afterSources_cons (stream : LineStream) (source : String) (rest : List String) :
    (stream.afterSources [source]).afterSources rest = stream.afterSources (source :: rest) := by
  obtain ⟨incoming, marker, received, sent⟩ := stream
  cases incoming with
  | nil => simp [afterSources, joinLines, String.append_assoc, IncomingLine.totalSize]
  | cons line more =>
    simp [afterSources, joinLines, String.append_assoc, IncomingLine.totalSize, Nat.add_assoc]

theorem execute_eq (stream : LineStream) (source : String) :
    Channel.execute stream source =
      (reply stream.marker source stream.incoming.head?, stream.afterSources [source]) := by
  obtain ⟨incoming, marker, received, sent⟩ := stream
  cases incoming with
  | nil =>
    simp [Channel.execute, reply, afterSources, joinLines, String.append_assoc,
      IncomingLine.totalSize]
  | cons line more =>
    simp [Channel.execute, reply, afterSources, joinLines, String.append_assoc,
      IncomingLine.totalSize]

theorem executeAll_snd (stream : LineStream) (sources : List String) :
    (executeAll stream sources).2 = stream.afterSources sources := by
  induction sources generalizing stream with
  | nil => exact (afterSources_nil stream).symm
  | cons source rest ih =>
    simp only [executeAll, execute_eq, ih, afterSources_cons]

/-- The reply at a place comes from the source and the line at this place. -/
theorem getElem?_executeAll (stream : LineStream) (sources : List String) (j : Nat) :
    (executeAll stream sources).1[j]? =
      sources[j]?.map fun source => reply stream.marker source stream.incoming[j]? := by
  induction sources generalizing stream j with
  | nil => simp [executeAll]
  | cons source rest ih =>
    simp only [executeAll, execute_eq]
    cases j with
    | zero => simp [List.head?_eq_getElem?]
    | succ j => simp [ih, afterSources]

end LineStream

/-! ## Replies by lines -/

/-- What the host answers to a source with a line, or by having no line left. Line feeds and carriage
returns at the end of the line do not count. -/
inductive Answers (marker source : String) : (line? : Option (List Char)) → Reply → Prop where
  | closed : Answers marker source none (.error (.transport .hostClosed))
  | misframed {line : List Char} {e : Framing.FramingError} :
      unframe (String.ofList (dropEndWhile isLineBreak line)) = .error e →
      Answers marker source (some line) (.error (.transport (.badFrame e)))
  | fault {line : List Char} {body : String} :
      unframe (String.ofList (dropEndWhile isLineBreak line)) = .ok (marker ++ body) →
      Answers marker source (some line)
        (.error (.remote ((readFaultBody body.toList).withRequest source)))
  | result {line : List Char} {text : String} :
      unframe (String.ofList (dropEndWhile isLineBreak line)) = .ok text →
      ¬ marker.toList <+: text.toList → Answers marker source (some line) (.ok text)

theorem Answers.reply_eq {marker source : String} {line? : Option (List Char)} {reply : Reply}
    (h : Answers marker source line? reply) :
    LineStream.reply marker source (line?.map .text) = reply := by
  have interpreted {line : List Char} {text : String}
      (hu : unframe (String.ofList (dropEndWhile isLineBreak line)) = .ok text) :
      LineStream.reply marker source (some (.text line)) =
        Reply.ofResult source (Framing.readResponse marker text) := by
    simp only [LineStream.reply, LineStream.interpret, Framing.parseResponse, hu]
    rfl
  cases h with
  | closed => rfl
  | misframed hu =>
    simp only [Option.map_some, LineStream.reply, LineStream.interpret, Framing.parseResponse, hu]
    rfl
  | fault hu => exact (interpreted hu).trans (by rw [readResponse_append]; rfl)
  | result hu hm => exact (interpreted hu).trans (by rw [readResponse_of_unmarked hm]; rfl)

theorem exists_answers (marker source : String) (line? : Option (List Char)) :
    ∃ reply, Answers marker source line? reply := by
  cases line? with
  | none => exact ⟨_, .closed⟩
  | some line =>
    cases hu : unframe (String.ofList (dropEndWhile isLineBreak line)) with
    | error e => exact ⟨_, .misframed hu⟩
    | ok text =>
      by_cases hm : marker.toList <+: text.toList
      · obtain ⟨body, hb⟩ := hm
        have ht : text = marker ++ String.ofList body := by
          apply String.toList_injective
          rw [String.toList_append, String.toList_ofList, hb]
        exact ⟨_, .fault (ht ▸ hu)⟩
      · exact ⟨_, .result hu hm⟩

theorem answers_iff {marker source : String} {line? : Option (List Char)} {reply : Reply} :
    Answers marker source line? reply ↔
      LineStream.reply marker source (line?.map .text) = reply := by
  refine ⟨Answers.reply_eq, fun h => ?_⟩
  obtain ⟨found, hfound⟩ := exists_answers marker source line?
  rwa [← h, hfound.reply_eq]

/-! ## Channels over the output of a host -/

/-- A run that keeps its place in the lines from the host. Each source has one reply, which answers it
by the line at its place. Of the host as many lines are read as there are sources, or all of them.
Every source is written, framed on a line of its own, and can be read back. -/
structure InPlace (marker : String) (lines : List (List Char)) (sources : List String)
    (replies : List Reply) (after : LineStream) : Prop where
  length_eq : replies.length = sources.length
  reply_iff : ∀ (j : Nat) (reply : Reply), replies[j]? = some reply ↔
    ∃ source, sources[j]? = some source ∧ Answers marker source lines[j]? reply
  received_eq : after.received = byteLength (lines.take sources.length).flatten
  sent_eq : after.sent.toList = sources.flatMap fun source => (frame source).toList ++ ['\n']
  sources_eq : (Text.lines after.sent.toList).map (fun line => unframe (String.ofList line)) =
    sources.map .ok

theorem inPlace_ofText (output marker : String) (sources : List String) :
    let stream : LineStream := { incoming := IncomingLine.ofText output, marker := marker }
    InPlace marker (terminatedLines output.toList) sources (executeAll stream sources).1
      (executeAll stream sources).2 := by
  intro stream
  have hsent : (executeAll stream sources).2.sent = joinLines (sources.map frame) := by
    rw [LineStream.executeAll_snd]
    exact String.empty_append
  constructor
  case length_eq => exact length_executeAll stream sources
  case reply_iff =>
    intro j reply
    have hline : stream.incoming[j]? = (terminatedLines output.toList)[j]?.map .text :=
      List.getElem?_map
    simp only [LineStream.getElem?_executeAll, Option.map_eq_some_iff, answers_iff, hline]
    exact Iff.rfl
  case received_eq =>
    have hlines : stream.incoming.take sources.length =
        ((terminatedLines output.toList).take sources.length).map .text :=
      List.map_take.symm
    rw [LineStream.executeAll_snd, ← IncomingLine.totalSize_map_text, ← hlines]
    exact Nat.zero_add _
  case sent_eq =>
    rw [hsent, toList_joinLines, List.flatMap_map]
  case sources_eq =>
    rw [hsent, lines_joinLines_frame, List.map_map]
    apply List.map_congr_left
    intro source _
    rw [Function.comp_apply, String.ofList_toList, unframe_frame]

/-- Whatever text the host writes, well framed or not, and whatever is asked, the run keeps its place
in the lines of this text. -/
theorem executeAll_inPlace (output marker : String) (sources : List String) :
    IsCut output.toList (terminatedLines output.toList) ∧
    let stream : LineStream :=
      { incoming := IncomingLine.ofBytes output.toUTF8.data.toList, marker := marker }
    InPlace marker (terminatedLines output.toList) sources (executeAll stream sources).1
      (executeAll stream sources).2 := by
  refine ⟨isCut_terminatedLines _, ?_⟩
  rw [IncomingLine.ofBytes_toUTF8]
  exact inPlace_ofText output marker sources

end LiteralBridge
