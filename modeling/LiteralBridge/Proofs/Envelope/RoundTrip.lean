import LiteralBridge.Envelope.Read
import LiteralBridge.Proofs.Json.Tokens
import LiteralBridge.Proofs.MessageId

/-! # Envelopes read back

The bytes of a request are read as that request, and those of a response as that response, so
documents are codecs of envelopes (`Wire.json`). Every record is taken as it is written, by the order
in which its members are written. -/

namespace LiteralBridge

open Json (Reader Takes TakesMembers takes_readString takes_readNatBelow ofChars renderString)

/-! ## Records -/

/-- An object is read as a record if its members fill the fields. -/
theorem takes_readRecord {σ α : Type} {bound : Nat} {start last : σ}
    {member : σ → String → Reader σ} {next : σ → Reader σ} {finish : σ → Option α} {a : α}
    {members : List (String × Json)} (h : TakesMembers member start members last)
    (hb : members.length ≤ bound) (hf : finish last = some a) :
    Takes (readRecord bound start member next finish) (Json.object members).render a := by
  intro rest _
  have hc := h.readContainer_eq hb rest
  have hopen (body : List Json.Symbol) : Json.readOpening (.char '{' :: body) = some (true, body) :=
    rfl
  simp [Json.render, readRecord, hopen, hc, hf]

/-- An object with one member is read as a choice by its key. -/
theorem takes_readVariant {α : Type} {variant : String → Reader α} {key : String} {j : Json} {a : α}
    (h : Takes (variant key) j.render a) :
    Takes (Json.readVariant variant) (Json.object [(key, j)]).render a := by
  intro rest _
  have hv := h (.char '}' :: rest) (Json.follows_closing rest)
  simp [Json.render, Json.renderMembers, Json.joined, Json.readVariant, Json.readString_renderString,
    Json.readChar_cons (c := '{') (by decide), Json.readChar_cons (c := ':') (by decide),
    Json.readChar_cons (c := '}') (by decide), hv]

theorem takes_readMessageId (id : MessageId) :
    Takes readMessageId (Json.string id.text).render id := by
  intro rest _
  rw [Json.render, readMessageId, Json.readString_renderString]
  simp [MessageId.ofText?_text]

theorem takes_readVersionNumber (n : UInt32) :
    Takes readVersionNumber (Json.ofWord n).render n := by
  have hn : n.toNat < 0x100000000 := n.toNat_lt
  have hm := (takes_readNatBelow hn).map UInt32.ofNat
  rw [UInt32.ofNat_toNat] at hm
  exact hm

theorem takes_readVersion {bound : Nat} (hb : 2 ≤ bound) (v : SchemaVersion) :
    Takes (readVersion bound) v.toJson.render v := by
  have hmajor : Takes (readVersionMember bound (none, none) "major") (Json.ofWord v.major).render
      (some v.major, none) := (takes_readVersionNumber v.major).readOnce.map fun n => (n, none)
  have hminor : Takes (readVersionMember bound (some v.major, none) "minor")
      (Json.ofWord v.minor).render (some v.major, some v.minor) :=
    (takes_readVersionNumber v.minor).readOnce.map fun n => (some v.major, n)
  exact takes_readRecord (.cons hmajor (.cons hminor (.nil _))) hb rfl

theorem takes_readFault {bound : Nat} (hb : 3 ≤ bound) (fault : RemoteFault) :
    Takes (readFault bound) fault.toJson.render fault := by
  obtain ⟨kind, message, request⟩ := fault
  have hkind : Takes (readFaultMember bound (none, none, none) "kind") (Json.string kind).render
      (some kind, none, none) := (takes_readString kind).readOnce.map fun s => (s, none, none)
  have hmessage : Takes (readFaultMember bound (some kind, none, none) "message")
      (Json.string message).render (some kind, some message, none) :=
    (takes_readString message).readOnce.map fun s => (some kind, s, none)
  have hrequest : Takes (readFaultMember bound (some kind, some message, none) "request")
      (Json.string request).render (some kind, some message, some request) :=
    (takes_readString request).readOnce.map fun s => (some kind, some message, s)
  exact takes_readRecord (.cons hkind (.cons hmessage (.cons hrequest (.nil _)))) hb rfl

theorem takes_readOutcome {bound : Nat} (hb : 3 ≤ bound) (outcome : Outcome) :
    Takes (readOutcome bound) outcome.toJson.render outcome := by
  cases outcome with
  | value text =>
    apply takes_readVariant
    exact (takes_readString text).map Outcome.value
  | fault f =>
    apply takes_readVariant
    exact (takes_readFault hb f).map Outcome.fault

/-! ## Envelopes -/

theorem takes_readEnvelope {α : Type} {idKey contentKey : String} {content : Reader α} {bound : Nat}
    (hb : 3 ≤ bound) (hi : idKey ≠ "version") (hc : contentKey ≠ "version") (hk : contentKey ≠ idKey)
    (id : MessageId) (v : SchemaVersion) {j : Json} {a : α} (ha : Takes content j.render a) :
    Takes (readEnvelope idKey contentKey content bound)
      (Json.object [(idKey, .string id.text), ("version", v.toJson), (contentKey, j)]).render
      (id, v, a) := by
  have hid : Takes (readEnvelopeMember idKey contentKey content bound (none, none, none) idKey)
      (Json.string id.text).render (some id, none, none) := by
    intro rest hr
    simp [readEnvelopeMember, (takes_readMessageId id).readOnce rest hr]
  have hversion : Takes
      (readEnvelopeMember idKey contentKey content bound (some id, none, none) "version")
      v.toJson.render (some id, some v, none) := by
    intro rest hr
    have hv := takes_readVersion (Nat.le_of_succ_le hb) v
    simp [readEnvelopeMember, hi.symm, hv.readOnce rest hr]
  have hcontent : Takes
      (readEnvelopeMember idKey contentKey content bound (some id, some v, none) contentKey)
      j.render (some id, some v, some a) := by
    intro rest hr
    simp [readEnvelopeMember, hc, hk, ha.readOnce rest hr]
  exact takes_readRecord (.cons hid (.cons hversion (.cons hcontent (.nil _)))) hb rfl

/-- A reader that takes the text of an object reads it from the bytes of the text. -/
theorem readWhole_text {α : Type} {read : Nat → Reader α} {members : List (String × Json)} {a : α}
    (h : ∀ bound, 3 ≤ bound → Takes (read bound) (Json.object members).render a) :
    Json.readWhole read (Json.symbolsOfBytes (Json.object members).text.toUTF8) = some a := by
  have hlen : 3 ≤ (ofChars (Json.object members).render).length + 1 := by
    simp [Json.render]
  have hr := h _ hlen [] trivial
  rw [List.append_nil] at hr
  have hs : Json.symbolsOfBytes (Json.object members).text.toUTF8 =
      ofChars (Json.object members).render := by
    rw [Json.symbolsOfBytes_toUTF8, Json.symbols, Json.text, String.toList_ofList, ofChars]
  rw [hs, Json.readWhole, hr]
  rfl

/-- The bytes of a request are read as that request. -/
theorem ExecutionRequest.ofBytes?_toBytes (request : ExecutionRequest) :
    ofBytes? request.toBytes = some request := by
  have ht (bound : Nat) (hb : 3 ≤ bound) :
      Takes (readEnvelope "id" "source" Json.readString bound) request.toJson.render
        (request.id, request.version, request.source) :=
    takes_readEnvelope hb (by decide) (by decide) (by decide) _ _ (takes_readString request.source)
  have hr := readWhole_text ht
  rw [ofBytes?, toBytes, toJson, hr]
  rfl

/-- The bytes of a response are read as that response. -/
theorem ExecutionResponse.ofBytes?_toBytes (response : ExecutionResponse) :
    ofBytes? response.toBytes = some response := by
  have ht (bound : Nat) (hb : 3 ≤ bound) :
      Takes (readEnvelope "correlation_id" "outcome" (readOutcome bound) bound)
        response.toJson.render (response.correlationId, response.version, response.outcome) :=
    takes_readEnvelope hb (by decide) (by decide) (by decide) _ _
      (takes_readOutcome hb response.outcome)
  have hr := readWhole_text ht
  rw [ofBytes?, toBytes, toJson, hr]
  rfl

/-- Whatever its identifier, its version and its texts are, an envelope is read from its bytes as it
was written, with every outcome. -/
theorem envelopes_ofBytes?_toBytes :
    (∀ request : ExecutionRequest, ExecutionRequest.ofBytes? request.toBytes = some request) ∧
    ∀ response : ExecutionResponse, ExecutionResponse.ofBytes? response.toBytes = some response :=
  ⟨ExecutionRequest.ofBytes?_toBytes, ExecutionResponse.ofBytes?_toBytes⟩

/-- Envelopes are documents on the wire. -/
def Wire.json : Wire where
  request := ⟨ExecutionRequest.toBytes, ExecutionRequest.ofBytes?, ExecutionRequest.ofBytes?_toBytes⟩
  response :=
    ⟨ExecutionResponse.toBytes, ExecutionResponse.ofBytes?, ExecutionResponse.ofBytes?_toBytes⟩

end LiteralBridge
