import LiteralBridge.Host.Echo
import LiteralBridge.Proofs.Envelope.RoundTrip
import LiteralBridge.Proofs.Remote.Network

/-! # Calls over an unreliable network

A call hands over one frame and receives one at most (`call_exchanges`). If the identifiers of the
calls are distinct, a call has an outcome only if the host has evaluated its source for it, and of
anything else that arrives it is told what it is (`callAll_faithful`). -/

namespace LiteralBridge

open Network (Carries Runs)

/-! ## Transports that are observed -/

/-- A transport that keeps what happens to it. -/
structure Observed (τ : Type) where
  inner : τ
  events : List TransportEvent := []

instance {τ : Type} [Transport τ] : Transport (Observed τ) where
  send transport frame :=
    let (result, inner) := Transport.send transport.inner frame
    (result, ⟨inner, transport.events ++ [.send frame result]⟩)
  receive transport :=
    let (result, inner) := Transport.receive transport.inner
    (result, ⟨inner, transport.events ++ [.receive result]⟩)

namespace Client

variable {wire : Wire} {τ : Type} [Transport τ]

def callAll (client : Client wire τ) :
    List String → List (Except ExchangeError Outcome) × Client wire τ
  | [] => ([], client)
  | source :: rest =>
    let (result, client) := client.call source
    let (results, client) := callAll client rest
    (result :: results, client)

def observed (client : Client wire τ) : Client wire (Observed τ) :=
  ⟨{ inner := client.transport }, client.ids, client.calls⟩

end Client

/-! ## One call -/

section Exchanges

theorem TransportEvent.eq_of_receive_mem {frame : ByteArray} {sent : Except ExchangeError Unit}
    {received found : Except ExchangeError ByteArray}
    (h : receive found ∈ [send frame sent, receive received]) : found = received := by
  simpa using h

variable {wire : Wire} {τ : Type} [Transport τ]

/-- A call for a request, from one state of the transport to another: what it does with the transport,
and its result. -/
inductive Exchanges (wire : Wire) (request : ExecutionRequest) :
    τ → List TransportEvent → Except ExchangeError Outcome → τ → Prop where
  | unsent {before after : τ} {e : ExchangeError}
    (hs : Transport.send before (wire.request.write request) = (.error e, after)) :
    Exchanges wire request before [.send (wire.request.write request) (.error e)] (.error e) after
  | lost {before between after : τ} {e : ExchangeError}
    (hs : Transport.send before (wire.request.write request) = (.ok (), between))
    (hr : Transport.receive between = (.error e, after)) :
    Exchanges wire request before [.send (wire.request.write request) (.ok ()), .receive (.error e)]
      (.error e) after
  | received {before between after : τ} {bytes : ByteArray}
    (hs : Transport.send before (wire.request.write request) = (.ok (), between))
    (hr : Transport.receive between = (.ok bytes, after)) :
    Exchanges wire request before [.send (wire.request.write request) (.ok ()), .receive (.ok bytes)]
      (acceptResponse wire request.id bytes) after

/-- An observed call does what it does without being observed. -/
theorem Client.call_exchanges (wire : Wire) (before : τ) (events : List TransportEvent)
    (ids : Nat → MessageId) (calls : Nat) (source : String) :
    ∃ used result after,
      call (⟨Observed.mk before events, ids, calls⟩ : Client wire (Observed τ)) source =
        (result, ⟨⟨after, events ++ used⟩, ids, calls + 1⟩) ∧
      call (⟨before, ids, calls⟩ : Client wire τ) source = (result, ⟨after, ids, calls + 1⟩) ∧
      Exchanges wire (.ofSource (ids calls) source) before used result after := by
  cases hs : Transport.send before (wire.request.write (.ofSource (ids calls) source)) with
  | mk sent between =>
    cases sent with
    | error e =>
      refine ⟨_, _, between, ?_, ?_, .unsent hs⟩
      · simp only [call, Transport.send, hs]
      · simp only [call, hs]
    | ok _ =>
      cases hr : Transport.receive between with
      | mk received after =>
        cases received with
        | error e =>
          refine ⟨_, _, after, ?_, ?_, .lost hs hr⟩
          · simp only [call, Transport.send, hs, Transport.receive, hr, List.append_assoc,
              List.cons_append, List.nil_append]
          · simp only [call, hs, hr]
        | ok bytes =>
          refine ⟨_, _, after, ?_, ?_, .received hs hr⟩
          · simp only [call, Transport.send, hs, Transport.receive, hr, List.append_assoc,
              List.cons_append, List.nil_append]
            rfl
          · simp only [call, hs, hr]
            rfl

variable {request : ExecutionRequest} {before after : τ} {used : List TransportEvent}
  {result : Except ExchangeError Outcome}

theorem Exchanges.sent_eq (h : Exchanges wire request before used result after) :
    used.filterMap TransportEvent.sent? = [wire.request.write request] := by
  cases h <;> rfl

theorem Exchanges.eq_of_received (h : Exchanges wire request before used result after)
    {bytes : ByteArray} (hb : .receive (.ok bytes) ∈ used) :
    result = acceptResponse wire request.id bytes := by
  cases h with
  | unsent => simp at hb
  | lost => simp at hb
  | received =>
    cases TransportEvent.eq_of_receive_mem hb
    rfl

theorem Exchanges.exists_received (h : Exchanges wire request before used result after)
    {outcome : Outcome} (ho : result = .ok outcome) : ∃ bytes, .receive (.ok bytes) ∈ used := by
  cases h with
  | unsent => cases ho
  | lost => cases ho
  | received => exact ⟨_, List.mem_cons_of_mem _ List.mem_cons_self⟩

end Exchanges

/-! ## Answers -/

section Answers

variable {wire : Wire} {ε : Type} [Evaluator ε] {request : ExecutionRequest}

/-- A request of the current version is evaluated, and answered under its identifier. -/
theorem handleFrame_write (host : ε) (hv : request.version = .current) :
    handleFrame wire host (wire.request.write request) =
      (.ok (wire.response.write (.ofResult request.id (Evaluator.evaluate host request.source).1)),
        (Evaluator.evaluate host request.source).2) := by
  have ha : acceptFrame wire (wire.request.write request) = .ok request := by
    rw [acceptFrame, wire.request.read?_write]
    simp only [hv]
    rfl
  rw [handleFrame, ha]

/-- An answer counts for its own request only. -/
theorem acceptResponse_write (wire : Wire) (id other : MessageId) (result : Except RemoteFault String) :
    acceptResponse wire id (wire.response.write (.ofResult other result)) =
      if other = id then .ok (.ofResult result) else .error (.foreign id other) := by
  rw [acceptResponse, wire.response.read?_write]
  rfl

/-- An answer to a request is the response to it. -/
theorem eq_write_of_answer {handling : Handling wire ε}
    (hf : handling.frame = wire.request.write request) (hv : request.version = .current)
    {bytes : ByteArray} (ha : handling.answer = .ok bytes) :
    bytes = wire.response.write
      (.ofResult request.id (Evaluator.evaluate handling.host request.source).1) := by
  rw [Handling.answer, hf, handleFrame_write _ hv] at ha
  exact (Except.ok.inj ha).symm

end Answers

/-! ## What arrives -/

/-- What a call tells of the network, after it and the calls before it. -/
structure Faithful {wire : Wire} {ε : Type} [Evaluator ε] (net : Network wire ε)
    (earlier : List ExecutionRequest) (request : ExecutionRequest) (used : List TransportEvent)
    (result : Except ExchangeError Outcome) : Prop where
  exchange : (∃ e, used = [.send (wire.request.write request) (.error e)] ∧ result = .error e) ∨
    ∃ received, used = [.send (wire.request.write request) (.ok ()), .receive received]
  lost : ∀ e, .receive (.error e) ∈ used → result = .error e
  computed : ∀ outcome, result = .ok outcome → ∃ handling ∈ net.handled,
    handling.frame = wire.request.write request ∧
      outcome = .ofResult (Evaluator.evaluate handling.host request.source).1
  own : ∀ handling ∈ net.handled, handling.frame = wire.request.write request →
    ∀ bytes, handling.answer = .ok bytes → .receive (.ok bytes) ∈ used →
      result = .ok (.ofResult (Evaluator.evaluate handling.host request.source).1)
  foreign : ∀ other ∈ earlier, ∀ handling ∈ net.handled, handling.frame = wire.request.write other →
    ∀ bytes, handling.answer = .ok bytes → .receive (.ok bytes) ∈ used →
      result = .error (.foreign request.id other.id)
  malformed : ∀ bytes, .receive (.ok bytes) ∈ used → wire.response.read? bytes = none →
    result = .error .malformed
  incompatible : ∀ bytes response, .receive (.ok bytes) ∈ used →
    wire.response.read? bytes = some response →
    SchemaVersion.current.isCompatibleWith response.version = false →
      result = .error (.incompatible .current response.version)

section Arrivals

variable {wire : Wire} {τ : Type} [Transport τ] {ε : Type} [Evaluator ε]
  {request sent : ExecutionRequest} {before after : τ} {used : List TransportEvent}
  {result : Except ExchangeError Outcome} {bytes : ByteArray}

theorem Exchanges.eq_of_lost (h : Exchanges wire request before used result after) {e : ExchangeError}
    (he : .receive (.error e) ∈ used) : result = .error e := by
  cases h with
  | unsent => simp at he
  | lost =>
    cases TransportEvent.eq_of_receive_mem he
    rfl
  | received => simp at he

/-- What an answer to any request comes to. -/
theorem Exchanges.eq_of_answer (h : Exchanges wire request before used result after)
    {handling : Handling wire ε} (hf : handling.frame = wire.request.write sent)
    (hv : sent.version = .current) (ha : handling.answer = .ok bytes) (hb : .receive (.ok bytes) ∈ used) :
    result = if sent.id = request.id
      then .ok (.ofResult (Evaluator.evaluate handling.host sent.source).1)
      else .error (.foreign request.id sent.id) := by
  rw [h.eq_of_received hb, eq_write_of_answer hf hv ha, acceptResponse_write]

theorem Exchanges.eq_of_malformed (h : Exchanges wire request before used result after)
    (hb : .receive (.ok bytes) ∈ used) (hm : wire.response.read? bytes = none) :
    result = .error .malformed := by
  rw [h.eq_of_received hb, acceptResponse, hm]

theorem Exchanges.eq_of_incompatible (h : Exchanges wire request before used result after)
    (hb : .receive (.ok bytes) ∈ used) {response : ExecutionResponse}
    (hr : wire.response.read? bytes = some response)
    (hv : SchemaVersion.current.isCompatibleWith response.version = false) :
    result = .error (.incompatible .current response.version) := by
  rw [h.eq_of_received hb, acceptResponse, hr]
  simp only [checkVersion, hv]
  rfl

variable {net : Network wire ε} {earlier : List ExecutionRequest}

/-- The frames that were handled are those of the request and of earlier ones, all of the current
version, and no earlier one has the identifier of the request. -/
structure Distinct (net : Network wire ε) (earlier : List ExecutionRequest)
    (request : ExecutionRequest) : Prop where
  handled : ∀ handling ∈ net.handled, ∃ sent ∈ earlier ++ [request],
    handling.frame = wire.request.write sent
  version : ∀ sent ∈ earlier ++ [request], sent.version = .current
  fresh : ∀ other ∈ earlier, other.id ≠ request.id

/-- Only an answer to the request itself is an outcome. -/
theorem Exchanges.exists_handling (h : Exchanges wire request before used result after)
    (hd : Distinct net earlier request) (hr : ∀ bytes, .receive (.ok bytes) ∈ used → net.Offers bytes)
    {outcome : Outcome} (ho : result = .ok outcome) : ∃ handling ∈ net.handled,
      handling.frame = wire.request.write request ∧
        outcome = .ofResult (Evaluator.evaluate handling.host request.source).1 := by
  obtain ⟨bytes, hb⟩ := h.exists_received ho
  cases hr bytes hb with
  | @answer handling hh ha =>
    -- it answers this request, or an earlier one, whose identifier is another
    obtain ⟨sent, hs, hf⟩ := hd.handled handling hh
    have he := h.eq_of_answer hf (hd.version sent hs) ha hb
    rw [ho] at he
    rcases List.mem_append.mp hs with hs | hs
    · rw [if_neg (hd.fresh sent hs)] at he
      cases he
    · obtain rfl := List.mem_singleton.mp hs
      rw [if_pos rfl] at he
      exact ⟨handling, hh, hf, Except.ok.inj he⟩
  | malformed hm =>
    rw [h.eq_of_malformed hb hm] at ho
    cases ho
  | incompatible hm hv =>
    rw [h.eq_of_incompatible hb hm hv] at ho
    cases ho

theorem Exchanges.faithful (h : Exchanges wire request before used result after)
    (hd : Distinct net earlier request)
    (hr : ∀ bytes, .receive (.ok bytes) ∈ used → net.Offers bytes) :
    Faithful net earlier request used result where
  exchange := by
    cases h with
    | unsent => exact .inl ⟨_, rfl, rfl⟩
    | lost => exact .inr ⟨_, rfl⟩
    | received => exact .inr ⟨_, rfl⟩
  lost _ he := h.eq_of_lost he
  computed _ ho := h.exists_handling hd hr ho
  own handling _ hf bytes ha hb := by
    rw [h.eq_of_answer hf (hd.version request (by simp)) ha hb, if_pos rfl]
  foreign other ho handling _ hf bytes ha hb := by
    rw [h.eq_of_answer hf (hd.version other (by simp [ho])) ha hb, if_neg (hd.fresh other ho)]
  malformed _ hb hm := h.eq_of_malformed hb hm
  incompatible _ _ hb hm hv := h.eq_of_incompatible hb hm hv

end Arrivals

/-! ## Runs of calls -/

namespace Client

variable {wire : Wire} {τ : Type} [Transport τ]

/-- The requests of calls with the identifiers from some number on. -/
def requestsFrom (ids : Nat → MessageId) : Nat → List String → List ExecutionRequest
  | _, [] => []
  | n, source :: rest => .ofSource (ids n) source :: requestsFrom ids (n + 1) rest

def requests (client : Client wire τ) (sources : List String) : List ExecutionRequest :=
  requestsFrom client.ids client.calls sources

def requestAfter (client : Client wire τ) (n : Nat) (source : String) : ExecutionRequest :=
  .ofSource (client.ids (client.calls + n)) source

/-- What happens to the transport during calls with these sources. -/
def events (client : Client wire τ) (sources : List String) : List TransportEvent :=
  (client.observed.callAll sources).2.transport.events

variable {ids : Nat → MessageId} {calls : Nat}

theorem requestsFrom_append (sources more : List String) :
    requestsFrom ids calls (sources ++ more) =
      requestsFrom ids calls sources ++ requestsFrom ids (calls + sources.length) more := by
  induction sources generalizing calls with
  | nil => rfl
  | cons source rest ih =>
    simp only [List.cons_append, requestsFrom, ih, List.length_cons]
    rw [Nat.add_right_comm, Nat.add_assoc]

theorem version_of_mem_requestsFrom {sources : List String} :
    ∀ request ∈ requestsFrom ids calls sources, request.version = .current := by
  induction sources generalizing calls with
  | nil => simp [requestsFrom]
  | cons source rest ih => exact List.forall_mem_cons.mpr ⟨rfl, ih⟩

theorem callAll_append (client : Client wire τ) (sources more : List String) :
    client.callAll (sources ++ more) =
      ((client.callAll sources).1 ++ ((client.callAll sources).2.callAll more).1,
        ((client.callAll sources).2.callAll more).2) := by
  induction sources generalizing client with
  | nil => rfl
  | cons source rest ih => simp only [List.cons_append, callAll, ih]

/-- Observed calls do what they do without being observed, and send a frame for each request. -/
theorem callAll_observed (wire : Wire) (transport : τ) (events : List TransportEvent)
    (ids : Nat → MessageId) (calls : Nat) (sources : List String) :
    ∃ results used after,
      callAll (⟨Observed.mk transport events, ids, calls⟩ : Client wire (Observed τ)) sources =
        (results, ⟨⟨after, events ++ used⟩, ids, calls + sources.length⟩) ∧
      callAll (⟨transport, ids, calls⟩ : Client wire τ) sources =
        (results, ⟨after, ids, calls + sources.length⟩) ∧
      results.length = sources.length ∧
      used.filterMap TransportEvent.sent? =
        (requestsFrom ids calls sources).map wire.request.write := by
  induction sources generalizing transport events calls with
  | nil => exact ⟨[], [], transport, by simp [callAll], rfl, rfl, rfl⟩
  | cons source rest ih =>
    obtain ⟨used, result, between, ho, hu, he⟩ := call_exchanges wire transport events ids calls source
    obtain ⟨results, more, after, hos, hus, hl, hsent⟩ := ih between (events ++ used) (calls + 1)
    refine ⟨result :: results, used ++ more, after, ?_, ?_, ?_, ?_⟩
    · simp only [callAll, ho, hos, List.append_assoc, List.length_cons]
      rw [Nat.add_right_comm, Nat.add_assoc]
    · simp only [callAll, hu, hus, List.length_cons]
      rw [Nat.add_right_comm, Nat.add_assoc]
    · rw [List.length_cons, hl, List.length_cons]
    · rw [List.filterMap_append, he.sent_eq, hsent, requestsFrom, List.map_cons, List.singleton_append]

/-- What is observed of calls, and what they come to. -/
theorem callAll_eq (client : Client wire τ) (sources : List String) :
    ∃ results after, results.length = sources.length ∧
      client.callAll sources = (results, ⟨after, client.ids, client.calls + sources.length⟩) ∧
      client.observed.callAll sources =
        (results, ⟨⟨after, client.events sources⟩, client.ids, client.calls + sources.length⟩) ∧
      (client.events sources).filterMap TransportEvent.sent? =
        (client.requests sources).map wire.request.write := by
  obtain ⟨results, used, after, ho, hu, hl, hs⟩ :=
    callAll_observed wire client.transport [] client.ids client.calls sources
  have he : client.events sources = used := congrArg (fun run => run.2.transport.events) ho
  refine ⟨results, after, hl, hu, ?_, ?_⟩
  · rw [he]
    exact ho
  · rw [he]
    exact hs

/-- The call after some calls, in a run that goes on after it. -/
theorem callAll_at (client : Client wire τ) (earlier : List String) (source : String)
    (later : List String) :
    ∃ result used more, ∃ before after : τ,
      (client.callAll (earlier ++ source :: later)).1[earlier.length]? = some result ∧
      client.events (earlier ++ source :: later) = client.events earlier ++ used ++ more ∧
      Exchanges wire (client.requestAfter earlier.length source) before used result after := by
  obtain ⟨results, between, hl, hu, ho, -⟩ := client.callAll_eq earlier
  obtain ⟨used, result, next, hco, hcu, he⟩ := call_exchanges wire between (client.events earlier)
    client.ids (client.calls + earlier.length) source
  obtain ⟨_, more, _, hmo, -⟩ := callAll_observed wire next (client.events earlier ++ used) client.ids
    (client.calls + earlier.length + 1) later
  refine ⟨result, used, more, between, next, ?_, ?_, he⟩
  · rw [callAll_append, hu, List.getElem?_append_right (Nat.le_of_eq hl), hl, Nat.sub_self]
    simp only [callAll, hcu]
    rfl
  · rw [events, callAll_append, ho]
    simp only [callAll, hco, hmo]

end Client

section Runs

variable {wire : Wire} {τ : Type} [Transport τ] {ε : Type} [Evaluator ε]

section Carries

variable {R : τ → Network wire ε → Prop}

/-- A call does what is possible in the network in which its transport stands. -/
theorem Exchanges.runs {request : ExecutionRequest} {before after : τ} {used : List TransportEvent}
    {result : Except ExchangeError Outcome} (h : Exchanges wire request before used result after)
    (hc : Carries R) {net : Network wire ε} (hR : R before net) :
    ∃ next, Runs net used next ∧ R after next := by
  obtain ⟨between, hsend, hbetween⟩ := hc.send hR (wire.request.write request)
  cases h with
  | unsent hs =>
    rw [hs] at hsend hbetween
    exact ⟨between, hsend, hbetween⟩
  | lost hs hr =>
    rw [hs] at hsend hbetween
    obtain ⟨next, hreceive, hnext⟩ := hc.receive hbetween
    rw [hr] at hreceive hnext
    exact ⟨next, hsend.append hreceive, hnext⟩
  | received hs hr =>
    rw [hs] at hsend hbetween
    obtain ⟨next, hreceive, hnext⟩ := hc.receive hbetween
    rw [hr] at hreceive hnext
    exact ⟨next, hsend.append hreceive, hnext⟩

/-- So do all calls of a run. -/
theorem Network.Carries.runs (hc : Carries R) {client : Client wire τ} {net : Network wire ε}
    (hR : R client.transport net) (sources : List String) :
    ∃ final, Runs net (client.events sources) final := by
  -- by induction on the sources, from wherever the calls before have left the transport
  have run (sources : List String) : ∀ {transport net}, R transport net → ∀ events ids calls,
      ∃ used final,
        (Client.callAll (⟨.mk transport events, ids, calls⟩ : Client wire (Observed τ))
          sources).2.transport.events =
          events ++ used ∧ Runs net used final := by
    induction sources with
    | nil =>
      intro transport net _ events _ _
      exact ⟨[], net, (List.append_nil events).symm, .nil net⟩
    | cons source rest ih =>
      intro transport net hR events ids calls
      obtain ⟨used, result, after, ho, -, he⟩ :=
        Client.call_exchanges wire transport events ids calls source
      obtain ⟨next, hused, hnext⟩ := he.runs hc hR
      obtain ⟨more, final, hevents, hmore⟩ := ih hnext (events ++ used) ids (calls + 1)
      refine ⟨used ++ more, final, ?_, hused.append hmore⟩
      simp only [Client.callAll, ho, hevents, List.append_assoc]
  obtain ⟨used, final, hevents, hruns⟩ := run sources hR [] client.ids client.calls
  have he : client.events sources = used := hevents
  exact ⟨final, he ▸ hruns⟩

end Carries

/-- In a run of calls whose identifiers are distinct, every call is faithful to the network as it is
right after the call. -/
theorem callAll_faithful {client : Client wire τ} {earlier later : List String} {source : String}
    (hd : ((client.requests (earlier ++ source :: later)).map ExecutionRequest.id).Nodup)
    {host : ε} {final : Network wire ε}
    (hn : Runs { host := host } (client.events (earlier ++ source :: later)) final) :
    ∃ result used, ∃ net : Network wire ε,
      (client.callAll (earlier ++ source :: later)).1[earlier.length]? = some result ∧
      client.events earlier ++ used <+: client.events (earlier ++ source :: later) ∧
      Runs { host := host } (client.events earlier ++ used) net ∧
      Faithful net (client.requests earlier) (client.requestAfter earlier.length source) used
        result := by
  obtain ⟨result, used, _, _, _, hresult, hevents, he⟩ := client.callAll_at earlier source later
  rw [hevents] at hn ⊢
  obtain ⟨net, hruns, -⟩ := hn.split rfl
  refine ⟨result, used, net, hresult, List.prefix_append .., hruns, ?_⟩
  have hsent : net.sent = (client.requests earlier ++
      [client.requestAfter earlier.length source]).map wire.request.write := by
    obtain ⟨_, _, -, -, -, hearlier⟩ := client.callAll_eq earlier
    rw [hruns.sent_eq, List.filterMap_append, he.sent_eq, hearlier, List.map_append]
    rfl
  apply he.faithful
  · constructor
    · intro handling hh
      have hframe := hruns.handled_sent (by simp) handling hh
      rw [hsent] at hframe
      obtain ⟨sent, hm, hf⟩ := List.mem_map.mp hframe
      exact ⟨sent, hm, hf.symm⟩
    · intro sent hm
      rcases List.mem_append.mp hm with hm | hm
      · exact Client.version_of_mem_requestsFrom sent hm
      · rw [List.mem_singleton.mp hm]
        rfl
    · intro other ho heq
      rw [Client.requests, Client.requestsFrom_append, List.map_append, List.nodup_append] at hd
      exact hd.2.2 _ (List.mem_map_of_mem ho) _ List.mem_cons_self heq
  · intro bytes hb
    exact hruns.received (List.mem_append_right _ hb)

/-- A run in which the first call gets no answer, the second gets the late answer to the first, and the
third gets its own. -/
theorem callAll_faithful_late :
    let schedule : Schedule .json EchoHost := { host := {}, picks := [none, some 0, some 2] }
    let client : Client .json (Schedule .json EchoHost) := { transport := schedule, ids := fun n => ⟨n⟩ }
    ((client.requests (["1"] ++ "x = [2]" :: ["x"])).map ExecutionRequest.id).Nodup ∧
    ∃ final : Network .json EchoHost,
      Runs { host := schedule.host } (client.events (["1"] ++ "x = [2]" :: ["x"])) final ∧
      ∃ result used, ∃ net : Network .json EchoHost,
        (client.callAll (["1"] ++ "x = [2]" :: ["x"])).1[["1"].length]? = some result ∧
        client.events ["1"] ++ used <+: client.events (["1"] ++ "x = [2]" :: ["x"]) ∧
        Runs { host := schedule.host } (client.events ["1"] ++ used) net ∧
        Faithful net (client.requests ["1"]) (client.requestAfter ["1"].length "x = [2]") used
          result := by
  intro schedule client
  have hd : ((client.requests (["1"] ++ "x = [2]" :: ["x"])).map ExecutionRequest.id).Nodup := by
    decide
  have hstands : schedule.Stands { host := schedule.host } := ⟨rfl, by simp [schedule]⟩
  obtain ⟨final, hn⟩ : ∃ final : Network .json EchoHost,
      Runs { host := schedule.host } (client.events (["1"] ++ "x = [2]" :: ["x"])) final :=
    Schedule.carries.runs hstands _
  exact ⟨hd, final, hn, callAll_faithful hd hn⟩

end Runs

end LiteralBridge
