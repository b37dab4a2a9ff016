import LiteralBridge.Remote.Client
import LiteralBridge.Remote.Server

/-! # Frames under way

Between a client and a host, frames can be lost, delayed, repeated and overtaken by others, and
what arrives may be no envelope or one of another version. Only answers do not come from nowhere:
there is one only if the host has handled a frame that was sent before (`Runs.handled_sent`,
`Runs.received`). -/

namespace LiteralBridge

/-- What happens between a client and its transport. -/
inductive TransportEvent where
  /-- A frame is handed over, with or without success. -/
  | send (frame : ByteArray) (result : Except ExchangeError Unit)
  | receive (result : Except ExchangeError ByteArray)

namespace TransportEvent

def sent? : TransportEvent → Option ByteArray
  | send frame _ => some frame
  | receive _ => none

end TransportEvent

/-- A frame that was handled, and the host as it was before. -/
structure Handling (wire : Wire) (ε : Type) where
  host : ε
  frame : ByteArray

def Handling.answer {wire : Wire} {ε : Type} [Evaluator ε] (handling : Handling wire ε) :
    Except ExchangeError ByteArray :=
  (handleFrame wire handling.host handling.frame).1

/-- A host and what has become of the frames for it so far. -/
structure Network (wire : Wire) (ε : Type) where
  host : ε
  sent : List ByteArray := []
  handled : List (Handling wire ε) := []

namespace Network

variable {wire : Wire} {ε : Type} [Evaluator ε]

/-- What a client can receive. -/
inductive Offers (net : Network wire ε) (bytes : ByteArray) : Prop where
  | answer {handling : Handling wire ε} (hh : handling ∈ net.handled) (ha : handling.answer = .ok bytes)
  | malformed (hm : wire.response.read? bytes = none)
  | incompatible {response : ExecutionResponse} (hr : wire.response.read? bytes = some response)
    (hv : SchemaVersion.current.isCompatibleWith response.version = false)

/-- One step, and what a client sees of it. A frame may be under way though it could not be sent, and
the host may handle any frame at any time, and again. -/
inductive Step : Network wire ε → Option TransportEvent → Network wire ε → Prop where
  | send (net : Network wire ε) (frame : ByteArray) (result : Except ExchangeError Unit) :
    Step net (some (.send frame result)) { net with sent := net.sent ++ [frame] }
  | handle {net : Network wire ε} {frame : ByteArray} (hs : frame ∈ net.sent) :
    Step net none {
      host := (handleFrame wire net.host frame).2
      sent := net.sent
      handled := net.handled ++ [⟨net.host, frame⟩] }
  | receive {net : Network wire ε} {bytes : ByteArray} (ho : net.Offers bytes) :
    Step net (some (.receive (.ok bytes))) net
  | lose (net : Network wire ε) (e : ExchangeError) : Step net (some (.receive (.error e))) net

/-- Steps in which a client sees the given events, in this order. -/
inductive Runs : Network wire ε → List TransportEvent → Network wire ε → Prop where
  | nil (net : Network wire ε) : Runs net [] net
  | cons {net between after : Network wire ε} {event? : Option TransportEvent}
    {events : List TransportEvent} (first : Step net event? between)
    (others : Runs between events after) : Runs net (event?.toList ++ events) after

variable {net after : Network wire ε} {event? : Option TransportEvent} {events : List TransportEvent}

/-! ## One step -/

theorem Step.sent_eq (h : Step net event? after) :
    after.sent = net.sent ++ event?.toList.filterMap TransportEvent.sent? := by
  cases h with
  | send => rfl
  | handle => simp
  | receive => simp [TransportEvent.sent?]
  | lose => simp [TransportEvent.sent?]

theorem Step.subset_handled (h : Step net event? after) : net.handled ⊆ after.handled := by
  cases h with
  | handle => exact List.subset_append_left ..
  | _ => exact List.Subset.refl _

theorem Step.handled_sent (h : Step net event? after)
    (hs : ∀ handling ∈ net.handled, handling.frame ∈ net.sent) :
    ∀ handling ∈ after.handled, handling.frame ∈ after.sent := by
  cases h with
  | send =>
    intro handling hh
    exact List.mem_append_left _ (hs handling hh)
  | handle hf =>
    intro handling hh
    rcases List.mem_append.mp hh with hh | hh
    · exact hs handling hh
    · rw [List.mem_singleton.mp hh]
      exact hf
  | receive _ => exact hs
  | lose => exact hs

theorem Offers.mono {bytes : ByteArray} (ho : net.Offers bytes) (hs : net.handled ⊆ after.handled) :
    after.Offers bytes := by
  cases ho with
  | answer hh ha => exact .answer (hs hh) ha
  | malformed hm => exact .malformed hm
  | incompatible hr hv => exact .incompatible hr hv

theorem Step.received (h : Step net event? after) {bytes : ByteArray}
    (hb : .receive (.ok bytes) ∈ event?) : after.Offers bytes := by
  cases h with
  | receive ho =>
    cases hb
    exact ho
  | _ => cases hb

/-! ## All steps -/

theorem Runs.append {between : Network wire ε} {more : List TransportEvent} (h : Runs net events between)
    (hm : Runs between more after) : Runs net (events ++ more) after := by
  induction h with
  | nil => exact hm
  | cons first _ ih =>
    rw [List.append_assoc]
    exact .cons first (ih hm)

theorem Runs.sent_eq (h : Runs net events after) :
    after.sent = net.sent ++ events.filterMap TransportEvent.sent? := by
  induction h with
  | nil => simp
  | cons first _ ih => rw [ih, first.sent_eq, List.filterMap_append, List.append_assoc]

theorem Runs.subset_handled (h : Runs net events after) : net.handled ⊆ after.handled := by
  induction h with
  | nil => exact List.Subset.refl _
  | cons first _ ih => exact List.Subset.trans first.subset_handled ih

/-- Steps can be split where what a client sees is split. -/
theorem Runs.split {seen more : List TransportEvent} (h : Runs net events after)
    (he : events = seen ++ more) : ∃ between, Runs net seen between ∧ Runs between more after := by
  induction h generalizing seen with
  | nil net =>
    obtain ⟨rfl, rfl⟩ := List.append_eq_nil_iff.mp he.symm
    exact ⟨net, .nil net, .nil net⟩
  | @cons net between after event? events first others ih =>
    cases event? with
    | none =>
      -- the client sees nothing of this step, so it counts to the first part
      obtain ⟨middle, hs, hm⟩ := ih he
      exact ⟨middle, .cons first hs, hm⟩
    | some event =>
      cases seen with
      | nil =>
        rw [List.nil_append] at he
        exact ⟨net, .nil net, he ▸ .cons first others⟩
      | cons head seen =>
        obtain ⟨rfl, ht⟩ := List.cons.inj he
        obtain ⟨middle, hs, hm⟩ := ih ht
        exact ⟨middle, .cons first hs, hm⟩

/-- What is handled was sent. -/
theorem Runs.handled_sent (h : Runs net events after)
    (hs : ∀ handling ∈ net.handled, handling.frame ∈ net.sent) :
    ∀ handling ∈ after.handled, handling.frame ∈ after.sent := by
  induction h with
  | nil => exact hs
  | cons first _ ih => exact ih (first.handled_sent hs)

/-- What is received was on offer. -/
theorem Runs.received (h : Runs net events after) {bytes : ByteArray}
    (hb : .receive (.ok bytes) ∈ events) : after.Offers bytes := by
  induction h with
  | nil => cases hb
  | cons first others ih =>
    rcases List.mem_append.mp hb with hb | hb
    · exact (first.received (Option.mem_toList.mp hb)).mono others.subset_handled
    · exact ih hb

/-! ## Transports in a network -/

/-- A transport, as it stands in a network, does to its client what the network does. -/
structure Carries {τ : Type} [Transport τ] (R : τ → Network wire ε → Prop) : Prop where
  send : ∀ {transport net}, R transport net → ∀ frame, ∃ after,
    Runs net [.send frame (Transport.send transport frame).1] after ∧
      R (Transport.send transport frame).2 after
  receive : ∀ {transport net}, R transport net → ∃ after,
    Runs net [.receive (Transport.receive transport).1] after ∧
      R (Transport.receive transport).2 after

end Network

/-! ## Scheduled answers -/

/-- A transport to a host that handles every frame at once. Which of all the answers so far is
received, and when none is, is fixed in advance. -/
structure Schedule (wire : Wire) (ε : Type) where
  host : ε
  answers : List ByteArray := []
  /-- The numbers of the answers to be received. -/
  picks : List (Option Nat)

namespace Schedule

variable {wire : Wire} {ε : Type} [Evaluator ε]

instance : Transport (Schedule wire ε) where
  send schedule frame :=
    match handleFrame wire schedule.host frame with
    | (.ok answer, host) =>
      (.ok (), { schedule with host := host, answers := schedule.answers ++ [answer] })
    | (.error e, host) => (.error e, { schedule with host := host })
  receive schedule :=
    match schedule.picks.head?.join.bind (schedule.answers[·]?) with
    | some answer => (.ok answer, { schedule with picks := schedule.picks.tail })
    | none =>
      (.error (.transport "timed out"), { schedule with picks := schedule.picks.tail })

/-- The host is that of the network, and its answers are on offer. -/
def Stands (schedule : Schedule wire ε) (net : Network wire ε) : Prop :=
  net.host = schedule.host ∧ ∀ answer ∈ schedule.answers, net.Offers answer

open Network (Runs Carries)

/-- When a frame is sent, the network sends it and handles it. -/
theorem carries : Carries (Stands : Schedule wire ε → Network wire ε → Prop) where
  send := by
    intro schedule net hs frame
    obtain ⟨hh, ha⟩ := hs
    let after : Network wire ε := {
      host := (handleFrame wire net.host frame).2
      sent := net.sent ++ [frame]
      handled := net.handled ++ [⟨net.host, frame⟩] }
    have hmem : frame ∈ net.sent ++ [frame] := List.mem_append_right _ List.mem_cons_self
    have hruns : Runs net [.send frame (Transport.send schedule frame).1] after :=
      .cons (.send net frame _) (.cons (.handle hmem) (.nil after))
    have hold : ∀ answer ∈ schedule.answers, after.Offers answer := fun answer h =>
      (ha answer h).mono (List.subset_append_left ..)
    refine ⟨after, hruns, ?_⟩
    simp only [Transport.send, ← hh]
    cases hf : handleFrame wire net.host frame with
    | mk result host =>
      cases result with
      | error e => exact ⟨congrArg Prod.snd hf, hold⟩
      | ok answer =>
        refine ⟨congrArg Prod.snd hf, List.forall_mem_append.mpr ⟨hold, ?_⟩⟩
        have hh : (⟨net.host, frame⟩ : Handling wire ε) ∈ after.handled :=
          List.mem_append_right _ List.mem_cons_self
        intro found h
        rw [List.mem_singleton.mp h]
        exact .answer hh (congrArg Prod.fst hf)
  receive := by
    intro schedule net hs
    obtain ⟨hh, ha⟩ := hs
    refine ⟨net, ?_⟩
    simp only [Transport.receive]
    cases hp : schedule.picks.head?.join.bind (schedule.answers[·]?) with
    | none => exact ⟨.cons (.lose net _) (.nil net), hh, ha⟩
    | some answer =>
      obtain ⟨n, -, hn⟩ := Option.bind_eq_some_iff.mp hp
      exact ⟨.cons (.receive (ha answer (List.mem_of_getElem? hn))) (.nil net), hh, ha⟩

end Schedule

end LiteralBridge
