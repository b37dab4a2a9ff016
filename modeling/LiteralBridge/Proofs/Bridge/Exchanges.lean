import LiteralBridge.Channel.Faulty
import LiteralBridge.Channel.Scripted
import LiteralBridge.Channel.Stream
import LiteralBridge.Host.Echo
import LiteralBridge.Proofs.Bridge.Operations
import LiteralBridge.Remote.Client

/-! # What an operation sends

An operation of a bridge sends one request, or none because its result is known beforehand or because
it cannot be written as one (`Task.cases`). What it sends is seen by a recording around the channel,
which changes nothing else. The class of an error tells how far the operation got (`run_recorded`). -/

namespace LiteralBridge

open Handle (child_eq_ok)
open Literal (bind_eq_ok ok_bind)
open Text (isIdentifier)

/-- What can be asked of a bridge. -/
inductive Task where
  | evaluate (source : String) (kind : Kind)
  | read (h : Handle) (kind : Kind)
  | getField (h : Handle) (field : String) (kind : Kind)
  | setField (h : Handle) (field : String) (v : Value)
  | call (h : Handle) (method : String) (positional : List Value) (keyword : List (String × Value))
    (returns : Kind)
  | construct (h : Handle) (method : String) (positional : List Value)
    (keyword : List (String × Value))

/-- What a bridge gives back. -/
inductive Yield where
  | value (v : Value)
  | done
  | handle (h : Handle)

namespace Bridge

variable {σ : Type}

/-- An outcome as that of a task. -/
def yielded {α : Type} (f : α → Yield) (outcome : Except BridgeError α × Bridge σ) :
    Except BridgeError Yield × Bridge σ :=
  (outcome.1.map f, outcome.2)

/-- Carries out a task by the operation of its name. -/
def run [Channel σ] (bridge : Bridge σ) : Task → Except BridgeError Yield × Bridge σ
  | .evaluate source kind => yielded .value (bridge.evaluate source kind)
  | .read h kind => yielded .value (bridge.read h kind)
  | .getField h field kind => yielded .value (bridge.getField h field kind)
  | .setField h field v => yielded (fun _ => .done) (bridge.setField h field v)
  | .call h method positional keyword returns =>
    yielded .value (bridge.call h method positional keyword returns)
  | .construct h method positional keyword =>
    yielded .handle (bridge.construct h method positional keyword)

theorem yielded_decoded {α : Type} (f : α → Yield) (read : String → Except DecodeError α)
    (outcome : Except BridgeError String × Bridge σ) :
    yielded f (decoded read outcome) = decoded (fun text => (read text).map f) outcome := by
  obtain ⟨result, bridge⟩ := outcome
  cases result with
  | error e => rfl
  | ok text =>
    simp only [decoded, yielded]
    cases read text <;> rfl

/-- What is not read as an object is read by its path. -/
theorem read_eq_evaluate [Channel σ] (bridge : Bridge σ) (h : Handle) {kind : Kind}
    (hk : kind ≠ .object) : bridge.read h kind = bridge.evaluate h.accessor kind := by
  cases kind with
  | object => exact absurd rfl hk
  | _ => rfl

end Bridge

/-! ## Requests of tasks -/

namespace Task

/-- A task is to read an object whose handle is known from its path. -/
inductive Known : Task → Handle → Prop where
  | read (h : Handle) : Known (.read h .object) h
  | getField {h : Handle} {field : String} (hf : isIdentifier field = true) :
    Known (.getField h field .object) ⟨h.accessor ++ "." ++ field⟩

/-- The text of the request by which a task is carried out. -/
inductive Sends (config : Config) : Task → String → Prop where
  | evaluate (source : String) (kind : Kind) : Sends config (.evaluate source kind) source
  | read (h : Handle) {kind : Kind} (hk : kind ≠ .object) : Sends config (.read h kind) h.accessor
  | getField {h : Handle} {field : String} {kind : Kind} (hf : isIdentifier field = true)
    (hk : kind ≠ .object) : Sends config (.getField h field kind) (h.accessor ++ "." ++ field)
  | setField {h : Handle} {field literal : String} {v : Value} (hf : isIdentifier field = true)
    (hv : v.encode config = .ok literal) :
    Sends config (.setField h field v) (h.accessor ++ "." ++ field ++ " = " ++ literal)
  | call {h : Handle} {method arguments : String} {positional : List Value}
    {keyword : List (String × Value)} {returns : Kind} (hf : isIdentifier method = true)
    (ha : encodeArguments config positional keyword = .ok arguments) :
    Sends config (.call h method positional keyword returns)
      (h.accessor ++ "." ++ method ++ "(" ++ arguments ++ ")")
  | construct {h : Handle} {method arguments : String} {positional : List Value}
    {keyword : List (String × Value)} (hf : isIdentifier method = true)
    (ha : encodeArguments config positional keyword = .ok arguments) :
    Sends config (.construct h method positional keyword)
      (h.accessor ++ "." ++ method ++ "(" ++ arguments ++ ")")

theorem Known.run_eq {task : Task} {target : Handle} (h : task.Known target) {σ : Type} [Channel σ]
    (bridge : Bridge σ) : bridge.run task = (.ok (.value (.handle target)), bridge) := by
  cases h with
  | read h => rfl
  | @getField h field hf =>
    have hc : h.child field = .ok ⟨h.path field⟩ := child_eq_ok.mpr ⟨hf, rfl⟩
    rw [Bridge.run, Bridge.getField, hc]
    rfl

/-- A task is carried out by one request, whose answer is then decoded. -/
def IsSent (config : Config) (task : Task) : Prop :=
  ∃ source, task.Sends config source ∧ ∃ read : String → Except DecodeError Yield,
    ∀ {σ : Type} [Channel σ] (channel : σ), Bridge.run ⟨config, channel⟩ task =
      Bridge.decoded read (Bridge.send ⟨config, channel⟩ source)

/-- A task cannot be written as a request. -/
def IsRefused (config : Config) (task : Task) : Prop :=
  (∀ source, ¬ task.Sends config source) ∧ ∃ e, ∀ {σ : Type} [Channel σ] (channel : σ),
    Bridge.run ⟨config, channel⟩ task = (.error (.unencodable e), ⟨config, channel⟩)

variable {config : Config}

/-- What is evaluated is sent as it is. -/
theorem isSent_of_evaluate {task : Task} {source : String} (kind : Kind)
    (hs : task.Sends config source)
    (hr : ∀ {σ : Type} [Channel σ] (channel : σ), Bridge.run ⟨config, channel⟩ task =
      Bridge.yielded .value (Bridge.evaluate ⟨config, channel⟩ source kind)) :
    task.IsSent config := by
  refine ⟨source, hs, fun text => (decode config kind text).map .value, ?_⟩
  intro σ _ channel
  rw [hr, Bridge.evaluate, Bridge.yielded_decoded]

/-- A task whose request is prepared first is refused if that fails, and sent otherwise. -/
theorem isSent_or_isRefused {task : Task} (prepared : Except EncodeError String) {α : Type}
    (f : α → Yield) (read : String → Except DecodeError α)
    (hs : ∀ source, task.Sends config source ↔ prepared = .ok source)
    (hr : ∀ {σ : Type} [Channel σ] (channel : σ), Bridge.run ⟨config, channel⟩ task =
      Bridge.yielded f (Bridge.decoded read (Bridge.sendPrepared ⟨config, channel⟩ prepared))) :
    task.IsSent config ∨ task.IsRefused config := by
  cases prepared with
  | ok source =>
    refine .inl ⟨source, (hs source).mpr rfl, fun text => (read text).map f, ?_⟩
    intro σ _ channel
    rw [hr, Bridge.yielded_decoded]
    rfl
  | error e =>
    refine .inr ⟨?_, e, hr⟩
    intro source h
    cases (hs source).mp h

theorem assignmentSource_eq_ok {h : Handle} {field source : String} {v : Value} :
    h.assignmentSource config field v = .ok source ↔ isIdentifier field = true ∧ ∃ literal,
      v.encode config = .ok literal ∧ source = h.accessor ++ "." ++ field ++ " = " ++ literal := by
  constructor
  · intro hs
    obtain ⟨target, hc, hs⟩ := bind_eq_ok.mp hs
    obtain ⟨literal, hv, hs⟩ := bind_eq_ok.mp hs
    obtain ⟨hf, rfl⟩ := child_eq_ok.mp hc
    exact ⟨hf, literal, hv, (Except.ok.inj hs).symm⟩
  · rintro ⟨hf, literal, hv, rfl⟩
    rw [Handle.assignmentSource, child_eq_ok.mpr ⟨hf, rfl⟩, ok_bind, hv, ok_bind]
    rfl

theorem callSource_eq_ok {h : Handle} {method source : String} {positional : List Value}
    {keyword : List (String × Value)} :
    h.callSource config method positional keyword = .ok source ↔ isIdentifier method = true ∧
      ∃ arguments, encodeArguments config positional keyword = .ok arguments ∧
        source = h.accessor ++ "." ++ method ++ "(" ++ arguments ++ ")" := by
  constructor
  · intro hs
    obtain ⟨target, hc, hs⟩ := bind_eq_ok.mp hs
    obtain ⟨arguments, ha, hs⟩ := bind_eq_ok.mp hs
    obtain ⟨hf, rfl⟩ := child_eq_ok.mp hc
    exact ⟨hf, arguments, ha, (Except.ok.inj hs).symm⟩
  · rintro ⟨hf, arguments, ha, rfl⟩
    rw [Handle.callSource, child_eq_ok.mpr ⟨hf, rfl⟩, ok_bind, ha, ok_bind]
    rfl

/-- The result of a task is known, or it is sent as one request, or it is refused. -/
theorem cases (config : Config) (task : Task) :
    (∃ target, task.Known target) ∨ task.IsSent config ∨ task.IsRefused config := by
  cases task with
  | evaluate source kind =>
    exact .inr (.inl (isSent_of_evaluate kind (.evaluate source kind) fun _ => rfl))
  | read h kind =>
    by_cases hk : kind = .object
    · subst hk
      exact .inl ⟨h, .read h⟩
    · refine .inr (.inl (isSent_of_evaluate kind (.read h hk) ?_))
      intro σ _ channel
      rw [Bridge.run, Bridge.read_eq_evaluate _ h hk]
  | getField h field kind =>
    cases hc : h.child field with
    | error e =>
      refine .inr (.inr ⟨?_, e, ?_⟩)
      · intro source hs
        cases hs with
        | getField hf _ =>
          rw [child_eq_ok.mpr ⟨hf, rfl⟩] at hc
          cases hc
      · intro σ _ channel
        rw [Bridge.run, Bridge.getField, hc]
        rfl
    | ok target =>
      obtain ⟨hf, rfl⟩ := child_eq_ok.mp hc
      by_cases hk : kind = .object
      · subst hk
        exact .inl ⟨_, .getField hf⟩
      · refine .inr (.inl (isSent_of_evaluate kind (.getField hf hk) ?_))
        intro σ _ channel
        rw [Bridge.run, Bridge.getField, hc]
        exact congrArg _ (Bridge.read_eq_evaluate _ _ hk)
  | setField h field v =>
    right
    apply isSent_or_isRefused (h.assignmentSource config field v) (fun _ => .done) (fun _ => .ok ())
    · intro source
      rw [assignmentSource_eq_ok]
      constructor
      · intro hs
        cases hs with
        | setField hf hv => exact ⟨hf, _, hv, rfl⟩
      · rintro ⟨hf, literal, hv, rfl⟩
        exact .setField hf hv
    · intro σ _ channel
      rfl
  | call h method positional keyword returns =>
    right
    apply isSent_or_isRefused (h.callSource config method positional keyword) .value
      (decode config returns)
    · intro source
      rw [callSource_eq_ok]
      constructor
      · intro hs
        cases hs with
        | call hf ha => exact ⟨hf, _, ha, rfl⟩
      · rintro ⟨hf, arguments, ha, rfl⟩
        exact .call hf ha
    · intro σ _ channel
      rfl
  | construct h method positional keyword =>
    right
    apply isSent_or_isRefused (h.callSource config method positional keyword) .handle decodeHandle
    · intro source
      rw [callSource_eq_ok]
      constructor
      · intro hs
        cases hs with
        | construct hf ha => exact ⟨hf, _, ha, rfl⟩
      · rintro ⟨hf, arguments, ha, rfl⟩
        exact .construct hf ha
    · intro σ _ channel
      rfl

end Task

/-! ## Attribution of faults -/

theorem Reply.request_of_ofResult {source : String} {result : Except RemoteFault String}
    {fault : RemoteFault} (h : Reply.ofResult source result = .error (.remote fault)) :
    fault.request = source := by
  cases result with
  | ok text => cases h
  | error found =>
    rw [Reply.ofResult_error] at h
    cases h
    rw [RemoteFault.request_withRequest]

/-- The channels that are put together from hosts, scripts, lines and clients of any transport by
recordings and planned faults. -/
inductive Layered : (σ : Type) → [Channel σ] → Prop where
  | host : Layered EchoHost
  | script : Layered Script
  | lines : Layered LineStream
  | client (wire : Wire) (τ : Type) [Transport τ] : Layered (Client wire τ)
  | recording {σ : Type} [Channel σ] : Layered σ → Layered (Recording σ)
  | faulty {σ : Type} [Channel σ] : Layered σ → Layered (Faulty σ)

namespace Faults

theorem request_of_meet? {faults after : Faults} {source : String} {fault : RemoteFault}
    (h : faults.meet? source = some (.remote fault, after)) : fault.request = source := by
  rw [meet?] at h
  split at h
  · cases h
  split at h
  · cases h
  split at h
  · cases h
    rfl
  · cases h

/-- Planned faults leave an error as it is. -/
theorem eq_error_of_settle {faults : Faults} {reply : Reply} {e : ChannelError}
    (h : (faults.settle reply).1 = .error e) : reply = .error e := by
  cases reply with
  | error found => exact h
  | ok text =>
    rw [settle] at h
    split at h <;> cases h

end Faults

/-- A fault that comes through any layers is that of the request it answers. -/
theorem Layered.request_eq {σ : Type} [Channel σ] (h : Layered σ) (channel : σ) {source : String}
    {fault : RemoteFault} (hf : (Channel.execute channel source).1 = .error (.remote fault)) :
    fault.request = source := by
  induction h with
  | host => exact Reply.request_of_ofResult hf
  | script =>
    simp only [Channel.execute] at hf
    split at hf
    · cases hf
    · exact Reply.request_of_ofResult hf
  | lines =>
    simp only [Channel.execute] at hf
    split at hf
    · cases hf
    · simp only [LineStream.interpret] at hf
      split at hf
      · cases hf
      split at hf
      · cases hf
      · exact Reply.request_of_ofResult hf
  | client wire τ =>
    simp only [Channel.execute] at hf
    split at hf
    · exact Reply.request_of_ofResult hf
    · cases hf
  | recording _ ih => exact ih channel.inner hf
  | faulty _ ih =>
    simp only [Channel.execute] at hf
    split at hf
    · next e faults hm =>
      rw [Except.error.inj hf] at hm
      exact Faults.request_of_meet? hm
    · exact ih channel.inner (Faults.eq_error_of_settle hf)

/-! ## How far an operation gets -/

section Recorded

variable {σ : Type} [Channel σ]

def Bridge.recorded (bridge : Bridge σ) : Bridge (Recording σ) :=
  ⟨bridge.config, { inner := bridge.channel }⟩

theorem Bridge.decoded_send (bridge : Bridge σ) (read : String → Except DecodeError Yield)
    (source : String) :
    decoded read (bridge.send source) = ((decoded read (bridge.send source)).1,
      ⟨bridge.config, (Channel.execute bridge.channel source).2⟩) := by
  rw [send]
  cases Channel.execute bridge.channel source with
  | mk reply after => cases reply <;> rfl

/-- The recording keeps the request that is sent. -/
theorem Bridge.decoded_send_recorded (bridge : Bridge σ) (read : String → Except DecodeError Yield)
    (source : String) :
    decoded read (bridge.recorded.send source) = ((decoded read (bridge.send source)).1,
      ⟨bridge.config, ⟨(Channel.execute bridge.channel source).2, [source]⟩⟩) := by
  simp only [send, recorded, Channel.execute]
  cases Channel.execute bridge.channel source with
  | mk reply after => cases reply <;> rfl

/-- What the result of a task tells about the requests that were made for it, in view of the channel
after them. -/
structure Truthful (bridge : Bridge σ) (task : Task) (result : Except BridgeError Yield)
    (requests : List String) (after : σ) : Prop where
  length_le : requests.length ≤ 1
  untouched : requests = [] → after = bridge.channel
  sends : ∀ source ∈ requests,
    task.Sends bridge.config source ∧ after = (Channel.execute bridge.channel source).2
  known : ∀ target, task.Known target → result = .ok (.value (.handle target)) ∧ requests = []
  succeeds : ∀ y, result = .ok y → (¬ ∃ target, task.Known target) → requests.length = 1
  unencodable : ∀ e, result = .error (.unencodable e) →
    requests = [] ∧ ∀ source, ¬ task.Sends bridge.config source
  undecodable : ∀ e, result = .error (.undecodable e) → requests.length = 1
  fails : ∀ e, result = .error (.channel e) → requests.length = 1
  of_isBeforeSend : ∀ e, result = .error e → e.isBeforeSend = true → requests = []
  of_isPartial : ∀ e, result = .error e → e.isPartial = true → ∃ source text,
    requests = [source] ∧ (Channel.execute bridge.channel source).1 = .ok text
  attributed : Layered σ → ∀ fault, result = .error (.channel (.remote fault)) →
    requests = [fault.request]

variable {bridge : Bridge σ} {task : Task}

theorem Task.Sends.not_known {config : Config} {source : String} {target : Handle}
    (hs : task.Sends config source) : ¬ task.Known target := by
  intro hk
  cases hk with
  | read h =>
    cases hs with
    | read _ hk => exact hk rfl
  | getField hf =>
    cases hs with
    | getField _ hk => exact hk rfl

/-- A request that is sent fails in the channel, or it is executed and its answer is not decoded. -/
theorem Bridge.error_of_send {read : String → Except DecodeError Yield} {source : String}
    {e : BridgeError} (h : (decoded read (bridge.send source)).1 = .error e) :
    (∃ failure, e = .channel failure ∧
      (Channel.execute bridge.channel source).1 = .error failure) ∨
    ∃ cause text, e = .undecodable cause ∧
      (Channel.execute bridge.channel source).1 = .ok text := by
  rw [send] at h
  cases hr : Channel.execute bridge.channel source with
  | mk reply after =>
    rw [hr] at h
    cases reply with
    | error failure => exact .inl ⟨failure, (Except.error.inj h).symm, rfl⟩
    | ok text =>
      right
      simp only [decoded, Except.mapError] at h
      cases hread : read text with
      | ok y =>
        rw [hread] at h
        cases h
      | error cause =>
        rw [hread] at h
        exact ⟨cause, text, (Except.error.inj h).symm, rfl⟩

namespace Truthful

theorem of_known {target : Handle} (hk : task.Known target) :
    Truthful bridge task (.ok (.value (.handle target))) [] bridge.channel where
  length_le := Nat.zero_le 1
  untouched _ := rfl
  sends := by simp
  known other ho := by
    have he := (hk.run_eq bridge).symm.trans (ho.run_eq bridge)
    exact ⟨(Prod.mk.inj he).1, rfl⟩
  succeeds y _ hn := absurd ⟨target, hk⟩ hn
  unencodable := by simp
  undecodable := by simp
  fails := by simp
  of_isBeforeSend _ _ _ := rfl
  of_isPartial := by simp
  attributed := by simp

theorem of_refused (hn : ¬ ∃ target, task.Known target)
    (hs : ∀ source, ¬ task.Sends bridge.config source) (e : EncodeError) :
    Truthful bridge task (.error (.unencodable e)) [] bridge.channel where
  length_le := Nat.zero_le 1
  untouched _ := rfl
  sends := by simp
  known target hk := absurd ⟨target, hk⟩ hn
  succeeds := by simp
  unencodable _ _ := ⟨rfl, hs⟩
  undecodable := by simp
  fails := by simp
  of_isBeforeSend _ _ _ := rfl
  of_isPartial e he hp := by
    rw [← Except.error.inj he] at hp
    cases hp
  attributed := by simp

theorem of_sent {source : String} (hs : task.Sends bridge.config source)
    (read : String → Except DecodeError Yield) :
    Truthful bridge task (Bridge.decoded read (bridge.send source)).1 [source]
      (Channel.execute bridge.channel source).2 where
  length_le := Nat.le_refl 1
  untouched h := by cases h
  sends other ho := by
    rw [List.mem_singleton.mp ho]
    exact ⟨hs, rfl⟩
  known target hk := absurd hk hs.not_known
  succeeds _ _ _ := rfl
  unencodable e he := by
    rcases Bridge.error_of_send he with ⟨_, hc, _⟩ | ⟨_, _, hd, _⟩
    · cases hc
    · cases hd
  undecodable _ _ := rfl
  fails _ _ := rfl
  of_isBeforeSend e he hb := by
    rcases Bridge.error_of_send he with ⟨_, rfl, _⟩ | ⟨_, _, rfl, _⟩
    · cases hb
    · cases hb
  of_isPartial e he hp := by
    rcases Bridge.error_of_send he with ⟨_, rfl, _⟩ | ⟨_, text, -, ht⟩
    · cases hp
    · exact ⟨source, text, rfl, ht⟩
  attributed hl fault hf := by
    rcases Bridge.error_of_send hf with ⟨failure, hc, hr⟩ | ⟨_, _, hd, _⟩
    · cases hc
      rw [hl.request_eq bridge.channel hr]
    · cases hd

end Truthful

/-- The bridge with a recording around its channel does what the bridge does without it. By what is
recorded, a task makes one request at most, and its result tells truly whether there was one. -/
theorem run_recorded (bridge : Bridge σ) (task : Task) :
    ∃ result requests after,
      bridge.recorded.run task = (result, ⟨bridge.config, ⟨after, requests⟩⟩) ∧
      bridge.run task = (result, ⟨bridge.config, after⟩) ∧
      Truthful bridge task result requests after := by
  by_cases hn : ∃ target, task.Known target
  · obtain ⟨target, hk⟩ := hn
    exact ⟨_, _, _, hk.run_eq bridge.recorded, hk.run_eq bridge, .of_known hk⟩
  · rcases task.cases bridge.config with hk | ⟨source, hs, read, hr⟩ | ⟨hs, e, he⟩
    · exact absurd hk hn
    · exact ⟨_, _, _, (hr _).trans (bridge.decoded_send_recorded read source),
        (hr _).trans (bridge.decoded_send read source), .of_sent hs read⟩
    · exact ⟨_, _, _, he _, he _, .of_refused hn hs e⟩

end Recorded

end LiteralBridge
