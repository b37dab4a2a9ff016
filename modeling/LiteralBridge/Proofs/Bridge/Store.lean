import Mathlib
import LiteralBridge.Proofs.Bridge.Operations
import LiteralBridge.Proofs.Host.Echo

/-! # A bridge to an echoing host is a store

Over a fresh host that echoes, an attribute has the value that was last assigned to it, and none
before the first assignment (`performAll_isStore`). What one access does to the bindings of the host
is said by `Remembers.perform`; from it a run follows by induction. -/

namespace LiteralBridge

open Handle (child_eq_ok)
open Literal (bind_eq_ok ok_bind)

/-! ## Accesses -/

/-- An access to an attribute of an object. -/
inductive Access where
  | get (h : Handle) (field : String) (kind : Kind)
  | set (h : Handle) (field : String) (v : Value)

/-- The accessor of the object is a path, and neither is an object expected, nor is there one in the
value that is assigned. -/
def Access.IsPlain : Access → Prop
  | get h _ kind => h.IsPath ∧ kind ≠ .object
  | set h _ v => h.IsPath ∧ v.Everywhere Value.IsNotHandle

/-- An access that was performed, with its outcome. -/
inductive Event where
  | got (h : Handle) (field : String) (kind : Kind) (outcome : Except BridgeError Value)
  | assigned (h : Handle) (field : String) (v : Value) (outcome : Except BridgeError Unit)

/-- The value that an event gives to an attribute. A failed assignment gives none. -/
def Event.written? (target : String) : Event → Option Value
  | assigned h field v (.ok ()) => if h.path field = target then some v else none
  | _ => none

/-- The value that was assigned to an attribute last. -/
def lastWritten? (target : String) (events : List Event) : Option Value :=
  events.reverse.findSome? (Event.written? target)

theorem lastWritten?_append (target : String) (events : List Event) (event : Event) :
    lastWritten? target (events ++ [event]) =
      (event.written? target).or (lastWritten? target events) := by
  rw [lastWritten?, List.reverse_append, List.reverse_singleton, List.singleton_append,
    List.findSome?_cons]
  cases event.written? target <;> rfl

namespace Bridge

variable {σ : Type} [Channel σ]

/-- Performs an access. -/
def perform (bridge : Bridge σ) : Access → Event × Bridge σ
  | .get h field kind =>
    let (outcome, bridge) := bridge.getField h field kind
    (.got h field kind outcome, bridge)
  | .set h field v =>
    let (outcome, bridge) := bridge.setField h field v
    (.assigned h field v outcome, bridge)

def performAll (bridge : Bridge σ) : List Access → List Event × Bridge σ
  | [] => ([], bridge)
  | access :: rest =>
    let (event, bridge) := bridge.perform access
    let (events, bridge) := performAll bridge rest
    (event :: events, bridge)

section Requests

variable (bridge : Bridge σ) (h : Handle) {field : String}

/-- An attribute is read by its path. -/
theorem getField_eq_send {kind : Kind} (hk : kind ≠ .object) (hf : Text.isIdentifier field = true) :
    bridge.getField h field kind =
      decoded (decode bridge.config kind) (bridge.send (h.path field)) := by
  rw [getField_eq_sendPrepared _ _ _ hk, Operation.source, child_eq_ok.mpr ⟨hf, rfl⟩, ok_bind,
    sendPrepared]

/-- Either nothing is sent and nothing changes, or the assignment is sent. -/
theorem setField_cases (v : Value) :
    (∃ e, bridge.setField h field v = (.error (.unencodable e), bridge)) ∨
      Text.isIdentifier field = true ∧ ∃ value, v.encode bridge.config = .ok value ∧
        bridge.setField h field v =
          decoded (fun _ => .ok ()) (bridge.send (h.path field ++ " = " ++ value)) := by
  rw [setField_eq_sendPrepared]
  cases hs : (Operation.write field v).source bridge.config h with
  | error e => exact .inl ⟨e, rfl⟩
  | ok source =>
    obtain ⟨target, hc, hs⟩ := bind_eq_ok.mp hs
    obtain ⟨value, hv, hs⟩ := bind_eq_ok.mp hs
    obtain ⟨hf, rfl⟩ := child_eq_ok.mp hc
    refine .inr ⟨hf, value, hv, ?_⟩
    rw [← Except.ok.inj hs]
    rfl

theorem getField_of_not_isIdentifier {kind : Kind} (hf : Text.isIdentifier field ≠ true) :
    bridge.getField h field kind = (.error (.unencodable (.notIdentifier field)), bridge) := by
  have hc : h.child field = .error (.notIdentifier field) := by
    rw [Handle.child, Handle.child?, if_neg hf]
  rw [getField, hc]

end Requests

end Bridge

/-! ## Texts that the host gives back unchanged -/

/-- The host reads the text of data as a literal, whose canonical text it is. -/
theorem echo_of_encode {config : Config} {v : Value} {text : String}
    (hd : v.Everywhere Value.IsData) (h : v.encode config = .ok text) {limit : Nat}
    (hl : config.maxDepth ≤ limit) :
    Text.trim text.toList = text.toList ∧
      Literal.parse limit text = .ok v.literal.canonical ∧ v.literal.canonical.source = text := by
  obtain ⟨he, hn⟩ := Value.exists_encode_iff.mp ⟨text, h⟩
  have hf := Value.fits_literal he
  have hs := Value.source_of_encode hd h
  have hr : text.toList = v.literal.render := by
    rw [← hs, Literal.source, String.toList_ofList]
  refine ⟨?_, ?_, ?_⟩
  · rw [hr]
    apply Text.trim_eq_self
    · obtain ⟨c, rest, hc, hb⟩ := Literal.head_render hf
      rw [hc]
      exact Literal.stops_cons.mpr (Literal.isBlank_eq_false_of_beginsLiteral hb)
    · exact Literal.getLast?_render v.literal
  · rw [← hs]
    apply Literal.parse_source_of_le hf
    rw [Value.depth_literal he]
    exact hn.trans hl
  · rw [← hs, Literal.source, Literal.render_canonical, Literal.source]

/-! ## One access -/

/-- The bindings of the host are the values that were assigned last, as they were sent, and none of
them is for the text of an assignment. -/
structure Remembers (config : Config) (events : List Event) (bridge : Bridge EchoHost) : Prop where
  settings : bridge.config = config
  found {target : String} {v : Value} (h : lastWritten? target events = some v) :
    ∃ text, v.encode config = .ok text ∧ bridge.channel.binding? target = some text
  missing {target : String} (h : lastWritten? target events = none) :
    bridge.channel.binding? target = none
  names {source text : String} (h : bridge.channel.binding? source = some text) :
    EchoHost.splitAssignment? source = none

namespace Remembers

variable {config : Config} {events : List Event} {bridge : Bridge EchoHost}

theorem fresh (config : Config) : Remembers config [] ⟨config, {}⟩ where
  settings := rfl
  found h := by simp [lastWritten?] at h
  missing _ := rfl
  names h := by simp [EchoHost.binding?] at h

/-- What assigns nothing is not remembered. -/
theorem append (hr : Remembers config events bridge) {event : Event}
    (he : ∀ target, event.written? target = none) {after : Bridge EchoHost}
    (hc : after.config = bridge.config)
    (hb : ∀ source, after.channel.binding? source = bridge.channel.binding? source) :
    Remembers config (events ++ [event]) after := by
  have hl (target : String) : lastWritten? target (events ++ [event]) = lastWritten? target events := by
    rw [lastWritten?_append, he target, Option.none_or]
  exact {
    settings := hc.trans hr.settings
    found := fun h => by
      rw [hl] at h
      simpa only [hb] using hr.found h
    missing := fun h => by
      rw [hl] at h
      rw [hb, hr.missing h]
    names := fun h => hr.names (hb _ ▸ h) }

section Get

variable (hr : Remembers config events bridge) {h : Handle} (hp : h.IsPath) {field : String}
  {kind : Kind} (hk : kind ≠ .object)
include hr hp hk

/-- An attribute that is read has the text that it is bound to. -/
theorem getField_eq (hf : Text.isIdentifier field = true) :
    bridge.getField h field kind =
      (match bridge.channel.binding? (h.path field) with
        | some text => (decode config kind text).mapError .undecodable
        | none => .error (.channel (.remote
            ((EchoHost.undefinedName (h.path field)).withRequest (h.path field)))),
        ⟨config, { bridge.channel with
          requests := bridge.channel.requests ++ [h.path field] }⟩) := by
  rw [bridge.getField_eq_send h hk hf, Bridge.send, EchoHost.execute_path hp hf, hr.settings]
  cases bridge.channel.binding? (h.path field) <;> rfl

theorem get : Remembers config (events ++ [(bridge.perform (.get h field kind)).1])
    (bridge.perform (.get h field kind)).2 := by
  apply hr.append
  · intro target
    rfl
  · by_cases hf : Text.isIdentifier field = true
    · rw [Bridge.perform, hr.getField_eq hp hk hf, hr.settings]
    · rw [Bridge.perform, bridge.getField_of_not_isIdentifier h hf]
  · intro source
    by_cases hf : Text.isIdentifier field = true
    · rw [Bridge.perform, hr.getField_eq hp hk hf]
      rfl
    · rw [Bridge.perform, bridge.getField_of_not_isIdentifier h hf]

end Get

section Set

variable (hd : config.maxDepth ≤ EchoHost.depthLimit) (hr : Remembers config events bridge)
  {h : Handle} (hp : h.IsPath) {v : Value} (hv : v.Everywhere Value.IsNotHandle)
include hd hr hp hv

/-- What is assigned is bound to its text. -/
theorem setField_eq {field value : String} (hf : Text.isIdentifier field = true)
    (he : v.encode config = .ok value) :
    Bridge.decoded (fun _ => .ok ()) (bridge.send (h.path field ++ " = " ++ value)) =
      (.ok (), ⟨config, EchoHost.bind { bridge.channel with
        requests := bridge.channel.requests ++ [h.path field ++ " = " ++ value] }
        (h.path field) value⟩) := by
  have henc := (Value.exists_encode_iff.mp ⟨value, he⟩).1
  obtain ⟨ht, hl, hs⟩ := echo_of_encode (Value.everywhere_isData hv henc) he hd
  have hb : bridge.channel.binding? (h.path field ++ " = " ++ value) = none := by
    cases hb : bridge.channel.binding? (h.path field ++ " = " ++ value) with
    | none => rfl
    | some text =>
      have hnone := hr.names hb
      rw [EchoHost.splitAssignment?_assignment hp hf ht] at hnone
      simp at hnone
  rw [Bridge.send, EchoHost.execute_assignment hp hf _ hb ht hl, hs, hr.settings]
  rfl

theorem setField_cases (field : String) :
    (∃ e, bridge.setField h field v = (.error (.unencodable e), bridge)) ∨
      Text.isIdentifier field = true ∧ ∃ value, v.encode config = .ok value ∧
        bridge.setField h field v =
          (.ok (), ⟨config, EchoHost.bind { bridge.channel with
            requests := bridge.channel.requests ++ [h.path field ++ " = " ++ value] }
            (h.path field) value⟩) := by
  rcases bridge.setField_cases h v with he | ⟨hf, value, he, hs⟩
  · exact .inl he
  · rw [hr.settings] at he
    exact .inr ⟨hf, value, he, hs.trans (hr.setField_eq hd hp hv hf he)⟩

theorem set (field : String) : Remembers config (events ++ [(bridge.perform (.set h field v)).1])
    (bridge.perform (.set h field v)).2 := by
  rcases hr.setField_cases hd hp hv field with ⟨e, hs⟩ | ⟨hf, value, he, hs⟩
  · rw [Bridge.perform, hs]
    exact hr.append (fun target => rfl) rfl fun source => rfl
  · rw [Bridge.perform, hs]
    have hw (target : String) :
        lastWritten? target (events ++ [.assigned h field v (.ok ())]) =
          if h.path field = target then some v else lastWritten? target events := by
      rw [lastWritten?_append, Event.written?]
      split <;> rfl
    have hb (target : String) := EchoHost.binding?_bind { bridge.channel with
      requests := bridge.channel.requests ++ [h.path field ++ " = " ++ value] }
      (h.path field) value target
    constructor
    · rfl
    · intro target w hl
      rw [hw] at hl
      by_cases ht : h.path field = target
      · rw [if_pos ht, Option.some.injEq] at hl
        subst hl ht
        exact ⟨value, he, by rw [hb, if_pos rfl]⟩
      · rw [if_neg ht] at hl
        obtain ⟨text, henc, hbound⟩ := hr.found hl
        exact ⟨text, henc, by rw [hb, if_neg (Ne.symm ht)]; exact hbound⟩
    · intro target hl
      rw [hw] at hl
      by_cases ht : h.path field = target
      · simp [ht] at hl
      · rw [if_neg ht] at hl
        rw [hb, if_neg (Ne.symm ht)]
        exact hr.missing hl
    · intro source text hl
      rw [hb] at hl
      by_cases hs : source = h.path field
      · rw [hs]
        exact EchoHost.splitAssignment?_path hp hf
      · rw [if_neg hs] at hl
        exact hr.names hl

end Set

/-- An access keeps what was assigned, and adds what it assigns. -/
theorem perform (hd : config.maxDepth ≤ EchoHost.depthLimit) (hr : Remembers config events bridge)
    {access : Access} (ha : access.IsPlain) :
    Remembers config (events ++ [(bridge.perform access).1]) (bridge.perform access).2 := by
  cases access with
  | get h field kind => exact hr.get ha.1 ha.2
  | set h field v => exact hr.set hd ha.1 ha.2 field

/-! ## Runs -/

theorem performAll (hd : config.maxDepth ≤ EchoHost.depthLimit)
    (hr : Remembers config events bridge) {accesses : List Access}
    (ha : ∀ access ∈ accesses, access.IsPlain) :
    Remembers config (events ++ (bridge.performAll accesses).1) (bridge.performAll accesses).2 := by
  induction accesses generalizing events bridge with
  | nil =>
    rw [Bridge.performAll, List.append_nil]
    exact hr
  | cons access rest ih =>
    obtain ⟨hfirst, hrest⟩ := List.forall_mem_cons.mp ha
    have hstep := ih (hr.perform hd hfirst) hrest
    rw [List.append_assoc] at hstep
    exact hstep

end Remembers

/-- After any accesses over a fresh host, an assignment succeeds or changes nothing and was never
sent. An attribute that is read is decoded from the text that the value was sent as which was
assigned to it last, and its name is undefined if there is none. -/
theorem performAll_isStore {config : Config} (hd : config.maxDepth ≤ EchoHost.depthLimit)
    {earlier : List Access} (ha : ∀ access ∈ earlier, access.IsPlain) :
    let run := (⟨config, {}⟩ : Bridge EchoHost).performAll earlier
    (∀ h field v, (Access.set h field v).IsPlain →
      (run.2.setField h field v).1 = .ok () ∨
        ∃ e, run.2.setField h field v = (.error (.unencodable e), run.2)) ∧
    ∀ h field kind, (Access.get h field kind).IsPlain → Text.isIdentifier field = true →
      (∀ v, lastWritten? (h.path field) run.1 = some v → ∃ text, v.encode config = .ok text ∧
        (run.2.getField h field kind).1 = (decode config kind text).mapError .undecodable) ∧
      (lastWritten? (h.path field) run.1 = none →
        (run.2.getField h field kind).1 = .error (.channel (.remote
          ((EchoHost.undefinedName (h.path field)).withRequest (h.path field))))) := by
  intro run
  have hr : Remembers config run.1 run.2 := (Remembers.fresh config).performAll hd ha
  constructor
  · intro h field v hplain
    rcases hr.setField_cases hd hplain.1 hplain.2 field with he | ⟨-, value, -, hs⟩
    · exact .inr he
    · exact .inl (by rw [hs])
  · intro h field kind hplain hf
    have hg := congrArg Prod.fst (hr.getField_eq hplain.1 hplain.2 hf)
    constructor
    · intro v hl
      obtain ⟨text, he, hb⟩ := hr.found hl
      rw [hb] at hg
      exact ⟨text, he, hg⟩
    · intro hl
      rw [hr.missing hl] at hg
      exact hg

set_option maxRecDepth 20000 in
/-- An attribute that was assigned to twice, of an object whose accessor is the text of a literal. A
failed assignment and one to another attribute come after these. -/
theorem performAll_isStore_two_writes :
    let h : Handle := ⟨"None"⟩
    let earlier : List Access := [.set h "x" .null, .set h "x" (.string " = "),
      .set h "x" (.function "f"), .set h "y" .null]
    let after := ((⟨{}, {}⟩ : Bridge EchoHost).performAll earlier).2
    (∀ access ∈ earlier, access.IsPlain) ∧ ∃ text, (Value.string " = ").encode {} = .ok text ∧
      (after.getField h "x" .string).1 = (decode {} .string text).mapError .undecodable := by
  have hl : lastWritten? (Handle.path ⟨"None"⟩ "x") ((⟨{}, {}⟩ : Bridge EchoHost).performAll
      [.set ⟨"None"⟩ "x" .null, .set ⟨"None"⟩ "x" (.string " = "),
        .set ⟨"None"⟩ "x" (.function "f"), .set ⟨"None"⟩ "y" .null]).1 =
      some (.string " = ") := by
    cbv
  intro h earlier after
  have hh : h.IsPath := by
    refine ⟨by decide, fun hi => ?_⟩
    exact absurd (hi.subset (by decide : ' ' ∈ " = ".toList)) (by decide)
  have ha : ∀ access ∈ earlier, access.IsPlain := by
    simp [earlier, Access.IsPlain, hh, Value.Everywhere, Value.IsNotHandle]
  have hd : ({} : Config).maxDepth ≤ EchoHost.depthLimit := by decide
  obtain ⟨-, hget⟩ := performAll_isStore hd ha
  have hplain : (Access.get h "x" .string).IsPlain := ⟨hh, by simp⟩
  have hf : Text.isIdentifier "x" = true := by decide
  exact ⟨ha, (hget h "x" .string hplain hf).1 _ hl⟩

end LiteralBridge
