import LiteralBridge.Bridge.Basic
import LiteralBridge.Proofs.Handle
import LiteralBridge.Proofs.Value.Agreement

/-! # Operations on objects

An operation reads an attribute, assigns to one, or calls a method. The operations of a bridge send
the request of such an operation, or nothing if there is none. If its arguments have no objects of
the host in them, the request is the accessor, a point and the operation written with the literals
of its arguments (`written_of_source`). -/

namespace LiteralBridge

open Handle (child_eq_ok toList_path)
open Literal (bind_eq_ok ok_bind)

/-- An operation on an object, with arguments of some sort. -/
inductive Operation (α : Type) where
  /-- An attribute is read. -/
  | read (field : String)
  /-- An attribute is assigned to. -/
  | write (field : String) (argument : α)
  /-- A method is called. -/
  | call (method : String) (positional : List α) (keyword : List (String × α))

namespace Operation

variable {α β γ : Type}

def name : Operation α → String
  | read field => field
  | write field _ => field
  | call method _ _ => method

/-- The arguments of a call, each with its name if it has one. -/
def gathered (positional : List α) (keyword : List (String × α)) : List (Option String × α) :=
  positional.map (fun x => (none, x)) ++ keyword.map fun entry => (some entry.1, entry.2)

/-- The arguments in order, each with its name if it has one. -/
def arguments : Operation α → List (Option String × α)
  | read _ => []
  | write _ x => [(none, x)]
  | call _ positional keyword => gathered positional keyword

/-- The operation with other arguments. -/
def map (f : α → β) : Operation α → Operation β
  | read field => read field
  | write field x => write field (f x)
  | call method positional keyword =>
    call method (positional.map f) (keyword.map fun entry => (entry.1, f entry.2))

theorem map_map (f : α → β) (g : β → γ) (op : Operation α) :
    (op.map f).map g = op.map fun x => g (f x) := by
  cases op <;> simp [map, Function.comp_def]

theorem gathered_map (f : α → β) (positional : List α) (keyword : List (String × α)) :
    gathered (positional.map f) (keyword.map fun entry => (entry.1, f entry.2)) =
      (gathered positional keyword).map fun argument => (argument.1, f argument.2) := by
  simp [gathered, Function.comp_def]

theorem arguments_map (f : α → β) (op : Operation α) :
    (op.map f).arguments = op.arguments.map fun argument => (argument.1, f argument.2) := by
  cases op with
  | read field => rfl
  | write field x => rfl
  | call method positional keyword => exact gathered_map f positional keyword

/-- The request for an operation on an object. -/
def source (config : Config) (h : Handle) : Operation Value → Except EncodeError String
  | read field => do
    let target ← h.child field
    .ok target.accessor
  | write field v => h.assignmentSource config field v
  | call method positional keyword => h.callSource config method positional keyword

end Operation

/-! ## Operations of a bridge -/

namespace Bridge

variable {σ : Type} [Channel σ] (bridge : Bridge σ) (h : Handle)

/-- An attribute is read by its request, unless it is to be an object, for which nothing is sent. -/
theorem getField_eq_sendPrepared (field : String) {kind : Kind} (hk : kind ≠ .object) :
    bridge.getField h field kind = decoded (decode bridge.config kind)
      (bridge.sendPrepared ((Operation.read field).source bridge.config h)) := by
  rw [getField, Operation.source]
  cases h.child field with
  | error e => rfl
  | ok target =>
    rw [ok_bind]
    cases kind with
    | object => exact absurd rfl hk
    | _ => rfl

theorem setField_eq_sendPrepared (field : String) (v : Value) :
    bridge.setField h field v = decoded (fun _ => .ok ())
      (bridge.sendPrepared ((Operation.write field v).source bridge.config h)) :=
  rfl

end Bridge

/-! ## The text of a request -/

namespace Operation

open Text

/-- An argument of a call, after its name if it has one. -/
def renderArgument : Option String × Literal → List Char
  | (none, literal) => literal.render
  | (some name, literal) => name.toList ++ '=' :: literal.render

/-- What is written after the name of the attribute or the method. -/
def suffix : Operation Literal → List Char
  | read _ => []
  | write _ literal => " = ".toList ++ literal.render
  | call _ positional keyword =>
    '(' :: (commaSeparated ((gathered positional keyword).map renderArgument) ++ [')'])

/-- An operation as it is written after the object and a point. -/
def written (op : Operation Literal) : List Char :=
  op.name.toList ++ op.suffix

/-- What can be written as an argument: a name is an identifier, and the integers have 128 bits. -/
def IsArgument (argument : Option String × Literal) : Prop :=
  (∀ name ∈ argument.1, isIdentifier name = true) ∧ argument.2.Fits

/-- What can be written as an operation. -/
structure IsWritable (op : Operation Literal) : Prop where
  name : isIdentifier op.name = true
  arguments : ∀ argument ∈ op.arguments, IsArgument argument

section Source

variable {config : Config} {h : Handle}

theorem positional_of_writeAll {room : Nat} {positional : List Value} {parts : List (List Char)}
    (hw : Value.writeAll config room positional = .ok parts)
    (hn : ∀ v ∈ positional, v.Everywhere Value.IsNotHandle) :
    parts = (positional.map fun v => renderArgument (none, v.literal)) ∧
      ∀ v ∈ positional, v.literal.Fits := by
  have he : ∀ v ∈ positional, v.Everywhere (Value.Encodable config.integerRange) := fun v hv =>
    (Value.exists_write_iff.mp (Value.exists_writeAll_iff.mp ⟨parts, hw⟩ v hv)).1
  refine ⟨Value.eq_map_of_writeAll hw fun v hv _ ht => ?_, fun v hv => Value.fits_literal (he v hv)⟩
  exact Value.eq_render_of_write ht (Value.everywhere_isData (hn v hv) (he v hv))

theorem keyword_of_writeKeywords {keyword : List (String × Value)} {parts : List (List Char)}
    (hw : writeKeywords config keyword = .ok parts)
    (hn : ∀ entry ∈ keyword, entry.2.Everywhere Value.IsNotHandle) :
    parts = (keyword.map fun entry => renderArgument (some entry.1, entry.2.literal)) ∧
      ∀ entry ∈ keyword, isIdentifier entry.1 = true ∧ entry.2.literal.Fits := by
  induction keyword generalizing parts with
  | nil => exact ⟨(Except.ok.inj hw).symm, by simp⟩
  | cons entry rest ih =>
    obtain ⟨name, v⟩ := entry
    obtain ⟨hv, hrest⟩ := List.forall_mem_cons.mp hn
    rw [writeKeywords] at hw
    by_cases hid : isIdentifier name = true
    · rw [if_pos hid] at hw
      obtain ⟨part, hpart, hw⟩ := bind_eq_ok.mp hw
      obtain ⟨others, hothers, hw⟩ := bind_eq_ok.mp hw
      obtain ⟨rfl, hall⟩ := ih hothers hrest
      have he := (Value.exists_write_iff.mp ⟨part, hpart⟩).1
      have ht := Value.eq_render_of_write hpart (Value.everywhere_isData hv he)
      refine ⟨?_, List.forall_mem_cons.mpr ⟨⟨hid, Value.fits_literal he⟩, hall⟩⟩
      rw [← Except.ok.inj hw, ht]
      rfl
    · simp [hid] at hw

/-- The argument list of a call is told by the literals of the arguments. -/
theorem arguments_of_encodeArguments {positional : List Value} {keyword : List (String × Value)}
    {text : String} (he : encodeArguments config positional keyword = .ok text)
    (hn : ∀ argument ∈ gathered positional keyword, argument.2.Everywhere Value.IsNotHandle) :
    text.toList = commaSeparated ((gathered positional keyword).map fun argument =>
        renderArgument (argument.1, argument.2.literal)) ∧
      ∀ argument ∈ gathered positional keyword, IsArgument (argument.1, argument.2.literal) := by
  obtain ⟨parts, hparts, he⟩ := bind_eq_ok.mp he
  obtain ⟨named, hnamed, he⟩ := bind_eq_ok.mp he
  obtain ⟨hpos, hkey⟩ := List.forall_mem_append.mp hn
  obtain ⟨rfl, hfits⟩ := positional_of_writeAll hparts fun v hv =>
    hpos (none, v) (List.mem_map_of_mem hv)
  obtain ⟨rfl, hnames⟩ := keyword_of_writeKeywords hnamed fun entry he =>
    hkey (some entry.1, entry.2) (List.mem_map.mpr ⟨entry, he, rfl⟩)
  constructor
  · rw [← Except.ok.inj he, String.toList_ofList]
    simp [gathered, Function.comp_def]
  · refine List.forall_mem_append.mpr ⟨List.forall_mem_map.mpr fun v hv => ?_,
      List.forall_mem_map.mpr fun entry hm => ?_⟩
    · exact ⟨by simp, hfits v hv⟩
    · exact ⟨by simpa using (hnames entry hm).1, (hnames entry hm).2⟩

/-- The request for an operation is told by the literals of its arguments. -/
theorem written_of_source {op : Operation Value} {text : String}
    (hn : ∀ argument ∈ op.arguments, argument.2.Everywhere Value.IsNotHandle)
    (hs : op.source config h = .ok text) :
    text.toList = h.accessor.toList ++ '.' :: (op.map Value.literal).written ∧
      (op.map Value.literal).IsWritable := by
  cases op with
  | read field =>
    obtain ⟨target, hc, hs⟩ := bind_eq_ok.mp hs
    obtain ⟨hid, rfl⟩ := child_eq_ok.mp hc
    refine ⟨?_, hid, by simp [map, arguments]⟩
    simp [← Except.ok.inj hs, toList_path, map, written, name, suffix]
  | write field v =>
    obtain ⟨target, hc, hs⟩ := bind_eq_ok.mp hs
    obtain ⟨value, he, hs⟩ := bind_eq_ok.mp hs
    obtain ⟨hid, rfl⟩ := child_eq_ok.mp hc
    have hv : v.Everywhere Value.IsNotHandle := hn _ List.mem_cons_self
    have henc := (Value.exists_encode_iff.mp ⟨value, he⟩).1
    have ht := Value.source_of_encode (Value.everywhere_isData hv henc) he
    refine ⟨?_, hid, by simpa [map, arguments, IsArgument] using Value.fits_literal henc⟩
    simp [← Except.ok.inj hs, ← ht, toList_path, map, written, name, suffix, Literal.source]
  | call method positional keyword =>
    obtain ⟨target, hc, hs⟩ := bind_eq_ok.mp hs
    obtain ⟨list, he, hs⟩ := bind_eq_ok.mp hs
    obtain ⟨hid, rfl⟩ := child_eq_ok.mp hc
    obtain ⟨ht, hargs⟩ := arguments_of_encodeArguments he hn
    refine ⟨?_, hid, ?_⟩
    · simp [← Except.ok.inj hs, ht, toList_path, map, written, name, suffix, gathered_map,
        Function.comp_def]
    · rw [arguments_map]
      exact List.forall_mem_map.mpr hargs

end Source

end Operation

end LiteralBridge
