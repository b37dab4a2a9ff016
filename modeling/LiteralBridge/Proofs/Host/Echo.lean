import LiteralBridge.Host.Echo
import LiteralBridge.Proofs.Handle
import LiteralBridge.Proofs.Literal.Paths

/-! # What an echoing host does with attributes

The host takes the path of an attribute for a name, bound or not, and an assignment to it for an
assignment, whatever the accessor of the object looks like (`answer_path`, `answer_assignment`).
After an assignment the path is bound to the text of the literal, and nothing else has changed. -/

namespace LiteralBridge

open Text
open Handle (head_path point_mem_path splitOnce_path trim_path)
open Literal (exists_parse_eq_error)

/-! ## Answers -/

namespace EchoHost

section Answers

variable {h : Handle} {field : String} (hp : h.IsPath) (hf : isIdentifier field = true)
  (host : EchoHost)
include hp hf

/-- The path of an attribute is no assignment. -/
theorem splitAssignment?_path : splitAssignment? (h.path field) = none := by
  have hs := splitOnce_path hp hf []
  rw [List.append_nil] at hs
  rw [splitAssignment?, hs]
  rfl

theorem splitAssignment?_assignment {value : String} (hv : trim value.toList = value.toList) :
    splitAssignment? (h.path field ++ " = " ++ value) = some (h.path field, value) := by
  have hs := splitOnce_path hp hf (" = ".toList ++ value.toList)
  rw [splitOnce_mark (by decide), Option.map_some, List.append_nil] at hs
  have hh := head_path hp field []
  rw [List.append_nil] at hh
  rw [splitAssignment?, String.toList_append, String.toList_append, List.append_assoc, hs]
  simp only [trim_path hp hf, hv, hh, if_true, String.ofList_toList]

/-- The path of an attribute has the text that it is bound to, and is undefined without one. -/
theorem answer_path :
    host.answer (h.path field) =
      (match host.binding? (h.path field) with
        | some text => .ok text
        | none => .error (undefinedName (h.path field)), none) := by
  rw [answer]
  cases host.binding? (h.path field) with
  | some text => rfl
  | none =>
    have hh := head_path hp field []
    rw [List.append_nil] at hh
    obtain ⟨e, he⟩ := exists_parse_eq_error depthLimit hh point_mem_path
    simp only [he, splitAssignment?_path hp hf]

/-- An assignment to an attribute binds the path of the attribute to the text of the literal. -/
theorem answer_assignment {value : String} {literal : Literal}
    (hb : host.binding? (h.path field ++ " = " ++ value) = none)
    (hv : trim value.toList = value.toList) (hl : Literal.parse depthLimit value = .ok literal) :
    host.answer (h.path field ++ " = " ++ value) =
      (.ok "None", some (h.path field, literal.source)) := by
  have hh : (h.path field ++ " = " ++ value).toList.head?.any isNameStart = true := by
    rw [String.toList_append, String.toList_append, List.append_assoc]
    exact head_path hp field _
  have hpoint : '.' ∈ (h.path field ++ " = " ++ value).toList := by
    rw [String.toList_append, String.toList_append]
    exact List.mem_append_left _ (List.mem_append_left _ point_mem_path)
  obtain ⟨e, he⟩ := exists_parse_eq_error depthLimit hh hpoint
  simp only [answer, hb, he, splitAssignment?_assignment hp hf hv, hl]

theorem execute_path :
    Channel.execute host (h.path field) =
      (match host.binding? (h.path field) with
        | some text => .ok text
        | none => .error (.remote
            ((undefinedName (h.path field)).withRequest (h.path field))),
        { host with requests := host.requests ++ [h.path field] }) := by
  simp only [Channel.execute, Evaluator.evaluate, answer_path hp hf]
  cases host.binding? (h.path field) <;> rfl

theorem execute_assignment {value : String} {literal : Literal}
    (hb : host.binding? (h.path field ++ " = " ++ value) = none)
    (hv : trim value.toList = value.toList) (hl : Literal.parse depthLimit value = .ok literal) :
    Channel.execute host (h.path field ++ " = " ++ value) =
      (.ok "None", bind { host with
        requests := host.requests ++ [h.path field ++ " = " ++ value] }
        (h.path field) literal.source) := by
  simp only [Channel.execute, Evaluator.evaluate, answer_assignment hp hf host hb hv hl]
  rfl

end Answers

/-! ## Bindings -/

theorem lookup_filter_ne {entries : List (String × String)} {source other : String}
    (hne : source ≠ other) :
    (entries.filter fun entry => entry.1 != other).lookup source = entries.lookup source := by
  induction entries with
  | nil => rfl
  | cons entry rest ih =>
    obtain ⟨key, text⟩ := entry
    by_cases hk : key = other
    · subst hk
      have hs : (source == key) = false := by simpa using hne
      rw [List.filter_cons_of_neg (by simp), ih, List.lookup_cons, hs]
    · rw [List.filter_cons_of_pos (by simpa using hk), List.lookup_cons, List.lookup_cons, ih]

theorem binding?_bind (host : EchoHost) (source response other : String) :
    (host.bind source response).binding? other =
      if other = source then some response else host.binding? other := by
  by_cases hs : other = source
  · simp [bind, binding?, hs]
  · have hb : (other == source) = false := by simpa using hs
    simp [bind, binding?, List.lookup_cons, hs, hb, lookup_filter_ne hs]

end EchoHost

end LiteralBridge
