import LiteralBridge.Proofs.Host.Replay
import LiteralBridge.Proofs.Text.Trimming

/-! # Canonical texts in an echoing host

Whatever a fresh host is asked, all that it holds and answers is canonical: every bound text and every
result is the text of the literal that it is read as (`EchoHost.Canonical.step`), and what is bound to
it is the target of an assignment. No request changes another binding than that of its own target
(`EchoHost.execute_bindings`). -/

namespace LiteralBridge

open Text

/-! ## Canonical texts -/

/-- The text of a literal that the host reads from it. -/
def IsCanonical (text : String) : Prop :=
  ∃ literal, Literal.parse EchoHost.depthLimit text = .ok literal ∧ literal.source = text

/-- What was read is written as a text that is read again, within the same limit. -/
theorem isCanonical_source {text : String} {literal : Literal}
    (h : Literal.parse EchoHost.depthLimit text = .ok literal) : IsCanonical literal.source := by
  refine ⟨literal.canonical, ?_, ?_⟩
  · exact Literal.parse_source_of_le (Literal.fits_of_parse h) (Literal.depth_le_of_parse h)
  · rw [Literal.source, Literal.render_canonical, Literal.source]

theorem isCanonical_none : IsCanonical "None" :=
  ⟨.none, rfl, rfl⟩

/-! ## Targets -/

/-- What an assignment may bind: a text that begins like a path, without white space around it, in
which there is no sign for an assignment. -/
structure IsTarget (target : String) : Prop where
  start : target.toList.head?.any isNameStart = true
  leading : ∀ c ∈ target.toList.head?, isBlank c = false
  trailing : ∀ c ∈ target.toList.getLast?, isBlank c = false
  no_sign : ¬ " = ".toList <:+: target.toList

namespace EchoHost

/-- The target of an assignment is what stands before its first sign. -/
theorem splitAssignment?_eq_some {source target value : String}
    (h : splitAssignment? source = some (target, value)) :
    ∃ before after, splitOnce " = ".toList source.toList = some (before, after) ∧
      target = String.ofList (trim before) ∧ target.toList.head?.any isNameStart = true := by
  rw [splitAssignment?] at h
  split at h
  · cases h
  · next before after hs =>
    dsimp only at h
    split at h
    · next hstart =>
      obtain ⟨rfl, -⟩ := Prod.mk.inj (Option.some.inj h)
      exact ⟨before, after, hs, rfl, by rwa [String.toList_ofList]⟩
    · cases h

example : splitAssignment? " scene.x  = y = 1" = some ("scene.x", "y = 1") := by
  decide

theorem isTarget_of_splitAssignment? {source target value : String}
    (h : splitAssignment? source = some (target, value)) : IsTarget target := by
  obtain ⟨before, after, hs, rfl, hstart⟩ := splitAssignment?_eq_some h
  have ht : (String.ofList (trim before)).toList = trim before := String.toList_ofList
  refine ⟨hstart, ?_, ?_, fun hsign => ?_⟩
  · rw [ht]
    exact stops_trim before
  · rw [ht]
    exact getLast?_trim before
  · rw [ht] at hsign
    exact not_infix_of_splitOnce (by decide) hs (hsign.trans (isInfix_trim before))

/-! ## One request -/

/-- All that a host holds are canonical texts under targets of assignments. -/
def Canonical (host : EchoHost) : Prop :=
  ∀ target text, host.binding? target = some text → IsTarget target ∧ IsCanonical text

theorem Canonical.step {host : EchoHost} (hc : host.Canonical) (source : String) :
    (∀ text, (Evaluator.evaluate host source).1 = .ok text → IsCanonical text) ∧
      (Evaluator.evaluate host source).2.Canonical := by
  rcases host.answer_cases source with ⟨text, hb, ha⟩ | ⟨literal, hl, ha⟩ |
    ⟨target, value, literal, hs, hl, ha⟩ | ha | ⟨e, ha⟩
  · simp only [Evaluator.evaluate, ha, Except.ok.injEq, forall_eq']
    exact ⟨(hc source text hb).2, hc⟩
  · simp only [Evaluator.evaluate, ha, Except.ok.injEq, forall_eq']
    exact ⟨isCanonical_source hl, hc⟩
  · simp only [Evaluator.evaluate, ha, Except.ok.injEq, forall_eq']
    refine ⟨isCanonical_none, fun other text hb => ?_⟩
    rw [binding?_bind] at hb
    split at hb
    · next heq =>
      rw [heq, ← Option.some.inj hb]
      exact ⟨isTarget_of_splitAssignment? hs, isCanonical_source hl⟩
    · exact hc other text hb
  · simp only [Evaluator.evaluate, ha, reduceCtorEq, false_implies, implies_true, true_and]
    exact hc
  · simp only [Evaluator.evaluate, ha, reduceCtorEq, false_implies, implies_true, true_and]
    exact hc

/-- A request leaves the bindings as they are, or is an assignment and sets the binding of its target. -/
theorem bindings_evaluate (host : EchoHost) (source : String) :
    (Evaluator.evaluate host source).2.bindings = host.bindings ∨
      ∃ target value text, splitAssignment? source = some (target, value) ∧
        (Evaluator.evaluate host source).1 = .ok "None" ∧
        ∀ other, (Evaluator.evaluate host source).2.binding? other =
          if other = target then some text else host.binding? other := by
  rcases host.answer_cases source with ⟨text, -, ha⟩ | ⟨literal, -, ha⟩ |
    ⟨target, value, literal, hs, -, ha⟩ | ha | ⟨e, ha⟩
  · exact .inl (by simp only [Evaluator.evaluate, ha])
  · exact .inl (by simp only [Evaluator.evaluate, ha])
  · refine .inr ⟨target, value, literal.source, hs, by simp only [Evaluator.evaluate, ha],
      fun other => ?_⟩
    simp only [Evaluator.evaluate, ha]
    exact binding?_bind _ target literal.source other
  · exact .inl (by simp only [Evaluator.evaluate, ha])
  · exact .inl (by simp only [Evaluator.evaluate, ha])

/-- A request that fails changes no binding, and another one that of its target at most. -/
theorem execute_bindings (host : EchoHost) (source : String) :
    ((∃ e, (Channel.execute host source).1 = .error e) →
      (Channel.execute host source).2.bindings = host.bindings) ∧
    ∀ target, (Channel.execute host source).2.binding? target ≠ host.binding? target →
      ∃ before after, splitOnce " = ".toList source.toList = some (before, after) ∧
        target = String.ofList (trim before) := by
  have hx : Channel.execute host source =
    (Reply.ofResult source (Evaluator.evaluate host source).1,
      (Evaluator.evaluate host source).2) := rfl
  rw [hx]
  rcases host.bindings_evaluate source with hb | ⟨target, value, text, hs, hr, hb⟩
  · refine ⟨fun _ => hb, fun target hne => absurd ?_ hne⟩
    simp only [binding?, hb]
  · constructor
    · rintro ⟨e, he⟩
      rw [hr] at he
      cases he
    · intro other hne
      obtain ⟨before, after, hcut, rfl, -⟩ := splitAssignment?_eq_some hs
      rw [hb] at hne
      split at hne
      · next heq => exact ⟨before, after, hcut, heq⟩
      · exact absurd rfl hne

end EchoHost

/-! ## Whole runs -/

theorem Reply.ok_mem_of_mem_zipWith {sources : List String}
    {results : List (Except RemoteFault String)} {text : String}
    (h : .ok text ∈ List.zipWith Reply.ofResult sources results) : .ok text ∈ results := by
  rw [← List.map_uncurry_zip_eq_zipWith] at h
  obtain ⟨⟨source, result⟩, hmem, he⟩ := List.mem_map.mp h
  have hr : result ∈ results := (List.of_mem_zip hmem).2
  cases result with
  | ok found =>
    cases he
    exact hr
  | error fault => cases he

/-- Asked anything, a fresh host notes all of it, holds canonical texts under targets of assignments
only, and answers with canonical texts or faults. The next request changes nothing if it fails, and the
binding of what stands before its first sign for an assignment at most. -/
theorem executeAll_canonical (earlier : List String) (source : String) :
    let host := (executeAll ({} : EchoHost) earlier).2
    let next := (Channel.execute host source).2
    host.requests = earlier ∧
      (∀ target text, host.binding? target = some text → IsTarget target ∧ IsCanonical text) ∧
      (∀ text, .ok text ∈ (executeAll ({} : EchoHost) earlier).1 → IsCanonical text) ∧
      ((∃ e, (Channel.execute host source).1 = .error e) → next.bindings = host.bindings) ∧
      ∀ target, next.binding? target ≠ host.binding? target →
        ∃ before after, splitOnce " = ".toList source.toList = some (before, after) ∧
          target = String.ofList (trim before) := by
  have hfresh : EchoHost.Canonical {} := by
    intro target text hb
    cases hb
  obtain ⟨hresults, hcanonical⟩ := evaluateAll_invariant
    (R := fun result => ∀ text, result = .ok text → IsCanonical text)
    (fun h source => EchoHost.Canonical.step h source) hfresh earlier
  intro host next
  obtain ⟨hfailed, hchanged⟩ := host.execute_bindings source
  refine ⟨?_, ?_, fun text ht => ?_, hfailed, hchanged⟩
  · show (executeAll ({} : EchoHost) earlier).2.requests = earlier
    rw [EchoHost.executeAll_eq, EchoHost.requests_evaluateAll, List.nil_append]
  · show (executeAll ({} : EchoHost) earlier).2.Canonical
    rw [EchoHost.executeAll_eq]
    exact hcanonical
  · rw [EchoHost.executeAll_eq] at ht
    exact hresults _ (Reply.ok_mem_of_mem_zipWith ht) text rfl

end LiteralBridge
