import LiteralBridge.Proofs.Bridge.Path
import LiteralBridge.Proofs.Bridge.Store
import LiteralBridge.Proofs.Literal.Quotes

/-! # Assignments by a path

The host cuts an assignment at the first sign that looks like one, and does not care whether it is in a
string. So an assignment to an attribute is executed exactly if no key on the path to the object has the
sign in it; otherwise the host is left with a value that is broken off a string, and refuses it
(`setField_follow`). -/

namespace LiteralBridge

open Literal (Plain Turned escapeChar isTurned_scan_inside plain_of_forall plain_of_isNumeral
  renderString scan scan_append scan_of_parse scan_of_scan_trim turned_append turned_cons
  turned_of_plain turned_render turned_renderString)
open Text

/-! ## The sign of an assignment -/

namespace Text

theorem splitOnce_sign_append {cs : List Char} (h : ' ' ∉ cs) (rest : List Char) :
    splitOnce " = ".toList (cs ++ rest) =
      (splitOnce " = ".toList rest).map fun cut => (cs ++ cut.1, cut.2) :=
  @splitOnce_append_of_not_mem ' ' ['=', ' '] cs h rest

theorem not_infix_of_splitOnce_eq_none {mark cs : List Char} (h : splitOnce mark cs = none) :
    ¬ mark <:+: cs := by
  induction cs with
  | nil =>
    intro hi
    rw [List.infix_nil.mp hi] at h
    cases h
  | cons c rest ih =>
    rw [splitOnce] at h
    split at h
    · cases h
    · next hnone =>
      intro hi
      rcases List.infix_cons_iff.mp hi with ⟨after, ha⟩ | hi
      · rw [after?_eq_some_iff.mpr ha.symm] at hnone
        cases hnone
      · exact ih (Option.map_eq_none_iff.mp h) hi

end Text

/-! ### Signs in strings -/

namespace Literal

/-- Only a space is written with one. -/
theorem not_mem_escapeChar {c : Char} (h : c ≠ ' ') : ' ' ∉ escapeChar c := by
  have hex (width n : Nat) : ' ' ∉ hexDigits width n := by
    intro hm
    have hs := isSome_of_readDigits (readHex_hexDigits width n) ' ' hm
    exact absurd hs (by decide)
  unfold escapeChar
  split
  · decide
  split
  · decide
  split
  · decide
  split
  · decide
  split
  · decide
  split
  · decide
  split
  · simp [hex]
  split
  · simp [hex]
  · simpa using h.symm

/-- A mark that is not escaped begins the text of a string only if it begins the string. -/
theorem prefix_of_prefix_flatMap_escapeChar {mark cs : List Char}
    (hm : ∀ m ∈ mark, escapeChar m = [m]) (h : mark <+: cs.flatMap escapeChar) : mark <+: cs := by
  induction mark generalizing cs with
  | nil => exact List.nil_prefix
  | cons m mark ih =>
    obtain ⟨hfirst, hrest⟩ := List.forall_mem_cons.mp hm
    cases cs with
    | nil => simp at h
    | cons c cs =>
      rw [List.flatMap_cons] at h
      rcases escapeChar_cases c with ⟨escape, he, -⟩ | ⟨he, -⟩
      · rw [he] at h
        obtain ⟨rfl, -⟩ := List.cons_prefix_cons.mp h
        cases hfirst
      · rw [he] at h
        obtain ⟨rfl, hmore⟩ := List.cons_prefix_cons.mp h
        exact List.cons_prefix_cons.mpr ⟨rfl, ih hrest hmore⟩

/-- The text of a string is cut where the string is. -/
theorem splitOnce_flatMap_escapeChar (cs rest : List Char) :
    splitOnce " = ".toList (cs.flatMap escapeChar ++ '"' :: rest) =
      match splitOnce " = ".toList cs with
      | some cut => some (cut.1.flatMap escapeChar, cut.2.flatMap escapeChar ++ '"' :: rest)
      | Option.none =>
        (splitOnce " = ".toList rest).map fun cut => (cs.flatMap escapeChar ++ '"' :: cut.1, cut.2) := by
  induction cs with
  | nil => exact splitOnce_append_cons (by decide) (by decide) (by decide) rest
  | cons c cs ih =>
    by_cases hp : " = ".toList <+: c :: cs
    · obtain ⟨after, ha⟩ := hp
      have hsign : " = ".toList.flatMap escapeChar = " = ".toList := by decide
      rw [← ha, List.flatMap_append, hsign, List.append_assoc, splitOnce_mark (by decide),
        splitOnce_mark (by decide)]
      rfl
    rw [splitOnce_cons hp, List.flatMap_cons, List.append_assoc]
    by_cases hc : c = ' '
    · subst hc
      have hspace : escapeChar ' ' = [' '] := by decide
      have hequals : escapeChar '=' = ['='] := by decide
      have hp' : ¬ " = ".toList <+: ' ' :: (cs.flatMap escapeChar ++ '"' :: rest) := by
        rw [← List.cons_append]
        intro hp'
        refine hp (prefix_of_prefix_flatMap_escapeChar (by simp [hspace, hequals]) ?_)
        rw [List.flatMap_cons, hspace]
        exact prefix_of_prefix_append (by decide) hp'
      rw [hspace, List.singleton_append, splitOnce_cons hp', ih]
      cases splitOnce " = ".toList cs with
      | some cut => simp [hspace]
      | none => simp [Function.comp_def]
    · rw [splitOnce_sign_append (not_mem_escapeChar hc), ih]
      cases splitOnce " = ".toList cs with
      | some cut => simp
      | none => simp [Function.comp_def]

end Literal

/-! ## Paths -/

theorem space_not_mem_of_isIdentifier {name : String} (h : isIdentifier name = true) :
    ' ' ∉ name.toList := by
  intro hm
  exact absurd (Handle.not_blank_of_mem_field h ' ' hm) (by decide)

namespace Step

/-- A key with a sign of an assignment in it. -/
def CarriesSign : Step → Prop
  | entry key => " = ".toList <:+: key.toList
  | _ => False

theorem turned_suffix {step : Step} (hv : step.IsValid) : Turned step.suffix := by
  cases step with
  | field name =>
    have hname := List.all_eq_true.mp (all_isNameRest_of_isName (isIdentifier_iff.mpr hv))
    exact turned_cons (by decide) (turned_of_plain (plain_of_forall (by decide) hname))
  | item position =>
    have hposition := plain_of_isNumeral (Literal.isNumeral_of_mem_decimalInt position)
    exact turned_cons (by decide) (turned_append (turned_of_plain hposition) (turned_of_plain (by decide)))
  | entry key =>
    exact turned_cons (by decide) (turned_append (turned_renderString key) (turned_of_plain (by decide)))

theorem turned_flatMap_suffix {steps : List Step} (hv : ∀ step ∈ steps, step.IsValid) :
    Turned (steps.flatMap suffix) := by
  induction steps with
  | nil => exact .inl rfl
  | cons step rest ih =>
    obtain ⟨hfirst, hrest⟩ := List.forall_mem_cons.mp hv
    rw [List.flatMap_cons]
    exact turned_append (turned_suffix hfirst) (ih hrest)

/-- A key is cut where its text is, and otherwise what follows it. -/
theorem splitOnce_suffix_entry (key : String) (rest : List Char) :
    splitOnce " = ".toList ((entry key).suffix ++ rest) =
      match splitOnce " = ".toList key.toList with
      | some cut => some ('[' :: '"' :: cut.1.flatMap escapeChar,
          cut.2.flatMap escapeChar ++ '"' :: ']' :: rest)
      | none => (splitOnce " = ".toList rest).map fun cut => ((entry key).suffix ++ cut.1, cut.2) := by
  have hsuffix (rest : List Char) : (entry key).suffix ++ rest =
      ['[', '"'] ++ (key.toList.flatMap escapeChar ++ '"' :: ([']'] ++ rest)) := by
    simp [suffix, renderString]
  rw [hsuffix, splitOnce_sign_append (by decide), Literal.splitOnce_flatMap_escapeChar,
    splitOnce_sign_append (by decide)]
  cases splitOnce " = ".toList key.toList with
  | some cut => rfl
  | none => simp [hsuffix, Function.comp_def]

theorem splitOnce_suffix {step : Step} (hv : step.IsValid) (hs : ¬ step.CarriesSign)
    (rest : List Char) :
    splitOnce " = ".toList (step.suffix ++ rest) =
      (splitOnce " = ".toList rest).map fun cut => (step.suffix ++ cut.1, cut.2) := by
  cases step with
  | field name =>
    have hname := space_not_mem_of_isIdentifier (isIdentifier_iff.mpr hv)
    exact splitOnce_sign_append (by simpa [suffix] using hname) rest
  | item position =>
    have hposition : ' ' ∉ decimalInt position := fun hm =>
      absurd (Literal.isNumeral_of_mem_decimalInt position ' ' hm) (by decide)
    exact splitOnce_sign_append (by simpa [suffix] using hposition) rest
  | entry key =>
    rw [splitOnce_suffix_entry]
    cases hcut : splitOnce " = ".toList key.toList with
    | none => rfl
    | some cut => exact absurd ⟨cut.1, cut.2, append_of_splitOnce hcut⟩ hs

theorem splitOnce_flatMap_suffix {steps : List Step} (hv : ∀ step ∈ steps, step.IsValid)
    (hs : ∀ step ∈ steps, ¬ step.CarriesSign) (rest : List Char) :
    splitOnce " = ".toList (steps.flatMap suffix ++ rest) =
      (splitOnce " = ".toList rest).map fun cut => (steps.flatMap suffix ++ cut.1, cut.2) := by
  induction steps with
  | nil => exact Option.map_id'.symm
  | cons step more ih =>
    obtain ⟨hv, hvmore⟩ := List.forall_mem_cons.mp hv
    obtain ⟨hs, hsmore⟩ := List.forall_mem_cons.mp hs
    rw [List.flatMap_cons, List.append_assoc, splitOnce_suffix hv hs, ih hvmore hsmore, Option.map_map]
    simp [Function.comp_def]

/-- The first key with a sign in it is cut there, and its string is not closed before what follows. -/
theorem exists_splitOnce_flatMap_suffix {steps : List Step} (hv : ∀ step ∈ steps, step.IsValid)
    (hs : ∃ step ∈ steps, step.CarriesSign) (rest : List Char) :
    ∃ (before after : List Char) (more : List Step),
      splitOnce " = ".toList (steps.flatMap suffix ++ rest) =
        some (before, after.flatMap escapeChar ++ '"' :: ']' :: (more.flatMap suffix ++ rest)) ∧
      ∀ step ∈ more, step.IsValid := by
  induction steps with
  | nil => simp at hs
  | cons step more ih =>
    obtain ⟨hv, hvmore⟩ := List.forall_mem_cons.mp hv
    rw [List.flatMap_cons, List.append_assoc]
    by_cases hstep : step.CarriesSign
    · cases step with
      | entry key =>
        rw [splitOnce_suffix_entry]
        cases hcut : splitOnce " = ".toList key.toList with
        | none => exact absurd hstep (not_infix_of_splitOnce_eq_none hcut)
        | some cut => exact ⟨_, cut.2, more, rfl, hvmore⟩
      | _ => exact hstep.elim
    · have hsmore : ∃ step ∈ more, step.CarriesSign := by
        obtain ⟨found, hm, hfound⟩ := hs
        rcases List.mem_cons.mp hm with rfl | hm
        · exact absurd hfound hstep
        · exact ⟨found, hm, hfound⟩
      obtain ⟨before, after, others, hcut, hothers⟩ := ih hvmore hsmore
      rw [splitOnce_suffix hv hstep, hcut]
      exact ⟨_, after, others, rfl, hothers⟩

end Step

/-! ## Requests -/

section Request

variable {root : String} (hroot : isIdentifier root = true) {steps : List Step} {h : Handle}
  (hfollow : Handle.follow ⟨root⟩ steps = .ok h) {field : String} (hfield : isIdentifier field = true)

section Root

include hroot

theorem exists_cons_of_isIdentifier :
    ∃ c rest, root.toList = c :: rest ∧ isNameStart c = true := by
  cases hr : root.toList with
  | nil => simp [isIdentifier, hr, isName] at hroot
  | cons c rest =>
    simp only [isIdentifier, hr, isName, Bool.and_eq_true] at hroot
    exact ⟨c, rest, rfl, hroot.1⟩

include hfollow

theorem Handle.isPath_of_follow (hs : ∀ step ∈ steps, ¬ step.CarriesSign) : h.IsPath := by
  obtain ⟨hv, ha⟩ := Handle.follow_eq_ok.mp hfollow
  obtain ⟨c, rest, hr, hc⟩ := exists_cons_of_isIdentifier hroot
  constructor
  · simp [ha, hr, hc]
  · have hnone := Step.splitOnce_flatMap_suffix hv hs []
    rw [List.append_nil] at hnone
    apply not_infix_of_splitOnce_eq_none
    rw [ha, splitOnce_sign_append (space_not_mem_of_isIdentifier hroot), hnone]
    rfl

end Root

/-- What follows the sign in a key is no literal, because the string around it is not opened. -/
theorem exists_parse_trim_eq_error (limit : Nat) (after : List Char) {rest : List Char}
    (hr : Turned rest) :
    ∃ e, Literal.parse limit (String.ofList (trim (after.flatMap escapeChar ++ '"' :: rest))) =
      .error e := by
  cases hp : Literal.parse limit (String.ofList (trim (after.flatMap escapeChar ++ '"' :: rest))) with
  | error e => exact ⟨e, rfl⟩
  | ok literal =>
    have hclosed := scan_of_parse hp
    rw [String.toList_ofList] at hclosed
    have hturned : (scan .outside ((after.flatMap escapeChar ++ ['"']) ++ rest)).IsTurned := by
      rw [scan_append]
      exact hr.scan (isTurned_scan_inside after)
    rw [List.append_assoc, List.singleton_append, scan_of_scan_trim hclosed] at hturned
    rcases hturned with h | h <;> cases h

include hroot hfollow hfield

/-- The host cuts the assignment in the key, and finds no value behind the cut. -/
theorem EchoHost.answer_of_carriesSign (hs : ∃ step ∈ steps, step.CarriesSign) {value : String}
    (hvalue : Turned value.toList) :
    ∃ e : Literal.ParseError, EchoHost.answer {} (h.path field ++ " = " ++ value) =
      (.error ⟨"SyntaxError", e.message, ""⟩, none) := by
  obtain ⟨hv, ha⟩ := Handle.follow_eq_ok.mp hfollow
  obtain ⟨c, more, hr, hc⟩ := exists_cons_of_isIdentifier hroot
  let rest := '.' :: (field.toList ++ (" = ".toList ++ value.toList))
  have htext : (h.path field ++ " = " ++ value).toList =
      root.toList ++ (steps.flatMap Step.suffix ++ rest) := by
    simp [rest, Handle.toList_path, ha]
  have hrest : Turned rest := by
    have hname := List.all_eq_true.mp (all_isNameRest_of_isName hfield)
    have hplain : Plain field.toList := plain_of_forall (by decide) hname
    refine turned_cons (by decide) (turned_append (turned_of_plain hplain) ?_)
    exact turned_append (turned_of_plain (by decide)) hvalue
  obtain ⟨before, after, others, hcut, hothers⟩ := Step.exists_splitOnce_flatMap_suffix hv hs rest
  obtain ⟨e, he⟩ := exists_parse_trim_eq_error depthLimit after
    (turned_cons (by decide : Literal.isMark ']' = false)
      (turned_append (Step.turned_flatMap_suffix hothers) hrest))
  have hhead : (trim (root.toList ++ before)).head?.any isNameStart = true := by
    rw [hr, List.cons_append, head?_trim_cons (Handle.isBlank_eq_false_of_isNameStart hc)]
    exact hc
  have hsplit : splitAssignment? (h.path field ++ " = " ++ value) =
      some (String.ofList (trim (root.toList ++ before)), String.ofList (trim
        (after.flatMap escapeChar ++ '"' :: ']' :: (others.flatMap Step.suffix ++ rest)))) := by
    rw [splitAssignment?, htext, splitOnce_sign_append (space_not_mem_of_isIdentifier hroot), hcut]
    simp only [Option.map_some, hhead, if_true]
  have hfirst : (h.path field ++ " = " ++ value).toList.head?.any isNameStart = true := by
    simp [htext, hr, hc]
  have hpoint : '.' ∈ (h.path field ++ " = " ++ value).toList := by
    simp [htext, rest]
  obtain ⟨whole, hwhole⟩ := Literal.exists_parse_eq_error depthLimit hfirst hpoint
  refine ⟨e, ?_⟩
  simp only [answer, binding?, List.lookup_nil, hwhole, hsplit, he]

end Request

theorem Bridge.setField_eq_send {σ : Type} [Channel σ] (bridge : Bridge σ) (h : Handle)
    {field text : String} (hf : isIdentifier field = true) {v : Value}
    (he : v.encode bridge.config = .ok text) :
    bridge.setField h field v =
      decoded (fun _ => .ok ()) (bridge.send (h.path field ++ " = " ++ text)) := by
  rw [setField, Handle.assignmentSource, Handle.child_eq_ok.mpr ⟨hf, rfl⟩, Literal.ok_bind, he,
    Literal.ok_bind]
  rfl

/-- An assignment to an attribute, over a fresh host. If no key on the path to the object has a sign of an
assignment in it, the attribute is bound to the value, and nothing else is. If one has, the assignment is
refused as no literal, and nothing is bound. -/
theorem setField_follow {config : Config} (hd : config.maxDepth ≤ EchoHost.depthLimit) {root : String}
    (hroot : isIdentifier root = true) {steps : List Step} {h : Handle}
    (hfollow : Handle.follow ⟨root⟩ steps = .ok h) {field : String}
    (hfield : isIdentifier field = true) {v : Value} (hv : v.Everywhere Value.IsNotHandle)
    {text : String} (he : v.encode config = .ok text) :
    let request := h.path field ++ " = " ++ text
    ((∀ step ∈ steps, ¬ step.CarriesSign) →
      (⟨config, {}⟩ : Bridge EchoHost).setField h field v =
        (.ok (), ⟨config, { bindings := [(h.path field, text)], requests := [request] }⟩)) ∧
    ((∃ step ∈ steps, step.CarriesSign) → ∃ e : Literal.ParseError,
      (⟨config, {}⟩ : Bridge EchoHost).setField h field v =
        (.error (.channel (.remote ⟨"SyntaxError", e.message, request⟩)),
          ⟨config, { requests := [request] }⟩)) := by
  intro request
  have hsend := Bridge.setField_eq_send ⟨config, ({} : EchoHost)⟩ h hfield he
  refine ⟨fun hs => ?_, fun hs => ?_⟩
  · have hpath := Handle.isPath_of_follow hroot hfollow hs
    rw [hsend, (Remembers.fresh config).setField_eq hd hpath hv hfield he]
    rfl
  · have hvalue : Turned text.toList := by
      have henc := (Value.exists_encode_iff.mp ⟨text, he⟩).1
      rw [← Value.source_of_encode (Value.everywhere_isData hv henc) he, Literal.source,
        String.toList_ofList]
      exact turned_render v.literal
    obtain ⟨e, ha⟩ := EchoHost.answer_of_carriesSign hroot hfollow hfield hs hvalue
    refine ⟨e, ?_⟩
    rw [hsend, Bridge.send]
    simp only [Channel.execute, Evaluator.evaluate, ha]
    rfl

/-- A path with a key that has a sign without the blanks around it, where the value has the whole sign in
it, and a path whose second key has the whole sign. -/
theorem setField_follow_two_paths :
    let h : Handle := ⟨"a[\"b=c\"][-1].d"⟩
    let other : Handle := ⟨"a[\"b=c\"][\"x = [\"]"⟩
    let request := "a[\"b=c\"][-1].d.e = \" = \""
    let refused := "a[\"b=c\"][\"x = [\"].e = \" = \""
    Handle.follow ⟨"a"⟩ [.entry "b=c", .item (-1), .field "d"] = .ok h ∧
      (⟨{}, {}⟩ : Bridge EchoHost).setField h "e" (.string " = ") =
        (.ok (), ⟨{}, { bindings := [(h.path "e", "\" = \"")], requests := [request] }⟩) ∧
      Handle.follow ⟨"a"⟩ [.entry "b=c", .entry "x = ["] = .ok other ∧
      ∃ e : Literal.ParseError, (⟨{}, {}⟩ : Bridge EchoHost).setField other "e" (.string " = ") =
        (.error (.channel (.remote ⟨"SyntaxError", e.message, refused⟩)),
          ⟨{}, { requests := [refused] }⟩) := by
  intro h other request refused
  have hroot : isIdentifier "a" = true := by decide
  have hfield : isIdentifier "e" = true := by decide
  have hd : ({} : Config).maxDepth ≤ EchoHost.depthLimit := by decide
  have he : (Value.string " = ").encode {} = .ok "\" = \"" := by rfl
  have hfollow : Handle.follow ⟨"a"⟩ [.entry "b=c", .item (-1), .field "d"] = .ok h := by rfl
  have hother : Handle.follow ⟨"a"⟩ [.entry "b=c", .entry "x = ["] = .ok other := by rfl
  have hrequest : h.path "e" ++ " = " ++ "\" = \"" = request := by rfl
  have hrefused : other.path "e" ++ " = " ++ "\" = \"" = refused := by rfl
  have hv : (Value.string " = ").Everywhere Value.IsNotHandle := trivial
  have hfree : ∀ step ∈ [Step.entry "b=c", .item (-1), .field "d"], ¬ step.CarriesSign := by
    have hkey : ¬ " = ".toList <:+: "b=c".toList := by decide
    simpa [Step.CarriesSign] using hkey
  have hsign : (Step.entry "x = [").CarriesSign := ⟨['x'], ['['], by decide⟩
  refine ⟨hfollow, ?_, hother, ?_⟩
  · rw [← hrequest]
    exact (setField_follow hd hroot hfollow hfield hv he).1 hfree
  · rw [← hrefused]
    exact (setField_follow hd hroot hother hfield hv he).2 ⟨_, by simp, hsign⟩

set_option maxRecDepth 20000 in
/-- A key that is nothing but the sign of an assignment. What stands behind it is begun in the middle of
its string. -/
theorem setField_sign_as_key :
    let h : Handle := ⟨"a[\" = \"]"⟩
    let run := (⟨{}, {}⟩ : Bridge EchoHost).setField h "x" (.integer 1)
    Handle.follow ⟨"a"⟩ [.entry " = "] = .ok h ∧ (Value.integer 1).encode {} = .ok "1" ∧
      run.1 ≠ .ok () ∧ run.2.channel.bindings = [] := by
  let source := "a[\" = \"].x = 1"
  have hwhole : Literal.parse EchoHost.depthLimit source = .error ⟨0, .unknownName "a"⟩ := by cbv
  have hsplit : EchoHost.splitAssignment? source = some ("a[\"", "\"].x = 1") := by cbv
  have hvalue : Literal.parse EchoHost.depthLimit "\"].x = 1" = .error ⟨0, .unclosedString⟩ := by cbv
  have hrun : (⟨{}, {}⟩ : Bridge EchoHost).setField ⟨"a[\" = \"]"⟩ "x" (.integer 1) =
      (.error (.channel (.remote ⟨"SyntaxError",
        (Literal.ParseError.mk 0 .unclosedString).message, source⟩)), ⟨{}, { requests := [source] }⟩) := by
    have hsend := Bridge.setField_eq_send ⟨{}, ({} : EchoHost)⟩ ⟨"a[\" = \"]"⟩
      (by decide : isIdentifier "x" = true) (by rfl : (Value.integer 1).encode {} = .ok "1")
    have hsource : Handle.path ⟨"a[\" = \"]"⟩ "x" ++ " = " ++ "1" = source := by decide
    rw [hsend, hsource, Bridge.send]
    simp only [Channel.execute, Evaluator.evaluate, EchoHost.answer, EchoHost.binding?,
      List.lookup_nil, hwhole, hsplit, hvalue]
    rfl
  intro h run
  refine ⟨by rfl, by rfl, ?_, ?_⟩
  · intro hok
    rw [show run = _ from hrun] at hok
    cases hok
  · rw [show run = _ from hrun]

end LiteralBridge
