import Mathlib
import LiteralBridge.Proofs.Channel.Faulty
import LiteralBridge.Proofs.Channel.Stream

/-! # The order of planned faults

Of the faults that fail requests, all drops are applied before any fault is raised, whatever order a plan
has them in. So they are applied in the order of the plan exactly if no drop comes there after a fault that
is raised (`executeAll_order`). -/

namespace LiteralBridge

open Faults (Fate)

/-! ## Plans as sequences of single faults -/

namespace PlannedFault

/-- A fault that fails requests before they are delivered. -/
def Fails : PlannedFault → Prop
  | drop _ | raise _ _ => True
  | _ => False

/-- What a fault makes of the next requests, one after the other. -/
def fates : PlannedFault → List Fate
  | drop count => List.replicate count .dropped
  | raise kind message => [.raised ⟨kind, message, ""⟩]
  | _ => []

theorem Fails.limit?_eq {fault : PlannedFault} (h : fault.Fails) : fault.limit? = none := by
  cases fault with
  | close _ => exact h.elim
  | _ => rfl

theorem Fails.garbles_eq {fault : PlannedFault} (h : fault.Fails) : fault.garbles = 0 := by
  cases fault with
  | garble _ => exact h.elim
  | _ => rfl

end PlannedFault

namespace Faults

/-- Fails a request before it is delivered, and does not name the request yet. -/
def Fate.Blocks : Fate → Prop
  | dropped => True
  | raised fault => fault.request = ""
  | _ => False

namespace Fate.Blocks

variable {fate other : Fate} (h : fate.Blocks)
include h

theorem exists_error? (source : String) : ∃ e, fate.error? source = some e := by
  cases fate with
  | dropped | raised _ => exact ⟨_, rfl⟩
  | closed | delivered => exact h.elim

theorem eq_of_error?_eq (ho : other.Blocks) {source : String}
    (he : fate.error? source = other.error? source) : fate = other := by
  cases fate with
  | dropped =>
    cases other with
    | dropped => rfl
    | raised _ => cases he
    | closed | delivered => exact ho.elim
  | raised fault =>
    cases other with
    | raised found =>
      have hsame : fault.withRequest source = found.withRequest source :=
        ChannelError.remote.inj (Option.some.inj he)
      have hkind : fault.kind = found.kind := by simpa using congrArg RemoteFault.kind hsame
      have hmessage : fault.message = found.message := by
        simpa using congrArg RemoteFault.message hsame
      have hrequest : fault.request = found.request := Eq.trans h ho.symm
      rw [RemoteFault.ext hkind hmessage hrequest]
    | dropped => cases he
    | closed | delivered => exact ho.elim
  | closed | delivered => exact h.elim

end Fate.Blocks

/-- What the faults of a plan make of requests in the order of the plan. -/
def order (plan : List PlannedFault) : List Fate :=
  plan.flatMap PlannedFault.fates

/-- What the faults of a plan make of requests if all drops come first. -/
def dropsFirst (plan : List PlannedFault) : List Fate :=
  List.replicate (plan.map PlannedFault.drops).sum .dropped ++
    (plan.filterMap PlannedFault.raised?).map .raised

/-- No drop comes after a fault that is raised, and the drops can be counted in a word. -/
def InOrder (plan : List PlannedFault) : Prop :=
  (plan.map PlannedFault.drops).sum < 2 ^ 64 ∧
    plan.Pairwise fun earlier later => earlier.raised? = none ∨ later.drops = 0

/-- What the faults that are left make of the next requests, as long as these fail. -/
def pending (faults : Faults) : List Fate :=
  List.replicate faults.drops .dropped ++ faults.raises.map .raised

theorem blocks_of_mem_order (plan : List PlannedFault) : ∀ fate ∈ order plan, fate.Blocks := by
  intro fate hm
  obtain ⟨fault, -, hf⟩ := List.mem_flatMap.mp hm
  cases fault with
  | drop count =>
    rw [List.eq_of_mem_replicate hf]
    trivial
  | raise kind message =>
    rw [List.mem_singleton.mp hf]
    rfl
  | garble _ | close _ => cases hf

theorem blocks_of_mem_dropsFirst (plan : List PlannedFault) :
    ∀ fate ∈ dropsFirst plan, fate.Blocks := by
  intro fate hm
  obtain hd | hr := List.mem_append.mp hm
  · rw [List.eq_of_mem_replicate hd]
    trivial
  · obtain ⟨raised, hraised, rfl⟩ := List.mem_map.mp hr
    obtain ⟨fault, -, hf⟩ := List.mem_filterMap.mp hraised
    cases fault with
    | raise kind message =>
      obtain rfl := Option.some.inj hf
      rfl
    | drop _ | garble _ | close _ => cases hf

theorem pending_total (plan : List PlannedFault) : (total plan).pending = dropsFirst plan :=
  rfl

section Plans

variable (rest : List PlannedFault)

theorem pending_total_drop (count : Nat) :
    (total (.drop count :: rest)).pending = List.replicate count .dropped ++ (total rest).pending := by
  simp only [pending, total, List.map_cons, List.sum_cons, List.filterMap_cons, PlannedFault.drops,
    PlannedFault.raised?, List.replicate_add, List.append_assoc]

theorem pending_total_raise (kind message : String) :
    (total (.raise kind message :: rest)).pending =
      List.replicate (total rest).drops .dropped ++
        .raised ⟨kind, message, ""⟩ :: (total rest).raises.map .raised := by
  simp only [pending, total, List.map_cons, List.sum_cons, List.filterMap_cons, PlannedFault.drops,
    PlannedFault.raised?, Nat.zero_add]

theorem drops_total_eq_zero_iff : (total rest).drops = 0 ↔ ∀ fault ∈ rest, fault.drops = 0 := by
  simp [total, List.sum_eq_zero_iff]

end Plans

/-- Drops first is the order of a plan exactly if no drop comes after a fault that is raised. -/
theorem dropsFirst_eq_order_iff {plan : List PlannedFault} (hp : ∀ fault ∈ plan, fault.Fails) :
    dropsFirst plan = order plan ↔
      plan.Pairwise fun earlier later => earlier.raised? = none ∨ later.drops = 0 := by
  rw [← pending_total]
  induction plan with
  | nil => simp [pending, total, order]
  | cons fault rest ih =>
    obtain ⟨hfault, hrest⟩ := List.forall_mem_cons.mp hp
    rw [List.pairwise_cons, ← ih hrest, order, List.flatMap_cons, ← order]
    cases fault with
    | drop count =>
      rw [pending_total_drop, PlannedFault.fates, List.append_right_inj]
      simp [PlannedFault.raised?]
    | raise kind message =>
      rw [pending_total_raise, PlannedFault.fates]
      simp only [PlannedFault.raised?, reduceCtorEq, false_or, ← drops_total_eq_zero_iff, pending]
      cases (total rest).drops with
      | zero => simp
      | succ count => simp [List.replicate_succ]
    | garble _ | close _ => exact hfault.elim

/-! ## What a request meets, by its number -/

section Numbers

variable {faults : Faults} (hc : faults.closeAfter = none)
include hc

theorem fate_eq_getD (i : Nat) : faults.fate i = faults.pending[i]?.getD .delivered := by
  rw [fate, hc, pending]
  simp only [Option.any_none, Bool.false_eq_true, if_false]
  by_cases hi : i < faults.drops
  · rw [if_pos hi, List.getElem?_append_left (by simpa using hi), List.getElem?_replicate, if_pos hi,
      Option.getD_some]
  · rw [if_neg hi, List.getElem?_append_right (by simpa using hi), List.length_replicate,
      List.getElem?_map]
    cases faults.raises[i - faults.drops]? <;> rfl

theorem fate_eq_delivered_iff (i : Nat) :
    faults.fate i = .delivered ↔ faults.pending.length ≤ i := by
  rw [fate_eq_getD hc]
  by_cases hi : i < faults.pending.length
  · have hne : faults.pending[i] ≠ .delivered := by
      intro he
      have hm := List.getElem_mem hi
      rw [he, pending] at hm
      simp at hm
    simp [hne, hi]
  · simp [Nat.not_lt.mp hi]

end Numbers

section Late

variable {faults : Faults} {n : Nat} (h : ∀ i, faults.fate i = .delivered ↔ n ≤ i)
include h

/-- If the first requests fail and no others do, the others are those that are delivered. -/
theorem passed_eq_drop (sources : List String) : faults.passed sources = sources.drop n := by
  have later (k : Nat) : ((sources.zipIdx k).filter fun entry => n ≤ entry.2).map Prod.fst =
      sources.drop (n - k) := by
    induction sources generalizing k with
    | nil => simp
    | cons source rest ih =>
      rw [List.zipIdx_cons, List.filter_cons]
      by_cases hk : n ≤ k
      · simp [hk, ih, Nat.sub_eq_zero_of_le hk, Nat.sub_eq_zero_of_le (Nat.le_succ_of_le hk)]
      · have hsub : n - k = n - (k + 1) + 1 := by omega
        simp [hk, ih, hsub]
  simp only [passed, h, later 0, Nat.sub_zero]

theorem place_eq_sub (i : Nat) : faults.place i = i - n := by
  simp only [place, h]
  induction i with
  | zero => simp
  | succ i ih =>
    rw [List.range_succ, List.countP_append, ih, List.countP_singleton]
    by_cases hi : n ≤ i
    · simp [hi, Nat.succ_sub hi]
    · simp [hi]
      omega

end Late

theorem garbled_zero (replies : List Reply) : garbled 0 replies = replies := by
  induction replies with
  | nil => rfl
  | cons reply rest ih => simp [garbled_cons, ih]

end Faults

/-! ## Runs -/

/-- The first requests meet the given fates, one after the other, and fail by them. The channel inside gets
the requests after them and nothing else, and they are answered as it answers. -/
structure Meets {σ : Type} [Channel σ] (fates : List Fate) (inner : σ) (sources : List String)
    (replies : List Reply) (after : σ) : Prop where
  length_eq : replies.length = sources.length
  failed {i : Nat} {fate : Fate} {source : String} {e : ChannelError} (hf : fates[i]? = some fate)
    (hs : sources[i]? = some source) (he : fate.error? source = some e) :
    replies[i]? = some (.error e)
  delivered : replies.drop fates.length = (executeAll inner (sources.drop fates.length)).1
  inner_eq : after = (executeAll inner (sources.drop fates.length)).2

/-- Whatever channel is inside and whatever it is sent, requests over a plan meet the fates. -/
def Applies (plan : List PlannedFault) (fates : List Fate) : Prop :=
  ∀ (σ : Type) [Channel σ] (inner : σ) (sources : List String),
    ∃ channel, Faulty.ofPlan inner plan = .ok channel ∧
      Meets fates inner sources (executeAll channel sources).1 (executeAll channel sources).2.inner

/-- Faults that neither close the channel nor garble results come before everything else. -/
theorem Realises.meets {σ : Type} [Channel σ] {faults : Faults} {inner : σ} {sources : List String}
    {replies : List Reply} {after : Faulty σ} (h : Realises faults inner sources replies after)
    (hc : faults.closeAfter = none) (hg : faults.garbles = 0) :
    Meets faults.pending inner sources replies after.inner := by
  have hfate := Faults.fate_eq_delivered_iff hc
  have hpassed := Faults.passed_eq_drop hfate sources
  refine ⟨h.length_eq, fun {i fate source e} hf hs he => ?_, List.ext_getElem? fun j => ?_, ?_⟩
  · apply h.failed hs
    rw [Faults.fate_eq_getD hc, hf, Option.getD_some]
    exact he
  · rw [List.getElem?_drop]
    by_cases hj : faults.pending.length + j < sources.length
    · rw [h.delivered hj ((hfate _).mpr (Nat.le_add_right _ _)), hg, Faults.garbled_zero, hpassed,
        Faults.place_eq_sub hfate, Nat.add_sub_cancel_left]
    · rw [List.getElem?_eq_none, List.getElem?_eq_none]
      · rw [length_executeAll, List.length_drop]
        omega
      · rw [h.length_eq]
        omega
  · rw [h.inner_eq, hpassed]

section Plans

variable {plan : List PlannedFault} (hp : ∀ fault ∈ plan, fault.Fails)
include hp

theorem total_garbles_of_fails : (Faults.total plan).garbles = 0 := by
  rw [Faults.total, List.sum_eq_zero_iff]
  simpa using fun fault hf => (hp fault hf).garbles_eq

theorem total_closeAfter_of_fails : (Faults.total plan).closeAfter = none := by
  have hlimits : plan.filterMap PlannedFault.limit? = [] := by
    rw [List.filterMap_eq_nil_iff]
    exact fun fault hf => (hp fault hf).limit?_eq
  rw [Faults.total, hlimits]
  rfl

theorem fits_iff_of_fails : Faults.Fits plan ↔ (plan.map PlannedFault.drops).sum < 2 ^ 64 := by
  have hgarbles : (plan.map PlannedFault.garbles).sum = 0 := total_garbles_of_fails hp
  rw [Faults.Fits, hgarbles]
  exact and_iff_left (Nat.two_pow_pos 64)

theorem applies_dropsFirst (hd : (plan.map PlannedFault.drops).sum < 2 ^ 64) :
    Applies plan (Faults.dropsFirst plan) := by
  intro σ _ inner sources
  refine ⟨⟨inner, Faults.total plan⟩, ?_, ?_⟩
  · rw [Faulty.ofPlan, Faults.ofPlan_of_fits ((fits_iff_of_fails hp).mpr hd)]
    rfl
  · apply (executeAll_realises inner (Faults.total plan) sources).meets
    · exact total_closeAfter_of_fails hp
    · exact total_garbles_of_fails hp

theorem ofPlan_of_le {σ : Type} (inner : σ) (hd : 2 ^ 64 ≤ (plan.map PlannedFault.drops).sum) :
    Faulty.ofPlan inner plan = .error .overflow := by
  have hfits : ¬ Faults.Fits plan := mt (fits_iff_of_fails hp).mp (Nat.not_lt.mpr hd)
  rw [Faulty.ofPlan, Faults.ofPlan_of_not_fits hfits]
  rfl

end Plans

/-! ## Runs that tell orders apart

A request of which the host makes an error is told by it, and a host that answers all requests with results
tells those that are delivered. -/

theorem execute_one (requests : List String) :
    Channel.execute (EchoHost.mk [] requests) "1" = (.ok "1", ⟨[], requests ++ ["1"]⟩) := by
  have hanswer : (EchoHost.mk [] requests).answer "1" = (.ok "1", none) := by rfl
  simp only [Channel.execute, Evaluator.evaluate, hanswer, Reply.ofResult_ok]

theorem executeAll_ones (requests : List String) (n : Nat) :
    (executeAll (EchoHost.mk [] requests) (List.replicate n "1")).1 = List.replicate n (.ok "1") := by
  induction n generalizing requests with
  | zero => rfl
  | succ n ih => simp only [List.replicate_succ, executeAll, execute_one, ih]

/-- Runs over a host that only answers with results tell what a request meets. -/
theorem Applies.getElem?_eq {plan : List PlannedFault} {fates others : List Fate}
    (h : Applies plan fates) (ho : Applies plan others) (hb : ∀ fate ∈ fates, fate.Blocks)
    (hbo : ∀ fate ∈ others, fate.Blocks) {i : Nat} {fate : Fate} (hf : fates[i]? = some fate) :
    others[i]? = some fate := by
  have hs : (List.replicate (i + 1) "1")[i]? = some "1" := by
    rw [List.getElem?_replicate, if_pos (Nat.lt_succ_self i)]
  have hblocks := hb fate (List.mem_of_getElem? hf)
  obtain ⟨e, he⟩ := hblocks.exists_error? "1"
  obtain ⟨channel, hc, hmeets⟩ := h EchoHost (EchoHost.mk [] []) (List.replicate (i + 1) "1")
  obtain ⟨same, hsame, hother⟩ := ho EchoHost (EchoHost.mk [] []) (List.replicate (i + 1) "1")
  obtain rfl : channel = same := Except.ok.inj (hc.symm.trans hsame)
  have hreply := hmeets.failed hf hs he
  cases hfo : others[i]? with
  | none =>
    -- The request would be delivered, and so be answered with a result.
    obtain ⟨k, hk⟩ := Nat.exists_eq_add_of_le (List.getElem?_eq_none_iff.mp hfo)
    have hdelivered := congrArg (·[k]?) hother.delivered
    simp only [List.getElem?_drop, ← hk, hreply, List.drop_replicate, executeAll_ones,
      List.getElem?_replicate] at hdelivered
    split at hdelivered <;> cases hdelivered
  | some other =>
    have hblocksOther := hbo other (List.mem_of_getElem? hfo)
    obtain ⟨d, hd⟩ := hblocksOther.exists_error? "1"
    have herror : e = d := by
      have heq := hreply.symm.trans (hother.failed hfo hs hd)
      exact Except.error.inj (Option.some.inj heq)
    rw [hblocks.eq_of_error?_eq hblocksOther (he.trans (herror ▸ hd.symm))]

/-- A plan applies only one sequence of faults. -/
theorem Applies.unique {plan : List PlannedFault} {fates others : List Fate} (h : Applies plan fates)
    (ho : Applies plan others) (hb : ∀ fate ∈ fates, fate.Blocks)
    (hbo : ∀ fate ∈ others, fate.Blocks) : fates = others := by
  apply List.ext_getElem?
  intro i
  apply Option.ext
  intro fate
  exact ⟨h.getElem?_eq ho hb hbo, ho.getElem?_eq h hbo hb⟩

/-- A plan of faults that fail requests applies all drops first, unless there are too many to be counted in
a word, which stops the program. It applies its faults in its own order exactly if no drop comes there after a
fault that is raised. -/
theorem executeAll_order {plan : List PlannedFault} (hp : ∀ fault ∈ plan, fault.Fails) :
    ((plan.map PlannedFault.drops).sum < 2 ^ 64 → Applies plan (Faults.dropsFirst plan)) ∧
      (2 ^ 64 ≤ (plan.map PlannedFault.drops).sum →
        ∀ (σ : Type) (inner : σ), Faulty.ofPlan inner plan = .error .overflow) ∧
      (Applies plan (Faults.order plan) ↔ Faults.InOrder plan) := by
  refine ⟨applies_dropsFirst hp, fun hd σ inner => ofPlan_of_le hp inner hd, ?_⟩
  constructor
  · intro horder
    have hd : (plan.map PlannedFault.drops).sum < 2 ^ 64 := by
      obtain ⟨channel, hc, -⟩ := horder EchoHost (EchoHost.mk [] []) []
      apply Nat.lt_of_not_le
      intro hle
      rw [ofPlan_of_le hp _ hle] at hc
      cases hc
    have hsame := (applies_dropsFirst hp hd).unique horder (Faults.blocks_of_mem_dropsFirst plan)
      (Faults.blocks_of_mem_order plan)
    exact ⟨hd, (Faults.dropsFirst_eq_order_iff hp).mp hsame⟩
  · intro h
    rw [← (Faults.dropsFirst_eq_order_iff hp).mpr h.2]
    exact applies_dropsFirst hp h.1

/-- A plan that has its drops first is applied as it is, one that drops a request after a fault that it
raises is not, and one with too many drops stops the program. -/
theorem executeAll_order_three_plans :
    Applies [.drop 2, .raise "E" "m", .drop 0, .raise "F" ""]
        [.dropped, .dropped, .raised ⟨"E", "m", ""⟩, .raised ⟨"F", "", ""⟩] ∧
      Applies [.drop 1, .raise "E" "m", .drop 1] [.dropped, .dropped, .raised ⟨"E", "m", ""⟩] ∧
      ¬ Applies [.drop 1, .raise "E" "m", .drop 1] [.dropped, .raised ⟨"E", "m", ""⟩, .dropped] ∧
      Faulty.ofPlan ({} : EchoHost) [.drop 0xffffffffffffffff, .drop 1] = .error .overflow := by
  refine ⟨(executeAll_order ?_).2.2.mpr ?_, (executeAll_order ?_).1 ?_,
    mt (executeAll_order ?_).2.2.mp ?_, (executeAll_order ?_).2.1 ?_ _ _⟩
  · simp [PlannedFault.Fails]
  · simp [Faults.InOrder]
  · simp [PlannedFault.Fails]
  · simp
  · simp [PlannedFault.Fails]
  · simp [Faults.InOrder]
  · simp [PlannedFault.Fails]
  · simp

/-- A fault that is to be raised before a drop is raised after it. -/
theorem executeAll_raise_before_drop :
    Faults.order [.raise "E" "m", .drop 1] = [.raised ⟨"E", "m", ""⟩, .dropped] ∧
      ∃ channel, Faulty.ofPlan ({} : EchoHost) [.raise "E" "m", .drop 1] = .ok channel ∧
        (executeAll channel ["1", "2"]).1 =
          [.error (.transport .requestDropped), .error (.remote ⟨"E", "m", "2"⟩)] ∧
        ¬ Meets (Faults.order [.raise "E" "m", .drop 1]) ({} : EchoHost) ["1", "2"]
          (executeAll channel ["1", "2"]).1 (executeAll channel ["1", "2"]).2.inner := by
  have hrun : (executeAll (Faulty.mk ({} : EchoHost) ⟨1, 0, [⟨"E", "m", ""⟩], none, 0⟩) ["1", "2"]).1 =
      [.error (.transport .requestDropped), .error (.remote ⟨"E", "m", "2"⟩)] := rfl
  refine ⟨rfl, ⟨{}, ⟨1, 0, [⟨"E", "m", ""⟩], none, 0⟩⟩, rfl, hrun, ?_⟩
  intro h
  have hreply := h.failed (i := 0) rfl rfl rfl
  rw [hrun] at hreply
  cases hreply

end LiteralBridge
