import Mathlib
import LiteralBridge.Channel.Faulty
import LiteralBridge.Host.Echo

/-! # What a plan makes of a run

What a request meets depends on its number only, and not on what the channel inside answers
(`Faults.fate`). The requests that are delivered reach this channel as if they were sent to it directly,
and of their results the first are garbled (`executeAll_ofPlan`). -/

namespace LiteralBridge

/-! ## Plans as a whole -/

namespace PlannedFault

/-- The number of requests that a fault drops. -/
@[simp] def drops : PlannedFault → Nat
  | drop count => count
  | _ => 0

/-- The number of results that a fault garbles. -/
@[simp] def garbles : PlannedFault → Nat
  | garble count => count
  | _ => 0

/-- What a fault raises in place of a request. -/
@[simp] def raised? : PlannedFault → Option RemoteFault
  | raise kind message => some ⟨kind, message, ""⟩
  | _ => none

/-- The number of deliveries after which a fault closes the channel. -/
@[simp] def limit? : PlannedFault → Option Nat
  | close after => some after
  | _ => none

end PlannedFault

namespace Faults

/-- The faults of a plan taken together: counts add up, what is raised is raised in order, and the last
limit counts. -/
def total (plan : List PlannedFault) : Faults where
  drops := (plan.map PlannedFault.drops).sum
  garbles := (plan.map PlannedFault.garbles).sum
  raises := plan.filterMap PlannedFault.raised?
  closeAfter := (plan.filterMap PlannedFault.limit?).getLast?

/-- The counts of a plan add up to words. -/
def Fits (plan : List PlannedFault) : Prop :=
  (plan.map PlannedFault.drops).sum < 2 ^ 64 ∧ (plan.map PlannedFault.garbles).sum < 2 ^ 64

theorem fits_concat_iff (plan : List PlannedFault) (fault : PlannedFault) :
    Fits (plan ++ [fault]) ↔
      (plan.map PlannedFault.drops).sum + fault.drops < 2 ^ 64 ∧
        (plan.map PlannedFault.garbles).sum + fault.garbles < 2 ^ 64 := by
  simp only [Fits, List.map_append, List.map_cons, List.map_nil, List.sum_append, List.sum_cons,
    List.sum_nil, Nat.add_zero]

theorem Fits.of_concat {plan : List PlannedFault} {fault : PlannedFault} (h : Fits (plan ++ [fault])) :
    Fits plan := by
  rw [fits_concat_iff] at h
  exact ⟨Nat.lt_of_add_right_lt h.1, Nat.lt_of_add_right_lt h.2⟩

theorem ofPlan_concat (plan : List PlannedFault) (fault : PlannedFault) :
    ofPlan (plan ++ [fault]) = ofPlan plan >>= fun faults => faults.add fault := by
  simp only [ofPlan, List.foldlM_append, List.foldlM_cons, List.foldlM_nil, bind_pure]

section Steps

variable {plan : List PlannedFault} {fault : PlannedFault}

/-- One more fault is added to what the faults before it come to together. -/
theorem add_total (h : Fits (plan ++ [fault])) :
    (total plan).add fault = .ok (total (plan ++ [fault])) := by
  have hsums := (fits_concat_iff plan fault).mp h
  cases fault with
  | drop count =>
    have hlt : (total plan).drops + count < Word.size := hsums.1
    rw [add, Word.add, Word.ofNat_of_lt hlt]
    simp [total, Except.map]
  | garble count =>
    have hlt : (total plan).garbles + count < Word.size := hsums.2
    rw [add, Word.add, Word.ofNat_of_lt hlt]
    simp [total, Except.map]
  | raise _ _ | close _ => simp [add, total]

theorem add_total_overflow (hp : Fits plan) (h : ¬ Fits (plan ++ [fault])) :
    (total plan).add fault = .error .overflow := by
  rw [fits_concat_iff] at h
  cases fault with
  | drop count =>
    have hle : Word.size ≤ (total plan).drops + count := Nat.not_lt.mp fun hlt => h ⟨hlt, hp.2⟩
    rw [add, Word.add, Word.ofNat_of_le hle]
    rfl
  | garble count =>
    have hle : Word.size ≤ (total plan).garbles + count := Nat.not_lt.mp fun hlt => h ⟨hp.1, hlt⟩
    rw [add, Word.add, Word.ofNat_of_le hle]
    rfl
  | raise _ _ | close _ => exact absurd hp h

end Steps

theorem ofPlan_of_fits {plan : List PlannedFault} (h : Fits plan) : ofPlan plan = .ok (total plan) := by
  induction plan using List.reverseRecOn with
  | nil => rfl
  | append_singleton plan fault ih =>
    rw [ofPlan_concat, ih h.of_concat]
    exact add_total h

/-- Counts that are too large in the end are so when the last of them is added. -/
theorem ofPlan_of_not_fits {plan : List PlannedFault} (h : ¬ Fits plan) :
    ofPlan plan = .error .overflow := by
  induction plan using List.reverseRecOn with
  | nil => exact absurd ⟨by decide, by decide⟩ h
  | append_singleton plan fault ih =>
    rw [ofPlan_concat]
    by_cases hp : Fits plan
    · rw [ofPlan_of_fits hp]
      exact add_total_overflow hp h
    · rw [ih hp]
      rfl

/-! ## What a request meets -/

/-- What becomes of a request. -/
inductive Fate where
  | closed
  | dropped
  | raised (fault : RemoteFault)
  | delivered
deriving DecidableEq

/-- The error of a request that is not delivered. -/
def Fate.error? (source : String) : Fate → Option ChannelError
  | closed => some (.transport .channelClosed)
  | dropped => some (.transport .requestDropped)
  | raised fault => some (.remote (fault.withRequest source))
  | delivered => none

/-- What a request meets, by its number from zero on. The channel is closed as soon as the limit is
reached, which is never before all drops and all raised faults are used up, unless it is at once. -/
def fate (faults : Faults) (i : Nat) : Fate :=
  if faults.closeAfter.any fun limit => limit ≤ faults.delivered ∨
      faults.drops + faults.raises.length + (limit - faults.delivered) ≤ i then .closed
  else if i < faults.drops then .dropped
  else
    match faults.raises[i - faults.drops]? with
    | some fault => .raised fault
    | none => .delivered

def passed (faults : Faults) (sources : List String) : List String :=
  (sources.zipIdx.filter fun entry => faults.fate entry.2 = .delivered).map Prod.fst

/-- The number of requests that are delivered before the one with a number. -/
def place (faults : Faults) (i : Nat) : Nat :=
  (List.range i).countP fun j => faults.fate j = .delivered

/-- The replies with the first results garbled, as many of them as given. -/
def garbled (count : Nat) (replies : List Reply) : List Reply :=
  replies.mapIdx fun j reply =>
    if reply.isOk ∧ (replies.take j).countP Except.isOk < count then .ok garbledText else reply

/-! ## One request -/

section Requests

variable {faults : Faults}

theorem isClosed_iff : faults.isClosed = true ↔ ∃ limit ∈ faults.closeAfter, limit ≤ faults.delivered := by
  simp [isClosed, Option.any_eq_true]

/-- A channel that is closed stays so. -/
theorem fate_of_isClosed (h : faults.isClosed = true) (i : Nat) : faults.fate i = .closed := by
  obtain ⟨limit, hl, hle⟩ := isClosed_iff.mp h
  rw [fate, if_pos]
  rw [Option.mem_def.mp hl]
  simp [hle]

theorem lt_of_not_isClosed (h : faults.isClosed = false) :
    ∀ limit ∈ faults.closeAfter, faults.delivered < limit := by
  intro limit hl
  apply Nat.lt_of_not_le
  intro hle
  rw [isClosed_iff.mpr ⟨limit, hl, hle⟩] at h
  cases h

/-- While the channel is open, how many requests it takes until it is closed can be counted. -/
theorem fate_of_not_isClosed (h : faults.isClosed = false) (i : Nat) :
    faults.fate i =
      if faults.closeAfter.any fun limit =>
        faults.drops + faults.raises.length + (limit - faults.delivered) ≤ i then .closed
      else if i < faults.drops then .dropped
      else
        match faults.raises[i - faults.drops]? with
        | some fault => .raised fault
        | none => .delivered := by
  rw [fate]
  cases hc : faults.closeAfter with
  | none => rfl
  | some limit =>
    have hopen : ¬ limit ≤ faults.delivered := Nat.not_le_of_lt (lt_of_not_isClosed h limit hc)
    simp only [Option.any_some, hopen, false_or]

theorem fate_of_drop (h : faults.isClosed = false) (hd : 0 < faults.drops) :
    faults.fate 0 = .dropped ∧
      ∀ i, fate { faults with drops := faults.drops - 1 } i = faults.fate (i + 1) := by
  obtain ⟨count, hc⟩ := Nat.exists_eq_add_one_of_ne_zero (Nat.ne_of_gt hd)
  have later (left : Nat) (i : Nat) : (count + 1 + faults.raises.length + left ≤ i + 1) =
      (count + faults.raises.length + left ≤ i) := by
    rw [Nat.add_right_comm count, Nat.add_right_comm _ 1, Nat.add_le_add_iff_right]
  constructor
  · rw [fate_of_not_isClosed h, hc]
    simp
  · intro i
    have hnext : isClosed { faults with drops := faults.drops - 1 } = false := h
    rw [fate_of_not_isClosed h, fate_of_not_isClosed hnext, hc]
    simp only [Nat.add_sub_cancel, later, Nat.add_lt_add_iff_right, Nat.add_sub_add_right]

theorem fate_of_raise (h : faults.isClosed = false) (hd : faults.drops = 0) {fault : RemoteFault}
    {rest : List RemoteFault} (hr : faults.raises = fault :: rest) :
    faults.fate 0 = .raised fault ∧ ∀ i, fate { faults with raises := rest } i = faults.fate (i + 1) := by
  have later (left : Nat) (i : Nat) : (0 + (rest.length + 1) + left ≤ i + 1) =
      (0 + rest.length + left ≤ i) := by
    rw [← Nat.add_assoc, Nat.add_right_comm _ 1, Nat.add_le_add_iff_right]
  constructor
  · rw [fate_of_not_isClosed h, hd, hr]
    simp
  · intro i
    have hnext : isClosed { faults with raises := rest } = false := h
    rw [fate_of_not_isClosed h, fate_of_not_isClosed hnext, hd, hr]
    simp only [List.length_cons, later, Nat.not_lt_zero, if_false, Nat.sub_zero,
      List.getElem?_cons_succ]

/-- A delivery counts, and a result of one that is to be garbled is garbled. -/
theorem settle_eq (faults : Faults) (reply : Reply) :
    faults.settle reply =
      (if reply.isOk ∧ 0 < faults.garbles then .ok garbledText else reply,
        { faults with
          delivered := faults.delivered + 1
          garbles := if reply.isOk then faults.garbles - 1 else faults.garbles }) := by
  cases reply with
  | error e => simp [settle, Except.isOk, Except.toBool]
  | ok text =>
    cases hg : faults.garbles <;> simp [settle, hg, Except.isOk, Except.toBool]

theorem fate_of_deliver (h : faults.isClosed = false) (hd : faults.drops = 0) (hr : faults.raises = [])
    (reply : Reply) :
    faults.fate 0 = .delivered ∧ ∀ i, (faults.settle reply).2.fate i = faults.fate (i + 1) := by
  constructor
  · rw [fate_of_not_isClosed h, hd, hr]
    cases hc : faults.closeAfter with
    | none => simp
    | some limit =>
      have hleft := Nat.sub_ne_zero_of_lt (lt_of_not_isClosed h limit hc)
      simp [hleft]
  · intro i
    rw [settle_eq, fate_of_not_isClosed h, fate, hd, hr]
    cases hc : faults.closeAfter with
    | none => simp
    | some limit =>
      have hlt := lt_of_not_isClosed h limit hc
      have hiff : limit ≤ faults.delivered + 1 ∨ 0 + 0 + (limit - (faults.delivered + 1)) ≤ i ↔
        0 + 0 + (limit - faults.delivered) ≤ i + 1 := by omega
      simp only [Option.any_some, List.length_nil, hiff, Nat.not_lt_zero, List.getElem?_nil]

end Requests

/-! ## Runs, by the fates of their requests -/

section Shift

variable {faults next : Faults} (hn : ∀ i, next.fate i = faults.fate (i + 1))
include hn

theorem passed_cons (source : String) (rest : List String) :
    faults.passed (source :: rest) =
      if faults.fate 0 = .delivered then source :: next.passed rest else next.passed rest := by
  have hrest : ((rest.zipIdx 1).filter fun entry => faults.fate entry.2 = .delivered).map Prod.fst =
      next.passed rest := by
    rw [List.zipIdx_succ, List.filter_map, List.map_map, passed]
    simp only [Function.comp_def, hn]
  rw [passed, List.zipIdx_cons, List.filter_cons, apply_ite (List.map Prod.fst), List.map_cons, hrest]
  simp only [decide_eq_true_eq]

theorem place_succ (i : Nat) :
    faults.place (i + 1) = if faults.fate 0 = .delivered then next.place i + 1 else next.place i := by
  rw [place, List.range_succ_eq_map, List.countP_cons, List.countP_map, place]
  simp only [Function.comp_def, hn, decide_eq_true_eq]
  split <;> rfl

end Shift

theorem garbled_cons (count : Nat) (reply : Reply) (rest : List Reply) :
    garbled count (reply :: rest) =
      (if reply.isOk ∧ 0 < count then .ok garbledText else reply) ::
        garbled (if reply.isOk then count - 1 else count) rest := by
  rw [garbled, List.mapIdx_cons, garbled]
  simp only [List.take_succ_cons, List.countP_cons, List.take_zero, List.countP_nil]
  cases reply.isOk with
  | false => simp
  | true => simp only [if_true, Nat.lt_sub_iff_add_lt]

end Faults

/-! ## Runs -/

/-- What a run over planned faults comes to, with the replies to its requests and the channel after it.
Those that fail by a fault fail by their own; the channel inside gets the others and nothing else, and
its replies are what they are answered with, after the first results are garbled. -/
structure Realises {σ : Type} [Channel σ] (faults : Faults) (inner : σ) (sources : List String)
    (replies : List Reply) (after : Faulty σ) : Prop where
  length_eq : replies.length = sources.length
  failed {i : Nat} {source : String} {e : ChannelError} (hs : sources[i]? = some source)
    (he : (faults.fate i).error? source = some e) : replies[i]? = some (.error e)
  delivered {i : Nat} (hi : i < sources.length) (hf : faults.fate i = .delivered) :
    replies[i]? =
      (Faults.garbled faults.garbles (executeAll inner (faults.passed sources)).1)[faults.place i]?
  inner_eq : after.inner = (executeAll inner (faults.passed sources)).2
  count_eq : after.faults.delivered = faults.delivered + (faults.passed sources).length
  count_le : ∀ limit ∈ faults.closeAfter, faults.delivered ≤ limit → after.faults.delivered ≤ limit

namespace Realises

variable {σ : Type} [Channel σ] {faults next : Faults} {inner : σ} {source : String}
  {sources : List String} {replies : List Reply} {after : Faulty σ}

theorem nil (faults : Faults) (inner : σ) : Realises faults inner [] [] ⟨inner, faults⟩ where
  length_eq := rfl
  failed hs := by cases hs
  delivered hi := absurd hi (Nat.not_lt_zero _)
  inner_eq := rfl
  count_eq := rfl
  count_le _ _ hle := hle

/-- A request that fails by a fault. -/
theorem cons_failed {e : ChannelError} (he : (faults.fate 0).error? source = some e)
    (hn : ∀ i, next.fate i = faults.fate (i + 1)) (hg : next.garbles = faults.garbles)
    (hd : next.delivered = faults.delivered) (hc : next.closeAfter = faults.closeAfter)
    (h : Realises next inner sources replies after) :
    Realises faults inner (source :: sources) (.error e :: replies) after := by
  have hfate : faults.fate 0 ≠ .delivered := by
    intro hfate
    rw [hfate] at he
    cases he
  have hpassed : faults.passed (source :: sources) = next.passed sources := by
    rw [Faults.passed_cons hn, if_neg hfate]
  constructor
  · simp only [List.length_cons, h.length_eq]
  · intro i found error hs hf
    cases i with
    | zero =>
      obtain rfl := Option.some.inj hs
      rw [he] at hf
      rw [Option.some.inj hf, List.getElem?_cons_zero]
    | succ i =>
      rw [← hn] at hf
      exact h.failed hs hf
  · intro i hi hf
    cases i with
    | zero => exact absurd hf hfate
    | succ i =>
      rw [← hn] at hf
      rw [List.getElem?_cons_succ, h.delivered (Nat.lt_of_succ_lt_succ hi) hf, hpassed,
        Faults.place_succ hn, if_neg hfate, hg]
  · rw [hpassed]
    exact h.inner_eq
  · rw [hpassed, ← hd]
    exact h.count_eq
  · rw [← hc, ← hd]
    exact h.count_le

/-- A request that is delivered. -/
theorem cons_delivered {reply : Reply} {between : σ}
    (hx : Channel.execute inner source = (reply, between)) (hfate : faults.fate 0 = .delivered)
    (hn : ∀ i, (faults.settle reply).2.fate i = faults.fate (i + 1))
    (hl : ∀ limit ∈ faults.closeAfter, faults.delivered < limit)
    (h : Realises (faults.settle reply).2 between sources replies after) :
    Realises faults inner (source :: sources) ((faults.settle reply).1 :: replies) after := by
  have hpassed : faults.passed (source :: sources) =
      source :: (faults.settle reply).2.passed sources := by
    rw [Faults.passed_cons hn, if_pos hfate]
  have hrun (more : List String) : executeAll inner (source :: more) =
      (reply :: (executeAll between more).1, (executeAll between more).2) := by
    simp only [executeAll, hx]
  have hgarbled (more : List Reply) : Faults.garbled faults.garbles (reply :: more) =
      (faults.settle reply).1 :: Faults.garbled (faults.settle reply).2.garbles more := by
    rw [Faults.garbled_cons, Faults.settle_eq]
  have hcount : (faults.settle reply).2.delivered = faults.delivered + 1 := by
    rw [Faults.settle_eq]
  have hlimit : (faults.settle reply).2.closeAfter = faults.closeAfter := by
    rw [Faults.settle_eq]
  constructor
  · simp only [List.length_cons, h.length_eq]
  · intro i found error hs hf
    cases i with
    | zero =>
      rw [hfate] at hf
      cases hf
    | succ i =>
      rw [← hn] at hf
      exact h.failed hs hf
  · intro i hi hf
    rw [hpassed, hrun, hgarbled]
    cases i with
    | zero => rfl
    | succ i =>
      rw [← hn] at hf
      rw [Faults.place_succ hn, if_pos hfate, List.getElem?_cons_succ, List.getElem?_cons_succ,
        h.delivered (Nat.lt_of_succ_lt_succ hi) hf]
  · rw [hpassed, hrun]
    exact h.inner_eq
  · rw [hpassed, List.length_cons, h.count_eq, hcount, Nat.add_assoc, Nat.add_comm 1]
  · intro limit hm _
    exact h.count_le limit (hlimit ▸ hm) (hcount ▸ hl limit hm)

end Realises

/-- Faults are realised from whatever is left of them. -/
theorem executeAll_realises {σ : Type} [Channel σ] (inner : σ) (faults : Faults)
    (sources : List String) :
    Realises faults inner sources (executeAll (Faulty.mk inner faults) sources).1
      (executeAll (Faulty.mk inner faults) sources).2 := by
  induction sources generalizing inner faults with
  | nil => exact .nil faults inner
  | cons source rest ih =>
    cases hclosed : faults.isClosed with
    | true =>
      have hfate := Faults.fate_of_isClosed hclosed
      have hx : Channel.execute (Faulty.mk inner faults) source =
          (.error (.transport .channelClosed), ⟨inner, faults⟩) := by
        simp only [Channel.execute, Faults.meet?, hclosed, if_true]
      simp only [executeAll, hx]
      refine .cons_failed (by rw [hfate]; rfl) (fun i => ?_) rfl rfl rfl (ih inner faults)
      rw [hfate, hfate]
    | false =>
      by_cases hd : 0 < faults.drops
      · obtain ⟨hfate, hnext⟩ := Faults.fate_of_drop hclosed hd
        have hx : Channel.execute (Faulty.mk inner faults) source =
            (.error (.transport .requestDropped),
              ⟨inner, { faults with drops := faults.drops - 1 }⟩) := by
          simp only [Channel.execute, Faults.meet?, hclosed, Bool.false_eq_true, if_false, hd, if_true]
        simp only [executeAll, hx]
        exact .cons_failed (by rw [hfate]; rfl) hnext rfl rfl rfl (ih inner _)
      · cases hr : faults.raises with
        | cons fault more =>
          obtain ⟨hfate, hnext⟩ := Faults.fate_of_raise hclosed (Nat.eq_zero_of_not_pos hd) hr
          have hx : Channel.execute (Faulty.mk inner faults) source =
              (.error (.remote (fault.withRequest source)), ⟨inner, { faults with raises := more }⟩) := by
            simp only [Channel.execute, Faults.meet?, hclosed, Bool.false_eq_true, if_false, hd, hr]
          simp only [executeAll, hx]
          exact .cons_failed (by rw [hfate]; rfl) hnext rfl rfl rfl (ih inner _)
        | nil =>
          cases hinner : Channel.execute inner source with | mk reply between =>
          obtain ⟨hfate, hnext⟩ :=
            Faults.fate_of_deliver hclosed (Nat.eq_zero_of_not_pos hd) hr reply
          have hx : Channel.execute (Faulty.mk inner faults) source =
              ((faults.settle reply).1, ⟨between, (faults.settle reply).2⟩) := by
            simp only [Channel.execute, Faults.meet?, hclosed, Bool.false_eq_true, if_false, hd, hr,
              hinner]
          simp only [executeAll, hx]
          exact .cons_delivered hinner hfate hnext (Faults.lt_of_not_isClosed hclosed) (ih between _)

/-- A plan whose counts fit a word is realised as it says, whatever the channel inside answers. -/
theorem executeAll_ofPlan {σ : Type} [Channel σ] (inner : σ) {plan : List PlannedFault}
    (hd : (plan.map PlannedFault.drops).sum < 2 ^ 64)
    (hg : (plan.map PlannedFault.garbles).sum < 2 ^ 64) (sources : List String) :
    ∃ channel, Faulty.ofPlan inner plan = .ok channel ∧
      Realises (Faults.total plan) inner sources (executeAll channel sources).1
        (executeAll channel sources).2 := by
  refine ⟨⟨inner, Faults.total plan⟩, ?_, executeAll_realises inner (Faults.total plan) sources⟩
  rw [Faulty.ofPlan, Faults.ofPlan_of_fits ⟨hd, hg⟩]
  rfl

/-- A plan with all four sorts of faults. Of six requests one is dropped, one meets the raised fault, one
is delivered and garbled, one delivered as it is, and the channel is closed to the last two. -/
theorem executeAll_ofPlan_four_sorts :
    (∃ channel, Faulty.ofPlan ({} : EchoHost) [.garble 1, .drop 1, .raise "E" "m", .close 2] = .ok channel ∧
      Realises (Faults.total [.garble 1, .drop 1, .raise "E" "m", .close 2]) ({} : EchoHost)
        ["a", "b", "1", "2", "3", "4"] (executeAll channel ["a", "b", "1", "2", "3", "4"]).1
        (executeAll channel ["a", "b", "1", "2", "3", "4"]).2) ∧
      [0, 1, 2, 3, 4, 5].map (Faults.total [.garble 1, .drop 1, .raise "E" "m", .close 2]).fate =
        [.dropped, .raised ⟨"E", "m", ""⟩, .delivered, .delivered, .closed, .closed] :=
  ⟨executeAll_ofPlan _ (by decide) (by decide) _, by decide⟩

end LiteralBridge
