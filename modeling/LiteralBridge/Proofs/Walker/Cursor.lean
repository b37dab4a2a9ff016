import LiteralBridge.Proofs.Literal.Endings
import LiteralBridge.Proofs.Text.Places

/-! # Walking through a text with a cursor

A reader hands on the rest of the text. A walker goes over the text with a cursor instead, a position
in bytes and a count of open brackets, and nothing but its own arithmetic keeps them in place. It halts
without an answer where that goes wrong, and its trail tells where it has been. `Accords` says that a
walk ends as a reader does and that nothing went wrong on the way; `accords_loop` carries this from one
turn of a loop to the whole loop, as long as every turn that another one follows takes a character. -/

namespace LiteralBridge.Literal

open Text
open String.Pos.Raw (IsValid extract get?)

/-- Where a walker is: a position in the text, in bytes, and how many brackets are open. -/
structure Cursor where
  pos : Nat
  depth : Nat

/-- A turn of a loop that another turn follows. -/
structure Turn where
  start : Cursor
  stop : Cursor

/-- Where a walker is and was before, the last place first, and the turns of its loops. -/
structure Trail where
  cursor : Cursor
  past : List Cursor
  turns : List Turn

/-- Why a walk ends early. Only the first one is an answer about the text. -/
inductive Halt where
  | fault (e : ParseError)
  /-- A part of the text does not begin and end between two characters. -/
  | badSlice
  /-- A number that is zero was to be decreased. -/
  | underflow
  /-- A loop or a recursion took more turns than its bound. -/
  | endless
  /-- A case that the callers exclude. -/
  | unreachable

/-- A walk that may halt. The trail is there either way. -/
abbrev Walker := EStateM Halt Trail

namespace Trail

def start : Trail :=
  ⟨⟨0, 0⟩, [], []⟩

def visited (t : Trail) : List Cursor :=
  t.cursor :: t.past

end Trail

/-! ## Walkers -/

namespace Walker

variable {α σ : Type} (text : String)

def cursor : Walker Cursor :=
  return (← get).cursor

/-- Moves the cursor. Nothing else does. -/
def goTo (next : Cursor) : Walker Unit :=
  modify fun t => { t with cursor := next, past := t.cursor :: t.past }

def failAt (offset : Nat) (reason : Fault) : Walker α :=
  throw (.fault ⟨offset, reason⟩)

def fail (reason : Fault) : Walker α := do
  failAt (← cursor).pos reason

/-- The part of the text between two positions. -/
def slice (start stop : Nat) : Walker (List Char) :=
  if IsValid text ⟨start⟩ ∧ IsValid text ⟨stop⟩ ∧ start ≤ stop then
    return (extract text ⟨start⟩ ⟨stop⟩).toList
  else throw .badSlice

def peek : Walker (Option Char) := do
  let pos := (← cursor).pos
  if IsValid text ⟨pos⟩ then return get? text ⟨pos⟩ else throw .badSlice

def bump : Walker (Option Char) := do
  match ← peek text with
  | some c =>
    let here ← cursor
    goTo ⟨here.pos + c.utf8Size, here.depth⟩
    return some c
  | Option.none => return Option.none

/-- Opens a bracket, if the limit allows one more. -/
def enter (limit : Nat) : Walker Unit := do
  let here ← cursor
  if limit ≤ here.depth then fail (.tooDeep limit) else goTo ⟨here.pos, here.depth + 1⟩

def leave : Walker Unit := do
  let here ← cursor
  if here.depth = 0 then throw .underflow else goTo ⟨here.pos, here.depth - 1⟩

/-- Takes turns until one is the last. -/
def loop (turn : σ → Walker (ForInStep σ)) : (bound : Nat) → σ → Walker σ
  | 0, _ => throw .endless
  | bound + 1, x => do
    let start ← cursor
    match ← turn x with
    | .done y => return y
    | .yield y =>
      let stop ← cursor
      modify fun t => { t with turns := ⟨start, stop⟩ :: t.turns }
      loop turn bound y

end Walker

/-! ## Orderly trails -/

namespace Cursor

/-- One step: over a character, into a bracket or out of one. -/
inductive Move (text : String) (limit : Nat) : Cursor → Cursor → Prop
  | read {pos depth : Nat} {c : Char} (h : get? text ⟨pos⟩ = some c) :
      Move text limit ⟨pos, depth⟩ ⟨pos + c.utf8Size, depth⟩
  | enter {pos depth : Nat} (h : depth < limit) : Move text limit ⟨pos, depth⟩ ⟨pos, depth + 1⟩
  | leave {pos depth : Nat} : Move text limit ⟨pos, depth + 1⟩ ⟨pos, depth⟩

/-- A place between two characters of the text, with no more open brackets than the limit allows. -/
structure Inside (text : String) (limit : Nat) (c : Cursor) : Prop where
  pos_le : c.pos ≤ text.utf8ByteSize
  isValid : IsValid text ⟨c.pos⟩
  depth_le : c.depth ≤ limit

variable {text : String} {limit : Nat}

/-- One step from a place inside leads to a place inside. -/
theorem Move.inside {c next : Cursor} (h : Move text limit c next) (hc : c.Inside text limit) :
    next.Inside text limit := by
  cases h with
  | @read pos depth c h =>
    obtain ⟨front, rest, ht, hp⟩ := exists_byteLength_of_isValid hc.isValid
    obtain rfl : pos = byteLength front := hp
    rw [get?_byteLength ht] at h
    obtain ⟨tail, rfl⟩ := List.head?_eq_some_iff.mp h
    have hv : IsValid text ⟨byteLength front + c.utf8Size⟩ := by
      have hfront : byteLength (front ++ [c]) = byteLength front + c.utf8Size := byteLength_append ..
      rw [← hfront]
      exact isValid_byteLength (by simpa using ht)
    exact ⟨hv.le_rawEndPos, hv, hc.depth_le⟩
  | enter h => exact ⟨hc.pos_le, hc.isValid, h⟩
  | leave => exact ⟨hc.pos_le, hc.isValid, Nat.le_of_succ_le hc.depth_le⟩

end Cursor

/-- The turn took a part of the text, and left the brackets as they were. -/
structure Turn.Forward (text : String) (limit : Nat) (turn : Turn) : Prop where
  start : turn.start.Inside text limit
  stop : turn.stop.Inside text limit
  pos_lt : turn.start.pos < turn.stop.pos
  depth_eq : turn.start.depth = turn.stop.depth

/-- The trail of a walker that got from the beginning of the text to where it is step by step, in loops
that went forward. -/
structure Trail.Orderly (text : String) (limit : Nat) (t : Trail) : Prop where
  moves : t.visited.IsChain fun next c => c.Move text limit next
  origin : t.visited.getLast? = some ⟨0, 0⟩
  turns : ∀ turn ∈ t.turns, turn.Forward text limit

namespace Trail.Orderly

variable {text : String} {limit : Nat} {t : Trail}

theorem start (text : String) (limit : Nat) : Trail.start.Orderly text limit where
  moves := .singleton _
  origin := rfl
  turns := by simp [Trail.start]

theorem goTo {next : Cursor} (h : t.Orderly text limit) (hm : t.cursor.Move text limit next) :
    Orderly text limit ⟨next, t.visited, t.turns⟩ where
  moves := .cons_cons hm h.moves
  origin := by
    have ho := h.origin
    simpa only [Trail.visited, List.getLast?_cons_cons] using ho
  turns := h.turns

theorem addTurn {turn : Turn} (h : t.Orderly text limit) (hf : turn.Forward text limit) :
    Orderly text limit ⟨t.cursor, t.past, turn :: t.turns⟩ where
  moves := h.moves
  origin := h.origin
  turns := by
    intro found hm
    rcases List.mem_cons.mp hm with rfl | hm
    · exact hf
    · exact h.turns found hm

/-- A walker that keeps to the steps never leaves the text nor exceeds the limit. -/
theorem inside (h : t.Orderly text limit) : ∀ c ∈ t.visited, c.Inside text limit := by
  have hmoves := h.moves
  have horigin := h.origin
  generalize t.visited = places at hmoves horigin
  induction places with
  | nil => simp
  | cons c earlier ih =>
    cases earlier with
    | nil =>
      obtain rfl := Option.some.inj horigin
      simpa using ⟨Nat.zero_le _, isValid_zero text, Nat.zero_le _⟩
    | cons d earlier =>
      rw [List.getLast?_cons_cons] at horigin
      obtain ⟨hm, hmoves⟩ := List.isChain_cons_cons.mp hmoves
      have hearlier := ih hmoves horigin
      intro place hp
      rcases List.mem_cons.mp hp with rfl | hp
      · exact hm.inside (hearlier d (List.mem_cons_self ..))
      · exact hearlier place hp

end Trail.Orderly

/-! ## Walks that end as readers do -/

section Accords

variable (text : String) (limit : Nat)

/-- The walker is where a reader would have `rest` left of the text. -/
structure Stands (depth : Nat) (rest : List Char) (t : Trail) : Prop where
  orderly : t.Orderly text limit
  suffix : rest <:+ text.toList
  cursor_eq : t.cursor = ⟨offsetOf text.toList rest, depth⟩

/-- A walk ends as a reader does. Either it arrives with the same result at the same place, or it halts
for the same fault, reported at the same place. -/
def Accords {α : Type} (depth : Nat) (walk : EStateM.Result Halt Trail α) :
    Except Stop (α × List Char) → Prop
  | .ok (a, rest) => ∃ t, walk = .ok a t ∧ Stands text limit depth rest t
  | .error stop =>
    stop.rest <:+ text.toList ∧ ∃ t, t.Orderly text limit ∧
      walk = .error (.fault ⟨offsetOf text.toList stop.rest, stop.reason⟩) t

/-- Wherever the walker begins with `depth` brackets open, it ends as the reader does. -/
def Retraces {α : Type} (depth : Nat) (walker : Walker α) (read : Reader α) : Prop :=
  ∀ {rest : List Char} {t : Trail}, Stands text limit depth rest t →
    Accords text limit depth (walker.run t) (read rest)

end Accords

section Steps

variable {text : String} {limit depth depth' : Nat} {rest : List Char} {t : Trail} {α β : Type}

/-- Two walks one after the other. -/
theorem Accords.bind {m : Walker α} {f : α → Walker β} {r : Except Stop (α × List Char)}
    {g : α × List Char → Except Stop (β × List Char)} (h : Accords text limit depth (m.run t) r)
    (hf : ∀ {a next t}, r = .ok (a, next) → Stands text limit depth next t →
      Accords text limit depth' ((f a).run t) (g (a, next))) :
    Accords text limit depth' ((m >>= f).run t) (r >>= g) := by
  cases r with
  | ok read =>
    obtain ⟨next, hm, hs⟩ := h
    rw [EStateM.run_bind, hm]
    exact hf rfl hs
  | error stop =>
    obtain ⟨hs, next, ho, hm⟩ := h
    refine ⟨hs, next, ho, ?_⟩
    rw [EStateM.run_bind, hm]

/-- A walk that arrives, and another one from there. -/
theorem Accords.then {m : Walker α} {f : α → Walker β} {a : α} {r : Except Stop (β × List Char)}
    (h : Accords text limit depth (m.run t) (.ok (a, rest)))
    (hf : ∀ {t}, Stands text limit depth rest t → Accords text limit depth' ((f a).run t) r) :
    Accords text limit depth' ((m >>= f).run t) r := by
  obtain ⟨next, hm, hs⟩ := h
  rw [EStateM.run_bind, hm]
  exact hf hs

/-- A walk that halts goes no further. -/
theorem Accords.halt {m : Walker α} {f : α → Walker β} {stop : Stop}
    (h : Accords text limit depth (m.run t) (.error stop)) :
    Accords text limit depth' ((m >>= f).run t) (.error stop) :=
  h.bind (g := fun _ => .error stop) fun hr _ => nomatch hr

end Steps

namespace Stands

variable {text : String} {limit depth : Nat} {rest : List Char} {t : Trail}

theorem goTo {next : Cursor} {depth' : Nat} {rest' : List Char} (h : Stands text limit depth rest t)
    (hm : t.cursor.Move text limit next) (hs : rest' <:+ text.toList)
    (hn : next = ⟨offsetOf text.toList rest', depth'⟩) :
    Stands text limit depth' rest' ⟨next, t.visited, t.turns⟩ :=
  ⟨h.orderly.goTo hm, hs, hn⟩

theorem inside (h : Stands text limit depth rest t) :
    Cursor.Inside text limit ⟨offsetOf text.toList rest, depth⟩ :=
  h.cursor_eq ▸ h.orderly.inside t.cursor (List.mem_cons_self ..)

theorem addTurn {turn : Turn} (h : Stands text limit depth rest t)
    (hf : turn.Forward text limit) :
    Stands text limit depth rest ⟨t.cursor, t.past, turn :: t.turns⟩ :=
  ⟨h.orderly.addTurn hf, h.suffix, h.cursor_eq⟩

/-! ## What single steps do -/

theorem pure {α : Type} (h : Stands text limit depth rest t) (a : α) :
    Accords text limit depth ((Pure.pure a : Walker α).run t) (.ok (a, rest)) :=
  ⟨t, rfl, h⟩

theorem cursor (h : Stands text limit depth rest t) :
    Accords text limit depth (Walker.cursor.run t) (.ok (⟨offsetOf text.toList rest, depth⟩, rest)) :=
  h.cursor_eq ▸ ⟨t, rfl, h⟩

theorem failAt {α : Type} {start : List Char} (h : Stands text limit depth rest t)
    (hs : start <:+ text.toList) (reason : Fault) :
    Accords (α := α) text limit depth ((Walker.failAt (offsetOf text.toList start) reason).run t)
      (.error ⟨reason, start⟩) :=
  ⟨hs, t, h.orderly, rfl⟩

theorem fail {α : Type} (h : Stands text limit depth rest t) (reason : Fault) :
    Accords (α := α) text limit depth ((Walker.fail reason).run t) (.error ⟨reason, rest⟩) :=
  h.cursor.then fun h => h.failAt h.suffix reason

theorem peek (h : Stands text limit depth rest t) :
    Accords text limit depth ((Walker.peek text).run t) (.ok (rest.head?, rest)) := by
  refine h.cursor.then fun h => ?_
  dsimp only
  rw [if_pos (isValid_offsetOf h.suffix), get?_offsetOf h.suffix]
  exact h.pure _

theorem bump {c : Char} (h : Stands text limit depth (c :: rest) t) :
    Accords text limit depth ((Walker.bump text).run t) (.ok (some c, rest)) := by
  refine h.peek.then fun h => h.cursor.then fun {t} h => ?_
  have hs : rest <:+ text.toList := (List.suffix_cons c rest).trans h.suffix
  have hm : t.cursor.Move text limit ⟨offsetOf text.toList rest, depth⟩ := by
    rw [h.cursor_eq, offsetOf_cons h.suffix]
    exact .read (get?_offsetOf h.suffix)
  dsimp only
  rw [← offsetOf_cons h.suffix]
  exact ⟨_, rfl, h.goTo hm hs rfl⟩

theorem bump_nil (h : Stands text limit depth [] t) :
    Accords text limit depth ((Walker.bump text).run t) (.ok (Option.none, [])) :=
  h.peek.then fun h => h.pure _

theorem enter (h : Stands text limit depth rest t) (hd : depth < limit) :
    Accords text limit (depth + 1) ((Walker.enter limit).run t) (.ok ((), rest)) := by
  refine h.cursor.then fun {t} h => ?_
  rw [if_neg (Nat.not_le.mpr hd)]
  have hm : t.cursor.Move text limit ⟨offsetOf text.toList rest, depth + 1⟩ :=
    h.cursor_eq ▸ .enter hd
  exact ⟨_, rfl, h.goTo hm h.suffix rfl⟩

theorem enter_of_le (h : Stands text limit depth rest t) (hd : limit ≤ depth) :
    Accords text limit depth ((Walker.enter limit).run t) (.error ⟨.tooDeep limit, rest⟩) := by
  refine h.cursor.then fun {t} h => ?_
  rw [if_pos hd]
  exact h.fail _

theorem leave (h : Stands text limit (depth + 1) rest t) :
    Accords text limit depth (Walker.leave.run t) (.ok ((), rest)) := by
  refine h.cursor.then fun {t} h => ?_
  rw [if_neg (Nat.succ_ne_zero depth)]
  have hm : t.cursor.Move text limit ⟨offsetOf text.toList rest, depth⟩ :=
    h.cursor_eq ▸ .leave
  exact ⟨_, rfl, h.goTo hm h.suffix rfl⟩

/-- What lies between an earlier place and the cursor. -/
theorem slice {token : List Char} (h : Stands text limit depth rest t)
    (hs : token ++ rest <:+ text.toList) :
    Accords text limit depth
      ((Walker.slice text (offsetOf text.toList (token ++ rest)) (offsetOf text.toList rest)).run t)
      (.ok (token, rest)) := by
  obtain ⟨front, hf⟩ := id hs
  have hstart : offsetOf text.toList (token ++ rest) = byteLength front := by
    rw [← hf, offsetOf_append]
  have hstop : offsetOf text.toList rest = byteLength (front ++ token) := by
    rw [← hf, ← List.append_assoc, offsetOf_append]
  have hle : byteLength front ≤ byteLength (front ++ token) := by
    rw [byteLength_append]
    exact Nat.le_add_right _ _
  have hv := isValid_offsetOf hs
  have hv' := isValid_offsetOf h.suffix
  rw [hstart] at hv
  rw [hstop] at hv'
  rw [Walker.slice, hstart, hstop, if_pos ⟨hv, hv', hle⟩, extract_byteLength hf.symm]
  exact h.pure _

end Stands

/-! ## Loops -/

section Loops

variable {text : String} {limit depth : Nat} {σ : Type}

/-- What is read by a turn, and by the turns after it if it was not the last one. -/
def Unrolls (turn : σ → Reader (ForInStep σ)) (whole : Nat → σ → Reader σ) : Prop :=
  ∀ bound x rest, whole (bound + 1) x rest = turn x rest >>= fun
    | (.done y, next) => .ok (y, next)
    | (.yield y, next) => whole bound y next

/-- Every turn that is not the last one takes something. -/
def Advances (turn : σ → Reader (ForInStep σ)) : Prop :=
  ∀ {x y rest next}, turn x rest = .ok (.yield y, next) → next.length < rest.length

/-- What is read stands behind what was read before. -/
def prepend {α : Type} (front : List α) : List α × List Char → List α × List Char
  | (xs, rest) => (front ++ xs, rest)

theorem map_prepend_bind {α : Type} (r : Except Stop (List α × List Char)) (front more : List α) :
    (r >>= fun (xs, rest) => .ok (more ++ xs, rest)).map (prepend front) =
      r.map (prepend (front ++ more)) := by
  cases r with
  | error stop => rfl
  | ok read => simp [Except.map, ok_bind, prepend]

/-- A loop whose turns do what those of a reader do, and go forward, does what the reader does. It does
not get to its bound. -/
theorem accords_loop {turn : σ → Walker (ForInStep σ)} {read : σ → Reader (ForInStep σ)}
    {whole : Nat → σ → Reader σ} (ht : ∀ x, Retraces text limit depth (turn x) (read x))
    (ha : Advances read) (hw : Unrolls read whole) {bound : Nat} {x : σ} {rest : List Char}
    {t : Trail} (h : Stands text limit depth rest t) (hb : rest.length < bound) :
    Accords text limit depth ((Walker.loop turn bound x).run t) (whole bound x rest) := by
  induction bound generalizing x rest t with
  | zero => exact absurd hb (Nat.not_lt_zero _)
  | succ bound ih =>
    rw [hw, Walker.loop]
    have hstart := h.inside
    refine h.cursor.then fun h => (ht x h).bind fun {step next _} hr hn => ?_
    cases step with
    | done y => exact hn.pure y
    | yield y =>
      have hl := ha hr
      refine hn.cursor.then fun hn => ih (hn.addTurn ⟨hstart, hn.inside, ?_, rfl⟩) (by omega)
      exact offsetOf_lt h.suffix hn.suffix hl

end Loops

end LiteralBridge.Literal
