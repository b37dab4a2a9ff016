import LiteralBridge.Proofs.Literal.Readers
import LiteralBridge.Text.Cut
import Mathlib.Data.List.DropRight

/-! # Trimmed texts

What is trimmed neither begins nor ends with white space, and a text that does neither stays as it
is. -/

namespace LiteralBridge.Text

open Literal (stops_dropWhile)
open Literal.Grammar (Stops)

theorem dropEndWhile_eq_rdropWhile (p : Char → Bool) (cs : List Char) :
    dropEndWhile p cs = cs.rdropWhile p :=
  rfl

theorem getLast?_dropEndWhile (p : Char → Bool) (cs : List Char) :
    ∀ c ∈ (dropEndWhile p cs).getLast?, p c = false := by
  intro c hc
  rw [dropEndWhile, List.getLast?_reverse] at hc
  exact stops_dropWhile p cs.reverse c hc

theorem stops_dropEndWhile {p q : Char → Bool} {cs : List Char} (h : Stops p cs) :
    Stops p (dropEndWhile q cs) := by
  intro c hc
  obtain ⟨rest, hr⟩ := List.rdropWhile_prefix q cs
  rw [dropEndWhile_eq_rdropWhile] at hc
  apply h c
  rw [← hr, List.head?_append, Option.mem_def.mp hc, Option.some_or]
  rfl

theorem dropEndWhile_eq_self {p : Char → Bool} {cs : List Char}
    (h : ∀ c ∈ cs.getLast?, p c = false) : dropEndWhile p cs = cs := by
  rw [dropEndWhile_eq_rdropWhile, List.rdropWhile_eq_self_iff]
  intro hne
  rw [h _ (List.getLast?_eq_some_getLast hne)]
  exact Bool.false_ne_true

/-! ## White space -/

theorem stops_trim (cs : List Char) : Stops isBlank (trim cs) :=
  stops_dropEndWhile (stops_dropWhile isBlank cs)

theorem getLast?_trim (cs : List Char) : ∀ c ∈ (trim cs).getLast?, isBlank c = false :=
  getLast?_dropEndWhile isBlank _

/-- A text is the white space in front of it, what is left after trimming, and the white space behind. -/
theorem takeWhile_append_trim (cs : List Char) :
    cs.takeWhile isBlank ++ (trim cs ++ (trimStart cs).rtakeWhile isBlank) = cs := by
  rw [trim, dropEndWhile_eq_rdropWhile, List.rdropWhile_append_rtakeWhile, trimStart,
    List.takeWhile_append_dropWhile]

/-- What is left after trimming is a part of the text. -/
theorem isInfix_trim (cs : List Char) : trim cs <:+: cs :=
  (List.rdropWhile_prefix isBlank (trimStart cs)).isInfix.trans (List.dropWhile_suffix _).isInfix

theorem trim_eq_self {cs : List Char} (hh : Stops isBlank cs)
    (hl : ∀ c ∈ cs.getLast?, isBlank c = false) : trim cs = cs := by
  have hs : trimStart cs = cs := Literal.skipBlank_eq_self hh
  rw [trim, hs, dropEndWhile_eq_self hl]

theorem mem_dropWhile {p : Char → Bool} {c : Char} {cs : List Char} (h : c ∈ cs)
    (hp : p c = false) : c ∈ cs.dropWhile p := by
  rw [← List.takeWhile_append_dropWhile (p := p) (l := cs)] at h
  refine (List.mem_append.mp h).resolve_left fun ht => ?_
  have := List.all_eq_true.mp List.all_takeWhile c ht
  rw [hp] at this
  exact Bool.false_ne_true this

/-- Only white space is trimmed off. -/
theorem mem_trim {c : Char} {cs : List Char} (h : c ∈ cs) (hb : isBlank c = false) :
    c ∈ trim cs :=
  List.mem_reverse.mpr (mem_dropWhile (List.mem_reverse.mpr (mem_dropWhile h hb)) hb)

/-- What begins with no white space begins with the same character if it is trimmed. -/
theorem head?_trim_cons {c : Char} (hb : isBlank c = false) (cs : List Char) :
    (trim (c :: cs)).head? = some c := by
  have hs : trimStart (c :: cs) = c :: cs := List.dropWhile_cons_of_neg (by simp [hb])
  have hp : trim (c :: cs) <+: c :: cs := by
    rw [trim, hs]
    exact List.rdropWhile_prefix isBlank (c :: cs)
  cases ht : trim (c :: cs) with
  | nil =>
    have hm : c ∈ trim (c :: cs) := mem_trim List.mem_cons_self hb
    simp [ht] at hm
  | cons d rest =>
    rw [ht] at hp
    rw [(List.cons_prefix_cons.mp hp).1, List.head?_cons]

end LiteralBridge.Text
