/-!
# Words

Counts and positions are words of 64 bits. An operation whose result is too large for a word stops the
program, which is an outcome of its own here.
-/

namespace LiteralBridge

/-- Why the program stops without an answer. -/
inductive Panic where
  | overflow
deriving DecidableEq

namespace Word

/-- The number of values of a word. -/
def size : Nat := 0x10000000000000000

def ofNat (n : Nat) : Except Panic Nat :=
  if n < size then .ok n else .error .overflow

def add (a b : Nat) : Except Panic Nat :=
  ofNat (a + b)

def mul (a b : Nat) : Except Panic Nat :=
  ofNat (a * b)

/-! ## Laws -/

theorem ofNat_of_lt {n : Nat} (h : n < size) : ofNat n = .ok n :=
  if_pos h

theorem ofNat_of_le {n : Nat} (h : size ≤ n) : ofNat n = .error .overflow :=
  if_neg (Nat.not_lt.mpr h)

/-- A product that is too large is so with a summand too. -/
theorem mul_bind_add (a b c : Nat) : (mul a b >>= fun product => add product c) = ofNat (a * b + c) := by
  by_cases h : a * b < size
  · rw [mul, ofNat_of_lt h]
    rfl
  · have hle : size ≤ a * b := Nat.not_lt.mp h
    rw [mul, ofNat_of_le hle, ofNat_of_le (Nat.le_trans hle (Nat.le_add_right ..))]
    rfl

end Word

end LiteralBridge
