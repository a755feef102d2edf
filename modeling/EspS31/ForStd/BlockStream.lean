import Mathlib.Algebra.Ring.Nat
import Mathlib.Data.List.Basic

/-!
# Functions of a stream of blocks

A state is updated by the full blocks of a list, one after the other.  What is left
behind the last full block waits for more.

## Key results

- `absorb_append_short`, `absorb_append_full`: a list that grows by a part of a block
- `absorb_append`: a list that grows at the end of a block
-/

namespace BlockStream

variable {σ α : Type}

/-- The state after `k` blocks of `n` elements. -/
def absorbN (f : σ → List α → σ) (n : Nat) : Nat → σ → List α → σ
  | 0, s, _ => s
  | k + 1, s, l => absorbN f n k (f s (l.take n)) (l.drop n)

/-- The state after the full blocks of a list. -/
def absorb (f : σ → List α → σ) (n : Nat) (s : σ) (l : List α) : σ :=
  absorbN f n (l.length / n) s l

/-- What is left behind the full blocks. -/
def tail (n : Nat) (l : List α) : List α := l.drop (n * (l.length / n))

variable (f : σ → List α → σ) {n : Nat}

/-- What is left over is shorter than a block. -/
theorem length_tail (n : Nat) (l : List α) : (tail n l).length = l.length % n := by
  rw [tail, List.length_drop]
  have := Nat.div_add_mod l.length n
  omega

/-- Blocks can be absorbed in two goes. -/
theorem absorbN_add (j k : Nat) (s : σ) (l : List α) :
    absorbN f n (j + k) s l = absorbN f n k (absorbN f n j s l) (l.drop (n * j)) := by
  induction j generalizing s l with
  | zero => rw [Nat.zero_add, Nat.mul_zero, List.drop_zero, absorbN]
  | succ j ih =>
    rw [Nat.add_right_comm, absorbN, ih, absorbN, List.drop_drop, Nat.mul_succ, Nat.add_comm n]

/-- The blocks do not depend on what is behind them. -/
theorem absorbN_append {k : Nat} (s : σ) (l xs : List α) (h : n * k ≤ l.length) :
    absorbN f n k s (l ++ xs) = absorbN f n k s l := by
  induction k generalizing s l with
  | zero => rfl
  | succ k ih =>
    rw [Nat.mul_succ] at h
    rw [absorbN, absorbN, List.take_append_of_le_length (by omega),
      List.drop_append_of_le_length (by omega), ih]
    rw [List.length_drop]
    omega

/-- The tail grows while it is shorter than a block. -/
theorem absorb_append_short (s : σ) {l xs : List α} (h : (tail n l).length + xs.length < n) :
    absorb f n s (l ++ xs) = absorb f n s l ∧ tail n (l ++ xs) = tail n l ++ xs := by
  have hpos : 0 < n := by omega
  have hdiv : (l ++ xs).length / n = l.length / n := by
    rw [length_tail] at h
    rw [List.length_append]
    conv_lhs => rw [← Nat.div_add_mod l.length n, Nat.add_assoc, Nat.mul_add_div hpos,
      Nat.div_eq_of_lt h, Nat.add_zero]
  have hle : n * (l.length / n) ≤ l.length := Nat.mul_div_le ..
  constructor
  · rw [absorb, hdiv, absorbN_append f s l xs hle, absorb]
  · rw [tail, hdiv, List.drop_append_of_le_length hle, tail]

/-- A full tail is a block. -/
theorem absorb_append_full (s : σ) {l xs : List α} (hpos : 0 < n)
    (h : (tail n l).length + xs.length = n) :
    absorb f n s (l ++ xs) = f (absorb f n s l) (tail n l ++ xs) ∧ tail n (l ++ xs) = [] := by
  -- the part that is left over is filled up, which makes one block more
  have hdiv : (l ++ xs).length / n = l.length / n + 1 := by
    rw [length_tail] at h
    rw [List.length_append]
    conv_lhs => rw [← Nat.div_add_mod l.length n, Nat.add_assoc, Nat.mul_add_div hpos, h,
      Nat.div_self hpos]
  have hle : n * (l.length / n) ≤ l.length := Nat.mul_div_le ..
  constructor
  · rw [absorb, hdiv, absorbN_add, absorbN_append f s l xs hle, List.drop_append_of_le_length hle,
      absorbN, absorbN, ← tail, List.take_of_length_le (by rw [List.length_append]; omega), absorb]
  · have hlen : (tail n (l ++ xs)).length = 0 := by
      rw [length_tail, List.length_append, ← Nat.div_add_mod l.length n, ← length_tail n l,
        Nat.add_assoc, h, ← Nat.mul_succ, Nat.mul_mod_right]
    exact List.eq_nil_of_length_eq_zero hlen

end BlockStream
