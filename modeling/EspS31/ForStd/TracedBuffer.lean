import Mathlib.Algebra.Ring.Nat
import Mathlib.Data.List.Basic
import Mathlib.Logic.Function.Basic

/-!
# Buffers that remember where they were written

A buffer of cells of any type, addressed by offset, with the offsets that have
been written.  The buffer itself has no end: that a program stays within the one
it was given is a fact about the offsets.

## Key results

- `puts_get_lt`, `read_puts`: what is in the buffer after a run of cells was written
- `mem_written_puts`: where it was written
-/

/-- The cells of a buffer, and the offsets written so far. -/
structure TracedBuffer (α : Type) where
  get : Nat → α
  written : List Nat

namespace TracedBuffer

variable {α : Type}

/-- One byte stored, and its index noted. -/
def put (b : TracedBuffer α) (i : Nat) (x : α) : TracedBuffer α where
  get := Function.update b.get i x
  written := i :: b.written

/-- Write `xs` from offset `i` on. -/
def puts (b : TracedBuffer α) (i : Nat) : List α → TracedBuffer α
  | [] => b
  | x :: xs => (b.put i x).puts (i + 1) xs

/-- The first `n` cells. -/
def read (b : TracedBuffer α) (n : Nat) : List α := (List.range n).map b.get

/-- Reading `n` elements gives `n`. -/
theorem length_read (b : TracedBuffer α) (n : Nat) : (b.read n).length = n := by
  simp only [read, List.length_map, List.length_range]

/-- Reading goes on behind what was read. -/
theorem read_add (b : TracedBuffer α) (n k : Nat) :
    b.read (n + k) = b.read n ++ (List.range k).map fun i => b.get (n + i) := by
  simp only [read, List.range_add, List.map_append, List.map_map]
  rfl

variable (b : TracedBuffer α) (i : Nat)

/-- Cells before the run are as they were. -/
theorem puts_get_lt (xs : List α) {j : Nat} (hj : j < i) : (b.puts i xs).get j = b.get j := by
  induction xs generalizing b i with
  | nil => rfl
  | cons x xs ih =>
    rw [puts, ih (b.put i x) (i + 1) (by omega)]
    exact Function.update_of_ne (by omega) ..

/-- Cells behind the run are as they were. -/
theorem puts_get_ge (xs : List α) {j : Nat} (hj : i + xs.length ≤ j) :
    (b.puts i xs).get j = b.get j := by
  induction xs generalizing b i with
  | nil => rfl
  | cons x xs ih =>
    rw [List.length_cons] at hj
    rw [puts, ih (b.put i x) (i + 1) (by omega)]
    exact Function.update_of_ne (by omega) ..

/-- The run itself. -/
theorem map_get_puts (xs : List α) :
    (List.range xs.length).map (fun k => (b.puts i xs).get (i + k)) = xs := by
  induction xs generalizing b i with
  | nil => rfl
  | cons x xs ih =>
    have hhead : (b.puts i (x :: xs)).get i = x := by
      rw [puts, puts_get_lt _ _ _ (Nat.lt_succ_self i)]
      exact Function.update_self ..
    -- what follows is stored one place further on
    have htail : (List.range xs.length).map
        ((fun k => (b.puts i (x :: xs)).get (i + k)) ∘ Nat.succ) = xs := by
      conv_rhs => rw [← ih (b.put i x) (i + 1)]
      apply List.map_congr_left
      intro k _
      rw [Function.comp_apply, puts, Nat.succ_eq_add_one, Nat.add_comm k, Nat.add_assoc]
    rw [List.length_cons, List.range_succ_eq_map, List.map_cons, List.map_map, Nat.add_zero, hhead,
      htail]

/-- Reading up to the end of the run. -/
theorem read_puts (xs : List α) : (b.puts i xs).read (i + xs.length) = b.read i ++ xs := by
  have hbefore : (b.puts i xs).read i = b.read i := by
    apply List.map_congr_left
    intro j hj
    exact puts_get_lt b i xs (List.mem_range.mp hj)
  rw [read_add, hbefore, map_get_puts]

/-- Storing two lists one behind the other. -/
theorem puts_append (xs ys : List α) :
    b.puts i (xs ++ ys) = (b.puts i xs).puts (i + xs.length) ys := by
  induction xs generalizing b i with
  | nil => rfl
  | cons x xs ih =>
    rw [List.cons_append, puts, ih, puts, List.length_cons, Nat.add_assoc, Nat.add_comm 1]

/-- A loop that writes a run. -/
theorem foldl_put (v : Nat → α) (n : Nat) :
    (List.range n).foldl (fun b k => b.put (i + k) (v k)) b = b.puts i ((List.range n).map v) := by
  induction n with
  | zero => rfl
  | succ n ih =>
    rw [List.range_succ, List.foldl_append, ih, List.map_append, puts_append, List.length_map,
      List.length_range]
    rfl

/-- A run writes its own offsets. -/
theorem mem_written_puts (xs : List α) (j : Nat) :
    j ∈ (b.puts i xs).written ↔ (i ≤ j ∧ j < i + xs.length) ∨ j ∈ b.written := by
  induction xs generalizing b i with
  | nil =>
    simp only [puts, List.length_nil, Nat.add_zero]
    exact ⟨.inr, fun h => h.resolve_left (by omega)⟩
  | cons x xs ih =>
    rw [puts, ih (b.put i x) (i + 1), List.length_cons]
    simp only [put, List.mem_cons]
    constructor
    · rintro (⟨hle, hlt⟩ | rfl | hold)
      · exact .inl ⟨by omega, by omega⟩
      · exact .inl ⟨Nat.le_refl _, by omega⟩
      · exact .inr hold
    · rintro (⟨hle, hlt⟩ | hold)
      -- the first element is at `i`, the others behind it
      · by_cases heq : j = i
        · exact .inr (.inl heq)
        · exact .inl ⟨by omega, by omega⟩
      · exact .inr (.inr hold)

/-! ## Runs at an offset -/

/-- The cells from `i` on are `xs`. -/
def Holds (get : Nat → α) (i : Nat) (xs : List α) : Prop :=
  (List.range xs.length).map (fun k => get (i + k)) = xs

/-- A buffer holds two lists in a row exactly when it holds each at its place. -/
theorem holds_append {get : Nat → α} {i : Nat} {xs ys : List α} :
    Holds get i (xs ++ ys) ↔ Holds get i xs ∧ Holds get (i + xs.length) ys := by
  have hsplit : (List.range (xs ++ ys).length).map (fun k => get (i + k)) =
      (List.range xs.length).map (fun k => get (i + k)) ++
        (List.range ys.length).map fun k => get (i + xs.length + k) := by
    rw [List.length_append, List.range_add, List.map_append, List.map_map]
    refine congrArg _ (List.map_congr_left fun k _ => ?_)
    rw [Function.comp_apply, Nat.add_assoc]
  rw [Holds, hsplit]
  constructor
  · intro h
    exact List.append_inj h (by rw [List.length_map, List.length_range])
  · rintro ⟨hxs, hys⟩
    rw [hxs, hys]

/-- Cells that are the same hold the same. -/
theorem Holds.congr {get get' : Nat → α} {i : Nat} {xs : List α} (h : Holds get i xs)
    (hsame : ∀ j, i ≤ j → j < i + xs.length → get' j = get j) : Holds get' i xs := by
  refine Eq.trans (List.map_congr_left fun k hk => ?_) h
  have hk := List.mem_range.mp hk
  exact hsame (i + k) (by omega) (by omega)

/-- A run at the start of the buffer is what is read first. -/
theorem Holds.read_eq {b : TracedBuffer α} {xs : List α} (h : Holds b.get 0 xs) {n : Nat}
    (hn : xs.length ≤ n) : ∃ rest, b.read n = xs ++ rest := by
  obtain ⟨k, rfl⟩ := Nat.exists_eq_add_of_le hn
  have hfirst : b.read xs.length = xs := by simpa [Holds, read] using h
  exact ⟨_, by rw [read_add, hfirst]⟩

/-- What was stored is held. -/
theorem holds_puts (xs : List α) : Holds (b.puts i xs).get i xs := map_get_puts b i xs

/-- A run elsewhere does not change what is held. -/
theorem Holds.puts {b : TracedBuffer α} {j : Nat} {xs : List α} (h : Holds b.get j xs) {i : Nat} {ys : List α}
    (hapart : j + xs.length ≤ i ∨ i + ys.length ≤ j) : Holds (b.puts i ys).get j xs := by
  refine h.congr fun k hk hk' => ?_
  obtain hbefore | hbehind := hapart
  · exact puts_get_lt b i ys (by omega)
  · exact puts_get_ge b i ys (by omega)

end TracedBuffer
