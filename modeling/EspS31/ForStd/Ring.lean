import Mathlib.Algebra.Ring.Nat
import Mathlib.Data.List.Basic
import Mathlib.Logic.Function.Basic

/-!
# Rings as bounded double-ended queues

A `RingBuffer α` is a window of `count` consecutive slots, starting at `head`, on a
circle of `cap` slots.  The bounds are carried as proof fields, so every
operation discharges them once and the list view `toList` needs no side
condition.

The bridge lemmas relate each operation to its list counterpart:

* `toList_pushBack`   appends
* `toList_pushFront`  prepends
* `toList_rotate`     drops the first element and appends (full ring)
* `toList_popFront`   drops the first element
-/

/-- A window of `count` slots starting at `head` on a circle of `cap` slots. -/
structure RingBuffer (α : Type) where
  cap : Nat
  head : Nat
  count : Nat
  slots : Nat → α
  head_lt : head < cap
  count_le : count ≤ cap

namespace RingBuffer

variable {α : Type}

/-! ## Index arithmetic on the circle -/

/-- Walking `i ≤ cap` slots from an index below `cap` wraps at most once. -/
theorem wrap_eq {cap h i : Nat} (hh : h < cap) (hi : i ≤ cap) :
    (h + i) % cap = if h + i < cap then h + i else h + i - cap := by
  split
  · next hlt => exact Nat.mod_eq_of_lt hlt
  · next hge =>
    rw [Nat.mod_eq_sub_mod (by omega), Nat.mod_eq_of_lt (by omega)]

/-- Distinct offsets short of a full turn reach distinct slots. -/
theorem wrap_ne {cap h i j : Nat} (hh : h < cap) (hij : i < j) (hj : j < cap) :
    (h + i) % cap ≠ (h + j) % cap := by
  rw [wrap_eq hh (by omega), wrap_eq hh (by omega)]
  split <;> split <;> omega

/-- Walking on from the slot after `h` is walking one slot further from `h`. -/
theorem wrap_succ {cap h i : Nat} :
    ((h + 1) % cap + i) % cap = (h + (i + 1)) % cap := by
  rw [Nat.mod_add_mod]
  congr 1
  omega

/-- Walking one slot further from the slot before `h` is walking from `h`. -/
theorem wrap_pred {cap h i : Nat} (hh : h < cap) :
    ((h + cap - 1) % cap + (i + 1)) % cap = (h + i) % cap := by
  rw [Nat.mod_add_mod, show h + cap - 1 + (i + 1) = h + i + cap by omega, Nat.add_mod_right]

/-! ## The list view -/

/-- The elements of the window, first to last. -/
def toList (r : RingBuffer α) : List α :=
  (List.range r.count).map fun i => r.slots ((r.head + i) % r.cap)

/-- The list has `count` items. -/
@[simp] theorem length_toList (r : RingBuffer α) : r.toList.length = r.count := by
  simp only [toList, List.length_map, List.length_range]

/-- Two windows with the same elements offset by offset have the same list view. -/
theorem map_range_congr {n : Nat} {f g : Nat → α} (h : ∀ i < n, f i = g i) :
    (List.range n).map f = (List.range n).map g :=
  List.map_congr_left fun i hi => h i (List.mem_range.mp hi)

/-- Writing a slot outside the window leaves the window's elements alone. -/
theorem slots_update_of_ne {slots : Nat → α} {cap h n k : Nat} {x : α}
    (hk : ∀ i < n, (h + i) % cap ≠ k) :
    ((List.range n).map fun i => Function.update slots k x ((h + i) % cap)) =
      (List.range n).map fun i => slots ((h + i) % cap) :=
  map_range_congr fun i hi => Function.update_of_ne (hk i hi) x slots

/-! ## Operations -/

/-- Forget the contents. -/
def clear (r : RingBuffer α) : RingBuffer α where
  cap := r.cap
  head := 0
  count := 0
  slots := r.slots
  head_lt := Nat.zero_lt_of_lt r.head_lt
  count_le := Nat.zero_le _

/-- Write the slot after the window and take it into the window. -/
def pushBack (r : RingBuffer α) (x : α) (h : r.count < r.cap) : RingBuffer α where
  cap := r.cap
  head := r.head
  count := r.count + 1
  slots := Function.update r.slots ((r.head + r.count) % r.cap) x
  head_lt := r.head_lt
  count_le := h

/-- Write the slot before the window and take it into the window. -/
def pushFront (r : RingBuffer α) (x : α) (h : r.count < r.cap) : RingBuffer α where
  cap := r.cap
  head := (r.head + r.cap - 1) % r.cap
  count := r.count + 1
  slots := Function.update r.slots ((r.head + r.cap - 1) % r.cap) x
  head_lt := Nat.mod_lt _ (Nat.zero_lt_of_lt r.head_lt)
  count_le := h

/-- Overwrite the first slot of a full ring and make it the last one. -/
def rotate (r : RingBuffer α) (x : α) : RingBuffer α where
  cap := r.cap
  head := (r.head + 1) % r.cap
  count := r.count
  slots := Function.update r.slots r.head x
  head_lt := Nat.mod_lt _ (Nat.zero_lt_of_lt r.head_lt)
  count_le := r.count_le

/-- Give up the first slot of the window. -/
def popFront (r : RingBuffer α) : RingBuffer α where
  cap := r.cap
  head := (r.head + 1) % r.cap
  count := r.count - 1
  slots := r.slots
  head_lt := Nat.mod_lt _ (Nat.zero_lt_of_lt r.head_lt)
  count_le := by have := r.count_le; omega

/-! ## Bridge lemmas to lists -/

/-- A cleared ring is empty. -/
@[simp] theorem toList_clear (r : RingBuffer α) : r.clear.toList = [] := rfl

/-- `pushBack` appends the item. -/
theorem toList_pushBack (r : RingBuffer α) (x : α) (h : r.count < r.cap) :
    (r.pushBack x h).toList = r.toList ++ [x] := by
  simp only [toList, pushBack, List.range_succ, List.map_append, List.map_cons, List.map_nil,
    Function.update_self]
  rw [slots_update_of_ne fun i hi => wrap_ne r.head_lt hi h]

/-- `pushFront` puts the item first. -/
theorem toList_pushFront (r : RingBuffer α) (x : α) (h : r.count < r.cap) :
    (r.pushFront x h).toList = x :: r.toList := by
  have hh := r.head_lt
  simp only [toList, pushFront, List.range_succ_eq_map, List.map_cons, List.map_map,
    Nat.add_zero, Nat.mod_mod, Function.update_self]
  congr 1
  apply map_range_congr
  intro i hi
  simp only [Function.comp_apply, wrap_pred hh]
  -- the new first slot is the one `cap - 1` slots after the old head
  have hne : (r.head + i) % r.cap ≠ (r.head + (r.cap - 1)) % r.cap :=
    wrap_ne hh (by omega) (by omega)
  rw [show r.head + r.cap - 1 = r.head + (r.cap - 1) by omega]
  exact Function.update_of_ne hne x r.slots

/-- The window without its first slot, whatever is written into that slot. -/
private theorem toList_advance (r : RingBuffer α) (n : Nat) (hn : n < r.cap) (x : α) :
    ((List.range n).map fun i =>
      Function.update r.slots r.head x (((r.head + 1) % r.cap + i) % r.cap)) =
      (List.range n).map fun i => r.slots ((r.head + (i + 1)) % r.cap) := by
  apply map_range_congr
  intro i hi
  have hne : (r.head + (i + 1)) % r.cap ≠ r.head := by
    have := wrap_ne r.head_lt (Nat.succ_pos i) (show i + 1 < r.cap by omega)
    rw [Nat.add_zero, Nat.mod_eq_of_lt r.head_lt] at this
    exact this.symm
  rw [wrap_succ]
  exact Function.update_of_ne hne x r.slots

/-- A nonempty window is its first slot followed by the rest. -/
theorem toList_cons (r : RingBuffer α) (h : 0 < r.count) :
    r.toList = r.slots r.head ::
      (List.range (r.count - 1)).map fun i => r.slots ((r.head + (i + 1)) % r.cap) := by
  obtain ⟨n, hn⟩ : ∃ n, r.count = n + 1 := ⟨r.count - 1, by omega⟩
  simp only [toList, hn, List.range_succ_eq_map, List.map_cons, List.map_map, Nat.add_zero,
    Nat.mod_eq_of_lt r.head_lt, Nat.add_sub_cancel]
  rfl

/-- On a full ring, `rotate` drops the oldest item for the new one. -/
theorem toList_rotate (r : RingBuffer α) (x : α) (h : r.count = r.cap) :
    (r.rotate x).toList = r.toList.tail ++ [x] := by
  have hh := r.head_lt
  obtain ⟨n, hn⟩ : ∃ n, r.cap = n + 1 := ⟨r.cap - 1, by omega⟩
  rw [toList_cons r (by omega), List.tail_cons, ← toList_advance r _ (by omega) x]
  simp only [toList, rotate, h, hn, List.range_succ, List.map_append, List.map_cons, List.map_nil,
    Nat.add_sub_cancel]
  congr 2
  -- the last slot of the rotated window is the old head
  rw [wrap_succ, ← hn, Nat.add_mod_right, Nat.mod_eq_of_lt hh, Function.update_self]

/-- `popFront` takes the oldest item out. -/
theorem toList_popFront (r : RingBuffer α) (h : 0 < r.count) :
    r.popFront.toList = r.toList.tail := by
  have hle := r.count_le
  rw [toList_cons r h, List.tail_cons, ← toList_advance r _ (by omega) (r.slots r.head)]
  simp only [toList, popFront, Function.update_eq_self]

end RingBuffer
