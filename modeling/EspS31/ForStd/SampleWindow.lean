import EspS31.ForStd.TracedBuffer

/-!
# The first samples since a restart

A buffer of a fixed capacity takes samples until it is full and is used again from the
start after a restart.

## Key results

- `Shows.offer`, `Shows.restart`: what the window shows
-/

/-- The buffer, and how many samples it shows. -/
structure SampleWindow (α : Type) where
  buf : TracedBuffer α
  count : Nat

namespace SampleWindow

variable {α : Type}

/-- One more sample, if there is room. -/
def offer (capacity : Nat) (w : SampleWindow α) (x : α) : SampleWindow α :=
  if w.count < capacity then ⟨w.buf.put w.count x, w.count + 1⟩ else w

/-- The window with the count at zero; the cells stay. -/
def restart (w : SampleWindow α) : SampleWindow α := { w with count := 0 }

/-- The window shows the first `capacity` of `xs`, and all writes were below the
    capacity. -/
structure Shows (capacity : Nat) (w : SampleWindow α) (xs : List α) : Prop where
  shown : w.buf.read w.count = xs.take capacity
  inside : ∀ i ∈ w.buf.written, i < capacity

variable {capacity : Nat} {w : SampleWindow α} {xs : List α}

/-- The count is the number of samples, up to the capacity. -/
theorem Shows.count (h : Shows capacity w xs) : w.count = min capacity xs.length := by
  rw [← TracedBuffer.length_read w.buf w.count, h.shown, List.length_take]

/-- After a restart the window shows nothing. -/
theorem Shows.restart (h : Shows capacity w xs) : Shows capacity w.restart [] where
  shown := by simp [SampleWindow.restart, TracedBuffer.read]
  inside := h.inside

/-- A further sample is shown while there is room. -/
theorem Shows.offer (h : Shows capacity w xs) (x : α) :
    Shows capacity (w.offer capacity x) (xs ++ [x]) := by
  have hcount := h.count
  rw [SampleWindow.offer]
  split
  -- there is room, so all samples are shown and the new one behind them
  · next hroom =>
    have hshort : xs.length < capacity := by omega
    constructor
    · have hread := TracedBuffer.read_puts w.buf w.count [x]
      rw [h.shown, List.take_of_length_le (by omega)] at hread
      rw [List.take_of_length_le (by simp; omega)]
      exact hread
    · intro i hi
      obtain rfl | hold := List.mem_cons.mp hi
      · exact hroom
      · exact h.inside i hold
  -- the window is full and keeps the first samples
  · next hfull =>
    constructor
    · rw [h.shown, List.take_append_of_le_length (by omega)]
    · exact h.inside

end SampleWindow
