import EspS31.ForStd.ByteMem

/-!
# Ranges of bytes written by a loop

`overwrite mem a lo hi f` is the memory whose bytes `lo ≤ i < hi` from `a` on are
`f i`.  A loop that fills or copies a range leaves such a memory after each round,
whether a round stores a byte, a word or a block and whether it goes up or down.

## Key results

- `overwrite_up`, `overwrite_down`: a range grows at either end
- `update_overwrite_up`, `storeWord_overwrite_up`, `storeBlock_overwrite_up`: one store of
  a loop that goes up
- `update_overwrite_down`, `storeBlock_overwrite_down`: one store of a loop that goes down
-/

namespace ByteMem

/-- The bytes `lo ≤ i < hi` from `a` on replaced by `f i`. -/
def overwrite (mem : Mem) (a : Addr) (lo hi : Nat) (f : Nat → Byte) : Mem := fun x =>
  if lo ≤ (x - a).toNat ∧ (x - a).toNat < hi then f (x - a).toNat else mem x

variable {mem : Mem} {a x : Addr} {lo mid hi k : Nat} {f g : Nat → Byte}

/-- The distance of an offset from its base is the offset. -/
theorem off_sub_self (a : Addr) {i : Nat} (hi : i < 2 ^ 32) : (off a i - a).toNat = i := by
  rw [BitVec.toNat_sub, off_toNat]
  have := a.isLt
  omega

/-- The byte of the range at an address. -/
theorem off_toNat_sub (a x : Addr) : off a (x - a).toNat = x := by
  apply BitVec.eq_of_toNat_eq
  rw [off_toNat, BitVec.toNat_sub]
  have := a.isLt
  have := x.isLt
  omega

/-- A byte of the overwritten memory, by its offset. -/
theorem overwrite_off {i : Nat} (hi' : i < 2 ^ 32) :
    overwrite mem a lo hi f (off a i) = if lo ≤ i ∧ i < hi then f i else mem (off a i) := by
  simp only [overwrite, off_sub_self a hi']

/-- In the range, the byte is the new one. -/
theorem overwrite_of_mem {i : Nat} (h : lo ≤ i ∧ i < hi) (hi' : i < 2 ^ 32) :
    overwrite mem a lo hi f (off a i) = f i := by
  rw [overwrite_off hi', if_pos h]

/-- Out of the range, the byte is the old one. -/
theorem overwrite_of_not_mem (h : ¬ (lo ≤ (x - a).toNat ∧ (x - a).toNat < hi)) :
    overwrite mem a lo hi f x = mem x := if_neg h

/-- Nothing changes outside the range. -/
theorem overwrite_agreeOff (mem : Mem) (a : Addr) (lo hi : Nat) (f : Nat → Byte) :
    AgreeOff a hi mem (overwrite mem a lo hi f) := fun _ hx =>
  overwrite_of_not_mem fun h => hx h.2

/-- An empty range overwrites nothing. -/
theorem overwrite_empty (mem : Mem) (a : Addr) (k : Nat) (f : Nat → Byte) :
    overwrite mem a k k f = mem := by
  funext x
  exact overwrite_of_not_mem (by omega)

/-- Writing what is there. -/
theorem overwrite_self (mem : Mem) (a : Addr) (lo hi : Nat) :
    overwrite mem a lo hi (fun i => mem (off a i)) = mem := by
  funext x
  simp only [overwrite, off_toNat_sub, ite_self]

/-- Only the bytes of the range matter. -/
theorem overwrite_congr (h : ∀ i, lo ≤ i → i < hi → f i = g i) :
    overwrite mem a lo hi f = overwrite mem a lo hi g := by
  funext x
  simp only [overwrite]
  split
  · next hx => exact h _ hx.1 hx.2
  · rfl

/-- The range grows at its upper end. -/
theorem overwrite_up (hlo : lo ≤ mid) (hhi : mid ≤ hi) :
    overwrite (overwrite mem a lo mid f) a mid hi f = overwrite mem a lo hi f := by
  funext x
  simp only [overwrite]
  split
  · next hx => rw [if_pos (by omega)]
  · next hx =>
    split
    · next hx' => rw [if_pos (by omega)]
    · next hx' => rw [if_neg (by omega)]

/-- The range grows at its lower end. -/
theorem overwrite_down (hlo : lo ≤ mid) (hhi : mid ≤ hi) :
    overwrite (overwrite mem a mid hi f) a lo mid f = overwrite mem a lo hi f := by
  funext x
  simp only [overwrite]
  split
  · next hx => rw [if_pos (by omega)]
  · next hx =>
    split
    · next hx' => rw [if_pos (by omega)]
    · next hx' => rw [if_neg (by omega)]

/-- A range that begins further up. -/
theorem overwrite_shift {n : Nat} (hk : k + n ≤ 2 ^ 32) (h : ∀ i < n, f i = g (k + i)) :
    overwrite mem (off a k) 0 n f = overwrite mem a k (k + n) g := by
  funext x
  -- the distance from the new base, also where the addresses wrap around
  have hsub : (x - off a k).toNat = ((x - a).toNat + (2 ^ 32 - k)) % 2 ^ 32 := by
    rw [BitVec.toNat_sub, BitVec.toNat_sub, off_toNat]
    have := a.isLt
    have := x.isLt
    omega
  have hlt := (x - a).isLt
  simp only [overwrite, Nat.zero_le, true_and]
  by_cases hx : k ≤ (x - a).toNat ∧ (x - a).toNat < k + n
  · have hpos : (x - off a k).toNat = (x - a).toNat - k := by omega
    rw [if_pos (by omega), if_pos hx, hpos, h _ (by omega)]
    congr 1
    omega
  · rw [if_neg (by omega), if_neg hx]

/-- The same overwriting on both sides keeps the agreement. -/
theorem AgreeOff.congr_overwrite {base : Addr} {n : Nat} {mem' : Mem} (h : AgreeOff base n mem mem') :
    AgreeOff base n (overwrite mem a lo hi f) (overwrite mem' a lo hi f) := by
  intro x hx
  simp only [overwrite, h x hx]

/-! ## Stores -/

/-- A byte store writes a range of one byte. -/
theorem update_eq_overwrite (mem : Mem) (a : Addr) {v : Byte} (hk : k < 2 ^ 32) (hv : v = f k) :
    Function.update mem (off a k) v = overwrite mem a k (k + 1) f := by
  funext x
  by_cases hx : x = off a k
  · rw [hx, Function.update_self, overwrite_of_mem (by omega) hk, hv]
  · have hne : (x - a).toNat ≠ k := fun heq => hx (by rw [← heq, off_toNat_sub])
    rw [Function.update_of_ne hx, overwrite_of_not_mem (by omega)]

/-- A word store writes a range of four bytes. -/
theorem storeWord_eq_overwrite (mem : Mem) (a : Addr) {w : BitVec 32} (hk : k + 4 ≤ 2 ^ 32)
    (hw : ∀ i < 4, w.extractLsb' (8 * i) 8 = f (k + i)) :
    storeWord mem (off a k) w = overwrite mem a k (k + 4) f := by
  -- the four addresses are distinct, so each byte is the one stored there
  have hbyte : ∀ j < 4, storeWord mem (off a k) w (off a (k + j)) = w.extractLsb' (8 * j) 8 := by
    intro j hj
    have hne : ∀ i < 4, i ≠ j → off a (k + j) ≠ off (off a k) i := by
      intro i hi hij heq
      rw [off_off] at heq
      have := off_inj (by omega) (by omega) heq
      omega
    simp only [storeWord]
    obtain rfl | rfl | rfl | rfl : j = 0 ∨ j = 1 ∨ j = 2 ∨ j = 3 := by omega
    · rw [if_pos (off_off ..).symm]
    · rw [if_neg (hne 0 (by omega) (by omega)), if_pos (off_off ..).symm]
    · rw [if_neg (hne 0 (by omega) (by omega)), if_neg (hne 1 (by omega) (by omega)),
        if_pos (off_off ..).symm]
    · rw [if_neg (hne 0 (by omega) (by omega)), if_neg (hne 1 (by omega) (by omega)),
        if_neg (hne 2 (by omega) (by omega)), if_pos (off_off ..).symm]
  funext x
  -- an address is one of the four or none of them
  by_cases hx : k ≤ (x - a).toNat ∧ (x - a).toNat < k + 4
  · obtain ⟨j, hj⟩ : ∃ j, (x - a).toNat = k + j := ⟨(x - a).toNat - k, by omega⟩
    rw [← off_toNat_sub a x, hj, hbyte j (by omega), hw j (by omega),
      overwrite_of_mem (by omega) (by omega)]
  · rw [overwrite_of_not_mem hx, storeWord_of_off]
    intro j hj heq
    apply hx
    rw [heq, off_off, off_sub_self a (by omega)]
    omega

/-- A store of an aligned block writes a range of sixteen bytes. -/
theorem storeBlock_eq_overwrite (mem : Mem) (a : Addr) {v : Lanes}
    (halign : (off a k).toNat % 16 = 0) (hk : k + 16 ≤ 2 ^ 32) (hv : ∀ i : Fin 16, v i = f (k + i)) :
    storeBlock mem (off a k) v = overwrite mem a k (k + 16) f := by
  funext x
  by_cases hx : k ≤ (x - a).toNat ∧ (x - a).toNat < k + 16
  · obtain ⟨j, hj⟩ : ∃ j, (x - a).toNat = k + j := ⟨(x - a).toNat - k, by omega⟩
    have hx' : x = off (off a k) j := by rw [off_off, ← hj, off_toNat_sub]
    rw [hx', storeBlock_same _ _ halign (show j < 16 by omega), hv, off_off,
      overwrite_of_mem (by omega) (by omega)]
  · rw [overwrite_of_not_mem hx, storeBlock_other]
    intro heq
    -- an address of the block is one of the sixteen from its start
    apply hx
    rw [off_toNat] at halign heq
    rw [BitVec.toNat_sub]
    have := x.isLt
    have := a.isLt
    omega

/-- A range grows upwards by a byte store. -/
theorem update_overwrite_up {v : Byte} (hlo : lo ≤ k) (hk : k < 2 ^ 32) (hv : v = f k) :
    Function.update (overwrite mem a lo k f) (off a k) v = overwrite mem a lo (k + 1) f := by
  rw [update_eq_overwrite _ _ hk hv, overwrite_up hlo (by omega)]

/-- A range grows downwards by a byte store. -/
theorem update_overwrite_down {v : Byte} (hhi : k + 1 ≤ hi) (hk : k < 2 ^ 32) (hv : v = f k) :
    Function.update (overwrite mem a (k + 1) hi f) (off a k) v = overwrite mem a k hi f := by
  rw [update_eq_overwrite _ _ hk hv, overwrite_down (by omega) hhi]

/-- A range grows upwards by a word store. -/
theorem storeWord_overwrite_up {w : BitVec 32} (hlo : lo ≤ k) (hk : k + 4 ≤ 2 ^ 32)
    (hw : ∀ i < 4, w.extractLsb' (8 * i) 8 = f (k + i)) :
    storeWord (overwrite mem a lo k f) (off a k) w = overwrite mem a lo (k + 4) f := by
  rw [storeWord_eq_overwrite _ _ hk hw, overwrite_up hlo (by omega)]

/-- A range grows upwards by a block store. -/
theorem storeBlock_overwrite_up {v : Lanes} (hlo : lo ≤ k) (halign : (off a k).toNat % 16 = 0)
    (hk : k + 16 ≤ 2 ^ 32) (hv : ∀ i : Fin 16, v i = f (k + i)) :
    storeBlock (overwrite mem a lo k f) (off a k) v = overwrite mem a lo (k + 16) f := by
  rw [storeBlock_eq_overwrite _ _ halign hk hv, overwrite_up hlo (by omega)]

/-- A range grows downwards by a block store. -/
theorem storeBlock_overwrite_down {v : Lanes} (hhi : k + 16 ≤ hi)
    (halign : (off a k).toNat % 16 = 0) (hk : k + 16 ≤ 2 ^ 32)
    (hv : ∀ i : Fin 16, v i = f (k + i)) :
    storeBlock (overwrite mem a (k + 16) hi f) (off a k) v = overwrite mem a k hi f := by
  rw [storeBlock_eq_overwrite _ _ halign hk hv, overwrite_down (by omega) hhi]

end ByteMem
