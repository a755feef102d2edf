import EspS31.ForStd.ByteRange
import EspS31.Native.PayloadMem

/-!
# The stores of `memcpy` and `memset`

Into ordinary memory both functions write the right bytes.  What they write into
a register file depends on the widths of the stores: `memcpy` stores words only if
the source is aligned too, `memset` never.

## Key results

- `memcpy_spec`: the memory after `memcpy` and the stores it makes
- `word_stores_iff`: when the stores to an aligned target are whole words
-/

namespace EspS31.PayloadMem

open ByteMem

/-! ## The property -/

/-- The bytes a store writes, each with its address. -/
def Store.bytes : Store → List (Addr × Byte)
  | .word a v => (List.range 4).map fun i => (off a i, v.extractLsb' (8 * i) 8)
  | .byte a v => [(a, v)]

/-- `n` bytes in stores of four. -/
structure WordStores (n : Nat) (stores : List Store) : Prop where
  length : stores.length = n / 4
  words : ∀ st ∈ stores, st.isWord

/-- The copy stores words that together write the source bytes in order. -/
structure CopiesWords (dst src : Addr) (n : Nat) (m : Mem) : Prop where
  stores : WordStores n (memcpy dst src n m).2
  bytes : (memcpy dst src n m).2.flatMap Store.bytes =
    (List.range n).map fun i => (off dst i, m (off src i))

/-- Source and destination have no byte in common. -/
def Apart (dst src : Addr) (n : Nat) : Prop := ∀ i j, i < n → j < n → off dst i ≠ off src j

/-! ## The loops -/

section

variable {dst src : Addr} {k n N : Nat} {m : Mem}

/-- The source is not overwritten. -/
private theorem overwrite_source (hapart : Apart dst src N) (hk : k ≤ N) {j : Nat} (hj : j < N)
    (f : Nat → Byte) : overwrite m dst 0 k f (off src j) = m (off src j) := by
  apply overwrite_of_not_mem
  rintro ⟨-, hlt⟩
  exact hapart _ j (by omega) hj (off_toNat_sub dst (off src j))

/-- The byte loop, after `k` bytes have been copied. -/
private theorem copyBytes_spec (hapart : Apart dst src N) (hN : N ≤ 2 ^ 32) (hn : k + n ≤ N) :
    copyBytes (off dst k) (off src k) n (overwrite m dst 0 k fun i => m (off src i)) =
      (overwrite m dst 0 (k + n) fun i => m (off src i),
        (List.range n).map fun i => .byte (off dst (k + i)) (m (off src (k + i)))) := by
  induction n generalizing k with
  | zero => rfl
  | succ n ih =>
    -- the source has not been written, so the byte loaded is the original one
    have hload := overwrite_source (m := m) hapart (show k ≤ N by omega) (show k < N by omega)
      fun i => m (off src i)
    have hstore : Function.update (overwrite m dst 0 k fun i => m (off src i)) (off dst k)
        (m (off src k)) = overwrite m dst 0 (k + 1) fun i => m (off src i) :=
      update_overwrite_up (Nat.zero_le k) (by omega) rfl
    simp only [copyBytes, off_off, hload, hstore, ih (show k + 1 + n ≤ N by omega)]
    rw [List.range_succ_eq_map, List.map_cons, List.map_map]
    simp only [Nat.add_zero, Prod.mk.injEq, Nat.add_right_comm k 1 n, Nat.add_assoc,
      List.cons.injEq, true_and, Nat.add_comm 1]
    rfl

/-- The word loop, after `k` bytes have been copied; fewer than four are left. -/
private theorem copyWords_spec {q r : Nat} (hapart : Apart dst src N) (hN : N ≤ 2 ^ 32) (hr : r < 4)
    (hn : k + 4 * q ≤ N) :
    copyWords (off dst k) (off src k) (4 * q + r) (overwrite m dst 0 k fun i => m (off src i)) =
      ((overwrite m dst 0 (k + 4 * q) fun i => m (off src i),
        (List.range q).map fun i =>
          .word (off dst (k + 4 * i)) (loadWord m (off src (k + 4 * i)))),
        ⟨off dst (k + 4 * q), off src (k + 4 * q), r⟩) := by
  induction q generalizing k with
  | zero =>
    obtain rfl | rfl | rfl | rfl : r = 0 ∨ r = 1 ∨ r = 2 ∨ r = 3 := by omega
    all_goals rfl
  | succ q ih =>
    -- the words written so far are not those still to be read
    have hload : loadWord (overwrite m dst 0 k fun i => m (off src i)) (off src k) =
        loadWord m (off src k) := by
      apply loadWord_congr
      intro j hj
      rw [off_off]
      exact overwrite_source hapart (by omega) (by omega) _
    have hstore : storeWord (overwrite m dst 0 k fun i => m (off src i)) (off dst k)
        (loadWord m (off src k)) = overwrite m dst 0 (k + 4) fun i => m (off src i) := by
      apply storeWord_overwrite_up (Nat.zero_le k) (by omega)
      intro i hi
      rw [loadWord_byte m _ hi, off_off]
    have hsplit : 4 * (q + 1) + r = (4 * q + r) + 4 := by omega
    rw [hsplit, copyWords]
    simp only [off_off, hload, hstore, ih (show k + 4 + 4 * q ≤ N by omega)]
    rw [List.range_succ_eq_map, List.map_cons, List.map_map]
    -- the words of the rest, counted from this one
    have hk : ∀ i, k + 4 + 4 * i = k + 4 * (i + 1) := fun i => by omega
    simp only [hk, Nat.mul_zero, Nat.add_zero]
    rfl

/-- All stores of the byte loop of `memset` are bytes. -/
private theorem setBytes_stores (d : Addr) (c : Byte) (n : Nat) (m : Mem) :
    (setBytes d c n m).2 = (List.range n).map fun i => .byte (off d i) c := by
  induction n generalizing d m with
  | zero => rfl
  | succ n ih =>
    simp only [setBytes, ih, off_off]
    rw [List.range_succ_eq_map, List.map_cons, List.map_map, off_zero]
    simp only [Nat.add_comm 1]
    rfl

end

/-! ## `memcpy` -/

/-- The low two bits are zero exactly at a word boundary. -/
private theorem and_3_eq_zero_iff (a : Addr) : a &&& 3#32 = 0#32 ↔ a.toNat % 4 = 0 := by
  rw [← BitVec.toNat_inj, BitVec.toNat_and]
  exact Eq.congr_left (Nat.and_two_pow_sub_one_eq_mod a.toNat 2)

section

variable {dst src : Addr} {n : Nat} {m : Mem}

/-- The memory is right whatever the alignment; the stores are words, then bytes,
    if both pointers are aligned, and bytes otherwise. -/
theorem memcpy_spec (hn : n < 2 ^ 32) (hapart : Apart dst src n) :
    (memcpy dst src n m).1 = overwrite m dst 0 n (fun i => m (off src i)) ∧
      (memcpy dst src n m).2 =
        if n ≥ 4 ∧ dst.toNat % 4 = 0 ∧ src.toNat % 4 = 0 then
          ((List.range (n / 4)).map fun i =>
            .word (off dst (4 * i)) (loadWord m (off src (4 * i)))) ++
          (List.range (n % 4)).map fun i =>
            .byte (off dst (4 * (n / 4) + i)) (m (off src (4 * (n / 4) + i)))
        else (List.range n).map fun i => .byte (off dst i) (m (off src i)) := by
  -- nothing is written before the first byte
  have hstart : overwrite m dst 0 0 (fun i => m (off src i)) = m := overwrite_empty ..
  simp only [memcpy, and_3_eq_zero_iff]
  split
  -- whole words first, then the bytes that are left
  · have hwords := copyWords_spec (k := 0) (q := n / 4) (r := n % 4) (m := m) hapart (by omega)
      (by omega) (by omega)
    rw [hstart, off_zero, off_zero, Nat.div_add_mod] at hwords
    simp only [Nat.zero_add] at hwords
    have hbytes := copyBytes_spec (k := 4 * (n / 4)) (n := n % 4) (m := m) hapart (by omega)
      (by omega)
    rw [hwords, hbytes, Nat.div_add_mod]
    exact ⟨rfl, rfl⟩
  · have hbytes := copyBytes_spec (k := 0) (n := n) (m := m) hapart (by omega) (by omega)
    rw [hstart, off_zero, off_zero] at hbytes
    rw [hbytes]
    simp only [Nat.zero_add, and_self]

/-- The bytes of consecutive words. -/
private theorem bytes_of_words (dst src : Addr) (m : Mem) (q : Nat) :
    ((List.range q).map fun i =>
        Store.word (off dst (4 * i)) (loadWord m (off src (4 * i)))).flatMap Store.bytes =
      (List.range (4 * q)).map fun i => (off dst i, m (off src i)) := by
  induction q with
  | zero => rfl
  | succ q ih =>
    have hlast : Store.bytes (.word (off dst (4 * q)) (loadWord m (off src (4 * q)))) =
        (List.range 4).map fun i => (off dst (4 * q + i), m (off src (4 * q + i))) := by
      apply List.map_congr_left
      intro i hi
      rw [loadWord_byte m _ (List.mem_range.mp hi), off_off, off_off]
    rw [List.range_succ, List.map_append, List.flatMap_append, ih, List.map_singleton,
      List.flatMap_singleton, hlast, Nat.mul_succ, List.range_add, List.map_append, List.map_map]
    rfl

/-- Byte stores are no word stores, unless there are none. -/
private theorem wordStores_bytes_iff (hn : n % 4 = 0) (f : Nat → Store)
    (hf : ∀ i, (f i).isWord = false) :
    WordStores n ((List.range n).map f) ↔ n = 0 := by
  constructor
  · intro h
    by_contra hpos
    have hmem : f 0 ∈ (List.range n).map f :=
      List.mem_map_of_mem (List.mem_range.mpr (Nat.pos_of_ne_zero hpos))
    have hword := h.words _ hmem
    rw [hf] at hword
    exact nomatch hword
  · rintro rfl
    exact ⟨rfl, fun st hst => nomatch hst⟩

/-- For a word-aligned target and a length in words: `memcpy` stores words that
    write the source bytes in order exactly if the source is aligned too or there
    is nothing to copy, and `memset` stores words exactly if there is nothing to
    set. -/
theorem word_stores_iff (c : BitVec 32) (hdst : dst.toNat % 4 = 0) (hwords : n % 4 = 0)
    (hn : n < 2 ^ 32) (hapart : Apart dst src n) :
    (CopiesWords dst src n m ↔ n = 0 ∨ src.toNat % 4 = 0) ∧
      (WordStores n (memset dst c n m).2 ↔ n = 0) := by
  obtain ⟨-, hstores⟩ := memcpy_spec (m := m) hn hapart
  refine ⟨?_, ?_⟩
  · by_cases haligned : n ≥ 4 ∧ dst.toNat % 4 = 0 ∧ src.toNat % 4 = 0
    · rw [if_pos haligned, hwords, List.range_zero, List.map_nil, List.append_nil] at hstores
      refine iff_of_true ⟨?_, ?_⟩ (.inr haligned.2.2)
      · rw [hstores]
        refine ⟨by rw [List.length_map, List.length_range], fun st hst => ?_⟩
        obtain ⟨i, -, rfl⟩ := List.mem_map.mp hst
        rfl
      · rw [hstores, bytes_of_words, Nat.mul_div_cancel' (Nat.dvd_of_mod_eq_zero hwords)]
    · rw [if_neg haligned] at hstores
      have hbytes := wordStores_bytes_iff hwords
        (fun i => .byte (off dst i) (m (off src i))) fun _ => rfl
      rw [← hstores] at hbytes
      -- with nothing to copy there are no stores, else the first one is a byte
      constructor
      · exact fun h => .inl (hbytes.mp h.stores)
      · intro h
        have hzero : n = 0 := by omega
        refine ⟨hbytes.mpr hzero, ?_⟩
        rw [hstores, hzero]
        rfl
  · rw [memset, setBytes_stores]
    exact wordStores_bytes_iff hwords _ fun _ => rfl

end

/-- Ranges a megabyte apart. -/
private theorem apart_of_far {dst src : Addr} {n : Nat} (hlt : dst.toNat + 0x100000 ≤ src.toNat)
    (hsrc : src.toNat + 0x100000 ≤ 2 ^ 32) (hn : n ≤ 0x100000) : Apart dst src n := by
  intro i j hi hj heq
  have hnat := congrArg BitVec.toNat heq
  rw [off_toNat, off_toNat] at hnat
  omega

/-- Sixteen bytes from an aligned buffer are copied in four words. -/
theorem word_stores_aligned :
    CopiesWords 0x20100000#32 0x40200000#32 16 (fun a => a.setWidth 8) := by
  have hapart : Apart 0x20100000#32 0x40200000#32 16 :=
    apart_of_far (by decide) (by decide) (by decide)
  exact (word_stores_iff 0 rfl rfl (by decide) hapart).1.mpr (.inr rfl)

/-- From an odd address the same sixteen bytes are copied one by one, and `memset`
    clears the slot byte by byte. -/
theorem byte_stores :
    ∃ (dst src : Addr) (n : Nat) (m : Mem) (c : BitVec 32),
      dst.toNat % 4 = 0 ∧ n % 4 = 0 ∧ n < 2 ^ 32 ∧ Apart dst src n ∧
      ¬ CopiesWords dst src n m ∧ ¬ WordStores n (memset dst c n m).2 := by
  refine ⟨0x20100000#32, 0x40200001#32, 16, fun a => a.setWidth 8, 0, rfl, rfl, by decide,
    apart_of_far (by decide) (by decide) (by decide), fun h => ?_, fun h => ?_⟩
  · exact absurd h.stores.length (by decide)
  · exact absurd h.length (by decide)

end EspS31.PayloadMem
