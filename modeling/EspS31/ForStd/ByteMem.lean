import Mathlib.Data.BitVec

/-!
# A byte memory with words and 16-byte blocks

A 32-bit address space of bytes, accessed by little-endian words and by aligned
blocks of 16 lanes (the low four address bits of a block access are ignored).

## Key results

- `loadWord_storeWord_self`, `storeWord_of_off`: a word store and its frame
- `storeBlock_same`, `storeBlock_other`: block stores
- `orWords_eq_zero_iff`, `andWords_eq_ones_iff`: reducing a block word by word
- `inFrame_congr`: a block lies in an aligned frame as a whole or not at all
-/

namespace ByteMem

/-- An address of a 32-bit machine. -/
abbrev Addr := BitVec 32
/-- A byte of memory. -/
abbrev Byte := BitVec 8
/-- A memory: a byte at each address. -/
abbrev Mem := Addr → Byte

/-- The contents of a block. -/
abbrev Lanes := Fin 16 → Byte

/-- The address `k` bytes further on. -/
def off (a : Addr) (k : Nat) : Addr := a + BitVec.ofNat 32 k

/-- The offset is taken modulo `2 ^ 32`. -/
theorem off_toNat (a : Addr) (k : Nat) : (off a k).toNat = (a.toNat + k) % 2 ^ 32 := by
  simp only [off, BitVec.toNat_add, BitVec.toNat_ofNat]
  omega

/-- No offset is the address itself. -/
theorem off_zero (a : Addr) : off a 0 = a := BitVec.add_zero a

/-- Two offsets in a row are their sum. -/
theorem off_off (a : Addr) (j k : Nat) : off (off a j) k = off a (j + k) := by
  apply BitVec.eq_of_toNat_eq
  simp only [off_toNat]
  omega

/-- Offsets below `2^32` tell addresses apart. -/
theorem off_inj {a : Addr} {j k : Nat} (hj : j < 2 ^ 32) (hk : k < 2 ^ 32)
    (h : off a j = off a k) : j = k := by
  have hnat := congrArg BitVec.toNat h
  simp only [off_toNat] at hnat
  omega

/-! ## Words -/

/-- The word at an address, the lowest byte first. -/
def loadWord (m : Mem) (a : Addr) : BitVec 32 :=
  m (off a 3) ++ m (off a 2) ++ m (off a 1) ++ m (off a 0)

/-- The memory with the four bytes of a word stored, the lowest byte first. -/
def storeWord (m : Mem) (a : Addr) (v : BitVec 32) : Mem := fun x =>
  if x = off a 0 then v.extractLsb' 0 8
  else if x = off a 1 then v.extractLsb' 8 8
  else if x = off a 2 then v.extractLsb' 16 8
  else if x = off a 3 then v.extractLsb' 24 8
  else m x

/-- A word depends on its four bytes only. -/
theorem loadWord_congr {m m' : Mem} {a : Addr} (h : ∀ k < 4, m (off a k) = m' (off a k)) :
    loadWord m a = loadWord m' a := by
  simp only [loadWord, h 0 (by omega), h 1 (by omega), h 2 (by omega), h 3 (by omega)]

/-- The four bytes of a word make up the word. -/
theorem append_bytes (v : BitVec 32) :
    (v.extractLsb' 24 8 ++ v.extractLsb' 16 8 ++ v.extractLsb' 8 8 ++ v.extractLsb' 0 8 :
      BitVec 32) = v := by
  apply BitVec.eq_of_getLsbD_eq
  intro i hi
  simp only [BitVec.getLsbD_append, BitVec.getLsbD_extractLsb']
  split
  · next h0 => simp [h0]
  · split
    · next h0 h1 => simp [h1, show 8 + (i - 8) = i by omega]
    · split
      · next h0 h1 h2 => simp [h2, show 16 + (i - 8 - 8) = i by omega]
      · next h0 h1 h2 => simp [show i - 8 - 8 - 8 < 8 by omega, show 24 + (i - 8 - 8 - 8) = i by omega]

/-- A word that was stored is loaded again. -/
theorem loadWord_storeWord_self (m : Mem) (a : Addr) (v : BitVec 32) :
    loadWord (storeWord m a v) a = v := by
  have hne : ∀ {j k : Nat}, j < 4 → k < 4 → j ≠ k → off a j ≠ off a k := fun hj hk hjk h =>
    hjk (off_inj (by omega) (by omega) h)
  simp only [loadWord, storeWord, hne (j := 1) (k := 0), hne (j := 2) (k := 0),
    hne (j := 2) (k := 1), hne (j := 3) (k := 0), hne (j := 3) (k := 1), hne (j := 3) (k := 2),
    Nat.reduceLT, ne_eq, OfNat.ofNat_ne_zero, one_ne_zero, not_false_eq_true,
    OfNat.ofNat_ne_one, Nat.reduceEqDiff, ↓reduceIte]
  exact append_bytes v

/-- The bytes of a word in memory. -/
theorem loadWord_byte (mem : Mem) (a : Addr) {i : Nat} (hi : i < 4) :
    (loadWord mem a).extractLsb' (8 * i) 8 = mem (off a i) := by
  obtain rfl | rfl | rfl | rfl : i = 0 ∨ i = 1 ∨ i = 2 ∨ i = 3 := by omega
  all_goals
    apply BitVec.eq_of_getLsbD_eq
    intro j hj
    simp [loadWord, hj]
    try grind

/-- A word store leaves all bytes but its own four alone. -/
theorem storeWord_of_off {m : Mem} {a x : Addr} {v : BitVec 32} (h : ∀ k < 4, x ≠ off a k) :
    storeWord m a v x = m x := by
  simp only [storeWord, h 0 (by omega), h 1 (by omega), h 2 (by omega), h 3 (by omega), ↓reduceIte]

/-! ## Blocks -/

/-- The address with its low four bits ignored. -/
def align16 (a : Addr) : Addr := a &&& ~~~15#32

/-- The low four bits of an address are its place within a block. -/
theorem and_15_toNat (a : Addr) : (a &&& 15#32).toNat = a.toNat % 16 := by
  rw [BitVec.toNat_and]
  exact Nat.and_two_pow_sub_one_eq_mod a.toNat 4

/-- The low four bits are zero exactly at a block boundary. -/
theorem and_15_eq_zero_iff (a : Addr) : a &&& 15#32 = 0#32 ↔ a.toNat % 16 = 0 := by
  rw [← and_15_toNat, ← BitVec.toNat_inj]
  rfl

/-- Two addresses with the same low four bits. -/
theorem xor_and_15_eq_zero_iff (a b : Addr) :
    (a ^^^ b) &&& 15#32 = 0#32 ↔ a.toNat % 16 = b.toNat % 16 := by
  have hdistrib : (a ^^^ b) &&& 15#32 = (a &&& 15#32) ^^^ (b &&& 15#32) := by
    apply BitVec.eq_of_getLsbD_eq
    intro i _
    simp only [BitVec.getLsbD_and, BitVec.getLsbD_xor]
    cases (15#32).getLsbD i <;> simp
  rw [hdistrib, BitVec.xor_eq_zero_iff, ← BitVec.toNat_inj, and_15_toNat, and_15_toNat]

/-- Two addresses both without low four bits. -/
theorem or_and_15_eq_zero_iff (a b : Addr) :
    (a ||| b) &&& 15#32 = 0#32 ↔ a.toNat % 16 = 0 ∧ b.toNat % 16 = 0 := by
  have hdistrib : (a ||| b) &&& 15#32 = (a &&& 15#32) ||| (b &&& 15#32) := by
    apply BitVec.eq_of_getLsbD_eq
    intro i _
    simp only [BitVec.getLsbD_and, BitVec.getLsbD_or]
    cases (15#32).getLsbD i <;> simp
  rw [hdistrib, BitVec.or_eq_zero_iff, and_15_eq_zero_iff, and_15_eq_zero_iff]

/-- Aligning an address rounds it down to a multiple of sixteen. -/
theorem align16_toNat (a : Addr) : (align16 a).toNat = a.toNat / 16 * 16 := by
  -- the two parts share no bit, so their sum is their `or`
  have hsplit : (align16 a) + (a &&& 15#32) = a := by
    rw [align16, BitVec.add_eq_or_of_and_eq_zero]
    · apply BitVec.eq_of_getLsbD_eq
      intro i hi
      simp only [BitVec.getLsbD_or, BitVec.getLsbD_and, BitVec.getLsbD_not]
      cases a.getLsbD i <;> cases (15#32).getLsbD i <;> simp [hi]
    · apply BitVec.eq_of_getLsbD_eq
      intro i hi
      simp only [BitVec.getLsbD_and, BitVec.getLsbD_not, BitVec.getLsbD_zero]
      cases a.getLsbD i <;> cases (15#32).getLsbD i <;> simp
  have hle : (align16 a).toNat ≤ a.toNat := by
    rw [align16, BitVec.toNat_and]
    exact Nat.and_le_left
  have hnat := congrArg BitVec.toNat hsplit
  rw [BitVec.toNat_add, and_15_toNat] at hnat
  have := a.isLt
  omega

/-- The place of an address in its block. -/
def lane (x : Addr) : Fin 16 := ⟨x.toNat % 16, Nat.mod_lt _ (by decide)⟩

/-- The sixteen bytes of the block that the address lies in; the low bits are ignored. -/
def loadBlock (m : Mem) (a : Addr) : Lanes := fun i => m (off (align16 a) i)

/-- The memory with all sixteen bytes of the address's block replaced. -/
def storeBlock (m : Mem) (a : Addr) (v : Lanes) : Mem := fun x =>
  if align16 x = align16 a then v (lane x) else m x

/-- Two addresses have one aligned address exactly when they lie in one block. -/
theorem align16_eq_iff (x a : Addr) : align16 x = align16 a ↔ x.toNat / 16 = a.toNat / 16 := by
  rw [← BitVec.toNat_inj, align16_toNat, align16_toNat]
  omega

/-- The sum of two aligned addresses is aligned. -/
theorem add_aligned {a b : Addr} (ha : a.toNat % 16 = 0) (hb : b.toNat % 16 = 0) :
    (a + b).toNat % 16 = 0 := by
  rw [BitVec.toNat_add]
  omega

/-- Going on by whole blocks keeps an address aligned. -/
theorem off_add_aligned {a : Addr} {k j : Nat} (hj : j % 16 = 0) (h : (off a k).toNat % 16 = 0) :
    (off a (k + j)).toNat % 16 = 0 := by
  rw [off_toNat] at h ⊢
  omega

/-- An address that is aligned some whole blocks further on is aligned itself. -/
theorem off_aligned_of_add {a : Addr} {k j : Nat} (hj : j % 16 = 0)
    (h : (off a (k + j)).toNat % 16 = 0) : (off a k).toNat % 16 = 0 := by
  rw [off_toNat] at h ⊢
  omega

/-- Block access at an aligned address. -/
theorem align16_of_aligned {a : Addr} (h : a.toNat % 16 = 0) : align16 a = a := by
  apply BitVec.eq_of_toNat_eq
  rw [align16_toNat]
  omega

/-- Within a block, aligning goes back to the block's address. -/
theorem align16_off {a : Addr} {k : Nat} (h : a.toNat % 16 = 0) (hk : k < 16) :
    align16 (off a k) = a := by
  apply BitVec.eq_of_toNat_eq
  rw [align16_toNat, off_toNat]
  have := a.isLt
  omega

/-- The lane of an address in an aligned block is its offset. -/
theorem lane_off {a : Addr} {k : Nat} (h : a.toNat % 16 = 0) (hk : k < 16) :
    lane (off a k) = ⟨k, hk⟩ := by
  apply Fin.ext
  simp only [lane, off_toNat]
  omega

/-- The bytes of an aligned block that has just been stored. -/
theorem storeBlock_same (m : Mem) {a : Addr} (v : Lanes) (h : a.toNat % 16 = 0) {k : Nat}
    (hk : k < 16) : storeBlock m a v (off a k) = v ⟨k, hk⟩ := by
  rw [storeBlock, align16_off h hk, align16_of_aligned h, if_pos rfl, lane_off h hk]

/-- A block store leaves the bytes of every other block. -/
theorem storeBlock_other (m : Mem) {a x : Addr} (v : Lanes) (h : x.toNat / 16 ≠ a.toNat / 16) :
    storeBlock m a v x = m x := by
  rw [storeBlock, if_neg fun heq => h ((align16_eq_iff x a).mp heq)]

/-! ## Reducing a block word by word -/

/-- The four words of the block at `a` or-ed together. -/
def orWords (m : Mem) (a : Addr) : BitVec 32 :=
  loadWord m a ||| loadWord m (off a 4) ||| loadWord m (off a 8) ||| loadWord m (off a 12)

/-- The four words of the block at `a` and-ed together. -/
def andWords (m : Mem) (a : Addr) : BitVec 32 :=
  loadWord m a &&& loadWord m (off a 4) &&& loadWord m (off a 8) &&& loadWord m (off a 12)

/-- Bit vectors put together from parts of the same widths are equal only with equal parts. -/
theorem append_inj {v w : Nat} {x x' : BitVec v} {y y' : BitVec w} (h : x ++ y = x' ++ y') :
    x = x' ∧ y = y' := by
  constructor
  · have := congrArg (BitVec.extractLsb' w v) h
    rwa [BitVec.extractLsb'_append_eq_left, BitVec.extractLsb'_append_eq_left] at this
  · have := congrArg (BitVec.extractLsb' 0 w) h
    rwa [BitVec.extractLsb'_append_eq_right, BitVec.extractLsb'_append_eq_right] at this

/-- A word of four equal bytes. -/
theorem loadWord_eq_iff (m : Mem) (a : Addr) (b : Byte) :
    loadWord m a = b ++ b ++ b ++ b ↔ ∀ k < 4, m (off a k) = b := by
  constructor
  · intro h k hk
    obtain ⟨h, h0⟩ := append_inj h
    obtain ⟨h, h1⟩ := append_inj h
    obtain ⟨h3, h2⟩ := append_inj h
    obtain rfl | rfl | rfl | rfl : k = 0 ∨ k = 1 ∨ k = 2 ∨ k = 3 := by omega
    all_goals assumption
  · intro h
    simp only [loadWord, h 0 (by omega), h 1 (by omega), h 2 (by omega), h 3 (by omega)]

/-- The bytes of a block are the bytes of its words. -/
theorem forall_words {P : Addr → Prop} (a : Addr) :
    ((∀ k < 4, P (off a k)) ∧ (∀ k < 4, P (off (off a 4) k)) ∧ (∀ k < 4, P (off (off a 8) k)) ∧
      ∀ k < 4, P (off (off a 12) k)) ↔ ∀ k < 16, P (off a k) := by
  simp only [off_off]
  constructor
  · rintro ⟨h0, h4, h8, h12⟩ k hk
    -- the word that byte `k` lies in
    obtain hlt | hge := Nat.lt_or_ge k 4
    · exact h0 k hlt
    obtain hlt | hge := Nat.lt_or_ge k 8
    · exact (show 4 + (k - 4) = k by omega) ▸ h4 (k - 4) (by omega)
    obtain hlt | hge := Nat.lt_or_ge k 12
    · exact (show 8 + (k - 8) = k by omega) ▸ h8 (k - 8) (by omega)
    · exact (show 12 + (k - 12) = k by omega) ▸ h12 (k - 12) (by omega)
  · intro h
    exact ⟨fun k hk => h k (by omega), fun k hk => h _ (by omega), fun k hk => h _ (by omega),
      fun k hk => h _ (by omega)⟩

/-- The or of a block's words is zero when all its bytes are. -/
theorem orWords_eq_zero_iff (m : Mem) (a : Addr) :
    orWords m a = 0#32 ↔ ∀ k < 16, m (off a k) = 0#8 := by
  rw [orWords, BitVec.or_eq_zero_iff, BitVec.or_eq_zero_iff, BitVec.or_eq_zero_iff,
    show (0#32 : BitVec 32) = 0#8 ++ 0#8 ++ 0#8 ++ 0#8 from rfl, loadWord_eq_iff,
    loadWord_eq_iff, loadWord_eq_iff, loadWord_eq_iff, and_assoc, and_assoc]
  exact forall_words (P := fun x => m x = 0#8) a

/-- The and of a block's words is all ones when all its bytes are. -/
theorem andWords_eq_ones_iff (m : Mem) (a : Addr) :
    andWords m a = 0xffffffff#32 ↔ ∀ k < 16, m (off a k) = 0xff#8 := by
  rw [andWords, show (0xffffffff#32 : BitVec 32) = BitVec.allOnes 32 from rfl,
    BitVec.and_eq_allOnes_iff, BitVec.and_eq_allOnes_iff, BitVec.and_eq_allOnes_iff,
    show BitVec.allOnes 32 = 0xff#8 ++ 0xff#8 ++ 0xff#8 ++ 0xff#8 from rfl, loadWord_eq_iff,
    loadWord_eq_iff, loadWord_eq_iff, loadWord_eq_iff, and_assoc, and_assoc]
  exact forall_words (P := fun x => m x = 0xff#8) a

/-! ## Frames -/

/-- The address lies among the `n` from `base` on. -/
def InFrame (base : Addr) (n : Nat) (x : Addr) : Prop := (x - base).toNat < n

instance (base : Addr) (n : Nat) (x : Addr) : Decidable (InFrame base n x) :=
  inferInstanceAs (Decidable (_ < _))

/-- Two memories agree outside a frame. -/
def AgreeOff (base : Addr) (n : Nat) (m m' : Mem) : Prop := ∀ x, ¬ InFrame base n x → m' x = m x

/-- An offset below the size of a frame is in the frame. -/
theorem inFrame_off {base : Addr} {n k : Nat} (hk : k < n) (hn : n < 2 ^ 32) :
    InFrame base n (off base k) := by
  simp only [InFrame, BitVec.toNat_sub, off_toNat]
  have := base.isLt
  omega

/-- An offset from the size of a frame on is outside of it. -/
theorem not_inFrame_off {base : Addr} {n k : Nat} (hk : n ≤ k) (hlt : k < 2 ^ 32) :
    ¬ InFrame base n (off base k) := by
  simp only [InFrame, BitVec.toNat_sub, off_toNat]
  have := base.isLt
  omega

/-- A frame that is not empty contains its base. -/
theorem inFrame_base {base : Addr} {n : Nat} (hn : 0 < n) : InFrame base n base := by
  rwa [InFrame, BitVec.sub_self]

/-- A block lies in an aligned frame as a whole or not at all. -/
theorem inFrame_congr {base x y : Addr} {n : Nat} (hbase : base.toNat % 16 = 0) (hn : n % 16 = 0)
    (hxy : x.toNat / 16 = y.toNat / 16) : InFrame base n x ↔ InFrame base n y := by
  simp only [InFrame, BitVec.toNat_sub]
  have := base.isLt
  have := x.isLt
  have := y.isLt
  omega

/-- Every memory agrees with itself. -/
theorem AgreeOff.refl (base : Addr) (n : Nat) (m : Mem) : AgreeOff base n m m := fun _ _ => rfl

/-- Agreement off a frame is transitive. -/
theorem AgreeOff.trans {base : Addr} {n : Nat} {m m' m'' : Mem} (h : AgreeOff base n m m')
    (h' : AgreeOff base n m' m'') : AgreeOff base n m m'' :=
  fun x hx => (h' x hx).trans (h x hx)

/-- Blocks outside the frame. -/
theorem AgreeOff.loadBlock {base a : Addr} {n : Nat} {m m' : Mem} (h : AgreeOff base n m m')
    (hbase : base.toNat % 16 = 0) (hn : n % 16 = 0) (ha : ¬ InFrame base n a) :
    loadBlock m' a = loadBlock m a := by
  funext i
  refine h _ fun hin => ha ((inFrame_congr hbase hn ?_).mp hin)
  rw [off_toNat, align16_toNat]
  have := a.isLt
  have := i.isLt
  omega

/-- A frame at the top of a larger one. -/
theorem InFrame.of_top {base base' x : Addr} {n n' : Nat} (h : InFrame base n x)
    (hbase : off base' (n' - n) = base) (hn : n ≤ n') (hn' : n' < 2 ^ 32) : InFrame base' n' x := by
  subst hbase
  simp only [InFrame, BitVec.toNat_sub, off_toNat] at h ⊢
  have := base'.isLt
  have := x.isLt
  omega

/-- A frame at the bottom of a larger one. -/
theorem InFrame.of_bottom {base x : Addr} {n n' : Nat} (h : InFrame base n x) (hn : n ≤ n') :
    InFrame base n' x := Nat.lt_of_lt_of_le h hn

/-- A frame below an address in a larger one. -/
theorem InFrame.below {top x : Addr} {n n' : Nat} (h : InFrame (top + -BitVec.ofNat 32 n) n x)
    (hn : n ≤ n') (hn' : n' < 2 ^ 32) : InFrame (top + -BitVec.ofNat 32 n') n' x := by
  obtain ⟨d, rfl⟩ := Nat.exists_eq_add_of_le hn
  refine h.of_top ?_ hn hn'
  rw [Nat.add_sub_cancel_left, off, BitVec.ofNat_add, neg_add, ← add_assoc, neg_add_cancel_right]

/-- Memories that agree off a frame agree off a larger one. -/
theorem AgreeOff.mono {base base' : Addr} {n n' : Nat} {m m' : Mem} (h : AgreeOff base n m m')
    (hframe : ∀ x, InFrame base n x → InFrame base' n' x) : AgreeOff base' n' m m' :=
  fun x hx => h x fun hin => hx (hframe x hin)

/-- A word stored in the frame. -/
theorem AgreeOff.storeWord {base a : Addr} {n : Nat} {v : BitVec 32} (m : Mem)
    (ha : ∀ k < 4, InFrame base n (off a k)) : AgreeOff base n m (storeWord m a v) :=
  fun _ hx => storeWord_of_off fun k hk heq => hx (heq ▸ ha k hk)

/-- A block stored in the frame. -/
theorem AgreeOff.storeBlock {base a : Addr} {n : Nat} {v : Lanes} (m : Mem)
    (hbase : base.toNat % 16 = 0) (hn : n % 16 = 0) (ha : InFrame base n a) :
    AgreeOff base n m (storeBlock m a v) :=
  fun _ hx => storeBlock_other m v fun heq => hx ((inFrame_congr hbase hn heq).mpr ha)

/-! ### The same store in two memories -/

section

variable {base : Addr} {n : Nat} {m m' : Mem}

/-- The same byte store on both sides keeps the agreement. -/
theorem AgreeOff.congr_update (h : AgreeOff base n m m') (a : Addr) (v : Byte) :
    AgreeOff base n (Function.update m a v) (Function.update m' a v) := by
  intro x hx
  simp only [Function.update_apply, h x hx]

/-- The same word store on both sides keeps the agreement. -/
theorem AgreeOff.congr_storeWord (h : AgreeOff base n m m') (a : Addr) (v : BitVec 32) :
    AgreeOff base n (ByteMem.storeWord m a v) (ByteMem.storeWord m' a v) := by
  intro x hx
  simp only [ByteMem.storeWord, h x hx]

/-- The same block store on both sides keeps the agreement. -/
theorem AgreeOff.congr_storeBlock (h : AgreeOff base n m m') (a : Addr) (v : Lanes) :
    AgreeOff base n (ByteMem.storeBlock m a v) (ByteMem.storeBlock m' a v) := by
  intro x hx
  simp only [ByteMem.storeBlock, h x hx]

end

end ByteMem
