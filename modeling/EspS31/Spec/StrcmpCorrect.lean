import EspS31.Spec.XespvBlocks

/-!
# Correctness of `s31_xespv_strcmp`

The routine compares byte by byte up to an aligned address of the first string
and then block by block, going back to single bytes at a block whose lanes differ
or hold a terminator.  The block test is entered by the alignment of the first
pointer alone: when the second one is aligned otherwise, its block is another one
than the 16 bytes to be compared, and the terminators are looked for with whatever
the vector register `q3` held on entry.

A position *decides* when the bytes there differ or end the string, and it is
*examined* unless the block test passes over its block.  The run returns the
difference of the bytes at the first position that does both.

## Key results

- `strcmp_returns`: a run returns at the first deciding position it examines
- `not_stops_of_passes`: what the block test passes over is never examined
- `strcmp_correct_iff`: when the sign is that of the strings' comparison
-/

namespace EspS31.Xespv.Strcmp

open ByteMem

/-! ## The comparison of two strings -/

/-- The sign of the C `strcmp`: bytes are compared as unsigned characters. -/
def strcmp : List Byte → List Byte → Int
  | [], [] => 0
  | [], _ :: _ => -1
  | _ :: _, [] => 1
  | x :: s, y :: t => if x = y then strcmp s t else if x.toNat < y.toNat then -1 else 1

/-- The place where two strings differ or both end. -/
def decidingIndex : List Byte → List Byte → Nat
  | [], _ => 0
  | _ :: _, [] => 0
  | x :: s, y :: t => if x = y then decidingIndex s t + 1 else 0

section

variable (mem : Mem) (a b : Addr)

/-- The bytes at position `k` differ or end the first string. -/
def Decides (k : Nat) : Prop := mem (off a k) ≠ mem (off b k) ∨ mem (off a k) = 0

instance (k : Nat) : Decidable (Decides mem a b k) := inferInstanceAs (Decidable (_ ∨ _))

/-- The difference of the bytes at position `k`. -/
def byteDiff (k : Nat) : BitVec 32 :=
  (mem (off a k)).setWidth 32 - (mem (off b k)).setWidth 32

end

variable {mem : Mem} {a b : Addr}

/-- The difference of two bytes, as a signed word. -/
private theorem setWidth_sub_toInt (x y : Byte) :
    (x.setWidth 32 - y.setWidth 32 : BitVec 32).toInt = (x.toNat : Int) - (y.toNat : Int) := by
  have hx := x.isLt
  have hy := y.isLt
  rw [BitVec.toInt_eq_toNat_cond, BitVec.toNat_sub, BitVec.toNat_setWidth, BitVec.toNat_setWidth]
  split <;> omega

/-- The difference at `k`, as a number. -/
private theorem byteDiff_toInt (k : Nat) :
    (byteDiff mem a b k).toInt = ((mem (off a k)).toNat : Int) - ((mem (off b k)).toNat : Int) :=
  setWidth_sub_toInt _ _

/-- The comparison is decided at `decidingIndex`, and not before. -/
private theorem decidingIndex_spec {s t : List Byte} (hs : CString mem a s) (ht : CString mem b t) :
    Decides mem a b (decidingIndex s t) ∧ (∀ j < decidingIndex s t, ¬ Decides mem a b j) ∧
      strcmp s t = (byteDiff mem a b (decidingIndex s t)).toInt.sign := by
  rw [byteDiff_toInt]
  induction s, t using strcmp.induct generalizing a b with
  -- two empty strings are decided by their terminators
  | case1 =>
    have ha : mem a = 0 := hs
    have hb : mem b = 0 := ht
    simp [Decides, decidingIndex, strcmp, off_zero, ha, hb]
  | case2 y t =>
    have ha : mem a = 0 := hs
    obtain ⟨hb, hy, -⟩ := ht
    have hpos : 0 < y.toNat := by
      refine Nat.pos_of_ne_zero fun h => hy (BitVec.eq_of_toNat_eq h)
    refine ⟨.inr (by rw [decidingIndex, off_zero, ha]), fun j hj => absurd hj (by simp [decidingIndex]), ?_⟩
    rw [strcmp, decidingIndex, off_zero, off_zero, ha, hb]
    exact (Int.sign_eq_neg_one_of_neg (by simp; omega)).symm
  | case3 x s =>
    have hb : mem b = 0 := ht
    obtain ⟨ha, hx, -⟩ := hs
    have hpos : 0 < x.toNat := by
      refine Nat.pos_of_ne_zero fun h => hx (BitVec.eq_of_toNat_eq h)
    refine ⟨.inl (by rw [decidingIndex, off_zero, off_zero, ha, hb]; exact hx),
      fun j hj => absurd hj (by simp [decidingIndex]), ?_⟩
    rw [strcmp, decidingIndex, off_zero, off_zero, ha, hb]
    exact (Int.sign_eq_one_of_pos (by simp; omega)).symm
  | case4 s x t ih =>
    obtain ⟨ha, hx, hs⟩ := hs
    obtain ⟨hb, -, ht⟩ := ht
    obtain ⟨hdec, hbefore, hsign⟩ := ih hs ht
    -- Everything moves one position on.
    simp only [Decides, off_succ] at hdec hbefore hsign
    rw [decidingIndex, if_pos rfl, strcmp, if_pos rfl]
    refine ⟨hdec, fun j hj => ?_, hsign⟩
    cases j with
    | zero => simpa [Decides, off_zero, ha, hb] using hx
    | succ j => exact hbefore j (by omega)
  -- the first bytes differ, and so they decide
  | case5 x s y t hne hlt =>
    obtain ⟨ha, hx, -⟩ := hs
    obtain ⟨hb, -, -⟩ := ht
    rw [decidingIndex, if_neg hne, strcmp, if_neg hne, if_pos hlt, Decides, off_zero, off_zero, ha,
      hb]
    exact ⟨.inl hne, fun j hj => absurd hj (by omega),
      (Int.sign_eq_neg_one_of_neg (by omega)).symm⟩
  | case6 x s y t hne hlt =>
    obtain ⟨ha, hx, -⟩ := hs
    obtain ⟨hb, -, -⟩ := ht
    have hgt : y.toNat < x.toNat :=
      lt_of_le_of_ne (by omega) fun h => hne (BitVec.eq_of_toNat_eq h.symm)
    rw [decidingIndex, if_neg hne, strcmp, if_neg hne, if_neg hlt, Decides, off_zero, off_zero, ha,
      hb]
    exact ⟨.inl hne, fun j hj => absurd hj (by omega), (Int.sign_eq_one_of_pos (by omega)).symm⟩

/-! ## What the block test passes over -/

section

variable (mem : Mem) (z : Lanes) (a b : Addr)

/-- The test at `.Lstcmp_vec` moves on to the next block: the lanes of the two
    blocks agree and none of them is the terminator vector's. -/
def Passes (k : Nat) : Prop :=
  ∀ i, loadBlock mem (off a k) i = loadBlock mem (off b k) i ∧ loadBlock mem (off a k) i ≠ z i

instance (k : Nat) : Decidable (Passes mem z a b k) := inferInstanceAs (Decidable (∀ _, _))

/-- The position at which the first pointer enters the block of position `k`. -/
def blockStart (k : Nat) : Nat := k - (a.toNat + k) % 16

/-- The bytes at position `k` are compared unless `k` lies in a block, beyond the
    first boundary, that the test passes. -/
def Examined (k : Nat) : Prop :=
  CoAligned a b ∨ k < 16 - a.toNat % 16 ∨ ¬ Passes mem z a b (blockStart a k)

instance (k : Nat) : Decidable (Examined mem z a b k) := inferInstanceAs (Decidable (_ ∨ _))

/-- The run returns at position `k` if it gets there. -/
def Stops (k : Nat) : Prop := Decides mem a b k ∧ Examined mem z a b k

instance (k : Nat) : Decidable (Stops mem z a b k) := inferInstanceAs (Decidable (_ ∧ _))

end

variable {z : Lanes} {k j : Nat}

/-- Co-aligned strings have no deciding position in a block that passes. -/
private theorem not_decides_of_passes (hco : CoAligned a b) (hk : (a.toNat + k) % 16 = 0)
    (hpass : Passes mem (fun _ => 0) a b k) (hkj : k ≤ j) (hj : j < k + 16) :
    ¬ Decides mem a b j := by
  obtain ⟨heq, hne⟩ := hpass ⟨j - k, by omega⟩
  have hb : (b.toNat + k) % 16 = 0 := by
    have : a.toNat % 16 = b.toNat % 16 := hco
    omega
  rw [loadBlock_aligned mem hk] at heq hne
  rw [loadBlock_aligned mem hb] at heq
  rw [show k + (j - k) = j by omega] at heq hne
  rintro (hdiff | hzero)
  · exact hdiff heq
  · exact hne hzero

/-- The block that a byte lies in. -/
private theorem blockStart_eq (hk : (a.toNat + k) % 16 = 0) (hkj : k ≤ j) (hj : j < k + 16) :
    blockStart a j = k := by
  rw [blockStart]
  omega

/-- What the block test passes over is never examined, or decides nothing. -/
theorem not_stops_of_passes (hk : VecStart a b k) (hpass : Passes mem (terminators z a b) a b k)
    (hkj : k ≤ j) (hj : j < k + 16) : ¬ Stops mem z a b j := by
  rintro ⟨hdec, hexam⟩
  by_cases hco : CoAligned a b
  · rw [terminators, if_pos hco] at hpass
    exact not_decides_of_passes hco hk.1 hpass hkj hj hdec
  · rw [terminators, if_neg hco] at hpass
    obtain hco' | hlt | hfail := hexam
    · exact hco hco'
    · have := hk.2.resolve_left hco
      omega
    · rw [blockStart_eq hk.1 hkj hj] at hfail
      exact hfail hpass

/-- A block that fails the test is examined. -/
private theorem examined_of_not_passes (hk : VecStart a b k)
    (hfail : ¬ Passes mem (terminators z a b) a b k) : Examined mem z a b k := by
  by_cases hco : CoAligned a b
  · exact .inl hco
  · rw [terminators, if_neg hco] at hfail
    refine .inr (.inr ?_)
    rwa [blockStart_eq hk.1 (le_refl k) (by omega)]

/-- The rest of a block is examined like its bytes before. -/
theorem Examined.succ (h : Examined mem z a b k) (hk : (a.toNat + (k + 1)) % 16 ≠ 0) :
    Examined mem z a b (k + 1) := by
  obtain hco | hlt | hfail := h
  · exact .inl hco
  · exact .inr (.inl (by omega))
  · refine .inr (.inr ?_)
    rwa [show blockStart a (k + 1) = blockStart a k by simp only [blockStart]; omega]

/-! ## The blocks of the routine -/

/-- The machine at position `k` of a run that began in `m₀`. -/
structure At (m₀ : Machine) (k : Nat) (m : Machine) : Prop where
  a0 : m.get .a0 = off (m₀.get .a0) k
  a1 : m.get .a1 = off (m₀.get .a1) k
  sp : m.get .sp = m₀.get .sp
  ra : m.get .ra = m₀.get .ra
  q3 : m.vregs .q3 = terminators (m₀.vregs .q3) (m₀.get .a0) (m₀.get .a1)
  mem : AgreeOff (m₀.get .sp + (-48)) 48 m₀.mem m.mem

/-- Position `k` of both strings lies outside the routine's stack frame. -/
def Clear (m₀ : Machine) (k : Nat) : Prop :=
  ¬ InFrame (m₀.get .sp + (-48)) 48 (off (m₀.get .a0) k) ∧
    ¬ InFrame (m₀.get .sp + (-48)) 48 (off (m₀.get .a1) k)

instance (m₀ : Machine) (k : Nat) : Decidable (Clear m₀ k) := inferInstanceAs (Decidable (_ ∧ _))

variable {m₀ m : Machine} {returnAddr : Addr}

/-- The machine differs in registers that the loop invariant does not name. -/
theorem At.congr {m' : Machine} (h : At m₀ k m) (hreg : ∀ r, r = .a0 ∨ r = .a1 ∨ r = .sp ∨ r = .ra →
    m'.get r = m.get r) (hq3 : m'.vregs .q3 = m.vregs .q3) (hmem : m'.mem = m.mem) : At m₀ k m' where
  a0 := (hreg _ (.inl rfl)).trans h.a0
  a1 := (hreg _ (.inr (.inl rfl))).trans h.a1
  sp := (hreg _ (.inr (.inr (.inl rfl)))).trans h.sp
  ra := (hreg _ (.inr (.inr (.inr rfl)))).trans h.ra
  q3 := hq3.trans h.q3
  mem := hmem ▸ h.mem

/-- Both pointers move on by `n`. -/
theorem At.advance (h : At m₀ k m) (n : Nat) :
    At m₀ (k + n) (execs (L := Label) (advance (BitVec.ofNat 32 n)) m) where
  a0 := by rw [(execs_advance n m).1, h.a0, off_off]
  a1 := by rw [(execs_advance n m).2, h.a1, off_off]
  sp := (execs_get (by simp [Xespv.advance, Instr.dest]) m).trans h.sp
  ra := (execs_get (by simp [Xespv.advance, Instr.dest]) m).trans h.ra
  q3 := (execs_vregs (by simp [Xespv.advance, Instr.vdest]) m).trans h.q3
  mem := by
    rw [execs_mem (by simp [Xespv.advance, Instr.isStore]) m]
    exact h.mem

/-- The bytes that `.Lstcmp_byte` compares. -/
theorem execs_byte (h : At m₀ k m) (hclear : Clear m₀ k) :
    (execs (strcmpByte.take 2) m).get .t0 = (m₀.mem (off (m₀.get .a0) k)).setWidth 32 ∧
      (execs (strcmpByte.take 2) m).get .t1 = (m₀.mem (off (m₀.get .a1) k)).setWidth 32 ∧
      At m₀ k (execs (strcmpByte.take 2) m) := by
  refine ⟨?_, ?_, h.congr ?_ (execs_vregs (by decide) m) (execs_mem (by decide) m)⟩
  · simp only [strcmpByte, List.take, execs, List.foldl, Instr.exec, Machine.get_set,
      Machine.mem_set, reduceCtorEq, if_false, if_true, off_zero, h.a0, h.mem _ hclear.1]
  · simp only [strcmpByte, List.take, execs, List.foldl, Instr.exec, Machine.get_set,
      Machine.mem_set, reduceCtorEq, if_false, if_true, off_zero, h.a1, h.mem _ hclear.2]
  · rintro r (rfl | rfl | rfl | rfl) <;> exact execs_get (by decide) m

/-- The byte comparison returns at a deciding position. -/
private theorem byte_returns (h : At m₀ k m) (hclear : Clear m₀ k) (hra : m₀.get .ra ≠ returnAddr)
    (hdec : Decides m₀.mem (m₀.get .a0) (m₀.get .a1) k) :
    ∃ m', Reaches (memops returnAddr) ⟨.run (memopsCode .LstcmpByte), m⟩ ⟨.out (m₀.get .ra), m'⟩ ∧
      m'.get .a0 = byteDiff m₀.mem (m₀.get .a0) (m₀.get .a1) k := by
  obtain ⟨ht0, ht1, hat⟩ := execs_byte h hclear
  set m₁ := execs (strcmpByte.take 2) m
  by_cases hdiff : m₀.mem (off (m₀.get .a0) k) = m₀.mem (off (m₀.get .a1) k)
  · -- Equal bytes decide only at the end of both strings.
    have hzero : m₀.mem (off (m₀.get .a0) k) = 0 := hdec.resolve_left fun hne => hne hdiff
    refine ⟨m₁.set .a0 0, (Reaches.line (strcmpByte.take 2) (by decide) m).trans
      (.bne ?_), ?_⟩
    · rw [if_neg (not_not.mpr (by rw [ht0, ht1, hdiff]))]
      refine .beqz ?_
      rw [if_pos (by rw [ht0, hzero]; rfl)]
      refine (Reaches.line [.li .a0 0] (by decide) m₁).trans ?_
      rw [← hat.ra] at hra ⊢
      exact Reaches.ret (m := m₁.set .a0 0) hra
    · rw [Machine.get_set, if_neg (by decide), if_pos rfl, byteDiff, hdiff, BitVec.sub_self]
      rfl
  -- different bytes: their difference
  · refine ⟨m₁.set .a0 (m₁.get .t0 - m₁.get .t1),
      (Reaches.line (strcmpByte.take 2) (by decide) m).trans (.bne ?_), ?_⟩
    · rw [if_pos (by rwa [ht0, ht1, ne_eq, setWidth_eq_iff])]
      refine (Reaches.line [.sub .a0 .t0 .t1] (by decide) m₁).trans ?_
      rw [← hat.ra] at hra ⊢
      exact Reaches.ret (m := m₁.set .a0 (m₁.get .t0 - m₁.get .t1)) hra
    · rw [Machine.get_set, if_neg (by decide), if_pos rfl, byteDiff, ht0, ht1]

/-- The byte comparison moves on at any other position. -/
theorem byte_next (returnAddr : Addr) (h : At m₀ k m) (hclear : Clear m₀ k)
    (hdec : ¬ Decides m₀.mem (m₀.get .a0) (m₀.get .a1) k) :
    ∃ m', Reaches (memops returnAddr) ⟨.run (memopsCode .LstcmpByte), m⟩
      ⟨.run (memopsCode .LstcmpAlign), m'⟩ ∧ At m₀ (k + 1) m' := by
  obtain ⟨ht0, ht1, hat⟩ := execs_byte h hclear
  set m₁ := execs (strcmpByte.take 2) m
  obtain ⟨hsame, hnonzero⟩ := not_or.mp hdec
  refine ⟨execs (advance (L := Label) 1) m₁,
    (Reaches.line (strcmpByte.take 2) (by decide) m).trans (.bne ?_), hat.advance 1⟩
  rw [if_neg (by rwa [ht0, ht1, ne_eq, setWidth_eq_iff])]
  refine .beqz ?_
  rw [if_neg (by rw [ht0]; exact fun h => hnonzero ((setWidth_eq_iff _ 0).mp h))]
  exact (Reaches.line (advance 1) (by decide) m₁).trans (.j (.refl _))

/-- The alignment test chooses between the two comparisons. -/
theorem align_next (returnAddr : Addr) (h : At m₀ k m) :
    ∃ m', Reaches (memops returnAddr) ⟨.run (memopsCode .LstcmpAlign), m⟩
      ⟨.run (memopsCode (if ((m₀.get .a0).toNat + k) % 16 = 0 then .LstcmpVec else .LstcmpByte)),
        m'⟩ ∧ At m₀ k m' := by
  have hzero : (execs (strcmpAlign.take 1) m).get .t0 = 0 ↔ ((m₀.get .a0).toNat + k) % 16 = 0 := by
    simp only [strcmpAlign, List.take, execs, List.foldl, Instr.exec, Machine.get_set,
      reduceCtorEq, if_false, if_true, h.a0]
    refine (and_15_eq_zero_iff _).trans ?_
    rw [off_toNat]
    omega
  refine ⟨execs (strcmpAlign.take 1) m,
    (Reaches.line (strcmpAlign.take 1) (by decide) m).trans (.beqz ?_),
    h.congr ?_ (execs_vregs (by decide) m) (execs_mem (by decide) m)⟩
  · simp only [hzero]
    split <;> exact .refl _
  · rintro r (rfl | rfl | rfl | rfl) <;> exact execs_get (by decide) m

/-! ### The block test -/

/-- The frame is opened and the saved registers are stored. -/
def strcmpSave : Code := strcmpVec.take 3

/-- The blocks are loaded and compared. -/
def strcmpLanes : Code := (strcmpVec.drop 3).take 6

/-- The two comparisons are stored. -/
def strcmpStore : Code := (strcmpVec.drop 9).take 4

/-- The registers are restored and the frame is closed. -/
def strcmpRestore : Code := (strcmpVec.drop 27).take 6

/-- The two registers are saved in the frame. -/
private theorem execs_strcmpSave_mem (m : Machine) :
    (execs strcmpSave m).mem =
      storeWord (storeWord m.mem (off (m.get .sp + (-48)) 32) (m.get .s0))
        (off (m.get .sp + (-48)) 36) (m.get .s1) := by
  simp only [strcmpSave, strcmpVec, List.take, execs, List.foldl, Instr.exec, Machine.get_set,
    Machine.get_setMem, Machine.mem_set, Machine.mem_setMem, reduceCtorEq, if_false, if_true]

/-- The frame lies below the stack pointer. -/
private theorem execs_strcmpSave_sp (m : Machine) :
    (execs strcmpSave m).get .sp = m.get .sp + (-48) := by
  simp only [strcmpSave, strcmpVec, List.take, execs, List.foldl, Instr.exec, Machine.get_set,
    Machine.get_setMem, reduceCtorEq, if_false, if_true]

/-- Where the blocks are equal, and where the first has a zero. -/
private theorem execs_strcmpLanes_vregs (m : Machine) :
    (execs strcmpLanes m).vregs .q2 =
        lanesEq (loadBlock m.mem (m.get .a0)) (loadBlock m.mem (m.get .a1)) ∧
      (execs strcmpLanes m).vregs .q4 =
        lanesEq (loadBlock m.mem (m.get .a0)) (m.vregs .q3) := by
  constructor <;>
    simp only [strcmpLanes, strcmpVec, List.take, List.drop, execs, List.foldl, Instr.exec,
      Machine.get_set, Machine.get_setV, Machine.mem_set, Machine.mem_setV, Machine.vregs_set,
      Machine.vregs_setV, reduceCtorEq, if_false, if_true]

/-- The two pointers are kept. -/
private theorem execs_strcmpLanes_get (m : Machine) :
    (execs strcmpLanes m).get .s0 = m.get .a0 ∧ (execs strcmpLanes m).get .s1 = m.get .a1 := by
  constructor <;>
    simp only [strcmpLanes, strcmpVec, List.take, List.drop, execs, List.foldl, Instr.exec,
      Machine.get_set, Machine.get_setV, reduceCtorEq, if_false, if_true]

/-- The two masks are stored in the frame. -/
private theorem execs_strcmpStore_mem (m : Machine) :
    (execs strcmpStore m).mem =
      storeBlock (storeBlock m.mem (m.get .sp) (m.vregs .q4)) (off (m.get .sp) 16)
        (m.vregs .q2) := by
  simp only [strcmpStore, strcmpVec, List.take, List.drop, execs, List.foldl, Instr.exec,
    Machine.get_set, Machine.get_setMem, Machine.mem_set, Machine.mem_setMem, Machine.vregs_set,
    Machine.vregs_setMem, reduceCtorEq, if_false, if_true]
  rfl

/-- The pointers and the stack pointer come back. -/
private theorem execs_strcmpRestore_get (m : Machine) :
    (execs strcmpRestore m).get .a0 = m.get .s0 ∧ (execs strcmpRestore m).get .a1 = m.get .s1 ∧
      (execs strcmpRestore m).get .sp = m.get .sp + 48 ∧
      (execs strcmpRestore m).get .t1 = 0xffffffff#32 := by
  refine ⟨?_, ?_, ?_, ?_⟩ <;>
    simp only [strcmpRestore, strcmpVec, List.drop, List.take, execs, List.foldl, Instr.exec,
      Machine.get_set, reduceCtorEq, if_false, if_true]
  rfl

/-- The block test up to its stores. -/
def strcmpHead : Code := strcmpVec.take 13

/-- The block test from its loads up to its branches. -/
def strcmpTail : Code := (strcmpVec.drop 13).take 20

/-- The first half of the test, by its parts. -/
private theorem execs_strcmpHead (m : Machine) :
    execs strcmpHead m = execs strcmpStore (execs strcmpLanes (execs strcmpSave m)) := by
  rw [← execs_append, ← execs_append]
  rfl

/-- The second half of the test, by its parts. -/
private theorem execs_strcmpTail (m : Machine) :
    execs strcmpTail m = execs strcmpRestore (execs (L := Label) andLoads (execs (L := Label) orLoads m)) := by
  rw [← execs_append, ← execs_append]
  rfl

/-- The registers after the first half. -/
private theorem execs_strcmpHead_get (m : Machine) :
    (execs strcmpHead m).get .s0 = m.get .a0 ∧ (execs strcmpHead m).get .s1 = m.get .a1 ∧
      (execs strcmpHead m).get .sp = m.get .sp + (-48) := by
  obtain ⟨hs0, hs1⟩ := execs_strcmpLanes_get (execs strcmpSave m)
  rw [execs_strcmpHead]
  refine ⟨?_, ?_, ?_⟩
  · rw [execs_get (by decide), hs0, execs_get (by decide)]
  · rw [execs_get (by decide), hs1, execs_get (by decide)]
  · rw [execs_get (by decide), execs_get (by decide), execs_strcmpSave_sp]

/-- The pointers and the stack pointer at the branches. -/
private theorem execs_strcmpTail_get (m : Machine) :
    (execs strcmpTail m).get .a0 = m.get .s0 ∧ (execs strcmpTail m).get .a1 = m.get .s1 ∧
      (execs strcmpTail m).get .sp = m.get .sp + 48 := by
  obtain ⟨ha0, ha1, hsp, -⟩ := execs_strcmpRestore_get
    (execs (L := Label) andLoads (execs (L := Label) orLoads m))
  rw [execs_strcmpTail]
  refine ⟨?_, ?_, ?_⟩
  · rw [ha0, execs_get (by decide), execs_get (by decide)]
  · rw [ha1, execs_get (by decide), execs_get (by decide)]
  · rw [hsp, execs_get (by decide), execs_get (by decide)]

/-- The words that the branches test. -/
private theorem execs_strcmpTail_words (m : Machine) :
    (execs strcmpTail m).get .t0 = orWords m.mem (m.get .sp) ∧
      (execs strcmpTail m).get .t2 = andWords m.mem (off (m.get .sp) 16) ∧
      (execs strcmpTail m).get .t1 = 0xffffffff#32 := by
  obtain ⟨-, -, -, ht1⟩ := execs_strcmpRestore_get
    (execs (L := Label) andLoads (execs (L := Label) orLoads m))
  rw [execs_strcmpTail]
  refine ⟨?_, ?_, ht1⟩
  · rw [execs_get (by decide), execs_get (by decide), execs_orLoads]
  · rw [execs_get (by decide), execs_andLoads, execs_mem (by decide), execs_get (by decide)]

/-- The frame after the two stores: memory outside it is as before, and its first
    two blocks hold the comparisons. -/
private theorem strcmpHead_frame (h : At m₀ k m) (hclear : Clear m₀ k)
    (hsp : (m₀.get .sp).toNat % 16 = 0) :
    let f := m₀.get .sp + (-48)
    let mem := (execs strcmpHead m).mem
    let v := loadBlock m₀.mem (off (m₀.get .a0) k)
    AgreeOff f 48 m₀.mem mem ∧
      (∀ i (hi : i < 16), mem (off f i) =
        lanesEq v (terminators (m₀.vregs .q3) (m₀.get .a0) (m₀.get .a1)) ⟨i, hi⟩) ∧
      ∀ i (hi : i < 16), mem (off (off f 16) i) =
        lanesEq v (loadBlock m₀.mem (off (m₀.get .a1) k)) ⟨i, hi⟩ := by
  intro f mem v
  have hf : f.toNat % 16 = 0 := add_aligned hsp (by decide)
  have hf16 : (off f 16).toNat % 16 = 0 := add_aligned hf (by decide)
  -- The saved registers lie in the frame.
  have hsave : AgreeOff f 48 m₀.mem (execs strcmpSave m).mem := by
    rw [execs_strcmpSave_mem, h.sp]
    refine h.mem.trans ((AgreeOff.storeWord m.mem ?_).trans (AgreeOff.storeWord _ ?_))
    · intro j hj
      rw [off_off]
      exact inFrame_off (by omega) (by omega)
    · intro j hj
      rw [off_off]
      exact inFrame_off (by omega) (by omega)
  have ha0 : (execs strcmpSave m).get .a0 = off (m₀.get .a0) k :=
    (execs_get (by decide) m).trans h.a0
  have ha1 : (execs strcmpSave m).get .a1 = off (m₀.get .a1) k :=
    (execs_get (by decide) m).trans h.a1
  have hq3 := (execs_vregs (by decide : ∀ i ∈ strcmpSave, i.vdest ≠ some .q3) m).trans h.q3
  have hv : loadBlock (execs strcmpSave m).mem (off (m₀.get .a0) k) = v :=
    hsave.loadBlock hf (by decide) hclear.1
  have hw : loadBlock (execs strcmpSave m).mem (off (m₀.get .a1) k) =
      loadBlock m₀.mem (off (m₀.get .a1) k) := hsave.loadBlock hf (by decide) hclear.2
  have hlanes := execs_strcmpLanes_vregs (execs strcmpSave m)
  rw [ha0, ha1, hq3, hv, hw] at hlanes
  -- the two comparisons are stored one behind the other
  have hmem : mem = storeBlock (storeBlock (execs strcmpSave m).mem f
      (lanesEq v (terminators (m₀.vregs .q3) (m₀.get .a0) (m₀.get .a1)))) (off f 16)
      (lanesEq v (loadBlock m₀.mem (off (m₀.get .a1) k))) := by
    have hlsp : (execs strcmpLanes (execs strcmpSave m)).get .sp = f := by
      rw [execs_get (by decide), execs_strcmpSave_sp, h.sp]
    simp only [mem]
    rw [execs_strcmpHead, execs_strcmpStore_mem, hlsp, hlanes.1, hlanes.2, execs_mem (by decide)]
  rw [hmem]
  refine ⟨?_, ?_, ?_⟩
  · refine hsave.trans ((AgreeOff.storeBlock _ hf (by decide) ?_).trans
      (AgreeOff.storeBlock _ hf (by decide) (inFrame_off (by omega) (by omega))))
    have hbase : InFrame f 48 (off f 0) := inFrame_off (by omega) (by omega)
    rwa [off_zero] at hbase
  -- the second block does not touch the first
  · intro i hi
    rw [storeBlock_other, storeBlock_same _ _ hf hi]
    simp only [off_toNat]
    have := f.isLt
    omega
  · intro i hi
    exact storeBlock_same _ _ hf16 hi

/-- At the branches the machine is back at position `k`, and the two words say
    whether the test passes. -/
private theorem strcmpTest_spec (h : At m₀ k m) (hclear : Clear m₀ k)
    (hsp : (m₀.get .sp).toNat % 16 = 0) :
    let m' := execs strcmpTail (execs strcmpHead m)
    At m₀ k m' ∧
      (m'.get .t2 = m'.get .t1 ∧ m'.get .t0 = 0 ↔
        Passes m₀.mem (terminators (m₀.vregs .q3) (m₀.get .a0) (m₀.get .a1)) (m₀.get .a0)
          (m₀.get .a1) k) := by
  obtain ⟨hagree, hor, hand⟩ := strcmpHead_frame h hclear hsp
  obtain ⟨hs0, hs1, hsp'⟩ := execs_strcmpHead_get m
  obtain ⟨ha0, ha1, hsp''⟩ := execs_strcmpTail_get (execs strcmpHead m)
  obtain ⟨ht0, ht2, ht1⟩ := execs_strcmpTail_words (execs strcmpHead m)
  rw [hsp', h.sp] at ht0 ht2 hsp''
  constructor
  · exact {
      a0 := by rw [ha0, hs0, h.a0]
      a1 := by rw [ha1, hs1, h.a1]
      sp := by rw [hsp'', BitVec.add_assoc, BitVec.add_left_neg, BitVec.add_zero]
      ra := by rw [execs_get (by decide), execs_get (by decide), h.ra]
      q3 := by rw [execs_vregs (by decide), execs_vregs (by decide), h.q3]
      mem := by
        rw [execs_mem (by decide)]
        exact hagree }
  · rw [ht0, ht1, ht2, andWords_lanesEq hand, Passes, forall_and]
    exact and_congr_right fun _ => orWords_lanesEq hor

/-- The test of a block, up to its branches. -/
private theorem reaches_strcmpTest (m : Machine) :
    Reaches (memops returnAddr) ⟨.run (memopsCode .LstcmpVec), m⟩
      ⟨.run (strcmpVec.drop 33 ++ (strcmpDiff ++ strcmpEqual)),
        execs strcmpTail (execs strcmpHead m)⟩ :=
  (Reaches.line strcmpHead (by decide) m).trans (Reaches.line strcmpTail (by decide) _)

/-- The block test passes to the next block. -/
private theorem vec_next (returnAddr : Addr) (h : At m₀ k m) (hclear : Clear m₀ k)
    (hsp : (m₀.get .sp).toNat % 16 = 0)
    (hpass : Passes m₀.mem (terminators (m₀.vregs .q3) (m₀.get .a0) (m₀.get .a1)) (m₀.get .a0)
      (m₀.get .a1) k) :
    ∃ m', Reaches (memops returnAddr) ⟨.run (memopsCode .LstcmpVec), m⟩
      ⟨.run (memopsCode .LstcmpVec), m'⟩ ∧ At m₀ (k + 16) m' := by
  obtain ⟨hat, hiff⟩ := strcmpTest_spec h hclear hsp
  obtain ⟨ht2, ht0⟩ := hiff.mpr hpass
  refine ⟨_, (reaches_strcmpTest m).trans (.bne ?_), hat.advance 16⟩
  rw [if_neg (not_not.mpr ht2)]
  refine .bnez ?_
  rw [if_neg (not_not.mpr ht0)]
  exact (Reaches.line (advance 16) (by decide) _).trans (.j (.refl _))

/-- The block test hands a block that fails over to the byte comparison. -/
theorem vec_byte (returnAddr : Addr) (h : At m₀ k m) (hclear : Clear m₀ k) (hsp : (m₀.get .sp).toNat % 16 = 0)
    (hfail : ¬ Passes m₀.mem (terminators (m₀.vregs .q3) (m₀.get .a0) (m₀.get .a1)) (m₀.get .a0)
      (m₀.get .a1) k) :
    ∃ m', Reaches (memops returnAddr) ⟨.run (memopsCode .LstcmpVec), m⟩
      ⟨.run (memopsCode .LstcmpByte), m'⟩ ∧ At m₀ k m' := by
  obtain ⟨hat, hiff⟩ := strcmpTest_spec h hclear hsp
  refine ⟨_, (reaches_strcmpTest m).trans (.bne ?_), hat⟩
  split
  · exact .refl _
  · next ht2 =>
    refine .bnez ?_
    rw [if_pos fun ht0 => hfail (hiff.mp ⟨not_not.mp ht2, ht0⟩)]
    exact .refl _

/-- The entry code builds the zero vector for co-aligned strings only. -/
theorem entry_next (returnAddr : Addr) (m₀ : Machine) (hsp : (m₀.get .sp).toNat % 16 = 0) :
    ∃ m', Reaches (memops returnAddr) ⟨.run (memopsCode .s31XespvStrcmp), m₀⟩
      ⟨.run (memopsCode
        (if CoAligned (m₀.get .a0) (m₀.get .a1) then .LstcmpAlign else .LstcmpByte)), m'⟩ ∧
        At m₀ 0 m' := by
  set m₁ := execs (strcmpEntry.take 2) m₀ with hm₁
  -- the low bits of the two pointers, as the routine compares them
  have hzero : m₁.get .t0 = 0 ↔ CoAligned (m₀.get .a0) (m₀.get .a1) := by
    simp only [hm₁, strcmpEntry, List.take, execs, List.foldl, Instr.exec, Machine.get_set,
      reduceCtorEq, if_false, if_true]
    exact xor_and_15_eq_zero_iff _ _
  have hget : ∀ r, r = .a0 ∨ r = .a1 ∨ r = .sp ∨ r = .ra → m₁.get r = m₀.get r := by
    rintro r (rfl | rfl | rfl | rfl) <;> exact execs_get (by decide) m₀
  have hmem : m₁.mem = m₀.mem := execs_mem (by decide) m₀
  have hline : Reaches (memops returnAddr) ⟨.run (memopsCode .s31XespvStrcmp), m₀⟩
      ⟨.run (if m₁.get .t0 ≠ 0 then memopsCode .LstcmpByte
        else patternVector .zero .q3 ++ memopsCode .LstcmpAlign), m₁⟩ :=
    (Reaches.line (strcmpEntry.take 2) (by decide) m₀).trans (.bnez (.refl _))
  by_cases hco : CoAligned (m₀.get .a0) (m₀.get .a1)
  · rw [if_neg (not_not.mpr (hzero.mpr hco))] at hline
    rw [if_pos hco]
    refine ⟨_, hline.trans (Reaches.line (patternVector .zero .q3) (by decide) m₁), ?_⟩
    -- on this path a vector of zeros is made in the stack frame
    have hsp₁ : m₁.get .sp = m₀.get .sp := hget _ (.inr (.inr (.inl rfl)))
    have hq3 := execs_patternVector_vregs (L := Label) .q3 (by decide) (hsp₁ ▸ hsp) (zero_bytes m₁)
    have hmem' := execs_patternVector_mem (L := Label) .q3 (by decide) (zero_bytes m₁)
    exact {
      a0 := by rw [execs_get (by decide), hget _ (.inl rfl), off_zero]
      a1 := by rw [execs_get (by decide), hget _ (.inr (.inl rfl)), off_zero]
      sp := by rw [execs_patternVector_sp, hsp₁]
      ra := by rw [execs_get (by decide), hget _ (.inr (.inr (.inr rfl)))]
      q3 := by rw [hq3, terminators, if_pos hco]
      mem := by
        rw [hmem', hmem, hsp₁]
        refine (overwrite_agreeOff m₀.mem _ _ _ _).mono fun x hx => hx.of_top ?_ (by omega) (by omega)
        rw [off, BitVec.add_assoc, show (-48 + BitVec.ofNat 32 (48 - 16) : Addr) = -16 by decide] }
  · rw [if_pos fun h => hco (hzero.mp h)] at hline
    rw [if_neg hco]
    refine ⟨m₁, hline, ?_⟩
    exact {
      a0 := by rw [hget _ (.inl rfl), off_zero]
      a1 := by rw [hget _ (.inr (.inl rfl)), off_zero]
      sp := hget _ (.inr (.inr (.inl rfl)))
      ra := hget _ (.inr (.inr (.inr rfl)))
      q3 := by
        rw [terminators, if_neg hco]
        exact execs_vregs (by decide) m₀
      mem := hmem ▸ .refl _ _ _ }

/-! ## Runs -/

/-- The run returns the difference of the bytes at position `M`. -/
def ReturnsAt (returnAddr : Addr) (m₀ : Machine) (M : Nat) (pc : Code) (m : Machine) : Prop :=
  ∃ m', Reaches (memops returnAddr) ⟨.run pc, m⟩ ⟨.out (m₀.get .ra), m'⟩ ∧
    m'.get .a0 = byteDiff m₀.mem (m₀.get .a0) (m₀.get .a1) M

/-- A run that comes to one that returns right returns right. -/
theorem ReturnsAt.of_reaches {M : Nat} {pc pc' : Code} {m' : Machine}
    (h : Reaches (memops returnAddr) ⟨.run pc, m⟩ ⟨.run pc', m'⟩)
    (h' : ReturnsAt returnAddr m₀ M pc' m') : ReturnsAt returnAddr m₀ M pc m := by
  obtain ⟨m'', hrun, hval⟩ := h'
  exact ⟨m'', h.trans hrun, hval⟩

section

variable {M : Nat} (hra : m₀.get .ra ≠ returnAddr) (hsp : (m₀.get .sp).toNat % 16 = 0)
  (hM : Stops m₀.mem (m₀.vregs .q3) (m₀.get .a0) (m₀.get .a1) M)
  (hbefore : ∀ j < M, ¬ Stops m₀.mem (m₀.vregs .q3) (m₀.get .a0) (m₀.get .a1) j)
  (hclear : ∀ j ≤ M, Clear m₀ j)

include hra hsp hM hbefore hclear

/-- From every position up to `M` and each of the three loops, the run returns at
    `M`, by induction on the distance to `M`. -/
private theorem loops_return (d : Nat) : ∀ k, k + d = M →
    (∀ m, At m₀ k m → Examined m₀.mem (m₀.vregs .q3) (m₀.get .a0) (m₀.get .a1) k →
      ReturnsAt returnAddr m₀ M (memopsCode .LstcmpByte) m) ∧
    ∀ m, At m₀ k m → VecStart (m₀.get .a0) (m₀.get .a1) k →
      ReturnsAt returnAddr m₀ M (memopsCode .LstcmpVec) m := by
  induction d using Nat.strong_induction_on with
  | _ d ih =>
    intro k hk
    have hbyte : ∀ m, At m₀ k m →
        Examined m₀.mem (m₀.vregs .q3) (m₀.get .a0) (m₀.get .a1) k →
        ReturnsAt returnAddr m₀ M (memopsCode .LstcmpByte) m := by
      intro m hat hexam
      by_cases hdec : Decides m₀.mem (m₀.get .a0) (m₀.get .a1) k
      · -- The first position to stop at is `M`.
        have hkM : k = M := by
          by_contra hne
          exact hbefore k (by omega) ⟨hdec, hexam⟩
        subst hkM
        exact byte_returns hat (hclear k le_rfl) hra hdec
      · have hne : k ≠ M := fun h => hdec (h ▸ hM.1)
        obtain ⟨m₁, hrun₁, hat₁⟩ := byte_next returnAddr hat (hclear k (by omega)) hdec
        obtain ⟨m₂, hrun₂, hat₂⟩ := align_next returnAddr hat₁
        refine .of_reaches (hrun₁.trans hrun₂) ?_
        have hnext := ih (d - 1) (by omega) (k + 1) (by omega)
        by_cases halign : ((m₀.get .a0).toNat + (k + 1)) % 16 = 0
        · rw [if_pos halign]
          exact hnext.2 m₂ hat₂ ⟨halign, .inr (by omega)⟩
        · rw [if_neg halign]
          exact hnext.1 m₂ hat₂ (hexam.succ halign)
    -- the vector loop goes on by a block or falls back to the byte loop
    refine ⟨hbyte, fun m hat hvec => ?_⟩
    by_cases hpass : Passes m₀.mem (terminators (m₀.vregs .q3) (m₀.get .a0) (m₀.get .a1))
        (m₀.get .a0) (m₀.get .a1) k
    · obtain ⟨m₁, hrun₁, hat₁⟩ := vec_next returnAddr hat (hclear k (by omega)) hsp hpass
      -- `M` lies beyond the block.
      have hfar : k + 16 ≤ M := by
        by_contra hlt
        exact not_stops_of_passes hvec hpass (j := M) (by omega) (by omega) hM
      refine .of_reaches hrun₁ ((ih (d - 16) (by omega) (k + 16) (by omega)).2 m₁ hat₁ ?_)
      exact ⟨by have := hvec.1; omega, hvec.2.imp_right fun h => by omega⟩
    · obtain ⟨m₁, hrun₁, hat₁⟩ := vec_byte returnAddr hat (hclear k (by omega)) hsp hpass
      exact .of_reaches hrun₁ (hbyte m₁ hat₁ (examined_of_not_passes hvec hpass))

/-- The run returns at the first deciding position it examines. -/
theorem strcmp_returns :
    ReturnsAt returnAddr m₀ M (memopsCode .s31XespvStrcmp) m₀ := by
  obtain ⟨m₁, hrun₁, hat₁⟩ := entry_next returnAddr m₀ hsp
  refine .of_reaches hrun₁ ?_
  have hloops := loops_return hra hsp hM hbefore hclear M 0 (by omega)
  -- the blocks are entered only from equal offsets in a block
  by_cases hco : CoAligned (m₀.get .a0) (m₀.get .a1)
  · rw [if_pos hco]
    obtain ⟨m₂, hrun₂, hat₂⟩ := align_next returnAddr hat₁
    refine .of_reaches hrun₂ ?_
    by_cases halign : ((m₀.get .a0).toNat + 0) % 16 = 0
    · rw [if_pos halign]
      exact hloops.2 m₂ hat₂ ⟨halign, .inl hco⟩
    · rw [if_neg halign]
      exact hloops.1 m₂ hat₂ (.inl hco)
  -- otherwise the bytes come first
  · rw [if_neg hco]
    refine hloops.1 m₁ hat₁ (.inr (.inl ?_))
    omega

end

/-! ## The sign of the result -/

/-- The routine returns, with a result whose sign is that of the comparison. -/
def StrcmpCorrect (returnAddr : Addr) (m₀ : Machine) (s t : List Byte) : Prop :=
  ∃ m', Reaches (memops returnAddr) ⟨.run (memopsCode .s31XespvStrcmp), m₀⟩
    ⟨.out (m₀.get .ra), m'⟩ ∧ (m'.get .a0).toInt.sign = strcmp s t

/-- Both strings, with their terminators, lie outside the routine's stack frame. -/
def FrameFree (m₀ : Machine) (s t : List Byte) : Prop :=
  (∀ k ≤ s.length, ¬ InFrame (m₀.get .sp + (-48)) 48 (off (m₀.get .a0) k)) ∧
    ∀ k ≤ t.length, ¬ InFrame (m₀.get .sp + (-48)) 48 (off (m₀.get .a1) k)

instance (m₀ : Machine) (s t : List Byte) : Decidable (FrameFree m₀ s t) :=
  inferInstanceAs (Decidable (_ ∧ _))

/-- The deciding place is in both strings or at their ends. -/
private theorem decidingIndex_le (s t : List Byte) :
    decidingIndex s t ≤ s.length ∧ decidingIndex s t ≤ t.length := by
  induction s, t using decidingIndex.induct with
  | case1 => simp [decidingIndex]
  | case2 => simp [decidingIndex]
  | case3 s x t ih =>
    simp only [decidingIndex, if_true, List.length_cons]
    omega
  | case4 x s y t hne => simp [decidingIndex, hne]

/-- A run that returns at `M` is correct when the bytes there compare like the
    strings. -/
private theorem strcmpCorrect_iff_of_returnsAt {M : Nat} {s t : List Byte}
    (h : ReturnsAt returnAddr m₀ M (memopsCode .s31XespvStrcmp) m₀) :
    StrcmpCorrect returnAddr m₀ s t ↔
      (byteDiff m₀.mem (m₀.get .a0) (m₀.get .a1) M).toInt.sign = strcmp s t := by
  obtain ⟨m', hrun, hval⟩ := h
  rw [← hval]
  constructor
  · rintro ⟨m'', hrun', hsign⟩
    obtain ⟨-, rfl⟩ := Config.mk.inj (hrun.unique hrun' rfl rfl)
    exact hsign
  · intro hsign
    exact ⟨m', hrun, hsign⟩

/-- Addresses outside the frame do not go on for ever. -/
private theorem exists_not_clear (m₀ : Machine) : ∃ k, ¬ Clear m₀ k := by
  refine ⟨(m₀.get .sp + (-48) - m₀.get .a0).toNat, fun h => h.1 ?_⟩
  have hbase : off (m₀.get .a0) (m₀.get .sp + (-48) - m₀.get .a0).toNat = m₀.get .sp + (-48) := by
    rw [off, BitVec.ofNat_toNat, BitVec.setWidth_eq, BitVec.add_comm, BitVec.sub_add_cancel]
  rw [hbase, InFrame, BitVec.sub_self]
  decide

/-- The result is right when the position that decides the comparison is examined.
    When it is not, the scan goes past it, and the result is right only if the next
    position at which the scan stops happens to compare the same way. -/
theorem strcmp_correct_iff {s t : List Byte} (hs : CString m₀.mem (m₀.get .a0) s)
    (ht : CString m₀.mem (m₀.get .a1) t) (hra : m₀.get .ra ≠ returnAddr)
    (hsp : (m₀.get .sp).toNat % 16 = 0) (hfree : FrameFree m₀ s t) :
    let mem := m₀.mem
    let a := m₀.get .a0
    let b := m₀.get .a1
    let z := m₀.vregs .q3
    let D := decidingIndex s t
    (Examined mem z a b D → StrcmpCorrect returnAddr m₀ s t) ∧
      ((∀ k, (∀ j < k, ¬ Stops mem z a b j) → Clear m₀ k) →
        (StrcmpCorrect returnAddr m₀ s t ↔ Examined mem z a b D ∨
          ∃ M > D, Stops mem z a b M ∧ (∀ j < M, ¬ Stops mem z a b j) ∧
            (byteDiff mem a b M).toInt.sign = strcmp s t)) := by
  intro mem a b z D
  obtain ⟨hdec, hbefore, hsign⟩ := decidingIndex_spec hs ht
  have hnot : ∀ j < D, ¬ Stops mem z a b j := fun j hj h => hbefore j hj h.1
  have hexamined : Examined mem z a b D → StrcmpCorrect returnAddr m₀ s t := by
    intro hexam
    have hclear : ∀ j ≤ D, Clear m₀ j := fun j hj =>
      ⟨hfree.1 j (hj.trans (decidingIndex_le s t).1), hfree.2 j (hj.trans (decidingIndex_le s t).2)⟩
    exact (strcmpCorrect_iff_of_returnsAt
      (strcmp_returns hra hsp ⟨hdec, hexam⟩ hnot hclear)).mpr hsign.symm
  refine ⟨hexamined, fun hscan => ?_⟩
  -- The scan cannot stay outside the frame without stopping.
  have hstops : ∃ M, Stops mem z a b M := by
    by_contra hnone
    obtain ⟨k, hk⟩ := exists_not_clear m₀
    exact hk (hscan k fun j _ hj => hnone ⟨j, hj⟩)
  classical
  obtain ⟨M, hM, hleast⟩ : ∃ M, Stops mem z a b M ∧ ∀ j < M, ¬ Stops mem z a b j :=
    ⟨Nat.find hstops, Nat.find_spec hstops, fun j hj => Nat.find_min hstops hj⟩
  have hiff := strcmpCorrect_iff_of_returnsAt (s := s) (t := t)
    (strcmp_returns hra hsp hM hleast fun j hj => hscan j fun i hi => hleast i (by omega))
  constructor
  -- a right result comes from `D`, or by chance from a later position
  · intro hcorrect
    by_cases hexam : Examined mem z a b D
    · exact .inl hexam
    · have hDM : D < M := by
        by_contra hle
        obtain hlt | heq := lt_or_eq_of_le (not_lt.mp hle)
        · exact hnot M hlt hM
        · exact hexam (heq ▸ hM.2)
      exact .inr ⟨M, hDM, hM, hleast, hiff.mp hcorrect⟩
  -- the position given is the one at which the scan stops
  · rintro (hexam | ⟨M', -, hM', hleast', hsign'⟩)
    · exact hexamined hexam
    · have heq : M = M' := by
        obtain hlt | heq | hgt := Nat.lt_trichotomy M M'
        · exact absurd hM (hleast' M hlt)
        · exact heq
        · exact absurd hM' (hleast M' hgt)
      exact hiff.mpr (heq ▸ hsign')

/-- A call with the two pointers, an aligned stack and a caller at 256. -/
def strcmpCall (mem : Mem) (a b : Addr) : Machine where
  regs
    | .a0 => a
    | .a1 => b
    | .sp => 0x8000
    | .ra => 256
    | _ => 0
  vregs _ _ := 0
  mem := mem

/-- 31 times `a` at 0x1001, and 30 times `a`, then `b`, at 0x2002. -/
def skewedStrings : Mem := fun x =>
  if 0x1001 ≤ x.toNat ∧ x.toNat < 0x1020 then 0x61
  else if 0x2002 ≤ x.toNat ∧ x.toNat < 0x2020 then 0x61
  else if x.toNat = 0x2020 then 0x62
  else 0

/-- Co-aligned, two of these strings are compared over a block and ordered by the byte
    behind it. -/
theorem strcmp_correct_iff_aligned :
    StrcmpCorrect 512 (strcmpCall skewedStrings 0x1003 0x2003)
      (List.replicate 29 0x61) (List.replicate 29 0x61 ++ [0x62]) := by
  have hs : CString (strcmpCall skewedStrings 0x1003 0x2003).mem
      ((strcmpCall skewedStrings 0x1003 0x2003).get .a0) (List.replicate 29 0x61) := by
    decide +kernel
  have ht : CString (strcmpCall skewedStrings 0x1003 0x2003).mem
      ((strcmpCall skewedStrings 0x1003 0x2003).get .a1) (List.replicate 29 0x61 ++ [0x62]) := by
    decide +kernel
  have hiff := strcmp_correct_iff hs ht (show _ ≠ 512 by decide) (by decide) (by decide +kernel)
  exact hiff.1 (.inl (by decide))

/-- The strings differ at position 30.  The block test at position 15 compares
    bytes 15 to 30 of the first with bytes 14 to 29 of the second string and moves
    on to position 31, where both end. -/
theorem strcmp_skewed_wrong :
    CString skewedStrings 0x1001 (List.replicate 31 0x61) ∧
      CString skewedStrings 0x2002 (List.replicate 30 0x61 ++ [0x62]) ∧
      FrameFree (strcmpCall skewedStrings 0x1001 0x2002) (List.replicate 31 0x61)
        (List.replicate 30 0x61 ++ [0x62]) ∧
      ¬ StrcmpCorrect 512 (strcmpCall skewedStrings 0x1001 0x2002) (List.replicate 31 0x61)
        (List.replicate 30 0x61 ++ [0x62]) := by
  -- the loop stops one position too late, where both strings have ended
  have hM : Stops skewedStrings (fun _ => 0) 0x1001 0x2002 31 := by decide +kernel
  have hbefore : ∀ j < 31, ¬ Stops skewedStrings (fun _ => 0) 0x1001 0x2002 j := by decide +kernel
  have hclear : ∀ j ≤ 31, Clear (strcmpCall skewedStrings 0x1001 0x2002) j := by decide +kernel
  refine ⟨by decide +kernel, by decide +kernel, by decide +kernel, fun hcorrect => ?_⟩
  have hreturns : ReturnsAt 512 (strcmpCall skewedStrings 0x1001 0x2002) 31
      (memopsCode .s31XespvStrcmp) (strcmpCall skewedStrings 0x1001 0x2002) :=
    strcmp_returns (by decide) (by decide) hM hbefore hclear
  have hsign := (strcmpCorrect_iff_of_returnsAt hreturns).mp hcorrect
  exact absurd hsign (by decide +kernel)

end EspS31.Xespv.Strcmp
