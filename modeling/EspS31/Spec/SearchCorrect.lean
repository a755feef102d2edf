import EspS31.Spec.XespvRuns

/-!
# Correctness of the searching routines

`s31_xespv_memchr`, `s31_xespv_memrchr`, `s31_xespv_strnlen` and `s31_xespv_strlen` go
byte by byte to a block boundary and then test whole blocks: a block is compared with a
vector of one byte, the comparison is stored below the stack pointer and its words are
or-ed together.

## Key results

- `execs_vecTest_t0`: the test of a block
- `memchr_finds`, `memrchr_finds`, `strnlen_finds`, `strlen_finds`: what each search
  returns, and near which bytes it reads
-/

namespace EspS31.Xespv

open ByteMem

/-! ## The test of a block -/

/-- The comparison of a block with `q1` is stored at the new stack pointer. -/
def vecTestStore : Code := [
  .addi .sp .sp (-32),
  .sw .s0 16 .sp,
  .mv .s0 .a0,
  .vld .q0 .a0 0,
  .vcmpEqU8 .q2 .q0 .q1,
  .mv .a3 .sp,
  .vst .q2 .a3 0,
  .fence]

/-- Its end: the registers are as they were. -/
def vecTestRestore : Code := [
  .mv .a0 .s0,
  .lw .s0 16 .sp,
  .addi .sp .sp 32]

/-- The common part of `.Lmch_vec_check`, `.Lmr_vec_check` and `.Lsn_vec`. -/
def vecTest : Code := vecTestStore ++ (orLoads ++ vecTestRestore)

section

variable (m : Machine)

/-- The memory after the saves and the mask. -/
private theorem execs_vecTestStore_mem :
    (execs vecTestStore m).mem =
      storeBlock (storeWord m.mem (off (m.get .sp + -32) 16) (m.get .s0)) (m.get .sp + -32)
        (lanesEq (loadBlock (storeWord m.mem (off (m.get .sp + -32) 16) (m.get .s0)) (m.get .a0))
          (m.vregs .q1)) := by
  simp only [vecTestStore, execs, List.foldl, Instr.exec, Machine.get_set, Machine.get_setV,
    Machine.get_setMem, Machine.mem_set, Machine.mem_setV, Machine.mem_setMem, Machine.vregs_set,
    Machine.vregs_setMem, Machine.vregs_setV, reduceCtorEq, if_false, if_true]

/-- The frame lies below the stack pointer. -/
private theorem execs_vecTestStore_sp : (execs vecTestStore m).get .sp = m.get .sp + -32 := by
  rw [← List.take_append_drop 1 vecTestStore, execs_append, execs_get (by decide)]
  rfl

/-- The pointer is kept in `s0`. -/
private theorem execs_vecTestStore_s0 : (execs vecTestStore m).get .s0 = m.get .a0 := by
  rw [← List.take_append_drop 3 vecTestStore, execs_append, execs_get (by decide)]
  rfl

/-- The pointer, the saved register and the stack pointer come back. -/
private theorem execs_vecTestRestore : (execs vecTestRestore m).get .a0 = m.get .s0 ∧
    (execs vecTestRestore m).get .s0 = loadWord m.mem (off (m.get .sp) 16) ∧
    (execs vecTestRestore m).get .sp = m.get .sp + 32 := by
  simp [vecTestRestore, execs, Instr.exec]

/-- Only the saves and the mask are stored. -/
private theorem execs_vecTest_mem : (execs vecTest m).mem = (execs vecTestStore m).mem := by
  rw [vecTest, execs_append, execs_mem (by decide)]

/-- `t0` holds the words of the mask, put together. -/
private theorem execs_vecTest_t0_eq :
    (execs vecTest m).get .t0 = orWords (execs vecTestStore m).mem (m.get .sp + -32) := by
  rw [vecTest, execs_append, execs_append, execs_get (by decide), execs_orLoads,
    execs_vecTestStore_sp]

/-- The pointer is as it was. -/
private theorem execs_vecTest_a0 : (execs vecTest m).get .a0 = m.get .a0 := by
  rw [vecTest, execs_append, execs_append, (execs_vecTestRestore _).1, execs_get (by decide),
    execs_vecTestStore_s0]

/-- The stack pointer is as it was. -/
private theorem execs_vecTest_sp : (execs vecTest m).get .sp = m.get .sp := by
  rw [vecTest, execs_append, execs_append, (execs_vecTestRestore _).2.2, execs_get (by decide),
    execs_vecTestStore_sp, BitVec.add_assoc, BitVec.add_left_neg, BitVec.add_zero]

end

section

variable {m : Machine} (hsp : (m.get .sp).toNat % 16 = 0)
include hsp

/-- The test keeps to its frame. -/
private theorem execs_vecTest_agreeOff :
    AgreeOff (m.get .sp + -32) 32 m.mem (execs vecTest m).mem := by
  have hf : (m.get .sp + -32).toNat % 16 = 0 := add_aligned hsp (by decide)
  rw [execs_vecTest_mem, execs_vecTestStore_mem]
  refine AgreeOff.trans (AgreeOff.storeWord _ fun k hk => ?_)
    (AgreeOff.storeBlock _ hf (by decide) ?_)
  · rw [off_off]
    exact inFrame_off (by omega) (by omega)
  · exact inFrame_base (by omega)

/-- `s0` is saved beside the comparison. -/
private theorem execs_vecTest_s0 : (execs vecTest m).get .s0 = m.get .s0 := by
  have hf : (m.get .sp + -32).toNat % 16 = 0 := add_aligned hsp (by decide)
  have hload : (execs vecTest m).get .s0 =
      loadWord (execs vecTestStore m).mem (off (m.get .sp + -32) 16) := by
    rw [vecTest, execs_append, execs_append, (execs_vecTestRestore _).2.1, execs_get (by decide),
      execs_mem (by decide), execs_vecTestStore_sp]
  rw [hload, execs_vecTestStore_mem]
  -- the comparison does not reach the word
  refine (loadWord_congr fun k hk => ?_).trans (loadWord_storeWord_self m.mem _ (m.get .s0))
  rw [storeBlock_other]
  rw [off_off, off_toNat]
  generalize m.get .sp + -32 = f at hf
  have := f.isLt
  omega

/-- The or of the stored words tells whether the byte occurs in the block. -/
theorem execs_vecTest_t0 (hout : ¬ InFrame (m.get .sp + -32) 32 (m.get .a0)) :
    (execs vecTest m).get .t0 = 0 ↔ ∀ i, loadBlock m.mem (m.get .a0) i ≠ m.vregs .q1 i := by
  have hf : (m.get .sp + -32).toNat % 16 = 0 := add_aligned hsp (by decide)
  have hload : loadBlock (storeWord m.mem (off (m.get .sp + -32) 16) (m.get .s0)) (m.get .a0) =
      loadBlock m.mem (m.get .a0) := by
    refine AgreeOff.loadBlock (AgreeOff.storeWord _ fun k hk => ?_) hf (by decide) hout
    rw [off_off]
    exact inFrame_off (by omega) (by omega)
  rw [execs_vecTest_t0_eq, execs_vecTestStore_mem, hload]
  exact orWords_lanesEq fun k hk => storeBlock_same _ _ hf hk

omit hsp in
/-- The test reads the block and its frame. -/
private theorem readsLine_vecTest {R : Addr → Prop}
    (hblock : ∀ i < 16, R (off (align16 (m.get .a0)) i))
    (hframe : ∀ i < 32, R (off (m.get .sp + -32) i)) : ReadsLine R vecTest m := by
  have hword : ∀ (o : Nat), o + 4 ≤ 32 → ∀ i < 4, R (off (m.get .sp + -32) (o + i)) :=
    fun o ho i hi => hframe _ (by omega)
  refine ⟨trivial, trivial, trivial, hblock, trivial, trivial, trivial, trivial, hword 0 (by decide),
    hword 4 (by decide), trivial, hword 8 (by decide), trivial, hword 12 (by decide), trivial,
    trivial, hword 16 (by decide), trivial, trivial⟩

end

/-! ## Positions of a search -/

/-- The stack frame, and the blocks of the bytes at the positions `E` from `s` on. -/
def Near (base : Addr) (frame : Nat) (s : Addr) (E : Nat → Prop) (x : Addr) : Prop :=
  InFrame base frame x ∨ ∃ i, E i ∧ x.toNat / 16 = (off s i).toNat / 16

/-- The machine of a search for the byte `b` at position `k` from `s` on. -/
structure ScanAt (m₀ : Machine) (s : Addr) (b : Byte) (k : Nat) (m : Machine) : Prop where
  a0 : m.get .a0 = off s k
  q1 : m.vregs .q1 = fun _ => b
  mem : AgreeOff (m₀.get .sp + -32) 32 m₀.mem m.mem
  saved : Saved m₀ m

section

variable {m₀ m : Machine} {s : Addr} {b : Byte} {k : Nat}

/-- The stack pointer is that of the call. -/
theorem ScanAt.sp (h : ScanAt m₀ s b k m) : m.get .sp = m₀.get .sp := h.saved .sp (by decide)

/-- Lines that move the position only. -/
theorem ScanAt.move {ops : Code} {j : Nat} (h : ScanAt m₀ s b k m)
    (ha0 : (execs ops m).get .a0 = off s j) (hregs : ∀ r ∈ savedRegs, ∀ i ∈ ops, i.dest ≠ some r)
    (hq1 : ∀ i ∈ ops, i.vdest ≠ some .q1) (hmem : ∀ i ∈ ops, i.isStore = false) :
    ScanAt m₀ s b j (execs ops m) where
  a0 := ha0
  q1 := by rw [execs_vregs hq1, h.q1]
  mem := by
    rw [execs_mem hmem]
    exact h.mem
  saved := h.saved.execs hregs

/-- Instructions that write none of these registers and no memory keep the scan. -/
theorem ScanAt.line {ops : Code} (h : ScanAt m₀ s b k m)
    (hregs : ∀ r ∈ Reg.a0 :: savedRegs, ∀ i ∈ ops, i.dest ≠ some r)
    (hq1 : ∀ i ∈ ops, i.vdest ≠ some .q1) (hmem : ∀ i ∈ ops, i.isStore = false) :
    ScanAt m₀ s b k (execs ops m) :=
  h.move ((execs_get (hregs .a0 (List.mem_cons_self ..)) m).trans h.a0)
    (fun r hr => hregs r (List.mem_cons_of_mem _ hr)) hq1 hmem

/-- The test of a block keeps the scan. -/
theorem ScanAt.test (h : ScanAt m₀ s b k m) (hsp : (m₀.get .sp).toNat % 16 = 0) :
    ScanAt m₀ s b k (execs vecTest m) where
  a0 := by rw [execs_vecTest_a0, h.a0]
  q1 := by rw [execs_vregs (by decide), h.q1]
  mem := by
    have hagree := execs_vecTest_agreeOff (by rwa [h.sp] : (m.get .sp).toNat % 16 = 0)
    rw [h.sp] at hagree
    exact h.mem.trans hagree
  saved := by
    intro r hr
    -- the test restores `sp` and `s0` and writes none of the others
    obtain rfl | hsp' := eq_or_ne r .sp
    · rw [execs_vecTest_sp, h.sp]
    obtain rfl | hs0 := eq_or_ne r .s0
    · rw [execs_vecTest_s0 (by rwa [h.sp]), h.saved .s0 hr]
    · rw [execs_get, h.saved r hr]
      revert r
      decide

/-- The test of the block at an aligned position. -/
theorem ScanAt.t0_eq_zero_iff (h : ScanAt m₀ s b k m) (hsp : (m₀.get .sp).toNat % 16 = 0)
    (halign : (off s k).toNat % 16 = 0) (hout : ¬ InFrame (m₀.get .sp + -32) 32 (off s k)) :
    (execs vecTest m).get .t0 = 0 ↔ ∀ i < 16, m₀.mem (off s (k + i)) ≠ b := by
  have hf : (m₀.get .sp + -32).toNat % 16 = 0 := add_aligned hsp (by decide)
  -- the stack frame does not reach into the block
  have hblock : ∀ i : Fin 16, loadBlock m.mem (off s k) i = m₀.mem (off s (k + i)) := by
    intro i
    rw [h.mem.loadBlock hf (by decide) hout, loadBlock, align16_of_aligned halign, off_off]
  have hout' : ¬ InFrame (m.get .sp + -32) 32 (m.get .a0) := by rwa [h.sp, h.a0]
  rw [execs_vecTest_t0 (h.sp ▸ hsp) hout', h.a0, h.q1]
  constructor
  · intro hne i hi
    rw [← hblock ⟨i, hi⟩]
    exact hne _
  · intro hne i
    rw [hblock i]
    exact hne i i.isLt

/-- The test reads the block of a position that the search examines. -/
theorem ScanAt.reads_test_near {E : Nat → Prop} (h : ScanAt m₀ s b k m)
    (halign : (off s k).toNat % 16 = 0)
    (hE : ∃ j, E j ∧ (off s k).toNat / 16 = (off s j).toNat / 16) :
    ReadsLine (Near (m₀.get .sp + -32) 32 s E) vecTest m := by
  apply readsLine_vecTest
  -- the block that is compared is the aligned one, which an examined byte lies in
  · intro i hi
    obtain ⟨j, hj, hblock⟩ := hE
    rw [h.a0, align16_of_aligned halign]
    refine .inr ⟨j, hj, ?_⟩
    rw [← hblock]
    generalize off s k = x at halign
    rw [off_toNat]
    have := x.isLt
    omega
  · intro i hi
    rw [h.sp]
    exact .inl (inFrame_off hi (by omega))

/-- The test reads its own frame and the block of a byte that may be read. -/
theorem ScanAt.reads_test {E : Nat → Prop} (h : ScanAt m₀ s b k m)
    (halign : (off s k).toNat % 16 = 0) (hE : E k) :
    ReadsLine (Near (m₀.get .sp + -32) 32 s E) vecTest m :=
  h.reads_test_near halign ⟨k, hE, rfl⟩

/-- The byte at a position outside the frame. -/
theorem ScanAt.byte (h : ScanAt m₀ s b k m)
    (hout : ¬ InFrame (m₀.get .sp + -32) 32 (off s k)) :
    m.mem (off (m.get .a0) 0) = m₀.mem (off s k) := by
  rw [h.a0, off_zero]
  exact h.mem _ hout

end

/-- The low byte of a register, zero extended. -/
private theorem and_255_eq (c : BitVec 32) : c &&& 255#32 = (c.setWidth 8).setWidth 32 := by
  have hlow : c.toNat &&& 255 = c.toNat % 256 := Nat.and_two_pow_sub_one_eq_mod _ 8
  apply BitVec.eq_of_toNat_eq
  rw [BitVec.toNat_and, BitVec.toNat_setWidth, BitVec.toNat_setWidth, BitVec.toNat_ofNat,
    Nat.mod_eq_of_lt (show 255 < 2 ^ 32 by decide), hlow]
  omega

/-! ## The byte searched for -/

/-- `BYTE_PATTERN` after its multiplication. -/
private theorem bytePattern_eq :
    bytePattern .a1 = (bytePattern .a1).take 3 ++ patternVector .t1 .q1 := rfl

section

variable {m : Machine}

/-- The word of the pattern has the byte four times. -/
private theorem bytePattern_word {i : Nat} (hi : i < 4) :
    ((execs ((bytePattern .a1).take 3) m).get .t1).extractLsb' (8 * i) 8 =
      (m.get .a1).setWidth 8 := byte_pattern (m.get .a1) hi

/-- The argument is cut to its low byte. -/
theorem execs_bytePattern_a1 :
    (execs (bytePattern .a1) m).get .a1 = ((m.get .a1).setWidth 8).setWidth 32 := by
  rw [bytePattern_eq, execs_append, execs_get (by decide), ← and_255_eq]
  rfl

/-- The stack pointer is as it was. -/
theorem execs_bytePattern_sp : (execs (bytePattern .a1) m).get .sp = m.get .sp := by
  rw [bytePattern_eq, execs_append, execs_patternVector_sp, execs_get (by decide)]

/-- The pattern is stored below the stack pointer. -/
theorem execs_bytePattern_mem : (execs (bytePattern .a1) m).mem =
    overwrite m.mem (m.get .sp + -16) 0 16 fun _ => (m.get .a1).setWidth 8 := by
  rw [bytePattern_eq, execs_append,
    execs_patternVector_mem .q1 (by decide) fun _ hi => bytePattern_word hi,
    execs_get (by decide), execs_mem (by decide)]

variable (hsp : (m.get .sp).toNat % 16 = 0)
include hsp

/-- Each lane of the vector is the byte. -/
theorem execs_bytePattern_q1 :
    (execs (bytePattern .a1) m).vregs .q1 = fun _ => (m.get .a1).setWidth 8 := by
  rw [bytePattern_eq, execs_append]
  refine execs_patternVector_vregs .q1 (by decide) ?_ fun _ hi => bytePattern_word hi
  rwa [execs_get (by decide)]

/-- Making the pattern reads its own frame only. -/
theorem readsLine_bytePattern {R : Addr → Prop} (hR : ∀ i < 16, R (off (m.get .sp + -16) i)) :
    ReadsLine R (bytePattern .a1) m := by
  have hsp' : (execs ((bytePattern .a1).take 3) m).get .sp = m.get .sp := execs_get (by decide) m
  refine ⟨trivial, trivial, trivial, ?_⟩
  refine readsLine_patternVector (m := execs ((bytePattern .a1).take 3) m) .q1 ?_ ?_
  · rwa [hsp']
  · rwa [hsp']

end

/-- The pattern's block in the frame of a search. -/
theorem inFrame_pattern (sp : Addr) {i : Nat} (hi : i < 16) :
    InFrame (sp + -32) 32 (off (sp + -16) i) := by
  rw [show sp + -16 = off (sp + -32) 16 by rw [off, BitVec.add_assoc]; rfl, off_off]
  exact inFrame_off (by omega) (by omega)

/-- Only the frame differs after the pattern is made. -/
theorem agreeOff_pattern (sp : Addr) (mem : Mem) (f : Nat → Byte) :
    AgreeOff (sp + -32) 32 mem (overwrite mem (sp + -16) 0 16 f) := by
  refine AgreeOff.mono (overwrite_agreeOff _ _ _ _ _) fun x hx => ?_
  rw [← off_toNat_sub (sp + -16) x]
  exact inFrame_pattern sp hx

/-- The registers that building the pattern leaves alone. -/
theorem saved_bytePattern (m : Machine) : Saved m (execs (bytePattern .a1) m) := by
  intro r hr
  obtain rfl | hsp := eq_or_ne r .sp
  · exact execs_bytePattern_sp
  · rw [execs_get]
    revert r
    decide

/-! ## `s31_xespv_memchr` -/

namespace Memchr

/-- The byte searched for. -/
def needle (m₀ : Machine) : Byte := (m₀.get .a1).setWidth 8

/-- There is no hit among the first `k` bytes. -/
def NoneBelow (m₀ : Machine) (k : Nat) : Prop :=
  ∀ i < k, m₀.mem (off (m₀.get .a0) i) ≠ needle m₀

/-- The positions that a search byte by byte examines. -/
def Examines (m₀ : Machine) (i : Nat) : Prop := i < (m₀.get .a2).toNat ∧ NoneBelow m₀ i

/-- The first hit is returned, or NULL. -/
def Found (m₀ m : Machine) : Prop :=
  (∃ k, Examines m₀ k ∧ m₀.mem (off (m₀.get .a0) k) = needle m₀ ∧ m.get .a0 = off (m₀.get .a0) k) ∨
    (NoneBelow m₀ (m₀.get .a2).toNat ∧ m.get .a0 = 0)

/-- The search reads near the bytes it examines, leaves memory alone outside its frame
    and returns with its result. -/
def Finds (addr : Label → Addr) (m₀ : Machine) (c : Config Label) : Prop :=
  Leads (memopsAt addr) (Near (m₀.get .sp + -32) 32 (m₀.get .a0) (Examines m₀))
    (Returned (memopsAt addr) m₀ fun m =>
      AgreeOff (m₀.get .sp + -32) 32 m₀.mem m.mem ∧ Found m₀ m) c

/-- `k` bytes have been passed, none of them the one looked for. -/
structure At (m₀ : Machine) (k : Nat) (m : Machine) : Prop where
  scan : ScanAt m₀ (m₀.get .a0) (needle m₀) k m
  a1 : m.get .a1 = (needle m₀).setWidth 32
  a2 : (m.get .a2).toNat = (m₀.get .a2).toNat - k
  none : NoneBelow m₀ k

section

variable {m₀ m : Machine} {k : Nat} {addr : Label → Addr}

/-- At the byte the search ends with its address. -/
theorem At.done (h : At m₀ k m) (hk : k < (m₀.get .a2).toNat)
    (hhit : m₀.mem (off (m₀.get .a0) k) = needle m₀) :
    Finds addr m₀ ⟨.run (memopsCode .LmchDone), m⟩ :=
  Leads.ret h.scan.saved ⟨h.scan.mem, .inl ⟨k, ⟨hk, h.none⟩, hhit, h.scan.a0⟩⟩

/-- Instructions that write neither these registers nor memory keep the state. -/
theorem At.line {ops : Code} (h : At m₀ k m)
    (hregs : ∀ r ∈ [Reg.a0, .a1, .a2] ++ savedRegs, ∀ i ∈ ops, i.dest ≠ some r)
    (hq1 : ∀ i ∈ ops, i.vdest ≠ some .q1) (hmem : ∀ i ∈ ops, i.isStore = false) :
    At m₀ k (execs ops m) where
  scan := h.scan.line (fun r hr => hregs r (by simp only [List.mem_cons] at hr; grind)) hq1 hmem
  a1 := by rw [execs_get (hregs .a1 (by simp)), h.a1]
  a2 := by rw [execs_get (hregs .a2 (by simp)), h.a2]
  none := h.none

/-- At the end of the range NULL is returned. -/
theorem At.null (h : At m₀ k m) (hk : (m₀.get .a2).toNat ≤ k) :
    Finds addr m₀ ⟨.run (memopsCode .LmchNull), m⟩ := by
  refine Leads.line memchrNull (by decide) ⟨trivial, trivial⟩ ?_
  refine Leads.ret (h.scan.saved.execs (by decide)) ⟨h.scan.mem, .inr ⟨fun i hi => ?_, rfl⟩⟩
  exact h.none i (by omega)

/-- A round that passes `j` bytes without the one looked for. -/
theorem At.advance {ops : Code} {j : Nat} (h : At m₀ k m) (hj : k + j ≤ (m₀.get .a2).toNat)
    (ha0 : bumps .a0 ops = some (BitVec.ofNat 32 j))
    (ha2 : bumps .a2 ops = some (-BitVec.ofNat 32 j))
    (hregs : ∀ r ∈ Reg.a1 :: savedRegs, ∀ i ∈ ops, i.dest ≠ some r)
    (hq1 : ∀ i ∈ ops, i.vdest ≠ some .q1) (hmem : ∀ i ∈ ops, i.isStore = false)
    (hnone : ∀ i < j, m₀.mem (off (m₀.get .a0) (k + i)) ≠ needle m₀) :
    At m₀ (k + j) (execs ops m) where
  scan := by
    refine h.scan.move ?_ (fun r hr => hregs r (List.mem_cons_of_mem _ hr)) hq1 hmem
    rw [execs_bumps (by decide) ha0, h.scan.a0, off_add]
  a1 := by rw [execs_get (hregs .a1 (List.mem_cons_self ..)), h.a1]
  a2 := by
    rw [execs_bumps (by decide) ha2, toNat_add_neg (by rw [h.a2]; omega), h.a2]
    omega
  none := by
    intro i hi
    -- the bytes passed before and the new ones
    obtain hlt | hge := Nat.lt_or_ge i k
    · exact h.none i hlt
    · have hne := hnone (i - k) (by omega)
      rwa [Nat.add_sub_cancel' hge] at hne

/-- The count is zero exactly at the end of the range. -/
theorem At.a2_eq_zero_iff (h : At m₀ k m) : m.get .a2 = 0 ↔ (m₀.get .a2).toNat ≤ k := by
  rw [← BitVec.toNat_inj, h.a2, BitVec.ofNat_eq_ofNat, BitVec.toNat_zero]
  omega

/-- One byte is tested, and the search goes on at `l`. -/
theorem At.byte {l : Label} {rest : Code} (h : At m₀ k m) (hk : k < (m₀.get .a2).toNat)
    (hout : ∀ i, Examines m₀ i → ¬ InFrame (m₀.get .sp + -32) 32 (off (m₀.get .a0) i))
    (hnext : m₀.mem (off (m₀.get .a0) k) ≠ needle m₀ → ∀ m', At m₀ (k + 1) m' →
      Finds addr m₀ ⟨.run (memopsCode l), m'⟩) :
    Finds addr m₀ ⟨.run ([.lbu .t0 0 .a0, .beq .t0 .a1 .LmchDone, .addi .a0 .a0 1,
      .addi .a2 .a2 (-1), .j l] ++ rest), m⟩ := by
  have hexam : Examines m₀ k := ⟨hk, h.none⟩
  refine Leads.line [.lbu .t0 0 .a0] (by decide) ⟨?_, trivial⟩ ?_
  · -- the byte itself is examined
    show Near _ _ _ _ (off (m.get .a0) 0)
    rw [h.scan.a0, off_zero]
    exact .inr ⟨k, hexam, rfl⟩
  -- the byte loaded is that of the first memory, the stack frame being elsewhere
  have ht0 : (execs (L := Label) [.lbu .t0 0 .a0] m).get .t0 =
      (m₀.mem (off (m₀.get .a0) k)).setWidth 32 := by
    rw [← h.scan.byte (hout k hexam)]
    rfl
  have h' : At m₀ k (execs [.lbu .t0 0 .a0] m) :=
    h.line (by decide) (by decide) (by decide)
  -- the byte is the one searched for, or the search goes on below it
  refine Leads.beq (fun heq => ?_) fun hne => ?_
  · rw [ht0, h'.a1, setWidth_eq_iff] at heq
    exact h'.done hk heq
  · rw [ht0, h'.a1, setWidth_eq_iff] at hne
    refine Leads.line [.addi .a0 .a0 1, .addi .a2 .a2 (-1)] (by decide)
      ⟨trivial, trivial, trivial⟩ (.j (hnext hne _ (h'.advance (by omega) (by decide) (by decide) (by decide)
        (by decide) (by decide) fun i hi => ?_)))
    obtain rfl : i = 0 := by omega
    exact hne

variable (hsp : (m₀.get .sp).toNat % 16 = 0)
  (hout : ∀ i, Examines m₀ i → ¬ InFrame (m₀.get .sp + -32) 32 (off (m₀.get .a0) i))

include hout in
/-- From the bytes after the blocks the search ends right, by induction on what is left. -/
theorem At.tail (h : At m₀ k m) : Finds addr m₀ ⟨.run (memopsCode .LmchTail), m⟩ := by
  induction hleft : (m₀.get .a2).toNat - k generalizing k m with
  | zero =>
    refine Leads.beqz (fun _ => h.null (by omega)) fun hne => ?_
    exact absurd (h.a2_eq_zero_iff.mpr (by omega)) hne
  | succ left ih =>
    refine Leads.beqz (fun hzero => h.null (h.a2_eq_zero_iff.mp hzero)) fun _ => ?_
    · exact h.byte (by omega) hout fun _ m' h' => ih h' (by omega)

include hout in
/-- The byte is known to occur before position `e`. -/
theorem At.hit {e : Nat} (h : At m₀ k m) (he : e ≤ (m₀.get .a2).toNat)
    (hhit : ∃ i < e, m₀.mem (off (m₀.get .a0) i) = needle m₀) :
    Finds addr m₀ ⟨.run (memopsCode .LmchHit), m⟩ := by
  obtain ⟨i, hi, hhit⟩ := hhit
  have hki : k ≤ i := Nat.le_of_not_lt fun hlt => h.none i hlt hhit
  induction hleft : i - k generalizing k m with
  | zero =>
    obtain rfl : k = i := by omega
    exact h.byte (by omega) hout fun hne => absurd hhit hne
  | succ left ih => exact h.byte (by omega) hout fun _ m' h' => ih h' (by omega) (by omega)

include hsp hout in
/-- From a block boundary the search ends right, by induction on the blocks left. -/
theorem At.vecCheck (h : At m₀ k m) (halign : (off (m₀.get .a0) k).toNat % 16 = 0) :
    Finds addr m₀ ⟨.run (memopsCode .LmchVecCheck), m⟩ := by
  -- induction on the bytes left, 16 of them in each round
  induction hleft : (m₀.get .a2).toNat - k using Nat.strong_induction_on generalizing k m with
  | _ left ih =>
    refine Leads.line (memchrVecCheck.take 1) (by decide) ⟨trivial, trivial⟩ ?_
    have h₁ : At m₀ k (execs (memchrVecCheck.take 1) m) :=
      h.line (by decide) (by decide) (by decide)
    refine Leads.bltu (fun _ => h₁.tail hout) fun hlt => ?_
    have hge : 16 ≤ (m₀.get .a2).toNat - k := by
      rw [← h₁.a2]
      exact Nat.le_of_not_lt hlt
    have hexam : Examines m₀ k := ⟨by omega, h.none⟩
    refine Leads.line vecTest (by decide) (h₁.scan.reads_test halign hexam) ?_
    have htest := h₁.scan.t0_eq_zero_iff hsp halign (hout k hexam)
    have h₂ : At m₀ k (execs vecTest (execs (memchrVecCheck.take 1) m)) := by
      refine ⟨h₁.scan.test hsp, ?_, ?_, h.none⟩
      · rw [execs_get (by decide), h₁.a1]
      · rw [execs_get (by decide), h₁.a2]
    generalize execs vecTest (execs (memchrVecCheck.take 1) m) = m₂ at htest h₂ ⊢
    refine Leads.bnez (fun hne => ?_) fun hzero => ?_
    · -- some lane agrees
      refine h₂.hit hout (e := k + 16) (by omega) ?_
      by_contra hnone
      refine hne (htest.mpr fun i hi heq => hnone ⟨k + i, by omega, heq⟩)
    · have hnone := htest.mp (not_not.mp hzero)
      have h₃ : At m₀ (k + 16) (execs ((memchrVecCheck.drop 21).take 2) m₂) :=
        h₂.advance (by omega) (by decide) (by decide) (by decide) (by decide) (by decide) hnone
      refine Leads.line ((memchrVecCheck.drop 21).take 2) (by decide) ⟨trivial, trivial, trivial⟩ ?_
      exact .j (ih _ (by omega) h₃ (off_add_aligned (by decide) halign) rfl)

include hsp hout in
/-- From the start the search ends right, by induction on what is left. -/
theorem At.align (h : At m₀ k m) : Finds addr m₀ ⟨.run (memopsCode .LmchAlign), m⟩ := by
  induction hleft : (m₀.get .a2).toNat - k generalizing k m with
  | zero =>
    refine Leads.beqz (fun _ => h.null (by omega)) fun hne => ?_
    exact absurd (h.a2_eq_zero_iff.mpr (by omega)) hne
  | succ left ih =>
    refine Leads.beqz (fun hzero => h.null (h.a2_eq_zero_iff.mp hzero)) fun _ => ?_
    · refine Leads.line ((memchrAlign.drop 1).take 1) (by decide) ⟨trivial, trivial⟩ ?_
      have h₁ : At m₀ k (execs ((memchrAlign.drop 1).take 1) m) :=
        h.line (by decide) (by decide) (by decide)
      refine Leads.beqz (fun hzero => ?_) fun _ => ?_
      -- at a block boundary the blocks take over
      · have halign := (and_15_eq_zero_iff (m.get .a0)).mp hzero
        rw [h.scan.a0] at halign
        exact h₁.vecCheck hsp hout halign
      · exact h₁.byte (by omega) hout fun _ m' h' => ih h' (by omega)

end

/-- `s31_xespv_memchr` finds the first hit. -/
theorem memchr_finds (addr : Label → Addr) (m₀ : Machine) (hsp : (m₀.get .sp).toNat % 16 = 0)
    (hout : ∀ i, Examines m₀ i → ¬ InFrame (m₀.get .sp + -32) 32 (off (m₀.get .a0) i)) :
    Finds addr m₀ ⟨.run (memopsCode .s31XespvMemchr), m₀⟩ := by
  refine Leads.line memchrEntry (by decide)
    (readsLine_bytePattern hsp fun i hi => .inl (inFrame_pattern _ hi)) ?_
  refine At.align hsp hout (k := 0) ⟨⟨?_, execs_bytePattern_q1 hsp, ?_, saved_bytePattern m₀⟩,
    execs_bytePattern_a1, ?_, ?_⟩
  · rw [execs_get (by decide), off_zero]
  · exact execs_bytePattern_mem.symm ▸ agreeOff_pattern _ _ _
  · rw [execs_get (by decide), Nat.sub_zero]
  · exact fun i hi => absurd hi (Nat.not_lt_zero i)

end Memchr

/-! ## `s31_xespv_memrchr` -/

namespace Memrchr

open Memchr (needle)

/-- There is no hit from position `k` on. -/
def NoneFrom (m₀ : Machine) (k : Nat) : Prop :=
  ∀ i, k ≤ i → i < (m₀.get .a2).toNat → m₀.mem (off (m₀.get .a0) i) ≠ needle m₀

/-- The positions that a search byte by byte from the end examines. -/
def Examines (m₀ : Machine) (i : Nat) : Prop := i < (m₀.get .a2).toNat ∧ NoneFrom m₀ (i + 1)

/-- The last hit is returned, or NULL. -/
def Found (m₀ m : Machine) : Prop :=
  (∃ k, Examines m₀ k ∧ m₀.mem (off (m₀.get .a0) k) = needle m₀ ∧ m.get .a0 = off (m₀.get .a0) k) ∨
    (NoneFrom m₀ 0 ∧ m.get .a0 = 0)

/-- The routine ends right, and reads its frame and bytes it may read. -/
def Finds (addr : Label → Addr) (m₀ : Machine) (c : Config Label) : Prop :=
  Leads (memopsAt addr) (Near (m₀.get .sp + -32) 32 (m₀.get .a0) (Examines m₀))
    (Returned (memopsAt addr) m₀ fun m =>
      AgreeOff (m₀.get .sp + -32) 32 m₀.mem m.mem ∧ Found m₀ m) c

/-- The position is where the bytes not yet searched end. -/
structure At (m₀ : Machine) (k : Nat) (m : Machine) : Prop where
  scan : ScanAt m₀ (m₀.get .a0) (needle m₀) k m
  a1 : m.get .a1 = (needle m₀).setWidth 32
  none : NoneFrom m₀ k

section

variable {m₀ m : Machine} {k : Nat} {addr : Label → Addr}

/-- Instructions that write neither these registers nor memory keep the state. -/
theorem At.line {ops : Code} (h : At m₀ k m)
    (hregs : ∀ r ∈ [Reg.a0, .a1] ++ savedRegs, ∀ i ∈ ops, i.dest ≠ some r)
    (hq1 : ∀ i ∈ ops, i.vdest ≠ some .q1) (hmem : ∀ i ∈ ops, i.isStore = false) :
    At m₀ k (execs ops m) where
  scan := h.scan.line (fun r hr => hregs r (by simp only [List.mem_cons] at hr; grind)) hq1 hmem
  a1 := by rw [execs_get (hregs .a1 (by simp)), h.a1]
  none := h.none

/-- At the start of the range NULL is returned. -/
theorem At.null (h : At m₀ 0 m) : Finds addr m₀ ⟨.run (memopsCode .LmrNull), m⟩ := by
  refine Leads.line memrchrNull (by decide) ⟨trivial, trivial⟩ ?_
  exact Leads.ret (h.scan.saved.execs (by decide)) ⟨h.scan.mem, .inr ⟨h.none, rfl⟩⟩

/-- The byte below the position is tested. -/
theorem At.byte {rest : Code} (h : At m₀ (k + 1) m) (hk : k < (m₀.get .a2).toNat)
    (hout : ∀ i, Examines m₀ i → ¬ InFrame (m₀.get .sp + -32) 32 (off (m₀.get .a0) i))
    (hnext : m₀.mem (off (m₀.get .a0) k) ≠ needle m₀ → ∀ m', At m₀ k m' →
      m'.get .a2 = m.get .a2 → Finds addr m₀ ⟨.run rest, m'⟩) :
    Finds addr m₀ ⟨.run ([.addi .a0 .a0 (-1), .lbu .t0 0 .a0, .beq .t0 .a1 .LmrDone] ++ rest), m⟩ := by
  have hexam : Examines m₀ k := ⟨hk, h.none⟩
  refine Leads.line [.addi .a0 .a0 (-1)] (by decide) ⟨trivial, trivial⟩ ?_
  have ha0 : (execs (L := Label) [.addi .a0 .a0 (-1)] m).get .a0 = off (m₀.get .a0) k := by
    rw [execs_bumps (v := -BitVec.ofNat 32 1) (by decide) (by decide), h.scan.a0,
      off_add_neg _ (by omega), Nat.add_sub_cancel]
  have hscan : ScanAt m₀ (m₀.get .a0) (needle m₀) k (execs [.addi .a0 .a0 (-1)] m) :=
    h.scan.move ha0 (by decide) (by decide) (by decide)
  have ha1 : (execs (L := Label) [.addi .a0 .a0 (-1)] m).get .a1 = (needle m₀).setWidth 32 := by
    rw [execs_get (by decide), h.a1]
  have ha2 : (execs (L := Label) [.addi .a0 .a0 (-1)] m).get .a2 = m.get .a2 :=
    execs_get (by decide) m
  generalize execs (L := Label) [.addi .a0 .a0 (-1)] m = m₁ at hscan ha1 ha2 ⊢
  refine Leads.line [.lbu .t0 0 .a0] (by decide) ⟨?_, trivial⟩ ?_
  · show Near _ _ _ _ (off (m₁.get .a0) 0)
    rw [hscan.a0, off_zero]
    exact .inr ⟨k, hexam, rfl⟩
  have ht0 : (execs (L := Label) [.lbu .t0 0 .a0] m₁).get .t0 =
      (m₀.mem (off (m₀.get .a0) k)).setWidth 32 := by
    rw [← hscan.byte (hout k hexam)]
    rfl
  have ha1' : (execs (L := Label) [.lbu .t0 0 .a0] m₁).get .a1 = (needle m₀).setWidth 32 := by
    rw [execs_get (by decide), ha1]
  have ha2' : (execs (L := Label) [.lbu .t0 0 .a0] m₁).get .a2 = m.get .a2 := by
    rw [execs_get (by decide), ha2]
  have hscan' : ScanAt m₀ (m₀.get .a0) (needle m₀) k (execs [.lbu .t0 0 .a0] m₁) :=
    hscan.line (by decide) (by decide) (by decide)
  refine Leads.beq (fun heq => ?_) fun hne => ?_
  · rw [ht0, ha1', setWidth_eq_iff] at heq
    exact Leads.ret hscan'.saved ⟨hscan'.mem, .inl ⟨k, hexam, heq, hscan'.a0⟩⟩
  · rw [ht0, ha1', setWidth_eq_iff] at hne
    refine hnext hne _ ⟨hscan', ha1', fun i hki hi => ?_⟩ ha2'
    obtain rfl | hlt := Nat.eq_or_lt_of_le hki
    · exact hne
    · exact h.none i hlt hi

variable (hsp : (m₀.get .sp).toNat % 16 = 0)
  (hout : ∀ i, Examines m₀ i → ¬ InFrame (m₀.get .sp + -32) 32 (off (m₀.get .a0) i))

/-- The byte is tested and the search goes on at `l` with one byte less. -/
theorem At.countedByte {l : Label} {rest : Code} (h : At m₀ (k + 1) m)
    (ha2 : (m.get .a2).toNat = k + 1) (hk : k < (m₀.get .a2).toNat)
    (hout : ∀ i, Examines m₀ i → ¬ InFrame (m₀.get .sp + -32) 32 (off (m₀.get .a0) i))
    (hnext : ∀ m', At m₀ k m' → (m'.get .a2).toNat = k → Finds addr m₀ ⟨.run (memopsCode l), m'⟩) :
    Finds addr m₀ ⟨.run ([.addi .a0 .a0 (-1), .lbu .t0 0 .a0, .beq .t0 .a1 .LmrDone,
      .addi .a2 .a2 (-1), .j l] ++ rest), m⟩ := by
  refine h.byte hk hout fun _ m₁ h₁ ha2₁ => ?_
  refine Leads.line [.addi .a2 .a2 (-1)] (by decide) ⟨trivial, trivial⟩ (.j (hnext _ ?_ ?_))
  · exact h₁.line (by decide) (by decide) (by decide)
  · rw [execs_bumps (v := -BitVec.ofNat 32 1) (by decide) (by decide),
      toNat_add_neg (by rw [ha2₁, ha2]; omega), ha2₁, ha2, Nat.add_sub_cancel]

include hout in
/-- From the bytes below the blocks the search ends right. -/
theorem At.tail (h : At m₀ k m) (ha2 : (m.get .a2).toNat = k) (hk : k ≤ (m₀.get .a2).toNat) :
    Finds addr m₀ ⟨.run (memopsCode .LmrTail), m⟩ := by
  induction k generalizing m with
  | zero => exact .beqz (fun _ => h.null) fun hne => absurd (BitVec.eq_of_toNat_eq ha2) hne
  | succ k ih =>
    refine Leads.beqz (fun hzero => ?_) fun _ => ?_
    · rw [hzero] at ha2
      exact nomatch ha2
    · exact h.countedByte ha2 hk hout fun m' h' ha2' => ih h' ha2' (by omega)

include hout in
/-- The byte is known to occur at a position `i` not yet searched. -/
theorem At.hitLoop {i : Nat} (h : At m₀ k m) (hk : k ≤ (m₀.get .a2).toNat) (hi : i < k)
    (hhit : m₀.mem (off (m₀.get .a0) i) = needle m₀) :
    Finds addr m₀ ⟨.run (memopsCode .LmrHitLoop), m⟩ := by
  induction k generalizing m with
  | zero => exact absurd hi (Nat.not_lt_zero i)
  | succ k ih =>
    refine h.byte hk hout fun hne m' h' _ => .j (ih h' (by omega) ?_)
    obtain rfl | hlt := Nat.eq_or_lt_of_le (Nat.le_of_lt_succ hi)
    · exact absurd hhit hne
    · exact hlt

include hsp hout in
/-- From a block boundary the search ends right, by induction on the blocks left. -/
theorem At.vecCheck (h : At m₀ k m) (ha2 : (m.get .a2).toNat = k) (hk : k ≤ (m₀.get .a2).toNat)
    (halign : (off (m₀.get .a0) k).toNat % 16 = 0) :
    Finds addr m₀ ⟨.run (memopsCode .LmrVecCheck), m⟩ := by
  induction k using Nat.strong_induction_on generalizing m with
  | _ k ih =>
    refine Leads.line (memrchrVecCheck.take 1) (by decide) ⟨trivial, trivial⟩ ?_
    have h₁ : At m₀ k (execs (memrchrVecCheck.take 1) m) :=
      h.line (by decide) (by decide) (by decide)
    refine Leads.bltu (fun _ => h₁.tail hout ha2 hk) fun hlt => ?_
    obtain ⟨j, rfl⟩ : ∃ j, k = j + 16 := ⟨k - 16, by
      have : 16 ≤ k := by
        rw [← ha2]
        exact Nat.le_of_not_lt hlt
      omega⟩
    have halign' := off_aligned_of_add (j := 16) (by decide) halign
    -- the first byte of the block that a search from the end looks at is its last
    have hexam : Examines m₀ (j + 15) := ⟨by omega, h.none⟩
    have hblock : (off (m₀.get .a0) j).toNat / 16 = (off (m₀.get .a0) (j + 15)).toNat / 16 := by
      rw [← off_off]
      generalize off (m₀.get .a0) j = x at halign'
      rw [off_toNat]
      have := x.isLt
      omega
    refine Leads.line ((memrchrVecCheck.drop 2).take 1) (by decide) ⟨trivial, trivial⟩ ?_
    have ha0 : (execs ((memrchrVecCheck.drop 2).take 1) (execs (memrchrVecCheck.take 1) m)).get .a0 =
        off (m₀.get .a0) j := by
      rw [execs_bumps (v := -BitVec.ofNat 32 16) (by decide) (by decide), h₁.scan.a0,
        off_add_neg _ (by omega), Nat.add_sub_cancel]
    have hscan := h₁.scan.move ha0 (by decide) (by decide) (by decide)
    have ha1 : (execs ((memrchrVecCheck.drop 2).take 1) (execs (memrchrVecCheck.take 1) m)).get .a1 =
        (needle m₀).setWidth 32 := by
      rw [execs_get (by decide), h₁.a1]
    have ha2' : (execs ((memrchrVecCheck.drop 2).take 1) (execs (memrchrVecCheck.take 1) m)).get .a2 =
        m.get .a2 := by
      rw [execs_get (by decide), execs_get (by decide)]
    generalize execs ((memrchrVecCheck.drop 2).take 1) (execs (memrchrVecCheck.take 1) m) = m₁
      at hscan ha1 ha2' ⊢
    have hframe : ¬ InFrame (m₀.get .sp + -32) 32 (off (m₀.get .a0) j) := fun hin =>
      hout _ hexam ((inFrame_congr (add_aligned hsp (by decide)) (by decide) hblock).mp hin)
    refine Leads.line vecTest (by decide) (hscan.reads_test_near halign' ⟨j + 15, hexam, hblock⟩) ?_
    have htest := hscan.t0_eq_zero_iff hsp halign' hframe
    have hscan' := hscan.test hsp
    have ha1' : (execs vecTest m₁).get .a1 = (needle m₀).setWidth 32 := by
      rw [execs_get (by decide), ha1]
    have ha2'' : (execs vecTest m₁).get .a2 = m.get .a2 := by
      rw [execs_get (by decide), ha2']
    generalize execs vecTest m₁ = m₂ at htest hscan' ha1' ha2'' ⊢
    refine Leads.bnez (fun hne => ?_) fun hzero => ?_
    · -- some lane agrees: back to the end of the block
      obtain ⟨i, hi, hhit⟩ : ∃ i < 16, m₀.mem (off (m₀.get .a0) (j + i)) = needle m₀ := by
        by_contra hnone
        exact hne (htest.mpr fun i hi heq => hnone ⟨i, hi, heq⟩)
      refine Leads.line memrchrHit (by decide) ⟨trivial, trivial⟩ ?_
      have h₃ : At m₀ (j + 16) (execs memrchrHit m₂) := by
        refine ⟨hscan'.move ?_ (by decide) (by decide) (by decide), ?_, h.none⟩
        · rw [execs_bumps (v := BitVec.ofNat 32 16) (by decide) (by decide), hscan'.a0, off_add]
        · rw [execs_get (by decide), ha1']
      exact h₃.hitLoop hout hk (by omega) hhit
    · have hnone := htest.mp (not_not.mp hzero)
      refine Leads.line ((memrchrVecCheck.drop 22).take 1) (by decide) ⟨trivial, trivial⟩ ?_
      have h₃ : At m₀ j (execs ((memrchrVecCheck.drop 22).take 1) m₂) := by
        refine ⟨hscan'.line (by decide) (by decide) (by decide), ?_, fun i hji hi => ?_⟩
        · rw [execs_get (by decide), ha1']
        · obtain hlt | hge := Nat.lt_or_ge i (j + 16)
          · have hne := hnone (i - j) (by omega)
            rwa [Nat.add_sub_cancel' hji] at hne
          · exact h.none i hge hi
      refine .j (ih j (by omega) h₃ ?_ (by omega) halign')
      rw [execs_bumps (v := -BitVec.ofNat 32 16) (by decide) (by decide), ha2'',
        toNat_add_neg (by omega), ha2, Nat.add_sub_cancel]

include hsp hout in
/-- From the end the search ends right, by induction on what is left. -/
theorem At.align (h : At m₀ k m) (ha2 : (m.get .a2).toNat = k) (hk : k ≤ (m₀.get .a2).toNat) :
    Finds addr m₀ ⟨.run (memopsCode .LmrAlign), m⟩ := by
  induction k generalizing m with
  | zero => exact .beqz (fun _ => h.null) fun hne => absurd (BitVec.eq_of_toNat_eq ha2) hne
  | succ k ih =>
    refine Leads.beqz (fun hzero => ?_) fun _ => ?_
    · rw [hzero] at ha2
      exact nomatch ha2
    · refine Leads.line ((memrchrAlign.drop 1).take 1) (by decide) ⟨trivial, trivial⟩ ?_
      have h₁ : At m₀ (k + 1) (execs ((memrchrAlign.drop 1).take 1) m) :=
        h.line (by decide) (by decide) (by decide)
      have ha2' : ((execs ((memrchrAlign.drop 1).take 1) m).get .a2).toNat = k + 1 := by
        rw [execs_get (by decide), ha2]
      refine Leads.beqz (fun hzero => ?_) fun _ => ?_
      · have halign := (and_15_eq_zero_iff (m.get .a0)).mp hzero
        rw [h.scan.a0] at halign
        exact h₁.vecCheck hsp hout ha2' hk halign
      -- otherwise one byte is examined, and there is one less
      · exact h₁.countedByte ha2' hk hout fun m' h' ha2₁ => ih h' ha2₁ (by omega)

end

/-- `s31_xespv_memrchr` finds the last hit. -/
theorem memrchr_finds (addr : Label → Addr) (m₀ : Machine) (hsp : (m₀.get .sp).toNat % 16 = 0)
    (hout : ∀ i, Examines m₀ i → ¬ InFrame (m₀.get .sp + -32) 32 (off (m₀.get .a0) i)) :
    Finds addr m₀ ⟨.run (memopsCode .s31XespvMemrchr), m₀⟩ := by
  refine Leads.line (memrchrEntry.take 1) (by decide) ⟨trivial, trivial⟩ ?_
  -- the search begins behind the last byte
  have hend : (execs (memrchrEntry.take 1) m₀).get .a0 = off (m₀.get .a0) (m₀.get .a2).toNat := by
    rw [off, BitVec.ofNat_toNat, BitVec.setWidth_eq]
    rfl
  have hsp' : (execs (memrchrEntry.take 1) m₀).get .sp = m₀.get .sp := execs_get (by decide) m₀
  have ha1 : (execs (memrchrEntry.take 1) m₀).get .a1 = m₀.get .a1 := execs_get (by decide) m₀
  have ha2 : (execs (memrchrEntry.take 1) m₀).get .a2 = m₀.get .a2 := execs_get (by decide) m₀
  have hmem : (execs (memrchrEntry.take 1) m₀).mem = m₀.mem := execs_mem (by decide) m₀
  have hsaved : Saved m₀ (execs (memrchrEntry.take 1) m₀) := (Saved.refl m₀).execs (by decide)
  generalize execs (memrchrEntry.take 1) m₀ = m₁ at hend hsp' ha1 ha2 hmem hsaved ⊢
  refine Leads.line (bytePattern .a1) (by decide) ?_ ?_
  · refine readsLine_bytePattern (by rwa [hsp']) fun i hi => ?_
    rw [hsp']
    exact .inl (inFrame_pattern _ hi)
  refine At.align hsp hout (k := (m₀.get .a2).toNat) ⟨⟨?_, ?_, ?_, ?_⟩, ?_, ?_⟩ ?_ le_rfl
  · rw [execs_get (by decide), hend]
  · rw [execs_bytePattern_q1 (by rwa [hsp']), ha1, needle]
  · rw [execs_bytePattern_mem, hmem, hsp']
    exact agreeOff_pattern _ _ _
  · exact hsaved.trans (saved_bytePattern m₁)
  · rw [execs_bytePattern_a1, ha1, needle]
  · exact fun i hi hlt => absurd hlt (by omega)
  · rw [execs_get (by decide), ha2]

end Memrchr

/-! ## `s31_xespv_strnlen` and `s31_xespv_strlen` -/

namespace Strnlen

/-- The first `k` bytes are not zero. -/
def NoneBelow (m₀ : Machine) (k : Nat) : Prop := ∀ i < k, m₀.mem (off (m₀.get .a0) i) ≠ 0

/-- The positions that counting byte by byte examines. -/
def Examines (m₀ : Machine) (i : Nat) : Prop := i < (m₀.get .a1).toNat ∧ NoneBelow m₀ i

/-- The index of the first zero byte is returned, or the length if that is smaller. -/
def Found (m₀ m : Machine) : Prop :=
  ∃ k ≤ (m₀.get .a1).toNat, NoneBelow m₀ k ∧
    (k < (m₀.get .a1).toNat → m₀.mem (off (m₀.get .a0) k) = 0) ∧ m.get .a0 = BitVec.ofNat 32 k

/-- The routine ends right, and reads its frame and bytes it may read. -/
def Finds (addr : Label → Addr) (m₀ : Machine) (c : Config Label) : Prop :=
  Leads (memopsAt addr) (Near (m₀.get .sp + -32) 32 (m₀.get .a0) (Examines m₀))
    (Returned (memopsAt addr) m₀ fun m =>
      AgreeOff (m₀.get .sp + -32) 32 m₀.mem m.mem ∧ Found m₀ m) c

/-- `k` bytes have been passed, none of them zero. -/
structure At (m₀ : Machine) (k : Nat) (m : Machine) : Prop where
  scan : ScanAt m₀ (m₀.get .a0) 0 k m
  a1 : (m.get .a1).toNat = (m₀.get .a1).toNat - k
  t6 : m.get .t6 = m₀.get .a0
  none : NoneBelow m₀ k

section

variable {m₀ m : Machine} {k : Nat} {addr : Label → Addr}

/-- At the zero, or at the bound, the distance is returned. -/
theorem At.done (h : At m₀ k m) (hk : k ≤ (m₀.get .a1).toNat)
    (hhit : k < (m₀.get .a1).toNat → m₀.mem (off (m₀.get .a0) k) = 0) :
    Finds addr m₀ ⟨.run (memopsCode .LsnDone), m⟩ := by
  refine Leads.line (strnlenDone.take 1) (by decide) ⟨trivial, trivial⟩ ?_
  refine Leads.ret (h.scan.saved.execs (by decide)) ⟨h.scan.mem, k, hk, h.none, hhit, ?_⟩
  show m.get .a0 - m.get .t6 = BitVec.ofNat 32 k
  rw [h.scan.a0, h.t6, off, BitVec.add_comm, BitVec.add_sub_cancel]

/-- A round that passes `j` bytes without a zero. -/
theorem At.advance {ops : Code} {j : Nat} (h : At m₀ k m) (hj : k + j ≤ (m₀.get .a1).toNat)
    (ha0 : bumps .a0 ops = some (BitVec.ofNat 32 j))
    (ha1 : bumps .a1 ops = some (-BitVec.ofNat 32 j))
    (hregs : ∀ r ∈ Reg.t6 :: savedRegs, ∀ i ∈ ops, i.dest ≠ some r)
    (hq1 : ∀ i ∈ ops, i.vdest ≠ some .q1) (hmem : ∀ i ∈ ops, i.isStore = false)
    (hnone : ∀ i < j, m₀.mem (off (m₀.get .a0) (k + i)) ≠ 0) : At m₀ (k + j) (execs ops m) where
  scan := by
    refine h.scan.move ?_ (fun r hr => hregs r (List.mem_cons_of_mem _ hr)) hq1 hmem
    rw [execs_bumps (by decide) ha0, h.scan.a0, off_add]
  a1 := by
    rw [execs_bumps (by decide) ha1, toNat_add_neg (by rw [h.a1]; omega), h.a1]
    omega
  t6 := by rw [execs_get (hregs .t6 (List.mem_cons_self ..)), h.t6]
  none := by
    intro i hi
    obtain hlt | hge := Nat.lt_or_ge i k
    · exact h.none i hlt
    · have hne := hnone (i - k) (by omega)
      rwa [Nat.add_sub_cancel' hge] at hne

/-- Instructions that write neither these registers nor memory keep the state. -/
theorem At.line {ops : Code} (h : At m₀ k m)
    (hregs : ∀ r ∈ [Reg.a0, .a1, .t6] ++ savedRegs, ∀ i ∈ ops, i.dest ≠ some r)
    (hq1 : ∀ i ∈ ops, i.vdest ≠ some .q1) (hmem : ∀ i ∈ ops, i.isStore = false) :
    At m₀ k (execs ops m) where
  scan := h.scan.line (fun r hr => hregs r (by simp only [List.mem_cons] at hr; grind)) hq1 hmem
  a1 := by rw [execs_get (hregs .a1 (by simp)), h.a1]
  t6 := by rw [execs_get (hregs .t6 (by simp)), h.t6]
  none := h.none

/-- The bound is used up exactly behind the last byte. -/
theorem At.a1_eq_zero_iff (h : At m₀ k m) : m.get .a1 = 0 ↔ (m₀.get .a1).toNat ≤ k := by
  rw [← BitVec.toNat_inj, h.a1, BitVec.ofNat_eq_ofNat, BitVec.toNat_zero]
  omega

/-- One byte is tested, and the count goes on at `l`. -/
theorem At.byte {l : Label} {rest : Code} (h : At m₀ k m) (hk : k < (m₀.get .a1).toNat)
    (hout : ∀ i, Examines m₀ i → ¬ InFrame (m₀.get .sp + -32) 32 (off (m₀.get .a0) i))
    (hnext : ∀ m', At m₀ (k + 1) m' → Finds addr m₀ ⟨.run (memopsCode l), m'⟩) :
    Finds addr m₀ ⟨.run ([.lbu .t0 0 .a0, .beqz .t0 .LsnDone, .addi .a0 .a0 1,
      .addi .a1 .a1 (-1), .j l] ++ rest), m⟩ := by
  have hexam : Examines m₀ k := ⟨hk, h.none⟩
  refine Leads.line [.lbu .t0 0 .a0] (by decide) ⟨?_, trivial⟩ ?_
  · show Near _ _ _ _ (off (m.get .a0) 0)
    rw [h.scan.a0, off_zero]
    exact .inr ⟨k, hexam, rfl⟩
  have ht0 : (execs (L := Label) [.lbu .t0 0 .a0] m).get .t0 =
      (m₀.mem (off (m₀.get .a0) k)).setWidth 32 := by
    rw [← h.scan.byte (hout k hexam)]
    rfl
  have h' : At m₀ k (execs [.lbu .t0 0 .a0] m) :=
    h.line (by decide) (by decide) (by decide)
  refine Leads.beqz (fun heq => ?_) fun hne => ?_
  · rw [ht0] at heq
    exact h'.done (by omega) fun _ => (setWidth_eq_iff _ 0).mp heq
  · rw [ht0] at hne
    refine Leads.line [.addi .a0 .a0 1, .addi .a1 .a1 (-1)] (by decide)
      ⟨trivial, trivial, trivial⟩ (.j (hnext _ (h'.advance (by omega) (by decide) (by decide)
        (by decide) (by decide) (by decide) fun i hi heq => ?_)))
    obtain rfl : i = 0 := by omega
    exact hne ((setWidth_eq_iff _ 0).mpr heq)

variable (hsp : (m₀.get .sp).toNat % 16 = 0)
  (hout : ∀ i, Examines m₀ i → ¬ InFrame (m₀.get .sp + -32) 32 (off (m₀.get .a0) i))

include hout in
/-- From the bytes after the blocks the length is found. -/
theorem At.tail (h : At m₀ k m) (hk : k ≤ (m₀.get .a1).toNat) :
    Finds addr m₀ ⟨.run (memopsCode .LsnTail), m⟩ := by
  induction hleft : (m₀.get .a1).toNat - k generalizing k m with
  | zero =>
    refine Leads.beqz (fun _ => h.done hk (by omega)) fun hne => ?_
    exact absurd (h.a1_eq_zero_iff.mpr (by omega)) hne
  | succ left ih =>
    refine Leads.beqz (fun hzero => ?_) fun _ => ?_
    · exact h.done hk fun hlt => absurd (h.a1_eq_zero_iff.mp hzero) (by omega)
    · exact h.byte (by omega) hout fun m' h' => ih h' (by omega) (by omega)

include hsp hout in
/-- From a block boundary the length is found, by induction on the blocks left. -/
theorem At.vec (h : At m₀ k m) (hk : k ≤ (m₀.get .a1).toNat)
    (halign : (off (m₀.get .a0) k).toNat % 16 = 0) :
    Finds addr m₀ ⟨.run (memopsCode .LsnVec), m⟩ := by
  induction hleft : (m₀.get .a1).toNat - k using Nat.strong_induction_on generalizing k m with
  | _ left ih =>
    refine Leads.line (strnlenVec.take 1) (by decide) ⟨trivial, trivial⟩ ?_
    have h₁ : At m₀ k (execs (strnlenVec.take 1) m) :=
      h.line (by decide) (by decide) (by decide)
    refine Leads.bltu (fun _ => h₁.tail hout hk) fun hlt => ?_
    have hge : 16 ≤ (m₀.get .a1).toNat - k := by
      rw [← h₁.a1]
      exact Nat.le_of_not_lt hlt
    have hexam : Examines m₀ k := ⟨by omega, h.none⟩
    refine Leads.line vecTest (by decide) (h₁.scan.reads_test halign hexam) ?_
    have htest := h₁.scan.t0_eq_zero_iff hsp halign (hout k hexam)
    have h₂ : At m₀ k (execs vecTest (execs (strnlenVec.take 1) m)) := by
      refine ⟨h₁.scan.test hsp, ?_, ?_, h.none⟩
      · rw [execs_get (by decide), h₁.a1]
      · rw [execs_get (by decide), h₁.t6]
    generalize execs vecTest (execs (strnlenVec.take 1) m) = m₂ at htest h₂ ⊢
    -- a zero byte in the block is found by the tail
    refine Leads.bnez (fun _ => h₂.tail hout hk) fun hzero => ?_
    have h₃ : At m₀ (k + 16) (execs ((strnlenVec.drop 21).take 2) m₂) :=
      h₂.advance (by omega) (by decide) (by decide) (by decide) (by decide) (by decide)
        (htest.mp (not_not.mp hzero))
    refine Leads.line ((strnlenVec.drop 21).take 2) (by decide) ⟨trivial, trivial, trivial⟩ ?_
    exact .j (ih _ (by omega) h₃ (by omega) (off_add_aligned (by decide) halign) rfl)

include hsp hout in
/-- From the start the length is found. -/
theorem At.align (h : At m₀ k m) (hk : k ≤ (m₀.get .a1).toNat) :
    Finds addr m₀ ⟨.run (memopsCode .LsnAlign), m⟩ := by
  induction hleft : (m₀.get .a1).toNat - k generalizing k m with
  | zero =>
    refine Leads.beqz (fun _ => h.done hk (by omega)) fun hne => ?_
    exact absurd (h.a1_eq_zero_iff.mpr (by omega)) hne
  | succ left ih =>
    refine Leads.beqz (fun hzero => ?_) fun _ => ?_
    · exact h.done hk fun hlt => absurd (h.a1_eq_zero_iff.mp hzero) (by omega)
    · refine Leads.line ((strnlenAlign.drop 1).take 1) (by decide) ⟨trivial, trivial⟩ ?_
      have h₁ : At m₀ k (execs ((strnlenAlign.drop 1).take 1) m) :=
        h.line (by decide) (by decide) (by decide)
      refine Leads.beqz (fun hzero => ?_) fun _ => ?_
      · have halign := (and_15_eq_zero_iff (m.get .a0)).mp hzero
        rw [h.scan.a0] at halign
        exact h₁.vec hsp hout hk halign
      · exact h₁.byte (by omega) hout fun m' h' => ih h' (by omega) (by omega)

end

/-- `s31_xespv_strnlen` counts up to the first zero byte. -/
theorem strnlen_finds (addr : Label → Addr) (m₀ : Machine) (hsp : (m₀.get .sp).toNat % 16 = 0)
    (hout : ∀ i, Examines m₀ i → ¬ InFrame (m₀.get .sp + -32) 32 (off (m₀.get .a0) i)) :
    Finds addr m₀ ⟨.run (memopsCode .s31XespvStrnlen), m₀⟩ := by
  refine Leads.line (strnlenEntry.take 1) (by decide) ⟨trivial, trivial⟩ ?_
  have hm₁ : (execs (strnlenEntry.take 1) m₀).get .sp = m₀.get .sp := rfl
  -- the pattern is the byte 0, from the register that is always zero
  have hzero : ∀ i < 4, ((execs (strnlenEntry.take 1) m₀).get .zero).extractLsb' (8 * i) 8 = 0 :=
    fun i _ => BitVec.extractLsb'_zero
  refine Leads.line (patternVector .zero .q1) (by decide) ?_ ?_
  · exact readsLine_patternVector .q1 hsp fun i hi => .inl (inFrame_pattern _ hi)
  refine At.align hsp hout (k := 0) ⟨⟨?_, ?_, ?_, ?_⟩, ?_, ?_, ?_⟩ (Nat.zero_le _)
  · rw [execs_get (by decide), off_zero]
    rfl
  · exact execs_patternVector_vregs .q1 (by decide) hsp hzero
  · rw [execs_patternVector_mem .q1 (by decide) hzero]
    exact agreeOff_pattern _ _ _
  · intro r hr
    obtain rfl | hne := eq_or_ne r .sp
    · exact execs_patternVector_sp .q1
    · rw [execs_get, execs_get]
      all_goals
        revert r
        decide
  · rw [execs_get (by decide), Nat.sub_zero]
    rfl
  · rw [execs_get (by decide)]
    rfl
  · exact fun i hi => absurd hi (Nat.not_lt_zero i)

end Strnlen

/-- The first byte from `s` on that satisfies `p` is at position `k`. -/
structure FirstAt (mem : Mem) (s : Addr) (p : Byte → Prop) (k : Nat) : Prop where
  here : p (mem (off s k))
  before : ∀ i < k, ¬ p (mem (off s i))

section

variable {mem : Mem} {s : Addr} {p : Byte → Prop} {k : Nat}

/-- A first position comes before the addresses repeat. -/
theorem FirstAt.lt (h : FirstAt mem s p k) : k < 2 ^ 32 := by
  by_contra hge
  have hwrap : off s (k - 2 ^ 32) = off s k := by
    apply BitVec.eq_of_toNat_eq
    rw [off_toNat, off_toNat]
    omega
  refine h.before (k - 2 ^ 32) (by omega) ?_
  rw [hwrap]
  exact h.here

/-- The first place depends on the bytes up to it only. -/
theorem FirstAt.congr {mem' : Mem} (h : FirstAt mem s p k)
    (hmem : ∀ i ≤ k, mem' (off s i) = mem (off s i)) : FirstAt mem' s p k where
  here := by
    rw [hmem k le_rfl]
    exact h.here
  before i hi := by
    rw [hmem i (by omega)]
    exact h.before i hi

/-- Where there is some place there is a first. -/
theorem exists_firstAt {mem : Mem} {s : Addr} {p : Byte → Prop} {k : Nat} (h : p (mem (off s k))) :
    ∃ j ≤ k, FirstAt mem s p j := by
  classical
  have hex : ∃ j, p (mem (off s j)) := ⟨k, h⟩
  exact ⟨Nat.find hex, Nat.find_min' hex h, Nat.find_spec hex, fun i hi => Nat.find_min hex hi⟩

/-- There is one first place. -/
theorem FirstAt.unique {j : Nat} (h : FirstAt mem s p k) (h' : FirstAt mem s p j) : k = j := by
  by_contra hne
  obtain hlt | hlt := Nat.lt_or_gt_of_ne hne
  · exact h'.before k hlt h.here
  · exact h.before j hlt h'.here

/-- The first place is not below bytes that fail the test. -/
theorem FirstAt.le {i : Nat} (h : FirstAt mem s p k) (hi : ∀ j < i, ¬ p (mem (off s j))) : i ≤ k :=
  Nat.le_of_not_lt fun hlt => hi k hlt h.here

end

namespace Strlen

/-- The length `len` is returned, having read near the bytes up to the terminator. -/
def Finds (addr : Label → Addr) (m₀ : Machine) (len : Nat) (c : Config Label) : Prop :=
  Leads (memopsAt addr) (Near (m₀.get .sp + -32) 32 (m₀.get .a0) (· ≤ len))
    (Returned (memopsAt addr) m₀ fun m =>
      AgreeOff (m₀.get .sp + -32) 32 m₀.mem m.mem ∧ m.get .a0 = BitVec.ofNat 32 len) c

/-- `s31_xespv_strlen` returns the index of the first zero byte. -/
theorem strlen_finds (addr : Label → Addr) {m₀ : Machine} {len : Nat}
    (hsp : (m₀.get .sp).toNat % 16 = 0) (hlen : FirstAt m₀.mem (m₀.get .a0) (· = 0) len)
    (hout : ∀ i ≤ len, ¬ InFrame (m₀.get .sp + -32) 32 (off (m₀.get .a0) i)) :
    Finds addr m₀ len ⟨.run (memopsCode .s31XespvStrlen), m₀⟩ := by
  have hlt := hlen.lt
  refine Leads.line (strlenEntry.take 1) (by decide) ⟨trivial, trivial⟩ (.j ?_)
  -- what `s31_xespv_strnlen` examines
  have hexam : ∀ i, Strnlen.Examines (m₀.set .a1 (-1)) i → i ≤ len := fun i hi => hlen.le hi.2
  have hfinds := Strnlen.strnlen_finds addr (m₀.set .a1 (-1)) hsp fun i hi => hout i (hexam i hi)
  obtain ⟨c, hrun, hc⟩ := hfinds
  refine ⟨c, hrun.mono ?_, hc.mono ((Saved.refl m₀).set (by decide)) ?_⟩
  · rintro x (hx | ⟨i, hi, hx⟩)
    · exact .inl hx
    · exact .inr ⟨i, hexam i hi, hx⟩
  · rintro m ⟨hmem, k, hk, hnone, hzero, ha0⟩
    have hkl : k ≤ len := hlen.le hnone
    obtain rfl : k = len := by
      by_contra hne
      have hk' : k < ((m₀.set .a1 (-1)).get .a1).toNat := by
        show k < 4294967295
        omega
      exact hlen.before k (by omega) (hzero hk')
    exact ⟨hmem, ha0⟩

end Strlen

end EspS31.Xespv
