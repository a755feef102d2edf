import EspS31.Spec.SearchCorrect
import EspS31.Spec.XespvCalls

/-!
# Correctness of `s31_xespv_strchrnul` and `s31_xespv_strchr`

`s31_xespv_strchrnul` tests a block for two bytes at once, the terminator and the byte
searched for.  `s31_xespv_strchr` calls it and looks at the byte it has found.

## Key results

- `strchrnul_finds`: the first byte that is zero or the low byte of the argument
- `searches_correct`: all searches against their C functions
- `strchr_correct_iff`: the arguments for which `s31_xespv_strchr` is C's `strchr`
-/

namespace EspS31.Xespv

open ByteMem

/-! ## `s31_xespv_strchrnul` -/

/-- The comparisons of a block with `q3` and `q1` are stored at the new stack pointer. -/
def pairTestStore : Code := [
  .addi .sp .sp (-48),
  .sw .s0 32 .sp,
  .mv .s0 .a0,
  .vld .q0 .a0 0,
  .vcmpEqU8 .q2 .q0 .q1,
  .vcmpEqU8 .q4 .q0 .q3,
  .mv .a3 .sp,
  .vst .q4 .a3 16,
  .vst .q2 .a3 0,
  .fence]

/-- The words of the second comparison or-ed into `t0`. -/
def orMore : Code := [
  .lw .t1 16 .sp,
  .or .t0 .t0 .t1,
  .lw .t1 20 .sp,
  .or .t0 .t0 .t1,
  .lw .t1 24 .sp,
  .or .t0 .t0 .t1,
  .lw .t1 28 .sp,
  .or .t0 .t0 .t1]

/-- The end of the test: the registers are as they were. -/
def pairTestRestore : Code := [
  .mv .a0 .s0,
  .lw .s0 32 .sp,
  .addi .sp .sp 48]

/-- The block at `.Lsc_vec` up to its branch. -/
def pairTest : Code := pairTestStore ++ (orLoads ++ (orMore ++ pairTestRestore))

section

variable (m : Machine)

/-- The frame lies below the stack pointer. -/
private theorem execs_pairTestStore_sp : (execs pairTestStore m).get .sp = m.get .sp + -48 := by
  rw [← List.take_append_drop 1 pairTestStore, execs_append, execs_get (by decide)]
  rfl

/-- The pointer is kept in `s0`. -/
private theorem execs_pairTestStore_s0 : (execs pairTestStore m).get .s0 = m.get .a0 := by
  rw [← List.take_append_drop 3 pairTestStore, execs_append, execs_get (by decide)]
  rfl

/-- `s0` saved in the frame. -/
def spilled : Mem := storeWord m.mem (off (m.get .sp + -48) 32) (m.get .s0)

/-- The memory after the save and the two masks. -/
private theorem execs_pairTestStore_mem :
    (execs pairTestStore m).mem =
      storeBlock (storeBlock (spilled m) (m.get .sp + -48)
          (lanesEq (loadBlock (spilled m) (m.get .a0)) (m.vregs .q3)))
        (off (m.get .sp + -48) 16)
        (lanesEq (loadBlock (spilled m) (m.get .a0)) (m.vregs .q1)) := by
  simp -implicitDefEqProofs only [pairTestStore, execs, List.foldl, Instr.exec, Machine.get_set, Machine.get_setV,
    Machine.get_setMem, Machine.mem_set, Machine.mem_setV, Machine.mem_setMem, Machine.vregs_set,
    Machine.vregs_setMem, Machine.vregs_setV, reduceCtorEq, if_false, if_true, spilled, off,
    BitVec.ofNat_eq_ofNat]

/-- The words of the second mask are put to those of the first. -/
private theorem execs_orMore : (execs orMore m).get .t0 = 0 ↔
    m.get .t0 = 0 ∧ orWords m.mem (off (m.get .sp) 16) = 0 := by
  have ht0 : (execs orMore m).get .t0 = m.get .t0 ||| loadWord m.mem (off (m.get .sp) 16) |||
      loadWord m.mem (off (m.get .sp) 20) ||| loadWord m.mem (off (m.get .sp) 24) |||
      loadWord m.mem (off (m.get .sp) 28) := by
    simp only [orMore, execs, List.foldl, Instr.exec, Machine.get_set, Machine.mem_set,
      reduceCtorEq, if_false, if_true]
  rw [ht0, orWords, off_off, off_off, off_off]
  simp only [BitVec.ofNat_eq_ofNat, BitVec.or_eq_zero_iff, and_assoc, Nat.reduceAdd]

/-- The pointer, the saved register and the stack pointer come back. -/
private theorem execs_pairTestRestore : (execs pairTestRestore m).get .a0 = m.get .s0 ∧
    (execs pairTestRestore m).get .s0 = loadWord m.mem (off (m.get .sp) 32) ∧
    (execs pairTestRestore m).get .sp = m.get .sp + 48 := by
  simp [pairTestRestore, execs, Instr.exec]

/-- Only the save and the masks are stored. -/
private theorem execs_pairTest_mem : (execs pairTest m).mem = (execs pairTestStore m).mem := by
  rw [pairTest, execs_append, execs_mem (by decide)]

/-- The pointer is as it was. -/
private theorem execs_pairTest_a0 : (execs pairTest m).get .a0 = m.get .a0 := by
  rw [pairTest, execs_append, execs_append, execs_append, (execs_pairTestRestore _).1,
    execs_get (by decide), execs_get (by decide), execs_pairTestStore_s0]

/-- The stack pointer is as it was. -/
private theorem execs_pairTest_sp : (execs pairTest m).get .sp = m.get .sp := by
  rw [pairTest, execs_append, execs_append, execs_append, (execs_pairTestRestore _).2.2,
    execs_get (by decide), execs_get (by decide), execs_pairTestStore_sp, BitVec.add_assoc,
    BitVec.add_left_neg, BitVec.add_zero]

end

section

variable {m : Machine} (hsp : (m.get .sp).toNat % 16 = 0)
include hsp

omit hsp in
/-- The save is in the frame. -/
private theorem spilled_agreeOff : AgreeOff (m.get .sp + -48) 48 m.mem (spilled m) := by
  refine AgreeOff.storeWord _ fun k hk => ?_
  rw [off_off]
  exact inFrame_off (by omega) (by omega)

/-- The test writes its frame only. -/
private theorem execs_pairTest_agreeOff :
    AgreeOff (m.get .sp + -48) 48 m.mem (execs pairTest m).mem := by
  have hf : (m.get .sp + -48).toNat % 16 = 0 := add_aligned hsp (by decide)
  rw [execs_pairTest_mem, execs_pairTestStore_mem]
  refine (spilled_agreeOff.trans (AgreeOff.storeBlock _ hf (by decide) ?_)).trans
    (AgreeOff.storeBlock _ hf (by decide) ?_)
  · exact inFrame_base (by omega)
  · exact inFrame_off (by omega) (by omega)

/-- `s0` is saved behind both comparisons. -/
private theorem execs_pairTest_s0 : (execs pairTest m).get .s0 = m.get .s0 := by
  have hf : (m.get .sp + -48).toNat % 16 = 0 := add_aligned hsp (by decide)
  have hload : (execs pairTest m).get .s0 =
      loadWord (execs pairTestStore m).mem (off (m.get .sp + -48) 32) := by
    rw [pairTest, execs_append, execs_append, execs_append, (execs_pairTestRestore _).2.1,
      execs_get (by decide), execs_mem (by decide), execs_get (by decide), execs_mem (by decide),
      execs_pairTestStore_sp]
  -- the two vectors were stored below it
  rw [hload, execs_pairTestStore_mem]
  refine (loadWord_congr fun k hk => ?_).trans (loadWord_storeWord_self m.mem _ (m.get .s0))
  simp only [spilled]
  generalize m.get .sp + -48 = f at hf
  have := f.isLt
  rw [storeBlock_other, storeBlock_other]
  · rw [off_off, off_toNat]
    omega
  · rw [off_off, off_toNat, off_toNat]
    omega

/-- Both comparisons in one word. -/
private theorem execs_pairTest_t0 (hout : ¬ InFrame (m.get .sp + -48) 48 (m.get .a0)) :
    (execs pairTest m).get .t0 = 0 ↔ ∀ i, loadBlock m.mem (m.get .a0) i ≠ m.vregs .q3 i ∧
      loadBlock m.mem (m.get .a0) i ≠ m.vregs .q1 i := by
  have hf : (m.get .sp + -48).toNat % 16 = 0 := add_aligned hsp (by decide)
  have hload : loadBlock (spilled m) (m.get .a0) = loadBlock m.mem (m.get .a0) :=
    spilled_agreeOff.loadBlock hf (by decide) hout
  -- the eight words of the two stored blocks are all zero
  have ht0 : (execs pairTest m).get .t0 = 0 ↔
      orWords (execs pairTestStore m).mem (m.get .sp + -48) = 0 ∧
        orWords (execs pairTestStore m).mem (off (m.get .sp + -48) 16) = 0 := by
    have hsp₁ := execs_pairTestStore_sp m
    generalize hm₁ : execs pairTestStore m = m₁ at hsp₁
    rw [pairTest, execs_append, execs_append, execs_append, execs_get (by decide), execs_orMore,
      hm₁, execs_orLoads, execs_mem (by decide), execs_get (by decide), hsp₁]
  rw [ht0, execs_pairTestStore_mem, hload, forall_and]
  generalize m.get .sp + -48 = f at hf
  have hf' : (off f 16).toNat % 16 = 0 := by
    rw [off_toNat]
    omega
  refine and_congr (orWords_lanesEq fun k hk => ?_)
    (orWords_lanesEq fun k hk => storeBlock_same _ _ hf' hk)
  -- the second block does not touch the first
  rw [storeBlock_other]
  · exact storeBlock_same _ _ hf hk
  · rw [off_toNat, off_toNat]
    have := f.isLt
    omega

omit hsp in
/-- The test reads its frame and one block. -/
private theorem readsLine_pairTest {R : Addr → Prop}
    (hblock : ∀ i < 16, R (off (align16 (m.get .a0)) i))
    (hframe : ∀ i < 48, R (off (m.get .sp + -48) i)) : ReadsLine R pairTest m := by
  have hword : ∀ (o : Nat), o + 4 ≤ 48 → ∀ i < 4, R (off (m.get .sp + -48) (o + i)) :=
    fun o ho i hi => hframe _ (by omega)
  exact ⟨trivial, trivial, trivial, hblock, trivial, trivial, trivial, trivial, trivial, trivial,
    hword 0 (by decide), hword 4 (by decide), trivial, hword 8 (by decide), trivial,
    hword 12 (by decide), trivial, hword 16 (by decide), trivial, hword 20 (by decide), trivial,
    hword 24 (by decide), trivial, hword 28 (by decide), trivial, trivial, hword 32 (by decide),
    trivial, trivial⟩

end

namespace Strchrnul

open Memchr (needle)

/-- The bytes at which the search stops. -/
def Stops (m₀ : Machine) (x : Byte) : Prop := x = 0 ∨ x = needle m₀

/-- The search for a stop at position `stop` returns it, having read near the bytes up
    to there. -/
def Finds (addr : Label → Addr) (m₀ : Machine) (stop : Nat) (c : Config Label) : Prop :=
  Leads (memopsAt addr) (Near (m₀.get .sp + -48) 48 (m₀.get .a0) (· ≤ stop))
    (Returned (memopsAt addr) m₀ fun m =>
      AgreeOff (m₀.get .sp + -48) 48 m₀.mem m.mem ∧ m.get .a0 = off (m₀.get .a0) stop) c

/-- `k` bytes have been passed. -/
structure At (m₀ : Machine) (k : Nat) (m : Machine) : Prop where
  a0 : m.get .a0 = off (m₀.get .a0) k
  a1 : m.get .a1 = (needle m₀).setWidth 32
  q1 : m.vregs .q1 = fun _ => needle m₀
  q3 : m.vregs .q3 = fun _ => 0
  mem : AgreeOff (m₀.get .sp + -48) 48 m₀.mem m.mem
  saved : Saved m₀ m

section

variable {m₀ m : Machine} {k stop : Nat} {addr : Label → Addr}

/-- The stack pointer is that of the call. -/
theorem At.sp (h : At m₀ k m) : m.get .sp = m₀.get .sp := h.saved .sp (by decide)

/-- A round that goes on to byte `j`. -/
theorem At.move {ops : Code} {j : Nat} (h : At m₀ k m)
    (ha0 : (execs ops m).get .a0 = off (m₀.get .a0) j)
    (hregs : ∀ r ∈ Reg.a1 :: savedRegs, ∀ i ∈ ops, i.dest ≠ some r)
    (hvregs : ∀ q ∈ [VReg.q1, .q3], ∀ i ∈ ops, i.vdest ≠ some q)
    (hmem : ∀ i ∈ ops, i.isStore = false) : At m₀ j (execs ops m) where
  a0 := ha0
  a1 := by rw [execs_get (hregs .a1 (List.mem_cons_self ..)), h.a1]
  q1 := by rw [execs_vregs (hvregs .q1 (by simp)), h.q1]
  q3 := by rw [execs_vregs (hvregs .q3 (by simp)), h.q3]
  mem := by
    rw [execs_mem hmem]
    exact h.mem
  saved := h.saved.execs fun r hr => hregs r (List.mem_cons_of_mem _ hr)

/-- The test of a block keeps the state. -/
theorem At.test (h : At m₀ k m) (hsp : (m₀.get .sp).toNat % 16 = 0) :
    At m₀ k (execs pairTest m) where
  a0 := by rw [execs_pairTest_a0, h.a0]
  a1 := by rw [execs_get (by decide), h.a1]
  q1 := by rw [execs_vregs (by decide), h.q1]
  q3 := by rw [execs_vregs (by decide), h.q3]
  mem := by
    have hagree := execs_pairTest_agreeOff (h.sp ▸ hsp)
    rw [h.sp] at hagree
    exact h.mem.trans hagree
  saved := by
    intro r hr
    -- `sp` is moved back, `s0` restored, and no other saved register written
    obtain rfl | hsp' := eq_or_ne r .sp
    · rw [execs_pairTest_sp, h.sp]
    obtain rfl | hs0 := eq_or_ne r .s0
    · rw [execs_pairTest_s0 (h.sp ▸ hsp), h.saved .s0 hr]
    · rw [execs_get, h.saved r hr]
      revert r
      decide

variable (hsp : (m₀.get .sp).toNat % 16 = 0)
  (hstop : FirstAt m₀.mem (m₀.get .a0) (Stops m₀) stop)
  (hout : ∀ i ≤ stop, ¬ InFrame (m₀.get .sp + -48) 48 (off (m₀.get .a0) i))

include hsp hout in
/-- The test of the block at an aligned position. -/
theorem At.t0_eq_zero_iff (h : At m₀ k m) (hk : k ≤ stop)
    (halign : (off (m₀.get .a0) k).toNat % 16 = 0) :
    (execs pairTest m).get .t0 = 0 ↔ ∀ i < 16, ¬ Stops m₀ (m₀.mem (off (m₀.get .a0) (k + i))) := by
  have hf : (m₀.get .sp + -48).toNat % 16 = 0 := add_aligned hsp (by decide)
  -- the stack frame does not reach into the block
  have hblock : ∀ i : Fin 16,
      loadBlock m.mem (off (m₀.get .a0) k) i = m₀.mem (off (m₀.get .a0) (k + i)) := by
    intro i
    rw [h.mem.loadBlock hf (by decide) (hout k hk), loadBlock, align16_of_aligned halign, off_off]
  have hout' : ¬ InFrame (m.get .sp + -48) 48 (m.get .a0) := by
    rw [h.sp, h.a0]
    exact hout k hk
  rw [execs_pairTest_t0 (h.sp ▸ hsp) hout', h.a0, h.q1, h.q3]
  constructor
  · intro hne i hi hs
    have hlane := hne ⟨i, hi⟩
    rw [hblock] at hlane
    exact hs.elim hlane.1 hlane.2
  · intro hne i
    rw [hblock]
    exact not_or.mp (hne i i.isLt)

include hout hstop in
/-- One byte is tested; unless the search ends it goes on at the next one. -/
theorem At.byte (h : At m₀ k m) (hk : k ≤ stop)
    (hnext : ∀ m', At m₀ (k + 1) m' → k + 1 ≤ stop →
      Finds addr m₀ stop ⟨.run (memopsCode .LscAlign), m'⟩) :
    Finds addr m₀ stop ⟨.run (memopsCode .LscByte), m⟩ := by
  refine Leads.line (strchrnulByte.take 1) (by decide) ⟨?_, trivial⟩ ?_
  · show Near _ _ _ _ (off (m.get .a0) 0)
    rw [h.a0, off_zero]
    exact .inr ⟨k, hk, rfl⟩
  have ht0 : (execs (strchrnulByte.take 1) m).get .t0 =
      (m₀.mem (off (m₀.get .a0) k)).setWidth 32 := by
    rw [← h.mem _ (hout k hk), ← off_zero (off (m₀.get .a0) k), ← h.a0]
    rfl
  -- the load moves nothing
  have h' : At m₀ k (execs (strchrnulByte.take 1) m) := by
    refine h.move ?_ (by decide) (by decide) (by decide)
    rw [execs_get (by decide), h.a0]
  -- the first byte at which the search may stop is the one that it is to find
  have hdone : Stops m₀ (m₀.mem (off (m₀.get .a0) k)) →
      Finds addr m₀ stop ⟨.run (memopsCode .LscDone), execs (strchrnulByte.take 1) m⟩ := by
    intro hs
    obtain rfl : k = stop := Nat.le_antisymm hk (Nat.le_of_not_lt fun hlt => hstop.before k hlt hs)
    exact Leads.ret h'.saved ⟨h'.mem, h'.a0⟩
  refine Leads.beqz (fun hzero => ?_) fun hne => ?_
  · rw [ht0] at hzero
    exact hdone (.inl ((setWidth_eq_iff _ 0).mp hzero))
  refine Leads.beq (fun heq => ?_) fun hne' => ?_
  · rw [ht0, h'.a1, setWidth_eq_iff] at heq
    exact hdone (.inr heq)
  · rw [ht0] at hne hne'
    rw [h'.a1, setWidth_eq_iff] at hne'
    have hlt : k ≠ stop := by
      rintro rfl
      exact hstop.here.elim (fun hzero => hne ((setWidth_eq_iff _ 0).mpr hzero)) hne'
    refine Leads.line ((strchrnulByte.drop 3).take 1) (by decide) ⟨trivial, trivial⟩
      (.j (hnext _ (h'.move ?_ (by decide) (by decide) (by decide)) (by omega)))
    rw [execs_bumps (v := BitVec.ofNat 32 1) (by decide) (by decide), h'.a0, off_add]

include hsp hstop hout in
/-- Blocks are tested up to the one with the stop. -/
theorem At.vec (h : At m₀ k m) (hk : k ≤ stop) (halign : (off (m₀.get .a0) k).toNat % 16 = 0)
    (hbyte : ∀ j m', k ≤ j → j ≤ stop → At m₀ j m' →
      Finds addr m₀ stop ⟨.run (memopsCode .LscByte), m'⟩) :
    Finds addr m₀ stop ⟨.run (memopsCode .LscVec), m⟩ := by
  -- induction on how far the stop is, 16 bytes for each round
  induction hleft : stop - k using Nat.strong_induction_on generalizing k m with
  | _ left ih =>
    refine Leads.line pairTest (by decide) (readsLine_pairTest ?_ ?_) ?_
    · intro i hi
      rw [h.a0, align16_of_aligned halign]
      refine .inr ⟨k, hk, ?_⟩
      generalize off (m₀.get .a0) k = x at halign
      rw [off_toNat]
      have := x.isLt
      omega
    · intro i hi
      rw [h.sp]
      exact .inl (inFrame_off hi (by omega))
    have htest := h.t0_eq_zero_iff hsp hout hk halign
    have h' := h.test hsp
    generalize execs pairTest m = m' at htest h' ⊢
    refine Leads.bnez (fun _ => hbyte k m' le_rfl hk h') fun hzero => ?_
    have hnone := htest.mp (not_not.mp hzero)
    -- none of the 16 bytes is the stop
    have hge : k + 16 ≤ stop := by
      by_contra hlt
      refine hnone (stop - k) (by omega) ?_
      rw [Nat.add_sub_cancel' hk]
      exact hstop.here
    refine Leads.line ((strchrnulVec.drop 29).take 1) (by decide) ⟨trivial, trivial⟩ (.j ?_)
    have h'' : At m₀ (k + 16) (execs ((strchrnulVec.drop 29).take 1) m') := by
      refine h'.move ?_ (by decide) (by decide) (by decide)
      rw [execs_bumps (v := BitVec.ofNat 32 16) (by decide) (by decide), h'.a0, off_add]
    exact ih _ (by omega) h'' hge (off_add_aligned (by decide) halign)
      (fun j m'' hj => hbyte j m'' (by omega)) rfl

include hsp hstop hout in
/-- From the start the place is found, by induction on what is left. -/
theorem At.align (h : At m₀ k m) (hk : k ≤ stop) :
    Finds addr m₀ stop ⟨.run (memopsCode .LscAlign), m⟩ := by
  induction hleft : stop - k using Nat.strong_induction_on generalizing k m with
  | _ left ih =>
    -- one byte brings the end nearer
    have hbyte : ∀ j m', k ≤ j → j ≤ stop → At m₀ j m' →
        Finds addr m₀ stop ⟨.run (memopsCode .LscByte), m'⟩ := fun j m' hkj hj h' =>
      h'.byte hstop hout hj fun m'' h'' hj' => ih _ (by omega) h'' hj' rfl
    refine Leads.line (strchrnulAlign.take 1) (by decide) ⟨trivial, trivial⟩ ?_
    have h' : At m₀ k (execs (strchrnulAlign.take 1) m) := by
      refine h.move ?_ (by decide) (by decide) (by decide)
      rw [execs_get (by decide), h.a0]
    refine Leads.beqz (fun hzero => ?_) fun _ => ?_
    · have halign := (and_15_eq_zero_iff (m.get .a0)).mp hzero
      rw [h.a0] at halign
      exact h'.vec hsp hstop hout hk halign hbyte
    · exact hbyte k _ le_rfl hk h'

end

/-- `s31_xespv_strchrnul` finds the first stop. -/
theorem strchrnul_finds (addr : Label → Addr) (m₀ : Machine) {stop : Nat}
    (hsp : (m₀.get .sp).toNat % 16 = 0) (hstop : FirstAt m₀.mem (m₀.get .a0) (Stops m₀) stop)
    (hout : ∀ i ≤ stop, ¬ InFrame (m₀.get .sp + -48) 48 (off (m₀.get .a0) i)) :
    Finds addr m₀ stop ⟨.run (memopsCode .s31XespvStrchrnul), m₀⟩ := by
  -- the two vectors are made in the stack frame, out of the way of the string
  have hpattern : ∀ i < 16, InFrame (m₀.get .sp + -48) 48 (off (m₀.get .sp + -16) i) := fun i hi =>
    (inFrame_pattern _ hi).below (by decide) (by decide)
  have hagree : ∀ mem f, AgreeOff (m₀.get .sp + -48) 48 mem
      (overwrite mem (m₀.get .sp + -16) 0 16 f) := fun mem f =>
    (agreeOff_pattern _ mem f).mono fun x hx => hx.below (by decide) (by decide)
  refine Leads.line (bytePattern .a1) (by decide)
    (readsLine_bytePattern hsp fun i hi => .inl (hpattern i hi)) ?_
  have ha0 : (execs (bytePattern .a1) m₀).get .a0 = m₀.get .a0 := execs_get (by decide) m₀
  have ha1 := execs_bytePattern_a1 (m := m₀)
  have hq1 := execs_bytePattern_q1 hsp
  have hsp₁ := execs_bytePattern_sp (m := m₀)
  have hmem := execs_bytePattern_mem (m := m₀)
  have hsaved := saved_bytePattern m₀
  generalize execs (bytePattern .a1) m₀ = m₁ at ha0 ha1 hq1 hsp₁ hmem hsaved ⊢
  have hzero : ∀ i < 4, (m₁.get .zero).extractLsb' (8 * i) 8 = 0 := fun i _ =>
    BitVec.extractLsb'_zero
  have hsp' : (m₁.get .sp).toNat % 16 = 0 := by rwa [hsp₁]
  refine Leads.line (patternVector .zero .q3) (by decide) ?_ ?_
  · refine readsLine_patternVector .q3 hsp' fun i hi => ?_
    rw [hsp₁]
    exact .inl (hpattern i hi)
  -- the search starts at the first byte, with both vectors made
  refine At.align hsp hstop hout (k := 0) ⟨?_, ?_, ?_, ?_, ?_, ?_⟩ (Nat.zero_le _)
  · rw [execs_get (by decide), ha0, off_zero]
  · rw [execs_get (by decide), ha1, needle]
  · rw [execs_vregs (by decide), hq1]
    rfl
  · exact execs_patternVector_vregs .q3 (by decide) hsp' hzero
  · rw [execs_patternVector_mem .q3 (by decide) hzero, hmem, hsp₁]
    exact (hagree _ _).trans (hagree _ _)
  · intro r hr
    obtain rfl | hne := eq_or_ne r .sp
    · rw [execs_patternVector_sp, hsp₁]
    · rw [execs_get, hsaved r hr]
      revert r
      decide

end Strchrnul

/-! ## The searches -/

/-- Each search returns what its C function returns, and reads only blocks with a byte
    that the C function examines. -/
theorem searches_correct (addr : Label → Addr) (m₀ : Machine)
    (hsp : (m₀.get .sp).toNat % 16 = 0) :
    ((∀ i, Memchr.Examines m₀ i → ¬ InFrame (m₀.get .sp + -32) 32 (off (m₀.get .a0) i)) →
      Memchr.Finds addr m₀ ⟨.run (memopsCode .s31XespvMemchr), m₀⟩) ∧
    ((∀ i, Memrchr.Examines m₀ i → ¬ InFrame (m₀.get .sp + -32) 32 (off (m₀.get .a0) i)) →
      Memrchr.Finds addr m₀ ⟨.run (memopsCode .s31XespvMemrchr), m₀⟩) ∧
    ((∀ i, Strnlen.Examines m₀ i → ¬ InFrame (m₀.get .sp + -32) 32 (off (m₀.get .a0) i)) →
      Strnlen.Finds addr m₀ ⟨.run (memopsCode .s31XespvStrnlen), m₀⟩) ∧
    (∀ len, FirstAt m₀.mem (m₀.get .a0) (· = 0) len →
      (∀ i ≤ len, ¬ InFrame (m₀.get .sp + -32) 32 (off (m₀.get .a0) i)) →
      Strlen.Finds addr m₀ len ⟨.run (memopsCode .s31XespvStrlen), m₀⟩) ∧
    ∀ stop, FirstAt m₀.mem (m₀.get .a0) (Strchrnul.Stops m₀) stop →
      (∀ i ≤ stop, ¬ InFrame (m₀.get .sp + -48) 48 (off (m₀.get .a0) i)) →
      Strchrnul.Finds addr m₀ stop ⟨.run (memopsCode .s31XespvStrchrnul), m₀⟩ :=
  ⟨Memchr.memchr_finds addr m₀ hsp, Memrchr.memrchr_finds addr m₀ hsp,
    Strnlen.strnlen_finds addr m₀ hsp, fun _ hlen hout => Strlen.strlen_finds addr hsp hlen hout,
    fun _ hstop hout => Strchrnul.strchrnul_finds addr m₀ hsp hstop hout⟩

/-- An `a` at 0x1010 and a zero at 0x1020 among ones. -/
def searchCall : Machine :=
  called 0x1003 0x161 20 0 0x8000 fun x => if x = 0x1010 then 0x61 else if x = 0x1020 then 0 else 1

/-- Four searches in one memory. -/
theorem searches_correct_sample :
    Memchr.Finds (fun _ => 512) searchCall ⟨.run (memopsCode .s31XespvMemchr), searchCall⟩ ∧
      Memrchr.Finds (fun _ => 512) searchCall ⟨.run (memopsCode .s31XespvMemrchr), searchCall⟩ ∧
      Strnlen.Finds (fun _ => 512) searchCall ⟨.run (memopsCode .s31XespvStrnlen), searchCall⟩ ∧
      Strlen.Finds (fun _ => 512) searchCall 29 ⟨.run (memopsCode .s31XespvStrlen), searchCall⟩ ∧
      Strchrnul.Finds (fun _ => 512) searchCall 13
        ⟨.run (memopsCode .s31XespvStrchrnul), searchCall⟩ := by
  have hframe : ∀ i < 353, ¬ InFrame (0x8000 + -32) 32 (off 0x1003 i) := by decide +kernel
  obtain ⟨hmemchr, hmemrchr, hstrnlen, hstrlen, hstrchrnul⟩ :=
    searches_correct (fun _ => 512) searchCall (by decide)
  refine ⟨hmemchr fun i hi => ?_, hmemrchr fun i hi => ?_, hstrnlen fun i hi => hframe i hi.1,
    hstrlen 29 ⟨by decide, by decide +kernel⟩ (by decide +kernel),
    hstrchrnul 13 ⟨.inr (by decide), ?_⟩ (by decide +kernel)⟩
  · have hlt : i < 20 := hi.1
    exact hframe i (by omega)
  · have hlt : i < 20 := hi.1
    exact hframe i (by omega)
  · intro i hi hstop
    have hne : ∀ i < 13, searchCall.mem (off (searchCall.get .a0) i) ≠ 0 ∧
        searchCall.mem (off (searchCall.get .a0) i) ≠ Memchr.needle searchCall := by decide +kernel
    exact hstop.elim (hne i hi).1 (hne i hi).2

/-! ## `s31_xespv_strchr` -/

namespace Strchr

open Memchr (needle)
open Strchrnul (Stops)

/-- The saved registers of `s31_xespv_strchr`. -/
def slots : List (Reg × Nat) := [(.ra, 12), (.s0, 8)]

/-- The slots lie in the frame and apart. -/
theorem slots_fit : SlotsFit 16 slots := ⟨by decide, by decide, by decide, by decide, by decide⟩

/-- What `s31_xespv_strchr` returns: it compares the byte found with the whole argument. -/
private theorem strchr_returns {addr : Label → Addr} {m₀ : Machine} {stop : Nat}
    (hlayout : Layout addr)
    (hsp : (m₀.get .sp).toNat % 16 = 0) (hstop : FirstAt m₀.mem (m₀.get .a0) (Stops m₀) stop)
    (hout : ∀ i ≤ stop, ¬ InFrame (m₀.get .sp + -64) 64 (off (m₀.get .a0) i)) :
    Returns addr m₀ (fun m => m.get .a0 =
        if (m₀.mem (off (m₀.get .a0) stop)).setWidth 32 = m₀.get .a1 then off (m₀.get .a0) stop
        else 0) ⟨.run (memopsCode .s31XespvStrchr), m₀⟩ := by
  refine Leads.line (enterFrame 16 slots) isJump_enterFrame (readsLine_enterFrame _ _) ?_
  have hframed := Framed.enter slots_fit m₀
  have hagree := enterFrame_agreeOff slots_fit m₀
  have ha0 : (execs (enterFrame 16 slots) m₀).get .a0 = m₀.get .a0 := enterFrame_get (by decide) m₀
  have ha1 : (execs (enterFrame 16 slots) m₀).get .a1 = m₀.get .a1 := enterFrame_get (by decide) m₀
  generalize execs (enterFrame 16 slots) m₀ = m₁ at hframed hagree ha0 ha1 ⊢
  refine Leads.line [.mv .s0 .a1] (by decide) (readsLine_anywhere ..) ?_
  have hframed₂ : Framed m₀ 16 slots (execs [.mv .s0 .a1] m₁) :=
    hframed.line (by decide) (by decide) (by decide)
  have ha0₂ : (execs (L := Label) [.mv .s0 .a1] m₁).get .a0 = m₀.get .a0 := by
    rw [execs_get (by decide), ha0]
  have ha1₂ : (execs (L := Label) [.mv .s0 .a1] m₁).get .a1 = m₀.get .a1 := by
    rw [execs_get (by decide), ha1]
  have hs0 : (execs (L := Label) [.mv .s0 .a1] m₁).get .s0 = m₀.get .a1 := ha1
  have hmem : (execs (L := Label) [.mv .s0 .a1] m₁).mem = m₁.mem := rfl
  generalize execs (L := Label) [.mv .s0 .a1] m₁ = m₂ at hframed₂ ha0₂ ha1₂ hs0 hmem ⊢
  -- the machine that enters `s31_xespv_strchrnul`
  have hget : ∀ {r : Reg}, r ≠ .ra → (m₂.set .ra (addr .strchrReturn)).get r = m₂.get r := fun hr =>
    Machine.get_set_of_ne _ _ hr
  have hsp₃ : (m₂.set .ra (addr .strchrReturn)).get .sp = m₀.get .sp + -16 :=
    (hget (by decide)).trans hframed₂.sp
  have ha0₃ : (m₂.set .ra (addr .strchrReturn)).get .a0 = m₀.get .a0 :=
    (hget (by decide)).trans ha0₂
  have hbytes : ∀ i ≤ stop, m₂.mem (off (m₀.get .a0) i) = m₀.mem (off (m₀.get .a0) i) := by
    intro i hi
    rw [hmem]
    exact hagree _ fun hin => hout i hi (hin.below (by decide) (by decide))
  have hframe : m₀.get .sp + -16 + -48 = m₀.get .sp + -64 := by
    rw [add_assoc]
    rfl
  have hstops : Stops (m₂.set .ra (addr .strchrReturn)) = Stops m₀ := by
    funext x
    rw [Stops, Stops, needle, needle, hget (by decide), ha1₂]
  have hcallee : Strchrnul.Finds addr (m₂.set .ra (addr .strchrReturn)) stop
      ⟨.run (memopsCode .s31XespvStrchrnul), m₂.set .ra (addr .strchrReturn)⟩ := by
    apply Strchrnul.strchrnul_finds
    · rw [hsp₃]
      exact add_aligned hsp (by decide)
    · rw [ha0₃, hstops]
      exact hstop.congr hbytes
    · intro i hi hin
      rw [ha0₃, hsp₃, hframe] at hin
      exact hout i hi (hin.of_bottom (by decide))
  refine Leads.call_returns hlayout (by decide) hcallee.anywhere fun m₃ hsaved hpost => ?_
  obtain ⟨hmem₃, hfound⟩ := hpost
  rw [hsp₃, hframe] at hmem₃
  rw [ha0₃] at hfound
  have hbyte : m₃.mem (off (m₃.get .a0) 0) = m₀.mem (off (m₀.get .a0) stop) := by
    rw [hfound, off_zero, ← hbytes stop le_rfl]
    exact hmem₃ _ fun hin => hout stop le_rfl (hin.of_bottom (by decide))
  have hs0₃ : m₃.get .s0 = m₀.get .a1 := by
    rw [hsaved .s0 (by decide), hget (by decide), hs0]
  have hframed₃ : Framed m₀ 16 slots m₃ := by
    refine hframed₂.call (by decide) hsaved fun s hs k hk => hmem₃ _ ?_
    -- the callee's frame lies below
    have := slots_fit.fit s hs
    rw [show m₀.get .sp + -BitVec.ofNat 32 16 = off (m₀.get .sp + -64) 48 by
      rw [off, add_assoc]; rfl, off_off]
    exact not_inFrame_off (by omega) (by omega)
  refine Leads.line (strchrReturn.take 1) (by decide) (readsLine_anywhere ..) ?_
  have hframed₄ : Framed m₀ 16 slots (execs (strchrReturn.take 1) m₃) :=
    hframed₃.line (by decide) (by decide) (by decide)
  have ht0 : (execs (strchrReturn.take 1) m₃).get .t0 =
      (m₀.mem (off (m₀.get .a0) stop)).setWidth 32 := by
    rw [← hbyte]
    rfl
  have ha0₄ : (execs (strchrReturn.take 1) m₃).get .a0 = off (m₀.get .a0) stop := by
    rw [execs_get (by decide), hfound]
  have hs0₄ : (execs (strchrReturn.take 1) m₃).get .s0 = m₀.get .a1 := by
    rw [execs_get (by decide), hs0₃]
  generalize execs (strchrReturn.take 1) m₃ = m₄ at hframed₄ ht0 ha0₄ hs0₄ ⊢
  refine Leads.beq (fun heq => ?_) fun hne => ?_
  · rw [ht0, hs0₄] at heq
    refine hframed₄.leave [(.s0, 8), (.ra, 12)] slots_fit (by decide) (fun _ _ => trivial)
      fun m₅ ha0₅ _ => ?_
    rw [ha0₅, ha0₄, if_pos heq]
  · rw [ht0, hs0₄] at hne
    refine Leads.line [.li .a0 0] (by decide) (readsLine_anywhere ..) ?_
    have hframed₅ : Framed m₀ 16 slots (execs [.li .a0 0] m₄) :=
      hframed₄.line (by decide) (by decide) (by decide)
    refine hframed₅.leave [(.s0, 8), (.ra, 12)] slots_fit (by decide) (fun _ _ => trivial)
      fun m₅ ha0₅ _ => ?_
    rw [ha0₅, if_neg hne]
    rfl

/-- A call with a string of length `len`. -/
structure Call (m₀ : Machine) (len : Nat) : Prop where
  sp : (m₀.get .sp).toNat % 16 = 0
  string : FirstAt m₀.mem (m₀.get .a0) (· = 0) len
  outside : ∀ i ≤ len, ¬ InFrame (m₀.get .sp + -64) 64 (off (m₀.get .a0) i)

/-- What C's `strchr` returns for a string of length `len`, its terminator included in
    the search. -/
def IsResult (mem : Mem) (s : Addr) (b : Byte) (len : Nat) (r : Addr) : Prop :=
  (∃ k ≤ len, FirstAt mem s (· = b) k ∧ r = off s k) ∨ ((∀ k ≤ len, mem (off s k) ≠ b) ∧ r = 0)

/-- `s31_xespv_strchr` returns to its caller with C's result. -/
def Correct (addr : Label → Addr) (m₀ : Machine) (len : Nat) : Prop :=
  ∃ m, Reaches (memopsAt addr) ⟨.run (memopsCode .s31XespvStrchr), m₀⟩ ⟨.out (m₀.get .ra), m⟩ ∧
    IsResult m₀.mem (m₀.get .a0) (needle m₀) len (m.get .a0)

section

variable {addr : Label → Addr} {m₀ : Machine} {len stop : Nat}

/-- A string has a first place where the search stops. -/
theorem Call.exists_stop (h : Call m₀ len) :
    ∃ stop ≤ len, FirstAt m₀.mem (m₀.get .a0) (Stops m₀) stop := exists_firstAt (.inl h.string.here)

/-- The result for a byte that occurs first at `k`. -/
private theorem isResult_iff_of_firstAt {mem : Mem} {s r : Addr} {b : Byte} {k : Nat} (hk : k ≤ len)
    (h : FirstAt mem s (· = b) k) : IsResult mem s b len r ↔ r = off s k := by
  constructor
  · rintro (⟨j, -, hj, rfl⟩ | ⟨hnone, -⟩)
    · rw [h.unique hj]
    · exact absurd h.here (hnone k hk)
  · exact fun hr => .inl ⟨k, hk, h, hr⟩

/-- The result is C's for arguments up to 255, for bytes that do not occur, and for one
    that occurs first at address 0. -/
theorem strchr_correct_iff (hlayout : Layout addr) (hcall : Call m₀ len)
    (hra : ∀ l ∈ returnLabels, addr l ≠ m₀.get .ra) :
    Correct addr m₀ len ↔ (m₀.get .a1).toNat < 256 ∨
      (∀ k ≤ len, m₀.mem (off (m₀.get .a0) k) ≠ needle m₀) ∨
      ∃ k ≤ len, FirstAt m₀.mem (m₀.get .a0) (· = needle m₀) k ∧ off (m₀.get .a0) k = 0 := by
  obtain ⟨stop, hle, hstop⟩ := hcall.exists_stop
  have hreturns := strchr_returns hlayout hcall.sp hstop fun i hi => hcall.outside i (by omega)
  -- the routine compares the byte found with the whole argument, not with its low byte
  have hcorrect : Correct addr m₀ len ↔ IsResult m₀.mem (m₀.get .a0) (needle m₀) len
      (if (m₀.mem (off (m₀.get .a0) stop)).setWidth 32 = m₀.get .a1 then off (m₀.get .a0) stop
        else 0) := by
    constructor
    · rintro ⟨m, hrun, hresult⟩
      rwa [hreturns.post_of_reaches hra hrun] at hresult
    · intro hresult
      obtain ⟨m, hrun, hm⟩ := hreturns.reaches hra
      exact ⟨m, hrun, by rwa [hm]⟩
  rw [hcorrect]
  by_cases hhit : m₀.mem (off (m₀.get .a0) stop) = needle m₀
  · -- the byte occurs, first at the stop
    have hfirst : FirstAt m₀.mem (m₀.get .a0) (· = needle m₀) stop :=
      ⟨hhit, fun i hi heq => hstop.before i hi (.inr heq)⟩
    have hwide : (needle m₀).setWidth 32 = m₀.get .a1 ↔ (m₀.get .a1).toNat < 256 := by
      rw [← BitVec.toNat_inj, needle, BitVec.toNat_setWidth, BitVec.toNat_setWidth]
      omega
    rw [isResult_iff_of_firstAt hle hfirst, hhit]
    split
    · next heq => exact ⟨fun _ => .inl (hwide.mp heq), fun _ => rfl⟩
    -- the argument has more bits: NULL is returned, which is right only at address 0
    · next hne =>
      have hge : ¬ (m₀.get .a1).toNat < 256 := fun hlt => hne (hwide.mpr hlt)
      constructor
      · intro hzero
        exact .inr (.inr ⟨stop, hle, hfirst, hzero.symm⟩)
      · rintro (hlt | hnone | ⟨k, -, hk, hzero⟩)
        · exact absurd hlt hge
        · exact absurd hhit (hnone stop hle)
        · rw [hfirst.unique hk, hzero]
  · -- the search has stopped at the terminator
    have hzero : m₀.mem (off (m₀.get .a0) stop) = 0 := hstop.here.resolve_right hhit
    have hnone : ∀ k ≤ len, m₀.mem (off (m₀.get .a0) k) ≠ needle m₀ := by
      have hend : FirstAt m₀.mem (m₀.get .a0) (· = 0) stop :=
        ⟨hzero, fun i hi heq => hstop.before i hi (.inl heq)⟩
      intro k hk heq
      rw [← hend.unique hcall.string] at hk
      obtain rfl | hlt := Nat.eq_or_lt_of_le hk
      · exact hhit heq
      · exact hstop.before k hlt (.inr heq)
    have hne : ¬ (m₀.mem (off (m₀.get .a0) stop)).setWidth 32 = m₀.get .a1 := by
      intro heq
      refine hhit ?_
      rw [needle, ← heq, BitVec.setWidth_setWidth_of_le _ (by decide), BitVec.setWidth_eq]
    rw [if_neg hne]
    exact ⟨fun _ => .inr (.inl hnone), fun _ => .inr ⟨hnone, rfl⟩⟩

end

/-- The call `strchr(s, c)` for the one-letter string 0xe9 at 0x1000. -/
def letterCall (c : BitVec 32) : Machine :=
  called 0x1000 c 0 0 0x8000 fun x => if x = 0x1000 then 0xe9 else 0

/-- The calls of the examples are proper ones. -/
private theorem letterCall_call (c : BitVec 32) : Call (letterCall c) 1 where
  sp := (by decide : (0x8000 : Addr).toNat % 16 = 0)
  string := ⟨rfl, (by decide : ∀ i < 1, ¬ (if off 0x1000 i = 0x1000 then 0xe9 else 0 : Byte) = 0)⟩
  outside := (by decide : ∀ i ≤ 1, ¬ InFrame (0x8000 + -64) 64 (off 0x1000 i))

/-- As an unsigned char the letter is found. -/
theorem strchr_correct_letter : Correct sampleAddr (letterCall 0xe9) 1 :=
  (strchr_correct_iff sampleAddr_layout (letterCall_call 0xe9) (by decide)).mpr (.inl (by decide))

/-- As a sign-extended char it is not: NULL is returned. -/
theorem strchr_letter_wrong : Call (letterCall (-23)) 1 ∧ ¬ Correct sampleAddr (letterCall (-23)) 1 := by
  refine ⟨letterCall_call (-23), ?_⟩
  rintro ⟨m, hrun, hresult⟩
  have hstop : FirstAt (letterCall (-23)).mem 0x1000 (Stops (letterCall (-23))) 0 :=
    ⟨.inr rfl, fun i hi => absurd hi (Nat.not_lt_zero i)⟩
  have hreturns := strchr_returns sampleAddr_layout (letterCall_call (-23)).sp hstop fun i hi =>
    (letterCall_call (-23)).outside i (by omega)
  have hnull := hreturns.post_of_reaches (by decide) hrun
  have hfirst : FirstAt (letterCall (-23)).mem 0x1000 (· = 0xe9) 0 :=
    ⟨rfl, fun i hi => absurd hi (Nat.not_lt_zero i)⟩
  have hfound := (isResult_iff_of_firstAt (Nat.zero_le 1) hfirst).mp hresult
  rw [hnull] at hfound
  exact absurd hfound (by decide)

end Strchr

end EspS31.Xespv
