import EspS31.Spec.XespvAligned
import EspS31.Spec.StpcpyCorrect

/-!
# Alignment of the vector accesses of the SIMD library

For most operations every vector access is aligned, whatever the arguments are: the
vector loops are entered on tests of all the pointers they use.  `s31_xespv_eq16`
makes no test.  `s31_xespv_strcmp` and `s31_xespv_stpcpy` compare the alignments of
their pointers once and then test one pointer at every byte, so that pointers which
are not co-aligned still get to the vector loop at the first boundary of the one,
unless the strings end or differ before it.

## Key results

- `memops_safe`: the conditions at the labels hold from label to label
- `vectorAligned_iff`: the calls all of whose vector accesses are aligned
-/

namespace EspS31.Xespv

open ByteMem Stpcpy

/-! ## Conditions at the labels -/

/-- The strings differ or end at `k`, before `a` gets to its next boundary. -/
def StopsEarly (mem : Mem) (a b : Addr) : Prop :=
  ∃ k, a.toNat % 16 + k < 16 ∧ (mem (off a k) ≠ mem (off b k) ∨ mem (off a k) = 0)

/-- The string at `s` ends at `k`, before its next boundary and before the bytes that
    its copy to `d` overwrites. -/
def EndsAt (mem : Mem) (d s : Addr) (k : Nat) : Prop :=
  s.toNat % 16 + k < 16 ∧ k < (d - s).toNat ∧ mem (off s k) = 0

/-- The registers that are aligned at a label.  Where the label's condition says more
    than that, their alignment implies it. -/
def needs : Label → List Reg
  | .s31XespvEq16 | .LvaVec => [.sp, .a0, .a1, .a2]
  | .Lmc64 | .Lmc16 | .LmmBack64 | .LmmBack16 | .LcmpVec | .LstcmpVec | .LstpcVec
  | .s31XespvStrcmp | .LstcmpAlign | .LstcmpByte | .s31XespvStpcpy | .LstpcAlign | .LstpcByte
  | .s31XespvStrcpy => [.sp, .a0, .a1]
  | .LmsPattern | .Lms64 | .Lms16 | .LmchVecCheck | .LmrVecCheck | .LsnVec | .LscVec => [.sp, .a0]
  | .LmsAlign => [.sp, .a0, .t0]
  | _ => [.sp]

/-- The condition at each label. -/
def alignCond (l : Label) (m : Machine) : Prop :=
  match l with
  | .LmsAlign => Aligned (m.get .sp) ∧ Aligned (m.get .a0 + m.get .t0)
  | .s31XespvStrcmp | .LstcmpByte =>
    Aligned (m.get .sp) ∧
      (CoAligned (m.get .a0) (m.get .a1) ∨ StopsEarly m.mem (m.get .a0) (m.get .a1))
  -- at this label the first pointer may already be at a boundary
  | .LstcmpAlign =>
    Aligned (m.get .sp) ∧ (CoAligned (m.get .a0) (m.get .a1) ∨
      ¬ Aligned (m.get .a0) ∧ StopsEarly m.mem (m.get .a0) (m.get .a1))
  | .s31XespvStpcpy | .LstpcByte =>
    Aligned (m.get .sp) ∧
      (CoAligned (m.get .a0) (m.get .a1) ∨ ∃ k, EndsAt m.mem (m.get .a0) (m.get .a1) k)
  | .LstpcAlign =>
    Aligned (m.get .sp) ∧ (CoAligned (m.get .a0) (m.get .a1) ∨
      ¬ Aligned (m.get .a1) ∧ ∃ k, EndsAt m.mem (m.get .a0) (m.get .a1) k)
  -- the terminator must not lie in the words that `strcpy` saves
  | .s31XespvStrcpy =>
    Aligned (m.get .sp) ∧ (CoAligned (m.get .a0) (m.get .a1) ∨
      ∃ k, EndsAt m.mem (m.get .a0) (m.get .a1) k ∧
        ¬ InFrame (m.get .sp + (-8)) 8 (off (m.get .a1) k))
  | l => ∀ r ∈ needs l, Aligned (m.get r)

/-- Two block boundaries have one place within a block. -/
private theorem coAligned_of_aligned {a b : Addr} (ha : Aligned a) (hb : Aligned b) :
    CoAligned a b :=
  ha.trans hb.symm

/-- Aligned registers are enough for the condition of a label. -/
private theorem alignCond_of_needs (l : Label) (m : Machine)
    (h : ∀ r ∈ needs l, Aligned (m.get r)) :
    alignCond l m := by
  cases l
  case LmsAlign =>
    exact ⟨h .sp (by decide), aligned_add (h .a0 (by decide)) (h .t0 (by decide))⟩
  case s31XespvStrcmp | LstcmpByte | LstcmpAlign | s31XespvStpcpy | LstpcByte | LstpcAlign |
      s31XespvStrcpy =>
    exact ⟨h .sp (by decide), .inl (coAligned_of_aligned (h .a0 (by decide)) (h .a1 (by decide)))⟩
  all_goals exact h

section

variable {addr : Label → Addr} {m : Machine}

/-- The labels whose condition is only about aligned registers pass the analysis. -/
private theorem safe_of_check {l : Label}
    (hcheck : check needs returnLabels (memopsCode l) ⟨needs l, none⟩)
    (h : ∀ r ∈ needs l, Aligned (m.get r)) : Safe (memopsAt addr) alignCond (memopsCode l) m :=
  check_safe alignCond_of_needs hcheck ⟨h, nofun⟩

/-! ### `s31_xespv_memset` -/

/-- The loop leaves the destination aligned once the count is down to zero. -/
private theorem memsetAlign_safe (h : alignCond .LmsAlign m) :
    Safe (memopsAt addr) alignCond (memopsCode .LmsAlign) m := by
  obtain ⟨hsp, hsum⟩ := h
  have hsp' : (execs (memsetAlign.take 4) m).get .sp = m.get .sp := execs_get (by decide) m
  have hsum' : (execs (memsetAlign.take 4) m).get .a0 + (execs (memsetAlign.take 4) m).get .t0 =
      m.get .a0 + m.get .t0 := by
    simp only [memsetAlign, List.take, execs, List.foldl, Instr.exec, Machine.get_set,
      Machine.get_setMem, reduceCtorEq, if_false, if_true]
    rw [add_add_add_comm, show (1 : BitVec 32) + (-1) = 0 by rfl, add_zero]
  refine Safe.line (memsetAlign.take 4) (by decide) (.bnez (fun _ => ?_) fun hzero => ?_)
  · exact ⟨by rwa [hsp'], by rwa [hsum']⟩
  -- the count is used up, so the pointer is at the boundary
  · refine safe_of_check (l := .LmsPattern) (by decide +kernel) ?_
    rw [hzero, add_zero] at hsum'
    intro r hr
    obtain rfl | rfl : r = .sp ∨ r = .a0 := by simpa [needs] using hr
    · rwa [hsp']
    · rwa [hsum']

/-- The count set up for the loop is the distance to the next boundary. -/
private theorem aligned_add_distance (a : Addr) : Aligned (a + (16 - (a &&& 15))) := by
  have hlow := and_15_toNat a
  have hlt := a.isLt
  simp only [Aligned, BitVec.toNat_add, BitVec.toNat_sub]
  rw [show (a &&& 15).toNat = a.toNat % 16 from hlow, show (16 : BitVec 32).toNat = 16 from rfl]
  omega

/-- `memset` needs an aligned stack only. -/
private theorem memset_safe (h : Aligned (m.get .sp)) :
    Safe (memopsAt addr) alignCond (memopsCode .s31XespvMemset) m := by
  refine Safe.line (memsetEntry.take 3) (by decide) (.bltu (fun _ => ?_) fun _ => ?_)
  · refine List.forall_mem_singleton.mpr ?_
    rwa [execs_get (by decide)]
  refine Safe.line [.andi .t0 .a0 15] (by decide) (.beqz (fun hzero => ?_) fun _ => ?_)
  · refine List.forall_mem_cons.mpr ⟨?_, List.forall_mem_singleton.mpr ?_⟩
    · rwa [execs_get (by decide), execs_get (by decide)]
    · rw [execs_get (by decide)]
      exact (and_15_eq_zero_iff _).mp hzero
  refine Safe.line [.li .t1 16, .sub .t0 .t1 .t0] (by decide) (memsetAlign_safe ⟨?_, ?_⟩)
  · rwa [execs_get (by decide), execs_get (by decide), execs_get (by decide)]
  · exact aligned_add_distance _

/-! ### `s31_xespv_strcmp` -/

/-- One byte on, the strings still stop before the boundary. -/
theorem StopsEarly.succ {mem : Mem} {a b : Addr} (h : StopsEarly mem a b)
    (hsame : mem a = mem b) (hne : mem a ≠ 0) :
    ¬ Aligned (off a 1) ∧ StopsEarly mem (off a 1) (off b 1) := by
  obtain ⟨k, hk, hstop⟩ := h
  cases k with
  | zero =>
    rw [off_zero, off_zero] at hstop
    exact (hstop.elim (· hsame) hne).elim
  | succ k =>
    have hlow : (off a 1).toNat % 16 = a.toNat % 16 + 1 := by
      rw [off_toNat]
      omega
    refine ⟨fun halign => ?_, k, by omega, ?_⟩
    · exact absurd (hlow.symm.trans halign) (by omega)
    · rwa [off_succ, off_succ]

/-- One byte on, two pointers differ as before. -/
private theorem coAligned_succ_iff {a b : Addr} :
    CoAligned (off a 1) (off b 1) ↔ CoAligned a b := by
  unfold CoAligned
  rw [off_toNat, off_toNat]
  omega

/-- The two bytes that are compared. -/
private theorem execs_strcmpBytes (m : Machine) :
    (execs (strcmpByte.take 2) m).get .t0 = (m.mem (m.get .a0)).setWidth 32 ∧
      (execs (strcmpByte.take 2) m).get .t1 = (m.mem (m.get .a1)).setWidth 32 := by
  constructor <;>
    simp only [strcmpByte, List.take, execs, List.foldl, Instr.exec, Machine.get_set,
      Machine.mem_set, reduceCtorEq, if_false, if_true, off_zero]

/-- The machine once `.Lstcmp_byte` has passed a byte. -/
def strcmpPast (m : Machine) : Machine :=
  execs (L := Label) (advance 1) (execs (strcmpByte.take 2) m)

/-- The registers after a pair of equal bytes. -/
private theorem strcmpPast_get (m : Machine) :
    (strcmpPast m).get .a0 = off (m.get .a0) 1 ∧ (strcmpPast m).get .a1 = off (m.get .a1) 1 ∧
      (strcmpPast m).get .sp = m.get .sp ∧ (strcmpPast m).mem = m.mem := by
  refine ⟨(execs_advance 1 _).1.trans ?_, (execs_advance 1 _).2.trans ?_, ?_, ?_⟩
  · rw [execs_get (by decide)]
  · rw [execs_get (by decide)]
  · rw [strcmpPast, execs_get (by decide), execs_get (by decide)]
  · rw [strcmpPast, execs_mem (by decide), execs_mem (by decide)]

/-- A turn of the byte loop keeps the condition of the block loop. -/
private theorem strcmpByte_safe (h : alignCond .LstcmpByte m) :
    Safe (memopsAt addr) alignCond (memopsCode .LstcmpByte) m := by
  obtain ⟨hsp, hcond⟩ := h
  have hend : alignCond .LstcmpDiff (execs (strcmpByte.take 2) m) ∧
      alignCond .LstcmpEqual (execs (strcmpByte.take 2) m) := by
    constructor <;> refine List.forall_mem_singleton.mpr ?_ <;> rwa [execs_get (by decide)]
  refine Safe.line (strcmpByte.take 2) (by decide)
    (.bne (fun _ => hend.1) fun heq => .beqz (fun _ => hend.2) fun hne => ?_)
  obtain ⟨ha0, ha1, hsp', hmem⟩ := strcmpPast_get m
  -- the bytes were equal and not zero, so the condition moves one byte on
  have hnext : alignCond .LstcmpAlign (strcmpPast m) := by
    refine ⟨by rwa [hsp'], ?_⟩
    obtain ⟨ht0, ht1⟩ := execs_strcmpBytes m
    rw [ht0, ht1, setWidth_eq_iff] at heq
    rw [ha0, ha1, hmem]
    refine hcond.imp coAligned_succ_iff.mpr fun hstop => hstop.succ heq fun hzero => hne ?_
    rw [ht0, hzero]
    rfl
  exact Safe.line (advance 1) (by decide) ⟨nofun, hnext⟩

/-- With the boundary reached, both pointers are aligned. -/
private theorem strcmpAlign_safe (h : alignCond .LstcmpAlign m) :
    Safe (memopsAt addr) alignCond (memopsCode .LstcmpAlign) m := by
  obtain ⟨hsp, hcond⟩ := h
  refine Safe.line (strcmpAlign.take 1) (by decide) (.beqz (fun hzero => ?_) fun _ => ?_)
  · have ha0 : Aligned (m.get .a0) := (and_15_eq_zero_iff _).mp hzero
    have hco : CoAligned (m.get .a0) (m.get .a1) := hcond.resolve_right fun hstop => hstop.1 ha0
    refine List.forall_mem_cons.mpr ⟨?_, List.forall_mem_cons.mpr
      ⟨?_, List.forall_mem_singleton.mpr ?_⟩⟩ <;> rw [execs_get (by decide)]
    · exact hsp
    · exact ha0
    · exact hco.symm.trans ha0
  · refine strcmpByte_safe ⟨?_, ?_⟩
    · rwa [execs_get (by decide)]
    · rw [execs_get (by decide), execs_get (by decide), execs_mem (by decide)]
      exact hcond.imp_right And.right

/-- `strcmp` is safe under its condition. -/
private theorem strcmp_safe (h : alignCond .s31XespvStrcmp m) :
    Safe (memopsAt addr) alignCond (memopsCode .s31XespvStrcmp) m := by
  obtain ⟨hsp, hcond⟩ := h
  have hsp' : Aligned ((execs (strcmpEntry.take 2) m).get .sp) := by rwa [execs_get (by decide)]
  refine Safe.line (strcmpEntry.take 2) (by decide) (.bnez (fun _ => ?_) fun hzero => ?_)
  · refine ⟨hsp', ?_⟩
    rwa [execs_get (by decide), execs_get (by decide), execs_mem (by decide)]
  · have hco : CoAligned (m.get .a0) (m.get .a1) := (xor_and_15_eq_zero_iff _ _).mp hzero
    refine Safe.patternVector .zero .q3 hsp' (strcmpAlign_safe ⟨?_, .inl ?_⟩)
    · rwa [execs_patternVector_sp]
    · rwa [execs_get (by decide), execs_get (by decide), execs_get (by decide),
        execs_get (by decide)]

/-! ### `s31_xespv_stpcpy` -/

/-- The bytes from `s` up to `d`. -/
private theorem off_sub_toNat (d s : Addr) : off s (d - s).toNat = d := by
  rw [off, BitVec.ofNat_toNat, BitVec.setWidth_eq, add_sub_cancel]

/-- Going on together keeps the distance. -/
private theorem sub_off_off (d s : Addr) (k : Nat) : off d k - off s k = d - s := by
  simp only [off]
  exact add_sub_add_right_eq_sub ..

/-- The bytes before the destination are not the first one copied. -/
private theorem off_ne_of_lt {d s : Addr} {k : Nat} (h : k < (d - s).toNat) : off s k ≠ d := by
  rintro rfl
  have hk : (off s k - s).toNat = k % 2 ^ 32 := by
    rw [off, add_sub_cancel_left, BitVec.toNat_ofNat]
  exact absurd h (by rw [hk]; omega)

/-- One byte on, the source still ends before the boundary. -/
theorem EndsAt.succ {mem : Mem} {d s : Addr} {k : Nat} (h : EndsAt mem d s k)
    (hne : mem s ≠ 0) :
    ¬ Aligned (off s 1) ∧ ∃ j, EndsAt (Function.update mem d (mem s)) (off d 1) (off s 1) j := by
  obtain ⟨hk, hlt, hzero⟩ := h
  cases k with
  | zero =>
    rw [off_zero] at hzero
    exact (hne hzero).elim
  | succ k =>
    -- the terminator is in the same block, so the next byte is too
    have hlow : (off s 1).toNat % 16 = s.toNat % 16 + 1 := by
      rw [off_toNat]
      omega
    refine ⟨fun halign => ?_, k, by omega, ?_, ?_⟩
    · exact absurd (hlow.symm.trans halign) (by omega)
    · rw [sub_off_off]
      omega
    · rw [off_succ, Function.update_of_ne (off_ne_of_lt hlt), hzero]

/-- The byte that is copied. -/
private theorem execs_stpcpyBytes (m : Machine) :
    (execs (stpcpyByte.take 2) m).get .t0 = (m.mem (m.get .a1)).setWidth 32 ∧
      (execs (stpcpyByte.take 2) m).mem =
        Function.update m.mem (m.get .a0) (m.mem (m.get .a1)) := by
  constructor
  · simp only [stpcpyByte, List.take, execs, List.foldl, Instr.exec, Machine.get_set,
      Machine.get_setMem, reduceCtorEq, if_false, if_true, off_zero]
  · simp only [stpcpyByte, List.take, execs, List.foldl, Instr.exec, Machine.get_set,
      Machine.mem_set, Machine.mem_setMem, reduceCtorEq, if_false, if_true, off_zero]
    rw [BitVec.setWidth_setWidth_of_le _ (by omega), BitVec.setWidth_eq]

/-- The machine once `.Lstpc_byte` has copied a byte. -/
def stpcpyPast (m : Machine) : Machine :=
  execs (L := Label) (advance 1) (execs (stpcpyByte.take 2) m)

/-- The registers and the memory after a byte. -/
private theorem stpcpyPast_get (m : Machine) :
    (stpcpyPast m).get .a0 = off (m.get .a0) 1 ∧ (stpcpyPast m).get .a1 = off (m.get .a1) 1 ∧
      (stpcpyPast m).get .sp = m.get .sp ∧
      (stpcpyPast m).mem = Function.update m.mem (m.get .a0) (m.mem (m.get .a1)) := by
  refine ⟨(execs_advance 1 _).1.trans ?_, (execs_advance 1 _).2.trans ?_, ?_, ?_⟩
  · rw [execs_get (by decide)]
  · rw [execs_get (by decide)]
  · rw [stpcpyPast, execs_get (by decide), execs_get (by decide)]
  · rw [stpcpyPast, execs_mem (by decide), (execs_stpcpyBytes m).2]

/-- A turn of the byte loop keeps the condition of the block loop. -/
private theorem stpcpyByte_safe (h : alignCond .LstpcByte m) :
    Safe (memopsAt addr) alignCond (memopsCode .LstpcByte) m := by
  obtain ⟨hsp, hcond⟩ := h
  refine Safe.line (stpcpyByte.take 2) (by decide) (.beqz (fun _ => ?_) fun hne => ?_)
  · refine List.forall_mem_singleton.mpr ?_
    rwa [execs_get (by decide)]
  obtain ⟨ha0, ha1, hsp', hmem⟩ := stpcpyPast_get m
  -- the byte was not zero, so the condition moves one byte on
  have hnext : alignCond .LstpcAlign (stpcpyPast m) := by
    refine ⟨by rwa [hsp'], ?_⟩
    rw [ha0, ha1, hmem]
    refine hcond.imp coAligned_succ_iff.mpr ?_
    rintro ⟨k, hends⟩
    refine hends.succ fun hzero => hne ?_
    rw [(execs_stpcpyBytes m).1, hzero]
    rfl
  exact Safe.line (advance 1) (by decide) ⟨nofun, hnext⟩

/-- The test of the source leads to one of the loops, each under its condition. -/
private theorem stpcpyAlign_safe (h : alignCond .LstpcAlign m) :
    Safe (memopsAt addr) alignCond (memopsCode .LstpcAlign) m := by
  obtain ⟨hsp, hcond⟩ := h
  refine Safe.line (stpcpyAlign.take 1) (by decide) (.beqz (fun hzero => ?_) fun _ => ?_)
  · have ha1 : Aligned (m.get .a1) := (and_15_eq_zero_iff _).mp hzero
    have hco : CoAligned (m.get .a0) (m.get .a1) := hcond.resolve_right fun hends => hends.1 ha1
    refine List.forall_mem_cons.mpr ⟨?_, List.forall_mem_cons.mpr
      ⟨?_, List.forall_mem_singleton.mpr ?_⟩⟩ <;> rw [execs_get (by decide)]
    · exact hsp
    · exact hco.trans ha1
    · exact ha1
  · refine stpcpyByte_safe ⟨?_, ?_⟩
    · rwa [execs_get (by decide)]
    · rw [execs_get (by decide), execs_get (by decide), execs_mem (by decide)]
      exact hcond.imp_right And.right

/-- `stpcpy` is safe under its condition. -/
private theorem stpcpy_safe (h : alignCond .s31XespvStpcpy m) :
    Safe (memopsAt addr) alignCond (memopsCode .s31XespvStpcpy) m := by
  obtain ⟨hsp, hcond⟩ := h
  have hsp' : Aligned ((execs (stpcpyEntry.take 2) m).get .sp) := by rwa [execs_get (by decide)]
  refine Safe.line (stpcpyEntry.take 2) (by decide) (.bnez (fun _ => ?_) fun hzero => ?_)
  · refine ⟨hsp', ?_⟩
    rwa [execs_get (by decide), execs_get (by decide), execs_mem (by decide)]
  · have hco : CoAligned (m.get .a0) (m.get .a1) := (xor_and_15_eq_zero_iff _ _).mp hzero
    refine Safe.patternVector .zero .q1 hsp' (stpcpyAlign_safe ⟨?_, .inl ?_⟩)
    · rwa [execs_patternVector_sp]
    · rwa [execs_get (by decide), execs_get (by decide), execs_get (by decide),
        execs_get (by decide)]

/-! ### `s31_xespv_strcpy` -/

/-- The saved words of `strcpy`, by their offsets in the frame. -/
private theorem off_saved (a : Addr) (j : Nat) : off (a + (-16)) (8 + j) = off (a + (-8)) j := by
  have h8 : off (a + (-16)) 8 = a + (-8) := by
    rw [off, BitVec.add_assoc, show (-16 + BitVec.ofNat 32 8 : Addr) = -8 by decide]
  rw [← h8, off_off]

/-- The caller's `ra` and `s0` are saved in the eight bytes below the stack pointer. -/
private theorem strcpyCallee_saves (returnAddr : Addr) (m : Machine) :
    AgreeOff (m.get .sp + (-8)) 8 m.mem (strcpyCallee returnAddr m).mem := by
  have hra : off (m.get .sp + (-16)) 12 = off (m.get .sp + (-8)) 4 := off_saved _ 4
  have hs0 : off (m.get .sp + (-16)) 8 = off (m.get .sp + (-8)) 0 := off_saved _ 0
  rw [strcpyCallee_mem, hra, hs0]
  refine (AgreeOff.storeWord m.mem ?_).trans (AgreeOff.storeWord _ ?_)
  · intro j hj
    rw [off_off]
    exact inFrame_off (by omega) (by omega)
  · intro j hj
    rw [off_off]
    exact inFrame_off (by omega) (by omega)

/-- `strcpy` is safe under its condition. -/
private theorem strcpy_safe (h : alignCond .s31XespvStrcpy m) :
    Safe (memopsAt addr) alignCond (memopsCode .s31XespvStrcpy) m := by
  obtain ⟨hsp, hcond⟩ := h
  obtain ⟨ha0, ha1, -, hsp', -⟩ := strcpyCallee_get (addr .strcpyReturn) m
  have hcallee : alignCond .s31XespvStpcpy (strcpyCallee (addr .strcpyReturn) m) := by
    refine ⟨?_, ?_⟩
    · rw [hsp']
      exact aligned_add hsp (by decide)
    · rw [ha0, ha1]
      refine hcond.imp_right ?_
      rintro ⟨k, ⟨hk, hlt, hzero⟩, hout⟩
      exact ⟨k, hk, hlt, (strcpyCallee_saves _ m _ hout).trans hzero⟩
  exact Safe.line (strcpyEntry.take 4) (by decide) ⟨nofun, hcallee⟩

end

/-- The conditions hold from label to label. -/
theorem memops_safe (addr : Label → Addr) (l : Label) (m : Machine) (h : alignCond l m) :
    Safe (memopsAt addr) alignCond (memopsCode l) m := by
  cases l
  case LmsAlign => exact memsetAlign_safe h
  case s31XespvMemset => exact memset_safe (h .sp (by decide))
  case s31XespvStrcmp => exact strcmp_safe h
  case LstcmpAlign => exact strcmpAlign_safe h
  case LstcmpByte => exact strcmpByte_safe h
  case s31XespvStpcpy => exact stpcpy_safe h
  case LstpcAlign => exact stpcpyAlign_safe h
  case LstpcByte => exact stpcpyByte_safe h
  case s31XespvStrcpy => exact strcpy_safe h
  all_goals exact safe_of_check (by decide +kernel) h

/-! ## Calls with an access that is not aligned -/

/-- A run gets to a vector access that is not aligned. -/
def Misaligned (p : Program Label) (c : Config Label) : Prop :=
  ∃ c', Reaches p c c' ∧ ¬ c'.AccessAligned

section

variable {p : Program Label} {c c' : Config Label}

/-- A run that comes to a misaligned access has one. -/
theorem Misaligned.of_reaches (h : Reaches p c c') (h' : Misaligned p c') : Misaligned p c := by
  obtain ⟨c'', hreach, haccess⟩ := h'
  exact ⟨c'', h.trans hreach, haccess⟩

/-- A vector instruction at an address that is no block boundary. -/
theorem Misaligned.here {i : Instr Label} {rest : Code} {m : Machine} {r : Reg}
    (hi : i.vectorAddr = some r) (hr : ¬ Aligned (m.get r)) :
    Misaligned p ⟨.run (i :: rest), m⟩ :=
  ⟨_, .refl _, fun haccess => hr (haccess i rest rfl r hi)⟩

end

section

variable (addr : Label → Addr)

/-- `s31_xespv_eq16` accesses its three pointers as they are. -/
private theorem eq16_misaligned {m : Machine}
    (h : ¬ (Aligned (m.get .a0) ∧ Aligned (m.get .a1) ∧ Aligned (m.get .a2))) :
    Misaligned (memopsAt addr) ⟨.run (memopsCode .s31XespvEq16), m⟩ := by
  by_cases ha1 : Aligned (m.get .a1)
  · by_cases ha2 : Aligned (m.get .a2)
    · refine .of_reaches (Reaches.line (eq16Entry.take 3) (by decide) m) (.here rfl fun ha0 => ?_)
      rw [execs_get (by decide)] at ha0
      exact h ⟨ha0, ha1, ha2⟩
    · refine .of_reaches (Reaches.line (eq16Entry.take 1) (by decide) m) (.here rfl ?_)
      rwa [execs_get (by decide)]
  · exact .here rfl ha1

/-! ### `s31_xespv_strcmp` -/

/-- The vector loop loads from the second string what the first one's alignment allows. -/
private theorem strcmpVec_misaligned {m : Machine} (ha1 : ¬ Aligned (m.get .a1)) :
    Misaligned (memopsAt addr) ⟨.run (memopsCode .LstcmpVec), m⟩ := by
  refine .of_reaches (Reaches.line (strcmpVec.take 6) (by decide) m) (.here rfl ?_)
  rwa [execs_get (by decide)]

/-- A byte that neither ends the strings nor tells them apart is passed. -/
private theorem reaches_strcmpPast {m : Machine} (hsame : m.mem (m.get .a0) = m.mem (m.get .a1))
    (hne : m.mem (m.get .a0) ≠ 0) :
    Reaches (memopsAt addr) ⟨.run (memopsCode .LstcmpByte), m⟩
      ⟨.run (if Aligned (off (m.get .a0) 1) then memopsCode .LstcmpVec
        else memopsCode .LstcmpByte), execs (strcmpAlign.take 1) (strcmpPast m)⟩ := by
  obtain ⟨ht0, ht1⟩ := execs_strcmpBytes m
  refine (Reaches.line (strcmpByte.take 2) (by decide) m).trans (.bne ?_)
  rw [if_neg (by rw [ht0, ht1, hsame]; exact not_not.mpr rfl)]
  refine .beqz ?_
  rw [if_neg (by rw [ht0]; exact fun hzero => hne ((setWidth_eq_iff _ 0).mp hzero))]
  refine (Reaches.line (advance 1) (by decide) _).trans (.j ?_)
  refine (Reaches.line (strcmpAlign.take 1) (by decide) (strcmpPast m)).trans (.beqz ?_)
  -- the test at the loop's head looks at the first pointer only
  have hzero : (execs (strcmpAlign.take 1) (strcmpPast m)).get .t0 = 0 ↔
      Aligned (off (m.get .a0) 1) := by
    rw [← (strcmpPast_get m).1]
    exact and_15_eq_zero_iff _
  simp only [hzero]
  exact .refl _

section

variable {mem : Mem} {a b : Addr}

/-- Strings that do not stop before the boundary go on now. -/
private theorem same_of_not_stopsEarly (h : ¬ StopsEarly mem a b) : mem a = mem b ∧ mem a ≠ 0 := by
  have hlt : a.toNat % 16 + 0 < 16 := by omega
  constructor
  · by_contra hne
    exact h ⟨0, hlt, .inl (by rwa [off_zero, off_zero])⟩
  · intro hzero
    exact h ⟨0, hlt, .inr (by rwa [off_zero])⟩

/-- They do not stop before it one byte on either. -/
private theorem not_stopsEarly_succ (h : ¬ StopsEarly mem a b) (ha : a.toNat % 16 + 1 < 16) :
    ¬ StopsEarly mem (off a 1) (off b 1) := by
  rintro ⟨k, hk, hstop⟩
  rw [off_succ, off_succ] at hstop
  refine h ⟨k + 1, ?_, hstop⟩
  rw [off_toNat] at hk
  omega

end

/-- The byte loop goes on to the boundary, `n` bytes after the next one. -/
private theorem strcmpByte_misaligned {n : Nat} {m : Machine} (hn : (m.get .a0).toNat % 16 + n = 15)
    (hco : ¬ CoAligned (m.get .a0) (m.get .a1))
    (hstop : ¬ StopsEarly m.mem (m.get .a0) (m.get .a1)) :
    Misaligned (memopsAt addr) ⟨.run (memopsCode .LstcmpByte), m⟩ := by
  -- induction on the bytes up to the next block boundary of the first string
  induction n generalizing m with
  | zero =>
    obtain ⟨hsame, hne⟩ := same_of_not_stopsEarly hstop
    obtain ⟨-, ha1, -, -⟩ := strcmpPast_get m
    have halign : Aligned (off (m.get .a0) 1) := by
      rw [Aligned, off_toNat]
      omega
    refine .of_reaches (reaches_strcmpPast addr hsame hne) ?_
    rw [if_pos halign]
    -- one pointer is at a boundary now and the other is not
    refine strcmpVec_misaligned addr fun hother => hco (coAligned_succ_iff.mp ?_)
    rw [execs_get (by decide), ha1] at hother
    exact coAligned_of_aligned halign hother
  | succ n ih =>
    obtain ⟨hsame, hne⟩ := same_of_not_stopsEarly hstop
    obtain ⟨ha0, ha1, -, hmem⟩ := strcmpPast_get m
    have hlow : (off (m.get .a0) 1).toNat % 16 = (m.get .a0).toNat % 16 + 1 := by
      rw [off_toNat]
      omega
    have hunaligned : ¬ Aligned (off (m.get .a0) 1) := fun halign =>
      absurd (hlow.symm.trans halign) (by omega)
    refine .of_reaches (reaches_strcmpPast addr hsame hne) ?_
    rw [if_neg hunaligned]
    refine ih ?_ ?_ ?_
    · rw [execs_get (by decide), ha0]
      omega
    · rw [execs_get (by decide), execs_get (by decide), ha0, ha1]
      exact coAligned_succ_iff.not.mpr hco
    · rw [execs_get (by decide), execs_get (by decide), execs_mem (by decide), ha0, ha1, hmem]
      exact not_stopsEarly_succ hstop (by omega)

/-- Without its condition `strcmp` makes a misaligned access. -/
private theorem strcmp_misaligned {m : Machine} (hco : ¬ CoAligned (m.get .a0) (m.get .a1))
    (hstop : ¬ StopsEarly m.mem (m.get .a0) (m.get .a1)) :
    Misaligned (memopsAt addr) ⟨.run (memopsCode .s31XespvStrcmp), m⟩ := by
  have hskew : (execs (strcmpEntry.take 2) m).get .t0 ≠ 0 := fun hzero =>
    hco ((xor_and_15_eq_zero_iff _ _).mp hzero)
  have hreach : Reaches (memopsAt addr) ⟨.run (memopsCode .s31XespvStrcmp), m⟩
      ⟨.run (memopsCode .LstcmpByte), execs (strcmpEntry.take 2) m⟩ := by
    refine (Reaches.line (strcmpEntry.take 2) (by decide) m).trans (.bnez ?_)
    rw [if_pos hskew]
    exact .refl _
  refine .of_reaches hreach (strcmpByte_misaligned addr (n := 15 - (m.get .a0).toNat % 16) ?_ ?_ ?_)
  · rw [execs_get (by decide)]
    omega
  · rwa [execs_get (by decide), execs_get (by decide)]
  · rwa [execs_get (by decide), execs_get (by decide), execs_mem (by decide)]

/-! ### `s31_xespv_stpcpy` -/

/-- A block none of whose lanes is that of `q1` is stored at the destination as it is. -/
private theorem stpcpyVec_misaligned {m : Machine} (hsp : Aligned (m.get .sp))
    (ha0 : ¬ Aligned (m.get .a0)) :
    ∃ w, Misaligned (memopsAt addr) ⟨.run (memopsCode .LstpcVec), m.setV .q1 w⟩ := by
  let v := loadBlock (execs stpcpySave m).mem (m.get .a1)
  refine ⟨fun i => v i + 1, ?_⟩
  let m₁ := m.setV .q1 fun i => v i + 1
  obtain ⟨hs0, -, hsp₁⟩ := execs_stpcpyHead_get m₁
  obtain ⟨ha0', -, -, -, ht0⟩ := execs_stpcpyTail_get (execs stpcpyHead m₁)
  have hframe : Aligned (m.get .sp + (-32)) := aligned_add hsp (by decide)
  -- the comparison finds no lane
  have hzero : (execs stpcpyTail (execs stpcpyHead m₁)).get .t0 = 0 := by
    rw [ht0, hsp₁]
    refine (orWords_lanesEq (v := v) (w := fun i => v i + 1) fun k hk => ?_).mpr fun i heq => ?_
    · rw [execs_stpcpyHead_mem]
      exact storeBlock_same _ _ hframe hk
    · exact absurd (left_eq_add.mp heq) (by decide)
  have hreach : Reaches (memopsAt addr) ⟨.run (memopsCode .LstpcVec), m₁⟩
      ⟨.run (stpcpyStore ++ stpcpyDone), execs stpcpyTail (execs stpcpyHead m₁)⟩ := by
    refine ((Reaches.line stpcpyHead (by decide) m₁).trans
      (Reaches.line stpcpyTail (by decide) _)).trans (.bnez ?_)
    rw [if_neg (not_not.mpr hzero)]
    exact .refl _
  refine .of_reaches hreach (.here rfl ?_)
  rwa [ha0', hs0]

/-- A byte other than the terminator is copied and passed. -/
private theorem reaches_stpcpyPast {m : Machine} (hne : m.mem (m.get .a1) ≠ 0) :
    Reaches (memopsAt addr) ⟨.run (memopsCode .LstpcByte), m⟩
      ⟨.run (if Aligned (off (m.get .a1) 1) then memopsCode .LstpcVec
        else memopsCode .LstpcByte), execs (stpcpyAlign.take 1) (stpcpyPast m)⟩ := by
  refine (Reaches.line (stpcpyByte.take 2) (by decide) m).trans (.beqz ?_)
  rw [if_neg (by
    rw [(execs_stpcpyBytes m).1]
    exact fun hzero => hne ((setWidth_eq_iff _ 0).mp hzero))]
  refine (Reaches.line (advance 1) (by decide) _).trans (.j ?_)
  refine (Reaches.line (stpcpyAlign.take 1) (by decide) (stpcpyPast m)).trans (.beqz ?_)
  -- the test at the loop's head looks at the source only
  have hzero : (execs (stpcpyAlign.take 1) (stpcpyPast m)).get .t0 = 0 ↔
      Aligned (off (m.get .a1) 1) := by
    rw [← (stpcpyPast_get m).2.1]
    exact and_15_eq_zero_iff _
  simp only [hzero]
  exact .refl _

section

variable {mem : Mem} {d s : Addr}

/-- A string that does not end early does not end at its first byte. -/
private theorem ne_zero_of_not_endsAt (h : ¬ ∃ k, EndsAt mem d s k) (hne : d ≠ s) : mem s ≠ 0 := by
  intro hzero
  refine h ⟨0, by omega, ?_, by rwa [off_zero]⟩
  rw [Nat.pos_iff_ne_zero]
  exact fun hsub => hne (sub_eq_zero.mp (BitVec.eq_of_toNat_eq hsub))

/-- One byte on, the string still does not end early. -/
private theorem not_endsAt_succ (h : ¬ ∃ k, EndsAt mem d s k) (hs : s.toNat % 16 + 1 < 16)
    (hne : mem s ≠ 0) :
    ¬ ∃ k, EndsAt (Function.update mem d (mem s)) (off d 1) (off s 1) k := by
  rintro ⟨k, hk, hlt, hzero⟩
  rw [sub_off_off] at hlt
  rw [off_succ] at hzero
  -- the byte that was stored is not zero, so it is not the terminator
  have hother : off s (k + 1) ≠ d := by
    intro heq
    rw [heq, Function.update_self] at hzero
    exact hne hzero
  rw [Function.update_of_ne hother] at hzero
  rw [off_toNat] at hk
  have hpos : k + 1 ≠ (d - s).toNat := by
    intro heq
    rw [heq] at hother
    exact hother (off_sub_toNat d s)
  exact h ⟨k + 1, by omega, by omega, hzero⟩

end

/-- The byte loop copies up to the boundary, `n` bytes after the next one.  The vector
    registers play no part in it. -/
private theorem stpcpyByte_misaligned {n : Nat} {m : Machine} (hn : (m.get .a1).toNat % 16 + n = 15)
    (hsp : Aligned (m.get .sp)) (hco : ¬ CoAligned (m.get .a0) (m.get .a1))
    (hends : ¬ ∃ k, EndsAt m.mem (m.get .a0) (m.get .a1) k) :
    ∃ w, Misaligned (memopsAt addr) ⟨.run (memopsCode .LstpcByte), m.setV .q1 w⟩ := by
  -- induction on the bytes up to the next block boundary of the source
  induction n generalizing m with
  | zero =>
    obtain ⟨ha0, -, hsp', -⟩ := stpcpyPast_get m
    have hne : m.mem (m.get .a1) ≠ 0 :=
      ne_zero_of_not_endsAt hends fun heq => hco (by rw [heq]; rfl)
    have halign : Aligned (off (m.get .a1) 1) := by
      rw [Aligned, off_toNat]
      omega
    -- one pointer is at a boundary now and the other is not
    have hother : ¬ Aligned ((execs (stpcpyAlign.take 1) (stpcpyPast m)).get .a0) := by
      rw [execs_get (by decide), ha0]
      exact fun hother => hco (coAligned_succ_iff.mp (coAligned_of_aligned hother halign))
    obtain ⟨w, hw⟩ := stpcpyVec_misaligned addr
      (m := execs (stpcpyAlign.take 1) (stpcpyPast m)) (by rwa [execs_get (by decide), hsp']) hother
    have hreach := reaches_stpcpyPast addr (m := m.setV .q1 w) hne
    rw [Machine.get_setV, if_pos halign] at hreach
    exact ⟨w, .of_reaches hreach hw⟩
  | succ n ih =>
    obtain ⟨ha0, ha1, hsp', hmem⟩ := stpcpyPast_get m
    have hne : m.mem (m.get .a1) ≠ 0 :=
      ne_zero_of_not_endsAt hends fun heq => hco (by rw [heq]; rfl)
    have hlow : (off (m.get .a1) 1).toNat % 16 = (m.get .a1).toNat % 16 + 1 := by
      rw [off_toNat]
      omega
    have hunaligned : ¬ Aligned (off (m.get .a1) 1) := fun halign =>
      absurd (hlow.symm.trans halign) (by omega)
    -- another byte is copied, and the distance of the pointers stays
    have hmiss : ∃ w, Misaligned (memopsAt addr) ⟨.run (memopsCode .LstpcByte),
        (execs (stpcpyAlign.take 1) (stpcpyPast m)).setV .q1 w⟩ := by
      refine ih ?_ ?_ ?_ ?_
      · rw [execs_get (by decide), ha1]
        omega
      · rwa [execs_get (by decide), hsp']
      · rw [execs_get (by decide), execs_get (by decide), ha0, ha1]
        exact coAligned_succ_iff.not.mpr hco
      · rw [execs_get (by decide), execs_get (by decide), execs_mem (by decide), ha0, ha1, hmem]
        exact not_endsAt_succ hends (by omega) hne
    obtain ⟨w, hw⟩ := hmiss
    have hreach := reaches_stpcpyPast addr (m := m.setV .q1 w) hne
    rw [Machine.get_setV, if_neg hunaligned] at hreach
    exact ⟨w, .of_reaches hreach hw⟩

/-- Without its condition `stpcpy` makes a misaligned access. -/
private theorem stpcpy_misaligned {m : Machine} (hsp : Aligned (m.get .sp))
    (hco : ¬ CoAligned (m.get .a0) (m.get .a1))
    (hends : ¬ ∃ k, EndsAt m.mem (m.get .a0) (m.get .a1) k) :
    ∃ w, Misaligned (memopsAt addr) ⟨.run (memopsCode .s31XespvStpcpy), m.setV .q1 w⟩ := by
  have hskew : ∀ w, (execs (stpcpyEntry.take 2) (m.setV .q1 w)).get .t0 ≠ 0 := fun w hzero =>
    hco ((xor_and_15_eq_zero_iff _ _).mp hzero)
  have hreach : ∀ w, Reaches (memopsAt addr) ⟨.run (memopsCode .s31XespvStpcpy), m.setV .q1 w⟩
      ⟨.run (memopsCode .LstpcByte), (execs (stpcpyEntry.take 2) m).setV .q1 w⟩ := by
    intro w
    refine (Reaches.line (stpcpyEntry.take 2) (by decide) _).trans (.bnez ?_)
    rw [if_pos (hskew w)]
    exact .refl _
  -- the byte loop comes to the next boundary of the source before the terminator
  have hmiss : ∃ w, Misaligned (memopsAt addr) ⟨.run (memopsCode .LstpcByte),
      (execs (stpcpyEntry.take 2) m).setV .q1 w⟩ := by
    refine stpcpyByte_misaligned addr (n := 15 - (m.get .a1).toNat % 16) ?_ ?_ ?_ ?_
    · rw [execs_get (by decide)]
      omega
    · rwa [execs_get (by decide)]
    · rwa [execs_get (by decide), execs_get (by decide)]
    · rwa [execs_get (by decide), execs_get (by decide), execs_mem (by decide)]
  obtain ⟨w, hw⟩ := hmiss
  exact ⟨w, .of_reaches (hreach w) hw⟩

/-! ### `s31_xespv_strcpy` -/

/-- Bytes that are 1 stay so, and those of the word become so. -/
private theorem storeWord_ones (mem : Mem) (a x : Addr) (h : mem x = 1 ∨ ∃ k < 4, x = off a k) :
    storeWord mem a 0x01010101#32 x = 1 := by
  simp only [storeWord]
  obtain hone | ⟨k, hk, rfl⟩ := h
  · repeat' split
    all_goals first | exact hone | rfl
  · obtain rfl | rfl | rfl | rfl : k = 0 ∨ k = 1 ∨ k = 2 ∨ k = 3 := by omega
    all_goals (repeat' split) <;> first | rfl | contradiction

/-- With `ra` and `s0` of nonzero bytes no terminator is left among the saved ones. -/
private theorem strcpyCallee_saved {m : Machine} (hra : m.get .ra = 0x01010101)
    (hs0 : m.get .s0 = 0x01010101) {x : Addr} (hx : InFrame (m.get .sp + (-8)) 8 x)
    (returnAddr : Addr) : (strcpyCallee returnAddr m).mem x = 1 := by
  have h12 : off (m.get .sp + (-16)) 12 = off (m.get .sp + (-8)) 4 := off_saved _ 4
  have h8 : off (m.get .sp + (-16)) 8 = m.get .sp + (-8) := (off_saved _ 0).trans (off_zero _)
  have hxk : x = off (m.get .sp + (-8)) (x - (m.get .sp + (-8))).toNat := (off_sub_toNat _ _).symm
  have hk : (x - (m.get .sp + (-8))).toNat < 8 := hx
  rw [strcpyCallee_mem, hra, hs0, h12, h8]
  refine storeWord_ones _ _ _ ?_
  obtain hlt | hge := Nat.lt_or_ge (x - (m.get .sp + (-8))).toNat 4
  · exact .inr ⟨_, hlt, hxk⟩
  · refine .inl (storeWord_ones _ _ _ (.inr ⟨(x - (m.get .sp + (-8))).toNat - 4, by omega, ?_⟩))
    rwa [off_off, show 4 + ((x - (m.get .sp + (-8))).toNat - 4) = (x - (m.get .sp + (-8))).toNat by
      omega]

/-- Without its condition `strcpy` makes a misaligned access. -/
private theorem strcpy_misaligned {m : Machine} (hsp : Aligned (m.get .sp))
    (hra : m.get .ra = 0x01010101) (hs0 : m.get .s0 = 0x01010101)
    (hco : ¬ CoAligned (m.get .a0) (m.get .a1))
    (hends : ¬ ∃ k, EndsAt m.mem (m.get .a0) (m.get .a1) k ∧
      ¬ InFrame (m.get .sp + (-8)) 8 (off (m.get .a1) k)) :
    ∃ w, Misaligned (memopsAt addr) ⟨.run (memopsCode .s31XespvStrcpy), m.setV .q1 w⟩ := by
  obtain ⟨ha0, ha1, -, hsp', -⟩ := strcpyCallee_get (addr .strcpyReturn) m
  -- it calls `s31_xespv_stpcpy` at once
  have hreach : ∀ w, Reaches (memopsAt addr) ⟨.run (memopsCode .s31XespvStrcpy), m.setV .q1 w⟩
      ⟨.run (memopsCode .s31XespvStpcpy), (strcpyCallee (addr .strcpyReturn) m).setV .q1 w⟩ :=
    fun w => (Reaches.line (strcpyEntry.take 4) (by decide) _).trans (.single rfl)
  have hmiss : ∃ w, Misaligned (memopsAt addr) ⟨.run (memopsCode .s31XespvStpcpy),
      (strcpyCallee (addr .strcpyReturn) m).setV .q1 w⟩ := by
    refine stpcpy_misaligned addr ?_ ?_ ?_
    · rw [hsp']
      exact aligned_add hsp (by decide)
    · rwa [ha0, ha1]
    · rw [ha0, ha1]
      rintro ⟨k, hk, hlt, hzero⟩
      -- a terminator in the saved words is gone, since the two registers hold no zero byte
      by_cases hsaved : InFrame (m.get .sp + (-8)) 8 (off (m.get .a1) k)
      · rw [strcpyCallee_saved hra hs0 hsaved] at hzero
        exact absurd hzero (by decide)
      · rw [strcpyCallee_saves _ m _ hsaved] at hzero
        exact hends ⟨k, ⟨hk, hlt, hzero⟩, hsaved⟩
  obtain ⟨w, hw⟩ := hmiss
  exact ⟨w, .of_reaches (hreach w) hw⟩

end

/-! ## Calls of the library -/

/-- A call of a public operation: its arguments, the stack pointer and the memory. -/
structure SimdCall where
  op : Operation
  a0 : BitVec 32
  a1 : BitVec 32
  a2 : BitVec 32
  a3 : BitVec 32
  sp : Addr
  mem : Mem
  sp_aligned : Aligned sp

namespace SimdCall

/-- The machine at the entry of the routine.  The other registers are not determined
    by the call. -/
structure Starts (c : SimdCall) (m : Machine) : Prop where
  a0 : m.get .a0 = c.a0
  a1 : m.get .a1 = c.a1
  a2 : m.get .a2 = c.a2
  a3 : m.get .a3 = c.a3
  sp : m.get .sp = c.sp
  mem : m.mem = c.mem

/-- Every vector access that the routine executes is aligned. -/
def VectorAligned (addr : Label → Addr) (c : SimdCall) : Prop :=
  ∀ m, c.Starts m → ∀ cfg,
    Reaches (memopsAt addr) ⟨.run (memopsCode c.op.routine), m⟩ cfg → cfg.AccessAligned

/-- The arguments with which every vector access is aligned. -/
def Fits (c : SimdCall) : Prop :=
  match c.op with
  | .eqU8x16 => Aligned c.a0 ∧ Aligned c.a1 ∧ Aligned c.a2
  | .strcmp => CoAligned c.a0 c.a1 ∨ StopsEarly c.mem c.a0 c.a1
  | .stpcpy => CoAligned c.a0 c.a1 ∨ ∃ k, EndsAt c.mem c.a0 c.a1 k
  | .strcpy => CoAligned c.a0 c.a1 ∨
      ∃ k, EndsAt c.mem c.a0 c.a1 k ∧ ¬ InFrame (c.sp + (-8)) 8 (off c.a1 k)
  | _ => True

/-- A call that fits meets the condition of its routine. -/
theorem Fits.alignCond {c : SimdCall} (h : c.Fits) {m : Machine} (hm : c.Starts m) :
    alignCond c.op.routine m := by
  obtain ⟨op, a0, a1, a2, a3, sp, mem, hsp⟩ := c
  obtain ⟨rfl, rfl, rfl, rfl, rfl, rfl⟩ := hm
  cases op
  case eqU8x16 =>
    obtain ⟨ha0, ha1, ha2⟩ := h
    exact List.forall_mem_cons.mpr ⟨hsp, List.forall_mem_cons.mpr ⟨ha0, List.forall_mem_cons.mpr
      ⟨ha1, List.forall_mem_singleton.mpr ha2⟩⟩⟩
  case strcmp | stpcpy | strcpy => exact ⟨hsp, h⟩
  all_goals exact List.forall_mem_singleton.mpr hsp

/-- A machine that starts the call. -/
def machine (c : SimdCall) : Machine where
  regs
    | .a0 => c.a0
    | .a1 => c.a1
    | .a2 => c.a2
    | .a3 => c.a3
    | .sp => c.sp
    | .ra | .s0 => 0x01010101
    | _ => 0
  vregs := fun _ _ => 0
  mem := c.mem

/-- The machine of a call, whatever is in the vector register. -/
private theorem starts_machine (c : SimdCall) (w : Lanes) : c.Starts (c.machine.setV .q1 w) :=
  ⟨rfl, rfl, rfl, rfl, rfl, rfl⟩

/-- A call that does not fit makes a misaligned access. -/
private theorem misaligned_of_not_fits (addr : Label → Addr) {c : SimdCall} (h : ¬ c.Fits) :
    ∃ w, Misaligned (memopsAt addr)
      ⟨.run (memopsCode c.op.routine), c.machine.setV .q1 w⟩ := by
  obtain ⟨op, a0, a1, a2, a3, sp, mem, hsp⟩ := c
  cases op
  case eqU8x16 => exact ⟨fun _ => 0, eq16_misaligned addr h⟩
  case strcmp =>
    obtain ⟨hco, hstop⟩ := not_or.mp h
    exact ⟨fun _ => 0, strcmp_misaligned addr hco hstop⟩
  case stpcpy =>
    obtain ⟨hco, hends⟩ := not_or.mp h
    exact stpcpy_misaligned addr hsp hco hends
  case strcpy =>
    obtain ⟨hco, hends⟩ := not_or.mp h
    exact strcpy_misaligned addr hsp rfl rfl hco hends
  -- the other operations always fit
  all_goals exact (h trivial).elim

/-- The calls all of whose vector accesses are aligned. -/
theorem vectorAligned_iff (addr : Label → Addr) (c : SimdCall) :
    c.VectorAligned addr ↔ c.Fits := by
  constructor
  · intro h
    by_contra hfits
    obtain ⟨w, cfg, hreach, haccess⟩ := misaligned_of_not_fits addr hfits
    exact haccess (h _ (c.starts_machine w) cfg hreach)
  · intro h m hm cfg hreach
    exact (memops_safe addr _ m (h.alignCond hm)).config.accesses (memops_safe addr) hreach

/-- Twenty letters at two addresses that are not co-aligned. -/
def skewedStrcmp : SimdCall where
  op := .strcmp
  a0 := 0x40001000
  a1 := 0x40002001
  a2 := 0
  a3 := 0
  sp := 0x4000f000
  mem := fun x =>
    if 0x40001000 ≤ x ∧ x < 0x40001014 ∨ 0x40002001 ≤ x ∧ x < 0x40002015 then 0x61 else 0
  sp_aligned := by decide

/-- Equal strings of which the second is loaded from an address that is not aligned. -/
theorem skewedStrcmp_misaligned :
    CString skewedStrcmp.mem skewedStrcmp.a0 (List.replicate 20 0x61) ∧
      CString skewedStrcmp.mem skewedStrcmp.a1 (List.replicate 20 0x61) ∧
      ¬ skewedStrcmp.VectorAligned fun _ => 0x40080000 := by
  refine ⟨by decide +kernel, by decide +kernel, fun h => ?_⟩
  have hletters : ∀ k < 16, skewedStrcmp.mem (off skewedStrcmp.a0 k) = 0x61 ∧
      skewedStrcmp.mem (off skewedStrcmp.a1 k) = 0x61 := by decide +kernel
  have hstop : ¬ StopsEarly skewedStrcmp.mem skewedStrcmp.a0 skewedStrcmp.a1 := by
    rintro ⟨k, hk, hstop⟩
    obtain ⟨ha0, ha1⟩ := hletters k (by omega)
    rw [ha0, ha1] at hstop
    exact hstop.elim (· rfl) (by decide)
  obtain ⟨cfg, hreach, haccess⟩ := strcmp_misaligned (fun _ => 0x40080000)
    (m := skewedStrcmp.machine) (by decide) hstop
  exact haccess (h _ ⟨rfl, rfl, rfl, rfl, rfl, rfl⟩ cfg hreach)

end SimdCall

end EspS31.Xespv
