import EspS31.Spec.XespvBlocks

/-!
# Correctness of `s31_xespv_stpcpy` and `s31_xespv_strcpy`

The copy goes byte by byte up to an aligned address of the source and then block
by block, storing a whole vector where the block holds no terminator.  As in
`s31_xespv_strcmp` the block loop is entered by the alignment of one pointer alone.
When the destination is aligned otherwise, the vector is stored at the boundary
below the destination pointer, and the terminator is looked for with whatever the
vector register `q1` held on entry.

## Key results

- `stpcpyTest_spec`: the block test finds its lanes in the source block
- `reaches_head`: the positions a run gets to
- `copy_correct`: both routines copy the string unless a vector is stored at an
  unaligned destination
-/

namespace EspS31.Xespv.Stpcpy

open ByteMem

/-! ## Copied bytes -/

/-- The memory once the first `k` bytes from `s` on have been copied to `d`. -/
def copied (mem : Mem) (d s : Addr) : Nat → Mem
  | 0 => mem
  | k + 1 => Function.update (copied mem d s k) (off d k) (mem (off s k))

section

variable {mem : Mem} {d s x : Addr} {k i : Nat}

/-- Away from the destination a copy leaves the memory. -/
private theorem copied_of_ne (h : ∀ i < k, x ≠ off d i) : copied mem d s k x = mem x := by
  induction k with
  | zero => rfl
  | succ k ih =>
    rw [copied, Function.update_of_ne (h k (by omega))]
    exact ih fun i hi => h i (by omega)

/-- The bytes of a copy are those of the source. -/
private theorem copied_off (hi : i < k) (hk : k ≤ 2 ^ 32) :
    copied mem d s k (off d i) = mem (off s i) := by
  induction k with
  | zero => omega
  | succ k ih =>
    by_cases heq : i = k
    · rw [heq, copied, Function.update_self]
    · have hne : off d i ≠ off d k := fun h => heq (off_inj (by omega) (by omega) h)
      rw [copied, Function.update_of_ne hne]
      exact ih (by omega) (by omega)

/-- Sixteen bytes copied by one block store. -/
private theorem storeBlock_copied (hd : (d.toNat + k) % 16 = 0) (hk : k + 16 ≤ 2 ^ 32) :
    storeBlock (copied mem d s k) (off d k) (fun i => mem (off s (k + i))) =
      copied mem d s (k + 16) := by
  have haligned : (off d k).toNat % 16 = 0 := by
    rw [off_toNat]
    omega
  funext x
  by_cases hblock : x.toNat / 16 = (off d k).toNat / 16
  · -- An address of the block is one of the sixteen.
    have hx : x = off d (k + (lane x : Nat)) := by
      apply BitVec.eq_of_toNat_eq
      rw [off_toNat] at haligned hblock ⊢
      simp only [lane]
      omega
    rw [storeBlock, if_pos ((align16_eq_iff _ _).mpr hblock)]
    conv_rhs => rw [hx]
    rw [copied_off (by have := (lane x).isLt; omega) hk]
  -- another address is none of the sixteen, and keeps what it had
  · rw [storeBlock_other _ _ hblock]
    have hne : ∀ i, k ≤ i → i < k + 16 → x ≠ off d i := by
      rintro i hki hi rfl
      apply hblock
      rw [off_toNat] at haligned ⊢
      rw [off_toNat]
      omega
    by_cases hin : ∃ i < k, x = off d i
    · obtain ⟨i, hi, rfl⟩ := hin
      rw [copied_off hi (by omega), copied_off (by omega) hk]
    · have hlow : ∀ i < k, x ≠ off d i := fun i hi heq => hin ⟨i, hi, heq⟩
      rw [copied_of_ne hlow, copied_of_ne]
      intro i hi
      obtain hlt | hge := Nat.lt_or_ge i k
      · exact hlow i hlt
      · exact hne i hge hi

end

/-! ## The blocks of the routine -/

/-- A call: a string of length `L` at `a1`, and at `a0` as much room that neither
    overlaps it nor, like the string, the routine's stack frame. -/
structure Args (m₀ : Machine) (L : Nat) : Prop where
  nonzero : ∀ i < L, m₀.mem (off (m₀.get .a1) i) ≠ 0
  terminator : m₀.mem (off (m₀.get .a1) L) = 0
  length_lt : L < 2 ^ 32
  disjoint : ∀ i ≤ L, ∀ j ≤ L, off (m₀.get .a0) i ≠ off (m₀.get .a1) j
  frame : ∀ i ≤ L, ¬ InFrame (m₀.get .sp + (-32)) 32 (off (m₀.get .a0) i) ∧
    ¬ InFrame (m₀.get .sp + (-32)) 32 (off (m₀.get .a1) i)
  sp_aligned : (m₀.get .sp).toNat % 16 = 0

/-- The machine at position `k` of a run that began in `m₀`. -/
structure At (m₀ : Machine) (k : Nat) (m : Machine) : Prop where
  a0 : m.get .a0 = off (m₀.get .a0) k
  a1 : m.get .a1 = off (m₀.get .a1) k
  sp : m.get .sp = m₀.get .sp
  ra : m.get .ra = m₀.get .ra
  s0 : m.get .s0 = m₀.get .s0
  q1 : m.vregs .q1 = terminators (m₀.vregs .q1) (m₀.get .a1) (m₀.get .a0)
  mem : AgreeOff (m₀.get .sp + (-32)) 32 (copied m₀.mem (m₀.get .a0) (m₀.get .a1) k) m.mem

/-- The block test at position `k` finds no lane of the terminator vector. -/
def NoMatch (m₀ : Machine) (z : Lanes) (k : Nat) : Prop :=
  ∀ i, loadBlock (copied m₀.mem (m₀.get .a0) (m₀.get .a1) k) (off (m₀.get .a1) k) i ≠ z i

instance (m₀ : Machine) (z : Lanes) (k : Nat) : Decidable (NoMatch m₀ z k) :=
  inferInstanceAs (Decidable (∀ _, _))

variable {m₀ m : Machine} {L k : Nat}

/-- The copied bytes are not among the source's. -/
theorem Args.copied_source (h : Args m₀ L) {j : Nat} (hk : k ≤ L + 1) (hj : j ≤ L) :
    copied m₀.mem (m₀.get .a0) (m₀.get .a1) k (off (m₀.get .a1) j) =
      m₀.mem (off (m₀.get .a1) j) :=
  copied_of_ne fun i hi heq => h.disjoint i (by omega) j hj heq.symm

/-- The machine differs in registers that the loop invariant does not name. -/
theorem At.congr {m' : Machine} (h : At m₀ k m)
    (hreg : ∀ r, r = .a0 ∨ r = .a1 ∨ r = .sp ∨ r = .ra ∨ r = .s0 → m'.get r = m.get r)
    (hq1 : m'.vregs .q1 = m.vregs .q1) (hmem : m'.mem = m.mem) : At m₀ k m' where
  a0 := (hreg _ (.inl rfl)).trans h.a0
  a1 := (hreg _ (.inr (.inl rfl))).trans h.a1
  sp := (hreg _ (.inr (.inr (.inl rfl)))).trans h.sp
  ra := (hreg _ (.inr (.inr (.inr (.inl rfl))))).trans h.ra
  s0 := (hreg _ (.inr (.inr (.inr (.inr rfl))))).trans h.s0
  q1 := hq1.trans h.q1
  mem := hmem ▸ h.mem

/-- Both pointers move on by `n`, once that many bytes are copied. -/
theorem At.advance {n : Nat} (h : At m₀ k m) {mem : Mem}
    (hmem : AgreeOff (m₀.get .sp + (-32)) 32
      (copied m₀.mem (m₀.get .a0) (m₀.get .a1) (k + n)) mem) :
    At m₀ (k + n) (execs (L := Label) (advance (BitVec.ofNat 32 n)) (m.setMem mem)) where
  a0 := by rw [(execs_advance n _).1, Machine.get_setMem, h.a0, off_off]
  a1 := by rw [(execs_advance n _).2, Machine.get_setMem, h.a1, off_off]
  sp := (execs_get (by simp [Xespv.advance, Instr.dest]) _).trans h.sp
  ra := (execs_get (by simp [Xespv.advance, Instr.dest]) _).trans h.ra
  s0 := (execs_get (by simp [Xespv.advance, Instr.dest]) _).trans h.s0
  q1 := (execs_vregs (by simp [Xespv.advance, Instr.vdest]) _).trans h.q1
  mem := by
    rw [execs_mem (by simp [Xespv.advance, Instr.isStore])]
    exact hmem

/-! ### Single bytes -/

/-- The byte that `.Lstpc_byte` copies. -/
theorem execs_byte (hargs : Args m₀ L) (h : At m₀ k m) (hk : k ≤ L) :
    ∃ m₁ mem, execs (stpcpyByte.take 2) m = m₁.setMem mem ∧ At m₀ k m₁ ∧
      m₁.get .t0 = (m₀.mem (off (m₀.get .a1) k)).setWidth 32 ∧
      AgreeOff (m₀.get .sp + (-32)) 32 (copied m₀.mem (m₀.get .a0) (m₀.get .a1) (k + 1)) mem := by
  -- neither the stack nor a copied byte has reached the source at `k`
  have hbyte : m.mem (off (m₀.get .a1) k) = m₀.mem (off (m₀.get .a1) k) :=
    (h.mem _ (hargs.frame k hk).2).trans (hargs.copied_source (by omega) hk)
  refine ⟨m.set .t0 ((m₀.mem (off (m₀.get .a1) k)).setWidth 32),
    Function.update m.mem (off (m₀.get .a0) k) (m₀.mem (off (m₀.get .a1) k)), ?_, ?_, ?_, ?_⟩
  · simp only [stpcpyByte, List.take, execs, List.foldl, Instr.exec, Machine.get_set,
      Machine.mem_set, reduceCtorEq, if_false, if_true, off_zero, h.a0, h.a1, hbyte]
    rw [BitVec.setWidth_setWidth_of_le _ (by omega), BitVec.setWidth_eq]
  · refine h.congr ?_ rfl rfl
    rintro r (rfl | rfl | rfl | rfl | rfl) <;> exact Machine.get_set_of_ne _ _ (by decide)
  · rw [Machine.get_set, if_neg (by decide), if_pos rfl]
  · intro x hx
    rw [copied]
    by_cases heq : x = off (m₀.get .a0) k
    · rw [heq, Function.update_self, Function.update_self]
    · rw [Function.update_of_ne heq, Function.update_of_ne heq, h.mem x hx]

/-- Before the terminator the byte loop moves on. -/
theorem byte_next (returnAddr : Addr) (hargs : Args m₀ L) (h : At m₀ k m) (hk : k < L) :
    ∃ m', Reaches (memops returnAddr) ⟨.run (memopsCode .LstpcByte), m⟩
      ⟨.run (memopsCode .LstpcAlign), m'⟩ ∧ At m₀ (k + 1) m' := by
  obtain ⟨m₁, mem, hexec, hat, ht0, hmem⟩ := execs_byte hargs h hk.le
  refine ⟨_, (Reaches.line (stpcpyByte.take 2) (by decide) m).trans (.beqz ?_), hat.advance hmem⟩
  have hne : ¬ (m₁.setMem mem).get .t0 = 0 := by
    rw [Machine.get_setMem, ht0]
    exact fun hzero => hargs.nonzero k hk ((setWidth_eq_iff _ 0).mp hzero)
  rw [hexec, if_neg hne]
  exact (Reaches.line (advance 1) (by decide) _).trans (.j (.refl _))

/-- What `s31_xespv_stpcpy` leaves behind. -/
structure Done (m₀ : Machine) (L : Nat) (m : Machine) : Prop where
  a0 : m.get .a0 = off (m₀.get .a0) L
  sp : m.get .sp = m₀.get .sp
  s0 : m.get .s0 = m₀.get .s0
  mem : AgreeOff (m₀.get .sp + (-32)) 32 (copied m₀.mem (m₀.get .a0) (m₀.get .a1) (L + 1)) m.mem

/-- At the terminator the byte loop returns. -/
private theorem byte_done (returnAddr : Addr) (hargs : Args m₀ L) (h : At m₀ L m) :
    ∃ m', Reaches (memops returnAddr) ⟨.run (memopsCode .LstpcByte), m⟩
      ⟨(memops returnAddr).goto (m₀.get .ra), m'⟩ ∧ Done m₀ L m' := by
  obtain ⟨m₁, mem, hexec, hat, ht0, hmem⟩ := execs_byte hargs h le_rfl
  refine ⟨m₁.setMem mem, (Reaches.line (stpcpyByte.take 2) (by decide) m).trans (.beqz ?_),
    ⟨hat.a0, hat.sp, hat.s0, hmem⟩⟩
  have hzero : (m₁.setMem mem).get .t0 = 0 := by
    rw [Machine.get_setMem, ht0, hargs.terminator]
    rfl
  rw [hexec, if_pos hzero, ← hat.ra]
  exact .single rfl

/-- The alignment test chooses between the two loops. -/
theorem align_next (returnAddr : Addr) (h : At m₀ k m) :
    ∃ m', Reaches (memops returnAddr) ⟨.run (memopsCode .LstpcAlign), m⟩
      ⟨.run (memopsCode (if ((m₀.get .a1).toNat + k) % 16 = 0 then .LstpcVec else .LstpcByte)),
        m'⟩ ∧ At m₀ k m' := by
  have hzero : (execs (stpcpyAlign.take 1) m).get .t0 = 0 ↔ ((m₀.get .a1).toNat + k) % 16 = 0 := by
    simp only [stpcpyAlign, List.take, execs, List.foldl, Instr.exec, Machine.get_set,
      reduceCtorEq, if_false, if_true, h.a1]
    refine (and_15_eq_zero_iff _).trans ?_
    rw [off_toNat]
    omega
  refine ⟨execs (stpcpyAlign.take 1) m,
    (Reaches.line (stpcpyAlign.take 1) (by decide) m).trans (.beqz ?_),
    h.congr ?_ (execs_vregs (by decide) m) (execs_mem (by decide) m)⟩
  · simp only [hzero]
    split <;> exact .refl _
  · rintro r (rfl | rfl | rfl | rfl | rfl) <;> exact execs_get (by decide) m

/-! ### The block test -/

/-- The frame is opened and the saved registers are stored. -/
def stpcpySave : Code := stpcpyVec.take 3

/-- The block is loaded and compared with the terminators. -/
def stpcpyLanes : Code := (stpcpyVec.drop 3).take 4

/-- The comparison is stored. -/
def stpcpyStoreLanes : Code := (stpcpyVec.drop 7).take 3

/-- The registers are restored and the frame is closed. -/
def stpcpyRestore : Code := (stpcpyVec.drop 17).take 5

/-- The block test up to its store. -/
def stpcpyHead : Code := stpcpyVec.take 10

/-- The block test from its loads up to its branch. -/
def stpcpyTail : Code := (stpcpyVec.drop 10).take 12

/-- The two registers are saved in the frame. -/
private theorem execs_stpcpySave (m : Machine) :
    (execs stpcpySave m).mem =
        storeWord (storeWord m.mem (off (m.get .sp + (-32)) 16) (m.get .s0))
          (off (m.get .sp + (-32)) 20) (m.get .s1) ∧
      (execs stpcpySave m).get .sp = m.get .sp + (-32) := by
  constructor <;>
    simp only [stpcpySave, stpcpyVec, List.take, execs, List.foldl, Instr.exec, Machine.get_set,
      Machine.get_setMem, Machine.mem_set, Machine.mem_setMem, reduceCtorEq, if_false, if_true]

/-- The block of the source, and where it has a zero. -/
private theorem execs_stpcpyLanes_vregs (m : Machine) :
    (execs stpcpyLanes m).vregs .q0 = loadBlock m.mem (m.get .a1) ∧
      (execs stpcpyLanes m).vregs .q2 =
        lanesEq (loadBlock m.mem (m.get .a1)) (m.vregs .q1) := by
  constructor <;>
    simp only [stpcpyLanes, stpcpyVec, List.take, List.drop, execs, List.foldl, Instr.exec,
      Machine.get_set, Machine.mem_set, Machine.vregs_set, Machine.vregs_setV, reduceCtorEq,
      if_false, if_true]

/-- The two pointers are kept. -/
private theorem execs_stpcpyLanes_get (m : Machine) :
    (execs stpcpyLanes m).get .s0 = m.get .a0 ∧ (execs stpcpyLanes m).get .s1 = m.get .a1 := by
  constructor <;>
    simp only [stpcpyLanes, stpcpyVec, List.take, List.drop, execs, List.foldl, Instr.exec,
      Machine.get_set, Machine.get_setV, reduceCtorEq, if_false, if_true]

/-- The mask is stored in the frame. -/
private theorem execs_stpcpyStoreLanes (m : Machine) :
    (execs stpcpyStoreLanes m).mem = storeBlock m.mem (m.get .sp) (m.vregs .q2) := by
  simp only [stpcpyStoreLanes, stpcpyVec, List.take, List.drop, execs, List.foldl, Instr.exec,
    Machine.get_set, Machine.mem_set, Machine.mem_setMem, Machine.vregs_set, reduceCtorEq,
    if_false, if_true]

/-- The pointers and the registers come back. -/
private theorem execs_stpcpyRestore (m : Machine) :
    (execs stpcpyRestore m).get .a0 = m.get .s0 ∧ (execs stpcpyRestore m).get .a1 = m.get .s1 ∧
      (execs stpcpyRestore m).get .sp = m.get .sp + 32 ∧
      (execs stpcpyRestore m).get .s0 = loadWord m.mem (off (m.get .sp) 16) := by
  refine ⟨?_, ?_, ?_, ?_⟩ <;>
    simp only [stpcpyRestore, stpcpyVec, List.drop, List.take, execs, List.foldl, Instr.exec,
      Machine.get_set, Machine.mem_set, reduceCtorEq, if_false, if_true]

/-- The first half of the test, by its parts. -/
private theorem execs_stpcpyHead (m : Machine) :
    execs stpcpyHead m = execs stpcpyStoreLanes (execs stpcpyLanes (execs stpcpySave m)) := by
  rw [← execs_append, ← execs_append]
  rfl

/-- The second half of the test, by its parts. -/
private theorem execs_stpcpyTail (m : Machine) :
    execs stpcpyTail m = execs stpcpyRestore (execs (L := Label) orLoads m) := by
  rw [← execs_append]
  rfl

/-- The registers after the first half. -/
theorem execs_stpcpyHead_get (m : Machine) :
    (execs stpcpyHead m).get .s0 = m.get .a0 ∧ (execs stpcpyHead m).get .s1 = m.get .a1 ∧
      (execs stpcpyHead m).get .sp = m.get .sp + (-32) := by
  obtain ⟨hs0, hs1⟩ := execs_stpcpyLanes_get (execs stpcpySave m)
  rw [execs_stpcpyHead]
  refine ⟨?_, ?_, ?_⟩
  · rw [execs_get (by decide), hs0, execs_get (by decide)]
  · rw [execs_get (by decide), hs1, execs_get (by decide)]
  · rw [execs_get (by decide), execs_get (by decide), (execs_stpcpySave m).2]

/-- The registers after the second half. -/
theorem execs_stpcpyTail_get (m : Machine) :
    (execs stpcpyTail m).get .a0 = m.get .s0 ∧ (execs stpcpyTail m).get .a1 = m.get .s1 ∧
      (execs stpcpyTail m).get .sp = m.get .sp + 32 ∧
      (execs stpcpyTail m).get .s0 = loadWord m.mem (off (m.get .sp) 16) ∧
      (execs stpcpyTail m).get .t0 = orWords m.mem (m.get .sp) := by
  obtain ⟨ha0, ha1, hsp, hs0⟩ := execs_stpcpyRestore (execs (L := Label) orLoads m)
  rw [execs_stpcpyTail]
  refine ⟨?_, ?_, ?_, ?_, ?_⟩
  · rw [ha0, execs_get (by decide)]
  · rw [ha1, execs_get (by decide)]
  · rw [hsp, execs_get (by decide)]
  · rw [hs0, execs_get (by decide), execs_mem (by decide)]
  · rw [execs_get (by decide), execs_orLoads]

/-- The memory at the branch of the block test: the comparison stands at the bottom of
    the frame. -/
theorem execs_stpcpyHead_mem (m : Machine) :
    (execs stpcpyHead m).mem =
      storeBlock (execs stpcpySave m).mem (m.get .sp + (-32))
        (lanesEq (loadBlock (execs stpcpySave m).mem (m.get .a1)) (m.vregs .q1)) := by
  rw [execs_stpcpyHead, execs_stpcpyStoreLanes, (execs_stpcpyLanes_vregs _).2,
    execs_mem (by decide), execs_get (by decide), (execs_stpcpySave m).2, execs_get (by decide),
    execs_vregs (by decide)]

/-- A saved word outlives the stores that follow in the frame. -/
private theorem loadWord_saved (mem : Mem) {f : Addr} (hf : f.toNat % 16 = 0) (v w : BitVec 32)
    (lanes : Lanes) :
    loadWord (storeBlock (storeWord (storeWord mem (off f 16) v) (off f 20) w) f lanes)
      (off f 16) = v := by
  rw [← loadWord_storeWord_self mem (off f 16) v]
  apply loadWord_congr
  intro j hj
  -- the saved words lie in the block behind the vector's
  have hblock : (off (off f 16) j).toNat / 16 ≠ f.toNat / 16 := by
    have := f.isLt
    rw [off_off, off_toNat]
    omega
  rw [storeBlock_other _ _ hblock, storeWord_of_off]
  · rw [loadWord_storeWord_self]
  · intro i hi heq
    rw [off_off, off_off] at heq
    have := off_inj (by omega) (by omega) heq
    omega

/-- The frame after the store: memory outside it is as before, and it holds the
    comparison and the caller's `s0`. -/
private theorem stpcpyHead_frame (hargs : Args m₀ L) (h : At m₀ k m) (hk : k ≤ L) :
    let f := m₀.get .sp + (-32)
    let mem := copied m₀.mem (m₀.get .a0) (m₀.get .a1) k
    let v := loadBlock mem (off (m₀.get .a1) k)
    let z := terminators (m₀.vregs .q1) (m₀.get .a1) (m₀.get .a0)
    AgreeOff f 32 mem (execs stpcpyHead m).mem ∧ (execs stpcpyHead m).vregs .q0 = v ∧
      (∀ i (hi : i < 16), (execs stpcpyHead m).mem (off f i) = lanesEq v z ⟨i, hi⟩) ∧
      loadWord (execs stpcpyHead m).mem (off f 16) = m₀.get .s0 := by
  intro f mem v z
  have hf : f.toNat % 16 = 0 := add_aligned hargs.sp_aligned (by decide)
  have hsmem := (execs_stpcpySave m).1
  rw [h.sp, h.s0] at hsmem
  -- the two words are saved in the frame, and then the lanes are stored below them
  have hsave : AgreeOff f 32 mem (execs stpcpySave m).mem := by
    rw [hsmem]
    refine h.mem.trans ((AgreeOff.storeWord m.mem ?_).trans (AgreeOff.storeWord _ ?_))
    · intro j hj
      rw [off_off]
      exact inFrame_off (by omega) (by omega)
    · intro j hj
      rw [off_off]
      exact inFrame_off (by omega) (by omega)
  have ha1 : (execs stpcpySave m).get .a1 = off (m₀.get .a1) k :=
    (execs_get (by decide) m).trans h.a1
  have hv : loadBlock (execs stpcpySave m).mem (off (m₀.get .a1) k) = v :=
    hsave.loadBlock hf (by decide) (hargs.frame k hk).2
  have hq0 := (execs_stpcpyLanes_vregs (execs stpcpySave m)).1
  rw [ha1, hv] at hq0
  -- the sixteen lanes of the test are what is stored
  have hmem : (execs stpcpyHead m).mem =
      storeBlock (execs stpcpySave m).mem f (lanesEq v z) := by
    rw [execs_stpcpyHead_mem, h.sp, h.a1, hv, h.q1]
  rw [hmem]
  refine ⟨?_, ?_, ?_, ?_⟩
  · refine hsave.trans (AgreeOff.storeBlock _ hf (by decide) ?_)
    have hbase : InFrame f 32 (off f 0) := inFrame_off (by omega) (by omega)
    rwa [off_zero] at hbase
  · rw [execs_stpcpyHead, execs_vregs (by decide), hq0]
  · intro i hi
    exact storeBlock_same _ _ hf hi
  · rw [hsmem]
    exact loadWord_saved m.mem hf _ _ _

/-- At the branch the machine is back at position `k` with the source block in
    `q0`, and the word says whether one of its lanes is a terminator's. -/
theorem stpcpyTest_spec (hargs : Args m₀ L) (h : At m₀ k m) (hk : k ≤ L) :
    let m' := execs stpcpyTail (execs stpcpyHead m)
    At m₀ k m' ∧
      m'.vregs .q0 =
        loadBlock (copied m₀.mem (m₀.get .a0) (m₀.get .a1) k) (off (m₀.get .a1) k) ∧
      (m'.get .t0 = 0 ↔
        NoMatch m₀ (terminators (m₀.vregs .q1) (m₀.get .a1) (m₀.get .a0)) k) := by
  obtain ⟨hagree, hq0, hlanes, hsaved⟩ := stpcpyHead_frame hargs h hk
  obtain ⟨hs0, hs1, hsp⟩ := execs_stpcpyHead_get m
  obtain ⟨ha0, ha1, hsp', hs0', ht0⟩ := execs_stpcpyTail_get (execs stpcpyHead m)
  rw [hsp, h.sp] at ht0 hsp' hs0'
  refine ⟨?_, ?_, ?_⟩
  · exact {
      a0 := by rw [ha0, hs0, h.a0]
      a1 := by rw [ha1, hs1, h.a1]
      sp := by rw [hsp', BitVec.add_assoc, BitVec.add_left_neg, BitVec.add_zero]
      ra := by rw [execs_get (by decide), execs_get (by decide), h.ra]
      s0 := hs0'.trans hsaved
      q1 := by rw [execs_vregs (by decide), execs_vregs (by decide), h.q1]
      mem := by
        rw [execs_mem (by decide)]
        exact hagree }
  · rw [execs_vregs (by decide)]
    exact hq0
  -- the four words are zero exactly when no lane has matched
  · rw [ht0]
    exact orWords_lanesEq hlanes

/-- The code from the branch of the block test on. -/
def stpcpyBranch : Code := .bnez .t0 .LstpcByte :: (stpcpyStore ++ stpcpyDone)

/-- The test of a block, up to its branch. -/
private theorem reaches_stpcpyTest (returnAddr : Addr) (m : Machine) :
    Reaches (memops returnAddr) ⟨.run (memopsCode .LstpcVec), m⟩
      ⟨.run stpcpyBranch, execs stpcpyTail (execs stpcpyHead m)⟩ :=
  (Reaches.line stpcpyHead (by decide) m).trans (Reaches.line stpcpyTail (by decide) _)

/-- A block with a lane of the terminators goes to the byte loop. -/
theorem vec_byte (returnAddr : Addr) (hargs : Args m₀ L) (h : At m₀ k m) (hk : k ≤ L)
    (hmatch : ¬ NoMatch m₀ (terminators (m₀.vregs .q1) (m₀.get .a1) (m₀.get .a0)) k) :
    ∃ m', Reaches (memops returnAddr) ⟨.run (memopsCode .LstpcVec), m⟩
      ⟨.run (memopsCode .LstpcByte), m'⟩ ∧ At m₀ k m' := by
  obtain ⟨hat, -, hiff⟩ := stpcpyTest_spec hargs h hk
  refine ⟨_, (reaches_stpcpyTest returnAddr m).trans (.bnez ?_), hat⟩
  rw [if_pos fun hzero => hmatch (hiff.mp hzero)]
  exact .refl _

/-- Any other block is stored as a whole. -/
private theorem vec_store (returnAddr : Addr) (hargs : Args m₀ L) (h : At m₀ k m) (hk : k ≤ L)
    (hmatch : NoMatch m₀ (terminators (m₀.vregs .q1) (m₀.get .a1) (m₀.get .a0)) k) :
    ∃ m', Reaches (memops returnAddr) ⟨.run (memopsCode .LstpcVec), m⟩
      ⟨.run (stpcpyStore ++ stpcpyDone), m'⟩ ∧ At m₀ k m' ∧
      m'.vregs .q0 =
        loadBlock (copied m₀.mem (m₀.get .a0) (m₀.get .a1) k) (off (m₀.get .a1) k) := by
  obtain ⟨hat, hq0, hiff⟩ := stpcpyTest_spec hargs h hk
  refine ⟨_, (reaches_stpcpyTest returnAddr m).trans (.bnez ?_), hat, hq0⟩
  rw [if_neg (not_not.mpr (hiff.mpr hmatch))]
  exact .refl _

/-- A block store at a co-aligned destination copies sixteen bytes. -/
private theorem store_next (returnAddr : Addr) (hargs : Args m₀ L) (h : At m₀ k m) (hk : k ≤ L)
    (hco : CoAligned (m₀.get .a1) (m₀.get .a0)) (halign : ((m₀.get .a1).toNat + k) % 16 = 0)
    (hmatch : NoMatch m₀ (fun _ => 0) k)
    (hq0 : m.vregs .q0 =
      loadBlock (copied m₀.mem (m₀.get .a0) (m₀.get .a1) k) (off (m₀.get .a1) k)) :
    k + 16 ≤ L ∧ ∃ m', Reaches (memops returnAddr) ⟨.run (stpcpyStore ++ stpcpyDone), m⟩
      ⟨.run (memopsCode .LstpcVec), m'⟩ ∧ At m₀ (k + 16) m' := by
  -- The terminator is not in the block.
  have hfar : k + 16 ≤ L := by
    by_contra hlt
    refine hmatch ⟨L - k, by omega⟩ ?_
    rw [loadBlock_aligned _ halign]
    simp only [show k + (L - k) = L by omega]
    rw [hargs.copied_source (by omega) le_rfl, hargs.terminator]
  have hlanes : m.vregs .q0 = fun i : Fin 16 => m₀.mem (off (m₀.get .a1) (k + i)) := by
    funext i
    have := i.isLt
    rw [hq0, loadBlock_aligned _ halign, hargs.copied_source (by omega) (by omega)]
  have hd : ((m₀.get .a0).toNat + k) % 16 = 0 := by
    have : (m₀.get .a1).toNat % 16 = (m₀.get .a0).toNat % 16 := hco
    omega
  have hlen := hargs.length_lt
  -- the block is the next sixteen bytes of the copy
  have hmem : AgreeOff (m₀.get .sp + (-32)) 32
      (copied m₀.mem (m₀.get .a0) (m₀.get .a1) (k + 16))
      (storeBlock m.mem (m.get .a0) (m.vregs .q0)) := by
    rw [hlanes, h.a0, ← storeBlock_copied hd (by omega)]
    intro x hx
    simp only [storeBlock, h.mem x hx]
  have hat : At m₀ k (m.set .a0 (m.get .a0 + 0)) := by
    refine h.congr ?_ rfl rfl
    rintro r (rfl | rfl | rfl | rfl | rfl)
    · rw [Machine.get_set, if_neg (by decide), if_pos rfl]
      exact BitVec.add_zero _
    all_goals exact Machine.get_set_of_ne _ _ (by decide)
  exact ⟨hfar, _, (Reaches.line [.vst .q0 .a0 0] (by decide) m).trans
    ((Reaches.line (advance 16) (by decide) _).trans (.j (.refl _))), hat.advance hmem⟩

/-- The entry code builds the zero vector for co-aligned pointers only. -/
theorem entry_next (returnAddr : Addr) (hargs : Args m₀ L) :
    ∃ m', Reaches (memops returnAddr) ⟨.run (memopsCode .s31XespvStpcpy), m₀⟩
      ⟨.run (memopsCode
        (if CoAligned (m₀.get .a1) (m₀.get .a0) then .LstpcAlign else .LstpcByte)), m'⟩ ∧
        At m₀ 0 m' := by
  set m₁ := execs (stpcpyEntry.take 2) m₀ with hm₁
  -- the low bits of the two pointers, as the routine compares them
  have hzero : m₁.get .t0 = 0 ↔ CoAligned (m₀.get .a1) (m₀.get .a0) := by
    simp only [hm₁, stpcpyEntry, List.take, execs, List.foldl, Instr.exec, Machine.get_set,
      reduceCtorEq, if_false, if_true]
    exact (xor_and_15_eq_zero_iff _ _).trans eq_comm
  have hget : ∀ r, r = .a0 ∨ r = .a1 ∨ r = .sp ∨ r = .ra ∨ r = .s0 → m₁.get r = m₀.get r := by
    rintro r (rfl | rfl | rfl | rfl | rfl) <;> exact execs_get (by decide) m₀
  have hmem : m₁.mem = m₀.mem := execs_mem (by decide) m₀
  have hline : Reaches (memops returnAddr) ⟨.run (memopsCode .s31XespvStpcpy), m₀⟩
      ⟨.run (if m₁.get .t0 ≠ 0 then memopsCode .LstpcByte
        else patternVector .zero .q1 ++ memopsCode .LstpcAlign), m₁⟩ :=
    (Reaches.line (stpcpyEntry.take 2) (by decide) m₀).trans (.bnez (.refl _))
  by_cases hco : CoAligned (m₀.get .a1) (m₀.get .a0)
  · rw [if_neg (not_not.mpr (hzero.mpr hco))] at hline
    rw [if_pos hco]
    refine ⟨_, hline.trans (Reaches.line (patternVector .zero .q1) (by decide) m₁), ?_⟩
    -- on this path a vector of zeros is made in the stack frame
    have hsp₁ : m₁.get .sp = m₀.get .sp := hget _ (.inr (.inr (.inl rfl)))
    have hsp' : (m₁.get .sp).toNat % 16 = 0 := hsp₁ ▸ hargs.sp_aligned
    have hq1 := execs_patternVector_vregs (L := Label) .q1 (by decide) hsp' (zero_bytes m₁)
    have hmem' := execs_patternVector_mem (L := Label) .q1 (by decide) (zero_bytes m₁)
    exact {
      a0 := by rw [execs_get (by decide), hget _ (.inl rfl), off_zero]
      a1 := by rw [execs_get (by decide), hget _ (.inr (.inl rfl)), off_zero]
      sp := by rw [execs_patternVector_sp, hsp₁]
      ra := by rw [execs_get (by decide), hget _ (.inr (.inr (.inr (.inl rfl))))]
      s0 := by rw [execs_get (by decide), hget _ (.inr (.inr (.inr (.inr rfl))))]
      q1 := by rw [hq1, terminators, if_pos hco]
      mem := by
        rw [hmem', hmem, hsp₁]
        refine (overwrite_agreeOff m₀.mem _ _ _ _).mono fun x hx => hx.of_top ?_ (by omega) (by omega)
        rw [off, BitVec.add_assoc, show (-32 + BitVec.ofNat 32 (32 - 16) : Addr) = -16 by decide] }
  · rw [if_pos fun h => hco (hzero.mp h)] at hline
    rw [if_neg hco]
    refine ⟨m₁, hline, ?_⟩
    exact {
      a0 := by rw [hget _ (.inl rfl), off_zero]
      a1 := by rw [hget _ (.inr (.inl rfl)), off_zero]
      sp := hget _ (.inr (.inr (.inl rfl)))
      ra := hget _ (.inr (.inr (.inr (.inl rfl))))
      s0 := hget _ (.inr (.inr (.inr (.inr rfl))))
      q1 := by
        rw [terminators, if_neg hco]
        exact execs_vregs (by decide) m₀
      mem := hmem ▸ .refl _ _ _ }

/-! ## Runs -/

/-- The loop that handles position `k`. -/
def head (m₀ : Machine) (k : Nat) : Code :=
  memopsCode (if VecStart (m₀.get .a1) (m₀.get .a0) k then .LstpcVec else .LstpcByte)

/-- Past the first byte the alignment test leads to the loop of the position. -/
private theorem align_head (returnAddr : Addr) (h : At m₀ k m)
    (hk : CoAligned (m₀.get .a1) (m₀.get .a0) ∨ 0 < k) :
    ∃ m', Reaches (memops returnAddr) ⟨.run (memopsCode .LstpcAlign), m⟩
      ⟨.run (head m₀ k), m'⟩ ∧ At m₀ k m' := by
  obtain ⟨m', hrun, hat⟩ := align_next returnAddr h
  refine ⟨m', ?_, hat⟩
  have hiff : VecStart (m₀.get .a1) (m₀.get .a0) k ↔ ((m₀.get .a1).toNat + k) % 16 = 0 := by
    refine ⟨fun hvec => hvec.1, fun halign => ⟨halign, hk.imp_right fun hpos => ?_⟩⟩
    omega
  rw [head]
  simp only [hiff]
  exact hrun

/-- The vector is stored where the destination pointer is not aligned. -/
def StoresSkewed (m₀ : Machine) (z : Lanes) (k : Nat) : Prop :=
  ¬ CoAligned (m₀.get .a1) (m₀.get .a0) ∧ VecStart (m₀.get .a1) (m₀.get .a0) k ∧ NoMatch m₀ z k

instance (m₀ : Machine) (z : Lanes) (k : Nat) : Decidable (StoresSkewed m₀ z k) :=
  inferInstanceAs (Decidable (_ ∧ _))

/-- From the loop of a position before the terminator the run gets to a later one,
    the next one unless the pointers are co-aligned. -/
private theorem head_next (returnAddr : Addr) (hargs : Args m₀ L) (h : At m₀ k m) (hk : k < L)
    (hstore : ¬ StoresSkewed m₀ (m₀.vregs .q1) k) :
    ∃ k' m', k < k' ∧ k' ≤ L ∧ (¬ CoAligned (m₀.get .a1) (m₀.get .a0) → k' = k + 1) ∧
      Reaches (memops returnAddr) ⟨.run (head m₀ k), m⟩ ⟨.run (head m₀ k'), m'⟩ ∧ At m₀ k' m' := by
  -- A byte is copied and the alignment tested again.
  have hbyte : ∀ m, At m₀ k m → ∃ k' m', k < k' ∧ k' ≤ L ∧
      (¬ CoAligned (m₀.get .a1) (m₀.get .a0) → k' = k + 1) ∧
      Reaches (memops returnAddr) ⟨.run (memopsCode .LstpcByte), m⟩ ⟨.run (head m₀ k'), m'⟩ ∧
      At m₀ k' m' := by
    intro m h
    obtain ⟨m₁, hrun₁, hat₁⟩ := byte_next returnAddr hargs h hk
    obtain ⟨m₂, hrun₂, hat₂⟩ := align_head returnAddr hat₁ (.inr (by omega))
    exact ⟨k + 1, m₂, by omega, hk, fun _ => rfl, hrun₁.trans hrun₂, hat₂⟩
  by_cases hvec : VecStart (m₀.get .a1) (m₀.get .a0) k
  -- at the head of the vector loop: a block is stored, or the byte loop copies
  · rw [head, if_pos hvec]
    by_cases hmatch : NoMatch m₀ (terminators (m₀.vregs .q1) (m₀.get .a1) (m₀.get .a0)) k
    · have hco : CoAligned (m₀.get .a1) (m₀.get .a0) := by
        by_contra hco
        rw [terminators, if_neg hco] at hmatch
        exact hstore ⟨hco, hvec, hmatch⟩
      obtain ⟨m₁, hrun₁, hat₁, hq0⟩ := vec_store returnAddr hargs h hk.le hmatch
      rw [terminators, if_pos hco] at hmatch
      obtain ⟨hfar, m₂, hrun₂, hat₂⟩ :=
        store_next returnAddr hargs hat₁ hk.le hco hvec.1 hmatch hq0
      have hvec' : VecStart (m₀.get .a1) (m₀.get .a0) (k + 16) := by
        refine ⟨?_, .inl hco⟩
        have := hvec.1
        omega
      refine ⟨k + 16, m₂, by omega, hfar, fun h => absurd hco h, ?_, hat₂⟩
      rw [head, if_pos hvec']
      exact hrun₁.trans hrun₂
    · obtain ⟨m₁, hrun₁, hat₁⟩ := vec_byte returnAddr hargs h hk.le hmatch
      obtain ⟨k', m', hlt, hle, hnext, hrun', hat'⟩ := hbyte m₁ hat₁
      exact ⟨k', m', hlt, hle, hnext, hrun₁.trans hrun', hat'⟩
  · rw [head, if_neg hvec]
    exact hbyte m h

/-- The run gets to every position up to which no vector is stored at an unaligned
    destination, or, with co-aligned pointers, past it. -/
theorem reaches_head (returnAddr : Addr) (hargs : Args m₀ L) (hk : k ≤ L)
    (hstore : ∀ j < k, ¬ StoresSkewed m₀ (m₀.vregs .q1) j) :
    ∃ k' m, k ≤ k' ∧ k' ≤ L ∧ (¬ CoAligned (m₀.get .a1) (m₀.get .a0) → k' = k) ∧
      Reaches (memops returnAddr) ⟨.run (memopsCode .s31XespvStpcpy), m₀⟩ ⟨.run (head m₀ k'), m⟩ ∧
      At m₀ k' m := by
  -- a head past `k` is one for `k + 1` as well, and a head at `k` goes on to the next
  induction k with
  -- the entry leads to the first head, by the test of the alignment or without it
  | zero =>
    obtain ⟨m₁, hrun₁, hat₁⟩ := entry_next returnAddr hargs
    by_cases hco : CoAligned (m₀.get .a1) (m₀.get .a0)
    · rw [if_pos hco] at hrun₁
      obtain ⟨m₂, hrun₂, hat₂⟩ := align_head returnAddr hat₁ (.inl hco)
      exact ⟨0, m₂, le_rfl, by omega, fun _ => rfl, hrun₁.trans hrun₂, hat₂⟩
    · rw [if_neg hco] at hrun₁
      have hvec : ¬ VecStart (m₀.get .a1) (m₀.get .a0) 0 := by
        rintro ⟨-, hco' | hle⟩
        · exact hco hco'
        · omega
      refine ⟨0, m₁, le_rfl, by omega, fun _ => rfl, ?_, hat₁⟩
      rw [head, if_neg hvec]
      exact hrun₁
  | succ k ih =>
    obtain ⟨k', m, hkk', hk'L, heq, hrun, hat⟩ := ih (by omega) fun j hj => hstore j (by omega)
    obtain hlt | hge := Nat.lt_or_ge k k'
    · refine ⟨k', m, hlt, hk'L, fun hco => ?_, hrun, hat⟩
      have := heq hco
      omega
    · obtain rfl : k' = k := by omega
      obtain ⟨k'', m', hlt', hle', hnext, hrun', hat'⟩ :=
        head_next returnAddr hargs hat (by omega) (hstore k' (by omega))
      exact ⟨k'', m', hlt', hle', hnext, hrun.trans hrun', hat'⟩

/-- Without such a store the whole string is copied. -/
private theorem stpcpy_done (returnAddr : Addr) (hargs : Args m₀ L)
    (hstore : ∀ j ≤ L, ¬ StoresSkewed m₀ (m₀.vregs .q1) j) :
    ∃ m', Reaches (memops returnAddr) ⟨.run (memopsCode .s31XespvStpcpy), m₀⟩
      ⟨(memops returnAddr).goto (m₀.get .ra), m'⟩ ∧ Done m₀ L m' := by
  obtain ⟨k', m, hle, hle', -, hrun, hat⟩ :=
    reaches_head returnAddr hargs le_rfl fun j hj => hstore j hj.le
  obtain rfl : k' = L := by omega
  by_cases hvec : VecStart (m₀.get .a1) (m₀.get .a0) k'
  · rw [head, if_pos hvec] at hrun
    -- no block is stored at the terminator
    have hmatch : ¬ NoMatch m₀ (terminators (m₀.vregs .q1) (m₀.get .a1) (m₀.get .a0)) k' := by
      intro hmatch
      by_cases hco : CoAligned (m₀.get .a1) (m₀.get .a0)
      · -- The block begins with the terminator.
        rw [terminators, if_pos hco] at hmatch
        refine hmatch 0 ?_
        rw [loadBlock_aligned _ hvec.1]
        exact (hargs.copied_source (by omega) le_rfl).trans hargs.terminator
      · rw [terminators, if_neg hco] at hmatch
        exact hstore k' le_rfl ⟨hco, hvec, hmatch⟩
    obtain ⟨m₁, hrun₁, hat₁⟩ := vec_byte returnAddr hargs hat le_rfl hmatch
    obtain ⟨m₂, hrun₂, hdone⟩ := byte_done returnAddr hargs hat₁
    exact ⟨m₂, hrun.trans (hrun₁.trans hrun₂), hdone⟩
  -- in the byte loop the terminator is copied
  · rw [head, if_neg hvec] at hrun
    obtain ⟨m₁, hrun₁, hdone⟩ := byte_done returnAddr hargs hat
    exact ⟨m₁, hrun.trans hrun₁, hdone⟩

/-- The run gets to the vector store with the destination pointer not aligned. -/
def ReachesSkewedStore (returnAddr : Addr) (entry : Label) (m₀ : Machine) (L : Nat) : Prop :=
  ∃ m' k, k ≤ L ∧ Reaches (memops returnAddr) ⟨.run (memopsCode entry), m₀⟩
    ⟨.run (stpcpyStore ++ stpcpyDone), m'⟩ ∧
      m'.get .a0 = off (m₀.get .a0) k ∧ (m'.get .a0).toNat % 16 ≠ 0

/-- The first such store is reached. -/
private theorem stpcpy_skewed (returnAddr : Addr) (hargs : Args m₀ L) (hk : k ≤ L)
    (hstore : StoresSkewed m₀ (m₀.vregs .q1) k) :
    ReachesSkewedStore returnAddr .s31XespvStpcpy m₀ L := by
  have hexists : ∃ j, StoresSkewed m₀ (m₀.vregs .q1) j := ⟨k, hstore⟩
  have hle : Nat.find hexists ≤ k := Nat.find_min' hexists hstore
  obtain ⟨hco, hvec, hmatch⟩ := Nat.find_spec hexists
  obtain ⟨k', m, -, hk'L, heq, hrun, hat⟩ := reaches_head returnAddr hargs (hle.trans hk)
    fun j hj => Nat.find_min hexists hj
  rw [heq hco] at hat hrun hk'L
  rw [head, if_pos hvec] at hrun
  have hmatch' : NoMatch m₀ (terminators (m₀.vregs .q1) (m₀.get .a1) (m₀.get .a0))
      (Nat.find hexists) := by rwa [terminators, if_neg hco]
  obtain ⟨m', hrun', hat', -⟩ := vec_store returnAddr hargs hat hk'L hmatch'
  refine ⟨m', _, hk'L, hrun.trans hrun', hat'.a0, ?_⟩
  -- The source pointer is aligned and the destination is not aligned like it.
  rw [hat'.a0, off_toNat]
  intro hzero
  refine hco ?_
  have := hvec.1
  rw [CoAligned]
  omega

/-! ## Calls of either routine -/

/-- What the callers of both routines promise: a string at `a1`, room for it at
    `a0` that does not overlap it, and neither of them in the stack frame. -/
structure Call (m₀ : Machine) (str : List Byte) : Prop where
  source : CString m₀.mem (m₀.get .a1) str
  disjoint : ∀ i ≤ str.length, ∀ j ≤ str.length, off (m₀.get .a0) i ≠ off (m₀.get .a1) j
  frame : ∀ i ≤ str.length, ¬ InFrame (m₀.get .sp + (-48)) 48 (off (m₀.get .a0) i) ∧
    ¬ InFrame (m₀.get .sp + (-48)) 48 (off (m₀.get .a1) i)
  sp_aligned : (m₀.get .sp).toNat % 16 = 0

/-- The routine returns `result`, has copied the string with its terminator and has
    changed no other byte outside the `n` bytes of its stack frame. -/
def CopyCorrect (returnAddr : Addr) (entry : Label) (n : Nat) (m₀ : Machine) (L : Nat)
    (result : Addr) : Prop :=
  ∃ m', Reaches (memops returnAddr) ⟨.run (memopsCode entry), m₀⟩ ⟨.out (m₀.get .ra), m'⟩ ∧
    m'.get .a0 = result ∧
    (∀ i ≤ L, m'.mem (off (m₀.get .a0) i) = m₀.mem (off (m₀.get .a1) i)) ∧
    ∀ x, (∀ i ≤ L, x ≠ off (m₀.get .a0) i) →
      ¬ InFrame (m₀.get .sp - BitVec.ofNat 32 n) n x → m'.mem x = m₀.mem x

/-- Memory as after the copy, up to the frame. -/
private theorem copyCorrect_of_agreeOff {returnAddr : Addr} {entry : Label} {n : Nat}
    {result : Addr}
    {m' : Machine} (hL : L < 2 ^ 32)
    (hrun : Reaches (memops returnAddr) ⟨.run (memopsCode entry), m₀⟩ ⟨.out (m₀.get .ra), m'⟩)
    (hresult : m'.get .a0 = result)
    (hframe : ∀ i ≤ L, ¬ InFrame (m₀.get .sp - BitVec.ofNat 32 n) n (off (m₀.get .a0) i))
    (hmem : AgreeOff (m₀.get .sp - BitVec.ofNat 32 n) n
      (copied m₀.mem (m₀.get .a0) (m₀.get .a1) (L + 1)) m'.mem) :
    CopyCorrect returnAddr entry n m₀ L result := by
  refine ⟨m', hrun, hresult, fun i hi => ?_, fun x hne hx => ?_⟩
  · rw [hmem _ (hframe i hi), copied_off (by omega) (by omega)]
  · rw [hmem x hx, copied_of_ne fun i hi => hne i (by omega)]

/-- The two frames, as differences. -/
private theorem add_neg_eq_sub (a : Addr) : a + (-32) = a - BitVec.ofNat 32 32 ∧
    a + (-48) = a - BitVec.ofNat 32 48 :=
  ⟨(BitVec.sub_eq_add_neg a 32).symm, (BitVec.sub_eq_add_neg a 48).symm⟩

/-- The frame of `s31_xespv_stpcpy` is part of that of `s31_xespv_strcpy`. -/
private theorem inFrame_strcpy {a x : Addr} (h : InFrame (a + (-32)) 32 x) :
    InFrame (a + (-48)) 48 x := by
  refine h.of_top ?_ (by omega) (by omega)
  rw [off, BitVec.add_assoc, show (-48 + BitVec.ofNat 32 (48 - 32) : Addr) = -32 by decide]

variable {str : List Byte} {returnAddr : Addr}

/-- A call has the arguments that the routine needs. -/
theorem Call.args (h : Call m₀ str) : Args m₀ str.length where
  nonzero := h.source.nonzero
  terminator := h.source.terminator
  length_lt := h.source.length_lt
  disjoint := h.disjoint
  frame := fun i hi =>
    ⟨fun hin => (h.frame i hi).1 (inFrame_strcpy hin), fun hin => (h.frame i hi).2 (inFrame_strcpy hin)⟩
  sp_aligned := h.sp_aligned

/-- `stpcpy` copies and returns the terminator, when it stores no block askew. -/
private theorem stpcpy_correct (h : Call m₀ str) (hra : m₀.get .ra ≠ returnAddr)
    (hstore : ∀ j ≤ str.length, ¬ StoresSkewed m₀ (m₀.vregs .q1) j) :
    CopyCorrect returnAddr .s31XespvStpcpy 32 m₀ str.length (off (m₀.get .a0) str.length) := by
  obtain ⟨m', hrun, hdone⟩ := stpcpy_done returnAddr h.args hstore
  have hgoto : (memops returnAddr).goto (m₀.get .ra) = .out (m₀.get .ra) := by
    simp [Program.goto, memops, List.find?, hra.symm]
  rw [hgoto] at hrun
  refine copyCorrect_of_agreeOff h.args.length_lt hrun hdone.a0 ?_ ?_
  · intro i hi
    rw [← (add_neg_eq_sub _).1]
    exact (h.args.frame i hi).1
  · rw [← (add_neg_eq_sub _).1]
    exact hdone.mem

/-! ### `s31_xespv_strcpy` -/

/-- The machine in which `s31_xespv_strcpy` enters `s31_xespv_stpcpy`. -/
def strcpyCallee (returnAddr : Addr) (m₀ : Machine) : Machine :=
  (execs (strcpyEntry.take 4) m₀).set .ra returnAddr

/-- `strcpy` comes to its call of `stpcpy`. -/
private theorem reaches_strcpyCallee (returnAddr : Addr) (m₀ : Machine) :
    Reaches (memops returnAddr) ⟨.run (memopsCode .s31XespvStrcpy), m₀⟩
      ⟨.run (memopsCode .s31XespvStpcpy), strcpyCallee returnAddr m₀⟩ :=
  (Reaches.line (strcpyEntry.take 4) (by decide) m₀).trans (.single rfl)

/-- The registers at that call. -/
theorem strcpyCallee_get (returnAddr : Addr) (m₀ : Machine) :
    (strcpyCallee returnAddr m₀).get .a0 = m₀.get .a0 ∧
      (strcpyCallee returnAddr m₀).get .a1 = m₀.get .a1 ∧
      (strcpyCallee returnAddr m₀).get .s0 = m₀.get .a0 ∧
      (strcpyCallee returnAddr m₀).get .sp = m₀.get .sp + (-16) ∧
      (strcpyCallee returnAddr m₀).get .ra = returnAddr := by
  refine ⟨?_, ?_, ?_, ?_, ?_⟩ <;>
    simp only [strcpyCallee, strcpyEntry, List.take, execs, List.foldl, Instr.exec,
      Machine.get_set, Machine.get_setMem, reduceCtorEq, if_false, if_true]

/-- The two registers are saved in the frame. -/
theorem strcpyCallee_mem (returnAddr : Addr) (m₀ : Machine) :
    (strcpyCallee returnAddr m₀).mem =
      storeWord (storeWord m₀.mem (off (m₀.get .sp + (-16)) 12) (m₀.get .ra))
        (off (m₀.get .sp + (-16)) 8) (m₀.get .s0) := by
  simp only [strcpyCallee, strcpyEntry, List.take, execs, List.foldl, Instr.exec,
    Machine.get_set, Machine.get_setMem, Machine.mem_set, Machine.mem_setMem, reduceCtorEq,
    if_false, if_true]

/-- The callee's frame is part of the caller's. -/
private theorem inFrame_callee {a x : Addr} (h : InFrame (a + (-16) + (-32)) 32 x) :
    InFrame (a + (-48)) 48 x := by
  rw [BitVec.add_assoc, show (-16 + -32 : Addr) = -48 by decide] at h
  simp only [InFrame] at h ⊢
  omega

/-- Bytes above the callee's frame lie in the caller's. -/
private theorem inFrame_saved (a : Addr) {j : Nat} (hj : j < 16) :
    InFrame (a + (-48)) 48 (off (a + (-16)) j) ∧ ¬ InFrame (a + (-16) + (-32)) 32 (off (a + (-16)) j) := by
  have h48 : off (a + (-48)) 32 = a + (-16) := by
    rw [off, BitVec.add_assoc, show (-48 + BitVec.ofNat 32 32 : Addr) = -16 by decide]
  have hbase : a + (-16) + (-32) = a + (-48) := by
    rw [BitVec.add_assoc, show (-16 + -32 : Addr) = -48 by decide]
  rw [hbase, ← h48, off_off]
  refine ⟨inFrame_off (by omega) (by omega), ?_⟩
  rw [InFrame, BitVec.toNat_sub, off_toNat]
  have := (a + (-48)).isLt
  omega

/-- Only the frame has changed by then. -/
private theorem strcpyCallee_agreeOff (returnAddr : Addr) (m₀ : Machine) :
    AgreeOff (m₀.get .sp + (-48)) 48 m₀.mem (strcpyCallee returnAddr m₀).mem := by
  rw [strcpyCallee_mem]
  refine (AgreeOff.storeWord m₀.mem ?_).trans (AgreeOff.storeWord _ ?_)
  · intro j hj
    rw [off_off]
    exact (inFrame_saved _ (by omega)).1
  · intro j hj
    rw [off_off]
    exact (inFrame_saved _ (by omega)).1

/-- Copying from outside a frame agrees outside the frame. -/
theorem AgreeOff.copied {base d s : Addr} {n : Nat} {mem mem' : Mem} (h : AgreeOff base n mem mem')
    (hs : ∀ i < k, ¬ InFrame base n (off s i)) :
    AgreeOff base n (copied mem d s k) (Stpcpy.copied mem' d s k) := by
  induction k with
  | zero => exact h
  | succ k ih =>
    intro x hx
    rw [Stpcpy.copied, Stpcpy.copied]
    by_cases heq : x = off d k
    · rw [heq, Function.update_self, Function.update_self, h _ (hs k (by omega))]
    · rw [Function.update_of_ne heq, Function.update_of_ne heq]
      exact ih (fun i hi => hs i (by omega)) x hx

/-- The call has the arguments that `stpcpy` needs. -/
theorem Call.calleeArgs (h : Call m₀ str) : Args (strcpyCallee returnAddr m₀) str.length := by
  obtain ⟨ha0, ha1, -, hsp, -⟩ := strcpyCallee_get returnAddr m₀
  have hagree := strcpyCallee_agreeOff returnAddr m₀
  have hargs := h.args
  constructor
  case nonzero =>
    intro i hi
    rw [ha1, hagree _ (h.frame i hi.le).2]
    exact hargs.nonzero i hi
  case terminator =>
    rw [ha1, hagree _ (h.frame _ le_rfl).2]
    exact hargs.terminator
  case length_lt => exact hargs.length_lt
  case disjoint =>
    rw [ha0, ha1]
    exact h.disjoint
  -- the frame of the callee lies within that of the caller
  case frame =>
    rw [ha0, ha1, hsp]
    exact fun i hi =>
      ⟨fun hin => (h.frame i hi).1 (inFrame_callee hin), fun hin => (h.frame i hi).2 (inFrame_callee hin)⟩
  case sp_aligned =>
    rw [hsp]
    exact add_aligned h.sp_aligned (by decide)

/-- The callee stores a skewed vector where the caller's arguments say so. -/
theorem Call.storesSkewed_callee (h : Call m₀ str) (hk : k ≤ str.length) :
    StoresSkewed (strcpyCallee returnAddr m₀) ((strcpyCallee returnAddr m₀).vregs .q1) k ↔
      StoresSkewed m₀ (m₀.vregs .q1) k := by
  obtain ⟨ha0, ha1, -, -, -⟩ := strcpyCallee_get returnAddr m₀
  have hq1 : (strcpyCallee returnAddr m₀).vregs .q1 = m₀.vregs .q1 :=
    execs_vregs (by decide : ∀ i ∈ strcpyEntry.take 4, i.vdest ≠ some .q1) m₀
  have hcopied := AgreeOff.copied (d := m₀.get .a0) (strcpyCallee_agreeOff returnAddr m₀)
    fun i (hi : i < k) => (h.frame i (by omega)).2
  have hblock := hcopied.loadBlock (add_aligned h.sp_aligned (by decide)) (by decide) (h.frame k hk).2
  simp only [StoresSkewed, NoMatch, ha0, ha1, hq1, hblock]

/-- The return address survives the copy in the caller's frame. -/
theorem Call.saved_ra (h : Call m₀ str) {m : Machine}
    (hdone : Done (strcpyCallee returnAddr m₀) str.length m) :
    loadWord m.mem (off (m.get .sp) 12) = m₀.get .ra := by
  obtain ⟨ha0, ha1, -, hsp, -⟩ := strcpyCallee_get returnAddr m₀
  have hagree := hdone.mem
  rw [ha0, ha1, hsp] at hagree
  rw [hdone.sp, hsp, ← loadWord_storeWord_self m₀.mem (off (m₀.get .sp + (-16)) 12) (m₀.get .ra)]
  apply loadWord_congr
  intro j hj
  -- A byte of the caller's frame: neither in the callee's nor in the destination.
  obtain ⟨hin, hout⟩ := inFrame_saved (m₀.get .sp) (j := 12 + j) (by omega)
  have hdest : ∀ i < str.length + 1, off (m₀.get .sp + (-16)) (12 + j) ≠ off (m₀.get .a0) i :=
    fun i hi heq => (h.frame i (by omega)).1 (heq ▸ hin)
  rw [off_off, hagree _ hout, copied_of_ne hdest, strcpyCallee_mem]
  apply storeWord_of_off
  intro i hi heq
  rw [off_off] at heq
  have := off_inj (by omega) (by omega) heq
  omega

/-- `strcpy` copies and returns the destination, when it stores no block askew. -/
private theorem strcpy_correct (h : Call m₀ str) (hra : m₀.get .ra ≠ returnAddr)
    (hstore : ∀ j ≤ str.length, ¬ StoresSkewed m₀ (m₀.vregs .q1) j) :
    CopyCorrect returnAddr .s31XespvStrcpy 48 m₀ str.length (m₀.get .a0) := by
  obtain ⟨ha0, ha1, hs0, hsp, hra'⟩ := strcpyCallee_get returnAddr m₀
  have hargs : Args (strcpyCallee returnAddr m₀) str.length := h.calleeArgs
  -- the routine is a call of `stpcpy` that keeps the destination for its result
  obtain ⟨m₁, hrun, hdone⟩ := stpcpy_done returnAddr hargs
    fun j hj hskew => hstore j hj ((h.storesSkewed_callee hj).mp hskew)
  have hgoto : (memops returnAddr).goto ((strcpyCallee returnAddr m₀).get .ra) =
      .run strcpyReturn := by
    rw [hra']
    simp [Program.goto, memops, memopsCode]
  rw [hgoto] at hrun
  set m₂ := execs (strcpyReturn.take 4) m₁ with hm₂
  have ha0₂ : m₂.get .a0 = m₀.get .a0 := by
    have hmv : m₂.get .a0 = m₁.get .s0 := by
      simp only [hm₂, strcpyReturn, List.take, execs, List.foldl, Instr.exec, Machine.get_set,
        reduceCtorEq, if_false, if_true]
    rw [hmv, hdone.s0, hs0]
  -- the return address comes back from the stack frame
  have hra₂ : m₂.get .ra = m₀.get .ra := by
    have hlw : m₂.get .ra = loadWord m₁.mem (off (m₁.get .sp) 12) := by
      simp only [hm₂, strcpyReturn, List.take, execs, List.foldl, Instr.exec, Machine.get_set,
        Machine.mem_set, reduceCtorEq, if_false, if_true]
    rw [hlw, h.saved_ra hdone]
  have hret : Reaches (memops returnAddr) ⟨.run strcpyReturn, m₁⟩ ⟨.out (m₀.get .ra), m₂⟩ := by
    rw [← hra₂] at hra ⊢
    exact (Reaches.line (strcpyReturn.take 4) (by decide) m₁).trans (.ret hra)
  refine copyCorrect_of_agreeOff h.args.length_lt
    ((reaches_strcpyCallee returnAddr m₀).trans (hrun.trans hret)) ha0₂ ?_ ?_
  · intro i hi
    rw [← (add_neg_eq_sub _).2]
    exact (h.frame i hi).1
  · rw [← (add_neg_eq_sub _).2, hm₂, execs_mem (by decide)]
    have hmem := hdone.mem
    rw [ha0, ha1, hsp] at hmem
    refine (AgreeOff.copied (strcpyCallee_agreeOff returnAddr m₀) fun i hi =>
      (h.frame i (by omega)).2).trans (hmem.mono fun x hx => inFrame_callee hx)

/-- Both routines copy the string if no vector is stored at an unaligned
    destination up to its terminator, and get to such a store otherwise. -/
theorem copy_correct (h : Call m₀ str) (hra : m₀.get .ra ≠ returnAddr) :
    ((∀ k ≤ str.length, ¬ StoresSkewed m₀ (m₀.vregs .q1) k) →
      CopyCorrect returnAddr .s31XespvStpcpy 32 m₀ str.length (off (m₀.get .a0) str.length) ∧
        CopyCorrect returnAddr .s31XespvStrcpy 48 m₀ str.length (m₀.get .a0)) ∧
      ∀ k ≤ str.length, StoresSkewed m₀ (m₀.vregs .q1) k →
        ReachesSkewedStore returnAddr .s31XespvStpcpy m₀ str.length ∧
          ReachesSkewedStore returnAddr .s31XespvStrcpy m₀ str.length := by
  refine ⟨fun hstore => ⟨stpcpy_correct h hra hstore, strcpy_correct h hra hstore⟩, ?_⟩
  intro k hk hskew
  refine ⟨stpcpy_skewed returnAddr h.args hk hskew, ?_⟩
  obtain ⟨ha0, -, -, -, -⟩ := strcpyCallee_get returnAddr m₀
  obtain ⟨m', j, hj, hrun, hdest, hskewed⟩ := stpcpy_skewed returnAddr h.calleeArgs hk
    ((h.storesSkewed_callee hk).mpr hskew)
  rw [ha0] at hdest
  exact ⟨m', j, hj, (reaches_strcpyCallee returnAddr m₀).trans hrun, hdest, hskewed⟩

/-- A call with the two pointers, an aligned stack and a caller at 256, for 17 times
    `a` at 0x100f. -/
def copyCall (d : Addr) : Machine where
  regs
    | .a0 => d
    | .a1 => 0x100f
    | .sp => 0x8000
    | .ra => 256
    | _ => 0
  vregs _ _ := 0
  mem := fun x => if 0x100f ≤ x.toNat ∧ x.toNat < 0x1020 then 0x61 else 0

/-- The calls of the examples are proper ones. -/
private theorem copyCall_call : Call (copyCall 0x200f) (List.replicate 17 0x61) ∧
    Call (copyCall 0x2000) (List.replicate 17 0x61) := by
  constructor <;> constructor <;> decide +kernel

/-- The destination is aligned like the source. -/
theorem copy_correct_aligned :
    CopyCorrect 512 .s31XespvStpcpy 32 (copyCall 0x200f) 17 (off 0x200f 17) ∧
      CopyCorrect 512 .s31XespvStrcpy 48 (copyCall 0x200f) 17 0x200f :=
  (copy_correct copyCall_call.1 (by decide)).1 fun _ _ hskew => hskew.1 (by decide)

/-- A byte that the finished run has not copied. -/
private theorem not_copyCorrect_of_run {returnAddr result : Addr} {entry : Label} {n i : Nat}
    (hpc : (run (memops returnAddr) k ⟨.run (memopsCode entry), m₀⟩).pc = .out (m₀.get .ra))
    (hi : i ≤ L) (hbyte : (run (memops returnAddr) k ⟨.run (memopsCode entry), m₀⟩).m.mem
      (off (m₀.get .a0) i) ≠ m₀.mem (off (m₀.get .a1) i)) :
    ¬ CopyCorrect returnAddr entry n m₀ L result := by
  rintro ⟨m', hrun, -, hcopied, -⟩
  have hend : step (memops returnAddr)
      (run (memops returnAddr) k ⟨.run (memopsCode entry), m₀⟩) = none := by
    rw [step, hpc]
  have hsame := hrun.unique (reaches_run k _) rfl hend
  rw [← hsame] at hbyte
  exact hbyte (hcopied i hi)

/-- The vector from position 1 on is stored one byte too low, and the byte at
    position 16 is never written. -/
theorem copy_skewed_wrong :
    Call (copyCall 0x2000) (List.replicate 17 0x61) ∧
      ¬ CopyCorrect 512 .s31XespvStpcpy 32 (copyCall 0x2000) 17 (off 0x2000 17) ∧
      ¬ CopyCorrect 512 .s31XespvStrcpy 48 (copyCall 0x2000) 17 0x2000 := by
  refine ⟨copyCall_call.2, ?_, ?_⟩
  · exact not_copyCorrect_of_run (k := 70) (i := 16) (by decide +kernel) (by decide)
      (by decide +kernel)
  · exact not_copyCorrect_of_run (k := 80) (i := 16) (by decide +kernel) (by decide)
      (by decide +kernel)

end EspS31.Xespv.Stpcpy
