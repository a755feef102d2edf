import EspS31.Spec.XespvCalls

/-!
# Correctness of `s31_xespv_memcmp`

The routine compares bytes until both pointers are at a block boundary, whole blocks
through `s31_xespv_eq16` while at least 16 bytes are left, and a block with a difference
once more byte by byte.

## Key results

- `eq16_returns`: the comparison of two blocks stored at a third address
- `memcmp_compares`: the result, and the bytes that are read
-/

namespace EspS31.Xespv

open ByteMem

/-! ## `s31_xespv_eq16` -/

/-- The comparison of two blocks is stored. -/
def StoresEq16 (m₀ m : Machine) : Prop :=
  m.mem = storeBlock m₀.mem (m₀.get .a0)
    (lanesEq (loadBlock m₀.mem (m₀.get .a1)) (loadBlock m₀.mem (m₀.get .a2)))

/-- The comparison of two blocks returns with its mask stored. -/
theorem eq16_returns (addr : Label → Addr) {R : Addr → Prop} (m₀ : Machine)
    (ha1 : ∀ i < 16, R (off (align16 (m₀.get .a1)) i))
    (ha2 : ∀ i < 16, R (off (align16 (m₀.get .a2)) i)) :
    Leads (memopsAt addr) R (Returned (memopsAt addr) m₀ (StoresEq16 m₀))
      ⟨.run (memopsCode .s31XespvEq16), m₀⟩ := by
  refine Leads.line (eq16Entry.take 4) (by decide) ⟨ha1, ha2, trivial, trivial, trivial⟩ ?_
  refine Leads.ret ((Saved.refl m₀).execs (by decide)) ?_
  simp only [StoresEq16, eq16Entry, List.take, execs, List.foldl, Instr.exec, Machine.get_set,
    Machine.get_setV, Machine.mem_set, Machine.mem_setV, Machine.mem_setMem, Machine.vregs_set,
    Machine.vregs_setV, reduceCtorEq, if_false, if_true]

/-! ## `s31_xespv_memcmp` -/

namespace Memcmp

/-- The first `k` bytes agree. -/
def EqualBelow (m₀ : Machine) (k : Nat) : Prop :=
  ∀ i < k, m₀.mem (off (m₀.get .a0) i) = m₀.mem (off (m₀.get .a1) i)

/-- The bytes of the two ranges, and the frame. -/
def Reads (m₀ : Machine) (x : Addr) : Prop :=
  InFrame (m₀.get .sp + -48#32) 48 x ∨
    ∃ i < (m₀.get .a2).toNat, x = off (m₀.get .a0) i ∨ x = off (m₀.get .a1) i

/-- Zero is returned exactly when the bytes agree, and else the difference of the first
    pair that does not. -/
def Result (m₀ m : Machine) : Prop :=
  (m.get .a0 = 0 ↔ EqualBelow m₀ (m₀.get .a2).toNat) ∧
    ∀ k < (m₀.get .a2).toNat, EqualBelow m₀ k →
      m₀.mem (off (m₀.get .a0) k) ≠ m₀.mem (off (m₀.get .a1) k) →
      m.get .a0 = (m₀.mem (off (m₀.get .a0) k)).setWidth 32 -
        (m₀.mem (off (m₀.get .a1) k)).setWidth 32

/-- 0 is right when all bytes are equal. -/
private theorem result_of_equal {m₀ m : Machine} (h : EqualBelow m₀ (m₀.get .a2).toNat)
    (ha0 : m.get .a0 = 0) : Result m₀ m :=
  ⟨iff_of_true ha0 h, fun k hk _ hne => absurd (h k hk) hne⟩

/-- The difference of the first two bytes that differ is right. -/
private theorem result_of_diff {m₀ m : Machine} {k : Nat} (hk : k < (m₀.get .a2).toNat)
    (h : EqualBelow m₀ k) (hne : m₀.mem (off (m₀.get .a0) k) ≠ m₀.mem (off (m₀.get .a1) k))
    (ha0 : m.get .a0 = (m₀.mem (off (m₀.get .a0) k)).setWidth 32 -
      (m₀.mem (off (m₀.get .a1) k)).setWidth 32) : Result m₀ m := by
  refine ⟨iff_of_false (fun hzero => ?_) fun hequal => hne (hequal k hk), fun j hj hbelow hne' => ?_⟩
  · rw [ha0] at hzero
    exact hne ((setWidth_eq_iff _ _).mp (sub_eq_zero.mp hzero))
  · obtain hlt | rfl | hgt := Nat.lt_trichotomy j k
    · exact absurd (h j hlt) hne'
    · exact ha0
    · exact absurd (hbelow k hgt) hne

/-- The routine ends right, and reads its frame and bytes it may read. -/
def Compares (addr : Label → Addr) (m₀ : Machine) (c : Config Label) : Prop :=
  Leads (memopsAt addr) (Reads m₀)
    (Returned (memopsAt addr) m₀ fun m =>
      AgreeOff (m₀.get .sp + -48#32) 48 m₀.mem m.mem ∧ Result m₀ m) c

/-- `k` bytes have been compared, and are equal. -/
structure At (m₀ : Machine) (k : Nat) (m : Machine) : Prop where
  a0 : m.get .a0 = off (m₀.get .a0) k
  a1 : m.get .a1 = off (m₀.get .a1) k
  a2 : (m.get .a2).toNat = (m₀.get .a2).toNat - k
  mem : AgreeOff (m₀.get .sp + -48#32) 48 m₀.mem m.mem
  saved : Saved m₀ m
  equal : EqualBelow m₀ k

/-- The ranges are not in the frame. -/
def Outside (m₀ : Machine) : Prop :=
  ∀ i < (m₀.get .a2).toNat, ¬ InFrame (m₀.get .sp + -48#32) 48 (off (m₀.get .a0) i) ∧
    ¬ InFrame (m₀.get .sp + -48#32) 48 (off (m₀.get .a1) i)

section

variable {m₀ m : Machine} {k : Nat} {addr : Label → Addr}

/-- Instructions that write neither these registers nor memory keep the state. -/
theorem At.line {ops : Code} (h : At m₀ k m)
    (hregs : ∀ r ∈ [Reg.a0, .a1, .a2] ++ savedRegs, ∀ i ∈ ops, i.dest ≠ some r)
    (hmem : ∀ i ∈ ops, i.isStore = false) : At m₀ k (execs ops m) where
  a0 := by rw [execs_get (hregs .a0 (by simp)), h.a0]
  a1 := by rw [execs_get (hregs .a1 (by simp)), h.a1]
  a2 := by rw [execs_get (hregs .a2 (by simp)), h.a2]
  mem := by
    rw [execs_mem hmem]
    exact h.mem
  saved := h.saved.execs fun r hr => hregs r (List.mem_append_right _ hr)
  equal := h.equal

/-- A round that compares `j` equal bytes. -/
theorem At.advance {ops : Code} {j : Nat} (h : At m₀ k m) (hj : k + j ≤ (m₀.get .a2).toNat)
    (ha0 : bumps .a0 ops = some (BitVec.ofNat 32 j))
    (ha1 : bumps .a1 ops = some (BitVec.ofNat 32 j))
    (ha2 : bumps .a2 ops = some (-BitVec.ofNat 32 j))
    (hregs : ∀ r ∈ savedRegs, ∀ i ∈ ops, i.dest ≠ some r) (hmem : ∀ i ∈ ops, i.isStore = false)
    (hequal : ∀ i < j, m₀.mem (off (m₀.get .a0) (k + i)) = m₀.mem (off (m₀.get .a1) (k + i))) :
    At m₀ (k + j) (execs ops m) where
  a0 := by rw [execs_bumps (by decide) ha0, h.a0, off_add]
  a1 := by rw [execs_bumps (by decide) ha1, h.a1, off_add]
  a2 := by
    rw [execs_bumps (by decide) ha2, toNat_add_neg (by rw [h.a2]; omega), h.a2]
    omega
  mem := by
    rw [execs_mem hmem]
    exact h.mem
  saved := h.saved.execs hregs
  equal := by
    intro i hi
    -- a byte compared before, or one of this round
    obtain hlt | hge := Nat.lt_or_ge i k
    · exact h.equal i hlt
    · have heq := hequal (i - k) (by omega)
      rwa [Nat.add_sub_cancel' hge] at heq

/-- The count is zero exactly when all is compared. -/
theorem At.a2_eq_zero_iff (h : At m₀ k m) : m.get .a2 = 0 ↔ (m₀.get .a2).toNat ≤ k := by
  rw [← BitVec.toNat_inj, h.a2, BitVec.ofNat_eq_ofNat, BitVec.toNat_zero]
  omega

/-- With everything compared 0 is returned. -/
theorem At.done (h : At m₀ k m) (hk : (m₀.get .a2).toNat ≤ k) :
    Compares addr m₀ ⟨.run (memopsCode .LcmpEqual), m⟩ := by
  refine Leads.line (memcmpEqual.take 1) (by decide) ⟨trivial, trivial⟩ ?_
  refine Leads.ret (h.saved.execs (by decide)) ⟨h.mem, result_of_equal (fun i hi => ?_) rfl⟩
  exact h.equal i (by omega)

/-- One pair is compared; unless it differs the routine goes on behind it. -/
theorem At.byte (h : At m₀ k m) (hout : Outside m₀) (hk : k < (m₀.get .a2).toNat)
    (hnext : ∀ m', At m₀ (k + 1) m' → Compares addr m₀ ⟨.run (memopsCode .LcmpAlign), m'⟩) :
    Compares addr m₀ ⟨.run (memopsCode .LcmpByte), m⟩ := by
  obtain ⟨houta, houtb⟩ := hout k hk
  -- the bytes at the pointers are byte `k` of the two ranges
  have hbytea : m.mem (off (m.get .a0) 0) = m₀.mem (off (m₀.get .a0) k) := by
    rw [h.a0, off_zero]
    exact h.mem _ houta
  have hbyteb : m.mem (off (m.get .a1) 0) = m₀.mem (off (m₀.get .a1) k) := by
    rw [h.a1, off_zero]
    exact h.mem _ houtb
  refine Leads.line (memcmpByte.take 2) (by decide) ⟨?_, ?_, trivial⟩ ?_
  · show Reads m₀ (off (m.get .a0) 0)
    rw [h.a0, off_zero]
    exact .inr ⟨k, hk, .inl rfl⟩
  · show Reads m₀ (off (m.get .a1) 0)
    rw [h.a1, off_zero]
    exact .inr ⟨k, hk, .inr rfl⟩
  have ht0 : (execs (memcmpByte.take 2) m).get .t0 = (m₀.mem (off (m₀.get .a0) k)).setWidth 32 := by
    rw [← hbytea]
    rfl
  have ht1 : (execs (memcmpByte.take 2) m).get .t1 = (m₀.mem (off (m₀.get .a1) k)).setWidth 32 := by
    rw [← hbyteb]
    rfl
  have h' : At m₀ k (execs (memcmpByte.take 2) m) := h.line (by decide) (by decide)
  generalize execs (memcmpByte.take 2) m = m' at ht0 ht1 h' ⊢
  -- a difference ends the comparison, and otherwise one more byte is equal
  refine Leads.bne (fun hne => ?_) fun heq => ?_
  · rw [ht0, ht1, Ne, setWidth_eq_iff] at hne
    refine Leads.line (memcmpDiff.take 1) (by decide) ⟨trivial, trivial⟩ ?_
    refine Leads.ret (h'.saved.execs (by decide)) ⟨h'.mem, result_of_diff hk h.equal hne ?_⟩
    show m'.get .t0 - m'.get .t1 = _
    rw [ht0, ht1]
  · rw [ht0, ht1, not_not, setWidth_eq_iff] at heq
    refine Leads.line ((memcmpByte.drop 3).take 3) (by decide) ⟨trivial, trivial, trivial, trivial⟩ ?_
    have h'' : At m₀ (k + 1) (execs ((memcmpByte.drop 3).take 3) m') := by
      refine h'.advance (by omega) (by decide) (by decide) (by decide) (by decide) (by decide)
        fun i hi => ?_
      obtain rfl : i = 0 := by omega
      exact heq
    exact Leads.bnez (fun _ => hnext _ h'') fun hzero =>
      h''.done (h''.a2_eq_zero_iff.mp (not_not.mp hzero))

/-- The saved registers of `.Lcmp_vec`. -/
def slots : List (Reg × Nat) := [(.s0, 32), (.s1, 36), (.s2, 40), (.ra, 44)]

/-- The slots lie in the frame and apart. -/
theorem slots_fit : SlotsFit 48 slots := ⟨by decide, by decide, by decide, by decide, by decide⟩

/-- The four words at the stack pointer and-ed into `t0`. -/
private theorem execs_andWords (m : Machine) :
    (execs (memcmpReturn.take 7) m).get .t0 = andWords m.mem (m.get .sp) := by
  simp only [memcmpReturn, List.take, execs, List.foldl, Instr.exec, Machine.get_set,
    Machine.mem_set, reduceCtorEq, if_false, if_true, andWords, off_zero]

/-- The words of the mask are read. -/
private theorem readsLine_andWords {R : Addr → Prop} (h : ∀ i < 16, R (off (m.get .sp) i)) :
    ReadsLine R (memcmpReturn.take 7) m := by
  have hword : ∀ o, o + 4 ≤ 16 → ∀ i < 4, R (off (m.get .sp) (o + i)) :=
    fun o ho i hi => h _ (by omega)
  exact ⟨hword 0 (by decide), hword 4 (by decide), trivial, hword 8 (by decide), trivial,
    hword 12 (by decide), trivial, trivial⟩

/-- The pointers and the count are kept in saved registers over the call. -/
theorem execs_arguments (m : Machine) :
    (execs ((memcmpVec.drop 7).take 6) m).get .s0 = m.get .a0 ∧
      (execs ((memcmpVec.drop 7).take 6) m).get .s1 = m.get .a1 ∧
      (execs ((memcmpVec.drop 7).take 6) m).get .s2 = m.get .a2 ∧
      (execs ((memcmpVec.drop 7).take 6) m).get .a0 = m.get .sp ∧
      (execs ((memcmpVec.drop 7).take 6) m).get .a1 = m.get .a0 ∧
      (execs ((memcmpVec.drop 7).take 6) m).get .a2 = m.get .a1 := by
  simp [memcmpVec, execs, Instr.exec]

/-- The three arguments come back from where they were kept. -/
private theorem execs_takeBack (m : Machine) :
    (execs ((memcmpReturn.drop 7).take 3) m).get .a0 = m.get .s0 ∧
      (execs ((memcmpReturn.drop 7).take 3) m).get .a1 = m.get .s1 ∧
      (execs ((memcmpReturn.drop 7).take 3) m).get .a2 = m.get .s2 ∧
      (execs ((memcmpReturn.drop 7).take 3) m).get .t0 = m.get .t0 := by
  simp [memcmpReturn, execs, Instr.exec]

/-- The bytes of a block outside the frame. -/
private theorem block_bytes {mem : Mem} {s : Addr} (hsp : (m₀.get .sp).toNat % 16 = 0)
    (hmem : AgreeOff (m₀.get .sp + -48#32) 48 m₀.mem mem) (halign : (off s k).toNat % 16 = 0)
    (hout : ¬ InFrame (m₀.get .sp + -48#32) 48 (off s k)) (i : Fin 16) :
    loadBlock mem (off s k) i = m₀.mem (off s (k + i)) := by
  rw [hmem.loadBlock (add_aligned hsp (by decide)) (by decide) hout, loadBlock,
    align16_of_aligned halign, off_off]

/-- The bytes of a block agree at both addresses. -/
def BlockEqual (m₀ : Machine) (k : Nat) : Prop :=
  ∀ i < 16, m₀.mem (off (m₀.get .a0) (k + i)) = m₀.mem (off (m₀.get .a1) (k + i))

/-- The machine after the call in a frame of the machine `m`: the arguments are in the
    saved registers, the comparison at the bottom of the frame. -/
structure Compared (m₀ : Machine) (k : Nat) (m m₃ : Machine) : Prop where
  framed : Framed m 48 slots m₃
  s0 : m₃.get .s0 = m.get .a0
  s1 : m₃.get .s1 = m.get .a1
  s2 : m₃.get .s2 = m.get .a2
  mem : AgreeOff (m₀.get .sp + -48#32) 48 m₀.mem m₃.mem
  block : ∀ i (hi : i < 16), m₃.mem (off (m₀.get .sp + -48#32) i) =
    lanesEq (fun j => m₀.mem (off (m₀.get .a0) (k + j))) (fun j => m₀.mem (off (m₀.get .a1) (k + j)))
      ⟨i, hi⟩

/-- `s31_xespv_eq16` is called for the blocks at both addresses. -/
theorem At.call {Q : Config Label → Prop} (h : At m₀ k m) (hlayout : Layout addr)
    (hsp : (m₀.get .sp).toNat % 16 = 0) (hout : Outside m₀) (hk : k + 16 ≤ (m₀.get .a2).toNat)
    (halign : (off (m₀.get .a0) k).toNat % 16 = 0) (halign' : (off (m₀.get .a1) k).toNat % 16 = 0)
    (hnext : ∀ m₃, Compared m₀ k m m₃ → Leads (memopsAt addr) (Reads m₀) Q
      ⟨.run (memopsCode .memcmpReturn), m₃⟩) :
    Leads (memopsAt addr) (Reads m₀) Q
      ⟨.run (memcmpVec.drop 2 ++ (memcmpReturn ++ memcmpDiff)), m⟩ := by
  have hsp₀ : m.get .sp = m₀.get .sp := h.saved .sp (by decide)
  obtain ⟨houta, houtb⟩ := hout k (by omega)
  refine Leads.line (enterFrame 48 slots) isJump_enterFrame (readsLine_enterFrame _ _) ?_
  have hframed := Framed.enter slots_fit m
  have hagree := enterFrame_agreeOff slots_fit m
  have hget : ∀ {r : Reg}, r ≠ .sp → (execs (enterFrame 48 slots) m).get r = m.get r := fun hr =>
    enterFrame_get hr m
  have ha0 : (execs (enterFrame 48 slots) m).get .a0 = m.get .a0 := hget (by decide)
  have ha1 : (execs (enterFrame 48 slots) m).get .a1 = m.get .a1 := hget (by decide)
  have ha2 : (execs (enterFrame 48 slots) m).get .a2 = m.get .a2 := hget (by decide)
  generalize execs (enterFrame 48 slots) m = m₁ at hframed hagree ha0 ha1 ha2 ⊢
  rw [hsp₀] at hagree
  -- the arguments of the call
  refine Leads.line ((memcmpVec.drop 7).take 6) (by decide)
    ⟨trivial, trivial, trivial, trivial, trivial, trivial, trivial⟩ ?_
  obtain ⟨hs0, hs1, hs2, harg0, harg1, harg2⟩ := execs_arguments m₁
  have hframed₂ : Framed m 48 slots (execs ((memcmpVec.drop 7).take 6) m₁) :=
    hframed.line (by decide) (by decide) (by decide)
  have hmem₂ : (execs ((memcmpVec.drop 7).take 6) m₁).mem = m₁.mem := execs_mem (by decide) m₁
  generalize execs ((memcmpVec.drop 7).take 6) m₁ = m₂ at hs0 hs1 hs2 harg0 harg1 harg2 hframed₂ hmem₂ ⊢
  rw [ha0] at hs0 harg1
  rw [ha1] at hs1 harg2
  rw [ha2] at hs2
  rw [hframed.sp, hsp₀] at harg0
  rw [h.a0] at harg1
  rw [h.a1] at harg2
  have hset : ∀ {r : Reg}, r ≠ .ra → (m₂.set .ra (addr .memcmpReturn)).get r = m₂.get r := fun hr =>
    Machine.get_set_of_ne _ _ hr
  have hc0 : (m₂.set .ra (addr .memcmpReturn)).get .a0 = m₀.get .sp + -48#32 :=
    (hset (by decide)).trans harg0
  have hc1 : (m₂.set .ra (addr .memcmpReturn)).get .a1 = off (m₀.get .a0) k :=
    (hset (by decide)).trans harg1
  have hc2 : (m₂.set .ra (addr .memcmpReturn)).get .a2 = off (m₀.get .a1) k :=
    (hset (by decide)).trans harg2
  have hcall : (m₂.set .ra (addr .memcmpReturn)).mem = m₁.mem := by rw [Machine.mem_set, hmem₂]
  have hread : ∀ {s : Addr}, (off s k).toNat % 16 = 0 → (∀ i < (m₀.get .a2).toNat, Reads m₀ (off s i)) →
      ∀ i < 16, Reads m₀ (off (align16 (off s k)) i) := by
    intro s hs hr i hi
    rw [align16_of_aligned hs, off_off]
    exact hr _ (by omega)
  refine Leads.call_returns hlayout (by decide) (eq16_returns addr _ ?_ ?_) fun m₃ hsaved hpost => ?_
  · rw [hc1]
    exact hread halign fun i hi => .inr ⟨i, hi, .inl rfl⟩
  · rw [hc2]
    exact hread halign' fun i hi => .inr ⟨i, hi, .inr rfl⟩
  -- the comparison is at the bottom of the frame, the saved registers are above it
  have hf : (m₀.get .sp + -48#32).toNat % 16 = 0 := add_aligned hsp (by decide)
  rw [StoresEq16, hcall, hc0, hc1, hc2] at hpost
  have hagree₁ : AgreeOff (m₀.get .sp + -48#32) 48 m₀.mem m₁.mem := h.mem.trans hagree
  have hkept : ∀ {r : Reg}, r ∈ savedRegs → r ≠ .ra → m₃.get r = m₂.get r := fun hr hne =>
    (hsaved _ hr).trans (hset hne)
  apply hnext m₃
  exact {
    framed := by
      refine hframed₂.call (by decide) hsaved fun s hs i hi => ?_
      have hlow : 32 ≤ s.2 ∧ s.2 + 4 ≤ 48 := by
        revert s
        decide
      rw [hpost, hmem₂, hsp₀, storeBlock_other]
      generalize m₀.get .sp + -48#32 = f at hf
      rw [off_toNat]
      have := f.isLt
      omega
    s0 := (hkept (by decide) (by decide)).trans hs0
    s1 := (hkept (by decide) (by decide)).trans hs1
    s2 := (hkept (by decide) (by decide)).trans hs2
    mem := by
      rw [hpost]
      exact hagree₁.trans (AgreeOff.storeBlock _ hf (by decide) (inFrame_base (by decide)))
    block := by
      intro i hi
      rw [hpost, storeBlock_same _ _ hf hi, funext (block_bytes hsp hagree₁ halign houta),
        funext (block_bytes hsp hagree₁ halign' houtb)] }

/-- The machine after the test of a block: all as before but for `t0`. -/
structure Tested (m₀ : Machine) (k : Nat) (m : Machine) : Prop where
  here : At m₀ k m
  t0 : m.get .t0 = 0xffffffff#32 ↔ BlockEqual m₀ k

/-- The comparison is reduced to one word and the frame is left. -/
theorem Compared.resume {m₃ : Machine} {Q : Config Label → Prop} (hc : Compared m₀ k m m₃)
    (h : At m₀ k m)
    (hnext : ∀ m', Tested m₀ k m' → Leads (memopsAt addr) (Reads m₀) Q
      ⟨.run (memcmpReturn.drop 15 ++ memcmpDiff), m'⟩) :
    Leads (memopsAt addr) (Reads m₀) Q ⟨.run (memopsCode .memcmpReturn), m₃⟩ := by
  have hsp₀ : m.get .sp = m₀.get .sp := h.saved .sp (by decide)
  have hsp₃ : m₃.get .sp = m₀.get .sp + -48#32 := hc.framed.sp.trans (by rw [hsp₀])
  have hframe : ∀ i < 48, Reads m₀ (off (m₀.get .sp + -48#32) i) :=
    fun i hi => .inl (inFrame_off hi (by decide))
  refine Leads.line (memcmpReturn.take 7) (by decide) (readsLine_andWords ?_) ?_
  · intro i hi
    rw [hsp₃]
    exact hframe i (by omega)
  have ht0 : (execs (memcmpReturn.take 7) m₃).get .t0 = 0xffffffff#32 ↔ BlockEqual m₀ k := by
    rw [execs_andWords, hsp₃, andWords_lanesEq hc.block]
    exact ⟨fun heq i hi => heq ⟨i, hi⟩, fun heq i => heq i i.isLt⟩
  have hframed₄ : Framed m 48 slots (execs (memcmpReturn.take 7) m₃) :=
    hc.framed.line (by decide) (by decide) (by decide)
  have hmem₄ : (execs (memcmpReturn.take 7) m₃).mem = m₃.mem := execs_mem (by decide) m₃
  have hs0 : (execs (memcmpReturn.take 7) m₃).get .s0 = m.get .a0 :=
    (execs_get (by decide) m₃).trans hc.s0
  have hs1 : (execs (memcmpReturn.take 7) m₃).get .s1 = m.get .a1 :=
    (execs_get (by decide) m₃).trans hc.s1
  have hs2 : (execs (memcmpReturn.take 7) m₃).get .s2 = m.get .a2 :=
    (execs_get (by decide) m₃).trans hc.s2
  generalize execs (memcmpReturn.take 7) m₃ = m₄ at ht0 hframed₄ hmem₄ hs0 hs1 hs2 ⊢
  -- the arguments are taken back
  refine Leads.line ((memcmpReturn.drop 7).take 3) (by decide) ⟨trivial, trivial, trivial, trivial⟩ ?_
  obtain ⟨ha0, ha1, ha2, ht0'⟩ := execs_takeBack m₄
  have hframed₅ : Framed m 48 slots (execs ((memcmpReturn.drop 7).take 3) m₄) :=
    hframed₄.line (by decide) (by decide) (by decide)
  have hmem₅ : (execs ((memcmpReturn.drop 7).take 3) m₄).mem = m₃.mem :=
    (execs_mem (by decide) m₄).trans hmem₄
  generalize execs ((memcmpReturn.drop 7).take 3) m₄ = m₅ at ha0 ha1 ha2 ht0' hframed₅ hmem₅ ⊢
  rw [← ht0'] at ht0
  rw [hs0] at ha0
  rw [hs1] at ha1
  rw [hs2] at ha2
  -- the frame is left
  refine Leads.line (leaveFrame 48 slots) isJump_leaveFrame
    (hframed₅.reads_leave slots_fit (.refl _) ?_) ?_
  · rw [hsp₀]
    exact hframe
  have hget : ∀ {r : Reg}, r ∉ .sp :: slots.map Prod.fst →
      (execs (leaveFrame 48 slots) m₅).get r = m₅.get r := fun hr => leaveFrame_get hr m₅
  have hsaved := hframed₅.restored slots_fit (.refl _)
  apply hnext
  exact {
    here := {
      a0 := ((hget (by decide)).trans ha0).trans h.a0
      a1 := ((hget (by decide)).trans ha1).trans h.a1
      a2 := by
        rw [hget (by decide), ha2]
        exact h.a2
      mem := by
        rw [leaveFrame_mem, hmem₅]
        exact hc.mem
      saved := fun r hr => (hsaved r hr).trans (h.saved r hr)
      equal := h.equal }
    t0 := by
      rw [hget (by decide)]
      exact ht0 }

section

variable (hlayout : Layout addr) (hsp : (m₀.get .sp).toNat % 16 = 0) (hout : Outside m₀)

include hlayout hsp hout in
/-- A block is compared if enough bytes are left; one with a difference is compared again
    byte by byte. -/
theorem At.vec (h : At m₀ k m) (halign : (off (m₀.get .a0) k).toNat % 16 = 0)
    (halign' : (off (m₀.get .a1) k).toNat % 16 = 0)
    (hbyte : ∀ m', At m₀ k m' → Compares addr m₀ ⟨.run (memopsCode .LcmpByte), m'⟩)
    (hnext : ∀ m', At m₀ (k + 16) m' → Compares addr m₀ ⟨.run (memopsCode .LcmpAlign), m'⟩) :
    Compares addr m₀ ⟨.run (memopsCode .LcmpVec), m⟩ := by
  refine Leads.line (memcmpVec.take 1) (by decide) ⟨trivial, trivial⟩ ?_
  have h' : At m₀ k (execs (memcmpVec.take 1) m) := h.line (by decide) (by decide)
  have ht0 : (execs (memcmpVec.take 1) m).get .t0 = 16 := rfl
  generalize execs (memcmpVec.take 1) m = m₁ at h' ht0 ⊢
  refine Leads.bltu (fun _ => hbyte _ h') fun hge => ?_
  rw [ht0, BitVec.not_lt, BitVec.le_def, h'.a2] at hge
  -- a whole block is left
  have hk : k + 16 ≤ (m₀.get .a2).toNat := by
    have h16 : (16 : BitVec 32).toNat = 16 := rfl
    omega
  refine h'.call hlayout hsp hout hk halign halign' fun m₃ hc => hc.resume h' fun m₂ ht => ?_
  -- the word of the comparison against all ones
  refine Leads.line ((memcmpReturn.drop 15).take 1) (by decide) ⟨trivial, trivial⟩ ?_
  have h₃ : At m₀ k (execs ((memcmpReturn.drop 15).take 1) m₂) := ht.here.line (by decide) (by decide)
  have ht₀ : (execs ((memcmpReturn.drop 15).take 1) m₂).get .t0 = m₂.get .t0 :=
    execs_get (by decide) m₂
  have ht₁ : (execs ((memcmpReturn.drop 15).take 1) m₂).get .t1 = 0xffffffff#32 := rfl
  generalize execs ((memcmpReturn.drop 15).take 1) m₂ = m₄ at h₃ ht₀ ht₁ ⊢
  refine Leads.bne (fun _ => hbyte _ h₃) fun heq => ?_
  rw [ht₀, ht₁, not_not, ht.t0] at heq
  refine Leads.line ((memcmpReturn.drop 17).take 3) (by decide)
    ⟨trivial, trivial, trivial, trivial⟩ (.j (hnext _ ?_))
  exact h₃.advance hk (by decide) (by decide) (by decide) (by decide) (by decide) heq

include hlayout hsp hout in
/-- From the test of the alignment the comparison gets to its end: every round compares a
    pair or a block. -/
theorem At.align (h : At m₀ k m) : Compares addr m₀ ⟨.run (memopsCode .LcmpAlign), m⟩ := by
  induction hleft : (m₀.get .a2).toNat - k using Nat.strong_induction_on generalizing k m with
  | _ left ih =>
    refine Leads.beqz (fun hzero => h.done (h.a2_eq_zero_iff.mp hzero)) fun hne => ?_
    have hk : k < (m₀.get .a2).toNat := Nat.lt_of_not_le fun hle => hne (h.a2_eq_zero_iff.mpr hle)
    -- the block loop comes back here too, with more compared
    have hbyte : ∀ m', At m₀ k m' → Compares addr m₀ ⟨.run (memopsCode .LcmpByte), m'⟩ :=
      fun m' h' => h'.byte hout hk fun m'' h'' => ih _ (by omega) h'' rfl
    refine Leads.line ((memcmpAlign.drop 1).take 2) (by decide) ⟨trivial, trivial, trivial⟩ ?_
    have h' : At m₀ k (execs ((memcmpAlign.drop 1).take 2) m) := h.line (by decide) (by decide)
    have ht0 : (execs ((memcmpAlign.drop 1).take 2) m).get .t0 =
        (m.get .a0 ||| m.get .a1) &&& 15#32 := rfl
    generalize execs ((memcmpAlign.drop 1).take 2) m = m₁ at h' ht0 ⊢
    refine Leads.beqz (fun hzero => ?_) fun _ => hbyte _ h'
    rw [ht0, h.a0, h.a1] at hzero
    obtain ⟨halign, halign'⟩ := (or_and_15_eq_zero_iff _ _).mp hzero
    exact h'.vec hlayout hsp hout halign halign' hbyte fun m'' h'' => ih _ (by omega) h'' rfl

include hlayout hsp hout in
/-- `memcmp` compares the two ranges, for all lengths and alignments. -/
theorem memcmp_compares : Compares addr m₀ ⟨.run (memopsCode .s31XespvMemcmp), m₀⟩ :=
  At.align hlayout hsp hout {
    a0 := (off_zero _).symm
    a1 := (off_zero _).symm
    a2 := rfl
    mem := AgreeOff.refl _ _ _
    saved := Saved.refl m₀
    equal := fun i hi => absurd hi (Nat.not_lt_zero i) }

end

/-- Two ranges whose 20th bytes differ. -/
def memcmpCall : Machine :=
  called 0x1000 0x1100 40 0 0x8000 fun x => if x = 0x1113 then 7 else 1

/-- Two ranges that differ in their twentieth byte. -/
theorem memcmp_compares_differ :
    Compares sampleAddr memcmpCall ⟨.run (memopsCode .s31XespvMemcmp), memcmpCall⟩ ∧
      EqualBelow memcmpCall 19 ∧ ¬ EqualBelow memcmpCall 20 := by
  refine ⟨memcmp_compares sampleAddr_layout (by decide) ?_, ?_, fun heq => ?_⟩
  · show ∀ i < 40, _
    decide +kernel
  · show ∀ i < 19, _
    decide +kernel
  · exact absurd (heq 19 (by decide)) (by decide)

end

end Memcmp

end EspS31.Xespv
