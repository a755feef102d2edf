import EspS31.Spec.CopyCorrect

/-!
# The saturating add and its scalar loop

`s31_xespv_add_sat_u8` adds whole blocks when all three pointers are at a block boundary,
and reads 16 bytes of both inputs before it writes any.  The scalar loop in
`esp_simd_add_sat_u8` goes byte by byte.  The ranges may overlap in any way: blocks at
block boundaries either coincide or have no byte in common.

## Key results

- `espSimdAddSat_block`: sixteen rounds of the scalar loop on blocks
- `add_sat_u8_scalar`: the routine leaves memory as the scalar loop does
-/

namespace EspS31.Xespv

open ByteMem

/-! ## The scalar loop -/

/-- `unsigned int sum = lhs[i] + rhs[i]; sum > UINT8_MAX ? UINT8_MAX : sum` -/
def addSatByte (x y : Byte) : Byte :=
  let sum := x.toNat + y.toNat
  if sum > 255 then 255 else BitVec.ofNat 8 sum

/-- The first `n` rounds of the scalar loop in `esp_simd_add_sat_u8`, each with the bytes
    written by those before it. -/
def espSimdAddSat (out lhs rhs : Addr) (mem : Mem) : Nat → Mem
  | 0 => mem
  | i + 1 =>
    let mem' := espSimdAddSat out lhs rhs mem i
    Function.update mem' (off out i) (addSatByte (mem' (off lhs i)) (mem' (off rhs i)))

/-- The sum of two bytes, cut at 255. -/
private theorem addSatByte_eq_min (x y : Byte) :
    BitVec.ofNat 8 (min 255 (x.toNat + y.toNat)) = addSatByte x y := by
  simp only [addSatByte]
  split
  · next hgt =>
    rw [Nat.min_eq_left (Nat.le_of_lt hgt)]
    rfl
  · next hle => rw [Nat.min_eq_right (Nat.le_of_not_lt hle)]

section

variable {out lhs rhs : Addr} {mem : Mem} {k : Nat}

/-- A byte of a block is not one of the bytes before it in a block at another boundary. -/
private theorem off_ne_of_aligned {s : Addr} {i j : Nat} (hd : (off out k).toNat % 16 = 0)
    (hs : (off s k).toNat % 16 = 0) (hij : i < j) (hj : j < 16) :
    off out (k + i) ≠ off s (k + j) := by
  intro heq
  have hnat := congrArg BitVec.toNat heq
  rw [← off_off, ← off_off, off_toNat (off out k), off_toNat (off s k)] at hnat
  have := (off out k).isLt
  have := (off s k).isLt
  omega

/-- Rounds of the scalar loop within a block read what was there before the block. -/
theorem espSimdAddSat_block {j : Nat} (hk : k + 16 ≤ 2 ^ 32) (hj : j ≤ 16)
    (hd : (off out k).toNat % 16 = 0) (hl : (off lhs k).toNat % 16 = 0)
    (hr : (off rhs k).toNat % 16 = 0) :
    espSimdAddSat out lhs rhs mem (k + j) =
      overwrite (espSimdAddSat out lhs rhs mem k) out k (k + j) fun i =>
        addSatByte (espSimdAddSat out lhs rhs mem k (off lhs i))
          (espSimdAddSat out lhs rhs mem k (off rhs i)) := by
  induction j with
  | zero => rw [Nat.add_zero, overwrite_empty]
  | succ j ih =>
    -- the round's own inputs have not been written in this block
    have hread : ∀ {s : Addr} {f : Nat → Byte}, (off s k).toNat % 16 = 0 →
        overwrite (espSimdAddSat out lhs rhs mem k) out k (k + j) f (off s (k + j)) =
          espSimdAddSat out lhs rhs mem k (off s (k + j)) := by
      intro s f hs
      refine overwrite_of_not_mem fun hin => ?_
      refine off_ne_of_aligned hd hs (i := (off s (k + j) - out).toNat - k) (j := j) (by omega)
        (by omega) ?_
      rw [Nat.add_sub_cancel' hin.1, off_toNat_sub]
    rw [← Nat.add_assoc, espSimdAddSat, ih (by omega), hread hl, hread hr]
    exact update_overwrite_up (by omega) (by omega) rfl

/-- A block of sums stored at once. -/
private theorem storeBlock_lanesAddSat (hk : k + 16 ≤ 2 ^ 32) (hd : (off out k).toNat % 16 = 0)
    (hl : (off lhs k).toNat % 16 = 0) (hr : (off rhs k).toNat % 16 = 0) :
    storeBlock (espSimdAddSat out lhs rhs mem k) (off out k)
        (lanesAddSat (loadBlock (espSimdAddSat out lhs rhs mem k) (off lhs k))
          (loadBlock (espSimdAddSat out lhs rhs mem k) (off rhs k))) =
      espSimdAddSat out lhs rhs mem (k + 16) := by
  rw [espSimdAddSat_block hk le_rfl hd hl hr]
  apply storeBlock_eq_overwrite _ _ hd hk
  intro i
  rw [lanesAddSat, addSatByte_eq_min, loadBlock, loadBlock, align16_of_aligned hl,
    align16_of_aligned hr, off_off, off_off]

end

/-! ## `s31_xespv_add_sat_u8` -/

namespace AddSat

/-- The memory the scalar loop leaves after `k` rounds. -/
def scalar (m₀ : Machine) (k : Nat) : Mem :=
  espSimdAddSat (m₀.get .a0) (m₀.get .a1) (m₀.get .a2) m₀.mem k

/-- `k` bytes have been added. -/
structure At (m₀ : Machine) (k : Nat) (m : Machine) : Prop where
  a0 : m.get .a0 = off (m₀.get .a0) k
  a1 : m.get .a1 = off (m₀.get .a1) k
  a2 : m.get .a2 = off (m₀.get .a2) k
  a3 : (m.get .a3).toNat = (m₀.get .a3).toNat - k
  mem : m.mem = scalar m₀ k
  saved : Saved m₀ m

section

variable {m₀ m : Machine} {k : Nat} {addr : Label → Addr}

/-- Instructions that write neither these registers nor memory keep the state. -/
theorem At.line {ops : Code} (h : At m₀ k m)
    (hregs : ∀ r ∈ [Reg.a0, .a1, .a2, .a3] ++ savedRegs, ∀ i ∈ ops, i.dest ≠ some r)
    (hmem : ∀ i ∈ ops, i.isStore = false) : At m₀ k (execs ops m) where
  a0 := (execs_get (hregs .a0 (by simp)) m).trans h.a0
  a1 := (execs_get (hregs .a1 (by simp)) m).trans h.a1
  a2 := (execs_get (hregs .a2 (by simp)) m).trans h.a2
  a3 := (congrArg _ (execs_get (hregs .a3 (by simp)) m)).trans h.a3
  mem := (execs_mem hmem m).trans h.mem
  saved := h.saved.execs fun r hr => hregs r (List.mem_append_right _ hr)

/-- A round that adds `j` bytes. -/
theorem At.round {ops : Code} {j : Nat} (h : At m₀ k m) (hj : k + j ≤ (m₀.get .a3).toNat)
    (ha0 : bumps .a0 ops = some (BitVec.ofNat 32 j))
    (ha1 : bumps .a1 ops = some (BitVec.ofNat 32 j))
    (ha2 : bumps .a2 ops = some (BitVec.ofNat 32 j))
    (ha3 : bumps .a3 ops = some (-BitVec.ofNat 32 j))
    (hregs : ∀ r ∈ savedRegs, ∀ i ∈ ops, i.dest ≠ some r)
    (hmem : (execs ops m).mem = scalar m₀ (k + j)) : At m₀ (k + j) (execs ops m) where
  a0 := by rw [execs_bumps (by decide) ha0, h.a0, off_add]
  a1 := by rw [execs_bumps (by decide) ha1, h.a1, off_add]
  a2 := by rw [execs_bumps (by decide) ha2, h.a2, off_add]
  a3 := by
    rw [execs_bumps (by decide) ha3, toNat_add_neg (by rw [h.a3]; omega), h.a3]
    omega
  mem := hmem
  saved := h.saved.execs hregs

/-- The count is zero exactly when all is added. -/
theorem At.a3_eq_zero_iff (h : At m₀ k m) : m.get .a3 = 0 ↔ (m₀.get .a3).toNat ≤ k := by
  rw [← BitVec.toNat_inj, h.a3, BitVec.ofNat_eq_ofNat, BitVec.toNat_zero]
  omega

/-- The sum of two bytes in `t0`, and whether it fits a byte in `t1`. -/
theorem At.sum (h : At m₀ k m) :
    (execs ((addSatU8Byte.drop 1).take 4) m).get .t0 =
        BitVec.ofNat 32 ((scalar m₀ k (off (m₀.get .a1) k)).toNat +
          (scalar m₀ k (off (m₀.get .a2) k)).toNat) ∧
      ((execs ((addSatU8Byte.drop 1).take 4) m).get .t1 ≠ 0 ↔
        (scalar m₀ k (off (m₀.get .a1) k)).toNat + (scalar m₀ k (off (m₀.get .a2) k)).toNat ≤ 255) := by
  -- the two bytes loaded are those of the scalar loop
  have hsum : (m.mem (off (m.get .a1) 0)).setWidth 32 + (m.mem (off (m.get .a2) 0)).setWidth 32 =
      BitVec.ofNat 32 ((scalar m₀ k (off (m₀.get .a1) k)).toNat +
        (scalar m₀ k (off (m₀.get .a2) k)).toNat) := by
    rw [h.a1, h.a2, off_zero, off_zero, h.mem, BitVec.ofNat_add, BitVec.ofNat_toNat,
      BitVec.ofNat_toNat]
  have hx := (scalar m₀ k (off (m₀.get .a1) k)).isLt
  have hy := (scalar m₀ k (off (m₀.get .a2) k)).isLt
  constructor
  · rw [← hsum]
    rfl
  · have ht1 : (execs ((addSatU8Byte.drop 1).take 4) m).get .t1 =
        if (m.mem (off (m.get .a1) 0)).setWidth 32 + (m.mem (off (m.get .a2) 0)).setWidth 32 < 256
        then 1 else 0 := rfl
    rw [ht1, hsum]
    -- the sum of two bytes does not wrap in a register, so the test is that of the bytes
    have hlt : BitVec.ofNat 32 ((scalar m₀ k (off (m₀.get .a1) k)).toNat +
        (scalar m₀ k (off (m₀.get .a2) k)).toNat) < 256 ↔
        (scalar m₀ k (off (m₀.get .a1) k)).toNat + (scalar m₀ k (off (m₀.get .a2) k)).toNat ≤ 255 := by
      rw [BitVec.lt_def, BitVec.toNat_ofNat, show (256 : BitVec 32).toNat = 256 from rfl]
      omega
    rw [← hlt]
    split
    · next hfits => exact iff_of_true (by decide) hfits
    · next hover => exact iff_of_false (by decide) hover

/-- The sum is stored and the loop goes on. -/
theorem At.store {v : Byte} (h : At m₀ k m) (hk : k < (m₀.get .a3).toNat)
    (ht0 : (m.get .t0).setWidth 8 = v)
    (hv : v = addSatByte (scalar m₀ k (off (m₀.get .a1) k)) (scalar m₀ k (off (m₀.get .a2) k))) :
    At m₀ (k + 1) (execs (addSatU8Store.take 5) m) := by
  apply h.round hk (by decide) (by decide) (by decide) (by decide) (by decide)
  show Function.update m.mem (off (m.get .a0) 0) ((m.get .t0).setWidth 8) = _
  rw [h.a0, off_zero, ht0, hv, h.mem]
  rfl

/-- The loop over bytes, by induction on what is left. -/
theorem At.byte (h : At m₀ k m) (hk : k ≤ (m₀.get .a3).toNat) :
    Returns addr m₀ (fun m' => m'.mem = scalar m₀ (m₀.get .a3).toNat)
      ⟨.run (memopsCode .LvaByte), m⟩ := by
  -- induction on the bytes left
  induction hleft : (m₀.get .a3).toNat - k generalizing k m with
  | zero =>
    obtain rfl : k = (m₀.get .a3).toNat := by omega
    refine Leads.beqz (fun _ => Leads.ret h.saved h.mem) fun hne => ?_
    exact absurd (h.a3_eq_zero_iff.mpr le_rfl) hne
  | succ left ih =>
    have hlt : k < (m₀.get .a3).toNat := by omega
    refine Leads.beqz (fun hzero => absurd (h.a3_eq_zero_iff.mp hzero) (by omega)) fun _ => ?_
    obtain ⟨ht0, ht1⟩ := h.sum
    refine Leads.line ((addSatU8Byte.drop 1).take 4) (by decide) (readsLine_anywhere ..) ?_
    have h' : At m₀ k (execs ((addSatU8Byte.drop 1).take 4) m) := h.line (by decide) (by decide)
    generalize execs ((addSatU8Byte.drop 1).take 4) m = m₁ at ht0 ht1 h' ⊢
    -- either way the byte is stored and the loop goes on
    have hnext : ∀ {m₂ : Machine} {v : Byte}, At m₀ k m₂ → (m₂.get .t0).setWidth 8 = v →
        v = addSatByte (scalar m₀ k (off (m₀.get .a1) k)) (scalar m₀ k (off (m₀.get .a2) k)) →
        Returns addr m₀ (fun m' => m'.mem = scalar m₀ (m₀.get .a3).toNat)
          ⟨.run (memopsCode .LvaStore), m₂⟩ := by
      intro m₂ v h₂ hv heq
      refine Leads.line (addSatU8Store.take 5) (by decide) (readsLine_anywhere ..) (.j ?_)
      exact ih (h₂.store hlt hv heq) hlt (by omega)
    refine Leads.bnez (fun hfits => hnext h' rfl ?_) fun hover => ?_
    · rw [ht0, addSatByte, if_neg (Nat.not_lt_of_le (ht1.mp hfits)), BitVec.setWidth_ofNat_of_le (by decide)]
    · refine Leads.line ((addSatU8Byte.drop 6).take 1) (by decide) (readsLine_anywhere ..) ?_
      refine hnext (h'.line (by decide) (by decide)) rfl ?_
      rw [addSatByte, if_pos (Nat.lt_of_not_le fun hle => hover (ht1.mpr hle))]
      rfl

/-- Blocks are added while all pointers are at a block boundary and 16 bytes are left. -/
theorem At.vec (h : At m₀ k m) (hk : k ≤ (m₀.get .a3).toNat)
    (hd : (off (m₀.get .a0) k).toNat % 16 = 0) (hl : (off (m₀.get .a1) k).toNat % 16 = 0)
    (hr : (off (m₀.get .a2) k).toNat % 16 = 0) :
    Returns addr m₀ (fun m' => m'.mem = scalar m₀ (m₀.get .a3).toNat)
      ⟨.run (memopsCode .LvaVec), m⟩ := by
  induction hleft : (m₀.get .a3).toNat - k using Nat.strong_induction_on generalizing k m with
  | _ left ih =>
    have hn := (m₀.get .a3).isLt
    refine Leads.line (addSatU8Vec.take 1) (by decide) (readsLine_anywhere ..) ?_
    have h₁ : At m₀ k (execs (addSatU8Vec.take 1) m) := h.line (by decide) (by decide)
    have ht0 : (execs (addSatU8Vec.take 1) m).get .t0 = 16 := rfl
    generalize execs (addSatU8Vec.take 1) m = m₁ at h₁ ht0 ⊢
    refine Leads.bltu (fun _ => h₁.byte hk) fun hge => ?_
    rw [ht0, BitVec.not_lt, BitVec.le_def, h₁.a3, show (16 : BitVec 32).toNat = 16 from rfl] at hge
    refine Leads.line ((addSatU8Vec.drop 2).take 5) (by decide) (readsLine_anywhere ..) (.j ?_)
    -- one block is the next sixteen rounds of the scalar loop
    have h₂ : At m₀ (k + 16) (execs ((addSatU8Vec.drop 2).take 5) m₁) := by
      apply h₁.round (by omega) (by decide) (by decide) (by decide) (by decide) (by decide)
      show storeBlock m₁.mem (m₁.get .a0)
        (lanesAddSat (loadBlock m₁.mem (m₁.get .a1)) (loadBlock m₁.mem (m₁.get .a2))) = _
      rw [h₁.a0, h₁.a1, h₁.a2, h₁.mem]
      exact storeBlock_lanesAddSat (by omega) hd hl hr
    exact ih _ (by omega) h₂ (by omega) (off_add_aligned (by decide) hd)
      (off_add_aligned (by decide) hl) (off_add_aligned (by decide) hr) rfl

end

end AddSat

/-- `s31_xespv_add_sat_u8` leaves memory as the scalar loop does, for all pointers, counts
    and overlaps. -/
theorem add_sat_u8_scalar (addr : Label → Addr) (m₀ : Machine) :
    Returns addr m₀
      (fun m => m.mem = espSimdAddSat (m₀.get .a0) (m₀.get .a1) (m₀.get .a2) m₀.mem
        (m₀.get .a3).toNat)
      ⟨.run (memopsCode .s31XespvAddSatU8), m₀⟩ := by
  have h₀ : AddSat.At m₀ 0 m₀ :=
    ⟨(off_zero _).symm, (off_zero _).symm, (off_zero _).symm, rfl, rfl, Saved.refl m₀⟩
  refine Leads.line (addSatU8Entry.take 3) (by decide) (readsLine_anywhere ..) ?_
  have h : AddSat.At m₀ 0 (execs (addSatU8Entry.take 3) m₀) := h₀.line (by decide) (by decide)
  have ht0 : (execs (addSatU8Entry.take 3) m₀).get .t0 =
      (m₀.get .a0 ||| m₀.get .a1 ||| m₀.get .a2) &&& 15#32 := rfl
  generalize execs (addSatU8Entry.take 3) m₀ = m₁ at h ht0 ⊢
  refine Leads.bnez (fun _ => h.byte (Nat.zero_le _)) fun hzero => ?_
  -- no pointer has low bits
  rw [ht0, not_not] at hzero
  obtain ⟨hor, hr⟩ := (or_and_15_eq_zero_iff _ _).mp hzero
  obtain ⟨hd, hl⟩ := (or_and_15_eq_zero_iff _ _).mp ((and_15_eq_zero_iff _).mpr hor)
  apply h.vec (Nat.zero_le _)
  · rwa [off_zero]
  · rwa [off_zero]
  · rwa [off_zero]

/-- Overlapping ranges off the block boundaries: the second sum is of the first one. -/
example : espSimdAddSat 1 0 0 (fun x => if x = 0 then 100 else 7) 2 2 = 255 := by decide

end EspS31.Xespv
