import EspS31.Spec.XespvRuns

/-!
# Correctness of `s31_xespv_memcpy`, `s31_xespv_memmove` and `s31_xespv_memset`

Each routine goes through up to four loops, over 64 bytes, 16 bytes, words and single
bytes.  All of them keep one invariant: a part of the destination, at its lower end or
for the backward copy at its upper one, is written and the rest of memory is as it was.

## Key results

- `memcpy_copied`, `memmove_copied`, `memset_filled`: what each routine leaves behind
- `memmove_memcpy_memset`: the three routines against their C functions
-/

namespace EspS31.Xespv

open ByteMem

/-! ## Copying upwards -/

/-- A copy from `s` up to `d`, byte by byte, never reads a byte that it has written. -/
def Ahead (d s : Addr) (n : Nat) : Prop := ∀ i j, i < j → j < n → off d i ≠ off s j

/-- The source is as it was from the position of the copy on. -/
theorem Ahead.source {d s : Addr} {n k j : Nat} (h : Ahead d s n) {mem : Mem} {f : Nat → Byte}
    (hkj : k ≤ j) (hj : j < n) : overwrite mem d 0 k f (off s j) = mem (off s j) := by
  refine overwrite_of_not_mem fun hin => ?_
  -- the byte would be one of the first `k` of the destination
  refine h (off s j - d).toNat j (by omega) hj ?_
  rw [off_toNat_sub]

/-- The machine of `s31_xespv_memcpy` with `k` bytes copied. -/
structure CopyAt (m₀ : Machine) (k : Nat) (m : Machine) : Prop where
  a0 : m.get .a0 = off (m₀.get .a0) k
  a1 : m.get .a1 = off (m₀.get .a1) k
  a2 : (m.get .a2).toNat = (m₀.get .a2).toNat - k
  t6 : m.get .t6 = m₀.get .a0
  mem : m.mem = overwrite m₀.mem (m₀.get .a0) 0 k fun i => m₀.mem (off (m₀.get .a1) i)
  saved : Saved m₀ m

section

variable {m₀ m : Machine} {k : Nat}

/-- The source blocks still to be copied. -/
theorem CopyAt.sourceBlock (h : CopyAt m₀ k m)
    (hahead : Ahead (m₀.get .a0) (m₀.get .a1) (m₀.get .a2).toNat) {j : Nat} (hkj : k ≤ j)
    (hj : j + 16 ≤ (m₀.get .a2).toNat) (hs : (off (m₀.get .a1) j).toNat % 16 = 0) (i : Fin 16) :
    loadBlock m.mem (off (m₀.get .a1) j) i = m₀.mem (off (m₀.get .a1) (j + i)) := by
  rw [loadBlock, align16_of_aligned hs, off_off, h.mem]
  exact hahead.source (by omega) (by omega)

/-- A round moves both pointers on and takes its bytes off the count. -/
theorem CopyAt.round {ops : Code} {j : Nat} (h : CopyAt m₀ k m)
    (hj : k + j ≤ (m₀.get .a2).toNat)
    (ha0 : bumps .a0 ops = some (BitVec.ofNat 32 j))
    (ha1 : bumps .a1 ops = some (BitVec.ofNat 32 j))
    (ha2 : bumps .a2 ops = some (-BitVec.ofNat 32 j))
    (hregs : ∀ r ∈ Reg.t6 :: savedRegs, ∀ i ∈ ops, i.dest ≠ some r)
    (hmem : (execs ops m).mem =
      overwrite m₀.mem (m₀.get .a0) 0 (k + j) fun i => m₀.mem (off (m₀.get .a1) i)) :
    CopyAt m₀ (k + j) (execs ops m) where
  a0 := by rw [execs_bumps (by decide) ha0, h.a0, off_add]
  a1 := by rw [execs_bumps (by decide) ha1, h.a1, off_add]
  a2 := by
    rw [execs_bumps (by decide) ha2, toNat_add_neg (by rw [h.a2]; omega), h.a2]
    omega
  t6 := by rw [execs_get (hregs .t6 (List.mem_cons_self ..)), h.t6]
  mem := hmem
  saved := h.saved.execs fun r hr => hregs r (List.mem_cons_of_mem _ hr)

/-- Lines that leave the pointers, the count and memory alone. -/
theorem CopyAt.line {ops : Code} (h : CopyAt m₀ k m)
    (hregs : ∀ r ∈ [Reg.a0, .a1, .a2, .t6] ++ savedRegs, ∀ i ∈ ops, i.dest ≠ some r)
    (hmem : ∀ i ∈ ops, i.isStore = false) : CopyAt m₀ k (execs ops m) where
  a0 := (execs_get (hregs .a0 (by simp)) m).trans h.a0
  a1 := (execs_get (hregs .a1 (by simp)) m).trans h.a1
  a2 := (congrArg _ (execs_get (hregs .a2 (by simp)) m)).trans h.a2
  t6 := (execs_get (hregs .t6 (by simp)) m).trans h.t6
  mem := (execs_mem hmem m).trans h.mem
  saved := h.saved.execs fun r hr => hregs r (List.mem_append_right _ hr)

/-- Four blocks are loaded before any of them is stored. -/
theorem CopyAt.round64 (h : CopyAt m₀ k m) (hk : k + 64 ≤ (m₀.get .a2).toNat)
    (hahead : Ahead (m₀.get .a0) (m₀.get .a1) (m₀.get .a2).toNat)
    (hd : (off (m₀.get .a0) k).toNat % 16 = 0) (hs : (off (m₀.get .a1) k).toNat % 16 = 0) :
    CopyAt m₀ (k + 64) (execs (memcpy64.take 9) m) := by
  have hn := (m₀.get .a2).isLt
  -- the source of a block is not yet overwritten
  have hload := fun j => h.sourceBlock (j := j) hahead
  -- each of the four blocks starts at a boundary again
  have hs₁ := off_add_aligned (j := 16) (by decide) hs
  have hs₂ := off_add_aligned (j := 16) (by decide) hs₁
  have hd₁ := off_add_aligned (j := 16) (by decide) hd
  have hd₂ := off_add_aligned (j := 16) (by decide) hd₁
  apply h.round hk
  · decide
  · decide
  · decide
  · decide
  · simp only [memcpy64, List.take, execs, List.foldl, Instr.exec, Machine.get_set,
      Machine.get_setV, Machine.get_setMem, Machine.mem_set, Machine.mem_setV, Machine.mem_setMem,
      Machine.vregs_set, Machine.vregs_setV, Machine.vregs_setMem, reduceCtorEq, if_false,
      if_true, h.a0, h.a1, BitVec.ofNat_eq_ofNat, off_add]
    rw [h.mem] at hload ⊢
    rw [storeBlock_overwrite_up (by omega) hd (by omega) (hload _ (by omega) (by omega) hs),
      storeBlock_overwrite_up (by omega) hd₁ (by omega) (hload _ (by omega) (by omega) hs₁),
      storeBlock_overwrite_up (by omega) hd₂ (by omega) (hload _ (by omega) (by omega) hs₂),
      storeBlock_overwrite_up (by omega) (off_add_aligned (j := 16) (by decide) hd₂) (by omega)
        (hload _ (by omega) (by omega) (off_add_aligned (j := 16) (by decide) hs₂))]

/-- A round of one block. -/
theorem CopyAt.round16 (h : CopyAt m₀ k m) (hk : k + 16 ≤ (m₀.get .a2).toNat)
    (hahead : Ahead (m₀.get .a0) (m₀.get .a1) (m₀.get .a2).toNat)
    (hd : (off (m₀.get .a0) k).toNat % 16 = 0) (hs : (off (m₀.get .a1) k).toNat % 16 = 0) :
    CopyAt m₀ (k + 16) (execs ((memcpy16.drop 2).take 3) m) := by
  have hn := (m₀.get .a2).isLt
  apply h.round hk (by decide) (by decide) (by decide) (by decide)
  show storeBlock m.mem (m.get .a0) (loadBlock m.mem (m.get .a1)) = _
  rw [h.a0, h.a1, h.mem]
  apply storeBlock_overwrite_up (by omega) hd (by omega)
  rw [← h.mem]
  exact h.sourceBlock hahead (by omega) hk hs

/-- A round of one word. -/
theorem CopyAt.roundWord (h : CopyAt m₀ k m) (hk : k + 4 ≤ (m₀.get .a2).toNat)
    (hahead : Ahead (m₀.get .a0) (m₀.get .a1) (m₀.get .a2).toNat) :
    CopyAt m₀ (k + 4) (execs ((memcpyWordLoop.drop 2).take 5) m) := by
  have hn := (m₀.get .a2).isLt
  apply h.round hk (by decide) (by decide) (by decide) (by decide)
  show storeWord m.mem (off (m.get .a0) 0) (loadWord m.mem (off (m.get .a1) 0)) = _
  rw [h.a0, h.a1, off_zero, off_zero, h.mem]
  apply storeWord_overwrite_up (by omega) (by omega)
  intro i hi
  rw [loadWord_byte _ _ hi, off_off]
  exact hahead.source (by omega) (by omega)

/-- A round of one byte. -/
theorem CopyAt.roundByte (h : CopyAt m₀ k m) (hk : k + 1 ≤ (m₀.get .a2).toNat)
    (hahead : Ahead (m₀.get .a0) (m₀.get .a1) (m₀.get .a2).toNat) :
    CopyAt m₀ (k + 1) (execs ((memcpyByte.drop 1).take 5) m) := by
  have hn := (m₀.get .a2).isLt
  apply h.round hk (by decide) (by decide) (by decide) (by decide)
  show Function.update m.mem (off (m.get .a0) 0)
    (((m.mem (off (m.get .a1) 0)).setWidth 32).setWidth 8) = _
  rw [h.a0, h.a1, off_zero, off_zero, h.mem]
  apply update_overwrite_up (by omega) (by omega)
  rw [BitVec.setWidth_setWidth_of_le _ (by decide), BitVec.setWidth_eq]
  exact hahead.source (by omega) (by omega)

/-- All bytes are copied and the destination is returned. -/
def Copied (m₀ m : Machine) : Prop :=
  m.get .a0 = m₀.get .a0 ∧
    m.mem = overwrite m₀.mem (m₀.get .a0) 0 (m₀.get .a2).toNat fun i =>
      m₀.mem (off (m₀.get .a1) i)

variable {addr : Label → Addr}

/-- The count is zero exactly when all is copied. -/
theorem CopyAt.a2_eq_zero_iff (h : CopyAt m₀ k m) :
    m.get .a2 = 0 ↔ (m₀.get .a2).toNat ≤ k := by
  rw [← BitVec.toNat_inj, h.a2, BitVec.ofNat_eq_ofNat, BitVec.toNat_zero]
  omega

/-- With everything copied the routine ends right. -/
theorem CopyAt.done (h : CopyAt m₀ (m₀.get .a2).toNat m) :
    Returns addr m₀ (Copied m₀) ⟨.run (memopsCode .LmcDone), m⟩ := by
  refine Leads.line (memcpyDone.take 1) (by decide) (readsLine_anywhere ..) ?_
  exact Leads.ret (h.saved.execs (by decide)) ⟨h.t6, h.mem⟩

/-- The loop over bytes, by induction on what is left. -/
theorem CopyAt.byteLoop (h : CopyAt m₀ k m) (hk : k ≤ (m₀.get .a2).toNat)
    (hahead : Ahead (m₀.get .a0) (m₀.get .a1) (m₀.get .a2).toNat) :
    Returns addr m₀ (Copied m₀) ⟨.run (memopsCode .LmcByte), m⟩ := by
  induction hleft : (m₀.get .a2).toNat - k generalizing k m with
  | zero =>
    obtain rfl : k = (m₀.get .a2).toNat := by omega
    exact .beqz (fun _ => h.done) fun hne => absurd (h.a2_eq_zero_iff.mpr le_rfl) hne
  | succ left ih =>
    have hne : m.get .a2 ≠ 0 := by
      rw [Ne, h.a2_eq_zero_iff]
      omega
    refine Leads.beqz (fun hzero => absurd hzero hne) fun _ => ?_
    refine Leads.line ((memcpyByte.drop 1).take 5) (by decide) (readsLine_anywhere ..) ?_
    exact .j (ih (h.roundByte (by omega) hahead) (by omega) (by omega))

/-- The loop over words, by induction on what is left. -/
theorem CopyAt.wordLoop (h : CopyAt m₀ k m) (hk : k ≤ (m₀.get .a2).toNat)
    (hahead : Ahead (m₀.get .a0) (m₀.get .a1) (m₀.get .a2).toNat) :
    Returns addr m₀ (Copied m₀) ⟨.run (memopsCode .LmcWordLoop), m⟩ := by
  induction hleft : (m₀.get .a2).toNat - k using Nat.strong_induction_on generalizing k m with
  | _ left ih =>
    refine Leads.line (memcpyWordLoop.take 1) (by decide) (readsLine_anywhere ..) ?_
    have h' : CopyAt m₀ k (execs (memcpyWordLoop.take 1) m) := h.line (by decide) (by decide)
    refine Leads.bltu (fun _ => ?_) fun hlt => ?_
    · exact h'.byteLoop hk hahead
    · -- at least four bytes are left
      have hge : 4 ≤ (m₀.get .a2).toNat - k := by
        rw [← h'.a2]
        exact Nat.le_of_not_lt hlt
      refine Leads.line ((memcpyWordLoop.drop 2).take 5) (by decide) (readsLine_anywhere ..) ?_
      exact .j (ih _ (by omega) (h'.roundWord (by omega) hahead) (by omega) rfl)

/-- The words are taken at word boundaries, the bytes otherwise. -/
theorem CopyAt.word (h : CopyAt m₀ k m) (hk : k ≤ (m₀.get .a2).toNat)
    (hahead : Ahead (m₀.get .a0) (m₀.get .a1) (m₀.get .a2).toNat) :
    Returns addr m₀ (Copied m₀) ⟨.run (memopsCode .LmcWord), m⟩ := by
  refine Leads.line (memcpyWord.take 2) (by decide) (readsLine_anywhere ..) ?_
  have h' : CopyAt m₀ k (execs (memcpyWord.take 2) m) := h.line (by decide) (by decide)
  refine Leads.bnez (fun _ => ?_) fun _ => ?_
  · exact h'.byteLoop hk hahead
  · exact h'.wordLoop hk hahead

/-- The loop over blocks, by induction on what is left. -/
theorem CopyAt.loop16 (h : CopyAt m₀ k m) (hk : k ≤ (m₀.get .a2).toNat)
    (hahead : Ahead (m₀.get .a0) (m₀.get .a1) (m₀.get .a2).toNat)
    (hd : (off (m₀.get .a0) k).toNat % 16 = 0) (hs : (off (m₀.get .a1) k).toNat % 16 = 0) :
    Returns addr m₀ (Copied m₀) ⟨.run (memopsCode .Lmc16), m⟩ := by
  induction hleft : (m₀.get .a2).toNat - k using Nat.strong_induction_on generalizing k m with
  | _ left ih =>
    refine Leads.line (memcpy16.take 1) (by decide) (readsLine_anywhere ..) ?_
    have h' : CopyAt m₀ k (execs (memcpy16.take 1) m) := h.line (by decide) (by decide)
    refine Leads.bltu (fun _ => ?_) fun hlt => ?_
    · exact h'.word hk hahead
    -- another block fits, and the count gets smaller
    · have hge : 16 ≤ (m₀.get .a2).toNat - k := by
        rw [← h'.a2]
        exact Nat.le_of_not_lt hlt
      refine Leads.line ((memcpy16.drop 2).take 3) (by decide) (readsLine_anywhere ..) ?_
      exact .j (ih _ (by omega) (h'.round16 (by omega) hahead hd hs) (by omega)
        (off_add_aligned (by decide) hd) (off_add_aligned (by decide) hs) rfl)

/-- The loop over four blocks, by induction on what is left. -/
theorem CopyAt.loop64 (h : CopyAt m₀ k m) (hk : k + 64 ≤ (m₀.get .a2).toNat)
    (hahead : Ahead (m₀.get .a0) (m₀.get .a1) (m₀.get .a2).toNat)
    (hd : (off (m₀.get .a0) k).toNat % 16 = 0) (hs : (off (m₀.get .a1) k).toNat % 16 = 0) :
    Returns addr m₀ (Copied m₀) ⟨.run (memopsCode .Lmc64), m⟩ := by
  induction hleft : (m₀.get .a2).toNat - k using Nat.strong_induction_on generalizing k m with
  | _ left ih =>
    refine Leads.line (memcpy64.take 9) (by decide) (readsLine_anywhere ..) ?_
    have hd' := off_add_aligned (j := 64) (by decide) hd
    have hs' := off_add_aligned (j := 64) (by decide) hs
    refine Leads.line ((memcpy64.drop 9).take 1) (by decide) (readsLine_anywhere ..) ?_
    have h' : CopyAt m₀ (k + 64) (execs ((memcpy64.drop 9).take 1) (execs (memcpy64.take 9) m)) :=
      (h.round64 hk hahead hd hs).line (by decide) (by decide)
    -- the test is at the end of the loop
    refine Leads.bgeu (fun hle => ?_) fun _ => ?_
    · have hge : 64 ≤ (m₀.get .a2).toNat - (k + 64) := by
        rw [← h'.a2]
        exact hle
      exact ih _ (by omega) h' (by omega) hd' hs' rfl
    · exact h'.loop16 (by omega) hahead hd' hs'

/-- `s31_xespv_memcpy` copies upwards. -/
theorem memcpy_copied (m₀ : Machine)
    (hahead : Ahead (m₀.get .a0) (m₀.get .a1) (m₀.get .a2).toNat) :
    Returns addr m₀ (Copied m₀) ⟨.run (memopsCode .s31XespvMemcpy), m₀⟩ := by
  refine Leads.line (memcpyEntry.take 2) (by decide) (readsLine_anywhere ..) ?_
  have h : CopyAt m₀ 0 (execs (memcpyEntry.take 2) m₀) :=
    ⟨(off_zero _).symm, (off_zero _).symm, rfl, rfl, (overwrite_empty ..).symm,
      (Saved.refl m₀).execs (by decide)⟩
  refine Leads.bltu (fun _ => ?_) fun hlt => ?_
  · exact h.word (by omega) hahead
  · refine Leads.line ((memcpyEntry.drop 3).take 2) (by decide) (readsLine_anywhere ..) ?_
    have h' : CopyAt m₀ 0 (execs ((memcpyEntry.drop 3).take 2) (execs (memcpyEntry.take 2) m₀)) :=
      h.line (by decide) (by decide)
    refine Leads.bnez (fun _ => ?_) fun halign => ?_
    · exact h'.word (by omega) hahead
    · -- neither pointer has low bits
      obtain ⟨hd, hs⟩ := (or_and_15_eq_zero_iff (m₀.get .a0) (m₀.get .a1)).mp (not_not.mp halign)
      have hge : 64 ≤ (m₀.get .a2).toNat := Nat.le_of_not_lt hlt
      exact h'.loop64 (by omega) hahead (by rwa [off_zero]) (by rwa [off_zero])

end

/-! ## Copying downwards -/

/-- A copy from `s` down to `d`, byte by byte, never reads a byte that it has written. -/
def Behind (d s : Addr) (n : Nat) : Prop := ∀ i j, j < i → i < n → off d i ≠ off s j

/-- The source is as it was below the position of the copy. -/
theorem Behind.source {d s : Addr} {n k j : Nat} (h : Behind d s n) {mem : Mem} {f : Nat → Byte}
    (hj : j < k) : overwrite mem d k n f (off s j) = mem (off s j) := by
  refine overwrite_of_not_mem fun hin => ?_
  refine h (off s j - d).toNat j (by omega) (by omega) ?_
  rw [off_toNat_sub]

/-- The machine of the backward copy with the first `k` bytes still to be copied. -/
structure BackAt (m₀ : Machine) (k : Nat) (m : Machine) : Prop where
  a0 : m.get .a0 = off (m₀.get .a0) k
  a1 : m.get .a1 = off (m₀.get .a1) k
  a2 : (m.get .a2).toNat = k
  t6 : m.get .t6 = m₀.get .a0
  mem : m.mem = overwrite m₀.mem (m₀.get .a0) k (m₀.get .a2).toNat fun i =>
    m₀.mem (off (m₀.get .a1) i)
  saved : Saved m₀ m

section

variable {m₀ m : Machine} {k : Nat}

/-- A block of the source that is still to be copied is as it was. -/
theorem BackAt.sourceBlock (h : BackAt m₀ k m)
    (hbehind : Behind (m₀.get .a0) (m₀.get .a1) (m₀.get .a2).toNat) {j : Nat} (hj : j + 16 ≤ k)
    (hs : (off (m₀.get .a1) j).toNat % 16 = 0) (i : Fin 16) :
    loadBlock m.mem (off (m₀.get .a1) j) i = m₀.mem (off (m₀.get .a1) (j + i)) := by
  rw [loadBlock, align16_of_aligned hs, off_off, h.mem]
  exact hbehind.source (by omega)

/-- A round that copies `j` bytes below the others. -/
theorem BackAt.round {ops : Code} {j : Nat} (h : BackAt m₀ (k + j) m)
    (ha0 : bumps .a0 ops = some (-BitVec.ofNat 32 j))
    (ha1 : bumps .a1 ops = some (-BitVec.ofNat 32 j))
    (ha2 : bumps .a2 ops = some (-BitVec.ofNat 32 j))
    (hregs : ∀ r ∈ Reg.t6 :: savedRegs, ∀ i ∈ ops, i.dest ≠ some r)
    (hmem : (execs ops m).mem =
      overwrite m₀.mem (m₀.get .a0) k (m₀.get .a2).toNat fun i => m₀.mem (off (m₀.get .a1) i)) :
    BackAt m₀ k (execs ops m) where
  a0 := by rw [execs_bumps (by decide) ha0, h.a0, off_add_neg _ (by omega), Nat.add_sub_cancel]
  a1 := by rw [execs_bumps (by decide) ha1, h.a1, off_add_neg _ (by omega), Nat.add_sub_cancel]
  a2 := by
    rw [execs_bumps (by decide) ha2, toNat_add_neg (by rw [h.a2]; omega), h.a2, Nat.add_sub_cancel]
  t6 := by rw [execs_get (hregs .t6 (List.mem_cons_self ..)), h.t6]
  mem := hmem
  saved := h.saved.execs fun r hr => hregs r (List.mem_cons_of_mem _ hr)

/-- Instructions that write neither these registers nor memory keep the state. -/
theorem BackAt.line {ops : Code} (h : BackAt m₀ k m)
    (hregs : ∀ r ∈ [Reg.a0, .a1, .a2, .t6] ++ savedRegs, ∀ i ∈ ops, i.dest ≠ some r)
    (hmem : ∀ i ∈ ops, i.isStore = false) : BackAt m₀ k (execs ops m) where
  a0 := (execs_get (hregs .a0 (by simp)) m).trans h.a0
  a1 := (execs_get (hregs .a1 (by simp)) m).trans h.a1
  a2 := (congrArg _ (execs_get (hregs .a2 (by simp)) m)).trans h.a2
  t6 := (execs_get (hregs .t6 (by simp)) m).trans h.t6
  mem := (execs_mem hmem m).trans h.mem
  saved := h.saved.execs fun r hr => hregs r (List.mem_append_right _ hr)

/-- The four blocks are stored upwards, below those stored before. -/
theorem BackAt.round64 (h : BackAt m₀ (k + 64) m) (hk : k + 64 ≤ (m₀.get .a2).toNat)
    (hbehind : Behind (m₀.get .a0) (m₀.get .a1) (m₀.get .a2).toNat)
    (hd : (off (m₀.get .a0) k).toNat % 16 = 0) (hs : (off (m₀.get .a1) k).toNat % 16 = 0) :
    BackAt m₀ k (execs ((memmoveBack64.drop 2).take 13) m) := by
  have hn := (m₀.get .a2).isLt
  -- the source of a block is not yet overwritten
  have hload := fun j => h.sourceBlock (j := j) hbehind
  have hs₁ := off_add_aligned (j := 16) (by decide) hs
  have hs₂ := off_add_aligned (j := 16) (by decide) hs₁
  have hs₃ := off_add_aligned (j := 16) (by decide) hs₂
  have hd₁ := off_add_aligned (j := 16) (by decide) hd
  have hd₂ := off_add_aligned (j := 16) (by decide) hd₁
  have hd₃ := off_add_aligned (j := 16) (by decide) hd₂
  -- the pointers go down by 64 first, and the four blocks are stored upwards from there
  have ha0 : m.get .a0 + -64#32 = off (m₀.get .a0) k := by
    rw [h.a0, off_add_neg _ (by omega), Nat.add_sub_cancel]
  have ha1 : m.get .a1 + -64#32 = off (m₀.get .a1) k := by
    rw [h.a1, off_add_neg _ (by omega), Nat.add_sub_cancel]
  apply h.round (by decide) (by decide) (by decide) (by decide)
  simp only [memmoveBack64, List.drop, List.take, execs, List.foldl, Instr.exec, Machine.get_set,
    Machine.get_setV, Machine.get_setMem, Machine.mem_set, Machine.mem_setV, Machine.mem_setMem,
    Machine.vregs_set, Machine.vregs_setV, Machine.vregs_setMem, reduceCtorEq, if_false,
    if_true, BitVec.ofNat_eq_ofNat, ha0, ha1, off_add]
  rw [h.mem] at hload ⊢
  rw [storeBlock_eq_overwrite (f := fun i => m₀.mem (off (m₀.get .a1) i)) _ _ hd (by omega)
      (hload _ (by omega) hs),
    storeBlock_overwrite_up (by omega) hd₁ (by omega) (hload _ (by omega) hs₁),
    storeBlock_overwrite_up (by omega) hd₂ (by omega) (hload _ (by omega) hs₂),
    storeBlock_overwrite_up (by omega) hd₃ (by omega) (hload _ (by omega) hs₃)]
  exact overwrite_down (by omega) (by omega)

/-- A round of one block. -/
theorem BackAt.round16 (h : BackAt m₀ (k + 16) m) (hk : k + 16 ≤ (m₀.get .a2).toNat)
    (hbehind : Behind (m₀.get .a0) (m₀.get .a1) (m₀.get .a2).toNat)
    (hd : (off (m₀.get .a0) k).toNat % 16 = 0) (hs : (off (m₀.get .a1) k).toNat % 16 = 0) :
    BackAt m₀ k (execs ((memmoveBack16.drop 2).take 7) m) := by
  have hn := (m₀.get .a2).isLt
  apply h.round (by decide) (by decide) (by decide) (by decide)
  show storeBlock m.mem (m.get .a0 + -16#32) (loadBlock m.mem (m.get .a1 + -16#32)) = _
  rw [h.a0, h.a1, off_add_neg _ (by omega), off_add_neg _ (by omega), Nat.add_sub_cancel, h.mem]
  apply storeBlock_overwrite_down (by omega) hd (by omega)
  rw [← h.mem]
  exact h.sourceBlock hbehind (by omega) hs

/-- A round of one byte. -/
theorem BackAt.roundByte (h : BackAt m₀ (k + 1) m) (hk : k + 1 ≤ (m₀.get .a2).toNat)
    (hbehind : Behind (m₀.get .a0) (m₀.get .a1) (m₀.get .a2).toNat) :
    BackAt m₀ k (execs ((memmoveBackByte.drop 1).take 5) m) := by
  have hn := (m₀.get .a2).isLt
  apply h.round (by decide) (by decide) (by decide) (by decide)
  simp only [memmoveBackByte, List.drop, List.take, execs, List.foldl, Instr.exec,
    Machine.get_set, Machine.mem_set, Machine.mem_setMem, reduceCtorEq, if_false, if_true,
    BitVec.ofNat_eq_ofNat, off_zero]
  rw [h.a0, h.a1, off_add_neg _ (by omega), off_add_neg _ (by omega), Nat.add_sub_cancel, h.mem]
  apply update_overwrite_down (by omega) (by omega)
  rw [BitVec.setWidth_setWidth_of_le _ (by decide), BitVec.setWidth_eq]
  exact hbehind.source (by omega)

variable {addr : Label → Addr}

/-- The loop over bytes, by induction on what is left. -/
theorem BackAt.byteLoop (h : BackAt m₀ k m) (hk : k ≤ (m₀.get .a2).toNat)
    (hbehind : Behind (m₀.get .a0) (m₀.get .a1) (m₀.get .a2).toNat) :
    Returns addr m₀ (Copied m₀) ⟨.run (memopsCode .LmmBackByte), m⟩ := by
  -- induction on the bytes that are left, which are those below `k`
  induction k generalizing m with
  | zero =>
    have hzero : m.get .a2 = 0 := BitVec.eq_of_toNat_eq h.a2
    refine Leads.beqz (fun _ => ?_) fun hne => absurd hzero hne
    refine Leads.line (memmoveDone.take 1) (by decide) (readsLine_anywhere ..) ?_
    exact Leads.ret (h.saved.execs (by decide)) ⟨h.t6, h.mem⟩
  | succ k ih =>
    have hne : m.get .a2 ≠ 0 := by
      intro hzero
      have := h.a2
      rw [hzero] at this
      exact nomatch this
    refine Leads.beqz (fun hzero => absurd hzero hne) fun _ => ?_
    refine Leads.line ((memmoveBackByte.drop 1).take 5) (by decide) (readsLine_anywhere ..) ?_
    exact .j (ih (h.roundByte hk hbehind) (by omega))

/-- The loop over blocks, by induction on what is left. -/
theorem BackAt.loop16 (h : BackAt m₀ k m) (hk : k ≤ (m₀.get .a2).toNat)
    (hbehind : Behind (m₀.get .a0) (m₀.get .a1) (m₀.get .a2).toNat)
    (hd : (off (m₀.get .a0) k).toNat % 16 = 0) (hs : (off (m₀.get .a1) k).toNat % 16 = 0) :
    Returns addr m₀ (Copied m₀) ⟨.run (memopsCode .LmmBack16), m⟩ := by
  induction k using Nat.strong_induction_on generalizing m with
  | _ k ih =>
    refine Leads.line (memmoveBack16.take 1) (by decide) (readsLine_anywhere ..) ?_
    have h' : BackAt m₀ k (execs (memmoveBack16.take 1) m) := h.line (by decide) (by decide)
    refine Leads.bltu (fun _ => ?_) fun hlt => ?_
    · exact h'.byteLoop hk hbehind
    -- another block is left
    · obtain ⟨j, rfl⟩ : ∃ j, k = j + 16 := ⟨k - 16, by
        have : 16 ≤ k := by
          rw [← h'.a2]
          exact Nat.le_of_not_lt hlt
        omega⟩
      have hd' := off_aligned_of_add (j := 16) (by decide) hd
      have hs' := off_aligned_of_add (j := 16) (by decide) hs
      refine Leads.line ((memmoveBack16.drop 2).take 7) (by decide) (readsLine_anywhere ..) ?_
      exact .j (ih j (by omega) (h'.round16 hk hbehind hd' hs') (by omega) hd' hs')

/-- The loop over four blocks, by induction on what is left. -/
theorem BackAt.loop64 (h : BackAt m₀ k m) (hk : k ≤ (m₀.get .a2).toNat)
    (hbehind : Behind (m₀.get .a0) (m₀.get .a1) (m₀.get .a2).toNat)
    (hd : (off (m₀.get .a0) k).toNat % 16 = 0) (hs : (off (m₀.get .a1) k).toNat % 16 = 0) :
    Returns addr m₀ (Copied m₀) ⟨.run (memopsCode .LmmBack64), m⟩ := by
  induction k using Nat.strong_induction_on generalizing m with
  | _ k ih =>
    refine Leads.line (memmoveBack64.take 1) (by decide) (readsLine_anywhere ..) ?_
    have h' : BackAt m₀ k (execs (memmoveBack64.take 1) m) := h.line (by decide) (by decide)
    refine Leads.bltu (fun _ => ?_) fun hlt => ?_
    · exact h'.loop16 hk hbehind hd hs
    -- four more blocks are left
    · obtain ⟨j, rfl⟩ : ∃ j, k = j + 64 := ⟨k - 64, by
        have : 64 ≤ k := by
          rw [← h'.a2]
          exact Nat.le_of_not_lt hlt
        omega⟩
      have hd' := off_aligned_of_add (j := 64) (by decide) hd
      have hs' := off_aligned_of_add (j := 64) (by decide) hs
      refine Leads.line ((memmoveBack64.drop 2).take 13) (by decide) (readsLine_anywhere ..) ?_
      exact .j (ih j (by omega) (h'.round64 hk hbehind hd' hs') (by omega) hd' hs')

/-- The forward part of `s31_xespv_memmove` is `s31_xespv_memcpy`. -/
theorem CopyAt.forward (h : CopyAt m₀ 0 m)
    (hahead : Ahead (m₀.get .a0) (m₀.get .a1) (m₀.get .a2).toNat) :
    Returns addr m₀ (Copied m₀) ⟨.run (memopsCode .LmmForward), m⟩ := by
  refine Leads.line (memmoveForward.take 1) (by decide) (readsLine_anywhere ..) (.j ?_)
  generalize hm' : execs (memmoveForward.take 1) m = m'
  -- `memcpy` is entered as if it had been called with these arguments
  have ha0 : m'.get .a0 = m₀.get .a0 := by
    rw [← hm']
    exact h.t6
  have ha1 : m'.get .a1 = m₀.get .a1 := by
    rw [← hm', execs_get (by decide), h.a1, off_zero]
  have ha2 : m'.get .a2 = m₀.get .a2 := by
    apply BitVec.eq_of_toNat_eq
    rw [← hm', execs_get (by decide), h.a2, Nat.sub_zero]
  have hmem : m'.mem = m₀.mem := by
    rw [← hm', execs_mem (by decide), h.mem, overwrite_empty]
  have hsaved : Saved m₀ m' := by
    rw [← hm']
    exact h.saved.execs (by decide)
  have hcopied : ∀ m'', Copied m' m'' → Copied m₀ m'' := by
    intro m'' hm''
    rwa [Copied, ha0, ha1, ha2, hmem] at hm''
  exact (memcpy_copied m' (by rwa [ha0, ha1, ha2])).trans fun c hc => .here (hc.mono hsaved hcopied)

/-- Ranges without wrap-around that need no backward copy. -/
theorem ahead_of_le {d s : Addr} {n : Nat} (hd : d.toNat + n < 2 ^ 32) (hs : s.toNat + n < 2 ^ 32)
    (h : d.toNat ≤ s.toNat ∨ s.toNat + n ≤ d.toNat) : Ahead d s n := by
  intro i j hij hj heq
  have hnat := congrArg BitVec.toNat heq
  rw [off_toNat, off_toNat] at hnat
  omega

/-- A destination above the source is never overtaken from the end. -/
private theorem behind_of_lt {d s : Addr} {n : Nat} (hd : d.toNat + n < 2 ^ 32)
    (hs : s.toNat + n < 2 ^ 32)
    (h : s.toNat < d.toNat) : Behind d s n := by
  intro i j hij hi heq
  have hnat := congrArg BitVec.toNat heq
  rw [off_toNat, off_toNat] at hnat
  omega

/-- `s31_xespv_memmove` copies in the direction that suits the ranges. -/
theorem memmove_copied (m₀ : Machine)
    (hd : (m₀.get .a0).toNat + (m₀.get .a2).toNat < 2 ^ 32)
    (hs : (m₀.get .a1).toNat + (m₀.get .a2).toNat < 2 ^ 32) :
    Returns addr m₀ (Copied m₀) ⟨.run (memopsCode .s31XespvMemmove), m₀⟩ := by
  have h : CopyAt m₀ 0 (execs (memmoveEntry.take 1) m₀) :=
    ⟨(off_zero _).symm, (off_zero _).symm, rfl, rfl, (overwrite_empty ..).symm,
      (Saved.refl m₀).execs (by decide)⟩
  refine Leads.line (memmoveEntry.take 1) (by decide) (readsLine_anywhere ..) ?_
  refine Leads.beq (fun heq => ?_) fun hne => ?_
  · -- nothing to copy
    replace heq : m₀.get .a0 = m₀.get .a1 := heq
    refine Leads.line (memmoveDone.take 1) (by decide) (readsLine_anywhere ..) ?_
    refine Leads.ret (h.saved.execs (by decide)) ⟨rfl, ?_⟩
    rw [heq, overwrite_self]
    rfl
  -- forwards when the destination is below the source
  · refine Leads.bltu (fun hlt => ?_) fun hge => ?_
    · exact h.forward (ahead_of_le hd hs (.inl (Nat.le_of_lt hlt)))
    · have hle : (m₀.get .a1).toNat ≤ (m₀.get .a0).toNat := Nat.le_of_not_lt hge
      have hne' : (m₀.get .a1).toNat ≠ (m₀.get .a0).toNat := fun heq =>
        hne (BitVec.eq_of_toNat_eq heq).symm
      refine Leads.line ((memmoveEntry.drop 3).take 1) (by decide) (readsLine_anywhere ..) ?_
      have h₁ : CopyAt m₀ 0 (execs ((memmoveEntry.drop 3).take 1) _) :=
        h.line (by decide) (by decide)
      refine Leads.bgeu (fun hend => ?_) fun _ => ?_
      · -- the destination starts behind the end of the source
        have hend' : (m₀.get .a1 + m₀.get .a2).toNat ≤ (m₀.get .a0).toNat := hend
        rw [BitVec.toNat_add, Nat.mod_eq_of_lt hs] at hend'
        exact h₁.forward (ahead_of_le hd hs (.inr hend'))
      -- the ranges overlap with the destination above: backwards
      · have hbehind := behind_of_lt hd hs (by omega)
        refine Leads.line ((memmoveEntry.drop 5).take 3) (by decide) (readsLine_anywhere ..) ?_
        generalize hm : execs ((memmoveEntry.drop 5).take 3) _ = m
        -- both pointers at the ends, and nothing copied yet
        have hback : BackAt m₀ (m₀.get .a2).toNat m := by
          subst hm
          refine ⟨?_, ?_, rfl, rfl, (overwrite_empty ..).symm, h₁.saved.execs (by decide)⟩
          · rw [off, BitVec.ofNat_toNat, BitVec.setWidth_eq]
            rfl
          · rw [off, BitVec.ofNat_toNat, BitVec.setWidth_eq]
            rfl
        refine Leads.bltu (fun _ => ?_) fun _ => ?_
        · exact hback.byteLoop le_rfl hbehind
        · refine Leads.line ((memmoveEntry.drop 9).take 2) (by decide) (readsLine_anywhere ..) ?_
          have hback' : BackAt m₀ (m₀.get .a2).toNat (execs ((memmoveEntry.drop 9).take 2) m) :=
            hback.line (by decide) (by decide)
          refine Leads.bnez (fun _ => ?_) fun halign => ?_
          · exact hback'.byteLoop le_rfl hbehind
          · -- neither end has low bits
            obtain ⟨hd', hs'⟩ := (or_and_15_eq_zero_iff (m.get .a0) (m.get .a1)).mp
              (not_not.mp halign)
            rw [hback.a0] at hd'
            rw [hback.a1] at hs'
            exact hback'.loop64 le_rfl hbehind hd' hs'

end

/-! ## Filling -/

/-- The memory of `s31_xespv_memset` with `k` bytes filled, its stack frame aside. -/
def FilledTo (m₀ : Machine) (k : Nat) (mem : Mem) : Prop :=
  AgreeOff (m₀.get .sp + -16) 16
    (overwrite m₀.mem (m₀.get .a0) 0 k fun _ => (m₀.get .a1).setWidth 8) mem

/-- `k` bytes have been set. -/
structure FillAt (m₀ : Machine) (k : Nat) (m : Machine) : Prop where
  a0 : m.get .a0 = off (m₀.get .a0) k
  a1 : m.get .a1 = m₀.get .a1 &&& 255
  a2 : (m.get .a2).toNat = (m₀.get .a2).toNat - k
  t6 : m.get .t6 = m₀.get .a0
  mem : FilledTo m₀ k m.mem
  saved : Saved m₀ m

/-- All bytes are filled and the destination is returned. -/
def Filled (m₀ m : Machine) : Prop :=
  m.get .a0 = m₀.get .a0 ∧ FilledTo m₀ (m₀.get .a2).toNat m.mem

section

variable {m₀ m : Machine} {k : Nat}

/-- One byte more is set. -/
theorem FilledTo.update {mem : Mem} {v : Byte} (h : FilledTo m₀ k mem) (hk : k < 2 ^ 32)
    (hv : v = (m₀.get .a1).setWidth 8) :
    FilledTo m₀ (k + 1) (Function.update mem (off (m₀.get .a0) k) v) := by
  rw [FilledTo, ← update_overwrite_up (Nat.zero_le k) hk hv]
  exact h.congr_update _ _

/-- A word of the byte sets four more. -/
theorem FilledTo.storeWord {mem : Mem} {w : BitVec 32} (h : FilledTo m₀ k mem)
    (hk : k + 4 ≤ 2 ^ 32) (hw : ∀ i < 4, w.extractLsb' (8 * i) 8 = (m₀.get .a1).setWidth 8) :
    FilledTo m₀ (k + 4) (ByteMem.storeWord mem (off (m₀.get .a0) k) w) := by
  rw [FilledTo, ← storeWord_overwrite_up (Nat.zero_le k) hk hw]
  exact h.congr_storeWord _ _

/-- A block of the byte sets sixteen more. -/
theorem FilledTo.storeBlock {mem : Mem} {v : Lanes} (h : FilledTo m₀ k mem)
    (hd : (off (m₀.get .a0) k).toNat % 16 = 0) (hk : k + 16 ≤ 2 ^ 32)
    (hv : ∀ i, v i = (m₀.get .a1).setWidth 8) :
    FilledTo m₀ (k + 16) (ByteMem.storeBlock mem (off (m₀.get .a0) k) v) := by
  rw [FilledTo, ← storeBlock_overwrite_up (Nat.zero_le k) hd hk hv]
  exact h.congr_storeBlock _ _

/-- `a1` holds the byte. -/
theorem FillAt.byte (h : FillAt m₀ k m) : (m.get .a1).setWidth 8 = (m₀.get .a1).setWidth 8 := by
  have hlow : (m₀.get .a1).toNat &&& 255 = (m₀.get .a1).toNat % 256 :=
    Nat.and_two_pow_sub_one_eq_mod _ 8
  apply BitVec.eq_of_toNat_eq
  rw [h.a1, BitVec.toNat_setWidth, BitVec.toNat_setWidth, BitVec.ofNat_eq_ofNat, BitVec.toNat_and,
    BitVec.toNat_ofNat, Nat.mod_eq_of_lt (show 255 < 2 ^ 32 by decide), hlow]
  omega

/-- The count is zero exactly when all is set. -/
theorem FillAt.a2_eq_zero_iff (h : FillAt m₀ k m) :
    m.get .a2 = 0 ↔ (m₀.get .a2).toNat ≤ k := by
  rw [← BitVec.toNat_inj, h.a2, BitVec.ofNat_eq_ofNat, BitVec.toNat_zero]
  omega

/-- A round that sets `j` bytes more. -/
theorem FillAt.round {ops : Code} {j : Nat} (h : FillAt m₀ k m)
    (hj : k + j ≤ (m₀.get .a2).toNat)
    (ha0 : bumps .a0 ops = some (BitVec.ofNat 32 j))
    (ha2 : bumps .a2 ops = some (-BitVec.ofNat 32 j))
    (hregs : ∀ r ∈ [Reg.a1, .t6] ++ savedRegs, ∀ i ∈ ops, i.dest ≠ some r)
    (hmem : FilledTo m₀ (k + j) (execs ops m).mem) : FillAt m₀ (k + j) (execs ops m) where
  a0 := by rw [execs_bumps (by decide) ha0, h.a0, off_add]
  a1 := by rw [execs_get (hregs .a1 (by simp)), h.a1]
  a2 := by
    rw [execs_bumps (by decide) ha2, toNat_add_neg (by rw [h.a2]; omega), h.a2]
    omega
  t6 := by rw [execs_get (hregs .t6 (by simp)), h.t6]
  mem := hmem
  saved := h.saved.execs fun r hr => hregs r (List.mem_append_right _ hr)

/-- Instructions that write neither these registers nor memory keep the state. -/
theorem FillAt.line {ops : Code} (h : FillAt m₀ k m)
    (hregs : ∀ r ∈ [Reg.a0, .a1, .a2, .t6] ++ savedRegs, ∀ i ∈ ops, i.dest ≠ some r)
    (hmem : ∀ i ∈ ops, i.isStore = false) : FillAt m₀ k (execs ops m) where
  a0 := (execs_get (hregs .a0 (by simp)) m).trans h.a0
  a1 := (execs_get (hregs .a1 (by simp)) m).trans h.a1
  a2 := (congrArg _ (execs_get (hregs .a2 (by simp)) m)).trans h.a2
  t6 := (execs_get (hregs .t6 (by simp)) m).trans h.t6
  mem := (execs_mem hmem m).symm ▸ h.mem
  saved := h.saved.execs fun r hr => hregs r (List.mem_append_right _ hr)

variable {addr : Label → Addr}

/-- With everything set the routine ends right. -/
theorem FillAt.done (h : FillAt m₀ (m₀.get .a2).toNat m) :
    Returns addr m₀ (Filled m₀) ⟨.run (memopsCode .LmsDone), m⟩ := by
  refine Leads.line (memsetDone.take 1) (by decide) (readsLine_anywhere ..) ?_
  exact Leads.ret (h.saved.execs (by decide)) ⟨h.t6, h.mem⟩

/-- The loop over bytes, by induction on what is left. -/
theorem FillAt.byteLoop (h : FillAt m₀ k m) (hk : k ≤ (m₀.get .a2).toNat) :
    Returns addr m₀ (Filled m₀) ⟨.run (memopsCode .LmsByte), m⟩ := by
  have hn := (m₀.get .a2).isLt
  induction hleft : (m₀.get .a2).toNat - k generalizing k m with
  | zero =>
    obtain rfl : k = (m₀.get .a2).toNat := by omega
    exact .beqz (fun _ => h.done) fun hne => absurd (h.a2_eq_zero_iff.mpr le_rfl) hne
  | succ left ih =>
    have hne : m.get .a2 ≠ 0 := by
      rw [Ne, h.a2_eq_zero_iff]
      omega
    -- one byte, and the count gets smaller
    have h' : FillAt m₀ (k + 1) (execs ((memsetByte.drop 1).take 3) m) := by
      apply h.round (by omega) (by decide) (by decide) (by decide)
      show FilledTo m₀ (k + 1) (Function.update m.mem (off (m.get .a0) 0) ((m.get .a1).setWidth 8))
      rw [off_zero, h.a0]
      exact h.mem.update (by omega) h.byte
    refine Leads.beqz (fun hzero => absurd hzero hne) fun _ => ?_
    refine Leads.line ((memsetByte.drop 1).take 3) (by decide) (readsLine_anywhere ..) ?_
    exact .j (ih h' (by omega) (by omega))

/-- The word loop stores the pattern in `t1`. -/
theorem FillAt.wordLoop (h : FillAt m₀ k m) (hk : k ≤ (m₀.get .a2).toNat)
    (ht1 : ∀ i < 4, (m.get .t1).extractLsb' (8 * i) 8 = (m₀.get .a1).setWidth 8) :
    Returns addr m₀ (Filled m₀) ⟨.run (memopsCode .LmsWord), m⟩ := by
  have hn := (m₀.get .a2).isLt
  induction hleft : (m₀.get .a2).toNat - k using Nat.strong_induction_on generalizing k m with
  | _ left ih =>
    refine Leads.line (memsetWord.take 1) (by decide) (readsLine_anywhere ..) ?_
    have h₁ : FillAt m₀ k (execs (memsetWord.take 1) m) := h.line (by decide) (by decide)
    refine Leads.bltu (fun _ => h₁.byteLoop hk) fun hlt => ?_
    refine Leads.line ((memsetWord.drop 2).take 1) (by decide) (readsLine_anywhere ..) ?_
    have h₂ : FillAt m₀ k (execs ((memsetWord.drop 2).take 1) (execs (memsetWord.take 1) m)) :=
      h₁.line (by decide) (by decide)
    -- off a word boundary the rest is set byte by byte
    refine Leads.bnez (fun _ => h₂.byteLoop hk) fun _ => ?_
    have hge : 4 ≤ (m₀.get .a2).toNat - k := by
      rw [← h₁.a2]
      exact Nat.le_of_not_lt hlt
    refine Leads.line ((memsetWord.drop 4).take 3) (by decide) (readsLine_anywhere ..) ?_
    have h₃ : FillAt m₀ (k + 4) (execs ((memsetWord.drop 4).take 3)
        (execs ((memsetWord.drop 2).take 1) (execs (memsetWord.take 1) m))) := by
      apply h₂.round (by omega) (by decide) (by decide) (by decide)
      show FilledTo m₀ (k + 4) (storeWord m.mem (off (m.get .a0) 0) (m.get .t1))
      rw [off_zero, h.a0]
      exact h.mem.storeWord (by omega) ht1
    exact .j (ih _ (by omega) h₃ (by omega) ht1 rfl)

/-- The word of the byte is made, and the loop over words follows. -/
theorem FillAt.wordSetup (h : FillAt m₀ k m) (hk : k ≤ (m₀.get .a2).toNat) :
    Returns addr m₀ (Filled m₀) ⟨.run (memopsCode .LmsWordSetup), m⟩ := by
  refine Leads.line memsetWordSetup (by decide) (readsLine_anywhere ..) ?_
  have h' : FillAt m₀ k (execs memsetWordSetup m) := h.line (by decide) (by decide)
  refine h'.wordLoop hk fun i hi => ?_
  show ((m.get .a1) * 0x01010101#32).extractLsb' (8 * i) 8 = _
  rw [h.a1]
  exact byte_pattern _ hi

/-- The vector loops store the pattern in `q0`. -/
theorem FillAt.loop16 (h : FillAt m₀ k m) (hk : k ≤ (m₀.get .a2).toNat)
    (hd : (off (m₀.get .a0) k).toNat % 16 = 0)
    (hq0 : m.vregs .q0 = fun _ => (m₀.get .a1).setWidth 8) :
    Returns addr m₀ (Filled m₀) ⟨.run (memopsCode .Lms16), m⟩ := by
  have hn := (m₀.get .a2).isLt
  induction hleft : (m₀.get .a2).toNat - k using Nat.strong_induction_on generalizing k m with
  | _ left ih =>
    refine Leads.line (memset16.take 1) (by decide) (readsLine_anywhere ..) ?_
    have h₁ : FillAt m₀ k (execs (memset16.take 1) m) := h.line (by decide) (by decide)
    refine Leads.bltu (fun _ => h₁.wordSetup hk) fun hlt => ?_
    have hge : 16 ≤ (m₀.get .a2).toNat - k := by
      rw [← h₁.a2]
      exact Nat.le_of_not_lt hlt
    refine Leads.line ((memset16.drop 2).take 2) (by decide) (readsLine_anywhere ..) ?_
    -- one block, and the count gets smaller
    have h₂ : FillAt m₀ (k + 16)
        (execs ((memset16.drop 2).take 2) (execs (memset16.take 1) m)) := by
      apply h₁.round (by omega) (by decide) (by decide) (by decide)
      show FilledTo m₀ (k + 16) (storeBlock m.mem (m.get .a0) (m.vregs .q0))
      rw [h.a0]
      exact h.mem.storeBlock hd (by omega) fun i => congrFun hq0 i
    exact .j (ih _ (by omega) h₂ (by omega) (off_add_aligned (by decide) hd) hq0 rfl)

/-- The loop over four blocks, by induction on what is left. -/
theorem FillAt.loop64 (h : FillAt m₀ k m) (hk : k ≤ (m₀.get .a2).toNat)
    (hd : (off (m₀.get .a0) k).toNat % 16 = 0)
    (hq0 : m.vregs .q0 = fun _ => (m₀.get .a1).setWidth 8) :
    Returns addr m₀ (Filled m₀) ⟨.run (memopsCode .Lms64), m⟩ := by
  have hn := (m₀.get .a2).isLt
  -- induction on the bytes left
  induction hleft : (m₀.get .a2).toNat - k using Nat.strong_induction_on generalizing k m with
  | _ left ih =>
    refine Leads.line (memset64.take 1) (by decide) (readsLine_anywhere ..) ?_
    have h₁ : FillAt m₀ k (execs (memset64.take 1) m) := h.line (by decide) (by decide)
    refine Leads.bltu (fun _ => h₁.loop16 hk hd hq0) fun hlt => ?_
    -- the test has left room for a round
    have hge : 64 ≤ (m₀.get .a2).toNat - k := by
      rw [← h₁.a2]
      exact Nat.le_of_not_lt hlt
    refine Leads.line ((memset64.drop 2).take 5) (by decide) (readsLine_anywhere ..) ?_
    have hd₁ := off_add_aligned (j := 16) (by decide) hd
    have hd₂ := off_add_aligned (j := 16) (by decide) hd₁
    have hd₃ := off_add_aligned (j := 16) (by decide) hd₂
    -- each of the four blocks starts at a boundary and is filled with the byte
    have hlanes : ∀ i, m.vregs .q0 i = (m₀.get .a1).setWidth 8 := fun i => congrFun hq0 i
    have h₂ : FillAt m₀ (k + 64)
        (execs ((memset64.drop 2).take 5) (execs (memset64.take 1) m)) := by
      apply h₁.round (by omega) (by decide) (by decide) (by decide)
      simp only [memset64, List.drop, List.take, execs, List.foldl, Instr.exec, Machine.get_set,
        Machine.get_setMem, Machine.mem_set, Machine.mem_setMem, Machine.vregs_set,
        Machine.vregs_setMem, reduceCtorEq, if_false, if_true, h.a0, BitVec.ofNat_eq_ofNat, off_add]
      exact (((h.mem.storeBlock hd (by omega) hlanes).storeBlock hd₁ (by omega) hlanes).storeBlock
        hd₂ (by omega) hlanes).storeBlock hd₃ (by omega) hlanes
    exact .j (ih _ (by omega) h₂ (by omega) (off_add_aligned (by decide) hd) hq0 rfl)

/-- The pattern is built below the stack pointer. -/
theorem FillAt.pattern (h : FillAt m₀ k m) (hk : k ≤ (m₀.get .a2).toNat)
    (hd : (off (m₀.get .a0) k).toNat % 16 = 0) (hsp : (m₀.get .sp).toNat % 16 = 0) :
    Returns addr m₀ (Filled m₀) ⟨.run (memopsCode .LmsPattern), m⟩ := by
  refine Leads.line (memsetPattern.take 2) (by decide) (readsLine_anywhere ..) ?_
  generalize hm' : execs (memsetPattern.take 2) m = m'
  have h' : FillAt m₀ k m' := hm' ▸ h.line (by decide) (by decide)
  -- the product repeats the byte in each of the four
  have ht1 : ∀ i < 4, (m'.get .t1).extractLsb' (8 * i) 8 = (m₀.get .a1).setWidth 8 := by
    intro i hi
    rw [← hm']
    show ((m.get .a1) * 0x01010101#32).extractLsb' (8 * i) 8 = _
    rw [h.a1]
    exact byte_pattern _ hi
  -- the pattern is stored on the stack and loaded as a vector
  have hsp' : m'.get .sp = m₀.get .sp := h'.saved .sp (by decide)
  refine Leads.line (patternVector .t1 .q0) (by decide) (readsLine_anywhere ..) ?_
  have hq0 := execs_patternVector_vregs (L := Label) .q0 (show Reg.t1 ≠ .sp by decide)
    (by rwa [hsp']) ht1
  refine FillAt.loop64 (k := k) ⟨?_, ?_, ?_, ?_, ?_, ?_⟩ hk hd hq0
  · rw [execs_get (by decide), h'.a0]
  · rw [execs_get (by decide), h'.a1]
  · rw [execs_get (by decide), h'.a2]
  · rw [execs_get (by decide), h'.t6]
  · -- the frame is the one left out
    rw [execs_patternVector_mem .q0 (by decide) ht1, hsp']
    exact h'.mem.trans (overwrite_agreeOff _ _ _ _ _)
  · intro r hr
    by_cases heq : r = .sp
    · rw [heq, execs_patternVector_sp, hsp']
    · rw [execs_get, h'.saved r hr]
      revert r
      decide

/-- A byte before the block boundary. -/
theorem FillAt.roundAlign (h : FillAt m₀ k m) (hk : k + 1 ≤ (m₀.get .a2).toNat) :
    FillAt m₀ (k + 1) (execs (memsetAlign.take 4) m) := by
  have hn := (m₀.get .a2).isLt
  apply h.round hk (by decide) (by decide) (by decide)
  show FilledTo m₀ (k + 1) (Function.update m.mem (off (m.get .a0) 0) ((m.get .a1).setWidth 8))
  rw [off_zero, h.a0]
  exact h.mem.update (by omega) h.byte

/-- The bytes before the first block. -/
theorem FillAt.alignLoop {t : Nat} (h : FillAt m₀ k m) (ht : (m.get .t0).toNat = t + 1)
    (hk : k + (t + 1) ≤ (m₀.get .a2).toNat) (hd : (off (m₀.get .a0) (k + (t + 1))).toNat % 16 = 0)
    (hsp : (m₀.get .sp).toNat % 16 = 0) :
    Returns addr m₀ (Filled m₀) ⟨.run (memopsCode .LmsAlign), m⟩ := by
  have hdec : ∀ m, (execs (memsetAlign.take 4) m).get .t0 = m.get .t0 + -BitVec.ofNat 32 1 :=
    fun m => execs_bumps (by decide) (by decide) m
  -- induction on the bytes up to the boundary, which `t0` counts
  induction t generalizing k m with
  | zero =>
    refine Leads.line (memsetAlign.take 4) (by decide) (readsLine_anywhere ..) ?_
    refine Leads.bnez (fun hne => absurd ?_ hne) fun _ => ?_
    · apply BitVec.eq_of_toNat_eq
      rw [hdec, toNat_add_neg (by omega), ht]
      rfl
    · exact (h.roundAlign (by omega)).pattern (by omega) hd hsp
  | succ t ih =>
    refine Leads.line (memsetAlign.take 4) (by decide) (readsLine_anywhere ..) ?_
    have ht' : ((execs (memsetAlign.take 4) m).get .t0).toNat = t + 1 := by
      rw [hdec, toNat_add_neg (by omega), ht, Nat.add_sub_cancel]
    have hround : FillAt m₀ (k + 1) (execs (memsetAlign.take 4) m) := h.roundAlign (by omega)
    rw [show k + (t + 1 + 1) = k + 1 + (t + 1) by omega] at hk hd
    refine Leads.bnez (fun _ => ih hround ht' hk hd) fun hzero => ?_
    rw [not_not.mp hzero] at ht'
    exact nomatch ht'

/-- `s31_xespv_memset` fills its range with the low byte of its argument. -/
theorem memset_filled (m₀ : Machine) (hsp : (m₀.get .sp).toNat % 16 = 0) :
    Returns addr m₀ (Filled m₀) ⟨.run (memopsCode .s31XespvMemset), m₀⟩ := by
  refine Leads.line (memsetEntry.take 3) (by decide) (readsLine_anywhere ..) ?_
  have h : FillAt m₀ 0 (execs (memsetEntry.take 3) m₀) := by
    refine ⟨(off_zero _).symm, rfl, rfl, rfl, ?_, (Saved.refl m₀).execs (by decide)⟩
    rw [FilledTo, overwrite_empty]
    exact AgreeOff.refl _ _ _
  refine Leads.bltu (fun _ => h.wordSetup (Nat.zero_le _)) fun hlt => ?_
  -- long enough for blocks
  have hge : 64 ≤ (m₀.get .a2).toNat := Nat.le_of_not_lt hlt
  refine Leads.line ((memsetEntry.drop 4).take 1) (by decide) (readsLine_anywhere ..) ?_
  have h₁ : FillAt m₀ 0 (execs ((memsetEntry.drop 4).take 1) (execs (memsetEntry.take 3) m₀)) :=
    h.line (by decide) (by decide)
  refine Leads.beqz (fun hzero => ?_) fun hne => ?_
  -- the target starts at a boundary
  · have hd := (and_15_eq_zero_iff (m₀.get .a0)).mp hzero
    exact h₁.pattern (Nat.zero_le _) (by rwa [off_zero]) hsp
  -- the count is large enough to reach the boundary
  · have hd : (m₀.get .a0).toNat % 16 ≠ 0 := fun hd => hne ((and_15_eq_zero_iff (m₀.get .a0)).mpr hd)
    refine Leads.line ((memsetEntry.drop 6).take 2) (by decide) (readsLine_anywhere ..) ?_
    have h₂ : FillAt m₀ 0 (execs ((memsetEntry.drop 6).take 2) _) :=
      h₁.line (by decide) (by decide)
    refine h₂.alignLoop (t := 15 - (m₀.get .a0).toNat % 16) ?_ (by omega) ?_ hsp
    · show (16#32 - (m₀.get .a0 &&& 15#32)).toNat = _
      rw [BitVec.toNat_sub, and_15_toNat, BitVec.toNat_ofNat]
      omega
    · rw [off_toNat]
      have := (m₀.get .a0).isLt
      omega

end

/-! ## The three routines -/

/-- What a C function that writes the bytes `f` to its first argument leaves, and
    `scratch` bytes below the stack pointer that the routine may use. -/
structure Wrote (m₀ : Machine) (scratch : Nat) (f : Nat → Byte) (m : Machine) : Prop where
  result : m.get .a0 = m₀.get .a0
  bytes : ∀ i < (m₀.get .a2).toNat, m.mem (off (m₀.get .a0) i) = f i
  others : ∀ x, ¬ InFrame (m₀.get .a0) (m₀.get .a2).toNat x →
    ¬ InFrame (m₀.get .sp + -BitVec.ofNat 32 scratch) scratch x → m.mem x = m₀.mem x

section

variable {m₀ m : Machine}

/-- What is copied is written, and nothing else. -/
theorem Copied.wrote (h : Copied m₀ m) : Wrote m₀ 0 (fun i => m₀.mem (off (m₀.get .a1) i)) m where
  result := h.1
  bytes i hi := by
    have hn := (m₀.get .a2).isLt
    rw [h.2]
    exact overwrite_of_mem ⟨Nat.zero_le i, hi⟩ (by omega)
  others x hx _ := by
    rw [h.2]
    exact overwrite_agreeOff _ _ _ _ _ x hx

/-- What is set is written, and nothing else but the frame of the pattern. -/
theorem Filled.wrote (h : Filled m₀ m)
    (hout : ∀ i < (m₀.get .a2).toNat, ¬ InFrame (m₀.get .sp + -16) 16 (off (m₀.get .a0) i)) :
    Wrote m₀ 16 (fun _ => (m₀.get .a1).setWidth 8) m where
  result := h.1
  bytes i hi := by
    have hn := (m₀.get .a2).isLt
    rw [h.2 _ (hout i hi)]
    exact overwrite_of_mem ⟨Nat.zero_le i, hi⟩ (by omega)
  others x hx hframe := by
    rw [h.2 x hframe]
    exact overwrite_agreeOff _ _ _ _ _ x hx

end

/-- `s31_xespv_memmove` copies whatever the overlap, `s31_xespv_memcpy` where the
    destination does not lie inside the source, and `s31_xespv_memset` fills with the
    low byte of its argument; only the last one uses the stack. -/
theorem memmove_memcpy_memset (addr : Label → Addr) (m₀ : Machine)
    (hd : (m₀.get .a0).toNat + (m₀.get .a2).toNat < 2 ^ 32) :
    ((m₀.get .a1).toNat + (m₀.get .a2).toNat < 2 ^ 32 →
      Returns addr m₀ (Wrote m₀ 0 fun i => m₀.mem (off (m₀.get .a1) i))
        ⟨.run (memopsCode .s31XespvMemmove), m₀⟩) ∧
    ((m₀.get .a1).toNat + (m₀.get .a2).toNat < 2 ^ 32 →
      (m₀.get .a0).toNat + (m₀.get .a2).toNat ≤ (m₀.get .a1).toNat ∨
        (m₀.get .a1).toNat + (m₀.get .a2).toNat ≤ (m₀.get .a0).toNat ∨
        (m₀.get .a0).toNat ≤ (m₀.get .a1).toNat →
      Returns addr m₀ (Wrote m₀ 0 fun i => m₀.mem (off (m₀.get .a1) i))
        ⟨.run (memopsCode .s31XespvMemcpy), m₀⟩) ∧
    ((m₀.get .sp).toNat % 16 = 0 →
      (∀ i < (m₀.get .a2).toNat, ¬ InFrame (m₀.get .sp + -16) 16 (off (m₀.get .a0) i)) →
      Returns addr m₀ (Wrote m₀ 16 fun _ => (m₀.get .a1).setWidth 8)
        ⟨.run (memopsCode .s31XespvMemset), m₀⟩) := by
  refine ⟨fun hs => ?_, fun hs hrange => ?_, fun hsp hout => ?_⟩
  · exact (memmove_copied m₀ hd hs).mono fun _ h => h.wrote
  -- in each of the three cases no byte is overwritten before it is read
  · have hahead := ahead_of_le hd hs (by omega)
    exact (memcpy_copied m₀ hahead).mono fun _ h => h.wrote
  · exact (memset_filled m₀ hsp).mono fun _ h => h.wrote hout

/-- 80 bytes moved up by 16, and down, and 100 bytes filled. -/
theorem memmove_memcpy_memset_overlap :
    Returns (fun _ => 512) (called 0x1010 0x1000 80 0 0x8000 fun x => x.setWidth 8)
        (Wrote (called 0x1010 0x1000 80 0 0x8000 fun x => x.setWidth 8) 0 fun i =>
          (off 0x1000 i).setWidth 8)
        ⟨.run (memopsCode .s31XespvMemmove),
          called 0x1010 0x1000 80 0 0x8000 fun x => x.setWidth 8⟩ ∧
      Returns (fun _ => 512) (called 0x1000 0x1010 80 0 0x8000 fun x => x.setWidth 8)
        (Wrote (called 0x1000 0x1010 80 0 0x8000 fun x => x.setWidth 8) 0 fun i =>
          (off 0x1010 i).setWidth 8)
        ⟨.run (memopsCode .s31XespvMemcpy),
          called 0x1000 0x1010 80 0 0x8000 fun x => x.setWidth 8⟩ ∧
      Returns (fun _ => 512) (called 0x1003 0x141 100 0 0x8000 fun x => x.setWidth 8)
        (Wrote (called 0x1003 0x141 100 0 0x8000 fun x => x.setWidth 8) 16 fun _ => 0x41)
        ⟨.run (memopsCode .s31XespvMemset),
          called 0x1003 0x141 100 0 0x8000 fun x => x.setWidth 8⟩ :=
  ⟨(memmove_memcpy_memset (fun _ => 512) _ (by decide)).1 (by decide),
    (memmove_memcpy_memset (fun _ => 512) _ (by decide)).2.1 (by decide) (by decide),
    (memmove_memcpy_memset (fun _ => 512) _ (by decide)).2.2 (by decide) (by decide +kernel)⟩

end EspS31.Xespv
