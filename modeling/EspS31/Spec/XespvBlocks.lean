import EspS31.ForStd.ByteRange
import EspS31.Native.Memops

/-!
# Straight lines of the XespV routines

What a straight line of instructions leaves alone, and the pieces that the string
routines share: the zero vector built on the stack, and the words of a stored
comparison or-ed and and-ed together.

## Key results

- `execs_get`, `execs_vregs`, `execs_mem`: registers and memory no instruction names
- `execs_patternVector_vregs`: the vector the entry code loads
- `execs_orLoads`, `execs_andLoads`: the words of a block combined
- `orWords_lanesEq`, `andWords_lanesEq`: what the combined words say of two vectors
-/

namespace EspS31.Xespv

open ByteMem

variable {L : Type}

/-! ## Frames of straight lines -/

/-- Two pieces of code in a row. -/
theorem execs_append (ops ops' : List (Instr L)) (m : Machine) :
    execs (ops ++ ops') m = execs ops' (execs ops m) := List.foldl_append

/-- The register an instruction writes. -/
def Instr.dest : Instr L → Option Reg
  | .mv rd _ | .li rd _ | .addi rd _ _ | .andi rd _ _ | .sltiu rd _ _ | .add rd _ _ | .sub rd _ _
  | .mul rd _ _ | .xor rd _ _ | .or rd _ _ | .and rd _ _ | .lbu rd _ _ | .lw rd _ _ => some rd
  | .vld _ rs _ | .vst _ rs _ => some rs
  | _ => none

/-- The vector register an instruction writes. -/
def Instr.vdest : Instr L → Option VReg
  | .vld q _ _ | .vcmpEqU8 q _ _ | .vaddU8 q _ _ => some q
  | _ => none

/-- The instructions that write memory. -/
def Instr.isStore : Instr L → Bool
  | .sb _ _ _ | .sw _ _ _ | .vst _ _ _ => true
  | _ => false

/-- Writing a register leaves the others. -/
theorem Machine.get_set_of_ne (m : Machine) {r rd : Reg} (v : BitVec 32) (h : r ≠ rd) :
    (m.set rd v).get r = m.get r := by
  rw [get_set, if_neg h]
  split
  · next hzero => rw [hzero, get_zero]
  · rfl

/-- An instruction leaves the registers that it does not write. -/
theorem Instr.exec_get {i : Instr L} {r : Reg} (h : i.dest ≠ some r) (m : Machine) :
    (i.exec m).get r = m.get r := by
  have hne : ∀ rd, i.dest = some rd → r ≠ rd := fun rd hrd heq => h (by rw [hrd, heq])
  cases i <;> simp only [exec, Machine.get_setV, Machine.get_setMem] <;>
    exact Machine.get_set_of_ne _ _ (hne _ rfl)

/-- An instruction leaves the vector registers that it does not write. -/
theorem Instr.exec_vregs {i : Instr L} {q : VReg} (h : i.vdest ≠ some q) (m : Machine) :
    (i.exec m).vregs q = m.vregs q := by
  have hne : ∀ qd, i.vdest = some qd → q ≠ qd := fun qd hqd heq => h (by rw [hqd, heq])
  cases i <;> simp only [exec, Machine.vregs_set, Machine.vregs_setMem, Machine.vregs_setV] <;>
    exact if_neg (hne _ rfl)

/-- An instruction that stores nothing leaves the memory. -/
theorem Instr.exec_mem {i : Instr L} (h : i.isStore = false) (m : Machine) :
    (i.exec m).mem = m.mem := by
  cases i <;> simp only [isStore, reduceCtorEq] at h <;> rfl

/-- A register that no instruction of the line writes. -/
theorem execs_get {ops : List (Instr L)} {r : Reg} (h : ∀ i ∈ ops, i.dest ≠ some r) (m : Machine) :
    (execs ops m).get r = m.get r := by
  induction ops generalizing m with
  | nil => rfl
  | cons i ops ih =>
    have hrest := ih (fun j hj => h j (List.mem_cons_of_mem _ hj)) (i.exec m)
    exact hrest.trans (Instr.exec_get (h i (List.mem_cons_self ..)) m)

/-- A vector register that no instruction of the line writes. -/
theorem execs_vregs {ops : List (Instr L)} {q : VReg} (h : ∀ i ∈ ops, i.vdest ≠ some q)
    (m : Machine) : (execs ops m).vregs q = m.vregs q := by
  induction ops generalizing m with
  | nil => rfl
  | cons i ops ih =>
    have hrest := ih (fun j hj => h j (List.mem_cons_of_mem _ hj)) (i.exec m)
    exact hrest.trans (Instr.exec_vregs (h i (List.mem_cons_self ..)) m)

/-- A line without stores. -/
theorem execs_mem {ops : List (Instr L)} (h : ∀ i ∈ ops, i.isStore = false) (m : Machine) :
    (execs ops m).mem = m.mem := by
  induction ops generalizing m with
  | nil => rfl
  | cons i ops ih =>
    have hrest := ih (fun j hj => h j (List.mem_cons_of_mem _ hj)) (i.exec m)
    exact hrest.trans (Instr.exec_mem (h i (List.mem_cons_self ..)) m)

/-! ## Jumps -/

section

variable {p : Program L} {m : Machine} {c : Config L} {rest : List (Instr L)} {l : L}

/-- A run over a branch on a difference. -/
theorem Reaches.bne {r r' : Reg}
    (h : Reaches p ⟨.run (if m.get r ≠ m.get r' then p.code l else rest), m⟩ c) :
    Reaches p ⟨.run (.bne r r' l :: rest), m⟩ c := .head rfl h

/-- A run over a branch on zero. -/
theorem Reaches.beqz {r : Reg}
    (h : Reaches p ⟨.run (if m.get r = 0 then p.code l else rest), m⟩ c) :
    Reaches p ⟨.run (.beqz r l :: rest), m⟩ c := .head rfl h

/-- A run over a branch on a value other than zero. -/
theorem Reaches.bnez {r : Reg}
    (h : Reaches p ⟨.run (if m.get r ≠ 0 then p.code l else rest), m⟩ c) :
    Reaches p ⟨.run (.bnez r l :: rest), m⟩ c := .head rfl h

/-- A run over a jump. -/
theorem Reaches.j (h : Reaches p ⟨.run (p.code l), m⟩ c) :
    Reaches p ⟨.run (.j l :: rest), m⟩ c := .head rfl h

end

/-- A return to a caller outside the routines. -/
theorem Reaches.ret {returnAddr : Addr} {m : Machine} {rest : Code} (h : m.get .ra ≠ returnAddr) :
    Reaches (memops returnAddr) ⟨.run (.ret :: rest), m⟩ ⟨.out (m.get .ra), m⟩ := by
  have hgoto : (memops returnAddr).goto (m.get .ra) = .out (m.get .ra) := by
    simp [Program.goto, memops, List.find?, h.symm]
  refine .single ?_
  simp only [step, hgoto]

/-! ## Strings and their alignment -/

/-- A NUL-terminated string in memory. -/
def CString (mem : Mem) : Addr → List Byte → Prop
  | a, [] => mem a = 0
  | a, x :: s => mem a = x ∧ x ≠ 0 ∧ CString mem (off a 1) s

instance (mem : Mem) : ∀ (a : Addr) (s : List Byte), Decidable (CString mem a s)
  | a, [] => inferInstanceAs (Decidable (mem a = 0))
  | a, x :: s =>
    have := instDecidableCString mem (off a 1) s
    inferInstanceAs (Decidable (mem a = x ∧ x ≠ 0 ∧ CString mem (off a 1) s))

/-- An offset from the next address. -/
theorem off_succ (a : Addr) (k : Nat) : off (off a 1) k = off a (k + 1) := by
  rw [off_off, Nat.add_comm]

/-- No byte of a string is zero. -/
theorem CString.nonzero {mem : Mem} {a : Addr} {str : List Byte} (h : CString mem a str) :
    ∀ i < str.length, mem (off a i) ≠ 0 := by
  induction str generalizing a with
  | nil => simp
  | cons x str ih =>
    obtain ⟨hx, hne, htail⟩ := h
    intro i hi
    cases i with
    | zero => rwa [off_zero, hx]
    | succ i =>
      rw [← off_succ]
      exact ih htail i (by simpa using hi)

/-- A string is followed by a zero. -/
theorem CString.terminator {mem : Mem} {a : Addr} {str : List Byte} (h : CString mem a str) :
    mem (off a str.length) = 0 := by
  induction str generalizing a with
  | nil => rwa [List.length_nil, off_zero]
  | cons x str ih => rw [List.length_cons, ← off_succ, ih h.2.2]

/-- A terminated string fits into the address space. -/
theorem CString.length_lt {mem : Mem} {a : Addr} {str : List Byte} (h : CString mem a str) :
    str.length < 2 ^ 32 := by
  by_contra hge
  have hwrap : off a (str.length - 2 ^ 32) = off a str.length := by
    apply BitVec.eq_of_toNat_eq
    rw [off_toNat, off_toNat]
    omega
  refine h.nonzero (str.length - 2 ^ 32) (by omega) ?_
  rw [hwrap]
  exact h.terminator

/-- Bytes widened to words. -/
theorem setWidth_eq_iff (x y : Byte) : x.setWidth 32 = y.setWidth 32 ↔ x = y := by
  rw [← BitVec.toNat_inj, ← BitVec.toNat_inj, BitVec.toNat_setWidth, BitVec.toNat_setWidth]
  have := x.isLt
  have := y.isLt
  omega

/-- The pointers agree in their low four bits. -/
def CoAligned (a b : Addr) : Prop := a.toNat % 16 = b.toNat % 16

instance (a b : Addr) : Decidable (CoAligned a b) := inferInstanceAs (Decidable (_ = _))

/-- The vector the blocks of a string are searched with: the entry code builds the
    zero vector for co-aligned pointers only and else leaves the register as it was. -/
def terminators (z : Lanes) (a b : Addr) : Lanes := if CoAligned a b then fun _ => 0 else z

/-- Positions from which a vector loop is entered: the boundaries of the blocks
    of the tested string `a`, the first byte's own only for co-aligned strings. -/
def VecStart (a b : Addr) (k : Nat) : Prop :=
  (a.toNat + k) % 16 = 0 ∧ (CoAligned a b ∨ 16 - a.toNat % 16 ≤ k)

instance (a b : Addr) (k : Nat) : Decidable (VecStart a b k) := inferInstanceAs (Decidable (_ ∧ _))

/-- The block at a boundary holds the sixteen bytes from there on. -/
theorem loadBlock_aligned (mem : Mem) {a : Addr} {k : Nat} (h : (a.toNat + k) % 16 = 0)
    (i : Fin 16) : loadBlock mem (off a k) i = mem (off a (k + i)) := by
  have haligned : (off a k).toNat % 16 = 0 := by
    rw [off_toNat]
    omega
  rw [loadBlock, align16_of_aligned haligned, off_off]

/-! ## Pieces of the string routines -/

/-- Both pointers moved on. -/
def advance (n : BitVec 32) : List (Instr L) := [
  .addi .a0 .a0 n,
  .addi .a1 .a1 n]

/-- The four words at the stack pointer or-ed into `t0`. -/
def orLoads : List (Instr L) := [
  .lw .t0 0 .sp,
  .lw .t1 4 .sp,
  .or .t0 .t0 .t1,
  .lw .t1 8 .sp,
  .or .t0 .t0 .t1,
  .lw .t1 12 .sp,
  .or .t0 .t0 .t1]

/-- The next four words and-ed into `t2`. -/
def andLoads : List (Instr L) := [
  .lw .t2 16 .sp,
  .lw .t1 20 .sp,
  .and .t2 .t2 .t1,
  .lw .t1 24 .sp,
  .and .t2 .t2 .t1,
  .lw .t1 28 .sp,
  .and .t2 .t2 .t1]

/-- Both pointers go on. -/
theorem execs_advance (n : Nat) (m : Machine) :
    (execs (L := L) (advance (BitVec.ofNat 32 n)) m).get .a0 = off (m.get .a0) n ∧
      (execs (L := L) (advance (BitVec.ofNat 32 n)) m).get .a1 = off (m.get .a1) n := by
  simp only [advance, execs, List.foldl, Instr.exec, Machine.get_set, reduceCtorEq, if_false,
    if_true, off, and_self]

/-- The four words of a mask, put together by `or`. -/
theorem execs_orLoads (m : Machine) :
    (execs (L := L) orLoads m).get .t0 = orWords m.mem (m.get .sp) := by
  simp only [orLoads, execs, List.foldl, Instr.exec, Machine.get_set, Machine.mem_set,
    reduceCtorEq, if_false, if_true, orWords, off_zero]

/-- The four words of a mask, put together by `and`. -/
theorem execs_andLoads (m : Machine) :
    (execs (L := L) andLoads m).get .t2 = andWords m.mem (off (m.get .sp) 16) := by
  simp only [andLoads, execs, List.foldl, Instr.exec, Machine.get_set, Machine.mem_set,
    reduceCtorEq, if_false, if_true, andWords, off_off, Nat.reduceAdd]

/-! ### Comparing two vectors -/

/-- No bit of a stored comparison is set when the vectors agree in no lane. -/
theorem orWords_lanesEq {mem : Mem} {f : Addr} {v w : Lanes}
    (h : ∀ k (hk : k < 16), mem (off f k) = lanesEq v w ⟨k, hk⟩) :
    orWords mem f = 0#32 ↔ ∀ i, v i ≠ w i := by
  rw [orWords_eq_zero_iff]
  constructor
  · intro hzero i heq
    have hlane := (h i i.isLt).symm.trans (hzero i i.isLt)
    simp only [lanesEq, Fin.eta, heq, if_true] at hlane
    exact absurd hlane (by decide)
  · intro hne k hk
    rw [h k hk, lanesEq, if_neg (hne _)]
    rfl

/-- All bits of a stored comparison are set when the vectors agree in every lane. -/
theorem andWords_lanesEq {mem : Mem} {f : Addr} {v w : Lanes}
    (h : ∀ k (hk : k < 16), mem (off f k) = lanesEq v w ⟨k, hk⟩) :
    andWords mem f = 0xffffffff#32 ↔ ∀ i, v i = w i := by
  rw [andWords_eq_ones_iff]
  constructor
  · intro hones i
    by_contra hne
    have hlane := (h i i.isLt).symm.trans (hones i i.isLt)
    simp only [lanesEq, Fin.eta, hne, if_false] at hlane
    exact absurd hlane (by decide)
  · intro heq k hk
    rw [h k hk, lanesEq, if_pos (heq _)]
    rfl

/-! ### A vector of one byte -/

/-- A block of four copies of a word whose bytes are all the same. -/
private theorem storeWord_pattern {w : BitVec 32} {b : Byte} (mem : Mem) {f : Addr}
    (hb : ∀ i < 4, w.extractLsb' (8 * i) 8 = b) :
    storeWord (storeWord (storeWord (storeWord mem (off f 0) w) (off f 4) w) (off f 8) w)
      (off f 12) w = overwrite mem f 0 16 fun _ => b := by
  have h4 : storeWord mem (off f 0) w = overwrite mem f 0 4 fun _ => b :=
    storeWord_eq_overwrite _ _ (by omega) hb
  have h8 : storeWord (overwrite mem f 0 4 fun _ => b) (off f 4) w =
      overwrite mem f 0 8 fun _ => b := storeWord_overwrite_up (by omega) (by omega) hb
  have h12 : storeWord (overwrite mem f 0 8 fun _ => b) (off f 8) w =
      overwrite mem f 0 12 fun _ => b := storeWord_overwrite_up (by omega) (by omega) hb
  rw [h4, h8, h12]
  exact storeWord_overwrite_up (by omega) (by omega) hb

/-- A word stored four times below the stack pointer and loaded as a vector. -/
def patternVector (r : Reg) (q : VReg) : List (Instr L) := [
  .addi .sp .sp (-16),
  .sw r 0 .sp,
  .sw r 4 .sp,
  .sw r 8 .sp,
  .sw r 12 .sp,
  .mv .a3 .sp,
  .vld q .a3 0,
  .addi .sp .sp 16]

section

variable {r : Reg} {m : Machine} {b : Byte}

/-- The register `zero` has four zero bytes. -/
theorem zero_bytes (m : Machine) : ∀ i < 4, (m.get .zero).extractLsb' (8 * i) 8 = (0 : Byte) :=
  fun _ _ => BitVec.extractLsb'_zero

/-- The stack pointer is as it was. -/
theorem execs_patternVector_sp (q : VReg) :
    (execs (L := L) (patternVector r q) m).get .sp = m.get .sp := by
  simp only [patternVector, execs, List.foldl, Instr.exec, Machine.get_set, Machine.get_setMem,
    Machine.get_setV, reduceCtorEq, if_false, if_true]
  rw [BitVec.add_assoc, BitVec.add_left_neg, BitVec.add_zero]

/-- The pattern is stored below the stack pointer. -/
theorem execs_patternVector_mem (q : VReg) (hr : r ≠ .sp)
    (hb : ∀ i < 4, (m.get r).extractLsb' (8 * i) 8 = b) :
    (execs (L := L) (patternVector r q) m).mem =
      overwrite m.mem (m.get .sp + -16) 0 16 fun _ => b := by
  have hget : (m.set .sp (m.get .sp + -16)).get r = m.get r := Machine.get_set_of_ne m _ hr
  have hstores := storeWord_pattern (f := m.get .sp + -16) m.mem hb
  rw [← hget] at hstores
  exact hstores

/-- The machine about to load the vector. -/
theorem execs_patternVector_a3 (q : VReg) :
    (execs (L := L) ((patternVector r q).take 6) m).get .a3 = m.get .sp + -16 := by
  simp [patternVector, execs, Instr.exec]

/-- Every lane of the vector is the byte that the word repeats. -/
theorem execs_patternVector_vregs (q : VReg) (hr : r ≠ .sp) (hsp : (m.get .sp).toNat % 16 = 0)
    (hb : ∀ i < 4, (m.get r).extractLsb' (8 * i) 8 = b) :
    (execs (L := L) (patternVector r q) m).vregs q = fun _ => b := by
  have hf : (m.get .sp + -16).toNat % 16 = 0 := add_aligned hsp (by decide)
  have ha3 := execs_patternVector_a3 (L := L) (r := r) (m := m) q
  generalize hm' : execs (L := L) ((patternVector r q).take 6) m = m' at ha3
  have hsplit : execs (L := L) (patternVector r q) m =
      execs (L := L) [.vld q .a3 0, .addi .sp .sp 16] m' := by
    rw [← hm', ← execs_append]
    rfl
  -- the four words have filled the block, which is then loaded
  have hmem : m'.mem = overwrite m.mem (m.get .sp + -16) 0 16 fun _ => b := by
    rw [← execs_patternVector_mem (L := L) q hr hb, hsplit, execs_mem (by simp [Instr.isStore])]
  have hload : (execs (L := L) [.vld q .a3 0, .addi .sp .sp 16] m').vregs q =
      loadBlock m'.mem (m'.get .a3) := by
    simp [execs, Instr.exec]
  funext i
  rw [hsplit, hload, hmem, ha3, loadBlock, align16_of_aligned hf]
  exact overwrite_of_mem ⟨Nat.zero_le _, i.isLt⟩ (by omega)

end

end EspS31.Xespv
