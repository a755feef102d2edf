import EspS31.ForStd.ByteMem

/-!
# The instructions of the XespV routines

The RV32 and XespV instructions that `s31_xespv_memops.S` uses, over a byte
memory.  `esp.vld.128.ip` and `esp.vst.128.ip` access the block of the address,
its low four bits ignored, and then add their immediate to the address register;
`esp.vcmp.eq.u8` yields `0xff` in the lanes that agree and `0x00` in the others;
`esp.vadd.u8` adds unsigned lanes and saturates at 255.  `tail f` is a jump to `f`.

A program maps each label to the instructions from there to the end of its
function, so that falling through to the next label needs no step.
-/

namespace EspS31.Xespv

open ByteMem

/-- The registers that the routines use. -/
inductive Reg where
  | zero | ra | sp | t0 | t1 | t2 | t6 | s0 | s1 | s2 | s3 | s4 | a0 | a1 | a2 | a3 | a4
deriving DecidableEq, Repr

/-- The vector registers that the routines use. -/
inductive VReg where
  | q0 | q1 | q2 | q3 | q4
deriving DecidableEq, Repr

/-- The registers, the vector registers and the memory. -/
structure Machine where
  regs : Reg → BitVec 32
  vregs : VReg → Lanes
  mem : Mem

namespace Machine

/-- Register `zero` reads as 0. -/
def get (m : Machine) (r : Reg) : BitVec 32 := if r = .zero then 0 else m.regs r

/-- A register written; `zero` keeps reading 0. -/
def set (m : Machine) (r : Reg) (v : BitVec 32) : Machine :=
  { m with regs := Function.update m.regs r v }

/-- A vector register written. -/
def setV (m : Machine) (q : VReg) (v : Lanes) : Machine :=
  { m with vregs := Function.update m.vregs q v }

/-- The memory replaced. -/
def setMem (m : Machine) (mem : Mem) : Machine := { m with mem := mem }

end Machine

/-- Instructions, operands in the order of the assembly.  `call f ret` names the
    instruction after it, to which `f` returns. -/
inductive Instr (L : Type) where
  | mv (rd rs : Reg)
  | li (rd : Reg) (imm : BitVec 32)
  | addi (rd rs : Reg) (imm : BitVec 32)
  | andi (rd rs : Reg) (imm : BitVec 32)
  | sltiu (rd rs : Reg) (imm : BitVec 32)
  | add (rd rs₁ rs₂ : Reg)
  | sub (rd rs₁ rs₂ : Reg)
  | mul (rd rs₁ rs₂ : Reg)
  | xor (rd rs₁ rs₂ : Reg)
  | or (rd rs₁ rs₂ : Reg)
  | and (rd rs₁ rs₂ : Reg)
  | lbu (rd : Reg) (imm : Nat) (rs : Reg)
  | lw (rd : Reg) (imm : Nat) (rs : Reg)
  | sb (rs₂ : Reg) (imm : Nat) (rs₁ : Reg)
  | sw (rs₂ : Reg) (imm : Nat) (rs₁ : Reg)
  | fence
  | vld (q : VReg) (rs : Reg) (imm : BitVec 32)
  | vst (q : VReg) (rs : Reg) (imm : BitVec 32)
  | vcmpEqU8 (qd qa qb : VReg)
  | vaddU8 (qd qa qb : VReg)
  | beq (rs₁ rs₂ : Reg) (target : L)
  | bne (rs₁ rs₂ : Reg) (target : L)
  | bltu (rs₁ rs₂ : Reg) (target : L)
  | bgeu (rs₁ rs₂ : Reg) (target : L)
  | beqz (rs : Reg) (target : L)
  | bnez (rs : Reg) (target : L)
  | j (target : L)
  | call (f ret : L)
  | ret
deriving DecidableEq, Repr

/-- The lanes in which two vectors agree. -/
def lanesEq (v w : Lanes) : Lanes := fun i => if v i = w i then 0xff else 0

/-- Lane sums, at most 255. -/
def lanesAddSat (v w : Lanes) : Lanes := fun i =>
  BitVec.ofNat 8 (min 255 ((v i).toNat + (w i).toNat))

/-- The effect of an instruction that goes on to the next one. -/
def Instr.exec {L : Type} (m : Machine) : Instr L → Machine
  | .mv rd rs => m.set rd (m.get rs)
  | .li rd imm => m.set rd imm
  | .addi rd rs imm => m.set rd (m.get rs + imm)
  | .andi rd rs imm => m.set rd (m.get rs &&& imm)
  | .sltiu rd rs imm => m.set rd (if m.get rs < imm then 1 else 0)
  | .add rd rs₁ rs₂ => m.set rd (m.get rs₁ + m.get rs₂)
  | .sub rd rs₁ rs₂ => m.set rd (m.get rs₁ - m.get rs₂)
  | .mul rd rs₁ rs₂ => m.set rd (m.get rs₁ * m.get rs₂)
  | .xor rd rs₁ rs₂ => m.set rd (m.get rs₁ ^^^ m.get rs₂)
  | .or rd rs₁ rs₂ => m.set rd (m.get rs₁ ||| m.get rs₂)
  | .and rd rs₁ rs₂ => m.set rd (m.get rs₁ &&& m.get rs₂)
  | .lbu rd imm rs => m.set rd ((m.mem (off (m.get rs) imm)).setWidth 32)
  | .lw rd imm rs => m.set rd (loadWord m.mem (off (m.get rs) imm))
  | .sb rs₂ imm rs₁ =>
    m.setMem (Function.update m.mem (off (m.get rs₁) imm) ((m.get rs₂).setWidth 8))
  | .sw rs₂ imm rs₁ => m.setMem (storeWord m.mem (off (m.get rs₁) imm) (m.get rs₂))
  | .fence => m
  -- the block accesses ignore the low address bits and advance the pointer
  | .vld q rs imm => (m.setV q (loadBlock m.mem (m.get rs))).set rs (m.get rs + imm)
  | .vst q rs imm =>
    (m.setMem (storeBlock m.mem (m.get rs) (m.vregs q))).set rs (m.get rs + imm)
  | .vcmpEqU8 qd qa qb => m.setV qd (lanesEq (m.vregs qa) (m.vregs qb))
  | .vaddU8 qd qa qb => m.setV qd (lanesAddSat (m.vregs qa) (m.vregs qb))
  -- what these do is in `step`
  | .beq _ _ _ | .bne _ _ _ | .bltu _ _ _ | .bgeu _ _ _ | .beqz _ _ | .bnez _ _ | .j _
  | .call _ _ | .ret => m

/-- Instructions that may go elsewhere than to the next one. -/
def Instr.isJump {L : Type} : Instr L → Bool
  | .beq _ _ _ | .bne _ _ _ | .bltu _ _ _ | .bgeu _ _ _ | .beqz _ _ | .bnez _ _ | .j _
  | .call _ _ | .ret => true
  | _ => false

/-- The code, the addresses of the instructions calls return to, and those
    instructions. -/
structure Program (L : Type) where
  code : L → List (Instr L)
  addr : L → Addr
  returns : List L

/-- The instructions still to be executed, or an address outside the program. -/
inductive Pc (L : Type) where
  | run (rest : List (Instr L))
  | out (a : Addr)
deriving DecidableEq, Repr

/-- Where a run is, with its machine. -/
structure Config (L : Type) where
  pc : Pc L
  m : Machine

/-- Where a return to address `a` continues. -/
def Program.goto {L : Type} (p : Program L) (a : Addr) : Pc L :=
  match p.returns.find? fun l => p.addr l = a with
  | some l => .run (p.code l)
  | none => .out a

/-- One instruction; nothing follows the end of a routine. -/
def step {L : Type} (p : Program L) (c : Config L) : Option (Config L) :=
  match c.pc with
  | .out _ => none
  | .run [] => none
  | .run (i :: rest) =>
    match i with
    | .beq rs₁ rs₂ l => some ⟨.run (if c.m.get rs₁ = c.m.get rs₂ then p.code l else rest), c.m⟩
    | .bltu rs₁ rs₂ l => some ⟨.run (if c.m.get rs₁ < c.m.get rs₂ then p.code l else rest), c.m⟩
    | .bgeu rs₁ rs₂ l => some ⟨.run (if c.m.get rs₂ ≤ c.m.get rs₁ then p.code l else rest), c.m⟩
    | .bne rs₁ rs₂ l => some ⟨.run (if c.m.get rs₁ ≠ c.m.get rs₂ then p.code l else rest), c.m⟩
    | .beqz rs l => some ⟨.run (if c.m.get rs = 0 then p.code l else rest), c.m⟩
    | .bnez rs l => some ⟨.run (if c.m.get rs ≠ 0 then p.code l else rest), c.m⟩
    | .j l => some ⟨.run (p.code l), c.m⟩
    -- a return goes to whatever `ra` holds
    | .call f ret => some ⟨.run (p.code f), c.m.set .ra (p.addr ret)⟩
    | .ret => some ⟨p.goto (c.m.get .ra), c.m⟩
    | i => some ⟨.run rest, i.exec c.m⟩

/-- Runs of any length. -/
inductive Reaches {L : Type} (p : Program L) : Config L → Config L → Prop where
  | refl (c) : Reaches p c c
  | head {c c' c''} (h : step p c = some c') (hrest : Reaches p c' c'') : Reaches p c c''

/-- At most `n` steps. -/
def run {L : Type} (p : Program L) : Nat → Config L → Config L
  | 0, c => c
  | n + 1, c =>
    match step p c with
    | none => c
    | some c' => run p n c'

/-! ## Runs -/

section

variable {L : Type} {p : Program L} {c c' c'' : Config L}

/-- Two runs one after the other. -/
theorem Reaches.trans (h : Reaches p c c') (h' : Reaches p c' c'') : Reaches p c c'' := by
  induction h with
  | refl => exact h'
  | head hstep _ ih => exact .head hstep (ih h')

/-- One step is a run. -/
theorem Reaches.single (h : step p c = some c') : Reaches p c c' := .head h (.refl _)

/-- Running for `n` steps is a run. -/
theorem reaches_run (n : Nat) (c : Config L) : Reaches p c (run p n c) := by
  induction n generalizing c with
  | zero => exact .refl c
  | succ n ih =>
    simp only [run]
    split
    · exact .refl c
    · next c' hstep => exact .head hstep (ih c')

/-- A run ends in one configuration only. -/
theorem Reaches.unique (h : Reaches p c c') (h' : Reaches p c c'') (hend : step p c' = none)
    (hend' : step p c'' = none) : c' = c'' := by
  induction h with
  | refl =>
    cases h' with
    | refl => rfl
    | head hstep _ => exact nomatch hend.symm.trans hstep
  | head hstep _ ih =>
    cases h' with
    | refl => exact nomatch hend'.symm.trans hstep
    | head hstep' hrest' =>
      obtain rfl := Option.some.inj (hstep.symm.trans hstep')
      exact ih hrest' hend

/-- A straight line of instructions. -/
def execs {L : Type} (ops : List (Instr L)) (m : Machine) : Machine := ops.foldl Instr.exec m

/-- Instructions without a jump are executed in order. -/
theorem Reaches.line (ops : List (Instr L)) {rest : List (Instr L)}
    (h : ∀ i ∈ ops, i.isJump = false) (m : Machine) :
    Reaches p ⟨.run (ops ++ rest), m⟩ ⟨.run rest, execs ops m⟩ := by
  induction ops generalizing m with
  | nil => exact .refl _
  | cons i ops ih =>
    have hi := h i (List.mem_cons_self ..)
    have hstep : step p ⟨.run (i :: (ops ++ rest)), m⟩ = some ⟨.run (ops ++ rest), i.exec m⟩ := by
      cases i <;> first | rfl | exact nomatch hi
    exact .head hstep (ih (fun j hj => h j (List.mem_cons_of_mem _ hj)) _)

end

/-! ## Register and memory effects -/

namespace Machine

variable (m : Machine) (r r' : Reg) (q q' : VReg) (v : BitVec 32) (w : Lanes) (mem : Mem)

/-- What is read after a register was written. -/
@[simp] theorem get_set :
    (m.set r v).get r' = if r' = .zero then 0 else if r' = r then v else m.get r' := by
  simp only [get, set, Function.update_apply]
  split <;> rfl

/-- Writing a vector register leaves the registers. -/
@[simp] theorem get_setV : (m.setV q w).get r = m.get r := rfl

/-- Replacing the memory leaves the registers. -/
@[simp] theorem get_setMem : (m.setMem mem).get r = m.get r := rfl

/-- Writing a register leaves the memory. -/
@[simp] theorem mem_set : (m.set r v).mem = m.mem := rfl

/-- Writing a vector register leaves the memory. -/
@[simp] theorem mem_setV : (m.setV q w).mem = m.mem := rfl

/-- The memory is the one that was put. -/
@[simp] theorem mem_setMem : (m.setMem mem).mem = mem := rfl

/-- Writing a register leaves the vector registers. -/
@[simp] theorem vregs_set : (m.set r v).vregs = m.vregs := rfl

/-- Replacing the memory leaves the vector registers. -/
@[simp] theorem vregs_setMem : (m.setMem mem).vregs = m.vregs := rfl

/-- What is in a vector register after one was written. -/
@[simp] theorem vregs_setV : (m.setV q w).vregs q' = if q' = q then w else m.vregs q' := by
  simp only [setV, Function.update_apply]

/-- The register `zero` reads 0. -/
@[simp] theorem get_zero : m.get .zero = 0 := rfl

end Machine

end EspS31.Xespv
