import EspS31.ForStd.ByteRange
import EspS31.Spec.XespvBlocks

/-!
# Runs of the XespV routines

Runs whose instructions read only certain bytes of memory, followed from jump to
jump: a straight line is executed as a whole, a branch leads on from either side, and
a loop is verified by induction over its rounds.

## Key results

- `Leads.trans`: runs in sequence
- `Leads.line`: a straight line of instructions
- `Leads.ret`: a routine returns to its caller
-/

namespace EspS31.Xespv

open ByteMem

variable {L : Type}

/-- The bytes an instruction reads satisfy `R`. -/
def Instr.ReadsIn (R : Addr → Prop) (m : Machine) : Instr L → Prop
  | .lbu _ imm rs => R (off (m.get rs) imm)
  | .lw _ imm rs => ∀ i < 4, R (off (m.get rs) (imm + i))
  | .vld _ rs _ => ∀ i < 16, R (off (align16 (m.get rs)) i)
  | _ => True

/-- The bytes read by the next instruction satisfy `R`. -/
def Config.ReadsIn (R : Addr → Prop) (c : Config L) : Prop :=
  match c.pc with
  | .run (i :: _) => i.ReadsIn R c.m
  | _ => True

/-- Runs whose instructions only read bytes that satisfy `R`. -/
inductive Runs (p : Program L) (R : Addr → Prop) : Config L → Config L → Prop where
  | refl (c) : Runs p R c c
  | head {c c' c''} (hread : c.ReadsIn R) (h : step p c = some c') (hrest : Runs p R c' c'') :
    Runs p R c c''

/-- A run gets to a configuration of which `Q` holds. -/
def Leads (p : Program L) (R : Addr → Prop) (Q : Config L → Prop) (c : Config L) : Prop :=
  ∃ c', Runs p R c c' ∧ Q c'

section

variable {p : Program L} {R R' : Addr → Prop} {Q Q' : Config L → Prop} {c c' c'' : Config L}

/-- Two runs one after the other. -/
theorem Runs.trans (h : Runs p R c c') (h' : Runs p R c' c'') : Runs p R c c'' := by
  induction h with
  | refl => exact h'
  | head hread hstep _ ih => exact .head hread hstep (ih h')

/-- A run with its loads recorded is a run. -/
theorem Runs.reaches (h : Runs p R c c') : Reaches p c c' := by
  induction h with
  | refl => exact .refl _
  | head _ hstep _ ih => exact .head hstep ih

/-- A load that is allowed is allowed where more is. -/
theorem Config.ReadsIn.mono (h : c.ReadsIn R) (hR : ∀ x, R x → R' x) : c.ReadsIn R' := by
  obtain ⟨pc, m⟩ := c
  cases pc with
  | out a => trivial
  | run ops =>
    cases ops with
    | nil => trivial
    | cons i rest =>
      cases i
      case lbu => exact hR _ h
      case lw => exact fun i hi => hR _ (h i hi)
      case vld => exact fun i hi => hR _ (h i hi)
      all_goals trivial

/-- A run is one where more may be read. -/
theorem Runs.mono (h : Runs p R c c') (hR : ∀ x, R x → R' x) : Runs p R' c c' := by
  induction h with
  | refl => exact .refl _
  | head hread hstep _ ih => exact .head (hread.mono hR) hstep ih

/-- A run that is where it should be. -/
theorem Leads.here (h : Q c) : Leads p R Q c := ⟨c, .refl c, h⟩

/-- A run that goes on from where another led. -/
theorem Leads.trans (h : Leads p R Q c) (h' : ∀ c', Q c' → Leads p R Q' c') : Leads p R Q' c := by
  obtain ⟨c', hrun, hc'⟩ := h
  obtain ⟨c'', hrun', hc''⟩ := h' c' hc'
  exact ⟨c'', hrun.trans hrun', hc''⟩

/-- The bytes read are of no concern. -/
theorem Leads.anywhere (h : Leads p R Q c) : Leads p (fun _ => True) Q c := by
  obtain ⟨c', hrun, hc'⟩ := h
  exact ⟨c', hrun.mono fun _ _ => trivial, hc'⟩

/-- A run that goes on after one instruction. -/
theorem Leads.step (hread : c.ReadsIn R) (hstep : step p c = some c') (h : Leads p R Q c') :
    Leads p R Q c := by
  obtain ⟨c'', hrun, hc''⟩ := h
  exact ⟨c'', .head hread hstep hrun, hc''⟩

end

/-! ## Jumps -/

/-- A branch leads on from either side. -/
theorem Leads.branch {p : Program L} {R : Addr → Prop} {Q : Config L → Prop} {b : Prop}
    [Decidable b] {ops ops' : List (Instr L)} {m : Machine}
    (htrue : b → Leads p R Q ⟨.run ops, m⟩) (hfalse : ¬ b → Leads p R Q ⟨.run ops', m⟩) :
    Leads p R Q ⟨.run (if b then ops else ops'), m⟩ := by
  split
  · next hb => exact htrue hb
  · next hb => exact hfalse hb

section

variable {p : Program L} {R : Addr → Prop} {Q : Config L → Prop} {m : Machine}
  {rest : List (Instr L)} {l ret : L} {r r' : Reg}

/-- A branch on equality, by its two ways. -/
theorem Leads.beq (htaken : m.get r = m.get r' → Leads p R Q ⟨.run (p.code l), m⟩)
    (hnot : ¬ m.get r = m.get r' → Leads p R Q ⟨.run rest, m⟩) :
    Leads p R Q ⟨.run (.beq r r' l :: rest), m⟩ := .step trivial rfl (.branch htaken hnot)

/-- A branch on a difference, by its two ways. -/
theorem Leads.bne (htaken : m.get r ≠ m.get r' → Leads p R Q ⟨.run (p.code l), m⟩)
    (hnot : ¬ m.get r ≠ m.get r' → Leads p R Q ⟨.run rest, m⟩) :
    Leads p R Q ⟨.run (.bne r r' l :: rest), m⟩ := .step trivial rfl (.branch htaken hnot)

/-- A branch on `<`, unsigned, by its two ways. -/
theorem Leads.bltu (htaken : m.get r < m.get r' → Leads p R Q ⟨.run (p.code l), m⟩)
    (hnot : ¬ m.get r < m.get r' → Leads p R Q ⟨.run rest, m⟩) :
    Leads p R Q ⟨.run (.bltu r r' l :: rest), m⟩ := .step trivial rfl (.branch htaken hnot)

/-- A branch on `≥`, unsigned, by its two ways. -/
theorem Leads.bgeu (htaken : m.get r' ≤ m.get r → Leads p R Q ⟨.run (p.code l), m⟩)
    (hnot : ¬ m.get r' ≤ m.get r → Leads p R Q ⟨.run rest, m⟩) :
    Leads p R Q ⟨.run (.bgeu r r' l :: rest), m⟩ := .step trivial rfl (.branch htaken hnot)

/-- A branch on zero, by its two ways. -/
theorem Leads.beqz (htaken : m.get r = 0 → Leads p R Q ⟨.run (p.code l), m⟩)
    (hnot : ¬ m.get r = 0 → Leads p R Q ⟨.run rest, m⟩) :
    Leads p R Q ⟨.run (.beqz r l :: rest), m⟩ := .step trivial rfl (.branch htaken hnot)

/-- A branch on a value other than zero, by its two ways. -/
theorem Leads.bnez (htaken : m.get r ≠ 0 → Leads p R Q ⟨.run (p.code l), m⟩)
    (hnot : ¬ m.get r ≠ 0 → Leads p R Q ⟨.run rest, m⟩) :
    Leads p R Q ⟨.run (.bnez r l :: rest), m⟩ := .step trivial rfl (.branch htaken hnot)

/-- A jump. -/
theorem Leads.j (h : Leads p R Q ⟨.run (p.code l), m⟩) : Leads p R Q ⟨.run (.j l :: rest), m⟩ :=
  .step trivial rfl h

/-- A call: `ra` holds the address of the return. -/
theorem Leads.call (h : Leads p R Q ⟨.run (p.code l), m.set .ra (p.addr ret)⟩) :
    Leads p R Q ⟨.run (.call l ret :: rest), m⟩ := .step trivial rfl h

end

/-! ## Straight lines -/

/-- The bytes that a straight line reads satisfy `R`. -/
def ReadsLine (R : Addr → Prop) : List (Instr L) → Machine → Prop
  | [], _ => True
  | i :: ops, m => i.ReadsIn R m ∧ ReadsLine R ops (i.exec m)

/-- The loads of two pieces of code in a row. -/
theorem readsLine_append {R : Addr → Prop} (ops ops' : List (Instr L)) (m : Machine) :
    ReadsLine R (ops ++ ops') m ↔ ReadsLine R ops m ∧ ReadsLine R ops' (execs ops m) := by
  induction ops generalizing m with
  | nil => exact ⟨fun h => ⟨trivial, h⟩, fun h => h.2⟩
  | cons i ops ih =>
    constructor
    · intro h
      obtain ⟨hops, hops'⟩ := (ih _).mp h.2
      exact ⟨⟨h.1, hops⟩, hops'⟩
    · intro h
      exact ⟨h.1.1, (ih _).mpr ⟨h.1.2, h.2⟩⟩

/-- Where everything may be read, every piece of code may run. -/
theorem readsLine_anywhere (ops : List (Instr L)) (m : Machine) :
    ReadsLine (fun _ => True) ops m := by
  induction ops generalizing m with
  | nil => trivial
  | cons i ops ih =>
    refine ⟨?_, ih _⟩
    cases i
    case lw | vld => exact fun _ _ => trivial
    all_goals trivial

/-- Instructions without a jump, all at once. -/
theorem Leads.line (ops : List (Instr L)) {p : Program L} {R : Addr → Prop}
    {Q : Config L → Prop} {rest : List (Instr L)} {m : Machine}
    (hops : ∀ i ∈ ops, i.isJump = false) (hread : ReadsLine R ops m)
    (h : Leads p R Q ⟨.run rest, execs ops m⟩) : Leads p R Q ⟨.run (ops ++ rest), m⟩ := by
  induction ops generalizing m with
  | nil => exact h
  | cons i ops ih =>
    have hi := hops i (List.mem_cons_self ..)
    have hstep : Xespv.step p ⟨.run (i :: (ops ++ rest)), m⟩ =
        some ⟨.run (ops ++ rest), i.exec m⟩ := by
      cases i <;> first | rfl | exact nomatch hi
    exact .step hread.1 hstep (ih (fun j hj => hops j (List.mem_cons_of_mem _ hj)) hread.2 h)

/-! ## Returns -/

/-- The registers that a routine gives back as it found them, among them the stack
    pointer and the address it returns to. -/
def savedRegs : List Reg := [.ra, .sp, .s0, .s1, .s2, .s3, .s4]

/-- The registers that a routine must keep are as they were. -/
def Saved (m₀ m : Machine) : Prop := ∀ r ∈ savedRegs, m.get r = m₀.get r

section

variable {m₀ m m' : Machine} {r : Reg}

/-- Nothing done keeps them. -/
theorem Saved.refl (m : Machine) : Saved m m := fun _ _ => rfl

/-- Two pieces of code that keep them keep them together. -/
theorem Saved.trans (h : Saved m₀ m) (h' : Saved m m') : Saved m₀ m' := fun r hr =>
  (h' r hr).trans (h r hr)

/-- Writing another register keeps them. -/
theorem Saved.set (h : Saved m₀ m) {v : BitVec 32} (hr : r ∉ savedRegs) :
    Saved m₀ (m.set r v) := by
  intro r' hr'
  have hne : r' ≠ r := fun heq => hr (heq ▸ hr')
  rw [Machine.get_set_of_ne _ _ hne]
  exact h r' hr'

/-- A line that writes none of the saved registers. -/
theorem Saved.execs (h : Saved m₀ m) {ops : List (Instr L)}
    (hops : ∀ r ∈ savedRegs, ∀ i ∈ ops, i.dest ≠ some r) : Saved m₀ (execs ops m) := fun r hr =>
  (execs_get (hops r hr) m).trans (h r hr)

end

/-- A routine entered in `m₀` has returned. -/
def Returned (p : Program L) (m₀ : Machine) (post : Machine → Prop) (c : Config L) : Prop :=
  c.pc = p.goto (m₀.get .ra) ∧ Saved m₀ c.m ∧ post c.m

/-- A return with the registers kept. -/
theorem Leads.ret {p : Program L} {R : Addr → Prop} {m₀ m : Machine} {post : Machine → Prop}
    {rest : List (Instr L)} (hsaved : Saved m₀ m) (h : post m) :
    Leads p R (Returned p m₀ post) ⟨.run (.ret :: rest), m⟩ := by
  have hstep : Xespv.step p ⟨.run (.ret :: rest), m⟩ = some ⟨p.goto (m.get .ra), m⟩ := rfl
  refine .step trivial hstep (.here ⟨?_, hsaved, h⟩)
  rw [hsaved .ra (by decide)]

/-- What is true after a return can be weakened, from an earlier point on. -/
theorem Returned.mono {p : Program L} {m₀ m₁ : Machine} {post post' : Machine → Prop}
    {c : Config L} (h : Returned p m₁ post c) (hsaved : Saved m₀ m₁)
    (hpost : ∀ m, post m → post' m) : Returned p m₀ post' c := by
  obtain ⟨hpc, hsaved', hm⟩ := h
  refine ⟨?_, hsaved.trans hsaved', hpost _ hm⟩
  rw [hpc, hsaved .ra (by decide)]

/-- The routine entered in `m₀` gets from `c` to its return, with `post`. -/
abbrev Returns (addr : Label → Addr) (m₀ : Machine) (post : Machine → Prop)
    (c : Config Label) : Prop :=
  Leads (memopsAt addr) (fun _ => True) (Returned (memopsAt addr) m₀ post) c

/-- What is true after a return can be weakened. -/
theorem Returns.mono {addr : Label → Addr} {m₀ : Machine} {post post' : Machine → Prop} {c : Config Label}
    (h : Returns addr m₀ post c) (hpost : ∀ m, post m → post' m) : Returns addr m₀ post' c :=
  h.trans fun _ hc => .here (hc.mono (Saved.refl m₀) hpost)

/-- A machine that enters a routine with four arguments, called from 256. -/
def called (a0 a1 a2 a3 sp : BitVec 32) (mem : Mem) : Machine where
  regs
    | .a0 => a0
    | .a1 => a1
    | .a2 => a2
    | .a3 => a3
    | .sp => sp
    | .ra => 256
    | _ => 0
  vregs _ _ := 0
  mem := mem

/-! ## Pointers and counts -/

/-- Adding to an address is going on. -/
theorem off_add (a : Addr) (k j : Nat) : off a k + BitVec.ofNat 32 j = off a (k + j) :=
  off_off a k j

/-- Subtracting from an address is going back. -/
theorem off_add_neg (a : Addr) {k j : Nat} (h : j ≤ k) :
    off a k + -BitVec.ofNat 32 j = off a (k - j) := by
  obtain ⟨i, rfl⟩ : ∃ i, k = i + j := ⟨k - j, by omega⟩
  rw [← off_add, Nat.add_sub_cancel, add_neg_cancel_right]

/-- A count going down. -/
theorem toNat_add_neg {x : BitVec 32} {j : Nat} (h : j ≤ x.toNat) :
    (x + -BitVec.ofNat 32 j).toNat = x.toNat - j := by
  have := x.isLt
  rw [BitVec.toNat_add, BitVec.toNat_neg, BitVec.toNat_ofNat]
  omega

/-- What an instruction adds to a register, if that is all it does to it. -/
def Instr.bump (r : Reg) : Instr L → Option (BitVec 32)
  | .addi rd rs imm => if rd = r then if rs = r then some imm else none else some 0
  | .vld _ rs imm | .vst _ rs imm => if rs = r then some imm else some 0
  | i => if i.dest = some r then none else some 0

/-- What a line adds to a register. -/
def bumps (r : Reg) : List (Instr L) → Option (BitVec 32)
  | [] => some 0
  | i :: ops =>
    match i.bump r, bumps r ops with
    | some v, some w => some (v + w)
    | _, _ => none

/-- An instruction that moves a register by a constant. -/
theorem Instr.exec_bump {i : Instr L} {r : Reg} {v : BitVec 32} (hr : r ≠ .zero)
    (h : i.bump r = some v) (m : Machine) : (i.exec m).get r = m.get r + v := by
  by_cases hdest : i.dest = some r
  -- `addi` and the vector accesses are the instructions that bump a register
  · cases i
    case addi rd rs imm =>
      obtain rfl : rd = r := Option.some.inj hdest
      simp only [bump, if_true, Option.ite_none_right_eq_some, Option.some.injEq] at h
      obtain ⟨rfl, rfl⟩ := h
      simp only [exec, Machine.get_set, if_neg hr, if_true]
    case vld q rs imm | vst q rs imm =>
      obtain rfl : rs = r := Option.some.inj hdest
      simp only [bump, if_true, Option.some.injEq] at h
      simp only [exec, Machine.get_set, if_neg hr, if_true, h]
    all_goals
      simp only [bump, if_pos hdest] at h
      cases h
  -- an instruction that does not write the register adds zero to it
  · rw [exec_get hdest]
    have hzero : v = 0 := by
      cases i
      case addi rd rs imm =>
        have hne : rd ≠ r := fun heq => hdest (by rw [heq]; rfl)
        simp only [bump, if_neg hne, Option.some.injEq] at h
        exact h.symm
      case vld q rs imm | vst q rs imm =>
        have hne : rs ≠ r := fun heq => hdest (by rw [heq]; rfl)
        simp only [bump, if_neg hne, Option.some.injEq] at h
        exact h.symm
      all_goals
        simp only [bump, if_neg hdest, Option.some.injEq] at h
        exact h.symm
    rw [hzero, BitVec.ofNat_eq_ofNat, BitVec.add_zero]

/-- Instructions that move a register, all at once. -/
theorem execs_bumps {ops : List (Instr L)} {r : Reg} {v : BitVec 32} (hr : r ≠ .zero)
    (h : bumps r ops = some v) (m : Machine) : (execs ops m).get r = m.get r + v := by
  induction ops generalizing v m with
  | nil =>
    obtain rfl : 0 = v := Option.some.inj h
    exact (BitVec.add_zero _).symm
  | cons i ops ih =>
    simp only [bumps] at h
    split at h
    · next v' w hv' hw =>
      obtain rfl : v' + w = v := Option.some.inj h
      have hrest := ih hw (i.exec m)
      rw [Instr.exec_bump hr hv' m, BitVec.add_assoc] at hrest
      exact hrest
    · exact nomatch h

/-! ## Byte patterns -/

/-- The word of four copies of a register's low byte. -/
theorem byte_pattern (c : BitVec 32) {i : Nat} (hi : i < 4) :
    ((c &&& 255#32) * 0x01010101#32).extractLsb' (8 * i) 8 = c.setWidth 8 := by
  have hlow : c.toNat &&& 255 = c.toNat % 256 := Nat.and_two_pow_sub_one_eq_mod c.toNat 8
  apply BitVec.eq_of_toNat_eq
  rw [BitVec.extractLsb'_toNat, BitVec.toNat_mul, BitVec.toNat_and, BitVec.toNat_setWidth,
    Nat.shiftRight_eq_div_pow]
  simp only [BitVec.toNat_ofNat, Nat.reducePow, Nat.reduceMod, hlow]
  have hy : c.toNat % 256 < 256 := Nat.mod_lt _ (by decide)
  generalize c.toNat % 256 = y at hy ⊢
  -- what is left of the product after the lower copies
  have h1 : y * 16843009 / 256 = y * 65793 := by omega
  have h2 : y * 16843009 / 65536 = y * 257 := by omega
  have h3 : y * 16843009 / 16777216 = y := by omega
  rw [Nat.mod_eq_of_lt (show y * 16843009 < 4294967296 by omega)]
  obtain rfl | rfl | rfl | rfl : i = 0 ∨ i = 1 ∨ i = 2 ∨ i = 3 := by omega
  all_goals omega

section

variable {r : Reg} {m : Machine}

/-- The vector is all that is read. -/
theorem readsLine_patternVector {R : Addr → Prop} (q : VReg) (hsp : (m.get .sp).toNat % 16 = 0)
    (hR : ∀ i < 16, R (off (m.get .sp + -16) i)) : ReadsLine (L := L) R (patternVector r q) m := by
  have hf : (m.get .sp + -16).toNat % 16 = 0 := add_aligned hsp (by decide)
  have hvld : ReadsLine (L := L) R [.vld q .a3 0, .addi .sp .sp 16]
      (execs (L := L) ((patternVector r q).take 6) m) := by
    refine ⟨?_, trivial, trivial⟩
    intro i hi
    rw [execs_patternVector_a3, align16_of_aligned hf]
    exact hR i hi
  exact ⟨trivial, trivial, trivial, trivial, trivial, trivial, hvld⟩

end

end EspS31.Xespv
