import EspS31.Spec.XespvBlocks

/-!
# Aligned vector accesses

A rule for programs whose vector accesses all have aligned addresses, and an
analysis that establishes its premises for straight code.  The rule asks for a
condition at every label (`Safe`: up to the next jump every access is aligned and
the target's condition holds).  The analysis keeps a list of registers that hold
multiples of 16; a register computed by `or` and `andi` from others is remembered
until it is tested, since its being zero says that the others are aligned.

## Key results

- `Safe.accesses`: conditions that hold from label to label keep a run aligned
- `check_safe`: code that passes the analysis is safe
-/

namespace EspS31.Xespv

open ByteMem

variable {L : Type}

/-- A multiple of 16. -/
def Aligned (a : Addr) : Prop := a.toNat % 16 = 0

instance (a : Addr) : Decidable (Aligned a) := inferInstanceAs (Decidable (_ = _))

/-- The sum of two aligned addresses is aligned. -/
theorem aligned_add {a b : Addr} (ha : Aligned a) (hb : Aligned b) : Aligned (a + b) :=
  add_aligned ha hb

/-- The register that holds the address of a vector access. -/
def Instr.vectorAddr : Instr L → Option Reg
  | .vld _ rs _ | .vst _ rs _ => some rs
  | _ => none

/-- The instruction about to be executed is no vector access or an aligned one. -/
def Config.AccessAligned (c : Config L) : Prop :=
  ∀ i rest, c.pc = .run (i :: rest) → ∀ r ∈ i.vectorAddr, Aligned (c.m.get r)

/-! ## Conditions at labels -/

/-- Up to the next jump all vector accesses are aligned, and the condition of the
    label jumped to holds there.  A return may go to any instruction after a call. -/
def Safe (p : Program L) (cond : L → Machine → Prop) : List (Instr L) → Machine → Prop
  | [], _ => True
  | i :: rest, m =>
    (∀ r ∈ i.vectorAddr, Aligned (m.get r)) ∧
      match i with
      | .beq rs₁ rs₂ l => if m.get rs₁ = m.get rs₂ then cond l m else Safe p cond rest m
      | .bne rs₁ rs₂ l => if m.get rs₁ ≠ m.get rs₂ then cond l m else Safe p cond rest m
      | .bltu rs₁ rs₂ l => if m.get rs₁ < m.get rs₂ then cond l m else Safe p cond rest m
      | .bgeu rs₁ rs₂ l => if m.get rs₂ ≤ m.get rs₁ then cond l m else Safe p cond rest m
      | .beqz rs l => if m.get rs = 0 then cond l m else Safe p cond rest m
      | .bnez rs l => if m.get rs ≠ 0 then cond l m else Safe p cond rest m
      | .j l => cond l m
      | .call f ret => cond f (m.set .ra (p.addr ret))
      | .ret => ∀ l ∈ p.returns, cond l m
      | i => Safe p cond rest (i.exec m)

/-- The code still to be executed is safe. -/
def Config.Safe (p : Program L) (cond : L → Machine → Prop) (c : Config L) : Prop :=
  ∀ rest, c.pc = .run rest → Xespv.Safe p cond rest c.m

section

variable {p : Program L} {cond : L → Machine → Prop} {c c' : Config L}

/-- A safe state makes an aligned access. -/
theorem Config.Safe.accessAligned (h : c.Safe p cond) : c.AccessAligned :=
  fun _ _ hpc => (h _ hpc).1

/-- A branch goes to a label whose condition holds, or on. -/
private theorem safe_branch {b : Prop} [Decidable b] {l : L} {rest : List (Instr L)} {m : Machine}
    (hcode : ∀ l m, cond l m → Safe p cond (p.code l) m)
    (h : if b then cond l m else Safe p cond rest m) :
    Config.Safe p cond ⟨.run (if b then p.code l else rest), m⟩ := by
  rintro _ ⟨⟩
  split at h
  · next hb =>
    rw [if_pos hb]
    exact hcode l m h
  · next hb =>
    rw [if_neg hb]
    exact h

/-- A step keeps a state safe. -/
theorem Config.Safe.step (hcode : ∀ l m, cond l m → Xespv.Safe p cond (p.code l) m)
    (h : c.Safe p cond) (hstep : step p c = some c') : c'.Safe p cond := by
  obtain ⟨pc, m⟩ := c
  cases pc with
  | out a => exact nomatch hstep
  | run ops =>
    cases ops with
    | nil => exact nomatch hstep
    | cons i rest =>
      obtain ⟨-, hi⟩ := h _ rfl
      have hrun : ∀ {ops m'}, Xespv.Safe p cond ops m' →
          Config.Safe p cond ⟨.run ops, m'⟩ := by
        rintro ops m' hops _ ⟨⟩
        exact hops
      cases i <;> obtain rfl := Option.some.inj hstep
      -- a branch is safe when both of its targets are
      case beq | bne | bltu | bgeu | beqz | bnez => exact safe_branch hcode hi
      case j => exact hrun (hcode _ _ hi)
      case call => exact hrun (hcode _ _ hi)
      -- a return goes to a label that was safe to return to
      case ret =>
        intro ops hpc
        unfold Program.goto at hpc
        dsimp only at hpc
        split at hpc
        · next l hfind =>
          obtain rfl := Pc.run.inj hpc
          exact hcode l m (hi l (List.mem_of_find?_eq_some hfind))
        · exact nomatch hpc
      all_goals exact hrun hi

/-- Conditions that hold from label to label keep a run aligned. -/
theorem Config.Safe.accesses (hcode : ∀ l m, cond l m → Xespv.Safe p cond (p.code l) m)
    (h : c.Safe p cond) (hreach : Reaches p c c') : c'.AccessAligned := by
  induction hreach with
  | refl c => exact h.accessAligned
  | head hstep _ ih => exact ih (h.step hcode hstep)

/-- A state of safe code is safe. -/
theorem Safe.config {rest : List (Instr L)} {m : Machine} (h : Safe p cond rest m) :
    Config.Safe p cond ⟨.run rest, m⟩ := by
  rintro _ ⟨⟩
  exact h

/-- A straight line without vector accesses. -/
theorem Safe.line (ops : List (Instr L)) {rest : List (Instr L)} {m : Machine}
    (hops : ∀ i ∈ ops, i.isJump = false ∧ i.vectorAddr = none)
    (h : Safe p cond rest (execs ops m)) : Safe p cond (ops ++ rest) m := by
  induction ops generalizing m with
  | nil => exact h
  | cons i ops ih =>
    obtain ⟨hjump, hvec⟩ := hops i (List.mem_cons_self ..)
    have hrest : Safe p cond (ops ++ rest) (i.exec m) :=
      ih (fun j hj => hops j (List.mem_cons_of_mem _ hj)) h
    have hscalar : ∀ r ∈ i.vectorAddr, Aligned (m.get r) := by
      rw [hvec]
      exact nofun
    refine ⟨hscalar, ?_⟩
    cases i <;> first | exact hrest | exact nomatch hjump

section

variable {l : L} {rest : List (Instr L)} {m : Machine} {r r' : Reg}

/-- A branch on a difference, by its two ways. -/
theorem Safe.bne (htaken : m.get r ≠ m.get r' → cond l m)
    (hnext : m.get r = m.get r' → Safe p cond rest m) : Safe p cond (.bne r r' l :: rest) m := by
  refine ⟨nofun, ?_⟩
  dsimp only
  split
  · next hne => exact htaken hne
  · next heq => exact hnext (not_not.mp heq)

/-- A branch on `<`, unsigned, by its two ways. -/
theorem Safe.bltu (htaken : m.get r < m.get r' → cond l m)
    (hnext : ¬ m.get r < m.get r' → Safe p cond rest m) :
    Safe p cond (.bltu r r' l :: rest) m := by
  refine ⟨nofun, ?_⟩
  dsimp only
  split
  · next hlt => exact htaken hlt
  · next hge => exact hnext hge

/-- A branch on zero, by its two ways. -/
theorem Safe.beqz (htaken : m.get r = 0 → cond l m)
    (hnext : m.get r ≠ 0 → Safe p cond rest m) : Safe p cond (.beqz r l :: rest) m := by
  refine ⟨nofun, ?_⟩
  dsimp only
  split
  · next hzero => exact htaken hzero
  · next hne => exact hnext hne

/-- A branch on a value other than zero, by its two ways. -/
theorem Safe.bnez (htaken : m.get r ≠ 0 → cond l m)
    (hnext : m.get r = 0 → Safe p cond rest m) : Safe p cond (.bnez r l :: rest) m := by
  refine ⟨nofun, ?_⟩
  dsimp only
  split
  · next hne => exact htaken hne
  · next hzero => exact hnext (not_not.mp hzero)

end

/-- The vector is loaded from the stack. -/
theorem Safe.patternVector (r : Reg) (q : VReg) {rest : List (Instr L)} {m : Machine}
    (hsp : Aligned (m.get .sp)) (h : Safe p cond rest (execs (L := L) (patternVector r q) m)) :
    Safe p cond (patternVector r q ++ rest) m := by
  refine Safe.line ((Xespv.patternVector r q).take 6) (by simp [Xespv.patternVector, Instr.isJump,
    Instr.vectorAddr]) ⟨?_, nofun, h⟩
  rintro _ ⟨⟩
  have haddr := execs_patternVector_a3 (L := L) (r := r) (m := m) q
  rw [haddr]
  exact aligned_add hsp (by decide)

end

/-! ## The analysis -/

/-- What is known of the registers: those in `aligned` hold multiples of 16, and the
    registers of `test` do if the one named there is zero. -/
structure Known where
  aligned : List Reg
  test : Option (Reg × List Reg)

namespace Known

/-- What is known is true of the machine. -/
structure Holds (k : Known) (m : Machine) : Prop where
  aligned : ∀ r ∈ k.aligned, Aligned (m.get r)
  test : ∀ r rs, k.test = some (r, rs) → m.get r &&& 15 = 0 → ∀ s ∈ rs, Aligned (m.get s)

/-- The registers that are aligned if the low bits of `r` are zero. -/
def sources (k : Known) (r : Reg) : List Reg :=
  match k.test with
  | some (r', rs) => if r = r' then rs else [r]
  | none => [r]

/-- Register `rd` is written, with a multiple of 16 if `ok`. -/
def write (k : Known) (rd : Reg) (ok : Bool) : Known where
  aligned := (if ok then [rd] else []) ++ k.aligned.filter (· ≠ rd)
  test := none

/-- Register `rd` is computed from registers that are aligned if its low bits are zero.
    Register `zero` is so whatever it is computed from. -/
def writeTest (k : Known) (rd : Reg) (rs : List Reg) : Known where
  aligned := k.aligned.filter (· ≠ rd)
  test := if rd = .zero then none else some (rd, rs.filter (· ≠ rd))

/-- The register `r` turned out to be zero. -/
def learn (k : Known) (r : Reg) : Known := { k with aligned := k.sources r ++ k.aligned }

/-- What is known after an instruction. -/
def exec (k : Known) : Instr L → Known
  | .mv rd rs => k.write rd (rs ∈ k.aligned)
  | .li rd imm => k.write rd (Aligned imm)
  | .addi rd rs imm => k.write rd (rs ∈ k.aligned ∧ Aligned imm)
  | .vld _ rs imm | .vst _ rs imm => k.write rs (rs ∈ k.aligned ∧ Aligned imm)
  | .or rd rs₁ rs₂ => k.writeTest rd (k.sources rs₁ ++ k.sources rs₂)
  | .andi rd rs imm => if imm = 15 then k.writeTest rd (k.sources rs) else k.write rd false
  | i =>
    match i.dest with
    | some rd => k.write rd false
    | none => { k with test := none }

/-- The registers the condition of a label asks for are known to be aligned. -/
def meets (k : Known) (needs : List Reg) : Bool := needs.all (· ∈ k.aligned)

section

variable {k : Known} {m m' : Machine} {r rd : Reg}

/-- A test of low bits that gives 0 tells its registers aligned. -/
theorem Holds.sources (h : k.Holds m) (hlow : m.get r &&& 15 = 0) :
    ∀ s ∈ k.sources r, Aligned (m.get s) := by
  have hself : ∀ s ∈ [r], Aligned (m.get s) := by
    intro s hs
    rw [List.mem_singleton.mp hs]
    exact (and_15_eq_zero_iff _).mp hlow
  unfold Known.sources
  split
  · next r' rs htest =>
    split
    · next heq => exact h.test r' rs htest (heq ▸ hlow)
    · exact hself
  · exact hself

/-- An aligned value is aligned in its register, and so is 0. -/
private theorem aligned_set {v : BitVec 32} (h : Aligned v) : Aligned ((m.set rd v).get rd) := by
  rw [Machine.get_set]
  split
  · rfl
  · rw [if_pos rfl]
    exact h

/-- An aligned register and an aligned constant. -/
theorem Holds.add {imm : BitVec 32} (h : k.Holds m)
    (hok : decide (r ∈ k.aligned ∧ Aligned imm)) : Aligned (m.get r + imm) := by
  obtain ⟨hr, himm⟩ := of_decide_eq_true hok
  exact aligned_add (h.aligned r hr) himm

/-- The registers other than `rd` keep their values. -/
theorem Holds.write {ok : Bool} (h : k.Holds m) (hframe : ∀ r, r ≠ rd → m'.get r = m.get r)
    (hok : ok → Aligned (m'.get rd)) : (k.write rd ok).Holds m' where
  aligned r hr := by
    obtain hr | hr := List.mem_append.mp hr
    · split at hr
      · next hset =>
        rw [List.mem_singleton.mp hr]
        exact hok hset
      · exact nomatch hr
    · obtain ⟨hr, hne⟩ := List.mem_filter.mp hr
      rw [hframe r (of_decide_eq_true hne)]
      exact h.aligned r hr
  test := nofun

/-- Noting a test keeps what is known true. -/
theorem Holds.writeTest {rs : List Reg} (h : k.Holds m)
    (hframe : ∀ r, r ≠ rd → m'.get r = m.get r)
    (htest : rd ≠ .zero → m'.get rd &&& 15 = 0 → ∀ r ∈ rs, Aligned (m.get r)) :
    (k.writeTest rd rs).Holds m' where
  -- the other registers are as they were
  aligned r hr := by
    obtain ⟨hr, hne⟩ := List.mem_filter.mp hr
    rw [hframe r (of_decide_eq_true hne)]
    exact h.aligned r hr
  -- the register tested now is `rd`
  test := by
    unfold Known.writeTest
    split
    · exact nofun
    · next hzero =>
      rintro _ _ ⟨⟩ hlow s hs
      obtain ⟨hs, hne⟩ := List.mem_filter.mp hs
      rw [hframe s (of_decide_eq_true hne)]
      exact htest hzero hlow s hs

/-- What a branch on zero teaches is true. -/
theorem Holds.learn (h : k.Holds m) (hzero : m.get r = 0) : (k.learn r).Holds m where
  aligned s hs := by
    obtain hs | hs := List.mem_append.mp hs
    · exact h.sources (by rw [hzero]; rfl) s hs
    · exact h.aligned s hs
  test := h.test

/-- What the code needs is known. -/
theorem Holds.meets {needs : List Reg} (h : k.Holds m) (hmeets : k.meets needs) :
    ∀ r ∈ needs, Aligned (m.get r) := fun r hr =>
  h.aligned r (of_decide_eq_true (List.all_eq_true.mp hmeets r hr))

/-- The instructions keep what is known of the registers they do not write. -/
theorem Holds.exec (h : k.Holds m) (i : Instr L) : (k.exec i).Holds (i.exec m) := by
  have hframe : ∀ rd, i.dest = some rd → ∀ r, r ≠ rd → (i.exec m).get r = m.get r :=
    fun rd hrd r hr => Instr.exec_get (by rw [hrd]; exact fun heq => hr (Option.some.inj heq).symm) m
  cases i with
  | mv rd rs =>
    exact h.write (hframe rd rfl) fun hok => aligned_set (h.aligned rs (of_decide_eq_true hok))
  | li rd imm => exact h.write (hframe rd rfl) fun hok => aligned_set (of_decide_eq_true hok)
  | addi rd rs imm =>
    exact h.write (hframe rd rfl) fun hok => aligned_set (h.add hok)
  | vld q rs imm | vst q rs imm =>
    exact h.write (hframe rs rfl) fun hok => aligned_set (h.add hok)
  -- the low bits of several pointers are collected in one register
  | or rd rs₁ rs₂ =>
    refine h.writeTest (hframe rd rfl) fun hzero hlow r hr => ?_
    rw [Instr.exec, Machine.get_set, if_neg hzero, if_pos rfl] at hlow
    obtain ⟨h₁, h₂⟩ := (or_and_15_eq_zero_iff _ _).mp hlow
    obtain hr | hr := List.mem_append.mp hr
    · exact h.sources ((and_15_eq_zero_iff _).mpr h₁) r hr
    · exact h.sources ((and_15_eq_zero_iff _).mpr h₂) r hr
  -- only the mask 15 is a test for block boundaries
  | andi rd rs imm =>
    have hexec : k.exec (.andi rd rs imm : Instr L) =
        if imm = 15 then k.writeTest rd (k.sources rs) else k.write rd false := rfl
    rw [hexec]
    split
    · next himm =>
      refine h.writeTest (hframe rd rfl) fun hzero hlow => h.sources ?_
      rw [Instr.exec, Machine.get_set, if_neg hzero, if_pos rfl, himm, BitVec.and_assoc,
        BitVec.and_self] at hlow
      exact hlow
    · exact h.write (hframe rd rfl) fun hfalse => absurd hfalse Bool.false_ne_true
  | sltiu rd _ _ | add rd _ _ | sub rd _ _ | mul rd _ _ | xor rd _ _ | and rd _ _ | lbu rd _ _
  | lw rd _ _ => exact h.write (hframe rd rfl) fun hfalse => absurd hfalse Bool.false_ne_true
  | sb _ _ _ | sw _ _ _ | fence | vcmpEqU8 _ _ _ | vaddU8 _ _ _ | beq _ _ _ | bne _ _ _
  | bltu _ _ _ | bgeu _ _ _ | beqz _ _ | bnez _ _ | j _ | call _ _ | ret =>
    exact ⟨h.aligned, fun _ _ hnone => absurd hnone (Option.some_ne_none _).symm⟩

end

end Known

/-- The analysis of straight code, with the registers that are to be aligned at each
    label. -/
def check (needs : L → List Reg) (returns : List L) : List (Instr L) → Known → Bool
  | [], _ => true
  | i :: rest, k =>
    i.vectorAddr.all (· ∈ k.aligned) &&
      match i with
      | .beq _ _ l | .bne _ _ l | .bltu _ _ l | .bgeu _ _ l =>
        k.meets (needs l) && check needs returns rest k
      | .beqz r l => (k.learn r).meets (needs l) && check needs returns rest k
      | .bnez r l => k.meets (needs l) && check needs returns rest (k.learn r)
      | .j l => k.meets (needs l)
      | .call f _ => (k.write .ra false).meets (needs f)
      | .ret => returns.all fun l => k.meets (needs l)
      | i => check needs returns rest (k.exec i)

/-- Code that passes the analysis is safe. -/
theorem check_safe {p : Program L} {needs : L → List Reg} {cond : L → Machine → Prop}
    (hneeds : ∀ l m, (∀ r ∈ needs l, Aligned (m.get r)) → cond l m) {ops : List (Instr L)}
    {k : Known} {m : Machine} (hcheck : check needs p.returns ops k) (h : k.Holds m) :
    Safe p cond ops m := by
  -- induction on the instructions, with what is known about the registers before each
  induction ops generalizing k m with
  | nil => trivial
  | cons i rest ih =>
    obtain ⟨hvec, hnext⟩ := Bool.and_eq_true_iff.mp hcheck
    have htarget : ∀ {k : Known} {l m}, k.Holds m → k.meets (needs l) → cond l m :=
      fun hk hmeets => hneeds _ _ (hk.meets hmeets)
    refine ⟨fun r hr => h.aligned r ?_, ?_⟩
    · rw [Option.mem_def.mp hr] at hvec
      exact of_decide_eq_true hvec
    cases i
    case beq | bne | bltu | bgeu =>
      obtain ⟨hmeets, hrest⟩ := Bool.and_eq_true_iff.mp hnext
      dsimp only
      split
      · exact htarget h hmeets
      · exact ih hrest h
    -- a test for zero may tell that a register is at a block boundary
    case beqz r l =>
      obtain ⟨hmeets, hrest⟩ := Bool.and_eq_true_iff.mp hnext
      dsimp only
      split
      · next hzero => exact htarget (h.learn hzero) hmeets
      · exact ih hrest h
    case bnez r l =>
      obtain ⟨hmeets, hrest⟩ := Bool.and_eq_true_iff.mp hnext
      dsimp only
      split
      · exact htarget h hmeets
      · next hzero => exact ih hrest (h.learn (not_not.mp hzero))
    case j => exact htarget h hnext
    case call f ret =>
      have hk : (k.write .ra false).Holds (m.set .ra (p.addr ret)) :=
        h.write (fun r hr => Machine.get_set_of_ne _ _ hr) nofun
      exact htarget hk hnext
    case ret => exact fun l hl => htarget h (List.all_eq_true.mp hnext l hl)
    all_goals exact ih hnext (h.exec _)

end EspS31.Xespv
