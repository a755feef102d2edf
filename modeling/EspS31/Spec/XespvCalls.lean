import EspS31.Spec.XespvRuns

/-!
# Calls among the XespV routines

Some routines call others: they save registers in a frame below the stack pointer and
load them again before they return.

## Key results

- `Leads.call_returns`: a call, from what its callee does
- `Reaches.memopsAt`: the string routines alone and among all routines
- `execs_spill`, `execs_restore`: registers saved in a frame and loaded from it
- `Framed.enter`, `Framed.call`, `Framed.leave`: a routine with saved registers from its
  beginning over its calls to its end
-/

namespace EspS31.Xespv

open ByteMem

/-! ## Calls -/

/-- The instructions after the calls are at different addresses. -/
def Layout (addr : Label → Addr) : Prop :=
  ∀ l ∈ returnLabels, ∀ l' ∈ returnLabels, addr l = addr l' → l = l'

/-- Return addresses that differ for the calls. -/
def sampleAddr (l : Label) : Addr := BitVec.ofNat 32 (0x400 + 4 * returnLabels.idxOf l)

/-- The example has different addresses for the returns. -/
theorem sampleAddr_layout : Layout sampleAddr := by
  unfold Layout
  decide

/-- A routine called by another one returns to the instruction after the call. -/
private theorem goto_returnLabel {addr : Label → Addr} (h : Layout addr) {l : Label}
    (hl : l ∈ returnLabels) : (memopsAt addr).goto (addr l) = .run (memopsCode l) := by
  simp only [Program.goto, memopsAt]
  split
  · next l' hfind =>
    have heq := List.find?_some hfind
    rw [h l' (List.mem_of_find?_eq_some hfind) l hl (of_decide_eq_true heq)]
  · next hfind =>
    have hne := List.find?_eq_none.mp hfind l hl
    simp at hne

/-- A return to a caller outside the routines. -/
private theorem goto_out {addr : Label → Addr} {a : Addr} (h : ∀ l ∈ returnLabels, addr l ≠ a) :
    (memopsAt addr).goto a = .out a := by
  simp only [Program.goto, memopsAt]
  split
  · next l hfind =>
    have heq := List.find?_some hfind
    exact absurd (of_decide_eq_true heq) (h l (List.mem_of_find?_eq_some hfind))
  · rfl

/-- A call leads where the callee and the instructions after the call lead. -/
theorem Leads.call_returns {addr : Label → Addr} {R : Addr → Prop} {Q : Config Label → Prop}
    {f ret : Label} {rest : Code} {m : Machine} {post : Machine → Prop} (hlayout : Layout addr)
    (hret : ret ∈ returnLabels)
    (hcallee : Leads (memopsAt addr) R (Returned (memopsAt addr) (m.set .ra (addr ret)) post)
      ⟨.run (memopsCode f), m.set .ra (addr ret)⟩)
    (hnext : ∀ m', Saved (m.set .ra (addr ret)) m' → post m' →
      Leads (memopsAt addr) R Q ⟨.run (memopsCode ret), m'⟩) :
    Leads (memopsAt addr) R Q ⟨.run (.call f ret :: rest), m⟩ := by
  refine Leads.call (hcallee.trans fun c hc => ?_)
  obtain ⟨pc, m'⟩ := c
  obtain ⟨hpc, hsaved, hpost⟩ := hc
  have hra : (m.set .ra (addr ret)).get .ra = addr ret := by simp
  rw [hra, goto_returnLabel hlayout hret] at hpc
  obtain rfl : pc = .run (memopsCode ret) := hpc
  exact hnext m' hsaved hpost

/-- The caller outside the routines is reached with one machine only. -/
theorem Returns.post_of_reaches {addr : Label → Addr} {m₀ m : Machine} {post : Machine → Prop}
    {c : Config Label} (h : Returns addr m₀ post c)
    (hra : ∀ l ∈ returnLabels, addr l ≠ m₀.get .ra)
    (hrun : Reaches (memopsAt addr) c ⟨.out (m₀.get .ra), m⟩) : post m := by
  obtain ⟨⟨pc, m'⟩, hrun', hpc, -, hpost⟩ := h
  rw [goto_out hra] at hpc
  obtain rfl : pc = .out (m₀.get .ra) := hpc
  have heq := hrun'.reaches.unique hrun rfl rfl
  obtain rfl : m' = m := congrArg Config.m heq
  exact hpost

/-- A routine that returns right comes to its end. -/
theorem Returns.reaches {addr : Label → Addr} {m₀ : Machine} {post : Machine → Prop}
    {c : Config Label} (h : Returns addr m₀ post c)
    (hra : ∀ l ∈ returnLabels, addr l ≠ m₀.get .ra) :
    ∃ m, Reaches (memopsAt addr) c ⟨.out (m₀.get .ra), m⟩ ∧ post m := by
  obtain ⟨⟨pc, m⟩, hrun, hpc, -, hpost⟩ := h
  rw [goto_out hra] at hpc
  obtain rfl : pc = .out (m₀.get .ra) := hpc
  exact ⟨m, hrun.reaches, hpost⟩

/-! ## The string routines alone -/

/-- The labels of `s31_xespv_strcmp`, `s31_xespv_stpcpy` and `s31_xespv_strcpy`. -/
def stringLabels : List Label :=
  [.s31XespvStrcmp, .LstcmpAlign, .LstcmpByte, .LstcmpVec, .LstcmpDiff, .LstcmpEqual,
   .s31XespvStpcpy, .LstpcAlign, .LstpcByte, .LstpcVec, .LstpcDone, .s31XespvStrcpy, .strcpyReturn]

/-- An instruction that goes on within these routines. -/
def Instr.staysInString : Instr Label → Bool
  | .beq _ _ l | .bne _ _ l | .bltu _ _ l | .bgeu _ _ l | .beqz _ l | .bnez _ l | .j l =>
    l ∈ stringLabels
  | .call f back => f ∈ stringLabels && back = .strcpyReturn
  | _ => true

/-- Only instructions of these routines are still to be executed. -/
def StaysInString (c : Config Label) : Prop :=
  ∀ ops, c.pc = .run ops → ∀ i ∈ ops, i.staysInString

/-- No jump leaves the three routines. -/
private theorem staysInString_code {l : Label} (hl : l ∈ stringLabels) (m : Machine) :
    StaysInString ⟨.run (memopsCode l), m⟩ := by
  have hcode : ∀ l ∈ stringLabels, ∀ i ∈ memopsCode l, i.staysInString := by decide
  rintro ops ⟨⟩
  exact hcode l hl

/-- A step of the routines alone is one among all routines, unless it leaves for an
    address behind one of the other calls. -/
private theorem step_memopsAt {addr : Label → Addr} (hlayout : Layout addr) {c c' : Config Label}
    (hc : StaysInString c) (hstep : step (memops (addr .strcpyReturn)) c = some c')
    (hout : ∀ a, c'.pc = .out a → ∀ l ∈ returnLabels, addr l ≠ a) :
    step (memopsAt addr) c = some c' ∧ StaysInString c' := by
  obtain ⟨pc, m⟩ := c
  cases pc with
  | out a => simp [step] at hstep
  | run ops =>
    cases ops with
    | nil => simp [step] at hstep
    | cons i rest =>
      have hi : i.staysInString := hc _ rfl i (List.mem_cons_self ..)
      have hrest : StaysInString ⟨.run rest, m⟩ := by
        rintro ops ⟨⟩ j hj
        exact hc _ rfl j (List.mem_cons_of_mem _ hj)
      -- a branch goes on behind it or at its label
      have hbranch : ∀ (b : Prop) [Decidable b] (l : Label), l ∈ stringLabels →
          StaysInString ⟨.run (if b then memopsCode l else rest), m⟩ := by
        intro b _ l hl
        split
        · exact staysInString_code hl m
        · exact hrest
      cases i with
      | beq _ _ l | bne _ _ l | bltu _ _ l | bgeu _ _ l | beqz _ l | bnez _ l =>
        obtain rfl := Option.some.inj hstep
        exact ⟨rfl, hbranch _ l (of_decide_eq_true hi)⟩
      | j l =>
        obtain rfl := Option.some.inj hstep
        exact ⟨rfl, staysInString_code (of_decide_eq_true hi) m⟩
      | call f ret =>
        obtain ⟨hf, hret⟩ := Bool.and_eq_true_iff.mp hi
        obtain rfl := of_decide_eq_true hret
        obtain rfl := Option.some.inj hstep
        exact ⟨rfl, staysInString_code (of_decide_eq_true hf) _⟩
      | ret =>
        obtain rfl := Option.some.inj hstep
        -- it returns to the call of `s31_xespv_strcpy` or leaves
        by_cases hra : addr .strcpyReturn = m.get .ra
        · have hgoto : (memops (addr .strcpyReturn)).goto (m.get .ra) =
              .run (memopsCode .strcpyReturn) := by
            simp [Program.goto, memops, hra]
          have hgotoAt := goto_returnLabel hlayout (l := .strcpyReturn) (by decide)
          rw [hra] at hgotoAt
          simp only [step, hgoto, hgotoAt]
          exact ⟨trivial, staysInString_code (by decide) m⟩
        · have hgoto : (memops (addr .strcpyReturn)).goto (m.get .ra) = .out (m.get .ra) := by
            simp [Program.goto, memops, hra]
          have hgotoAt := goto_out (hout _ hgoto)
          simp only [step, hgoto, hgotoAt]
          exact ⟨trivial, by simp [StaysInString]⟩
      | _ =>
        obtain rfl := Option.some.inj hstep
        exact ⟨rfl, hrest⟩

/-- The three routines leave for the same caller, with the same machine, whether or not
    the others are there. -/
theorem Reaches.memopsAt {addr : Label → Addr} (hlayout : Layout addr) {l : Label}
    (hl : l ∈ stringLabels) {m m' : Machine} {a : Addr} (ha : ∀ l ∈ returnLabels, addr l ≠ a)
    (h : Reaches (memops (addr .strcpyReturn)) ⟨.run (memopsCode l), m⟩ ⟨.out a, m'⟩) :
    Reaches (Xespv.memopsAt addr) ⟨.run (memopsCode l), m⟩ ⟨.out a, m'⟩ := by
  have hstays := staysInString_code hl m
  generalize (⟨.run (memopsCode l), m⟩ : Config Label) = c at h hstays
  generalize hc' : (⟨.out a, m'⟩ : Config Label) = c' at h
  induction h with
  | refl => exact .refl _
  | @head c c₁ c' hstep hrest ih =>
    -- what leaves in the middle of the run has left at its end
    have hout : ∀ b, c₁.pc = .out b → ∀ l ∈ returnLabels, addr l ≠ b := by
      intro b hb
      obtain ⟨pc, m₁⟩ := c₁
      obtain rfl : pc = .out b := hb
      cases hrest with
      | refl =>
        obtain rfl : a = b := Pc.out.inj (Config.mk.inj hc').1
        exact ha
      | head h _ => exact nomatch h
    obtain ⟨hstepAt, hstays₁⟩ := step_memopsAt hlayout hstays hstep hout
    exact .head hstepAt (ih hstays₁ hc')

/-! ## Saved registers -/

/-- The registers stored at their offsets from the stack pointer. -/
def spill (slots : List (Reg × Nat)) : Code := slots.map fun s => .sw s.1 s.2 .sp

/-- The registers loaded from their offsets. -/
def restore (slots : List (Reg × Nat)) : Code := slots.map fun s => .lw s.1 s.2 .sp

section

variable {slots : List (Reg × Nat)} {m : Machine} {n : Nat}

/-- Saving registers leaves them. -/
private theorem execs_spill_get (slots : List (Reg × Nat)) (m : Machine) (r : Reg) :
    (execs (spill slots) m).get r = m.get r := by
  apply execs_get
  intro i hi
  obtain ⟨s, -, rfl⟩ := List.mem_map.mp hi
  exact nofun

/-- A frame keeps to its size. -/
private theorem execs_spill_agreeOff (hslots : ∀ s ∈ slots, s.2 + 4 ≤ n) (hn : n < 2 ^ 32) :
    AgreeOff (m.get .sp) n m.mem (execs (spill slots) m).mem := by
  induction slots generalizing m with
  | nil => exact AgreeOff.refl _ _ _
  | cons s slots ih =>
    have hs := hslots s (List.mem_cons_self ..)
    have hstore : AgreeOff (m.get .sp) n m.mem (storeWord m.mem (off (m.get .sp) s.2) (m.get s.1)) := by
      refine AgreeOff.storeWord _ fun k hk => ?_
      rw [off_off]
      exact inFrame_off (by omega) hn
    have hrest := ih (m := m.setMem (storeWord m.mem (off (m.get .sp) s.2) (m.get s.1)))
      fun t ht => hslots t (List.mem_cons_of_mem _ ht)
    exact hstore.trans hrest

/-- Words that do not overlap. -/
private theorem loadWord_storeWord_of_disjoint {mem : Mem} {a : Addr} {i j : Nat} {v : BitVec 32}
    (h : i + 4 ≤ j ∨ j + 4 ≤ i) (hi : i + 4 ≤ 2 ^ 32) (hj : j + 4 ≤ 2 ^ 32) :
    loadWord (storeWord mem (off a i) v) (off a j) = loadWord mem (off a j) := by
  apply loadWord_congr
  intro k hk
  apply storeWord_of_off
  intro k' hk' heq
  rw [off_off, off_off] at heq
  have := off_inj (by omega) (by omega) heq
  omega

/-- A word beside those of a frame. -/
private theorem execs_spill_beside {j : Nat} (hj : j + 4 ≤ 2 ^ 32)
    (hslots : ∀ s ∈ slots, s.2 + 4 ≤ 2 ^ 32)
    (hdisjoint : ∀ s ∈ slots, j + 4 ≤ s.2 ∨ s.2 + 4 ≤ j) :
    loadWord (execs (spill slots) m).mem (off (m.get .sp) j) = loadWord m.mem (off (m.get .sp) j) := by
  induction slots generalizing m with
  | nil => rfl
  | cons s slots ih =>
    have hrest := ih (m := m.setMem (storeWord m.mem (off (m.get .sp) s.2) (m.get s.1)))
      (fun t ht => hslots t (List.mem_cons_of_mem _ ht))
      (fun t ht => hdisjoint t (List.mem_cons_of_mem _ ht))
    refine hrest.trans (loadWord_storeWord_of_disjoint ?_ (hslots s (List.mem_cons_self ..)) hj)
    exact (hdisjoint s (List.mem_cons_self ..)).symm

/-- Every register is found at its offset. -/
theorem execs_spill (hslots : ∀ s ∈ slots, s.2 + 4 ≤ 2 ^ 32)
    (hdisjoint : slots.Pairwise fun s t => s.2 + 4 ≤ t.2 ∨ t.2 + 4 ≤ s.2) :
    ∀ s ∈ slots, loadWord (execs (spill slots) m).mem (off (m.get .sp) s.2) = m.get s.1 := by
  induction slots generalizing m with
  | nil => exact fun s hs => absurd hs List.not_mem_nil
  | cons t slots ih =>
    obtain ⟨ht, hdisjoint⟩ := List.pairwise_cons.mp hdisjoint
    have hslots' := fun s hs => hslots s (List.mem_cons_of_mem t hs)
    intro s hs
    obtain rfl | hs := List.mem_cons.mp hs
    · -- the later stores leave this one alone
      have hkeep := execs_spill_beside (m := m.setMem (storeWord m.mem (off (m.get .sp) s.2)
        (m.get s.1))) (hslots s (List.mem_cons_self ..)) hslots' ht
      exact hkeep.trans (loadWord_storeWord_self ..)
    · exact ih (m := m.setMem (storeWord m.mem (off (m.get .sp) t.2) (m.get t.1))) hslots'
        hdisjoint s hs

/-- Restoring leaves the registers without a slot. -/
private theorem execs_restore_get {r : Reg} (hr : r ∉ slots.map Prod.fst) (m : Machine) :
    (execs (restore slots) m).get r = m.get r := by
  apply execs_get
  intro i hi heq
  obtain ⟨s, hs, rfl⟩ := List.mem_map.mp hi
  exact hr (List.mem_map.mpr ⟨s, hs, Option.some.inj heq⟩)

/-- Restoring leaves the memory. -/
private theorem execs_restore_mem (slots : List (Reg × Nat)) (m : Machine) :
    (execs (restore slots) m).mem = m.mem := by
  apply execs_mem
  intro i hi
  obtain ⟨s, -, rfl⟩ := List.mem_map.mp hi
  rfl

/-- Every register is loaded from its offset. -/
theorem execs_restore (hnodup : (slots.map Prod.fst).Nodup) (hsp : .sp ∉ slots.map Prod.fst)
    (hzero : .zero ∉ slots.map Prod.fst) :
    ∀ s ∈ slots, (execs (restore slots) m).get s.1 = loadWord m.mem (off (m.get .sp) s.2) := by
  induction slots generalizing m with
  | nil => exact fun s hs => absurd hs List.not_mem_nil
  | cons t slots ih =>
    simp only [List.map_cons, List.nodup_cons, List.mem_cons, not_or] at hnodup hsp hzero
    intro s hs
    have hget : (m.set t.1 (loadWord m.mem (off (m.get .sp) t.2))).get .sp = m.get .sp :=
      Machine.get_set_of_ne _ _ hsp.1
    obtain rfl | hs := List.mem_cons.mp hs
    -- the registers loaded after it are others
    · refine (execs_restore_get hnodup.1 _).trans ?_
      show (m.set s.1 _).get s.1 = _
      rw [Machine.get_set, if_neg (Ne.symm hzero.1), if_pos rfl]
    · refine (ih hnodup.2 hsp.2 hzero.2 s hs).trans ?_
      show loadWord m.mem (off ((m.set t.1 _).get .sp) s.2) = _
      rw [hget]

/-- Restoring reads the slots only. -/
private theorem readsLine_restore {R : Addr → Prop} (hsp : .sp ∉ slots.map Prod.fst)
    (h : ∀ s ∈ slots, ∀ i < 4, R (off (m.get .sp) (s.2 + i))) : ReadsLine R (restore slots) m := by
  induction slots generalizing m with
  | nil => trivial
  | cons t slots ih =>
    simp only [List.map_cons, List.mem_cons, not_or] at hsp
    refine ⟨h t (List.mem_cons_self ..), ih hsp.2 fun s hs i hi => ?_⟩
    have hget : (m.set t.1 (loadWord m.mem (off (m.get .sp) t.2))).get .sp = m.get .sp :=
      Machine.get_set_of_ne _ _ hsp.1
    show R (off ((m.set t.1 _).get .sp) (s.2 + i))
    rw [hget]
    exact h s (List.mem_cons_of_mem _ hs) i hi

end

/-! ## Frames -/

/-- The beginning of a routine with a frame of `n` bytes. -/
def enterFrame (n : Nat) (slots : List (Reg × Nat)) : Code :=
  .addi .sp .sp (-BitVec.ofNat 32 n) :: spill slots

/-- The body of a routine entered in `m₀`, with the slots saved in its frame. -/
structure Framed (m₀ : Machine) (n : Nat) (slots : List (Reg × Nat)) (m : Machine) : Prop where
  sp : m.get .sp = m₀.get .sp + -BitVec.ofNat 32 n
  words : ∀ s ∈ slots, loadWord m.mem (off (m₀.get .sp + -BitVec.ofNat 32 n) s.2) = m₀.get s.1
  kept : ∀ r ∈ savedRegs, r ≠ .sp → r ∉ slots.map Prod.fst → m.get r = m₀.get r

/-- Slots that fit into a frame side by side. -/
structure SlotsFit (n : Nat) (slots : List (Reg × Nat)) : Prop where
  size : n < 2 ^ 32
  fit : ∀ s ∈ slots, s.2 + 4 ≤ n
  disjoint : slots.Pairwise fun s t => s.2 + 4 ≤ t.2 ∨ t.2 + 4 ≤ s.2
  nodup : (slots.map Prod.fst).Nodup
  regs : ∀ r ∈ [Reg.sp, .zero, .a0], r ∉ slots.map Prod.fst

section

variable {m₀ m m' : Machine} {n : Nat} {slots : List (Reg × Nat)}

/-- Making a frame leaves the other registers. -/
theorem enterFrame_get {r : Reg} (hr : r ≠ .sp) (m₀ : Machine) :
    (execs (enterFrame n slots) m₀).get r = m₀.get r := by
  refine (execs_spill_get slots _ r).trans (Machine.get_set_of_ne _ _ hr)

/-- After the entry the frame holds what was saved. -/
theorem Framed.enter (hfit : SlotsFit n slots) (m₀ : Machine) :
    Framed m₀ n slots (execs (enterFrame n slots) m₀) := by
  have hlt : ∀ s ∈ slots, s.2 + 4 ≤ 2 ^ 32 := fun s hs =>
    Nat.le_trans (hfit.fit s hs) (Nat.le_of_lt hfit.size)
  have hsp : (m₀.set .sp (m₀.get .sp + -BitVec.ofNat 32 n)).get .sp =
      m₀.get .sp + -BitVec.ofNat 32 n := by simp
  refine ⟨(execs_spill_get slots _ .sp).trans hsp, fun s hs => ?_, fun r _ hne _ =>
    enterFrame_get hne m₀⟩
  have hword := execs_spill (m := m₀.set .sp (m₀.get .sp + -BitVec.ofNat 32 n)) hlt hfit.disjoint s hs
  rw [hsp] at hword
  refine hword.trans (Machine.get_set_of_ne _ _ fun heq => ?_)
  exact hfit.regs .sp (by simp) (List.mem_map.mpr ⟨s, hs, heq⟩)

/-- Making a frame writes the frame only. -/
theorem enterFrame_agreeOff (hfit : SlotsFit n slots) (m₀ : Machine) :
    AgreeOff (m₀.get .sp + -BitVec.ofNat 32 n) n m₀.mem (execs (enterFrame n slots) m₀).mem := by
  have hsp : (m₀.set .sp (m₀.get .sp + -BitVec.ofNat 32 n)).get .sp =
      m₀.get .sp + -BitVec.ofNat 32 n := by simp
  have hagree := execs_spill_agreeOff (m := m₀.set .sp (m₀.get .sp + -BitVec.ofNat 32 n)) hfit.fit
    hfit.size
  rw [hsp] at hagree
  exact hagree

/-- Making a frame jumps nowhere. -/
theorem isJump_enterFrame : ∀ i ∈ enterFrame n slots, i.isJump = false := by
  intro i hi
  obtain rfl | hi := List.mem_cons.mp hi
  · rfl
  · obtain ⟨s, -, rfl⟩ := List.mem_map.mp hi
    rfl

/-- Making a frame reads nothing. -/
theorem readsLine_enterFrame (R : Addr → Prop) (m : Machine) :
    ReadsLine R (enterFrame n slots) m := by
  have hspill : ∀ (slots : List (Reg × Nat)) (m : Machine), ReadsLine R (spill slots) m := by
    intro slots
    induction slots with
    | nil => exact fun _ => trivial
    | cons s slots ih => exact fun m => ⟨trivial, ih _⟩
  exact ⟨trivial, hspill slots _⟩

/-- Lines of the body that write only registers saved before. -/
theorem Framed.line {ops : Code} (h : Framed m₀ n slots m)
    (hregs : ∀ r ∈ savedRegs, r ∉ slots.map Prod.fst → ∀ i ∈ ops, i.dest ≠ some r)
    (hsp : ∀ i ∈ ops, i.dest ≠ some .sp) (hmem : ∀ i ∈ ops, i.isStore = false) :
    Framed m₀ n slots (execs ops m) where
  sp := (execs_get hsp m).trans h.sp
  words := by
    rw [execs_mem hmem]
    exact h.words
  kept r hr hne hout := (execs_get (hregs r hr hout) m).trans (h.kept r hr hne hout)

/-- A call, and stores outside the slots. -/
theorem Framed.call {a : Addr} (h : Framed m₀ n slots m) (hra : .ra ∈ slots.map Prod.fst)
    (hsaved : Saved (m.set .ra a) m')
    (hmem : ∀ s ∈ slots, ∀ k < 4, m'.mem (off (m₀.get .sp + -BitVec.ofNat 32 n) (s.2 + k)) =
      m.mem (off (m₀.get .sp + -BitVec.ofNat 32 n) (s.2 + k))) : Framed m₀ n slots m' where
  sp := by rw [hsaved .sp (by decide), Machine.get_set_of_ne _ _ (by decide), h.sp]
  words s hs := by
    rw [← h.words s hs]
    apply loadWord_congr
    intro k hk
    rw [off_off]
    exact hmem s hs k hk
  kept r hr hne hout := by
    have hra' : r ≠ .ra := fun heq => hout (heq ▸ hra)
    rw [hsaved r hr, Machine.get_set_of_ne _ _ hra', h.kept r hr hne hout]

/-- The end of a frame. -/
def leaveFrame (n : Nat) (out : List (Reg × Nat)) : Code :=
  restore out ++ [.addi .sp .sp (BitVec.ofNat 32 n)]

/-- Leaving a frame jumps nowhere. -/
theorem isJump_leaveFrame {out : List (Reg × Nat)} :
    ∀ i ∈ leaveFrame n out, i.isJump = false := by
  intro i hi
  obtain hi | hi := List.mem_append.mp hi
  · obtain ⟨s, -, rfl⟩ := List.mem_map.mp hi
    rfl
  · obtain rfl := List.mem_singleton.mp hi
    rfl

/-- Leaving a frame leaves the registers without a slot. -/
theorem leaveFrame_get {out : List (Reg × Nat)} {r : Reg} (hr : r ∉ .sp :: out.map Prod.fst)
    (m : Machine) : (execs (leaveFrame n out) m).get r = m.get r := by
  obtain ⟨hsp, hout⟩ := not_or.mp (List.mem_cons.not.mp hr)
  rw [leaveFrame, execs_append]
  exact (Machine.get_set_of_ne _ _ hsp).trans (execs_restore_get hout m)

/-- Leaving a frame leaves the memory. -/
theorem leaveFrame_mem (out : List (Reg × Nat)) (m : Machine) :
    (execs (leaveFrame n out) m).mem = m.mem := by
  rw [leaveFrame, execs_append]
  exact execs_restore_mem out m

section

variable {out : List (Reg × Nat)} (h : Framed m₀ n slots m) (hfit : SlotsFit n slots)
  (hout : out.Perm slots)

include hout in
/-- The slots are read back in another order. -/
private theorem mem_out_iff (r : Reg) : r ∈ out.map Prod.fst ↔ r ∈ slots.map Prod.fst :=
  (hout.map Prod.fst).mem_iff

include h hfit hout in
/-- Leaving a frame reads the frame only. -/
theorem Framed.reads_leave {R : Addr → Prop}
    (hread : ∀ i < n, R (off (m₀.get .sp + -BitVec.ofNat 32 n) i)) :
    ReadsLine R (leaveFrame n out) m := by
  have hspOut : .sp ∉ out.map Prod.fst := fun hin =>
    hfit.regs .sp (by simp) ((mem_out_iff hout .sp).mp hin)
  rw [leaveFrame, readsLine_append]
  refine ⟨readsLine_restore hspOut fun s hs i hi => ?_, trivial, trivial⟩
  have := hfit.fit s (hout.mem_iff.mp hs)
  rw [h.sp]
  exact hread _ (by omega)

include h hfit hout in
/-- All saved registers are as they were. -/
theorem Framed.restored : Saved m₀ (execs (leaveFrame n out) m) := by
  have hspOut : .sp ∉ out.map Prod.fst := fun hin =>
    hfit.regs .sp (by simp) ((mem_out_iff hout .sp).mp hin)
  have hzeroOut : .zero ∉ out.map Prod.fst := fun hin =>
    hfit.regs .zero (by simp) ((mem_out_iff hout .zero).mp hin)
  intro r hr
  rw [leaveFrame, execs_append]
  -- `sp` is moved back, the spilled registers are loaded, the others were never written
  by_cases hrsp : r = .sp
  · rw [hrsp]
    show ((execs (restore out) m).set .sp ((execs (restore out) m).get .sp + _)).get .sp = _
    rw [execs_restore_get hspOut, h.sp, Machine.get_set, if_neg (by decide), if_pos rfl,
      neg_add_cancel_right]
  · refine (Machine.get_set_of_ne _ _ hrsp).trans ?_
    by_cases hin : r ∈ out.map Prod.fst
    · obtain ⟨s, hs, rfl⟩ := List.mem_map.mp hin
      have hnodup := (hout.map Prod.fst).nodup_iff.mpr hfit.nodup
      rw [execs_restore hnodup hspOut hzeroOut s hs, h.sp, h.words s (hout.mem_iff.mp hs)]
    · rw [execs_restore_get hin, h.kept r hr hrsp fun hin' => hin ((mem_out_iff hout r).mpr hin')]

end

/-- The registers are loaded again, the frame is left and the routine returns. -/
theorem Framed.leave {p : Program Label} {R : Addr → Prop} {post : Machine → Prop} {rest : Code}
    (h : Framed m₀ n slots m) (out : List (Reg × Nat)) (hfit : SlotsFit n slots)
    (hout : out.Perm slots)
    (hread : ∀ i < n, R (off (m₀.get .sp + -BitVec.ofNat 32 n) i))
    (hpost : ∀ m', m'.get .a0 = m.get .a0 → m'.mem = m.mem → post m') :
    Leads p R (Returned p m₀ post) ⟨.run (leaveFrame n out ++ .ret :: rest), m⟩ := by
  refine Leads.line (leaveFrame n out) isJump_leaveFrame (h.reads_leave hfit hout hread) ?_
  refine Leads.ret (h.restored hfit hout) (hpost _ (leaveFrame_get ?_ m) (leaveFrame_mem out m))
  simp only [List.mem_cons, reduceCtorEq, false_or]
  exact fun hin => hfit.regs .a0 (by simp) ((mem_out_iff hout .a0).mp hin)

end

end EspS31.Xespv
