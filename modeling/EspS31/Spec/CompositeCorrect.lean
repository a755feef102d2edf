import EspS31.Spec.CopyCorrect
import EspS31.Spec.SearchCorrect
import EspS31.Spec.XespvCalls

/-!
# Correctness of the composite copies

`s31_xespv_memccpy`, `s31_xespv_stpncpy`, `s31_xespv_strncpy` and `s31_xespv_strlcpy` find
a length with one routine and copy or fill with others.  Between the calls they keep their
arguments in saved registers, which they store in a frame.

## Key results

- `Body.memchr`, `Body.strnlen`, `Body.strlen`, `Body.memcpy`, `Body.memset`: the calls
- `composites_correct`: what the four routines write and return
-/

namespace EspS31.Xespv

open ByteMem

/-! ## Scans of a range -/

/-- A scan of `n` bytes for one that satisfies `p` ends at `k`: at the first such byte, or
    behind the range. -/
structure ScanEnds (mem : Mem) (s : Addr) (p : Byte → Prop) (n k : Nat) : Prop where
  le : k ≤ n
  before : ∀ i < k, ¬ p (mem (off s i))
  here : k < n → p (mem (off s k))

section

variable {mem mem' : Mem} {s : Addr} {p : Byte → Prop} {n k : Nat}

/-- A scan ends at one place. -/
theorem ScanEnds.unique {j : Nat} (h : ScanEnds mem s p n k) (h' : ScanEnds mem s p n j) : k = j := by
  obtain hlt | heq | hgt := Nat.lt_trichotomy k j
  · exact absurd (h.here (Nat.lt_of_lt_of_le hlt h'.le)) (h'.before k hlt)
  · exact heq
  · exact absurd (h'.here (Nat.lt_of_lt_of_le hgt h.le)) (h.before j hgt)

/-- A scan depends on the bytes up to its end only. -/
theorem ScanEnds.congr (h : ScanEnds mem s p n k)
    (hmem : ∀ i < min (k + 1) n, mem' (off s i) = mem (off s i)) : ScanEnds mem' s p n k where
  le := h.le
  before i hi := by
    have := h.le
    rw [hmem i (by omega)]
    exact h.before i hi
  here hk := by
    rw [hmem k (by omega)]
    exact h.here hk

/-- A position without hits before it is one up to the end of the scan. -/
theorem ScanEnds.lt_of_none {j : Nat} (h : ScanEnds mem s p n k) (hj : j < n)
    (hnone : ∀ i < j, ¬ p (mem (off s i))) : j < min (k + 1) n := by
  have hle : j ≤ k := Nat.le_of_not_lt fun hlt => hnone k hlt (h.here (by omega))
  omega

end

/-- The result of `s31_xespv_memchr` by the end of its scan. -/
theorem Memchr.Found.eq_of_scanEnds {m₀ m : Machine} {k : Nat} (h : Memchr.Found m₀ m)
    (hends : ScanEnds m₀.mem (m₀.get .a0) (· = Memchr.needle m₀) (m₀.get .a2).toNat k) :
    m.get .a0 = if k < (m₀.get .a2).toNat then off (m₀.get .a0) k else 0 := by
  obtain ⟨j, ⟨hj, hnone⟩, hhit, ha0⟩ | ⟨hnone, ha0⟩ := h
  · obtain rfl := hends.unique ⟨Nat.le_of_lt hj, hnone, fun _ => hhit⟩
    rw [ha0, if_pos hj]
  · obtain rfl := hends.unique ⟨le_rfl, hnone, fun hlt => absurd hlt (Nat.lt_irrefl _)⟩
    rw [ha0, if_neg (Nat.lt_irrefl _)]

/-- `strnlen` returns the place where the scan ends. -/
theorem Strnlen.Found.eq_of_scanEnds {m₀ m : Machine} {k : Nat} (h : Strnlen.Found m₀ m)
    (hends : ScanEnds m₀.mem (m₀.get .a0) (· = 0) (m₀.get .a1).toNat k) :
    m.get .a0 = BitVec.ofNat 32 k := by
  obtain ⟨j, hj, hnone, hzero, ha0⟩ := h
  rw [ha0, hends.unique ⟨hj, hnone, hzero⟩]

/-! ## The routines' bodies -/

/-- The first `n` bytes of the destination are written with `f`, no other byte changes
    outside the frame, and `r` is returned. -/
structure Writes (m₀ : Machine) (frame n : Nat) (f : Nat → Byte) (r : BitVec 32) (m : Machine) :
    Prop where
  result : m.get .a0 = r
  mem : AgreeOff (m₀.get .sp + -BitVec.ofNat 32 frame) frame
    (overwrite m₀.mem (m₀.get .a0) 0 n f) m.mem

/-- `nd` bytes of the destination and `ns` of the source: they do not overlap, and they
    are not in the frame. -/
structure Apart (m₀ : Machine) (frame nd ns : Nat) : Prop where
  dst : ∀ i < nd, ¬ InFrame (m₀.get .sp + -BitVec.ofNat 32 frame) frame (off (m₀.get .a0) i)
  src : ∀ i < ns, ¬ InFrame (m₀.get .sp + -BitVec.ofNat 32 frame) frame (off (m₀.get .a1) i)
  disjoint : ∀ i < nd, ∀ j < ns, off (m₀.get .a0) i ≠ off (m₀.get .a1) j

/-- The body of a routine with a frame of 32 bytes, the routines it calls using 32 bytes
    below it, with `k` bytes of the destination written. -/
structure Body (m₀ : Machine) (slots : List (Reg × Nat)) (f : Nat → Byte) (k : Nat) (m : Machine) :
    Prop where
  framed : Framed m₀ 32 slots m
  mem : AgreeOff (m₀.get .sp + -64#32) 64 (overwrite m₀.mem (m₀.get .a0) 0 k f) m.mem

section

variable {m₀ m m' : Machine} {slots : List (Reg × Nat)} {f : Nat → Byte} {k : Nat}

/-- A byte outside the frame before anything is written. -/
theorem Body.byte {x : Addr} (h : Body m₀ slots f 0 m)
    (hx : ¬ InFrame (m₀.get .sp + -64#32) 64 x) : m.mem x = m₀.mem x := by
  rw [h.mem x hx, overwrite_empty]

/-- The frame is made, and nothing is written yet. -/
theorem Body.enter (hfit : SlotsFit 32 slots) (m₀ : Machine) (f : Nat → Byte) :
    Body m₀ slots f 0 (execs (enterFrame 32 slots) m₀) where
  framed := Framed.enter hfit m₀
  mem := by
    rw [overwrite_empty]
    exact (enterFrame_agreeOff hfit m₀).mono fun x hx => hx.below (by decide) (by decide)

/-- Instructions that write neither these registers nor memory keep the state. -/
theorem Body.line {ops : Code} (h : Body m₀ slots f k m)
    (hregs : ∀ r ∈ savedRegs, r ∉ slots.map Prod.fst → ∀ i ∈ ops, i.dest ≠ some r)
    (hsp : ∀ i ∈ ops, i.dest ≠ some .sp) (hmem : ∀ i ∈ ops, i.isStore = false) :
    Body m₀ slots f k (execs ops m) where
  framed := h.framed.line hregs hsp hmem
  mem := by
    rw [execs_mem hmem]
    exact h.mem

/-- The stack pointer of the routines called. -/
private theorem frame_below (m₀ : Machine) :
    m₀.get .sp + -BitVec.ofNat 32 32 + -32 = m₀.get .sp + -64#32 := by
  rw [add_assoc]
  rfl

/-- The routines called do not get at the registers stored in the frame. -/
private theorem not_inFrame_slot {j : Nat} (hj : j < 32) :
    ¬ InFrame (m₀.get .sp + -64#32) 32 (off (m₀.get .sp + -BitVec.ofNat 32 32) j) := by
  rw [show m₀.get .sp + -BitVec.ofNat 32 32 = off (m₀.get .sp + -64#32) 32 by
    rw [off, add_assoc]; rfl, off_off]
  exact not_inFrame_off (by omega) (by omega)

/-- The frame of a routine is part of the range that it may write. -/
private theorem inFrame_slot {j : Nat} (hj : j < 32) :
    InFrame (m₀.get .sp + -64#32) 64 (off (m₀.get .sp + -BitVec.ofNat 32 32) j) := by
  rw [show m₀.get .sp + -BitVec.ofNat 32 32 = off (m₀.get .sp + -64#32) 32 by
    rw [off, add_assoc]; rfl, off_off]
  exact inFrame_off (by omega) (by omega)

/-- A call that writes the next bytes of the destination. -/
theorem Body.write {a : Addr} {j : Nat} (h : Body m₀ slots f k m) (hfit : SlotsFit 32 slots)
    (hra : .ra ∈ slots.map Prod.fst) (hsaved : Saved (m.set .ra a) m') (hkj : k ≤ j)
    (hdst : ∀ i < j, ¬ InFrame (m₀.get .sp + -64#32) 64 (off (m₀.get .a0) i))
    (hmem : AgreeOff (m₀.get .sp + -64#32) 32 (overwrite m.mem (m₀.get .a0) k j f) m'.mem) :
    Body m₀ slots f j m' where
  framed := by
    refine h.framed.call hra hsaved fun s hs i hi => ?_
    have hlt : s.2 + i < 32 := by
      have := hfit.fit s hs
      omega
    rw [hmem _ (not_inFrame_slot hlt), overwrite_of_not_mem]
    -- a byte of the destination is not in the frame
    intro hin
    refine hdst _ hin.2 ?_
    rw [off_toNat_sub]
    exact inFrame_slot hlt
  mem := by
    rw [← overwrite_up (Nat.zero_le k) hkj]
    exact h.mem.congr_overwrite.trans (hmem.mono fun x hx => hx.of_bottom (by decide))

/-- A store of the next byte of the destination. -/
theorem Body.store (h : Body m₀ slots f k m) (hfit : SlotsFit 32 slots)
    (hra : .ra ∈ slots.map Prod.fst) (hregs : ∀ r ∈ savedRegs, m'.get r = m.get r) (hk : k < 2 ^ 32)
    (hdst : ∀ i < k + 1, ¬ InFrame (m₀.get .sp + -64#32) 64 (off (m₀.get .a0) i))
    (hmem : m'.mem = Function.update m.mem (off (m₀.get .a0) k) (f k)) :
    Body m₀ slots f (k + 1) m' := by
  refine h.write (a := m.get .ra) hfit hra (fun r hr => ?_) (Nat.le_succ k) hdst ?_
  · rw [hregs r hr]
    by_cases hne : r = .ra
    · rw [hne, Machine.get_set, if_neg (by decide), if_pos rfl]
    · exact (Machine.get_set_of_ne _ _ hne).symm
  · rw [hmem, update_eq_overwrite _ _ hk rfl]
    exact AgreeOff.refl _ _ _

/-- The registers are loaded again and the routine returns. -/
theorem Body.leave {addr : Label → Addr} {rest : Code} {r : BitVec 32}
    (h : Body m₀ slots f k m) (out : List (Reg × Nat)) (hfit : SlotsFit 32 slots) (hout : out.Perm slots)
    (ha0 : m.get .a0 = r) :
    Returns addr m₀ (Writes m₀ 64 k f r) ⟨.run (leaveFrame 32 out ++ .ret :: rest), m⟩ := by
  refine h.framed.leave out hfit hout (fun _ _ => trivial) fun m' ha0' hmem' => ?_
  constructor
  · rw [ha0', ha0]
  · rw [hmem']
    exact h.mem

end

/-! ## Calls -/

section

variable {m₀ m : Machine} {slots : List (Reg × Nat)} {f : Nat → Byte} {k n : Nat} {s : Addr}
  {addr : Label → Addr} {ret : Label} {rest : Code} {Q : Config Label → Prop}
  (hfit : SlotsFit 32 slots) (hra : .ra ∈ slots.map Prod.fst) (hsp : (m₀.get .sp).toNat % 16 = 0)
  (hlayout : Layout addr) (hret : ret ∈ returnLabels)

/-- The saved registers are as before a call, but for the return address. -/
def Kept (m m' : Machine) : Prop := ∀ r ∈ savedRegs, r ≠ .ra → m'.get r = m.get r

/-- The registers that a call keeps, but for `ra`. -/
theorem Saved.kept {a : Addr} {m' : Machine} (h : Saved (m.set .ra a) m') : Kept m m' :=
  fun r hr hne => (h r hr).trans (Machine.get_set_of_ne _ _ hne)

/-- The stack pointer of a call. -/
theorem Body.call_sp (h : Body m₀ slots f k m) (a : Addr) :
    (m.set .ra a).get .sp = m₀.get .sp + -BitVec.ofNat 32 32 :=
  (Machine.get_set_of_ne _ _ (by decide)).trans h.framed.sp

include hsp in
/-- The stack pointer of a call is at a block boundary. -/
theorem Body.call_aligned (h : Body m₀ slots f k m) (a : Addr) :
    ((m.set .ra a).get .sp).toNat % 16 = 0 := by
  rw [h.call_sp a]
  exact add_aligned hsp (by decide)

include hfit hra hsp hlayout hret in
/-- A search in the source. -/
theorem Body.memchr {c : BitVec 32} (h : Body m₀ slots f 0 m) (ha0 : m.get .a0 = s)
    (ha1 : m.get .a1 = c) (ha2 : (m.get .a2).toNat = n)
    (hends : ScanEnds m₀.mem s (· = c.setWidth 8) n k)
    (hsrc : ∀ i < min (k + 1) n, ¬ InFrame (m₀.get .sp + -64#32) 64 (off s i))
    (hnext : ∀ m', Kept m m' → Body m₀ slots f 0 m' →
      m'.get .a0 = (if k < n then off s k else 0) →
      Leads (memopsAt addr) (fun _ => True) Q ⟨.run (memopsCode ret), m'⟩) :
    Leads (memopsAt addr) (fun _ => True) Q ⟨.run (.call .s31XespvMemchr ret :: rest), m⟩ := by
  have hset : ∀ {r : Reg}, r ≠ .ra → (m.set .ra (addr ret)).get r = m.get r := fun hr =>
    Machine.get_set_of_ne _ _ hr
  have hc0 : (m.set .ra (addr ret)).get .a0 = s := (hset (by decide)).trans ha0
  have hneedle : Memchr.needle (m.set .ra (addr ret)) = c.setWidth 8 := by
    rw [Memchr.needle, hset (by decide), ha1]
  have hc2 : ((m.set .ra (addr ret)).get .a2).toNat = n := by rw [hset (by decide), ha2]
  -- outside of the frame the memory is as it was, so the search ends at the same place
  have hends' : ScanEnds (m.set .ra (addr ret)).mem ((m.set .ra (addr ret)).get .a0)
      (· = Memchr.needle (m.set .ra (addr ret))) ((m.set .ra (addr ret)).get .a2).toNat k := by
    rw [hc0, hc2, hneedle, Machine.mem_set]
    exact hends.congr fun i hi => h.byte (hsrc i hi)
  have hcallee := Memchr.memchr_finds addr (m.set .ra (addr ret)) (h.call_aligned hsp _) fun i hi => by
    have hlt := hends'.lt_of_none hi.1 hi.2
    rw [hc2] at hlt
    rw [h.call_sp, hc0, frame_below]
    exact fun hin => hsrc i hlt (hin.of_bottom (by decide))
  -- back from the call, with its result
  refine Leads.call_returns hlayout hret hcallee.anywhere fun m' hsaved hpost => ?_
  obtain ⟨hmem, hfound⟩ := hpost
  have ha0' := hfound.eq_of_scanEnds hends'
  rw [hc0, hc2] at ha0'
  rw [h.call_sp, frame_below, Machine.mem_set] at hmem
  refine hnext m' hsaved.kept (h.write hfit hra hsaved le_rfl (fun i hi => absurd hi (by omega)) ?_) ha0'
  rw [overwrite_empty]
  exact hmem

include hfit hra hsp hlayout hret in
/-- The length of the source, up to a bound. -/
theorem Body.strnlen (h : Body m₀ slots f 0 m) (ha0 : m.get .a0 = s) (ha1 : (m.get .a1).toNat = n)
    (hends : ScanEnds m₀.mem s (· = 0) n k)
    (hsrc : ∀ i < min (k + 1) n, ¬ InFrame (m₀.get .sp + -64#32) 64 (off s i))
    (hnext : ∀ m', Kept m m' → Body m₀ slots f 0 m' → m'.get .a0 = BitVec.ofNat 32 k →
      Leads (memopsAt addr) (fun _ => True) Q ⟨.run (memopsCode ret), m'⟩) :
    Leads (memopsAt addr) (fun _ => True) Q ⟨.run (.call .s31XespvStrnlen ret :: rest), m⟩ := by
  have hset : ∀ {r : Reg}, r ≠ .ra → (m.set .ra (addr ret)).get r = m.get r := fun hr =>
    Machine.get_set_of_ne _ _ hr
  have hc0 : (m.set .ra (addr ret)).get .a0 = s := (hset (by decide)).trans ha0
  have hc1 : ((m.set .ra (addr ret)).get .a1).toNat = n := by rw [hset (by decide), ha1]
  have hends' : ScanEnds (m.set .ra (addr ret)).mem ((m.set .ra (addr ret)).get .a0) (· = 0)
      ((m.set .ra (addr ret)).get .a1).toNat k := by
    rw [hc0, hc1, Machine.mem_set]
    exact hends.congr fun i hi => h.byte (hsrc i hi)
  -- the callee reads no byte of the frame, since the string ends before
  have hcallee := Strnlen.strnlen_finds addr (m.set .ra (addr ret)) (h.call_aligned hsp _) fun i hi => by
    have hlt := hends'.lt_of_none hi.1 hi.2
    rw [hc1] at hlt
    rw [h.call_sp, hc0, frame_below]
    exact fun hin => hsrc i hlt (hin.of_bottom (by decide))
  -- back from the call, with its result
  refine Leads.call_returns hlayout hret hcallee.anywhere fun m' hsaved hpost => ?_
  obtain ⟨hmem, hfound⟩ := hpost
  rw [h.call_sp, frame_below, Machine.mem_set] at hmem
  refine hnext m' hsaved.kept (h.write hfit hra hsaved le_rfl (fun i hi => absurd hi (by omega)) ?_)
    (hfound.eq_of_scanEnds hends')
  rw [overwrite_empty]
  exact hmem

include hfit hra hsp hlayout hret in
/-- The length of the source. -/
theorem Body.strlen {len : Nat} (h : Body m₀ slots f 0 m) (ha0 : m.get .a0 = s)
    (hlen : FirstAt m₀.mem s (· = 0) len)
    (hsrc : ∀ i < len + 1, ¬ InFrame (m₀.get .sp + -64#32) 64 (off s i))
    (hnext : ∀ m', Kept m m' → Body m₀ slots f 0 m' → m'.get .a0 = BitVec.ofNat 32 len →
      Leads (memopsAt addr) (fun _ => True) Q ⟨.run (memopsCode ret), m'⟩) :
    Leads (memopsAt addr) (fun _ => True) Q ⟨.run (.call .s31XespvStrlen ret :: rest), m⟩ := by
  have hc0 : (m.set .ra (addr ret)).get .a0 = s := (Machine.get_set_of_ne _ _ (by decide)).trans ha0
  have hlen' : FirstAt (m.set .ra (addr ret)).mem ((m.set .ra (addr ret)).get .a0) (· = 0) len := by
    rw [hc0, Machine.mem_set]
    exact hlen.congr fun i hi => h.byte (hsrc i (by omega))
  -- the callee reads no byte of the frame
  have hcallee := Strlen.strlen_finds addr (h.call_aligned hsp _) hlen' fun i hi => by
    rw [h.call_sp, hc0, frame_below]
    exact fun hin => hsrc i (by omega) (hin.of_bottom (by decide))
  refine Leads.call_returns hlayout hret hcallee.anywhere fun m' hsaved hpost => ?_
  obtain ⟨hmem, ha0'⟩ := hpost
  rw [h.call_sp, frame_below, Machine.mem_set] at hmem
  refine hnext m' hsaved.kept (h.write hfit hra hsaved le_rfl (fun i hi => absurd hi (by omega)) ?_) ha0'
  rw [overwrite_empty]
  exact hmem

include hfit hra hlayout hret in
/-- The source is copied. -/
theorem Body.memcpy (h : Body m₀ slots f 0 m) (ha0 : m.get .a0 = m₀.get .a0)
    (ha1 : m.get .a1 = m₀.get .a1) (ha2 : (m.get .a2).toNat = n) (hapart : Apart m₀ 64 n n)
    (hf : ∀ i < n, f i = m₀.mem (off (m₀.get .a1) i))
    (hnext : ∀ m', Kept m m' → Body m₀ slots f n m' →
      Leads (memopsAt addr) (fun _ => True) Q ⟨.run (memopsCode ret), m'⟩) :
    Leads (memopsAt addr) (fun _ => True) Q ⟨.run (.call .s31XespvMemcpy ret :: rest), m⟩ := by
  have hset : ∀ {r : Reg}, r ≠ .ra → (m.set .ra (addr ret)).get r = m.get r := fun hr =>
    Machine.get_set_of_ne _ _ hr
  have hc0 : (m.set .ra (addr ret)).get .a0 = m₀.get .a0 := (hset (by decide)).trans ha0
  have hc1 : (m.set .ra (addr ret)).get .a1 = m₀.get .a1 := (hset (by decide)).trans ha1
  have hc2 : ((m.set .ra (addr ret)).get .a2).toNat = n := by rw [hset (by decide), ha2]
  have hahead : Ahead ((m.set .ra (addr ret)).get .a0) ((m.set .ra (addr ret)).get .a1)
      ((m.set .ra (addr ret)).get .a2).toNat := by
    rw [hc0, hc1, hc2]
    exact fun i j hij hj => hapart.disjoint i (by omega) j hj
  refine Leads.call_returns hlayout hret (memcpy_copied _ hahead) fun m' hsaved hpost => ?_
  obtain ⟨-, hmem⟩ := hpost
  rw [hc0, hc1, hc2, Machine.mem_set] at hmem
  refine hnext m' hsaved.kept (h.write hfit hra hsaved (Nat.zero_le n) hapart.dst ?_)
  -- the source is still as it was when the routine was called
  rw [hmem, overwrite_congr fun i _ hi => (h.byte (hapart.src i hi)).trans (hf i hi).symm]
  exact AgreeOff.refl _ _ _

include hfit hra hsp hlayout hret in
/-- The bytes of the destination from `k` on are filled with zeros. -/
theorem Body.memset (h : Body m₀ slots f k m) (ha0 : m.get .a0 = off (m₀.get .a0) k)
    (ha1 : m.get .a1 = 0) (ha2 : (m.get .a2).toNat = n) (hn : k + n < 2 ^ 32)
    (hdst : ∀ i < k + n, ¬ InFrame (m₀.get .sp + -64#32) 64 (off (m₀.get .a0) i))
    (hf : ∀ i < n, f (k + i) = 0)
    (hnext : ∀ m', Kept m m' → Body m₀ slots f (k + n) m' →
      Leads (memopsAt addr) (fun _ => True) Q ⟨.run (memopsCode ret), m'⟩) :
    Leads (memopsAt addr) (fun _ => True) Q ⟨.run (.call .s31XespvMemset ret :: rest), m⟩ := by
  have hset : ∀ {r : Reg}, r ≠ .ra → (m.set .ra (addr ret)).get r = m.get r := fun hr =>
    Machine.get_set_of_ne _ _ hr
  have hc0 : (m.set .ra (addr ret)).get .a0 = off (m₀.get .a0) k := (hset (by decide)).trans ha0
  have hc1 : (m.set .ra (addr ret)).get .a1 = 0 := (hset (by decide)).trans ha1
  have hc2 : ((m.set .ra (addr ret)).get .a2).toNat = n := by rw [hset (by decide), ha2]
  refine Leads.call_returns hlayout hret (memset_filled _ (h.call_aligned hsp _)) fun m' hsaved hpost => ?_
  obtain ⟨-, hmem⟩ := hpost
  have hzero : (0 : BitVec 32).setWidth 8 = (0 : Byte) := rfl
  rw [FilledTo, hc0, hc1, hc2, h.call_sp, Machine.mem_set, hzero,
    overwrite_shift (Nat.le_of_lt hn) fun i hi => (hf i hi).symm] at hmem
  -- what is set continues what was written, and the callee's frame is below this one
  refine hnext m' hsaved.kept (h.write hfit hra hsaved (Nat.le_add_right k n) hdst ?_)
  rw [← frame_below]
  exact hmem.mono fun x hx => hx.below (by decide) (by decide)

end

/-! ## `s31_xespv_memccpy` -/

namespace Memccpy

/-- The saved registers of `s31_xespv_memccpy`. -/
def slots : List (Reg × Nat) := [(.ra, 28), (.s0, 24), (.s1, 20), (.s2, 16)]

/-- The slots lie in the frame and apart. -/
theorem slots_fit : SlotsFit 32 slots := ⟨by decide, by decide, by decide, by decide, by decide⟩

/-- The arguments are kept, and those of the search made. -/
theorem execs_arguments (m : Machine) :
    (execs ((memccpyEntry.drop 5).take 6) m).get .s0 = m.get .a0 ∧
      (execs ((memccpyEntry.drop 5).take 6) m).get .s1 = m.get .a1 ∧
      (execs ((memccpyEntry.drop 5).take 6) m).get .s2 = m.get .a3 ∧
      (execs ((memccpyEntry.drop 5).take 6) m).get .a0 = m.get .a1 ∧
      (execs ((memccpyEntry.drop 5).take 6) m).get .a1 = m.get .a2 ∧
      (execs ((memccpyEntry.drop 5).take 6) m).get .a2 = m.get .a3 := by
  simp [memccpyEntry, execs, Instr.exec]

/-- The body with the arguments in the saved registers, `n` bytes to copy. -/
structure Holds (m₀ : Machine) (n : BitVec 32) (m : Machine) : Prop where
  s0 : m.get .s0 = m₀.get .a0
  s1 : m.get .s1 = m₀.get .a1
  s2 : m.get .s2 = n

/-- What a call keeps is still there after it. -/
theorem Holds.kept {m₀ m m' : Machine} {n : BitVec 32} (h : Holds m₀ n m) (hkept : Kept m m') :
    Holds m₀ n m' where
  s0 := (hkept .s0 (by decide) (by decide)).trans h.s0
  s1 := (hkept .s1 (by decide) (by decide)).trans h.s1
  s2 := (hkept .s2 (by decide) (by decide)).trans h.s2

section

variable {m₀ m : Machine} {addr : Label → Addr} {k : Nat} {f : Nat → Byte} (hlayout : Layout addr)

/-- The end of the scan for the byte. -/
def Ends (m₀ : Machine) (k : Nat) : Prop :=
  ScanEnds m₀.mem (m₀.get .a1) (· = (m₀.get .a2).setWidth 8) (m₀.get .a3).toNat k

include hlayout in
/-- The search, and the configuration after it. -/
private theorem search {Q : Config Label → Prop} (f : Nat → Byte)
    (hsp : (m₀.get .sp).toNat % 16 = 0) (hends : Ends m₀ k)
    (hsrc : ∀ i < min (k + 1) (m₀.get .a3).toNat,
      ¬ InFrame (m₀.get .sp + -64#32) 64 (off (m₀.get .a1) i))
    (hnext : ∀ m, Body m₀ slots f 0 m → Holds m₀ (m₀.get .a3) m →
      m.get .a0 = (if k < (m₀.get .a3).toNat then off (m₀.get .a1) k else 0) →
      Leads (memopsAt addr) (fun _ => True) Q ⟨.run (memopsCode .memccpySearchReturn), m⟩) :
    Leads (memopsAt addr) (fun _ => True) Q ⟨.run (memopsCode .s31XespvMemccpy), m₀⟩ := by
  refine Leads.line (enterFrame 32 slots) isJump_enterFrame (readsLine_enterFrame _ _) ?_
  have h := Body.enter slots_fit m₀ f
  have hget : ∀ {r : Reg}, r ≠ .sp → (execs (enterFrame 32 slots) m₀).get r = m₀.get r := fun hr =>
    enterFrame_get hr m₀
  -- the arguments are saved in registers that the call keeps
  have ha0 : (execs (enterFrame 32 slots) m₀).get .a0 = m₀.get .a0 := hget (by decide)
  have ha1 : (execs (enterFrame 32 slots) m₀).get .a1 = m₀.get .a1 := hget (by decide)
  have ha2 : (execs (enterFrame 32 slots) m₀).get .a2 = m₀.get .a2 := hget (by decide)
  have ha3 : (execs (enterFrame 32 slots) m₀).get .a3 = m₀.get .a3 := hget (by decide)
  generalize execs (enterFrame 32 slots) m₀ = m₁ at h ha0 ha1 ha2 ha3 ⊢
  refine Leads.line ((memccpyEntry.drop 5).take 6) (by decide) (readsLine_anywhere ..) ?_
  have h' : Body m₀ slots f 0 (execs ((memccpyEntry.drop 5).take 6) m₁) :=
    h.line (by decide) (by decide) (by decide)
  obtain ⟨hs0, hs1, hs2, harg0, harg1, harg2⟩ := execs_arguments m₁
  generalize execs ((memccpyEntry.drop 5).take 6) m₁ = m₂ at h' hs0 hs1 hs2 harg0 harg1 harg2 ⊢
  -- the call of `memchr`, with the arguments kept in saved registers
  refine h'.memchr slots_fit (by decide) hsp hlayout (by decide) (harg0.trans ha1) (harg1.trans ha2)
    (by rw [harg2, ha3]) hends hsrc fun m₃ hkept h₃ hfound => ?_
  have hholds : Holds m₀ (m₀.get .a3) m₂ := ⟨hs0.trans ha0, hs1.trans ha1, hs2.trans ha3⟩
  exact hnext m₃ h₃ (hholds.kept hkept) hfound

/-- The arguments of the copy. -/
private theorem execs_copyArguments (m : Machine) :
    (execs (memccpyCopy.take 3) m).get .a0 = m.get .s0 ∧
      (execs (memccpyCopy.take 3) m).get .a1 = m.get .s1 ∧
      (execs (memccpyCopy.take 3) m).get .a2 = m.get .s2 := by
  simp [memccpyCopy, execs, Instr.exec]

include hlayout in
/-- The copy of the bytes counted in `s2`. -/
theorem copy {Q : Config Label → Prop} {n : BitVec 32} {ret : Label} {rest : Code}
    (h : Body m₀ slots f 0 m) (hholds : Holds m₀ n m) (hret : ret ∈ returnLabels)
    (hapart : Apart m₀ 64 n.toNat n.toNat)
    (hf : ∀ i < n.toNat, f i = m₀.mem (off (m₀.get .a1) i))
    (hnext : ∀ m', Body m₀ slots f n.toNat m' → Holds m₀ n m' →
      Leads (memopsAt addr) (fun _ => True) Q ⟨.run (memopsCode ret), m'⟩) :
    Leads (memopsAt addr) (fun _ => True) Q
      ⟨.run (memccpyCopy.take 3 ++ .call .s31XespvMemcpy ret :: rest), m⟩ := by
  refine Leads.line (memccpyCopy.take 3) (by decide) (readsLine_anywhere ..) ?_
  have h' : Body m₀ slots f 0 (execs (memccpyCopy.take 3) m) :=
    h.line (by decide) (by decide) (by decide)
  have hholds' : Holds m₀ n (execs (memccpyCopy.take 3) m) :=
    ⟨(execs_get (by decide) m).trans hholds.s0, (execs_get (by decide) m).trans hholds.s1,
      (execs_get (by decide) m).trans hholds.s2⟩
  obtain ⟨ha0, ha1, ha2⟩ := execs_copyArguments m
  refine h'.memcpy slots_fit (by decide) hlayout hret (ha0.trans hholds.s0) (ha1.trans hholds.s1)
    (by rw [ha2, hholds.s2]) hapart hf fun m' hkept h₃ => hnext m' h₃ (hholds'.kept hkept)

include hlayout in
/-- The search gives a null pointer: all bytes are copied. -/
private theorem none_copies (h : Body m₀ slots f 0 m) (hholds : Holds m₀ (m₀.get .a3) m)
    (hzero : m.get .a0 = 0) (hapart : Apart m₀ 64 (m₀.get .a3).toNat (m₀.get .a3).toNat)
    (hf : ∀ i < (m₀.get .a3).toNat, f i = m₀.mem (off (m₀.get .a1) i)) :
    Returns addr m₀ (Writes m₀ 64 (m₀.get .a3).toNat f 0)
      ⟨.run (memopsCode .memccpySearchReturn), m⟩ := by
  refine Leads.beqz (fun _ => ?_) fun hne => absurd hzero hne
  refine Leads.beqz (fun hempty => ?_) fun _ => ?_
  · -- nothing to copy, and the null pointer of the search is returned
    have hn : (m₀.get .a3).toNat = 0 := by
      rw [← hholds.s2, hempty]
      rfl
    rw [hn]
    exact h.leave [(.s2, 16), (.s1, 20), (.s0, 24), (.ra, 28)] slots_fit (by decide) hzero
  · refine copy hlayout h hholds (by decide) hapart hf fun m' h' _ => ?_
    refine Leads.line memccpyNoneReturn (by decide) (readsLine_anywhere ..) ?_
    have h'' : Body m₀ slots f (m₀.get .a3).toNat (execs memccpyNoneReturn m') :=
      h'.line (by decide) (by decide) (by decide)
    exact h''.leave [(.s2, 16), (.s1, 20), (.s0, 24), (.ra, 28)] slots_fit (by decide) rfl

/-- The length to copy is that of the bytes up to the hit. -/
private theorem execs_count (m : Machine) :
    (execs ((memccpySearchReturn.drop 1).take 2) m).get .s2 = m.get .a0 - m.get .s1 + 1 := by
  simp [memccpySearchReturn, execs, Instr.exec]

include hlayout in
/-- The search gives the address of a hit: the bytes up to it are copied. -/
private theorem hit_copies (h : Body m₀ slots f 0 m) (hholds : Holds m₀ (m₀.get .a3) m)
    (ha0 : m.get .a0 = off (m₀.get .a1) k) (hne : off (m₀.get .a1) k ≠ 0)
    (hk : k < (m₀.get .a3).toNat) (hapart : Apart m₀ 64 (k + 1) (k + 1))
    (hf : ∀ i < k + 1, f i = m₀.mem (off (m₀.get .a1) i)) :
    Returns addr m₀ (Writes m₀ 64 (k + 1) f (off (m₀.get .a0) (k + 1)))
      ⟨.run (memopsCode .memccpySearchReturn), m⟩ := by
  have hlt : k + 1 < 2 ^ 32 := by
    have := (m₀.get .a3).isLt
    omega
  refine Leads.beqz (fun hzero => absurd (ha0.symm.trans hzero) hne) fun _ => ?_
  refine Leads.line ((memccpySearchReturn.drop 1).take 2) (by decide) (readsLine_anywhere ..) ?_
  have h' : Body m₀ slots f 0 (execs ((memccpySearchReturn.drop 1).take 2) m) :=
    h.line (by decide) (by decide) (by decide)
  -- the distance to the byte found, and that byte itself
  have hcount : m.get .a0 - m.get .s1 + 1 = BitVec.ofNat 32 (k + 1) := by
    rw [ha0, hholds.s1, off, add_sub_cancel_left, BitVec.ofNat_add]
    rfl
  have hholds' : Holds m₀ (BitVec.ofNat 32 (k + 1)) (execs ((memccpySearchReturn.drop 1).take 2) m) :=
    ⟨(execs_get (by decide) m).trans hholds.s0, (execs_get (by decide) m).trans hholds.s1,
      (execs_count m).trans hcount⟩
  generalize execs ((memccpySearchReturn.drop 1).take 2) m = m₁ at h' hholds' ⊢
  have hnat : (BitVec.ofNat 32 (k + 1)).toNat = k + 1 := by
    rw [BitVec.toNat_ofNat, Nat.mod_eq_of_lt hlt]
  rw [← hnat] at hapart hf ⊢
  refine copy hlayout h' hholds' (by decide) hapart hf fun m₂ h₂ hholds₂ => ?_
  refine Leads.line (memccpyCopyReturn.take 1) (by decide) (readsLine_anywhere ..) (.j ?_)
  have h₃ : Body m₀ slots f (BitVec.ofNat 32 (k + 1)).toNat (execs (memccpyCopyReturn.take 1) m₂) :=
    h₂.line (by decide) (by decide) (by decide)
  -- the result is the end of what was copied
  refine h₃.leave [(.s2, 16), (.s1, 20), (.s0, 24), (.ra, 28)] slots_fit (by decide) ?_
  rw [hnat, off, ← hholds₂.s0, ← hholds₂.s2]
  rfl

end

/-- The bytes up to and including the first hit are copied and the address behind them is
    returned; without a hit all bytes are copied and NULL is returned. -/
theorem memccpy_copies {addr : Label → Addr} {m₀ : Machine} {k : Nat} (hlayout : Layout addr)
    (hsp : (m₀.get .sp).toNat % 16 = 0) (hends : Ends m₀ k)
    (hnull : k < (m₀.get .a3).toNat → off (m₀.get .a1) k ≠ 0)
    (hapart : Apart m₀ 64 (min (k + 1) (m₀.get .a3).toNat) (min (k + 1) (m₀.get .a3).toNat)) :
    Returns addr m₀ (Writes m₀ 64 (min (k + 1) (m₀.get .a3).toNat)
        (fun i => m₀.mem (off (m₀.get .a1) i))
        (if k < (m₀.get .a3).toNat then off (m₀.get .a0) (k + 1) else 0))
      ⟨.run (memopsCode .s31XespvMemccpy), m₀⟩ := by
  refine search hlayout (fun i => m₀.mem (off (m₀.get .a1) i)) hsp hends hapart.src
    fun m h hholds hfound => ?_
  -- with the byte within the count, or without it
  by_cases hk : k < (m₀.get .a3).toNat
  · rw [if_pos hk] at hfound ⊢
    rw [Nat.min_eq_left hk] at hapart ⊢
    exact hit_copies hlayout h hholds hfound (hnull hk) hk hapart fun i _ => rfl
  · rw [if_neg hk] at hfound ⊢
    rw [Nat.min_eq_right (by omega)] at hapart ⊢
    exact none_copies hlayout h hholds hfound hapart fun i _ => rfl

/-- A hit at address 0 is taken for none. -/
private theorem memccpy_null {addr : Label → Addr} {m₀ : Machine} {k : Nat} (hlayout : Layout addr)
    (hsp : (m₀.get .sp).toNat % 16 = 0) (hends : Ends m₀ k) (hnull : off (m₀.get .a1) k = 0)
    (hapart : Apart m₀ 64 (m₀.get .a3).toNat (m₀.get .a3).toNat) :
    Returns addr m₀ (Writes m₀ 64 (m₀.get .a3).toNat (fun i => m₀.mem (off (m₀.get .a1) i)) 0)
      ⟨.run (memopsCode .s31XespvMemccpy), m₀⟩ := by
  refine search hlayout (fun i => m₀.mem (off (m₀.get .a1) i)) hsp hends
    (fun i hi => hapart.src i (by omega)) fun m h hholds hfound => ?_
  rw [hnull, ite_self] at hfound
  exact none_copies hlayout h hholds hfound hapart fun i _ => rfl

end Memccpy

/-! ## `s31_xespv_stpncpy` and `s31_xespv_strncpy` -/

namespace Stpncpy

/-- The saved registers of `s31_xespv_stpncpy`. -/
def slots : List (Reg × Nat) := [(.ra, 28), (.s0, 24), (.s1, 20), (.s2, 16), (.s3, 12)]

/-- The slots lie in the frame and apart. -/
theorem slots_fit : SlotsFit 32 slots := ⟨by decide, by decide, by decide, by decide, by decide⟩

/-- The slots in the order they are read back. -/
def out : List (Reg × Nat) := [(.s3, 12), (.s2, 16), (.s1, 20), (.s0, 24), (.ra, 28)]

/-- The arguments are kept, and those of the count made. -/
theorem execs_arguments (m : Machine) :
    (execs ((stpncpyEntry.drop 6).take 5) m).get .s0 = m.get .a0 ∧
      (execs ((stpncpyEntry.drop 6).take 5) m).get .s1 = m.get .a1 ∧
      (execs ((stpncpyEntry.drop 6).take 5) m).get .s2 = m.get .a2 ∧
      (execs ((stpncpyEntry.drop 6).take 5) m).get .a0 = m.get .a1 ∧
      (execs ((stpncpyEntry.drop 6).take 5) m).get .a1 = m.get .a2 := by
  simp [stpncpyEntry, execs, Instr.exec]

/-- The arguments of `memcpy`. -/
private theorem execs_copyArguments (m : Machine) :
    (execs (stpncpyCopy.take 3) m).get .a0 = m.get .s0 ∧
      (execs (stpncpyCopy.take 3) m).get .a1 = m.get .s1 ∧
      (execs (stpncpyCopy.take 3) m).get .a2 = m.get .t1 := by
  simp [stpncpyCopy, execs, Instr.exec]

/-- The arguments of `memset`. -/
private theorem execs_fillArguments (m : Machine) :
    (execs ((stpncpyCopyReturn.drop 1).take 5) m).get .s1 = m.get .s0 + m.get .s3 ∧
      (execs ((stpncpyCopyReturn.drop 1).take 5) m).get .a0 = m.get .s0 + m.get .s3 + 1 ∧
      (execs ((stpncpyCopyReturn.drop 1).take 5) m).get .a1 = 0 ∧
      (execs ((stpncpyCopyReturn.drop 1).take 5) m).get .a2 = m.get .s2 - (m.get .s3 + 1) := by
  simp [stpncpyCopyReturn, execs, Instr.exec]

/-- The body with the arguments and the length `k` in the saved registers. -/
structure Holds (m₀ : Machine) (k : Nat) (m : Machine) : Prop where
  s0 : m.get .s0 = m₀.get .a0
  s1 : m.get .s1 = m₀.get .a1
  s2 : m.get .s2 = m₀.get .a2
  s3 : m.get .s3 = BitVec.ofNat 32 k

/-- What a call keeps is still there after it. -/
theorem Holds.kept {m₀ m m' : Machine} {k : Nat} (h : Holds m₀ k m) (hkept : Kept m m') :
    Holds m₀ k m' where
  s0 := (hkept .s0 (by decide) (by decide)).trans h.s0
  s1 := (hkept .s1 (by decide) (by decide)).trans h.s1
  s2 := (hkept .s2 (by decide) (by decide)).trans h.s2
  s3 := (hkept .s3 (by decide) (by decide)).trans h.s3

/-- Instructions that write none of these registers keep what they hold. -/
theorem Holds.line {m₀ m : Machine} {k : Nat} {ops : Code} (h : Holds m₀ k m)
    (hregs : ∀ r ∈ savedRegs, ∀ i ∈ ops, i.dest ≠ some r) : Holds m₀ k (execs ops m) :=
  h.kept fun r hr _ => execs_get (hregs r hr) m

/-- What is written: the source up to its terminator, then zeros. -/
def padded (m₀ : Machine) (k : Nat) (i : Nat) : Byte :=
  if i < k then m₀.mem (off (m₀.get .a1) i) else 0

section

variable {m₀ m : Machine} {addr : Label → Addr} {k : Nat} (hlayout : Layout addr)
  (hsp : (m₀.get .sp).toNat % 16 = 0)
  (hends : ScanEnds m₀.mem (m₀.get .a1) (· = 0) (m₀.get .a2).toNat k)
  (hapart : Apart m₀ 64 (m₀.get .a2).toNat (min (k + 1) (m₀.get .a2).toNat))

include hends in
/-- The terminator is copied with the source. -/
private theorem padded_eq {i : Nat} (hi : i < min (k + 1) (m₀.get .a2).toNat) :
    padded m₀ k i = m₀.mem (off (m₀.get .a1) i) := by
  rw [padded]
  split
  · rfl
  · next hge =>
    obtain rfl : i = k := by omega
    exact (hends.here (by omega)).symm

include hends in
/-- The length found is compared with the size. -/
theorem Holds.s3_eq_s2_iff (h : Holds m₀ k m) :
    m.get .s3 = m.get .s2 ↔ k = (m₀.get .a2).toNat := by
  have hlt := (m₀.get .a2).isLt
  have hle := hends.le
  rw [h.s3, h.s2, ← BitVec.toNat_inj, BitVec.toNat_ofNat, Nat.mod_eq_of_lt (by omega)]

include hlayout hsp hends hapart in
/-- The length of the source is found. -/
private theorem search {Q : Config Label → Prop}
    (hnext : ∀ m, Body m₀ slots (padded m₀ k) 0 m → Holds m₀ k m →
      Leads (memopsAt addr) (fun _ => True) Q
        ⟨.run (stpncpyLengthReturn.drop 1 ++ (stpncpyFull ++ memopsCode .LstpnCopy)), m⟩) :
    Leads (memopsAt addr) (fun _ => True) Q ⟨.run (memopsCode .s31XespvStpncpy), m₀⟩ := by
  refine Leads.line (enterFrame 32 slots) isJump_enterFrame (readsLine_enterFrame _ _) ?_
  have h := Body.enter slots_fit m₀ (padded m₀ k)
  have hget : ∀ {r : Reg}, r ≠ .sp → (execs (enterFrame 32 slots) m₀).get r = m₀.get r := fun hr =>
    enterFrame_get hr m₀
  have ha0 : (execs (enterFrame 32 slots) m₀).get .a0 = m₀.get .a0 := hget (by decide)
  have ha1 : (execs (enterFrame 32 slots) m₀).get .a1 = m₀.get .a1 := hget (by decide)
  have ha2 : (execs (enterFrame 32 slots) m₀).get .a2 = m₀.get .a2 := hget (by decide)
  generalize execs (enterFrame 32 slots) m₀ = m₁ at h ha0 ha1 ha2 ⊢
  refine Leads.line ((stpncpyEntry.drop 6).take 5) (by decide) (readsLine_anywhere ..) ?_
  have h' : Body m₀ slots (padded m₀ k) 0 (execs ((stpncpyEntry.drop 6).take 5) m₁) :=
    h.line (by decide) (by decide) (by decide)
  obtain ⟨hs0, hs1, hs2, harg0, harg1⟩ := execs_arguments m₁
  generalize execs ((stpncpyEntry.drop 6).take 5) m₁ = m₂ at h' hs0 hs1 hs2 harg0 harg1 ⊢
  refine h'.strnlen slots_fit (by decide) hsp hlayout (by decide) (harg0.trans ha1)
    (by rw [harg1, ha2]) hends hapart.src fun m₃ hkept h₃ hlen => ?_
  have hkept' : ∀ {r : Reg}, r ∈ savedRegs → r ≠ .ra → m₃.get r = m₂.get r := fun hr hne =>
    hkept _ hr hne
  -- the callee keeps the saved registers, where the arguments wait for it
  have hs0₃ : m₃.get .s0 = m₀.get .a0 := (hkept' (by decide) (by decide)).trans (hs0.trans ha0)
  have hs1₃ : m₃.get .s1 = m₀.get .a1 := (hkept' (by decide) (by decide)).trans (hs1.trans ha1)
  have hs2₃ : m₃.get .s2 = m₀.get .a2 := (hkept' (by decide) (by decide)).trans (hs2.trans ha2)
  refine Leads.line (stpncpyLengthReturn.take 1) (by decide) (readsLine_anywhere ..) ?_
  apply hnext
  · exact h₃.line (by decide) (by decide) (by decide)
  · exact ⟨(execs_get (by decide) m₃).trans hs0₃, (execs_get (by decide) m₃).trans hs1₃,
      (execs_get (by decide) m₃).trans hs2₃, hlen⟩

include hlayout hsp hends hapart in
/-- The copy, and what follows it. -/
theorem copy (h : Body m₀ slots (padded m₀ k) 0 m) (hholds : Holds m₀ k m)
    (ht1 : (m.get .t1).toNat = min (k + 1) (m₀.get .a2).toNat) :
    Returns addr m₀ (Writes m₀ 64 (m₀.get .a2).toNat (padded m₀ k) (off (m₀.get .a0) k))
      ⟨.run (memopsCode .LstpnCopy), m⟩ := by
  -- the call of `memcpy` copies up to the terminator, that of `memset` fills the rest
  have hle := hends.le
  have hlt := (m₀.get .a2).isLt
  refine Leads.line (stpncpyCopy.take 3) (by decide) (readsLine_anywhere ..) ?_
  have h₁ : Body m₀ slots (padded m₀ k) 0 (execs (stpncpyCopy.take 3) m) :=
    h.line (by decide) (by decide) (by decide)
  have hholds₁ : Holds m₀ k (execs (stpncpyCopy.take 3) m) := hholds.line (by decide)
  obtain ⟨ha0, ha1, ha2⟩ := execs_copyArguments m
  generalize execs (stpncpyCopy.take 3) m = m₁ at h₁ hholds₁ ha0 ha1 ha2 ⊢
  have hapart' : Apart m₀ 64 (min (k + 1) (m₀.get .a2).toNat) (min (k + 1) (m₀.get .a2).toNat) :=
    ⟨fun i hi => hapart.dst i (by omega), hapart.src, fun i hi => hapart.disjoint i (by omega)⟩
  refine h₁.memcpy slots_fit (by decide) hlayout (by decide) (ha0.trans hholds.s0)
    (ha1.trans hholds.s1) (by rw [ha2, ht1]) hapart' (fun i hi => padded_eq hends hi)
    fun m₂ hkept h₂ => ?_
  have hholds₂ := hholds₁.kept hkept
  refine Leads.beq (fun heq => ?_) fun hne => ?_
  · -- no terminator in range, nothing to fill
    have hk := (hholds₂.s3_eq_s2_iff hends).mp heq
    rw [Nat.min_eq_right (by omega)] at h₂
    refine Leads.line stpncpyRetEnd (by decide) (readsLine_anywhere ..) ?_
    have h₃ : Body m₀ slots (padded m₀ k) (m₀.get .a2).toNat (execs stpncpyRetEnd m₂) :=
      h₂.line (by decide) (by decide) (by decide)
    refine h₃.leave out slots_fit (by decide) ?_
    rw [off, ← hholds₂.s0, ← hholds₂.s3, heq]
    rfl
  · have hk : k < (m₀.get .a2).toNat :=
      Nat.lt_of_le_of_ne hle fun heq => hne ((hholds₂.s3_eq_s2_iff hends).mpr heq)
    rw [Nat.min_eq_left hk] at h₂
    refine Leads.line ((stpncpyCopyReturn.drop 1).take 5) (by decide) (readsLine_anywhere ..) ?_
    have h₃ : Body m₀ slots (padded m₀ k) (k + 1)
        (execs ((stpncpyCopyReturn.drop 1).take 5) m₂) := h₂.line (by decide) (by decide) (by decide)
    obtain ⟨hs1, harg0, harg1, harg2⟩ := execs_fillArguments m₂
    generalize execs ((stpncpyCopyReturn.drop 1).take 5) m₂ = m₃ at h₃ hs1 harg0 harg1 harg2 ⊢
    rw [hholds₂.s0, hholds₂.s3] at hs1 harg0
    rw [hholds₂.s2, hholds₂.s3] at harg2
    have hsum : BitVec.ofNat 32 k + 1 = BitVec.ofNat 32 (k + 1) := by
      rw [BitVec.ofNat_add]
      rfl
    -- the arguments of `memset`
    have hend : m₃.get .a0 = off (m₀.get .a0) (k + 1) := by rw [harg0, off, ← hsum, add_assoc]
    have hcount : (m₃.get .a2).toNat = (m₀.get .a2).toNat - (k + 1) := by
      rw [harg2, hsum, BitVec.toNat_sub, BitVec.toNat_ofNat]
      omega
    have htotal : k + 1 + ((m₀.get .a2).toNat - (k + 1)) = (m₀.get .a2).toNat := by omega
    refine h₃.memset slots_fit (by decide) hsp hlayout (by decide) hend harg1 hcount
      (by omega) (by rw [htotal]; exact hapart.dst) (fun i _ => if_neg (by omega))
      fun m₄ hkept₄ h₄ => ?_
    rw [htotal] at h₄
    refine Leads.line (stpncpyFillReturn.take 1) (by decide) (readsLine_anywhere ..) (.j ?_)
    have h₅ : Body m₀ slots (padded m₀ k) (m₀.get .a2).toNat (execs (stpncpyFillReturn.take 1) m₄) :=
      h₄.line (by decide) (by decide) (by decide)
    refine h₅.leave out slots_fit (by decide) ?_
    show m₄.get .s1 = _
    rw [hkept₄ .s1 (by decide) (by decide), hs1]
    rfl

include hlayout hsp hends hapart in
/-- The source is copied up to its terminator and padded with zeros; the address behind the
    bytes copied is returned. -/
theorem stpncpy_copies :
    Returns addr m₀ (Writes m₀ 64 (m₀.get .a2).toNat (padded m₀ k) (off (m₀.get .a0) k))
      ⟨.run (memopsCode .s31XespvStpncpy), m₀⟩ := by
  have hle := hends.le
  have hlt := (m₀.get .a2).isLt
  refine search hlayout hsp hends hapart fun m h hholds => ?_
  refine Leads.beq (fun heq => ?_) fun hne => ?_
  -- the string fills the buffer, and no terminator is copied
  · have hk := (hholds.s3_eq_s2_iff hends).mp heq
    refine Leads.line stpncpyFull (by decide) (readsLine_anywhere ..) ?_
    have h' : Body m₀ slots (padded m₀ k) 0 (execs stpncpyFull m) :=
      h.line (by decide) (by decide) (by decide)
    refine copy hlayout hsp hends hapart h' (hholds.line (by decide)) ?_
    show (m.get .s3).toNat = _
    rw [hholds.s3, BitVec.toNat_ofNat]
    omega
  -- the terminator is copied too
  · have hk : k < (m₀.get .a2).toNat :=
      Nat.lt_of_le_of_ne hle fun heq => hne ((hholds.s3_eq_s2_iff hends).mpr heq)
    refine Leads.line ((stpncpyLengthReturn.drop 2).take 1) (by decide) (readsLine_anywhere ..) (.j ?_)
    have h' : Body m₀ slots (padded m₀ k) 0 (execs ((stpncpyLengthReturn.drop 2).take 1) m) :=
      h.line (by decide) (by decide) (by decide)
    refine copy hlayout hsp hends hapart h' (hholds.line (by decide)) ?_
    show (m.get .s3 + 1).toNat = _
    rw [hholds.s3, BitVec.toNat_add, BitVec.toNat_ofNat]
    show (k % 2 ^ 32 + 1) % 2 ^ 32 = _
    omega

end

end Stpncpy

namespace Strncpy

/-- The saved registers of `s31_xespv_strncpy`. -/
def slots : List (Reg × Nat) := [(.ra, 12), (.s0, 8)]

/-- The slots lie in the frame and apart. -/
theorem slots_fit : SlotsFit 16 slots := ⟨by decide, by decide, by decide, by decide, by decide⟩

/-- The frame of `s31_xespv_stpncpy` below that of `s31_xespv_strncpy`. -/
private theorem frame_below (m₀ : Machine) :
    m₀.get .sp + -BitVec.ofNat 32 16 + -BitVec.ofNat 32 64 = m₀.get .sp + -BitVec.ofNat 32 80 := by
  rw [add_assoc]
  rfl

/-- The frame is part of the range, above that of the routine it calls. -/
private theorem inFrame_slot {m₀ : Machine} {j : Nat} (hj : j < 16) :
    InFrame (m₀.get .sp + -BitVec.ofNat 32 80) 80 (off (m₀.get .sp + -BitVec.ofNat 32 16) j) ∧
      ¬ InFrame (m₀.get .sp + -BitVec.ofNat 32 80) 64 (off (m₀.get .sp + -BitVec.ofNat 32 16) j) := by
  rw [show m₀.get .sp + -BitVec.ofNat 32 16 = off (m₀.get .sp + -BitVec.ofNat 32 80) 64 by
    rw [off, add_assoc]; rfl, off_off]
  exact ⟨inFrame_off (by omega) (by omega), not_inFrame_off (by omega) (by omega)⟩

/-- `s31_xespv_strncpy` writes what `s31_xespv_stpncpy` does and returns the destination. -/
theorem strncpy_copies {addr : Label → Addr} {m₀ : Machine} {k : Nat} (hlayout : Layout addr)
    (hsp : (m₀.get .sp).toNat % 16 = 0)
    (hends : ScanEnds m₀.mem (m₀.get .a1) (· = 0) (m₀.get .a2).toNat k)
    (hapart : Apart m₀ 80 (m₀.get .a2).toNat (min (k + 1) (m₀.get .a2).toNat)) :
    Returns addr m₀ (Writes m₀ 80 (m₀.get .a2).toNat (Stpncpy.padded m₀ k) (m₀.get .a0))
      ⟨.run (memopsCode .s31XespvStrncpy), m₀⟩ := by
  refine Leads.line (enterFrame 16 slots) isJump_enterFrame (readsLine_enterFrame _ _) ?_
  have hframed := Framed.enter slots_fit m₀
  have hagree := (enterFrame_agreeOff slots_fit m₀).mono fun x hx =>
    hx.below (show 16 ≤ 80 by decide) (by decide)
  have hget : ∀ {r : Reg}, r ≠ .sp → (execs (enterFrame 16 slots) m₀).get r = m₀.get r := fun hr =>
    enterFrame_get hr m₀
  have ha0 : (execs (enterFrame 16 slots) m₀).get .a0 = m₀.get .a0 := hget (by decide)
  have ha1 : (execs (enterFrame 16 slots) m₀).get .a1 = m₀.get .a1 := hget (by decide)
  have ha2 : (execs (enterFrame 16 slots) m₀).get .a2 = m₀.get .a2 := hget (by decide)
  generalize execs (enterFrame 16 slots) m₀ = m₁ at hframed hagree ha0 ha1 ha2 ⊢
  refine Leads.line ((strncpyEntry.drop 3).take 1) (by decide) (readsLine_anywhere ..) ?_
  have hframed₂ : Framed m₀ 16 slots (execs ((strncpyEntry.drop 3).take 1) m₁) :=
    hframed.line (by decide) (by decide) (by decide)
  have hs0 : (execs ((strncpyEntry.drop 3).take 1) m₁).get .s0 = m₀.get .a0 := ha0
  have ha0₂ : (execs ((strncpyEntry.drop 3).take 1) m₁).get .a0 = m₀.get .a0 :=
    (execs_get (by decide) m₁).trans ha0
  have ha1₂ : (execs ((strncpyEntry.drop 3).take 1) m₁).get .a1 = m₀.get .a1 :=
    (execs_get (by decide) m₁).trans ha1
  have ha2₂ : (execs ((strncpyEntry.drop 3).take 1) m₁).get .a2 = m₀.get .a2 :=
    (execs_get (by decide) m₁).trans ha2
  have hmem : (execs ((strncpyEntry.drop 3).take 1) m₁).mem = m₁.mem := execs_mem (by decide) m₁
  generalize execs ((strncpyEntry.drop 3).take 1) m₁ = m₂ at hframed₂ hs0 ha0₂ ha1₂ ha2₂ hmem ⊢
  -- the machine that enters `s31_xespv_stpncpy`
  have hset : ∀ {r : Reg}, r ≠ .ra → (m₂.set .ra (addr .strncpyReturn)).get r = m₂.get r := fun hr =>
    Machine.get_set_of_ne _ _ hr
  have hc0 : (m₂.set .ra (addr .strncpyReturn)).get .a0 = m₀.get .a0 := (hset (by decide)).trans ha0₂
  have hc1 : (m₂.set .ra (addr .strncpyReturn)).get .a1 = m₀.get .a1 := (hset (by decide)).trans ha1₂
  have hc2 : (m₂.set .ra (addr .strncpyReturn)).get .a2 = m₀.get .a2 := (hset (by decide)).trans ha2₂
  have hcsp : (m₂.set .ra (addr .strncpyReturn)).get .sp = m₀.get .sp + -BitVec.ofNat 32 16 :=
    (hset (by decide)).trans hframed₂.sp
  have hcmem : (m₂.set .ra (addr .strncpyReturn)).mem = m₁.mem := by rw [Machine.mem_set, hmem]
  have hsrc : ∀ i < min (k + 1) (m₀.get .a2).toNat,
      m₁.mem (off (m₀.get .a1) i) = m₀.mem (off (m₀.get .a1) i) := fun i hi =>
    hagree _ (hapart.src i hi)
  have hends' : ScanEnds (m₂.set .ra (addr .strncpyReturn)).mem
      ((m₂.set .ra (addr .strncpyReturn)).get .a1) (· = 0)
      ((m₂.set .ra (addr .strncpyReturn)).get .a2).toNat k := by
    rw [hc1, hc2, hcmem]
    exact hends.congr hsrc
  have hapart' : Apart (m₂.set .ra (addr .strncpyReturn)) 64
      ((m₂.set .ra (addr .strncpyReturn)).get .a2).toNat
      (min (k + 1) ((m₂.set .ra (addr .strncpyReturn)).get .a2).toNat) := by
    rw [hc2]
    constructor
    · rw [hc0, hcsp, frame_below]
      exact fun i hi hin => hapart.dst i hi (hin.of_bottom (by decide))
    · rw [hc1, hcsp, frame_below]
      exact fun i hi hin => hapart.src i hi (hin.of_bottom (by decide))
    · rw [hc0, hc1]
      exact hapart.disjoint
  have hcallee := Stpncpy.stpncpy_copies hlayout
    (show ((m₂.set .ra (addr .strncpyReturn)).get .sp).toNat % 16 = 0 by
      rw [hcsp]; exact add_aligned hsp (by decide)) hends' hapart'
  refine Leads.call_returns hlayout (by decide) hcallee fun m₃ hsaved hpost => ?_
  have hpadded : ∀ i, 0 ≤ i → i < (m₀.get .a2).toNat →
      Stpncpy.padded (m₂.set .ra (addr .strncpyReturn)) k i = Stpncpy.padded m₀ k i := by
    intro i _ hi
    simp only [Stpncpy.padded]
    split
    · next hlt =>
      have := hends.le
      rw [hc1, hcmem]
      exact hsrc i (by omega)
    · rfl
  have hmem₃ := hpost.mem
  rw [hcsp, frame_below, hc0, hc2, hcmem, overwrite_congr hpadded] at hmem₃
  -- the registers stored in the frame are not among the bytes written
  have hframed₃ : Framed m₀ 16 slots m₃ := by
    refine hframed₂.call (by decide) hsaved fun s hs i hi => ?_
    have hlt : s.2 + i < 16 := by
      have := slots_fit.fit s hs
      omega
    rw [hmem₃ _ (inFrame_slot hlt).2, overwrite_of_not_mem, hmem]
    intro hin
    refine hapart.dst _ hin.2 ?_
    rw [off_toNat_sub]
    exact (inFrame_slot hlt).1
  refine Leads.line (strncpyReturn.take 1) (by decide) (readsLine_anywhere ..) ?_
  have hframed₄ : Framed m₀ 16 slots (execs (strncpyReturn.take 1) m₃) :=
    hframed₃.line (by decide) (by decide) (by decide)
  have ha0₄ : (execs (strncpyReturn.take 1) m₃).get .a0 = m₀.get .a0 := by
    show m₃.get .s0 = _
    rw [hsaved .s0 (by decide), hset (by decide), hs0]
  have hmem₄ : (execs (strncpyReturn.take 1) m₃).mem = m₃.mem := execs_mem (by decide) m₃
  generalize execs (strncpyReturn.take 1) m₃ = m₄ at hframed₄ ha0₄ hmem₄ ⊢
  refine hframed₄.leave [(.s0, 8), (.ra, 12)] slots_fit (by decide) (fun _ _ => trivial)
    fun m₅ ha0₅ hmem₅ => ⟨ha0₅.trans ha0₄, ?_⟩
  rw [hmem₅, hmem₄]
  exact hagree.congr_overwrite.trans (hmem₃.mono fun x hx => hx.of_bottom (by decide))

end Strncpy

/-! ## `s31_xespv_strlcpy` -/

namespace Strlcpy

/-- The saved registers of `s31_xespv_strlcpy`. -/
def slots : List (Reg × Nat) := [(.ra, 28), (.s0, 24), (.s1, 20), (.s2, 16), (.s3, 12), (.s4, 8)]

/-- The slots lie in the frame and apart. -/
theorem slots_fit : SlotsFit 32 slots := ⟨by decide, by decide, by decide, by decide, by decide⟩

/-- The slots in the order they are read back. -/
def out : List (Reg × Nat) := [(.s4, 8), (.s3, 12), (.s2, 16), (.s1, 20), (.s0, 24), (.ra, 28)]

/-- The arguments of `strlen`. -/
theorem execs_arguments (m : Machine) :
    (execs ((strlcpyEntry.drop 7).take 4) m).get .s0 = m.get .a0 ∧
      (execs ((strlcpyEntry.drop 7).take 4) m).get .s1 = m.get .a1 ∧
      (execs ((strlcpyEntry.drop 7).take 4) m).get .s2 = m.get .a2 ∧
      (execs ((strlcpyEntry.drop 7).take 4) m).get .a0 = m.get .a1 := by
  simp [strlcpyEntry, execs, Instr.exec]

/-- The arguments of `memcpy`. -/
private theorem execs_copyArguments (m : Machine) :
    (execs (strlcpyLenOk.take 3) m).get .a0 = m.get .s0 ∧
      (execs (strlcpyLenOk.take 3) m).get .a1 = m.get .s1 ∧
      (execs (strlcpyLenOk.take 3) m).get .a2 = m.get .s4 := by
  simp [strlcpyLenOk, execs, Instr.exec]

/-- The body with the arguments and the length in the saved registers. -/
structure Holds (m₀ : Machine) (len : Nat) (m : Machine) : Prop where
  s0 : m.get .s0 = m₀.get .a0
  s1 : m.get .s1 = m₀.get .a1
  s2 : m.get .s2 = m₀.get .a2
  s3 : m.get .s3 = BitVec.ofNat 32 len

/-- Instructions that write none of these registers keep what they hold. -/
theorem Holds.line {m₀ m : Machine} {len : Nat} {ops : Code} (h : Holds m₀ len m)
    (hregs : ∀ r ∈ [Reg.s0, .s1, .s2, .s3], ∀ i ∈ ops, i.dest ≠ some r) :
    Holds m₀ len (execs ops m) where
  s0 := (execs_get (hregs .s0 (by decide)) m).trans h.s0
  s1 := (execs_get (hregs .s1 (by decide)) m).trans h.s1
  s2 := (execs_get (hregs .s2 (by decide)) m).trans h.s2
  s3 := (execs_get (hregs .s3 (by decide)) m).trans h.s3

/-- What is written: the source cut to the size, and a terminator. -/
def cut (m₀ : Machine) (len : Nat) (i : Nat) : Byte :=
  if i < min len ((m₀.get .a2).toNat - 1) then m₀.mem (off (m₀.get .a1) i) else 0

section

variable {m₀ m : Machine} {addr : Label → Addr} {len : Nat} (hlayout : Layout addr)
  (hsp : (m₀.get .sp).toNat % 16 = 0) (hlen : FirstAt m₀.mem (m₀.get .a1) (· = 0) len)
  (hapart : Apart m₀ 64 (min (len + 1) (m₀.get .a2).toNat) (len + 1))

include hlayout hsp hlen hapart in
/-- From the entry on, the length is found and cut to what leaves room. -/
private theorem search {Q : Config Label → Prop}
    (hnext : ∀ m, Body m₀ slots (cut m₀ len) 0 m → Holds m₀ len m →
      m.get .s4 = BitVec.ofNat 32 len →
      Leads (memopsAt addr) (fun _ => True) Q
        ⟨.run (strlcpyLengthReturn.drop 2 ++ memopsCode .LslLenOk), m⟩) :
    Leads (memopsAt addr) (fun _ => True) Q ⟨.run (memopsCode .s31XespvStrlcpy), m₀⟩ := by
  refine Leads.line (enterFrame 32 slots) isJump_enterFrame (readsLine_enterFrame _ _) ?_
  have h := Body.enter slots_fit m₀ (cut m₀ len)
  have hget : ∀ {r : Reg}, r ≠ .sp → (execs (enterFrame 32 slots) m₀).get r = m₀.get r := fun hr =>
    enterFrame_get hr m₀
  have ha0 : (execs (enterFrame 32 slots) m₀).get .a0 = m₀.get .a0 := hget (by decide)
  have ha1 : (execs (enterFrame 32 slots) m₀).get .a1 = m₀.get .a1 := hget (by decide)
  have ha2 : (execs (enterFrame 32 slots) m₀).get .a2 = m₀.get .a2 := hget (by decide)
  generalize execs (enterFrame 32 slots) m₀ = m₁ at h ha0 ha1 ha2 ⊢
  refine Leads.line ((strlcpyEntry.drop 7).take 4) (by decide) (readsLine_anywhere ..) ?_
  have h' : Body m₀ slots (cut m₀ len) 0 (execs ((strlcpyEntry.drop 7).take 4) m₁) :=
    h.line (by decide) (by decide) (by decide)
  obtain ⟨hs0, hs1, hs2, harg0⟩ := execs_arguments m₁
  generalize execs ((strlcpyEntry.drop 7).take 4) m₁ = m₂ at h' hs0 hs1 hs2 harg0 ⊢
  refine h'.strlen slots_fit (by decide) hsp hlayout (by decide) (harg0.trans ha1) hlen hapart.src
    fun m₃ hkept h₃ hfound => ?_
  have hkept' : ∀ {r : Reg}, r ∈ savedRegs → r ≠ .ra → m₃.get r = m₂.get r := fun hr hne =>
    hkept _ hr hne
  have hs0₃ : m₃.get .s0 = m₀.get .a0 := (hkept' (by decide) (by decide)).trans (hs0.trans ha0)
  have hs1₃ : m₃.get .s1 = m₀.get .a1 := (hkept' (by decide) (by decide)).trans (hs1.trans ha1)
  have hs2₃ : m₃.get .s2 = m₀.get .a2 := (hkept' (by decide) (by decide)).trans (hs2.trans ha2)
  refine Leads.line (strlcpyLengthReturn.take 2) (by decide) (readsLine_anywhere ..) ?_
  apply hnext
  · exact h₃.line (by decide) (by decide) (by decide)
  · exact ⟨(execs_get (by decide) m₃).trans hs0₃, (execs_get (by decide) m₃).trans hs1₃,
      (execs_get (by decide) m₃).trans hs2₃, hfound⟩
  · exact hfound

/-- The length is returned. -/
theorem done {n : Nat} (h : Body m₀ slots (cut m₀ len) n m) (hholds : Holds m₀ len m) :
    Returns addr m₀ (Writes m₀ 64 n (cut m₀ len) (BitVec.ofNat 32 len))
      ⟨.run (memopsCode .LslDone), m⟩ := by
  refine Leads.line (strlcpyDone.take 1) (by decide) (readsLine_anywhere ..) ?_
  have h' : Body m₀ slots (cut m₀ len) n (execs (strlcpyDone.take 1) m) :=
    h.line (by decide) (by decide) (by decide)
  exact h'.leave out slots_fit (by decide) hholds.s3

include hlayout hapart in
/-- The copy and the terminator. -/
theorem copy (h : Body m₀ slots (cut m₀ len) 0 m) (hholds : Holds m₀ len m)
    (hsize : (m₀.get .a2).toNat ≠ 0)
    (hs4 : m.get .s4 = BitVec.ofNat 32 (min len ((m₀.get .a2).toNat - 1))) :
    Returns addr m₀ (Writes m₀ 64 (min (len + 1) (m₀.get .a2).toNat) (cut m₀ len)
      (BitVec.ofNat 32 len)) ⟨.run (memopsCode .LslLenOk), m⟩ := by
  have hsum : min (len + 1) (m₀.get .a2).toNat = min len ((m₀.get .a2).toNat - 1) + 1 := by omega
  have hlt : min len ((m₀.get .a2).toNat - 1) < 2 ^ 32 := by
    have := (m₀.get .a2).isLt
    omega
  have hcut : ∀ i < min len ((m₀.get .a2).toNat - 1),
      cut m₀ len i = m₀.mem (off (m₀.get .a1) i) := fun i hi => if_pos hi
  have hzero : cut m₀ len (min len ((m₀.get .a2).toNat - 1)) = 0 := if_neg (Nat.lt_irrefl _)
  have hle : min len ((m₀.get .a2).toNat - 1) ≤ len := by omega
  rw [hsum] at hapart ⊢
  -- `c` bytes are copied, of the string and as the buffer allows
  generalize min len ((m₀.get .a2).toNat - 1) = c at hlt hcut hzero hs4 hapart hle ⊢
  have hapart' : Apart m₀ 64 c c :=
    ⟨fun i hi => hapart.dst i (by omega), fun i hi => hapart.src i (by omega),
      fun i hi j hj => hapart.disjoint i (by omega) j (by omega)⟩
  refine Leads.line (strlcpyLenOk.take 3) (by decide) (readsLine_anywhere ..) ?_
  have h₁ : Body m₀ slots (cut m₀ len) 0 (execs (strlcpyLenOk.take 3) m) :=
    h.line (by decide) (by decide) (by decide)
  have hholds₁ : Holds m₀ len (execs (strlcpyLenOk.take 3) m) := hholds.line (by decide)
  have hs4₁ : (execs (strlcpyLenOk.take 3) m).get .s4 = BitVec.ofNat 32 c :=
    (execs_get (by decide) m).trans hs4
  obtain ⟨ha0, ha1, ha2⟩ := execs_copyArguments m
  generalize execs (strlcpyLenOk.take 3) m = m₁ at h₁ hholds₁ hs4₁ ha0 ha1 ha2 ⊢
  -- the count fits in a register
  have hcount : (m₁.get .a2).toNat = c := by
    rw [ha2, hs4, BitVec.toNat_ofNat, Nat.mod_eq_of_lt hlt]
  refine h₁.memcpy slots_fit (by decide) hlayout (by decide) (ha0.trans hholds.s0)
    (ha1.trans hholds.s1) hcount hapart' hcut fun m₂ hkept h₂ => ?_
  have hkept' : ∀ {r : Reg}, r ∈ savedRegs → r ≠ .ra → m₂.get r = m₁.get r := fun hr hne =>
    hkept _ hr hne
  have hs0₂ : m₂.get .s0 = m₀.get .a0 := (hkept' (by decide) (by decide)).trans hholds₁.s0
  have hs1₂ : m₂.get .s1 = m₀.get .a1 := (hkept' (by decide) (by decide)).trans hholds₁.s1
  have hs2₂ : m₂.get .s2 = m₀.get .a2 := (hkept' (by decide) (by decide)).trans hholds₁.s2
  have hs3₂ : m₂.get .s3 = BitVec.ofNat 32 len := (hkept' (by decide) (by decide)).trans hholds₁.s3
  have hs4₂ : m₂.get .s4 = BitVec.ofNat 32 c := (hkept' (by decide) (by decide)).trans hs4₁
  have hholds₂ : Holds m₀ len m₂ := ⟨hs0₂, hs1₂, hs2₂, hs3₂⟩
  -- the terminator behind the bytes copied
  refine Leads.line strlcpyCopyReturn (by decide) (readsLine_anywhere ..) ?_
  have hmem₃ : (execs strlcpyCopyReturn m₂).mem =
      Function.update m₂.mem (off (m₀.get .a0) c) (cut m₀ len c) := by
    rw [hzero, off, ← hs0₂, ← hs4₂, ← off_zero (m₂.get .s0 + m₂.get .s4)]
    rfl
  refine done (h₂.store slots_fit (by decide) (fun r hr => ?_) hlt hapart.dst hmem₃)
    (hholds₂.line (by decide))
  apply execs_get
  revert r
  decide

include hlayout hsp hlen hapart in
/-- The source is cut to the size with a terminator, nothing is written for size 0, and
    the length of the source is returned. -/
theorem strlcpy_copies :
    Returns addr m₀ (Writes m₀ 64 (min (len + 1) (m₀.get .a2).toNat) (cut m₀ len)
      (BitVec.ofNat 32 len)) ⟨.run (memopsCode .s31XespvStrlcpy), m₀⟩ := by
  have hlt := hlen.lt
  have hsizelt := (m₀.get .a2).isLt
  refine search hlayout hsp hlen hapart fun m h hholds hs4 => ?_
  refine Leads.beqz (fun hzero => ?_) fun hne => ?_
  -- without room for the terminator nothing is written
  · have hsize : (m₀.get .a2).toNat = 0 := by
      rw [← hholds.s2, hzero]
      rfl
    rw [hsize, Nat.min_zero]
    exact done h hholds
  · have hsize : (m₀.get .a2).toNat ≠ 0 := by
      intro heq
      apply hne
      rw [hholds.s2]
      exact BitVec.eq_of_toNat_eq heq
    refine Leads.line ((strlcpyLengthReturn.drop 3).take 1) (by decide) (readsLine_anywhere ..) ?_
    have h₁ : Body m₀ slots (cut m₀ len) 0 (execs ((strlcpyLengthReturn.drop 3).take 1) m) :=
      h.line (by decide) (by decide) (by decide)
    have hholds₁ : Holds m₀ len (execs ((strlcpyLengthReturn.drop 3).take 1) m) :=
      hholds.line (by decide)
    have hs4₁ : (execs ((strlcpyLengthReturn.drop 3).take 1) m).get .s4 = BitVec.ofNat 32 len :=
      (execs_get (by decide) m).trans hs4
    have ht1 : ((execs ((strlcpyLengthReturn.drop 3).take 1) m).get .t1).toNat =
        (m₀.get .a2).toNat - 1 := by
      show (m.get .s2 + -BitVec.ofNat 32 1).toNat = _
      rw [hholds.s2, toNat_add_neg (by omega)]
    generalize execs ((strlcpyLengthReturn.drop 3).take 1) m = m₁ at h₁ hholds₁ hs4₁ ht1 ⊢
    -- the whole string fits, or as much of it as leaves room for the terminator
    refine Leads.bltu (fun hlt' => ?_) fun hge => ?_
    · rw [hs4₁, BitVec.lt_def, BitVec.toNat_ofNat, Nat.mod_eq_of_lt hlt, ht1] at hlt'
      refine copy hlayout hapart h₁ hholds₁ hsize ?_
      rw [hs4₁, Nat.min_eq_left (Nat.le_of_lt hlt')]
    · rw [hs4₁, BitVec.lt_def, BitVec.toNat_ofNat, Nat.mod_eq_of_lt hlt, ht1] at hge
      refine Leads.line ((strlcpyLengthReturn.drop 5).take 1) (by decide) (readsLine_anywhere ..) ?_
      have h₂ : Body m₀ slots (cut m₀ len) 0 (execs ((strlcpyLengthReturn.drop 5).take 1) m₁) :=
        h₁.line (by decide) (by decide) (by decide)
      refine copy hlayout hapart h₂ (hholds₁.line (by decide)) hsize ?_
      show m₁.get .t1 = _
      rw [Nat.min_eq_right (Nat.le_of_not_lt hge), ← ht1, BitVec.ofNat_toNat, BitVec.setWidth_eq]

end

end Strlcpy

/-! ## The composite copies -/

/-- Each routine writes what its C function writes, changes no other byte outside its
    frame, and returns its result with all saved registers as they were. -/
theorem composites_correct (addr : Label → Addr) (m₀ : Machine) (hlayout : Layout addr)
    (hsp : (m₀.get .sp).toNat % 16 = 0) :
    (∀ k, Memccpy.Ends m₀ k → (k < (m₀.get .a3).toNat → off (m₀.get .a1) k ≠ 0) →
      Apart m₀ 64 (min (k + 1) (m₀.get .a3).toNat) (min (k + 1) (m₀.get .a3).toNat) →
      Returns addr m₀ (Writes m₀ 64 (min (k + 1) (m₀.get .a3).toNat)
          (fun i => m₀.mem (off (m₀.get .a1) i))
          (if k < (m₀.get .a3).toNat then off (m₀.get .a0) (k + 1) else 0))
        ⟨.run (memopsCode .s31XespvMemccpy), m₀⟩) ∧
    (∀ k, ScanEnds m₀.mem (m₀.get .a1) (· = 0) (m₀.get .a2).toNat k →
      Apart m₀ 64 (m₀.get .a2).toNat (min (k + 1) (m₀.get .a2).toNat) →
      Returns addr m₀
        (Writes m₀ 64 (m₀.get .a2).toNat (Stpncpy.padded m₀ k) (off (m₀.get .a0) k))
        ⟨.run (memopsCode .s31XespvStpncpy), m₀⟩) ∧
    (∀ k, ScanEnds m₀.mem (m₀.get .a1) (· = 0) (m₀.get .a2).toNat k →
      Apart m₀ 80 (m₀.get .a2).toNat (min (k + 1) (m₀.get .a2).toNat) →
      Returns addr m₀ (Writes m₀ 80 (m₀.get .a2).toNat (Stpncpy.padded m₀ k) (m₀.get .a0))
        ⟨.run (memopsCode .s31XespvStrncpy), m₀⟩) ∧
    ∀ len, FirstAt m₀.mem (m₀.get .a1) (· = 0) len →
      Apart m₀ 64 (min (len + 1) (m₀.get .a2).toNat) (len + 1) →
      Returns addr m₀ (Writes m₀ 64 (min (len + 1) (m₀.get .a2).toNat) (Strlcpy.cut m₀ len)
        (BitVec.ofNat 32 len)) ⟨.run (memopsCode .s31XespvStrlcpy), m₀⟩ :=
  ⟨fun _ hends hnull hapart => Memccpy.memccpy_copies hlayout hsp hends hnull hapart,
    fun _ hends hapart => Stpncpy.stpncpy_copies hlayout hsp hends hapart,
    fun _ hends hapart => Strncpy.strncpy_copies hlayout hsp hends hapart,
    fun _ hlen hapart => Strlcpy.strlcpy_copies hlayout hsp hlen hapart⟩

/-- A string of two bytes and a byte 5 behind it, to be copied to 0x2000. -/
def copyCall : Machine :=
  called 0x2000 0x1001 5 20 0x8000 fun x => if x = 0x1003 then 0 else if x = 0x1006 then 5 else 1

/-- A call of each of the four routines, with the bytes it writes. -/
theorem composites_correct_sample :
    Returns sampleAddr copyCall
        (Writes copyCall 64 6 (fun i => copyCall.mem (off 0x1001 i)) (off 0x2000 6))
        ⟨.run (memopsCode .s31XespvMemccpy), copyCall⟩ ∧
      Returns sampleAddr copyCall (Writes copyCall 64 5 (Stpncpy.padded copyCall 2) (off 0x2000 2))
        ⟨.run (memopsCode .s31XespvStpncpy), copyCall⟩ ∧
      Returns sampleAddr copyCall (Writes copyCall 80 5 (Stpncpy.padded copyCall 2) 0x2000)
        ⟨.run (memopsCode .s31XespvStrncpy), copyCall⟩ ∧
      Returns sampleAddr copyCall (Writes copyCall 64 3 (Strlcpy.cut copyCall 2) 2)
        ⟨.run (memopsCode .s31XespvStrlcpy), copyCall⟩ := by
  obtain ⟨hmemccpy, hstpncpy, hstrncpy, hstrlcpy⟩ :=
    composites_correct sampleAddr copyCall sampleAddr_layout (by decide)
  -- the string has two letters
  have hends : ScanEnds copyCall.mem (copyCall.get .a1) (· = 0) (copyCall.get .a2).toNat 2 :=
    ⟨by decide, by decide, fun _ => rfl⟩
  refine ⟨hmemccpy 5 ⟨by decide, ?_, fun _ => rfl⟩ (fun _ => by decide) ⟨?_, ?_, ?_⟩,
    hstpncpy 2 hends ⟨?_, ?_, ?_⟩, hstrncpy 2 hends ⟨?_, ?_, ?_⟩,
    hstrlcpy 2 ⟨rfl, by decide⟩ ⟨?_, ?_, ?_⟩⟩
  all_goals decide +kernel

/-- A byte 7 at address 0, to be found there. -/
def nullCall : Machine := called 0x2000 0 7 2 0x8000 fun x => if x = 0 then 7 else 1

/-- A hit at address 0 is not returned: both bytes are copied. -/
theorem memccpy_null_wrong :
    Memccpy.Ends nullCall 0 ∧ Apart nullCall 64 2 2 ∧
      ¬ Returns sampleAddr nullCall
        (Writes nullCall 64 1 (fun i => nullCall.mem (off 0 i)) (off 0x2000 1))
        ⟨.run (memopsCode .s31XespvMemccpy), nullCall⟩ := by
  have hends : Memccpy.Ends nullCall 0 := ⟨by decide, by decide, fun _ => rfl⟩
  have hapart : Apart nullCall 64 2 2 := ⟨by decide +kernel, by decide +kernel, by decide +kernel⟩
  have hra : ∀ l ∈ returnLabels, sampleAddr l ≠ nullCall.get .ra := by decide
  refine ⟨hends, hapart, fun hclaim => ?_⟩
  obtain ⟨m, hrun, hpost⟩ :=
    (Memccpy.memccpy_null sampleAddr_layout (by decide) hends rfl hapart).reaches hra
  have hresult := (hclaim.post_of_reaches hra hrun).result
  rw [hpost.result] at hresult
  exact absurd hresult (by decide)

end EspS31.Xespv
