import EspS31.Native.EspSimd
import EspS31.Spec.CompositeCorrect
import EspS31.Spec.MemcmpCorrect
import EspS31.Spec.StrchrCorrect

/-!
# The vector routines against the C functions

For each operation of the library but four (`strchr`, `strcmp`, `stpcpy` and `strcpy`,
whose routines are right for some of their arguments only), a call that C defines and whose
bytes are outside the routine's stack frames leaves the same bytes and the same result with
the routine as with the C function.

## Key results

- `firstFrom_spec`, `last_spec`: what the C functions' searches find
- `scalarLoop_block`: a scalar loop on blocks at block boundaries
- `routine_plain`: the routines against the C functions
-/

namespace EspS31.EspSimd

open ByteMem Xespv

/-! ## Searches -/

/-- `k` is the first of `n` positions at which `p` holds, or `n`. -/
structure FirstIn (p : Nat → Bool) (n k : Nat) : Prop where
  le : k ≤ n
  before : ∀ i < k, p i = false
  here : k < n → p k = true

/-- The place found lies in the range, and none before it passes the test. -/
theorem firstFrom_spec (p : Nat → Bool) (i n : Nat) :
    i ≤ firstFrom p i n ∧ firstFrom p i n ≤ i + n ∧
      (∀ j, i ≤ j → j < firstFrom p i n → p j = false) ∧
      (firstFrom p i n < i + n → p (firstFrom p i n) = true) := by
  -- induction on the places that are left
  induction n generalizing i with
  | zero =>
    rw [firstFrom]
    exact ⟨le_rfl, le_rfl, fun j _ _ => by omega, fun hlt => absurd hlt (by omega)⟩
  | succ n ih =>
    rw [firstFrom]
    split
    · next hp => exact ⟨le_rfl, by omega, fun j _ _ => by omega, fun _ => hp⟩
    · next hp =>
      obtain ⟨hge, hle, hbefore, hhere⟩ := ih (i + 1)
      refine ⟨by omega, by omega, fun j hij hj => ?_, fun hlt => hhere (by omega)⟩
      obtain rfl | hlt := Nat.eq_or_lt_of_le hij
      · simpa using hp
      · exact hbefore j hlt hj

/-- The place found is the first in the range. -/
private theorem firstIn_firstFrom (p : Nat → Bool) (n : Nat) : FirstIn p n (firstFrom p 0 n) := by
  obtain ⟨-, hle, hbefore, hhere⟩ := firstFrom_spec p 0 n
  rw [Nat.zero_add] at hle hhere
  exact ⟨hle, fun i hi => hbefore i (Nat.zero_le i) hi, hhere⟩

/-- A search depends on the positions up to its end only. -/
theorem firstFrom_congr {p p' : Nat → Bool} {n : Nat}
    (h : ∀ i < min (firstFrom p 0 n + 1) n, p' i = p i) : firstFrom p' 0 n = firstFrom p 0 n := by
  obtain ⟨hle, hbefore, hhere⟩ := firstIn_firstFrom p n
  obtain ⟨hle', hbefore', hhere'⟩ := firstIn_firstFrom p' n
  -- the earlier of two different ends would be a hit for one search and none for the other
  obtain hlt | heq | hgt := Nat.lt_trichotomy (firstFrom p' 0 n) (firstFrom p 0 n)
  · have hp := hhere' (by omega)
    rw [h _ (by omega), hbefore _ hlt] at hp
    cases hp
  · exact heq
  · have hp := hhere (by omega)
    rw [← h _ (by omega), hbefore' _ hgt] at hp
    cases hp

/-- The end of a search for a byte. -/
private theorem scanEnds_firstFrom {p : Nat → Bool} {q : Byte → Prop} {mem : Mem} {s : Addr}
    (n : Nat)
    (h : ∀ i, p i = true ↔ q (mem (off s i))) : ScanEnds mem s q n (firstFrom p 0 n) := by
  obtain ⟨hle, hbefore, hhere⟩ := firstIn_firstFrom p n
  refine ⟨hle, fun i hi hq => ?_, fun hlt => (h _).mp (hhere hlt)⟩
  have hfalse := hbefore i hi
  rw [(h i).mpr hq] at hfalse
  cases hfalse

/-- A place found in memory is the first there. -/
private theorem firstAt_firstFrom {p : Nat → Bool} {q : Byte → Prop} {mem : Mem} {s : Addr}
    {n : Nat}
    (h : ∀ i, p i = true ↔ q (mem (off s i))) (hlt : firstFrom p 0 n < n) :
    FirstAt mem s q (firstFrom p 0 n) := by
  obtain ⟨-, hbefore, hhere⟩ := scanEnds_firstFrom n h
  exact ⟨hhere hlt, hbefore⟩

/-- The place found is the last in the range. -/
theorem last_spec (p : Nat → Bool) (n : Nat) :
    (∀ k, last p n = some k → k < n ∧ p k = true ∧ ∀ i, k < i → i < n → p i = false) ∧
      (last p n = none → ∀ i < n, p i = false) := by
  induction n with
  | zero => exact ⟨fun k hk => by simp [last] at hk, fun _ i hi => by omega⟩
  | succ n ih =>
    rw [last]
    split
    · next hp =>
      refine ⟨fun k hk => ?_, fun hnone => by simp at hnone⟩
      obtain rfl := Option.some.inj hk
      exact ⟨Nat.lt_succ_self n, hp, fun i _ _ => by omega⟩
    · next hp =>
      have hn : p n = false := by simpa using hp
      refine ⟨fun k hk => ?_, fun hnone i hi => ?_⟩
      -- the search goes down from `n`, so the hit is among the positions below
      · obtain ⟨hlt, hhit, hafter⟩ := ih.1 k hk
        refine ⟨by omega, hhit, fun i hki hi => ?_⟩
        obtain rfl | hi := Nat.eq_or_lt_of_le (Nat.le_of_lt_succ hi)
        · exact hn
        · exact hafter i hki hi
      · obtain rfl | hi := Nat.eq_or_lt_of_le (Nat.le_of_lt_succ hi)
        · exact hn
        · exact ih.2 hnone i hi

/-- The last place depends on the range only. -/
theorem last_congr {p p' : Nat → Bool} {n : Nat} (h : ∀ i < n, p' i = p i) :
    last p' n = last p n := by
  induction n with
  | zero => rfl
  | succ n ih => rw [last, last, h n (by omega), ih fun i hi => h i (by omega)]

/-! ## Bytes written -/

/-- The memory after bytes given by their positions. -/
theorem Effect.apply_of_bytes {e : Effect} {n : Nat} {f : Nat → Byte}
    (h : e.bytes = (List.range n).map f) (mem : Mem) :
    e.apply mem = overwrite mem e.dst 0 n f := by
  rw [Effect.apply, h, List.length_map, List.length_range]
  apply overwrite_congr
  intro i _ hi
  simp [List.getD_eq_getElem?_getD, hi]

/-- An effect without bytes leaves the memory. -/
theorem Effect.apply_of_nil {e : Effect} (h : e.bytes = []) (mem : Mem) : e.apply mem = mem := by
  rw [Effect.apply, h]
  exact overwrite_empty ..

/-- Writing what another memory holds. -/
private theorem overwrite_of_agreeOff {mem mem' : Mem} {a : Addr} {n : Nat}
    (h : AgreeOff a n mem mem') :
    overwrite mem a 0 n (fun i => mem' (off a i)) = mem' := by
  funext x
  simp only [overwrite, off_toNat_sub]
  split
  · rfl
  · next hx => exact (h x fun hin => hx ⟨Nat.zero_le _, hin⟩).symm

/-- An object does not reach the end of the address space. -/
private theorem toNat_add_lt_of_isObject {s : Addr} {n : Nat} (h : isObject s n = true) :
    s.toNat + n < 2 ^ 32 := by
  have := s.isLt
  simp [isObject] at h
  omega

/-- No byte of an object is at address 0. -/
private theorem off_ne_zero_of_isObject {s : Addr} {n i : Nat} (h : isObject s n = true)
    (hi : i < n) :
    off s i ≠ 0 := by
  intro heq
  have hnat := congrArg BitVec.toNat heq
  rw [off_toNat, show (0 : Addr).toNat = 0 from rfl] at hnat
  simp [isObject] at h
  omega

/-- Bytes of disjoint objects have different addresses. -/
private theorem off_ne_of_disjoint {d s : Addr} {nd ns i j : Nat} (hd : isObject d nd = true)
    (hs : isObject s ns = true) (h : disjoint d nd s ns = true) (hi : i < nd) (hj : j < ns) :
    off d i ≠ off s j := by
  intro heq
  have hnat := congrArg BitVec.toNat heq
  have := toNat_add_lt_of_isObject hd
  have := toNat_add_lt_of_isObject hs
  rw [off_toNat, off_toNat] at hnat
  simp [disjoint] at h
  omega

/-! ## The scalar loops -/

section

variable {f : Byte → Byte → Byte} {out lhs rhs : Addr} {mem : Mem}

/-- The loop of `esp_simd_add_sat_u8` is the scalar loop of the saturating sum. -/
theorem espSimdAddSat_eq (n : Nat) :
    espSimdAddSat out lhs rhs mem n = scalarLoop addSatByte out lhs rhs mem n := by
  induction n with
  | zero => rfl
  | succ n ih => rw [espSimdAddSat, scalarLoop, ih]

/-- A scalar loop writes its output only. -/
private theorem scalarLoop_agreeOff (n : Nat) :
    AgreeOff out n mem (scalarLoop f out lhs rhs mem n) := by
  induction n with
  | zero => exact AgreeOff.refl _ _ _
  | succ n ih =>
    intro x hx
    -- a byte outside the output is not the one that the last round writes
    have hne : x ≠ off out n := by
      rintro rfl
      apply hx
      show (off out n - out).toNat < n + 1
      rw [BitVec.toNat_sub, off_toNat]
      have := out.isLt
      omega
    rw [scalarLoop, Function.update_of_ne hne]
    exact ih x fun hin => hx (hin.of_bottom (by omega))

/-- Blocks at block boundaries coincide or have no byte in common, so that no round reads
    what an earlier one has written. -/
theorem scalarLoop_block (ho : out.toNat % 16 = 0) (hl : lhs.toNat % 16 = 0)
    (hr : rhs.toNat % 16 = 0) {n : Nat} (hn : n ≤ 16) :
    scalarLoop f out lhs rhs mem n =
      overwrite mem out 0 n fun i => f (mem (off lhs i)) (mem (off rhs i)) := by
  induction n with
  | zero => exact (overwrite_empty ..).symm
  | succ n ih =>
    -- byte `n` of a block is none of the first `n` bytes of any block
    have hread : ∀ {s : Addr} {g : Nat → Byte}, s.toNat % 16 = 0 →
        overwrite mem out 0 n g (off s n) = mem (off s n) := by
      intro s g hs
      apply overwrite_of_not_mem
      rintro ⟨-, hin⟩
      have hsame := congrArg BitVec.toNat (off_toNat_sub out (off s n))
      rw [off_toNat, off_toNat s] at hsame
      have := s.isLt
      have := out.isLt
      omega
    rw [scalarLoop, ih (by omega), hread hl, hread hr]
    exact update_overwrite_up (Nat.zero_le n) (by omega) rfl

/-- A scalar loop depends on the bytes of its inputs only, in the bytes it has written. -/
theorem scalarLoop_congr {mem' : Mem} {n : Nat}
    (h : ∀ i < n, mem' (off lhs i) = mem (off lhs i) ∧ mem' (off rhs i) = mem (off rhs i)) :
    ∀ i < n, scalarLoop f out lhs rhs mem' n (off out i) =
      scalarLoop f out lhs rhs mem n (off out i) := by
  -- the inputs and the bytes written agree after every round
  have hround : ∀ k ≤ n, ∀ x, mem' x = mem x ∨ (∃ i < k, x = off out i) →
      scalarLoop f out lhs rhs mem' k x = scalarLoop f out lhs rhs mem k x := by
    intro k
    induction k with
    | zero =>
      rintro - x (hx | ⟨i, hi, -⟩)
      · exact hx
      · omega
    | succ k ih =>
      intro hk x hx
      -- the inputs agree, whether earlier rounds have written them or not
      obtain ⟨hl, hr⟩ := h k (by omega)
      rw [scalarLoop, scalarLoop, ih (by omega) _ (.inl hl), ih (by omega) _ (.inl hr)]
      by_cases hout : x = off out k
      · rw [hout, Function.update_self, Function.update_self]
      · rw [Function.update_of_ne hout, Function.update_of_ne hout]
        apply ih (by omega)
        obtain hx | ⟨i, hi, rfl⟩ := hx
        · exact .inl hx
        · obtain rfl | hlt := Nat.eq_or_lt_of_le (Nat.le_of_lt_succ hi)
          · exact absurd rfl hout
          · exact .inr ⟨i, hlt, rfl⟩
  intro i hi
  exact hround n le_rfl _ (.inr ⟨i, hi, rfl⟩)

/-- The effect is what the loop leaves. -/
private theorem eqU8x16_apply (mem : Mem) (out lhs rhs : Addr) :
    (eqU8x16 mem out lhs rhs).apply mem = scalarLoop eqByte out lhs rhs mem 16 := by
  rw [Effect.apply_of_bytes rfl]
  exact overwrite_of_agreeOff (scalarLoop_agreeOff 16)

/-- The effect is what the loop leaves. -/
private theorem addSatU8_apply (mem : Mem) (out lhs rhs : Addr) (count : Nat) :
    (addSatU8 mem out lhs rhs count).apply mem = espSimdAddSat out lhs rhs mem count := by
  rw [Effect.apply_of_bytes rfl]
  apply overwrite_of_agreeOff
  rw [espSimdAddSat_eq]
  exact scalarLoop_agreeOff count

end

/-! ## The routines -/

/-- What is not below the stack is in no frame. -/
private theorem not_inFrame_of_not_below {m : Machine} {x : Addr} {n : Nat} (hn : n ≤ 80)
    (h : ¬ Below m x) : ¬ InFrame (m.get .sp + -BitVec.ofNat 32 n) n x := fun hin =>
  h (hin.below hn (by decide))

/-- The operations whose routine does what the C function does; for `eqU8x16` if the
    pointers are at block boundaries. -/
def Sound (op : Operation) (m : Machine) : Prop :=
  match op with
  | .strchr | .strcmp | .stpcpy | .strcpy => False
  | .eqU8x16 =>
    (m.get .a0).toNat % 16 = 0 ∧ (m.get .a1).toNat % 16 = 0 ∧ (m.get .a2).toNat % 16 = 0
  | _ => True

/-- A call that C defines, by a caller outside the routines, of bytes outside their stack
    frames. -/
structure Callable (addr : Label → Addr) (op : Operation) (m : Machine) : Prop where
  sp : (m.get .sp).toNat % 16 = 0
  ra : ∀ l ∈ returnLabels, addr l ≠ m.get .ra
  defined : (plain op m).defined = true
  source : ∀ r ∈ (plain op m).reads, ∀ i < r.2, ¬ Below m (off r.1 i)
  target : ∀ i < (plain op m).bytes.length, ¬ Below m (off (plain op m).dst i)

/-- The routine returns what the C function returns, and leaves memory as that does, its
    frames aside. -/
def RoutinePlain (addr : Label → Addr) (op : Operation) (m : Machine) : Prop :=
  Returns addr m (fun m' => value op (m'.get .a0) = value op (plain op m).result ∧
      AgreeOff (m.get .sp + -BitVec.ofNat 32 80) 80 ((plain op m).apply m.mem) m'.mem)
    ⟨.run (memopsCode op.routine), m⟩

section

variable {addr : Label → Addr} {m : Machine}

/-- A frame of a routine lies within the range below the stack. -/
private theorem agreeOff_below {mem mem' : Mem} {n : Nat} (hn : n ≤ 80)
    (h : AgreeOff (m.get .sp + -BitVec.ofNat 32 n) n mem mem') :
    AgreeOff (m.get .sp + -BitVec.ofNat 32 80) 80 mem mem' :=
  h.mono fun _ hx => hx.below hn (by decide)

/-- A routine agrees with its function when it returns the same and writes the same. -/
theorem Returns.routinePlain {op : Operation} {post : Machine → Prop}
    (h : Returns addr m post ⟨.run (memopsCode op.routine), m⟩)
    (hpost : ∀ m', post m' → m'.get .a0 = (plain op m).result ∧
      AgreeOff (m.get .sp + -BitVec.ofNat 32 80) 80 ((plain op m).apply m.mem) m'.mem) :
    RoutinePlain addr op m :=
  h.mono fun m' hm => ⟨congrArg _ (hpost m' hm).1, (hpost m' hm).2⟩

/-- Equal memories agree everywhere. -/
private theorem agreeOff_of_eq {base : Addr} {n : Nat} {mem mem' : Mem} (h : mem' = mem) :
    AgreeOff base n mem mem' := fun _ _ => congrFun h _

/-- The operations that copy ranges. -/
theorem Copied.apply {m' : Machine} {e : Effect} (h : Copied m m') (hdst : e.dst = m.get .a0)
    (hbytes : e.bytes = bytesAt m.mem (m.get .a1) (m.get .a2).toNat) : e.apply m.mem = m'.mem := by
  rw [Effect.apply_of_bytes hbytes, hdst]
  exact h.2.symm

/-- `memmove` agrees with the C function. -/
private theorem memmove_plain (h : Callable addr .memmove m) : RoutinePlain addr .memmove m := by
  have hdefined := h.defined
  simp only [plain, memmove, Bool.and_eq_true] at hdefined
  obtain ⟨hd, hs⟩ := hdefined
  apply Returns.routinePlain (memmove_copied m (toNat_add_lt_of_isObject hd)
    (toNat_add_lt_of_isObject hs))
  intro m' hm
  exact ⟨hm.1, agreeOff_of_eq (Copied.apply hm rfl rfl).symm⟩

/-- `memcpy` agrees with the C function. -/
private theorem memcpy_plain (h : Callable addr .memcpy m) : RoutinePlain addr .memcpy m := by
  have hdefined := h.defined
  simp only [plain, memcpy, Bool.and_eq_true] at hdefined
  obtain ⟨⟨hd, hs⟩, hdisjoint⟩ := hdefined
  -- C defines `memcpy` for disjoint ranges only, and then copying upwards is safe
  have hahead : Ahead (m.get .a0) (m.get .a1) (m.get .a2).toNat := by
    apply ahead_of_le (toNat_add_lt_of_isObject hd) (toNat_add_lt_of_isObject hs)
    simp only [disjoint, Bool.or_eq_true, decide_eq_true_eq] at hdisjoint
    omega
  apply Returns.routinePlain (memcpy_copied m hahead)
  intro m' hm
  exact ⟨hm.1, agreeOff_of_eq (Copied.apply hm rfl rfl).symm⟩

/-- `memset` agrees with the C function. -/
private theorem memset_plain (h : Callable addr .memset m) : RoutinePlain addr .memset m := by
  apply Returns.routinePlain (memset_filled m h.sp)
  rintro m' ⟨ha0, hmem⟩
  refine ⟨ha0, agreeOff_below (n := 16) (by decide) ?_⟩
  -- only the low byte of the value is stored
  have hbytes : (plain .memset m).bytes =
      (List.range (m.get .a2).toNat).map fun _ => (m.get .a1).setWidth 8 := by
    simp [plain, memset, List.map_const']
  rw [Effect.apply_of_bytes hbytes]
  exact hmem

/-! ### Searches -/

/-- `memchr` agrees with the C function. -/
private theorem memchr_plain (h : Callable addr .memchr m) : RoutinePlain addr .memchr m := by
  -- both ends are the end of one scan, and such an end is unique
  have hends : ScanEnds m.mem (m.get .a0) (· = Memchr.needle m) (m.get .a2).toNat _ :=
    scanEnds_firstFrom (p := fun i => m.mem (off (m.get .a0) i) = (m.get .a1).setWidth 8) _
      fun i => decide_eq_true_iff
  have hout : ∀ i, Memchr.Examines m i →
      ¬ InFrame (m.get .sp + -32) 32 (off (m.get .a0) i) := by
    intro i hi
    apply not_inFrame_of_not_below (n := 32) (by decide)
    exact h.source _ List.mem_cons_self i (hends.lt_of_none hi.1 hi.2)
  apply Returns.routinePlain (Memchr.memchr_finds addr m h.sp hout).anywhere
  rintro m' ⟨hmem, hfound⟩
  refine ⟨hfound.eq_of_scanEnds hends, ?_⟩
  rw [Effect.apply_of_nil rfl]
  exact agreeOff_below (n := 32) (by decide) hmem

/-- `memrchr` agrees with the C function. -/
private theorem memrchr_plain (h : Callable addr .memrchr m) : RoutinePlain addr .memrchr m := by
  have hout : ∀ i, Memrchr.Examines m i →
      ¬ InFrame (m.get .sp + -32) 32 (off (m.get .a0) i) := fun i hi =>
    not_inFrame_of_not_below (n := 32) (by decide) (h.source _ List.mem_cons_self i hi.1)
  apply Returns.routinePlain (Memrchr.memrchr_finds addr m h.sp hout).anywhere
  rintro m' ⟨hmem, hfound⟩
  constructor
  · have hlast := last_spec (fun i => m.mem (off (m.get .a0) i) = (m.get .a1).setWidth 8)
      (m.get .a2).toNat
    simp only [plain, memrchr]
    cases hk : last (fun i => m.mem (off (m.get .a0) i) = (m.get .a1).setWidth 8)
        (m.get .a2).toNat with
    | some k =>
      obtain ⟨hlt, hhit, hafter⟩ := hlast.1 k hk
      simp only [decide_eq_true_eq, decide_eq_false_iff_not] at hhit hafter
      -- `k` is the last hit of the C function and `j` that of the routine
      obtain ⟨j, ⟨hj, hnone⟩, hhit', ha0⟩ | ⟨hnone, -⟩ := hfound
      · obtain hkj | rfl | hjk := Nat.lt_trichotomy k j
        · exact absurd hhit' (hafter j hkj hj)
        · exact ha0
        · exact absurd hhit (hnone k hjk hlt)
      · exact absurd hhit (hnone k (Nat.zero_le k) hlt)
    | none =>
      have hnever := hlast.2 hk
      simp only [decide_eq_false_iff_not] at hnever
      obtain ⟨j, ⟨hj, -⟩, hhit', -⟩ | ⟨-, ha0⟩ := hfound
      · exact absurd hhit' (hnever j hj)
      · exact ha0
  -- it writes nothing but its frame
  · rw [Effect.apply_of_nil rfl]
    exact agreeOff_below (n := 32) (by decide) hmem

/-- `strlen` agrees with the C function. -/
private theorem strlen_plain (h : Callable addr .strlen m) : RoutinePlain addr .strlen m := by
  have hdefined := h.defined
  simp only [plain, strlen, decide_eq_true_eq] at hdefined
  -- that the call is defined means that there is a terminator
  have hlen : FirstAt m.mem (m.get .a0) (· = 0) (stringLength m.mem (m.get .a0)) :=
    firstAt_firstFrom (fun i => decide_eq_true_iff) hdefined
  have hout : ∀ i ≤ stringLength m.mem (m.get .a0),
      ¬ InFrame (m.get .sp + -32) 32 (off (m.get .a0) i) := fun i hi =>
    not_inFrame_of_not_below (n := 32) (by decide)
      (h.source _ List.mem_cons_self i (Nat.lt_succ_of_le hi))
  apply Returns.routinePlain (Strlen.strlen_finds addr h.sp hlen hout).anywhere
  rintro m' ⟨hmem, ha0⟩
  refine ⟨ha0, ?_⟩
  rw [Effect.apply_of_nil rfl]
  exact agreeOff_below (n := 32) (by decide) hmem

/-- `strnlen` agrees with the C function. -/
private theorem strnlen_plain (h : Callable addr .strnlen m) : RoutinePlain addr .strnlen m := by
  have hends : ScanEnds m.mem (m.get .a0) (· = 0) (m.get .a1).toNat _ :=
    scanEnds_firstFrom (p := fun i => m.mem (off (m.get .a0) i) = 0) _ fun i => decide_eq_true_iff
  have hout : ∀ i, Strnlen.Examines m i →
      ¬ InFrame (m.get .sp + -32) 32 (off (m.get .a0) i) := by
    intro i hi
    apply not_inFrame_of_not_below (n := 32) (by decide)
    exact h.source _ List.mem_cons_self i (hends.lt_of_none hi.1 hi.2)
  apply Returns.routinePlain (Strnlen.strnlen_finds addr m h.sp hout).anywhere
  rintro m' ⟨hmem, hfound⟩
  refine ⟨hfound.eq_of_scanEnds hends, ?_⟩
  rw [Effect.apply_of_nil rfl]
  exact agreeOff_below (n := 32) (by decide) hmem

/-- `strchrnul` agrees with the C function. -/
private theorem strchrnul_plain (h : Callable addr .strchrnul m) :
    RoutinePlain addr .strchrnul m := by
  have hdefined := h.defined
  simp only [plain, strchrnul, decide_eq_true_eq] at hdefined
  have hstop : FirstAt m.mem (m.get .a0) (Strchrnul.Stops m) _ :=
    firstAt_firstFrom (fun i => by simp [Strchrnul.Stops, Memchr.needle]) hdefined
  have hout : ∀ i ≤ _, ¬ InFrame (m.get .sp + -48) 48 (off (m.get .a0) i) := fun i hi =>
    not_inFrame_of_not_below (n := 48) (by decide)
      (h.source _ List.mem_cons_self i (Nat.lt_succ_of_le hi))
  apply Returns.routinePlain (Strchrnul.strchrnul_finds addr m h.sp hstop hout).anywhere
  rintro m' ⟨hmem, ha0⟩
  refine ⟨ha0, ?_⟩
  rw [Effect.apply_of_nil rfl]
  exact agreeOff_below (n := 48) (by decide) hmem

/-! ### Comparisons -/

/-- `memcmp` agrees with the C function. -/
private theorem memcmp_plain (hlayout : Layout addr) (h : Callable addr .memcmp m) :
    RoutinePlain addr .memcmp m := by
  have hout : Memcmp.Outside m := by
    intro i hi
    constructor
    · exact not_inFrame_of_not_below (n := 48) (by decide) (h.source _ List.mem_cons_self i hi)
    · exact not_inFrame_of_not_below (n := 48) (by decide)
        (h.source _ (List.mem_cons_of_mem _ List.mem_cons_self) i hi)
  -- at the entry nothing has been compared yet
  have hcompares : Memcmp.Compares addr m ⟨.run (memopsCode .s31XespvMemcmp), m⟩ :=
    Memcmp.At.align hlayout h.sp hout {
      a0 := (off_zero _).symm
      a1 := (off_zero _).symm
      a2 := rfl
      mem := AgreeOff.refl _ _ _
      saved := Saved.refl m
      equal := fun i hi => absurd hi (Nat.not_lt_zero i) }
  apply Returns.routinePlain hcompares.anywhere
  rintro m' ⟨hmem, hzero, hdiff⟩
  obtain ⟨hle, hbefore, hhere⟩ := firstIn_firstFrom
    (fun i => m.mem (off (m.get .a0) i) ≠ m.mem (off (m.get .a1) i)) (m.get .a2).toNat
  have hequal : Memcmp.EqualBelow m (firstFrom
      (fun i => m.mem (off (m.get .a0) i) ≠ m.mem (off (m.get .a1) i)) 0 (m.get .a2).toNat) := by
    intro i hi
    simpa using hbefore i hi
  constructor
  · simp only [plain, memcmp]
    split
    -- the first difference decides the sign, and without one the result is 0
    · next hlt => exact hdiff _ hlt hequal (by simpa using hhere hlt)
    · next hge =>
      apply hzero.mpr
      rwa [Nat.le_antisymm hle (Nat.le_of_not_lt hge)] at hequal
  · rw [Effect.apply_of_nil rfl]
    exact agreeOff_below (n := 48) (by decide) hmem

/-! ### Copies of strings -/

/-- What the composite routines need of the two ranges. -/
private theorem apart_of_callable {op : Operation} {nd ns : Nat} (h : Callable addr op m)
    (frame : Nat)
    (hframe : frame ≤ 80) (hdst : (plain op m).dst = m.get .a0)
    (hlength : (plain op m).bytes.length = nd) (hreads : (m.get .a1, ns) ∈ (plain op m).reads)
    (hd : isObject (m.get .a0) nd = true) (hs : isObject (m.get .a1) ns = true)
    (hdisjoint : disjoint (m.get .a0) nd (m.get .a1) ns = true) : Apart m frame nd ns where
  dst i hi := by
    have htarget := h.target i (by omega)
    rw [hdst] at htarget
    exact not_inFrame_of_not_below hframe htarget
  src i hi := not_inFrame_of_not_below hframe (h.source _ hreads i hi)
  disjoint i hi j hj := off_ne_of_disjoint hd hs hdisjoint hi hj

/-- What a routine writes is the effect of its function. -/
theorem Writes.apply {frame n : Nat} {f : Nat → Byte} {r : BitVec 32} {m' : Machine} {e : Effect}
    (h : Writes m frame n f r m') (hframe : frame ≤ 80) (hdst : e.dst = m.get .a0)
    (hbytes : e.bytes = (List.range n).map f) :
    AgreeOff (m.get .sp + -BitVec.ofNat 32 80) 80 (e.apply m.mem) m'.mem := by
  rw [Effect.apply_of_bytes hbytes, hdst]
  exact agreeOff_below hframe h.mem

/-- `memccpy` agrees with the C function. -/
private theorem memccpy_plain (hlayout : Layout addr) (h : Callable addr .memccpy m) :
    RoutinePlain addr .memccpy m := by
  have hends : Memccpy.Ends m _ :=
    scanEnds_firstFrom (p := fun i => m.mem (off (m.get .a1) i) = (m.get .a2).setWidth 8) _
      fun i => decide_eq_true_iff
  have hdefined := h.defined
  simp only [plain, memccpy, Bool.and_eq_true] at hdefined
  obtain ⟨⟨hd, hs⟩, hdisjoint⟩ := hdefined
  -- what is copied and where it goes have no byte in common
  have hapart := apart_of_callable h 64 (by decide) rfl
    (by simp [plain, memccpy, bytesAt]) List.mem_cons_self hd hs hdisjoint
  apply Returns.routinePlain (Memccpy.memccpy_copies hlayout h.sp hends
    (fun hlt => off_ne_zero_of_isObject hs (by omega)) hapart)
  intro m' hm
  exact ⟨hm.result, Writes.apply hm (by decide) rfl rfl⟩

/-- `stpncpy` agrees with the C function. -/
private theorem stpncpy_plain (hlayout : Layout addr) (h : Callable addr .stpncpy m) :
    RoutinePlain addr .stpncpy m := by
  have hends : ScanEnds m.mem (m.get .a1) (· = 0) (m.get .a2).toNat _ :=
    scanEnds_firstFrom (p := fun i => m.mem (off (m.get .a1) i) = 0) _ fun i => decide_eq_true_iff
  have hdefined := h.defined
  simp only [plain, stpncpy, Bool.and_eq_true] at hdefined
  obtain ⟨⟨hd, hs⟩, hdisjoint⟩ := hdefined
  have hapart := apart_of_callable h 64 (by decide) rfl (by simp [plain, stpncpy])
    List.mem_cons_self hd hs hdisjoint
  apply Returns.routinePlain (Stpncpy.stpncpy_copies hlayout h.sp hends hapart)
  intro m' hm
  exact ⟨hm.result, Writes.apply hm (by decide) rfl rfl⟩

/-- `strncpy` agrees with the C function. -/
private theorem strncpy_plain (hlayout : Layout addr) (h : Callable addr .strncpy m) :
    RoutinePlain addr .strncpy m := by
  have hends : ScanEnds m.mem (m.get .a1) (· = 0) (m.get .a2).toNat _ :=
    scanEnds_firstFrom (p := fun i => m.mem (off (m.get .a1) i) = 0) _ fun i => decide_eq_true_iff
  have hdefined := h.defined
  simp only [plain, strncpy, stpncpy, Bool.and_eq_true] at hdefined
  obtain ⟨⟨hd, hs⟩, hdisjoint⟩ := hdefined
  have hapart := apart_of_callable h 80 le_rfl rfl
    (by simp [plain, strncpy, stpncpy]) List.mem_cons_self hd hs hdisjoint
  apply Returns.routinePlain (Strncpy.strncpy_copies hlayout h.sp hends hapart)
  intro m' hm
  exact ⟨hm.result, Writes.apply hm le_rfl rfl rfl⟩

/-- `strlcpy` agrees with the C function. -/
private theorem strlcpy_plain (hlayout : Layout addr) (h : Callable addr .strlcpy m) :
    RoutinePlain addr .strlcpy m := by
  have hdefined := h.defined
  simp only [plain, strlcpy, Bool.and_eq_true, decide_eq_true_eq] at hdefined
  obtain ⟨⟨⟨hlt, hd⟩, hs⟩, hdisjoint⟩ := hdefined
  have hlen : FirstAt m.mem (m.get .a1) (· = 0) (stringLength m.mem (m.get .a1)) :=
    firstAt_firstFrom (fun i => decide_eq_true_iff) hlt
  have hapart := apart_of_callable h 64 (by decide) rfl (by simp [plain, strlcpy])
    List.mem_cons_self hd hs hdisjoint
  apply Returns.routinePlain (Strlcpy.strlcpy_copies hlayout h.sp hlen hapart)
  intro m' hm
  exact ⟨hm.result, Writes.apply hm (by decide) rfl rfl⟩

/-! ### Blocks -/

/-- The comparison of blocks agrees with the scalar loop. -/
private theorem eqU8x16_plain (hsound : Sound .eqU8x16 m) : RoutinePlain addr .eqU8x16 m := by
  obtain ⟨ho, hl, hr⟩ := hsound
  have hstores : Returns addr m (StoresEq16 m) ⟨.run (memopsCode .s31XespvEq16), m⟩ :=
    eq16_returns addr m (fun _ _ => trivial) fun _ _ => trivial
  refine hstores.mono fun m' hm => ⟨rfl, agreeOff_of_eq ?_⟩
  -- at block boundaries the vector loads take the bytes at the pointers themselves
  have hpair : ∀ i : Fin 16, lanesEq (loadBlock m.mem (m.get .a1)) (loadBlock m.mem (m.get .a2)) i =
      eqByte (m.mem (off (m.get .a1) (0 + i))) (m.mem (off (m.get .a2) (0 + i))) := by
    intro i
    rw [lanesEq, loadBlock, loadBlock, align16_of_aligned hl, align16_of_aligned hr, Nat.zero_add,
      eqByte]
  have happly : (plain .eqU8x16 m).apply m.mem =
      scalarLoop eqByte (m.get .a0) (m.get .a1) (m.get .a2) m.mem 16 := eqU8x16_apply ..
  rw [happly, scalarLoop_block ho hl hr le_rfl, hm]
  have hstore := storeBlock_eq_overwrite m.mem (m.get .a0) (k := 0)
    (f := fun i => eqByte (m.mem (off (m.get .a1) i)) (m.mem (off (m.get .a2) i)))
    (by rwa [off_zero]) (by decide) hpair
  rwa [off_zero] at hstore

/-- The saturating sum agrees with the scalar loop. -/
private theorem addSatU8_plain : RoutinePlain addr .addSatU8 m := by
  have hadded : Returns addr m (fun m' => m'.mem = AddSat.scalar m (m.get .a3).toNat)
      ⟨.run (memopsCode .s31XespvAddSatU8), m⟩ := by
    -- no byte has been added yet
    have h₀ : AddSat.At m 0 m :=
      ⟨(off_zero _).symm, (off_zero _).symm, (off_zero _).symm, rfl, rfl, Saved.refl m⟩
    refine Leads.line (addSatU8Entry.take 3) (by decide) (readsLine_anywhere ..) ?_
    have h : AddSat.At m 0 (execs (addSatU8Entry.take 3) m) := h₀.line (by decide) (by decide)
    have ht0 : (execs (addSatU8Entry.take 3) m).get .t0 =
        (m.get .a0 ||| m.get .a1 ||| m.get .a2) &&& 15#32 := rfl
    generalize execs (addSatU8Entry.take 3) m = m₁ at h ht0 ⊢
    -- the vector loop is entered when all three pointers are at block boundaries
    refine Leads.bnez (fun _ => h.byte (Nat.zero_le _)) fun hzero => ?_
    rw [ht0, not_not] at hzero
    obtain ⟨hor, hr⟩ := (or_and_15_eq_zero_iff _ _).mp hzero
    obtain ⟨hd, hl⟩ := (or_and_15_eq_zero_iff _ _).mp ((and_15_eq_zero_iff _).mpr hor)
    refine h.vec (Nat.zero_le _) ?_ ?_ ?_
    all_goals rwa [off_zero]
  refine hadded.mono fun m' hm => ⟨rfl, agreeOff_of_eq ?_⟩
  have happly : (plain .addSatU8 m).apply m.mem =
      espSimdAddSat (m.get .a0) (m.get .a1) (m.get .a2) m.mem (m.get .a3).toNat :=
    addSatU8_apply ..
  rw [happly, hm, AddSat.scalar]

/-- The routines do what the C functions do. -/
theorem routine_plain {op : Operation} (hlayout : Layout addr) (hsound : Sound op m)
    (h : Callable addr op m) : RoutinePlain addr op m := by
  cases op with
  | memcpy => exact memcpy_plain h
  | memset => exact memset_plain h
  | memmove => exact memmove_plain h
  | memchr => exact memchr_plain h
  | memrchr => exact memrchr_plain h
  | memcmp => exact memcmp_plain hlayout h
  | memccpy => exact memccpy_plain hlayout h
  | strlen => exact strlen_plain h
  | strnlen => exact strnlen_plain h
  | strchrnul => exact strchrnul_plain h
  -- these four are left out, since they do not always agree
  | strchr => exact hsound.elim
  | strcmp => exact hsound.elim
  | stpcpy => exact hsound.elim
  | strcpy => exact hsound.elim
  | stpncpy => exact stpncpy_plain hlayout h
  | strncpy => exact strncpy_plain hlayout h
  | strlcpy => exact strlcpy_plain hlayout h
  | eqU8x16 => exact eqU8x16_plain hsound
  | addSatU8 => exact addSatU8_plain

end

end EspS31.EspSimd
