import EspS31.Spec.EspSimdRoutines

/-!
# Programs with the library and with the C functions

A program that calls the library from several threads returns the same values, whichever
threads the kernel confines to the hart with the vector unit, as if it called the C
functions, and leaves the same bytes.  What the routines leave in their stack frames is
not determined: the bytes on which both runs agree are those that the program knows.

## Key results

- `plain_congr`: a C function depends on the bytes that it may read
- `step_simulates`: one event in both programs
- `obeys_step`: a thread uses the vector unit exactly when it is confined
- `simd_agrees`: whole runs
-/

namespace EspS31.EspSimd

open ByteMem Xespv

/-! ## The bytes a C function depends on -/

section

variable {mem mem' : Mem} {s : Addr} {n : Nat}

/-- The bytes of a range depend on the range only. -/
private theorem bytesAt_congr (h : ∀ i < n, mem' (off s i) = mem (off s i)) :
    bytesAt mem' s n = bytesAt mem s n :=
  List.map_congr_left fun i hi => h i (List.mem_range.mp hi)

/-- A search reads the bytes up to its end. -/
private theorem search_congr (q : Byte → Bool)
    (h : ∀ i < min (firstFrom (fun i => q (mem (off s i))) 0 n + 1) n,
      mem' (off s i) = mem (off s i)) :
    firstFrom (fun i => q (mem' (off s i))) 0 n = firstFrom (fun i => q (mem (off s i))) 0 n :=
  firstFrom_congr fun i hi => congrArg q (h i hi)

/-- The length depends on the string with its terminator only. -/
private theorem stringLength_congr
    (h : ∀ i < stringLength mem s + 1, mem' (off s i) = mem (off s i)) :
    stringLength mem' s = stringLength mem s :=
  search_congr (fun x => x = 0) fun i hi => h i (Nat.lt_of_lt_of_le hi (Nat.min_le_left ..))

/-- `memmove` depends on what it reads only. -/
private theorem memmove_congr {dst : Addr} (h : ∀ i < n, mem' (off s i) = mem (off s i)) :
    memmove mem' dst s n = memmove mem dst s n := by
  simp only [memmove, bytesAt_congr h]

/-- `memchr` depends on what it reads only. -/
private theorem memchr_congr {value : BitVec 32}
    (h : ∀ r ∈ (memchr mem s value n).reads, ∀ i < r.2, mem' (off r.1 i) = mem (off r.1 i)) :
    memchr mem' s value n = memchr mem s value n := by
  have hk := search_congr (fun x => x = value.setWidth 8) (h _ List.mem_cons_self)
  simp only [memchr, hk]

/-- `memrchr` depends on what it reads only. -/
private theorem memrchr_congr {value : BitVec 32} (h : ∀ i < n, mem' (off s i) = mem (off s i)) :
    memrchr mem' s value n = memrchr mem s value n := by
  have hlast : last (fun i => mem' (off s i) = value.setWidth 8) n =
      last (fun i => mem (off s i) = value.setWidth 8) n := by
    apply last_congr
    intro i hi
    rw [h i hi]
  simp only [memrchr, hlast]

/-- `memcmp` depends on what it reads only. -/
private theorem memcmp_congr {rhs : Addr}
    (h : ∀ i < n, mem' (off s i) = mem (off s i) ∧ mem' (off rhs i) = mem (off rhs i)) :
    memcmp mem' s rhs n = memcmp mem s rhs n := by
  -- the first difference is at the same position
  have hk : firstFrom (fun i => mem' (off s i) ≠ mem' (off rhs i)) 0 n =
      firstFrom (fun i => mem (off s i) ≠ mem (off rhs i)) 0 n := by
    apply firstFrom_congr
    intro i hi
    obtain ⟨hl, hr⟩ := h i (Nat.lt_of_lt_of_le hi (Nat.min_le_right ..))
    rw [hl, hr]
  simp only [memcmp, hk]
  split
  · next hlt => rw [(h _ hlt).1, (h _ hlt).2]
  · rfl

/-- `memccpy` depends on what it reads only. -/
private theorem memccpy_congr {dst : Addr} {value : BitVec 32}
    (h : ∀ r ∈ (memccpy mem dst s value n).reads, ∀ i < r.2, mem' (off r.1 i) = mem (off r.1 i)) :
    memccpy mem' dst s value n = memccpy mem dst s value n := by
  have hsource := h _ List.mem_cons_self
  have hk := search_congr (fun x => x = value.setWidth 8) hsource
  simp only [memccpy, hk, bytesAt_congr hsource]

/-- `strlen` depends on what it reads only. -/
private theorem strlen_congr
    (h : ∀ r ∈ (strlen mem s).reads, ∀ i < r.2, mem' (off r.1 i) = mem (off r.1 i)) :
    strlen mem' s = strlen mem s := by
  have hk := stringLength_congr (h _ List.mem_cons_self)
  simp only [strlen, hk]

/-- `strnlen` depends on what it reads only. -/
private theorem strnlen_congr
    (h : ∀ r ∈ (strnlen mem s n).reads, ∀ i < r.2, mem' (off r.1 i) = mem (off r.1 i)) :
    strnlen mem' s n = strnlen mem s n := by
  have hk := search_congr (fun x => x = 0) (h _ List.mem_cons_self)
  simp only [strnlen, hk]

/-- `strchrnul` depends on what it reads only. -/
private theorem strchrnul_congr {value : BitVec 32}
    (h : ∀ r ∈ (strchrnul mem s value).reads, ∀ i < r.2, mem' (off r.1 i) = mem (off r.1 i)) :
    strchrnul mem' s value = strchrnul mem s value := by
  have hk := search_congr (n := 2 ^ 32) (fun x => x = 0 || x = value.setWidth 8)
    fun i hi => h _ List.mem_cons_self i (Nat.lt_of_lt_of_le hi (Nat.min_le_left ..))
  simp only [strchrnul, hk]

/-- `stpncpy` depends on what it reads only. -/
private theorem stpncpy_congr {dst : Addr}
    (h : ∀ r ∈ (stpncpy mem dst s n).reads, ∀ i < r.2, mem' (off r.1 i) = mem (off r.1 i)) :
    stpncpy mem' dst s n = stpncpy mem dst s n := by
  have hsource := h _ List.mem_cons_self
  have hk := search_congr (fun x => x = 0) hsource
  simp only [stpncpy, hk, Effect.mk.injEq, true_and, and_true]
  apply List.map_congr_left
  intro i hi
  have hn := List.mem_range.mp hi
  split
  -- what is copied was read, and what is filled up is zero in both memories
  · next hlt => exact hsource i (Nat.lt_min.mpr ⟨by omega, hn⟩)
  · rfl

/-- `strlcpy` depends on what it reads only. -/
private theorem strlcpy_congr {dst : Addr}
    (h : ∀ r ∈ (strlcpy mem dst s n).reads, ∀ i < r.2, mem' (off r.1 i) = mem (off r.1 i)) :
    strlcpy mem' dst s n = strlcpy mem dst s n := by
  have hsource := h _ List.mem_cons_self
  have hk := stringLength_congr hsource
  simp only [strlcpy, hk, Effect.mk.injEq, true_and, and_true]
  apply List.map_congr_left
  intro i _
  split
  · next hlt => exact hsource i (by omega)
  · rfl

/-- The comparison of blocks depends on what it reads only. -/
private theorem eqU8x16_congr {out rhs : Addr}
    (h : ∀ i < 16, mem' (off s i) = mem (off s i) ∧ mem' (off rhs i) = mem (off rhs i)) :
    eqU8x16 mem' out s rhs = eqU8x16 mem out s rhs := by
  have hbytes : bytesAt (scalarLoop eqByte out s rhs mem' 16) out 16 =
      bytesAt (scalarLoop eqByte out s rhs mem 16) out 16 := bytesAt_congr (scalarLoop_congr h)
  simp only [eqU8x16, hbytes]

/-- The saturating sum depends on what it reads only. -/
private theorem addSatU8_congr {out rhs : Addr}
    (h : ∀ i < n, mem' (off s i) = mem (off s i) ∧ mem' (off rhs i) = mem (off rhs i)) :
    addSatU8 mem' out s rhs n = addSatU8 mem out s rhs n := by
  have hbytes : bytesAt (scalarLoop addSatByte out s rhs mem' n) out n =
      bytesAt (scalarLoop addSatByte out s rhs mem n) out n := bytesAt_congr (scalarLoop_congr h)
  simp only [addSatU8, espSimdAddSat_eq, hbytes]

end

/-- A C function does the same where the bytes that it may read are the same. -/
theorem plain_congr {op : Operation} {m : Machine} {mem' : Mem} (hsound : Sound op m)
    (h : ∀ r ∈ (plain op m).reads, ∀ i < r.2, mem' (off r.1 i) = m.mem (off r.1 i)) :
    plain op (m.setMem mem') = plain op m := by
  -- the two ranges of the operations on pairs of bytes
  have hpair : ∀ {a b : Addr} {n : Nat}, (plain op m).reads = [(a, n), (b, n)] →
      ∀ i < n, mem' (off a i) = m.mem (off a i) ∧ mem' (off b i) = m.mem (off b i) := by
    intro a b n hreads i hi
    rw [hreads] at h
    exact ⟨h _ List.mem_cons_self i hi, h _ (List.mem_cons_of_mem _ List.mem_cons_self) i hi⟩
  cases op with
  | memcpy => simp only [plain, Machine.get_setMem, Machine.mem_setMem, memcpy,
      memmove_congr (h _ List.mem_cons_self)]
  | memset => rfl
  | memmove => exact memmove_congr (h _ List.mem_cons_self)
  | memchr => exact memchr_congr h
  | memrchr => exact memrchr_congr (h _ List.mem_cons_self)
  | memcmp => exact memcmp_congr (hpair rfl)
  | memccpy => exact memccpy_congr h
  | strlen => exact strlen_congr h
  | strnlen => exact strnlen_congr h
  | strchrnul => exact strchrnul_congr h
  -- the four operations whose routines are faulty are left out
  | strchr => exact hsound.elim
  | strcmp => exact hsound.elim
  | stpcpy => exact hsound.elim
  | strcpy => exact hsound.elim
  | stpncpy => exact stpncpy_congr h
  | strncpy => exact congrArg (fun e : Effect => { e with result := m.get .a0 }) (stpncpy_congr h)
  | strlcpy => exact strlcpy_congr h
  | eqU8x16 => exact eqU8x16_congr (hpair rfl)
  | addSatU8 => exact addSatU8_congr (hpair rfl)

/-! ## The program with the C functions -/

/-- The memory, what the calls have returned, and the bytes that the program knows. -/
structure Reference where
  mem : Mem
  values : List Int
  known : Addr → Prop

/-- An event of the program with the C functions alone.  After a call, the stack below the
    caller is not known any more, and what is written is. -/
def Reference.step (r : Reference) : Event → Reference
  | .call _ op m _ =>
    let e := plain op (m.setMem r.mem)
    { mem := e.apply r.mem
      values := r.values ++ [value op e.result]
      known := fun x => (r.known x ∧ ¬ Below m x) ∨ ∃ i < e.bytes.length, x = off e.dst i }
  | .init _ _ => r
  | .other f known => { r with mem := f r.mem, known := known }

/-- What the program keeps to: its calls have a meaning in C and read known bytes, and
    other code makes known bytes of known bytes only. -/
def Event.Allowed (addr : Label → Addr) (r : Reference) : Event → Prop
  | .call _ op m _ => Sound op m ∧ Callable addr op (m.setMem r.mem) ∧
      ∀ range ∈ (plain op (m.setMem r.mem)).reads, ∀ i < range.2, r.known (off range.1 i)
  | .init _ _ => True
  | .other f known => ∀ mem, (∀ x, r.known x → mem x = r.mem x) →
      ∀ x, known x → f mem x = f r.mem x

/-- Every call is allowed when its turn comes. -/
def AllAllowed (addr : Label → Addr) : Reference → List Event → Prop
  | _, [] => True
  | r, e :: events => e.Allowed addr r ∧ AllAllowed addr (r.step e) events

/-- The same values, and the same known bytes. -/
structure Simulates (r : Reference) (w : World) : Prop where
  mem : ∀ x, r.known x → w.mem x = r.mem x
  values : w.values = r.values

section

variable {addr : Label → Addr} {r : Reference} {w w' : World} {e : Event}

/-- An effect gives memories that agree what it writes, and leaves their agreement elsewhere. -/
theorem Effect.apply_agree {e : Effect} {mem mem' : Mem} {x : Addr}
    (h : mem' x = mem x ∨ ∃ i < e.bytes.length, x = off e.dst i) :
    e.apply mem' x = e.apply mem x := by
  simp only [Effect.apply, overwrite]
  split
  · rfl
  · next hout =>
    obtain h | ⟨i, hi, rfl⟩ := h
    · exact h
    · refine absurd ⟨Nat.zero_le _, ?_⟩ hout
      -- a byte written by the call is in the range that it overwrites
      have hle : (off e.dst i - e.dst).toNat ≤ i := by
        rw [BitVec.toNat_sub, off_toNat]
        have := e.dst.isLt
        omega
      omega

/-- The call in the memory of the other program. -/
theorem Callable.transfer {op : Operation} {m : Machine} {mem mem' : Mem}
    (h : Callable addr op (m.setMem mem))
    (heq : plain op (m.setMem mem') = plain op (m.setMem mem)) :
    Callable addr op (m.setMem mem') where
  sp := h.sp
  ra := h.ra
  defined := by
    rw [heq]
    exact h.defined
  source := by
    rw [heq]
    exact h.source
  target := by
    rw [heq]
    exact h.target

section

variable {t : Nat} {op : Operation} {m : Machine} {a : Option Errno}
  (hsim : Simulates r w) (hallowed : (Event.call t op m a).Allowed addr r)

include hsim hallowed

/-- A function does the same in both memories. -/
private theorem plain_eq : plain op (m.setMem w.mem) = plain op (m.setMem r.mem) := by
  obtain ⟨hsound, -, hknown⟩ := hallowed
  -- all that the C function may read is known, and so the same in both memories
  have hreads : ∀ range ∈ (plain op (m.setMem r.mem)).reads, ∀ i < range.2,
      w.mem (off range.1 i) = r.mem (off range.1 i) := fun range hrange i hi =>
    hsim.mem _ (hknown range hrange i hi)
  exact plain_congr (m := m.setMem r.mem) hsound hreads

/-- The end of a call in both programs, if the known bytes outside the stack frames are
    those that the C function leaves. -/
theorem Simulates.done {mem : Mem} {result : BitVec 32} {obs : Obs}
    (hmem : ∀ x, ¬ Below m x → mem x = (plain op (m.setMem r.mem)).apply w.mem x)
    (hvalue : value op result = value op (plain op (m.setMem r.mem)).result) :
    Simulates (r.step (.call t op m a)) ((w.init t a).done mem (value op result) obs) where
  mem x hx := by
    -- what is known after the call is outside the stack frames
    have hout : ¬ Below m x := by
      obtain ⟨-, hout⟩ | ⟨i, hi, rfl⟩ := hx
      · exact hout
      · exact hallowed.2.1.target i hi
    refine (hmem x hout).trans (Effect.apply_agree ?_)
    obtain ⟨hknown, -⟩ | hwritten := hx
    · exact .inl (hsim.mem x hknown)
    · exact .inr hwritten
  values := by
    show w.values ++ [value op result] = r.values ++ [value op _]
    rw [hsim.values, hvalue]

/-- The routine in the memory of the program with the library. -/
private theorem routine_returns (hlayout : Layout addr) :
    Returns addr (m.setMem w.mem) (fun m' =>
        value op (m'.get .a0) = value op (plain op (m.setMem r.mem)).result ∧
          ∀ x, ¬ Below m x → m'.mem x = (plain op (m.setMem r.mem)).apply w.mem x)
      ⟨.run (memopsCode op.routine), m.setMem w.mem⟩ := by
  have heq := plain_eq hsim hallowed
  have hroutine := routine_plain hlayout (m := m.setMem w.mem) hallowed.1
    (hallowed.2.1.transfer heq)
  rw [RoutinePlain, heq] at hroutine
  exact hroutine

end

/-- One event: it can happen with the library, and whatever happens is what happens with
    the C functions. -/
theorem step_simulates (hlayout : Layout addr) (hsim : Simulates r w)
    (hallowed : e.Allowed addr r) :
    (∃ w', Step addr w e w') ∧ ∀ w', Step addr w e w' → Simulates (r.step e) w' := by
  cases e with
  | call t op m a =>
    have hreturns := routine_returns hsim hallowed hlayout
    have hra : ∀ l ∈ returnLabels, addr l ≠ (m.setMem w.mem).get .ra := hallowed.2.1.ra
    constructor
    -- the thread is confined and the routine returns, or the C function is called
    · by_cases hinit : (espSimdInit (w.states t) a).result = 0
      · obtain ⟨m', hrun, -⟩ := hreturns.reaches hra
        exact ⟨_, .routine hinit (by rwa [wrapper_eq])⟩
      · exact ⟨_, .plain hinit fun _ _ => rfl⟩
    · intro w' hstep
      cases hstep with
      | plain hinit hmem =>
        -- the C function sees the memory of this program and does the same
        simp only [wrapper_eq, plain_eq hsim hallowed] at hmem ⊢
        exact hsim.done hallowed hmem rfl
      | routine hinit hrun =>
        -- the machine is deterministic, so every run of the routine ends as the proved one
        rw [wrapper_eq] at hrun
        obtain ⟨hvalue, hmem⟩ := hreturns.post_of_reaches hra hrun
        exact hsim.done hallowed hmem hvalue
  | init t a =>
    refine ⟨⟨_, .init⟩, fun w' hstep => ?_⟩
    cases hstep
    exact ⟨hsim.mem, hsim.values⟩
  | other f known =>
    refine ⟨⟨_, .other⟩, fun w' hstep => ?_⟩
    cases hstep
    exact ⟨hallowed w.mem hsim.mem, hsim.values⟩

end

/-! ## Confined threads -/

/-- What a thread does that is not confined, `false`, or confined. -/
def obey (confined : Bool) (o : Obs) : Option Bool :=
  match confined, o with
  | false, .setaffinity _ done => some done
  | false, .plain _ _ => some false
  | true, .routine _ _ => some true
  | _, _ => none

/-- The thread asks the kernel until it is confined, calls C functions until then, and
    afterwards uses the routines. -/
def Obeys (t : Nat) (w : World) : Prop :=
  (w.trace.filter (·.thread = t)).foldlM obey false = some (decide (0 < w.states t))

/-- The initialization succeeds exactly when the state says so. -/
private theorem espSimdInit_result (state : Int) (a : Option Errno) :
    (espSimdInit state a).result = 0 ↔ 0 < (espSimdInit state a).state := by
  by_cases hpos : 0 < state
  · simp [espSimdInit, hpos]
  · cases a with
    | none => simp [espSimdInit, hpos]
    | some e =>
      have := e.pos
      simp only [espSimdInit, hpos, if_false]
      omega

section

variable {addr : Label → Addr} {w w' : World} {e : Event} {t : Nat}

/-- Initializing a thread keeps to the trace. -/
private theorem obeys_init (h : Obeys t w) (t' : Nat) (a : Option Errno) :
    Obeys t (w.init t' a) := by
  rw [Obeys] at h ⊢
  simp only [World.init, List.filter_append, List.foldlM_append, h, Option.bind_eq_bind,
    Option.bind_some, Function.update_apply]
  -- for the calling thread by its state, for the others nothing is added
  by_cases ht : t = t'
  · subst ht
    by_cases hpos : 0 < w.states t
    · simp [espSimdInit, hpos]
    · cases a with
      | none => simp [espSimdInit, hpos, Obs.thread, obey]
      | some e => simp [espSimdInit, hpos, Obs.thread, obey]
  · have hother : (if (espSimdInit (w.states t') a).asked then
        [Obs.setaffinity t' a.isNone] else []).filter (·.thread = t) = [] := by
      rw [List.filter_eq_nil_iff]
      intro o ho
      split at ho
      · obtain rfl := List.mem_singleton.mp ho
        simp [Obs.thread, Ne.symm ht]
      · cases ho
    rw [hother, if_neg ht]
    rfl

/-- The end of an operation that a thread may do in its state. -/
private theorem obeys_done {mem : Mem} {v : Int} {obs : Obs} (h : Obeys t w)
    (hobs : obs.thread = t → obey (decide (0 < w.states t)) obs = some (decide (0 < w.states t))) :
    Obeys t (w.done mem v obs) := by
  rw [Obeys] at h ⊢
  simp only [World.done, List.filter_append, List.foldlM_append, h, Option.bind_eq_bind,
    Option.bind_some]
  by_cases ht : obs.thread = t
  · simp [ht, hobs ht]
    rfl
  · simp [ht]
    rfl

/-- Every call keeps to the trace. -/
theorem obeys_step (h : Obeys t w) (hstep : Step addr w e w') : Obeys t w' := by
  -- the state of the calling thread after `esp_simd_init`
  have hstate : ∀ t' a, (w.init t' a).states t' = (espSimdInit (w.states t') a).state :=
    fun t' a => Function.update_self ..
  cases hstep with
  | @plain t' op m a mem hinit hmem =>
    apply obeys_done (obeys_init h t' a)
    rintro rfl
    -- a C function is called only when the thread is not confined after the call
    have hneg := mt (espSimdInit_result _ _).mpr hinit
    rw [← hstate] at hneg
    simp only [Obs.thread, hneg, decide_false, obey]
  | @routine t' op m m' a hinit hrun =>
    apply obeys_done (obeys_init h t' a)
    rintro rfl
    -- and a routine only when it is
    have hpos := (espSimdInit_result _ _).mp hinit
    rw [← hstate] at hpos
    simp only [Obs.thread, hpos, decide_true, obey]
  | init => exact obeys_init h _ _
  | other => exact h

end

/-! ## Whole runs -/

/-- A whole run of allowed calls exists and simulates the reference. -/
private theorem run_simulates {addr : Label → Addr} (hlayout : Layout addr) {events : List Event}
    {r : Reference} {w : World} (hsim : Simulates r w) (h : AllAllowed addr r events) :
    (∃ w', Run addr w events w') ∧
      ∀ w', Run addr w events w' → Simulates (events.foldl Reference.step r) w' := by
  -- induction on the events, from any two states that agree on what is known
  induction events generalizing r w with
  | nil =>
    refine ⟨⟨w, .nil w⟩, fun w' hrun => ?_⟩
    cases hrun
    exact hsim
  | cons e events ih =>
    obtain ⟨hallowed, hrest⟩ := h
    obtain ⟨⟨w₁, hstep₁⟩, hall⟩ := step_simulates hlayout hsim hallowed
    constructor
    · obtain ⟨w₂, hrun₂⟩ := (ih (hall w₁ hstep₁) hrest).1
      exact ⟨w₂, .cons hstep₁ hrun₂⟩
    · intro w' hrun
      cases hrun with
      | cons hstep hrun => exact (ih (hall _ hstep) hrest).2 w' hrun

/-- Every run keeps to the trace. -/
private theorem obeys_run {addr : Label → Addr} {t : Nat} {w w' : World} {events : List Event}
    (h : Obeys t w) (hrun : Run addr w events w') : Obeys t w' := by
  induction hrun with
  | nil => exact h
  | cons hstep _ ih => exact ih (obeys_step h hstep)

/-- No thread has called the library. -/
def World.start (mem : Mem) : World := ⟨fun _ => 0, mem, [], []⟩

/-- The start keeps to the empty trace. -/
private theorem obeys_start (t : Nat) (mem : Mem) : Obeys t (.start mem) := rfl

/-- Whichever threads can be confined: a program with the library goes on to the end of
    its events, the calls return what the C functions return, the known bytes are those
    that they leave, and no thread uses the vector unit without being confined, or asks
    the kernel or a C function once it is. -/
theorem simd_agrees {addr : Label → Addr} (hlayout : Layout addr) {mem mem' : Mem}
    {known : Addr → Prop} (hknown : ∀ x, known x → mem x = mem' x) {events : List Event}
    (h : AllAllowed addr ⟨mem', [], known⟩ events) :
    (∃ w, Run addr (.start mem) events w) ∧
      ∀ w, Run addr (.start mem) events w →
        let r := events.foldl Reference.step ⟨mem', [], known⟩
        w.values = r.values ∧ (∀ x, r.known x → w.mem x = r.mem x) ∧ ∀ t, Obeys t w := by
  obtain ⟨hexists, hall⟩ := run_simulates hlayout (w := .start mem) ⟨hknown, rfl⟩ h
  refine ⟨hexists, fun w hrun => ?_⟩
  have hsim := hall w hrun
  exact ⟨hsim.values, hsim.mem, fun t => obeys_run (obeys_start t mem) hrun⟩

/-- Thread 1, which is confined, fills 200 bytes at 0x2003 and moves them up by 32; thread
    2, which is not, copies them to 0x3000. -/
def filledAndCopied : List Event := [
  .call 1 .memset (called 0x2003 7 200 0 0x8000 fun _ => 0) none,
  .call 1 .memmove (called 0x2023 0x2003 200 0 0x8000 fun _ => 0) none,
  .call 2 .memcpy (called 0x3000 0x2023 200 0 0x9000 fun _ => 0) (some ⟨22, by decide⟩)]

/-- The calls of the example are allowed. -/
private theorem filledAndCopied_allowed :
    AllAllowed sampleAddr ⟨fun _ => 1, [], fun _ => True⟩ filledAndCopied := by
  have hra : ∀ l ∈ returnLabels, sampleAddr l ≠ 256 := by decide
  refine ⟨⟨trivial, ⟨by decide, hra, by decide, by decide, by decide +kernel⟩, by decide⟩,
    ⟨trivial, ⟨by decide, hra, by decide, ?_, by decide +kernel⟩, ?_⟩,
    ⟨trivial, ⟨by decide, hra, by decide, ?_, by decide +kernel⟩, ?_⟩, trivial⟩
  · intro range hrange
    obtain rfl := List.mem_singleton.mp hrange
    decide +kernel
  -- the bytes moved are those of the fill, and those copied are those moved
  · intro range hrange i hi
    obtain rfl := List.mem_singleton.mp hrange
    exact .inr ⟨i, hi, rfl⟩
  · intro range hrange
    obtain rfl := List.mem_singleton.mp hrange
    decide +kernel
  · intro range hrange i hi
    obtain rfl := List.mem_singleton.mp hrange
    exact .inr ⟨i, hi, rfl⟩

/-- A fill, a copy to another block and a move over itself, and what they leave. -/
theorem simd_agrees_filledAndCopied :
    (∃ w, Run sampleAddr (.start fun _ => 1) filledAndCopied w) ∧
      ∀ w, Run sampleAddr (.start fun _ => 1) filledAndCopied w →
        w.values = [0x2003, 0x2023, 0x3000] ∧ w.mem 0x30c7 = 7 := by
  -- what thread 1 has written with the vector unit, thread 2 reads without it
  obtain ⟨hexists, hall⟩ := simd_agrees sampleAddr_layout
    (fun x _ => rfl : ∀ x, True → (fun _ => 1 : Mem) x = (fun _ => 1 : Mem) x)
    filledAndCopied_allowed
  refine ⟨hexists, fun w hrun => ?_⟩
  obtain ⟨hvalues, hmem, -⟩ := hall w hrun
  have hlast := hmem 0x30c7 (.inr ⟨199, by decide +kernel, by decide⟩)
  exact ⟨hvalues, hlast.trans (by decide +kernel)⟩

end EspS31.EspSimd
