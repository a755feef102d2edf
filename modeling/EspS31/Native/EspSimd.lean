import EspS31.Spec.AddSatCorrect

/-!
# The library `esp_simd.c`

`esp_simd_init` confines the calling thread to the hart that has the vector unit and
remembers this for the thread.  Each public operation calls it first; then it goes to its
routine `s31_xespv_*`, or, where the thread cannot be confined, to the C function of the
same name or to a scalar loop.
-/

namespace EspS31.EspSimd

open ByteMem Xespv

/-! ## `esp_simd_init` -/

/-- The `errno` of a failed call. -/
structure Errno where
  value : Nat
  pos : 0 < value
deriving DecidableEq, Repr

/-- What `esp_simd_init` leaves in `esp_simd_thread_state`, what it returns, and whether it
    has asked the kernel. -/
structure Init where
  state : Int
  result : Int
  asked : Bool

/-- `setaffinity` is the answer of `sched_setaffinity`, if it is called. -/
def espSimdInit (state : Int) (setaffinity : Option Errno) : Init :=
  -- the thread is confined already and the kernel is not asked
  if 0 < state then ⟨state, 0, false⟩
  else
    match setaffinity with
    -- the error is no permanent state: the next call asks again
    | some e => ⟨-e.value, -e.value, true⟩
    | none => ⟨1, 0, true⟩

/-! ## The C functions -/

/-- The first of the `n` positions from `i` on at which `p` holds, or the one behind them. -/
def firstFrom (p : Nat → Bool) (i : Nat) : Nat → Nat
  | 0 => i
  | n + 1 => if p i then i else firstFrom p (i + 1) n

/-- The last of the first `n` positions at which `p` holds. -/
def last (p : Nat → Bool) : Nat → Option Nat
  | 0 => none
  | n + 1 => if p n then some n else last p n

/-- What a call of a C function does: the bytes that it writes and where, and its result.
    The bytes that it may read are in `reads`, and `defined` says whether C gives the
    call a meaning, as far as its arguments and these bytes decide. -/
structure Effect where
  dst : Addr := 0
  bytes : List Byte := []
  result : BitVec 32 := 0
  reads : List (Addr × Nat) := []
  defined : Bool := true

/-- The memory after the function. -/
def Effect.apply (e : Effect) (mem : Mem) : Mem :=
  overwrite mem e.dst 0 e.bytes.length fun i => e.bytes.getD i 0

/-- The `n` bytes from an address on. -/
def bytesAt (mem : Mem) (s : Addr) (n : Nat) : List Byte :=
  (List.range n).map fun i => mem (off s i)

/-- An object of `n` bytes: neither NULL nor the last address is in one. -/
def isObject (s : Addr) (n : Nat) : Bool := n = 0 || (0 < s.toNat && s.toNat + n < 2 ^ 32)

/-- Whether two ranges share no byte. -/
def disjoint (d : Addr) (nd : Nat) (s : Addr) (ns : Nat) : Bool :=
  d.toNat + nd ≤ s.toNat || s.toNat + ns ≤ d.toNat

/-- The C function: as if through a buffer of its own. -/
def memmove (mem : Mem) (dst src : Addr) (size : Nat) : Effect where
  dst := dst
  bytes := bytesAt mem src size
  result := dst
  reads := [(src, size)]
  defined := isObject dst size && isObject src size

/-- The C function, for objects that do not overlap. -/
def memcpy (mem : Mem) (dst src : Addr) (size : Nat) : Effect :=
  { memmove mem dst src size with
    defined := isObject dst size && isObject src size && disjoint dst size src size }

/-- The C function; the value is taken as a byte. -/
def memset (dst : Addr) (value : BitVec 32) (size : Nat) : Effect where
  dst := dst
  bytes := List.replicate size (value.setWidth 8)
  result := dst
  defined := isObject dst size

/-- The C function: the first place of the byte. -/
def memchr (mem : Mem) (src : Addr) (value : BitVec 32) (size : Nat) : Effect :=
  let k := firstFrom (fun i => mem (off src i) = value.setWidth 8) 0 size
  { result := if k < size then off src k else 0
    reads := [(src, min (k + 1) size)] }

/-- The last place of the byte. -/
def memrchr (mem : Mem) (src : Addr) (value : BitVec 32) (size : Nat) : Effect where
  result :=
    match last (fun i => mem (off src i) = value.setWidth 8) size with
    | some k => off src k
    | none => 0
  reads := [(src, size)]

/-- The difference of two bytes as `int`. -/
def byteDiff (x y : Byte) : BitVec 32 := x.setWidth 32 - y.setWidth 32

/-- The C function: the sign is that of the first difference. -/
def memcmp (mem : Mem) (lhs rhs : Addr) (size : Nat) : Effect :=
  let k := firstFrom (fun i => mem (off lhs i) ≠ mem (off rhs i)) 0 size
  { result := if k < size then byteDiff (mem (off lhs k)) (mem (off rhs k)) else 0
    reads := [(lhs, size), (rhs, size)] }

/-- Copies up to the byte, and returns the address behind it. -/
def memccpy (mem : Mem) (dst src : Addr) (value : BitVec 32) (size : Nat) : Effect :=
  let k := firstFrom (fun i => mem (off src i) = value.setWidth 8) 0 size
  -- the byte itself is copied too, if it is among the first `size`
  let n := min (k + 1) size
  { dst := dst
    bytes := bytesAt mem src n
    result := if k < size then off dst (k + 1) else 0
    reads := [(src, n)]
    defined := isObject dst n && isObject src n && disjoint dst n src n }

/-- The length of the string at `src`, or `2 ^ 32` if there is none. -/
def stringLength (mem : Mem) (src : Addr) : Nat :=
  firstFrom (fun i => mem (off src i) = 0) 0 (2 ^ 32)

/-- The C function. -/
def strlen (mem : Mem) (src : Addr) : Effect :=
  let k := stringLength mem src
  { result := BitVec.ofNat 32 k
    reads := [(src, k + 1)]
    defined := k < 2 ^ 32 }

/-- The length up to a bound. -/
def strnlen (mem : Mem) (src : Addr) (size : Nat) : Effect :=
  let k := firstFrom (fun i => mem (off src i) = 0) 0 size
  { result := BitVec.ofNat 32 k
    reads := [(src, min (k + 1) size)] }

/-- The first place of the byte, or the terminator. -/
def strchrnul (mem : Mem) (src : Addr) (value : BitVec 32) : Effect :=
  let k :=
    firstFrom (fun i => mem (off src i) = 0 || mem (off src i) = value.setWidth 8) 0 (2 ^ 32)
  { result := off src k
    reads := [(src, k + 1)]
    defined := k < 2 ^ 32 }

/-- The C function. -/
def strchr (mem : Mem) (src : Addr) (value : BitVec 32) : Effect :=
  let k :=
    firstFrom (fun i => mem (off src i) = 0 || mem (off src i) = value.setWidth 8) 0 (2 ^ 32)
  { result := if mem (off src k) = value.setWidth 8 then off src k else 0
    reads := [(src, k + 1)]
    defined := k < 2 ^ 32 }

/-- The C function: the sign is that of the first difference. -/
def strcmp (mem : Mem) (lhs rhs : Addr) : Effect :=
  let k :=
    firstFrom (fun i => mem (off lhs i) ≠ mem (off rhs i) || mem (off lhs i) = 0) 0 (2 ^ 32)
  { result := byteDiff (mem (off lhs k)) (mem (off rhs k))
    reads := [(lhs, k + 1), (rhs, k + 1)]
    defined := k < 2 ^ 32 }

/-- Copies with the terminator, and returns its address. -/
def stpcpy (mem : Mem) (dst src : Addr) : Effect :=
  let k := stringLength mem src
  { dst := dst
    bytes := bytesAt mem src (k + 1)
    result := off dst k
    reads := [(src, k + 1)]
    defined := k < 2 ^ 32 && isObject dst (k + 1) && isObject src (k + 1) &&
      disjoint dst (k + 1) src (k + 1) }

/-- The C function. -/
def strcpy (mem : Mem) (dst src : Addr) : Effect := { stpcpy mem dst src with result := dst }

/-- Copies up to the size, filled with zeros. -/
def stpncpy (mem : Mem) (dst src : Addr) (size : Nat) : Effect :=
  let k := firstFrom (fun i => mem (off src i) = 0) 0 size
  let n := min (k + 1) size
  { dst := dst
    bytes := (List.range size).map fun i => if i < k then mem (off src i) else 0
    result := off dst k
    reads := [(src, n)]
    defined := isObject dst size && isObject src n && disjoint dst size src n }

/-- The C function. -/
def strncpy (mem : Mem) (dst src : Addr) (size : Nat) : Effect :=
  { stpncpy mem dst src size with result := dst }

/-- Copies as much as leaves room for the terminator. -/
def strlcpy (mem : Mem) (dst src : Addr) (size : Nat) : Effect :=
  let k := stringLength mem src
  let n := min (k + 1) size
  { dst := dst
    bytes := (List.range n).map fun i => if i < min k (size - 1) then mem (off src i) else 0
    result := BitVec.ofNat 32 k
    reads := [(src, k + 1)]
    defined := k < 2 ^ 32 && isObject dst n && isObject src (k + 1) &&
      disjoint dst n src (k + 1) }

/-! ## The scalar loops -/

/-- `lhs[i] == rhs[i] ? 0xff : 0` -/
def eqByte (x y : Byte) : Byte := if x = y then 0xff else 0

/-- The first `n` rounds of `out[i] = f(lhs[i], rhs[i])`, each with the bytes written by
    those before it. -/
def scalarLoop (f : Byte → Byte → Byte) (out lhs rhs : Addr) (mem : Mem) : Nat → Mem
  | 0 => mem
  | i + 1 =>
    let mem' := scalarLoop f out lhs rhs mem i
    Function.update mem' (off out i) (f (mem' (off lhs i)) (mem' (off rhs i)))

/-- The scalar loop of `esp_simd_eq_u8x16`. -/
def eqU8x16 (mem : Mem) (out lhs rhs : Addr) : Effect where
  dst := out
  bytes := bytesAt (scalarLoop eqByte out lhs rhs mem 16) out 16
  reads := [(lhs, 16), (rhs, 16)]

/-- The scalar loop of `esp_simd_add_sat_u8`. -/
def addSatU8 (mem : Mem) (out lhs rhs : Addr) (count : Nat) : Effect where
  dst := out
  bytes := bytesAt (espSimdAddSat out lhs rhs mem count) out count
  reads := [(lhs, count), (rhs, count)]

/-! ## The public operations -/

/-- A public operation, called with the registers and the memory of a machine: what it
    does when `esp_simd_init` fails, and the routine that it calls otherwise with its own
    arguments. -/
structure Wrapper where
  fallback : Machine → Effect
  routine : Label

/-- `esp_simd_memcpy(dst, src, size)`. -/
def espSimdMemcpy : Wrapper :=
  ⟨fun m => memcpy m.mem (m.get .a0) (m.get .a1) (m.get .a2).toNat, .s31XespvMemcpy⟩
/-- `esp_simd_memset(dst, value, size)`. -/
def espSimdMemset : Wrapper :=
  ⟨fun m => memset (m.get .a0) (m.get .a1) (m.get .a2).toNat, .s31XespvMemset⟩
/-- `esp_simd_memmove(dst, src, size)`. -/
def espSimdMemmove : Wrapper :=
  ⟨fun m => memmove m.mem (m.get .a0) (m.get .a1) (m.get .a2).toNat, .s31XespvMemmove⟩
/-- `esp_simd_memchr(src, value, size)`. -/
def espSimdMemchr : Wrapper :=
  ⟨fun m => memchr m.mem (m.get .a0) (m.get .a1) (m.get .a2).toNat, .s31XespvMemchr⟩
/-- `esp_simd_memrchr(src, value, size)`. -/
def espSimdMemrchr : Wrapper :=
  ⟨fun m => memrchr m.mem (m.get .a0) (m.get .a1) (m.get .a2).toNat, .s31XespvMemrchr⟩
/-- `esp_simd_memcmp(lhs, rhs, size)`. -/
def espSimdMemcmp : Wrapper :=
  ⟨fun m => memcmp m.mem (m.get .a0) (m.get .a1) (m.get .a2).toNat, .s31XespvMemcmp⟩
/-- `esp_simd_memccpy(dst, src, value, size)`. -/
def espSimdMemccpy : Wrapper :=
  ⟨fun m => memccpy m.mem (m.get .a0) (m.get .a1) (m.get .a2) (m.get .a3).toNat, .s31XespvMemccpy⟩
/-- `esp_simd_strlen(src)`. -/
def espSimdStrlen : Wrapper := ⟨fun m => strlen m.mem (m.get .a0), .s31XespvStrlen⟩
/-- `esp_simd_strnlen(src, size)`. -/
def espSimdStrnlen : Wrapper :=
  ⟨fun m => strnlen m.mem (m.get .a0) (m.get .a1).toNat, .s31XespvStrnlen⟩
/-- `esp_simd_strchrnul(src, value)`. -/
def espSimdStrchrnul : Wrapper :=
  ⟨fun m => strchrnul m.mem (m.get .a0) (m.get .a1), .s31XespvStrchrnul⟩
/-- `esp_simd_strchr(src, value)`. -/
def espSimdStrchr : Wrapper := ⟨fun m => strchr m.mem (m.get .a0) (m.get .a1), .s31XespvStrchr⟩
/-- `esp_simd_strcmp(lhs, rhs)`. -/
def espSimdStrcmp : Wrapper := ⟨fun m => strcmp m.mem (m.get .a0) (m.get .a1), .s31XespvStrcmp⟩
/-- `esp_simd_stpcpy(dst, src)`. -/
def espSimdStpcpy : Wrapper := ⟨fun m => stpcpy m.mem (m.get .a0) (m.get .a1), .s31XespvStpcpy⟩
/-- `esp_simd_strcpy(dst, src)`. -/
def espSimdStrcpy : Wrapper := ⟨fun m => strcpy m.mem (m.get .a0) (m.get .a1), .s31XespvStrcpy⟩
/-- `esp_simd_stpncpy(dst, src, size)`. -/
def espSimdStpncpy : Wrapper :=
  ⟨fun m => stpncpy m.mem (m.get .a0) (m.get .a1) (m.get .a2).toNat, .s31XespvStpncpy⟩
/-- `esp_simd_strncpy(dst, src, size)`. -/
def espSimdStrncpy : Wrapper :=
  ⟨fun m => strncpy m.mem (m.get .a0) (m.get .a1) (m.get .a2).toNat, .s31XespvStrncpy⟩
/-- `esp_simd_strlcpy(dst, src, size)`. -/
def espSimdStrlcpy : Wrapper :=
  ⟨fun m => strlcpy m.mem (m.get .a0) (m.get .a1) (m.get .a2).toNat, .s31XespvStrlcpy⟩
/-- `esp_simd_eq_u8x16(out, lhs, rhs)`. -/
def espSimdEqU8x16 : Wrapper :=
  ⟨fun m => eqU8x16 m.mem (m.get .a0) (m.get .a1) (m.get .a2), .s31XespvEq16⟩
/-- `esp_simd_add_sat_u8(out, lhs, rhs, count)`. -/
def espSimdAddSatU8 : Wrapper :=
  ⟨fun m => addSatU8 m.mem (m.get .a0) (m.get .a1) (m.get .a2) (m.get .a3).toNat, .s31XespvAddSatU8⟩

/-- The public operation of each routine. -/
def wrapper : Operation → Wrapper
  | .memcpy => espSimdMemcpy
  | .memset => espSimdMemset
  | .memmove => espSimdMemmove
  | .memchr => espSimdMemchr
  | .memrchr => espSimdMemrchr
  | .memcmp => espSimdMemcmp
  | .memccpy => espSimdMemccpy
  | .strlen => espSimdStrlen
  | .strnlen => espSimdStrnlen
  | .strchrnul => espSimdStrchrnul
  | .strchr => espSimdStrchr
  | .strcmp => espSimdStrcmp
  | .stpcpy => espSimdStpcpy
  | .strcpy => espSimdStrcpy
  | .stpncpy => espSimdStpncpy
  | .strncpy => espSimdStrncpy
  | .strlcpy => espSimdStrlcpy
  | .eqU8x16 => espSimdEqU8x16
  | .addSatU8 => espSimdAddSatU8

/-! ## Programs that call the library -/

/-- The C function of an operation, for the arguments and the memory of a machine that
    calls it. -/
def plain (op : Operation) (m : Machine) : Effect :=
  let a0 := m.get .a0
  let a1 := m.get .a1
  let a2 := m.get .a2
  match op with
  | .memcpy => memcpy m.mem a0 a1 a2.toNat
  | .memset => memset a0 a1 a2.toNat
  | .memmove => memmove m.mem a0 a1 a2.toNat
  | .memchr => memchr m.mem a0 a1 a2.toNat
  | .memrchr => memrchr m.mem a0 a1 a2.toNat
  | .memcmp => memcmp m.mem a0 a1 a2.toNat
  | .memccpy => memccpy m.mem a0 a1 a2 (m.get .a3).toNat
  | .strlen => strlen m.mem a0
  | .strnlen => strnlen m.mem a0 a1.toNat
  | .strchrnul => strchrnul m.mem a0 a1
  | .strchr => strchr m.mem a0 a1
  | .strcmp => strcmp m.mem a0 a1
  | .stpcpy => stpcpy m.mem a0 a1
  | .strcpy => strcpy m.mem a0 a1
  | .stpncpy => stpncpy m.mem a0 a1 a2.toNat
  | .strncpy => strncpy m.mem a0 a1 a2.toNat
  | .strlcpy => strlcpy m.mem a0 a1 a2.toNat
  | .eqU8x16 => eqU8x16 m.mem a0 a1 a2
  | .addSatU8 => addSatU8 m.mem a0 a1 a2 (m.get .a3).toNat

/-- An operation falls back to its C function, and else to its routine. -/
theorem wrapper_eq (op : Operation) : wrapper op = ⟨plain op, op.routine⟩ := by
  cases op <;> rfl

/-- What the caller gets: nothing from the two functions without a result, and of a
    comparison the sign only. -/
def value (op : Operation) (result : BitVec 32) : Int :=
  match op with
  | .memcmp | .strcmp => result.toInt.sign
  | .eqU8x16 | .addSatU8 => 0
  | _ => result.toNat

/-- A thread asks the kernel, executes a routine or calls a C function. -/
inductive Obs where
  | setaffinity (thread : Nat) (done : Bool)
  | routine (thread : Nat) (op : Operation)
  | plain (thread : Nat) (op : Operation)
deriving DecidableEq, Repr

/-- The thread that the observation is about. -/
def Obs.thread : Obs → Nat
  | .setaffinity t _ | .routine t _ | .plain t _ => t

/-- The threads' `esp_simd_thread_state`, the memory that they share, and what the calls
    have returned. -/
structure World where
  states : Nat → Int
  mem : Mem
  values : List Int
  trace : List Obs

/-- A thread calls an operation with the registers of `m`, or `esp_simd_init`, or memory
    is changed by other code.  Of the memory this leaves, the bytes at the addresses
    `known` depend on known bytes alone. -/
inductive Event where
  | call (thread : Nat) (op : Operation) (m : Machine) (setaffinity : Option Errno)
  | init (thread : Nat) (setaffinity : Option Errno)
  | other (f : Mem → Mem) (known : Addr → Prop)

/-- The call of `esp_simd_init` by a thread. -/
def World.init (w : World) (thread : Nat) (setaffinity : Option Errno) : World :=
  let i := espSimdInit (w.states thread) setaffinity
  { w with
    states := Function.update w.states thread i.state
    trace := w.trace ++ if i.asked then [.setaffinity thread setaffinity.isNone] else [] }

/-- The end of an operation. -/
def World.done (w : World) (mem : Mem) (value : Int) (obs : Obs) : World :=
  { w with mem := mem, values := w.values ++ [value], trace := w.trace ++ [obs] }

/-- The bytes below the stack pointer that a callee may use. -/
def Below (m : Machine) (x : Addr) : Prop := InFrame (m.get .sp + -BitVec.ofNat 32 80) 80 x

instance (m : Machine) : DecidablePred (Below m) := fun _ => inferInstanceAs (Decidable (_ < _))

/-- The steps of a program with the library, whose routines are at the addresses `addr`.
    What a C function leaves below the stack pointer is open. -/
inductive Step (addr : Label → Addr) : World → Event → World → Prop
  | plain {w : World} {t : Nat} {op : Operation} {m : Machine} {a : Option Errno} {mem : Mem}
      (hinit : (espSimdInit (w.states t) a).result ≠ 0)
      (hmem : ∀ x, ¬ Below m x → mem x = ((wrapper op).fallback (m.setMem w.mem)).apply w.mem x) :
      Step addr w (.call t op m a) ((w.init t a).done mem
        (value op ((wrapper op).fallback (m.setMem w.mem)).result) (.plain t op))
  | routine {w : World} {t : Nat} {op : Operation} {m m' : Machine} {a : Option Errno}
      (hinit : (espSimdInit (w.states t) a).result = 0)
      (hrun : Reaches (memopsAt addr) ⟨.run (memopsCode (wrapper op).routine), m.setMem w.mem⟩
        ⟨.out (m.get .ra), m'⟩) :
      Step addr w (.call t op m a)
        ((w.init t a).done m'.mem (value op (m'.get .a0)) (.routine t op))
  | init {w : World} {t : Nat} {a : Option Errno} : Step addr w (.init t a) (w.init t a)
  | other {w : World} {f : Mem → Mem} {known : Addr → Prop} :
      Step addr w (.other f known) { w with mem := f w.mem }

/-- Runs of any length. -/
inductive Run (addr : Label → Addr) : World → List Event → World → Prop
  | nil (w) : Run addr w [] w
  | cons {w w' w'' : World} {e : Event} {events : List Event} (hstep : Step addr w e w')
      (hrun : Run addr w' events w'') : Run addr w (e :: events) w''

end EspS31.EspSimd
