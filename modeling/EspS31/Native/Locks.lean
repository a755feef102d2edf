import EspS31.Native.Queue

/-!
# libc locks

`s31_linux_locks.c` maps the lock objects of libc to recursive mutexes through a
table of 32 entries.  A `_lock_t` variable holds the address of its `struct
__lock`, which is the key of the table; the mutex is created when the key is
first used.

All allocations succeed here and return fresh addresses.  The code of an entry
point up to its first bridge call is one step: payload code is serialised by the
Linux gate and `s31_lock_get` runs in a critical section.  The closing functions
are not part of this model.
-/

namespace EspS31.Rtos

open SyncProtocol

/-- Address of a `struct __lock`. -/
abbrev LockKey := Nat

/-- Address of a `_lock_t` variable. -/
abbrev LockVar := Nat

/-- Address of a mutex object. -/
abbrev MutexHandle := Nat

/-- The type of a mutex that is not recursive. -/
def s31MutexNormal : UInt8 := 1
/-- The type of a recursive mutex. -/
def s31MutexRecursive : UInt8 := 4
/-- The entries of the table. -/
def s31LockSlots : Nat := 32

/-- `struct s31_lock_entry`; an unused entry has no key. -/
structure LockEntry where
  key : Option LockKey
  handle : Option MutexHandle
  type : UInt8
deriving DecidableEq, Repr

/-- The lock variables, the table, the mutexes by address, and the next address
    the heap hands out. -/
structure LockWorld where
  vars : LockVar → Option LockKey
  table : List LockEntry
  mutexes : MutexHandle → S31Queue
  brk : Nat

namespace LockWorld

/-- `xQueueCreateMutex` at the next heap address, with the bridge object of the
    same number. -/
def createMutex (w : LockWorld) (type : UInt8) : LockWorld × Option MutexHandle :=
  match xQueueCreateMutex (fun _ => some fun _ => 0) (some w.brk) type with
  | some q =>
    ({ w with mutexes := Function.update w.mutexes w.brk q, brk := w.brk + 1 }, some w.brk)
  | none => (w, none)

/-- The state of one mutex replaced. -/
def setMutex (h : MutexHandle) (w : LockWorld) (q : S31Queue) : LockWorld :=
  { w with mutexes := Function.update w.mutexes h q }

end LockWorld

/-- The loop returns the first entry with the key, and otherwise fills the first
    unused entry it has passed. -/
def s31LockGet (lock : LockKey) (type : UInt8) (w : LockWorld) :
    LockWorld × Option MutexHandle :=
  match w.table.find? fun e => e.key = some lock with
  | some e => (w, e.handle)
  | none =>
    match w.table.findIdx? fun e => e.key = none with
    | none => (w, none)
    | some i =>
      match w.createMutex type with
      | (w', some h) => ({ w' with table := w'.table.set i ⟨some lock, some h, type⟩ }, some h)
      | (w', none) => (w', none)

/-- The mutex of a lock, if the table has one. -/
def s31LockFind (lock : LockKey) (w : LockWorld) : Option MutexHandle :=
  (w.table.find? fun e => e.key = some lock).bind fun e => e.handle

/-- Code on the mutex at address `h`. -/
def onMutex (h : MutexHandle)
    (f : S31Queue → Ret ⊕ SyncCall MutexHandle S31Queue Ret TickType) (w : LockWorld) :
    Ret ⊕ SyncCall MutexHandle LockWorld Ret TickType :=
  (f (w.mutexes h)).map id (SyncCall.zoom (fun w => w.mutexes h) (LockWorld.setMutex h))

/-- `ret == pdTRUE ? 0 : -1`. -/
def lockResult (ret : Ret) : Int := if ret.rc = pdTRUE then 0 else -1

/-- Takes a lock, which gets its mutex with the first take; -1 without one. -/
def s31LockTake (th : Thread) (lock : LockKey) (timeout : TickType) (type : UInt8)
    (w : LockWorld) : LockWorld × (Int ⊕ SyncCall MutexHandle LockWorld Int TickType) :=
  match s31LockGet lock type w with
  | (w', none) => (w', .inl (-1))
  | (w', some h) =>
    (w', (onMutex h (fun q =>
      if th.inIsr then xQueueReceiveFromISR h false none q
      else if type = s31MutexRecursive then xQueueTakeMutexRecursive th h timeout q
      else xQueueSemaphoreTake th h timeout q) w').map lockResult (SyncCall.mapRet lockResult))

/-- Gives a lock back; one without a mutex is ignored. -/
def s31LockGive (th : Thread) (lock : LockKey) (w : LockWorld) :
    LockWorld × (Unit ⊕ SyncCall MutexHandle LockWorld Unit TickType) :=
  match s31LockFind lock w with
  | none => (w, .inl ())
  | some h =>
    (w, (onMutex h (fun q =>
      if th.inIsr then xQueueGiveFromISR th h none q
      else xQueueGiveMutexRecursive th h q) w).map (fun _ => ()) (SyncCall.mapRet fun _ => ()))

/-- The memory of a new `struct __lock` is all zero and never read. -/
def lockInit (lock : LockVar) (w : LockWorld) : LockWorld :=
  { w with vars := Function.update w.vars lock (some w.brk), brk := w.brk + 1 }

/-- The lock variable's key, created on first use. -/
def lockEnsure (lock : LockVar) (w : LockWorld) : LockWorld :=
  if w.vars lock = none then lockInit lock w else w

/-- The entry points.  A NULL `lock` pointer is `none`. -/
inductive LockOp where
  | lockAcquire (lock : Option LockVar)
  | lockAcquireRecursive (lock : Option LockVar)
  | lockTryAcquire (lock : Option LockVar)
  | lockTryAcquireRecursive (lock : Option LockVar)
  | lockRelease (lock : Option LockVar)
  | lockReleaseRecursive (lock : Option LockVar)
deriving DecidableEq, Repr

/-- What an entry point returns: nothing, or the result of a try. -/
abbrev LockRet := Option Int

/-- The take of the four acquiring entry points, on the key of `lock`. -/
def lockTakeVar (th : Thread) (lock : Option LockVar) (timeout : TickType) (type : UInt8)
    (w : LockWorld) : LockWorld × (Int ⊕ SyncCall MutexHandle LockWorld Int TickType) :=
  match lock with
  | none => (w, .inl (-1))
  | some l =>
    let w' := lockEnsure l w
    match w'.vars l with
    | none => (w', .inl (-1))
    | some key => s31LockTake th key timeout type w'

/-- `_lock_acquire` and `_lock_acquire_recursive` discard the result. -/
def lockAcquireWith (th : Thread) (lock : Option LockVar) (type : UInt8) (w : LockWorld) :
    LockWorld × (LockRet ⊕ SyncCall MutexHandle LockWorld LockRet TickType) :=
  let r := lockTakeVar th lock portMAX_DELAY type w
  (r.1, r.2.map (fun _ => none) (SyncCall.mapRet fun _ => none))

/-- Takes a lock without a wait. -/
def lockTryAcquireWith (th : Thread) (lock : Option LockVar) (type : UInt8) (w : LockWorld) :
    LockWorld × (LockRet ⊕ SyncCall MutexHandle LockWorld LockRet TickType) :=
  let r := lockTakeVar th lock 0 type w
  (r.1, r.2.map some (SyncCall.mapRet some))

/-- Gives back the lock of a variable. -/
def lockReleaseVar (th : Thread) (lock : Option LockVar) (w : LockWorld) :
    LockWorld × (LockRet ⊕ SyncCall MutexHandle LockWorld LockRet TickType) :=
  match lock.bind w.vars with
  | none => (w, .inl none)
  | some key =>
    let r := s31LockGive th key w
    (r.1, r.2.map (fun _ => none) (SyncCall.mapRet fun _ => none))

/-- The code of every entry point, by threads outside ISR context. -/
def lockCode :
    Entry { th : Thread // th.inIsr = false } MutexHandle LockWorld LockRet TickType LockOp
  | th, .lockAcquire lock, w => lockAcquireWith th.1 lock s31MutexNormal w
  | th, .lockAcquireRecursive lock, w => lockAcquireWith th.1 lock s31MutexRecursive w
  | th, .lockTryAcquire lock, w => lockTryAcquireWith th.1 lock s31MutexNormal w
  | th, .lockTryAcquireRecursive lock, w => lockTryAcquireWith th.1 lock s31MutexRecursive w
  | th, .lockRelease lock, w => lockReleaseVar th.1 lock w
  | th, .lockReleaseRecursive lock, w => lockReleaseVar th.1 lock w

/-- Address of `__lock___libc_recursive_mutex`. -/
def libcRecursiveMutex : LockKey := 1

/-- No lock has been used and the table is all zero. -/
def locksCleared : LockWorld where
  vars := fun _ => none
  table := List.replicate s31LockSlots ⟨none, none, 0⟩
  mutexes := fun _ => s31QueueInit 0 0 0 (fun _ => 0) none
  brk := 2

/-- The table after the start, with the mutex of the library. -/
def espLibcLocksInit : LockWorld :=
  (s31LockGet libcRecursiveMutex s31MutexRecursive locksCleared).1

end EspS31.Rtos
