import EspS31.Native.Shim

/-!
# The lock entry points and the bridge functions they call

The functions of `s31_linux_locks.c` over the shim, one entry point at a time, with
every answer the allocator and the bridge can give: a lock, a mutex or its context
may fail to be made.  `Native.Locks` is the model of the same functions for many
threads at once.
-/

namespace EspS31.Rtos

open SyncProtocol

/-- The shim, the lock variables and the table. -/
structure LockShim where
  shim : Shim
  vars : LockVar → Option LockKey
  table : List LockEntry

/-- What an entry point meets: its call of the shim, and the answers to the
    allocations of a lock, a mutex and a context. -/
structure LockEnv where
  call : CallEnv
  lock : Option LockKey
  block : Option MutexHandle
  ctx : Option BridgeHandle

namespace LockShim

/-- A call of the shim. -/
def call (th : Thread) (env : LockEnv) (w : LockShim) (c : ShimCall) : LockShim × List Use :=
  let r := perform th env.call w.shim c
  ({ w with shim := r.1 }, r.2)

/-- A lock variable written. -/
def setVar (w : LockShim) (lock : LockVar) (key : Option LockKey) : LockShim :=
  { w with vars := Function.update w.vars lock key }

/-- An entry of the table written. -/
def setEntry (w : LockShim) (i : Nat) (e : LockEntry) : LockShim :=
  { w with table := w.table.set i e }

/-- The mutex of a lock; a new one is entered into the first unused entry. -/
def s31LockGet (th : Thread) (env : LockEnv) (lock : Option LockKey) (type : UInt8)
    (w : LockShim) : LockShim × Option MutexHandle :=
  match lock with
  | none => (w, none)
  | some key =>
    match w.table.find? fun e => e.key = some key with
    | some e => (w, e.handle)
    | none =>
      match w.table.findIdx? fun e => e.key = none with
      | none => (w, none)
      | some i =>
        if env.block.isSome ∧ env.ctx.isSome then
          let w' := (w.call th env (.xQueueCreateMutex env.block env.ctx type)).1
          (w'.setEntry i ⟨lock, env.block, type⟩, env.block)
        else (w, none)

/-- A NULL key finds the first unused entry, whose handle is NULL. -/
def s31LockFind (lock : Option LockKey) (w : LockShim) : Option MutexHandle :=
  (w.table.find? fun e => e.key = lock).bind fun e => e.handle

/-- Takes a lock, with the calls of the bridge that this makes. -/
def s31LockTake (th : Thread) (env : LockEnv) (lock : Option LockKey) (timeout : TickType)
    (type : UInt8) (w : LockShim) : LockShim × List Use :=
  match w.s31LockGet th env lock type with
  | (w', none) => (w', [])
  | (w', some h) =>
    if th.inIsr then w'.call th env (.xQueueReceiveFromISR (some h) false none)
    else if type = s31MutexRecursive then
      w'.call th env (.xQueueTakeMutexRecursive (some h) timeout)
    else w'.call th env (.xQueueSemaphoreTake (some h) timeout)

/-- Gives a lock back, with the calls of the bridge that this makes. -/
def s31LockGive (th : Thread) (env : LockEnv) (lock : Option LockKey) (w : LockShim) :
    LockShim × List Use :=
  match w.s31LockFind lock with
  | none => (w, [])
  | some h =>
    if th.inIsr then w.call th env (.xQueueGiveFromISR (some h) none)
    else w.call th env (.xQueueGiveMutexRecursive (some h))

/-- Gives a variable its lock. -/
def lockInit (env : LockEnv) (lock : Option LockVar) (w : LockShim) : LockShim :=
  match lock with
  | none => w
  | some l => w.setVar l env.lock

/-- The mutex of the lock at `key` is deleted and its entry cleared. -/
def closeKey (th : Thread) (env : LockEnv) (key : LockKey) (w : LockShim) : LockShim × List Use :=
  match w.table.findIdx? fun e => e.key = some key with
  | none => (w, [])
  | some i =>
    let r := w.call th env (.vQueueDelete (w.table[i]?.bind fun e => e.handle))
    (r.1.setEntry i ⟨none, none, 0⟩, r.2)

/-- Closes the lock of a variable. -/
def lockClose (th : Thread) (env : LockEnv) (lock : Option LockVar) (w : LockShim) :
    LockShim × List Use :=
  match lock.bind fun l => (w.vars l).map fun key => (l, key) with
  | none => (w, [])
  | some (l, key) =>
    let r := w.closeKey th env key
    (r.1.setVar l none, r.2)

/-- `if (lock && !*lock) _lock_init(lock)` -/
def lockEnsure (env : LockEnv) (lock : Option LockVar) (w : LockShim) : LockShim :=
  if (lock.bind w.vars).isSome then w else lockInit env lock w

/-- The take of the four acquiring entry points. -/
def lockTakeVar (th : Thread) (env : LockEnv) (lock : Option LockVar) (timeout : TickType)
    (type : UInt8) (w : LockShim) : LockShim × List Use :=
  let w' := lockEnsure env lock w
  match lock.bind w'.vars with
  | none => (w', [])
  | some key => w'.s31LockTake th env (some key) timeout type

/-- Gives back the lock of a variable. -/
def lockReleaseVar (th : Thread) (env : LockEnv) (lock : Option LockVar) (w : LockShim) :
    LockShim × List Use :=
  match lock.bind w.vars with
  | none => (w, [])
  | some key => w.s31LockGive th env (some key)

/-- `_lock_init`, and the mutex if the lock could be made. -/
def retargetInit (th : Thread) (env : LockEnv) (lock : Option LockVar) (type : UInt8)
    (w : LockShim) : LockShim × List Use :=
  let w' := lockInit env lock w
  match lock.bind w'.vars with
  | none => (w', [])
  | some key => ((w'.s31LockGet th env (some key) type).1, [])

/-- The table is cleared and the mutex of one lock made, if that is possible. -/
def espLibcLocksInit (th : Thread) (env : LockEnv) (w : LockShim) : LockShim × Option MutexHandle :=
  let cleared := { w with table := List.replicate s31LockSlots ⟨none, none, 0⟩ }
  cleared.s31LockGet th env (some libcRecursiveMutex) s31MutexRecursive

end LockShim

/-- The entry points on lock variables, then those on locks. -/
inductive LockEntryPoint where
  | lockInit (lock : Option LockVar)
  | lockInitRecursive (lock : Option LockVar)
  | lockClose (lock : Option LockVar)
  | lockCloseRecursive (lock : Option LockVar)
  | lockAcquire (lock : Option LockVar)
  | lockAcquireRecursive (lock : Option LockVar)
  | lockTryAcquire (lock : Option LockVar)
  | lockTryAcquireRecursive (lock : Option LockVar)
  | lockRelease (lock : Option LockVar)
  | lockReleaseRecursive (lock : Option LockVar)
  | retargetLockInit (lock : Option LockVar)
  | retargetLockInitRecursive (lock : Option LockVar)
  | retargetLockClose (lock : Option LockKey)
  | retargetLockCloseRecursive (lock : Option LockKey)
  | retargetLockAcquire (lock : Option LockKey)
  | retargetLockAcquireRecursive (lock : Option LockKey)
  | retargetLockTryAcquire (lock : Option LockKey)
  | retargetLockTryAcquireRecursive (lock : Option LockKey)
  | retargetLockRelease (lock : Option LockKey)
  | retargetLockReleaseRecursive (lock : Option LockKey)
deriving DecidableEq, Repr

/-- One lock entry point, run to its end by a thread. -/
def performLock (th : Thread) (env : LockEnv) (w : LockShim) : LockEntryPoint → LockShim × List Use
  | .lockInit lock => (w.lockInit env lock, [])
  | .lockInitRecursive lock => (w.lockInit env lock, [])
  | .lockClose lock => w.lockClose th env lock
  | .lockCloseRecursive lock => w.lockClose th env lock
  | .lockAcquire lock => w.lockTakeVar th env lock portMAX_DELAY s31MutexNormal
  | .lockAcquireRecursive lock => w.lockTakeVar th env lock portMAX_DELAY s31MutexRecursive
  | .lockTryAcquire lock => w.lockTakeVar th env lock 0 s31MutexNormal
  | .lockTryAcquireRecursive lock => w.lockTakeVar th env lock 0 s31MutexRecursive
  | .lockRelease lock => w.lockReleaseVar th env lock
  | .lockReleaseRecursive lock => w.lockReleaseVar th env lock
  | .retargetLockInit lock => w.retargetInit th env lock s31MutexNormal
  | .retargetLockInitRecursive lock => w.retargetInit th env lock s31MutexRecursive
  -- the closing functions clear their own copy of the lock
  | .retargetLockClose lock | .retargetLockCloseRecursive lock =>
    match lock with
    | none => (w, [])
    | some key => w.closeKey th env key
  | .retargetLockAcquire lock => w.s31LockTake th env lock portMAX_DELAY s31MutexNormal
  | .retargetLockAcquireRecursive lock => w.s31LockTake th env lock portMAX_DELAY s31MutexRecursive
  | .retargetLockTryAcquire lock => w.s31LockTake th env lock 0 s31MutexNormal
  | .retargetLockTryAcquireRecursive lock => w.s31LockTake th env lock 0 s31MutexRecursive
  | .retargetLockRelease lock => w.s31LockGive th env lock
  | .retargetLockReleaseRecursive lock => w.s31LockGive th env lock

end EspS31.Rtos
