import EspS31.Native.ShimLocks
import EspS31.Spec.LockExclusion

/-!
# The two models of the lock functions

`Native.Locks` runs the lock functions in many threads at once and lets every
allocation succeed; `Native.ShimLocks` runs one entry point at a time, with every answer
the allocator and the bridge can give.  Run one after the other and with the answers of
the first, both leave the same variables, table and mutexes and call the same functions
of the bridge.

## Key results

- `SameLocks.lockGet`, `SameLocks.mutexCall`: the table, and a call on a mutex
- `SameLocks.perform`: an entry point in both models
- `sequence_same`: any sequence of entry points
-/

namespace EspS31.Rtos

open SyncProtocol

/-- The variables and the table are the same, and so are the mutexes in the table, all of
    which are at addresses that the heap has handed out. -/
structure SameLocks (w : LockWorld) (ls : LockShim) : Prop where
  vars : ls.vars = w.vars
  table : ls.table = w.table
  mutexes : ∀ e ∈ w.table, ∀ h, e.handle = some h →
    h < w.brk ∧ ls.shim.queues h = some (w.mutexes h)

/-- The answers of the allocator and the bridge in `Native.Locks`. -/
def answers (call : CallEnv) (w : LockWorld) (lock : Option LockVar) : LockEnv :=
  let b := match lock with
    | none => w.brk
    | some l => (lockEnsure l w).brk
  ⟨call, some w.brk, some b, some b⟩

/-- The function a use is of. -/
def Use.fn : Use → Option SyncFn
  | .sync fn _ _ => some fn
  | _ => none

/-- An entry point with nothing else running: the functions of the bridge it calls and
    the state it leaves. -/
def runAlone {ρ : Type} (call : CallEnv) :
    LockWorld × (ρ ⊕ SyncCall MutexHandle LockWorld ρ TickType) → List SyncFn × LockWorld
  | (w, .inl _) => ([], w)
  | (w, .inr c) =>
    let r := c.alone call.start call.clock call.woken w
    (r.1, r.2.1)

/-- Mapping the result leaves what a call does alone. -/
private theorem runAlone_map {ρ ρ' : Type} (call : CallEnv) (f : ρ → ρ') (w : LockWorld)
    (r : ρ ⊕ SyncCall MutexHandle LockWorld ρ TickType) :
    runAlone call (w, r.map f (SyncCall.mapRet f)) = runAlone call (w, r) := by
  cases r with
  | inl ret => rfl
  | inr c =>
    simp only [Sum.map_inr, runAlone, SyncCall.alone_mapRet]

section

variable {w : LockWorld} {ls : LockShim} {th : Thread} {env : LockEnv}

/-- What both models leave and call. -/
def Agree (r : List SyncFn × LockWorld) (r' : LockShim × List Use) : Prop :=
  SameLocks r.2 r'.1 ∧ r'.2.filterMap Use.fn = r.1

/-! ## A call on a mutex -/

/-- A mutex changes in both. -/
theorem SameLocks.setMutex (hsame : SameLocks w ls) (h : MutexHandle) (q : S31Queue)
    (contexts : List BridgeHandle) :
    SameLocks (LockWorld.setMutex h w q)
      { ls with shim := { ls.shim with
          queues := Function.update ls.shim.queues h (some q), contexts := contexts } } where
  vars := hsame.vars
  table := hsame.table
  mutexes e he h' hh' := by
    obtain ⟨hlt, hq⟩ := hsame.mutexes e he h' hh'
    refine ⟨hlt, ?_⟩
    by_cases heq : h' = h
    · simp [LockWorld.setMutex, heq]
    · simp [LockWorld.setMutex, heq, hq]

/-- A queue function on the mutex of an entry: its context is another one in the two
    models, and what it does is the same. -/
theorem SameLocks.mutexCall (hsame : SameLocks w ls) (env : CallEnv) {e : LockEntry}
    (he : e ∈ w.table) {h : MutexHandle} (hh : e.handle = some h)
    {f : S31Queue → Ret ⊕ SyncCall MutexHandle S31Queue Ret TickType}
    {g : S31Queue → Ret ⊕ SyncCall (Option BridgeHandle) S31Queue Ret TickType}
    (hfg : ∀ q, g q = (f q).map id (SyncCall.withCtx q.waitContext)) :
    Agree (runAlone env (w, onMutex h f w))
      ({ ls with shim := (queueCall env (some h) g ls.shim).1 },
        (queueCall env (some h) g ls.shim).2) := by
  obtain ⟨-, hq⟩ := hsame.mutexes e he h hh
  have hg := hfg (w.mutexes h)
  unfold queueCall onMutex
  simp only [Option.bind_some, hq, Option.map_some, hg]
  cases f (w.mutexes h) with
  | inl ret => exact ⟨hsame, rfl⟩
  | inr c =>
    have halone (w : LockWorld) :
        (c.zoom (fun w => w.mutexes h) (LockWorld.setMutex h)).alone env.start env.clock
          env.woken w = _ :=
      SyncCall.alone_zoom (fun w q q' => by simp [LockWorld.setMutex])
        (fun w q => by simp [LockWorld.setMutex]) env.woken w
    -- on the mutex alone both models run the same call
    simp only [Sum.map_inr, runAlone, halone, Shim.runCall, SyncCall.alone_withCtx]
    refine ⟨hsame.setMutex h _ ls.shim.contexts, ?_⟩
    rw [List.filterMap_map]
    exact List.filterMap_some

/-! ## The table -/

/-- A new entry, with a mutex that is made in both at the next address. -/
theorem SameLocks.added (hsame : SameLocks w ls) (th : Thread) (hblock : env.block = some w.brk)
    (hctx : env.ctx = some w.brk) (i : Nat) (key : LockKey) (type : UInt8) :
    SameLocks
      { (w.createMutex type).1 with table := w.table.set i ⟨some key, some w.brk, type⟩ }
      ((ls.call th env (.xQueueCreateMutex env.block env.ctx type)).1.setEntry i
        ⟨some key, some w.brk, type⟩) where
  vars := hsame.vars
  table := congrArg (fun table => table.set i ⟨some key, some w.brk, type⟩) hsame.table
  mutexes e he h hh := by
    simp only [LockShim.setEntry, LockShim.call, perform, hblock, hctx, Shim.putQueue, Shim.create,
      LockWorld.createMutex, xQueueCreateMutex, s31QueueInit, Option.bind_some, Option.isSome_some,
      if_true]
    obtain hold | rfl := List.mem_or_eq_of_mem_set he
    · -- a mutex made earlier is at another address
      obtain ⟨hlt, hq⟩ := hsame.mutexes e hold h hh
      have hne : h ≠ w.brk := Nat.ne_of_lt hlt
      exact ⟨Nat.lt_succ_of_lt hlt, by simp [hne, hq]⟩
    · obtain rfl := Option.some.inj hh
      exact ⟨Nat.lt_succ_self _, by simp⟩

/-- The entry of a key, found or new. -/
theorem SameLocks.lockGet (hsame : SameLocks w ls) (th : Thread) (hblock : env.block = some w.brk)
    (hctx : env.ctx = some w.brk) (key : LockKey) (type : UInt8) :
    SameLocks (s31LockGet key type w).1 (ls.s31LockGet th env (some key) type).1 ∧
      (ls.s31LockGet th env (some key) type).2 = (s31LockGet key type w).2 ∧
      ∀ h, (s31LockGet key type w).2 = some h →
        ∃ e ∈ (s31LockGet key type w).1.table, e.handle = some h := by
  cases hfind : w.table.find? fun e => e.key = some key with
  -- the lock has an entry in both tables
  | some e =>
    have hw : s31LockGet key type w = (w, e.handle) := by simp only [s31LockGet, hfind]
    have hls : ls.s31LockGet th env (some key) type = (ls, e.handle) := by
      simp only [LockShim.s31LockGet, hsame.table, hfind]
    rw [hw, hls]
    exact ⟨hsame, rfl, fun h hh => ⟨e, List.mem_of_find?_eq_some hfind, hh⟩⟩
  -- it has none: a free entry is looked for in both
  | none =>
    cases hfree : w.table.findIdx? fun e => e.key = none with
    | none =>
      have hw : s31LockGet key type w = (w, none) := by simp only [s31LockGet, hfind, hfree]
      have hls : ls.s31LockGet th env (some key) type = (ls, none) := by
        simp only [LockShim.s31LockGet, hsame.table, hfind, hfree]
      rw [hw, hls]
      exact ⟨hsame, rfl, nofun⟩
    -- the mutex made is put there
    | some i =>
      have hw : s31LockGet key type w =
          ({ (w.createMutex type).1 with table := w.table.set i ⟨some key, some w.brk, type⟩ },
            some w.brk) := by
        simp only [s31LockGet, hfind, hfree]
        rfl
      have hls : ls.s31LockGet th env (some key) type =
          ((ls.call th env (.xQueueCreateMutex env.block env.ctx type)).1.setEntry i
            ⟨some key, some w.brk, type⟩, some w.brk) := by
        have hboth : env.block.isSome ∧ env.ctx.isSome := by simp [hblock, hctx]
        simp only [LockShim.s31LockGet, hsame.table, hfind, hfree, if_pos hboth]
        rw [hblock]
      rw [hw, hls]
      have hi := (List.findIdx?_eq_some_iff_getElem.mp hfree).1
      refine ⟨hsame.added th hblock hctx i key type, rfl, fun h hh => ?_⟩
      exact ⟨⟨some key, some w.brk, type⟩, List.mem_set hi _, hh⟩

/-- A lookup. -/
theorem SameLocks.lockFind (hsame : SameLocks w ls) (key : LockKey) :
    ls.s31LockFind (some key) = s31LockFind key w := by
  rw [LockShim.s31LockFind, s31LockFind, hsame.table]

/-! ## Entry points -/

/-- The take of a mutex of the table. -/
theorem SameLocks.lockTake (hsame : SameLocks w ls) (hisr : th.inIsr = false)
    (hblock : env.block = some w.brk) (hctx : env.ctx = some w.brk) (key : LockKey)
    (timeout : TickType) (type : UInt8) :
    Agree (runAlone env.call (s31LockTake th key timeout type w))
      (ls.s31LockTake th env (some key) timeout type) := by
  obtain ⟨hgot, hhandle, hentry⟩ := hsame.lockGet th hblock hctx key type
  unfold s31LockTake LockShim.s31LockTake
  generalize s31LockGet key type w = r at hgot hhandle hentry
  generalize ls.s31LockGet th env (some key) type = r' at hgot hhandle
  obtain ⟨w', handle⟩ := r
  obtain ⟨ls', handle'⟩ := r'
  obtain rfl : handle' = handle := hhandle
  cases handle' with
  | none => exact ⟨hgot, rfl⟩
  | some h =>
    -- the mutex is in the table by now, so both models call the same function on it
    obtain ⟨e, he, hh⟩ := hentry h rfl
    simp only [hisr, Bool.false_eq_true, if_false, runAlone_map]
    split
    · exact hgot.mutexCall env.call he hh (g := fun q =>
        xQueueTakeMutexRecursive th q.waitContext timeout q) fun q => by
          simp only [xQueueTakeMutexRecursive, xQueueSemaphoreTake]
          split <;> rfl
    · exact hgot.mutexCall env.call he hh (g := fun q =>
        xQueueSemaphoreTake th q.waitContext timeout q) fun q => by
          simp only [xQueueSemaphoreTake]
          split <;> rfl

/-- The give of a mutex of the table. -/
theorem SameLocks.lockGive (hsame : SameLocks w ls) (hisr : th.inIsr = false) (key : LockKey) :
    Agree (runAlone env.call (s31LockGive th key w)) (ls.s31LockGive th env (some key)) := by
  unfold s31LockGive LockShim.s31LockGive
  rw [hsame.lockFind]
  cases hfind : s31LockFind key w with
  | none => exact ⟨hsame, rfl⟩
  | some h =>
    obtain ⟨e, hentry, hh⟩ := Option.bind_eq_some_iff.mp hfind
    simp only [hisr, Bool.false_eq_true, if_false, runAlone_map]
    exact hsame.mutexCall env.call (List.mem_of_find?_eq_some hentry) hh (g := fun q =>
      xQueueGiveMutexRecursive th q.waitContext q) fun q => by
        simp only [xQueueGiveMutexRecursive]
        split <;> rfl

/-- A lock is made at its first use. -/
theorem SameLocks.lockEnsure (hsame : SameLocks w ls) (hlock : env.lock = some w.brk)
    (l : LockVar) : SameLocks (Rtos.lockEnsure l w) (ls.lockEnsure env (some l)) := by
  unfold Rtos.lockEnsure LockShim.lockEnsure
  rw [Option.bind_some, hsame.vars]
  cases hvar : w.vars l with
  | some key =>
    rw [if_neg (by simp), if_pos Option.isSome_some]
    exact hsame
  | none =>
    rw [if_pos rfl, if_neg (by simp)]
    refine ⟨?_, hsame.table, fun e he h hh => ?_⟩
    · simp only [LockShim.lockInit, LockShim.setVar, Rtos.lockInit, hlock, hsame.vars]
    · obtain ⟨hlt, hq⟩ := hsame.mutexes e he h hh
      exact ⟨Nat.lt_succ_of_lt hlt, hq⟩

/-- The take of the acquiring entry points. -/
theorem SameLocks.lockTakeVar (hsame : SameLocks w ls) (call : CallEnv) (hisr : th.inIsr = false)
    (lock : Option LockVar) (timeout : TickType) (type : UInt8) :
    Agree (runAlone call (Rtos.lockTakeVar th lock timeout type w))
      (ls.lockTakeVar th (answers call w lock) lock timeout type) := by
  cases lock with
  | none => exact ⟨hsame, rfl⟩
  | some l =>
    have hensured : SameLocks (Rtos.lockEnsure l w)
        (ls.lockEnsure (answers call w (some l)) (some l)) := hsame.lockEnsure rfl l
    unfold Rtos.lockTakeVar LockShim.lockTakeVar
    -- the variable has the same key in both models
    simp only [Option.bind_some, hensured.vars]
    cases (Rtos.lockEnsure l w).vars l with
    | none => exact ⟨hensured, rfl⟩
    | some key =>
      have hblock : (answers call w (some l)).block = some (Rtos.lockEnsure l w).brk := rfl
      exact hensured.lockTake hisr hblock rfl key timeout type

/-- The give of the releasing entry points. -/
theorem SameLocks.lockReleaseVar (hsame : SameLocks w ls) (env : LockEnv) (hisr : th.inIsr = false)
    (lock : Option LockVar) :
    Agree (runAlone env.call (Rtos.lockReleaseVar th lock w)) (ls.lockReleaseVar th env lock) := by
  unfold Rtos.lockReleaseVar LockShim.lockReleaseVar
  rw [hsame.vars]
  cases lock.bind w.vars with
  | none => exact ⟨hsame, rfl⟩
  | some key =>
    simp only [runAlone_map]
    exact hsame.lockGive hisr key

/-! ## Sequences -/

/-- The entry point in the words of the other model. -/
def LockOp.entryPoint : LockOp → LockEntryPoint
  | .lockAcquire lock => .lockAcquire lock
  | .lockAcquireRecursive lock => .lockAcquireRecursive lock
  | .lockTryAcquire lock => .lockTryAcquire lock
  | .lockTryAcquireRecursive lock => .lockTryAcquireRecursive lock
  | .lockRelease lock => .lockRelease lock
  | .lockReleaseRecursive lock => .lockReleaseRecursive lock

/-- One entry point, with nothing else running. -/
theorem SameLocks.perform (hsame : SameLocks w ls) (call : CallEnv)
    (th : { th : Thread // th.inIsr = false }) (op : LockOp) :
    Agree (runAlone call (lockCode th op w))
      (performLock th.1 (answers call w op.lock) ls op.entryPoint) := by
  cases op with
  | lockAcquire lock | lockAcquireRecursive lock =>
    have hrun := hsame.lockTakeVar call th.2 lock portMAX_DELAY
    simp only [lockCode, lockAcquireWith, runAlone_map]
    exact hrun _
  | lockTryAcquire lock | lockTryAcquireRecursive lock =>
    simp only [lockCode, lockTryAcquireWith, runAlone_map]
    exact hsame.lockTakeVar call th.2 lock 0 _
  | lockRelease lock | lockReleaseRecursive lock =>
    exact hsame.lockReleaseVar (answers call w lock) th.2 lock

end

/-- Entry points one after the other in `Native.Locks`. -/
def runLocks (w : LockWorld) : List ({ th : Thread // th.inIsr = false } × CallEnv × LockOp) →
    List SyncFn × LockWorld
  | [] => ([], w)
  | (th, call, op) :: calls =>
    let r := runAlone call (lockCode th op w)
    let rest := runLocks r.2 calls
    (r.1 ++ rest.1, rest.2)

/-- The same in `Native.ShimLocks`, with the answers of `Native.Locks`. -/
def runShimLocks (w : LockWorld) (ls : LockShim) :
    List ({ th : Thread // th.inIsr = false } × CallEnv × LockOp) → LockShim × List Use
  | [] => (ls, [])
  | (th, call, op) :: calls =>
    let r := performLock th.1 (answers call w op.lock) ls op.entryPoint
    let rest := runShimLocks (runAlone call (lockCode th op w)).2 r.1 calls
    (rest.1, r.2 ++ rest.2)

/-- Any entry points one after the other leave the same and call the same. -/
theorem sequence_same {w : LockWorld} {ls : LockShim} (hsame : SameLocks w ls)
    (calls : List ({ th : Thread // th.inIsr = false } × CallEnv × LockOp)) :
    Agree (runLocks w calls) (runShimLocks w ls calls) := by
  induction calls generalizing w ls with
  | nil => exact ⟨hsame, rfl⟩
  | cons c calls ih =>
    obtain ⟨th, call, op⟩ := c
    obtain ⟨hnext, hfns⟩ := hsame.perform call th op
    obtain ⟨hlast, hrest⟩ := ih hnext
    refine ⟨hlast, ?_⟩
    simp only [runShimLocks, runLocks, List.filterMap_append, hfns, hrest]

/-- After `esp_libc_locks_init` both have one mutex, that of libc. -/
theorem sameLocks_init (th : Thread) (call : CallEnv) (table : List LockEntry) :
    SameLocks espLibcLocksInit
      (LockShim.espLibcLocksInit th (answers call locksCleared none)
        ⟨s31RtosInit, fun _ => none, table⟩).1 := by
  have hcleared : SameLocks locksCleared
      ⟨s31RtosInit, fun _ => none, List.replicate s31LockSlots ⟨none, none, 0⟩⟩ := by
    refine ⟨rfl, rfl, fun e he h hh => ?_⟩
    obtain rfl := List.eq_of_mem_replicate he
    exact nomatch hh
  exact (hcleared.lockGet th rfl rfl libcRecursiveMutex s31MutexRecursive).1

end EspS31.Rtos
