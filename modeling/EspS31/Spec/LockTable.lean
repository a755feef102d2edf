import EspS31.ForStd.SlotTable
import EspS31.Native.ShimLocks

/-!
# The lock table

The table of `s31_linux_locks.c` maps the addresses of locks to mutexes.  Locks
are allocated and freed, so an address may name one lock after another; entries
are made when a lock is first used and cleared when it is closed.  The allocator
may fail, and may hand out again what was freed.

Whoever acquires a lock has one that exists: a static one, or one that was
allocated and not closed since.

## Key results

- `TableInv.get`, `TableInv.close`, `TableInv.alloc`: what `s31_lock_get`, a close and
  an allocation keep
- `TableInv.perform`: every entry point keeps the invariant
- `lock_table_integrity`: the table after any number of entry points
-/

namespace EspS31.Rtos.LockTable

open SlotTable

/-- Static locks, which are never freed; `__lock___libc_recursive_mutex` is one. -/
abbrev StaticLocks := { s : LockKey → Prop // s libcRecursiveMutex }

/-- The world after some entry points, with the locks on the heap and what
    `s31_lock_get` has last returned for each lock since it was allocated. -/
structure Locks where
  world : LockShim
  heap : List LockKey
  last : LockKey → Option MutexHandle

/-- There is a lock at the address. -/
def Locks.Exists (statics : StaticLocks) (x : Locks) (k : LockKey) : Prop :=
  k ∈ x.heap ∨ statics.1 k

/-- The mutex has been created and not deleted. -/
def Locks.Alive (x : Locks) (h : MutexHandle) : Prop := (x.world.shim.queues h).isSome

/-! ## What an entry point does to the locks -/

/-- The lock an entry point allocates, if the allocator has one. -/
def allocates (env : LockEnv) (w : LockShim) : LockEntryPoint → Option LockKey
  | .lockInit lock | .lockInitRecursive lock | .retargetLockInit lock
  | .retargetLockInitRecursive lock => if lock.isSome then env.lock else none
  | .lockAcquire lock | .lockAcquireRecursive lock | .lockTryAcquire lock
  | .lockTryAcquireRecursive lock =>
    if lock.isSome ∧ (lock.bind w.vars).isNone then env.lock else none
  | _ => none

/-- The lock an entry point frees. -/
def frees (w : LockShim) : LockEntryPoint → Option LockKey
  | .lockClose lock | .lockCloseRecursive lock => lock.bind w.vars
  | .retargetLockClose lock | .retargetLockCloseRecursive lock => lock
  | _ => none

/-- The type of mutex an entry point asks `s31_lock_get` for. -/
def getType : LockEntryPoint → UInt8
  | .lockAcquireRecursive _ | .lockTryAcquireRecursive _ | .retargetLockInitRecursive _
  | .retargetLockAcquireRecursive _ | .retargetLockTryAcquireRecursive _ => s31MutexRecursive
  | _ => s31MutexNormal

/-- The world and the lock with which an entry point calls `s31_lock_get`. -/
def getCall (env : LockEnv) (w : LockShim) : LockEntryPoint → Option (LockShim × LockKey)
  | .lockAcquire lock | .lockAcquireRecursive lock | .lockTryAcquire lock
  | .lockTryAcquireRecursive lock =>
    (lock.bind (w.lockEnsure env lock).vars).map fun k => (w.lockEnsure env lock, k)
  | .retargetLockInit lock | .retargetLockInitRecursive lock =>
    (lock.bind (w.lockInit env lock).vars).map fun k => (w.lockInit env lock, k)
  | .retargetLockAcquire lock | .retargetLockAcquireRecursive lock | .retargetLockTryAcquire lock
  | .retargetLockTryAcquireRecursive lock => lock.map fun k => (w, k)
  | _ => none

/-- A new lock: nothing has been returned for it. -/
def Locks.alloc (x : Locks) : Option LockKey → Locks
  | none => x
  | some k => { x with heap := k :: x.heap, last := Function.update x.last k none }

/-- The lock is gone, and what was returned for it means nothing any more. -/
def Locks.free (x : Locks) : Option LockKey → Locks
  | none => x
  | some k => { x with
      heap := x.heap.filter fun k' => k' ≠ k
      last := Function.update x.last k none }

/-- `s31_lock_get` has returned `h` for the lock at `k`. -/
def Locks.returned (x : Locks) (k : LockKey) (h : Option MutexHandle) : Locks :=
  { x with last := Function.update x.last k h }

/-- One entry point. -/
def Locks.perform (th : Thread) (env : LockEnv) (x : Locks) (op : LockEntryPoint) : Locks :=
  let made := (x.alloc (allocates env x.world op)).free (frees x.world op)
  let got := match getCall env x.world op with
    | none => made
    | some (w, k) => made.returned k (w.s31LockGet th env (some k) (getType op)).2
  { got with world := (performLock th env x.world op).1 }

/-- The lock in the variable, if there is one, exists. -/
def VarExists (statics : StaticLocks) (x : Locks) (lock : Option LockVar) : Prop :=
  ∀ k, lock.bind x.world.vars = some k → x.Exists statics k

/-- A lock that a caller acquires exists. -/
def Admissible (statics : StaticLocks) (x : Locks) : LockEntryPoint → Prop
  | .lockAcquire lock | .lockAcquireRecursive lock | .lockTryAcquire lock
  | .lockTryAcquireRecursive lock => VarExists statics x lock
  | .retargetLockAcquire lock | .retargetLockAcquireRecursive lock | .retargetLockTryAcquire lock
  | .retargetLockTryAcquireRecursive lock => ∀ k, lock = some k → x.Exists statics k
  | _ => True

/-- The allocator hands out nothing that is in use. -/
structure Fresh (statics : StaticLocks) (x : Locks) (env : LockEnv) : Prop where
  lock : ∀ k, env.lock = some k → ¬ x.Exists statics k
  block : ∀ b, env.block = some b → x.world.shim.queues b = none

/-! ## The invariant -/

/-- The table agrees with the mutexes, the locks and what has been returned. -/
structure TableInv (statics : StaticLocks) (x : Locks) : Prop where
  slots : x.world.table.length = s31LockSlots
  keys : DistinctKeys LockEntry.key x.world.table
  handles : DistinctKeys LockEntry.handle x.world.table
  occupied : ∀ e ∈ x.world.table, e.key ≠ none → ∃ h, e.handle = some h ∧ x.Alive h
  unused : ∀ e ∈ x.world.table, e.key = none → e.handle = none
  known : ∀ e ∈ x.world.table, ∀ k, e.key = some k → x.Exists statics k
  found : ∀ k, x.Exists statics k → x.world.s31LockFind (some k) = x.last k

section

variable {statics : StaticLocks} {x x' : Locks} {th : Thread} {env : LockEnv} {k : LockKey}

/-- Only the table, the mutexes, the locks and what was returned for them matter. -/
theorem TableInv.congr (h : TableInv statics x) (htable : x'.world.table = x.world.table)
    (halive : ∀ h, x.Alive h → x'.Alive h) (hexists : ∀ k, x'.Exists statics k ↔ x.Exists statics k)
    (hlast : x'.last = x.last) : TableInv statics x' where
  slots := htable ▸ h.slots
  keys := htable ▸ h.keys
  handles := htable ▸ h.handles
  occupied e he hkey := by
    rw [htable] at he
    obtain ⟨m, hm, hlive⟩ := h.occupied e he hkey
    exact ⟨m, hm, halive m hlive⟩
  unused e he := h.unused e (htable ▸ he)
  known e he k hkey := (hexists k).mpr (h.known e (htable ▸ he) k hkey)
  found k hk := by
    rw [LockShim.s31LockFind, htable, hlast]
    exact h.found k ((hexists k).mp hk)

/-- No entry is left of a lock that does not exist. -/
theorem TableInv.not_keyAt (h : TableInv statics x) (hk : ¬ x.Exists statics k) (i : Nat) :
    keyAt LockEntry.key x.world.table i ≠ some k := by
  intro hi
  obtain ⟨e, he, hkey⟩ := keyAt_eq_some.mp hi
  exact hk (h.known e (List.mem_of_getElem? he) k hkey)

/-- A key that no entry has is not found. -/
private theorem find_none_of_not_keyAt {w : LockShim}
    (hno : ∀ i, keyAt LockEntry.key w.table i ≠ some k) : w.s31LockFind (some k) = none := by
  rw [LockShim.s31LockFind, find_eq_none_iff.mpr hno]
  rfl

/-- A new lock at an address where there was none. -/
theorem TableInv.alloc (h : TableInv statics x) {w : LockShim} {new : Option LockKey}
    (hnew : ∀ k, new = some k → ¬ x.Exists statics k) (htable : w.table = x.world.table)
    (hshim : w.shim = x.world.shim) : TableInv statics { x.alloc new with world := w } := by
  cases new with
  | none => exact h.congr htable (fun m hm => by simpa only [Locks.Alive, hshim]) (fun _ => .rfl) rfl
  | some k =>
    have hk := hnew k rfl
    refine ⟨htable ▸ h.slots, htable ▸ h.keys, htable ▸ h.handles, ?_, ?_, ?_, ?_⟩
    · intro e he hkey
      obtain ⟨m, hm, hlive⟩ := h.occupied e (htable ▸ he) hkey
      exact ⟨m, hm, by simpa only [Locks.Alive, hshim]⟩
    · exact fun e he => h.unused e (htable ▸ he)
    · exact fun e he k' hk' => (h.known e (htable ▸ he) k' hk').imp (List.mem_cons_of_mem _) id
    · intro k' hk'
      show w.s31LockFind (some k') = Function.update x.last k none k'
      by_cases heq : k' = k
      · -- the address has no entry, whatever lock was there before
        subst heq
        rw [Function.update_self]
        exact find_none_of_not_keyAt (htable ▸ h.not_keyAt hk)
      · rw [Function.update_of_ne heq, LockShim.s31LockFind, htable]
        refine h.found k' (hk'.imp (fun hmem => ?_) id)
        exact (List.mem_cons.mp hmem).resolve_left heq

/-! ## `s31_lock_get` -/

/-- A mutex the table may hold has been made. -/
private theorem createMutex_queues (th : Thread) (w : LockShim) {b : MutexHandle} {c : BridgeHandle}
    (type : UInt8) (hblock : env.block = some b) (hctx : env.ctx = some c) :
    ∃ q, (w.call th env (.xQueueCreateMutex env.block env.ctx type)).1.shim.queues =
      Function.update w.shim.queues b (some q) := by
  rw [hblock, hctx]
  exact ⟨_, rfl⟩

/-- `s31_lock_get` finds the lock, fails and changes nothing, or enters a new mutex
    into an unused entry. -/
theorem s31LockGet_cases (th : Thread) (env : LockEnv) (w : LockShim) (k : LockKey) (type : UInt8) :
    (∃ e, w.table.find? (fun e => e.key = some k) = some e ∧
      w.s31LockGet th env (some k) type = (w, e.handle)) ∨
    (w.table.find? (fun e => e.key = some k) = none ∧
      w.s31LockGet th env (some k) type = (w, none)) ∨
    (w.table.find? (fun e => e.key = some k) = none ∧
      ∃ i b w', i < w.table.length ∧ keyAt LockEntry.key w.table i = none ∧ env.block = some b ∧
        w.s31LockGet th env (some k) type = (w', some b) ∧
        w'.table = w.table.set i ⟨some k, some b, type⟩ ∧ w'.vars = w.vars ∧
        ∃ q, w'.shim.queues = Function.update w.shim.queues b (some q)) := by
  cases hfind : w.table.find? (fun e => e.key = some k) with
  | some e => exact .inl ⟨e, rfl, by simp only [LockShim.s31LockGet, hfind]⟩
  | none =>
    -- an unknown key needs an empty entry, and memory for its mutex
    cases hfree : w.table.findIdx? (fun e => e.key = none) with
    | none => exact .inr (.inl ⟨rfl, by simp only [LockShim.s31LockGet, hfind, hfree]⟩)
    | some i =>
      -- the mutex can be made, or the lock has none
      by_cases hmade : env.block.isSome ∧ env.ctx.isSome
      · obtain ⟨b, hb⟩ := Option.isSome_iff_exists.mp hmade.1
        obtain ⟨c, hc⟩ := Option.isSome_iff_exists.mp hmade.2
        obtain ⟨q, hq⟩ := createMutex_queues th w type hb hc
        obtain ⟨hi, hkey, -⟩ := List.findIdx?_eq_some_iff_getElem.mp hfree
        have hget : w.s31LockGet th env (some k) type =
            ((w.call th env (.xQueueCreateMutex env.block env.ctx type)).1.setEntry i
              ⟨some k, some b, type⟩, some b) := by
          simp only [LockShim.s31LockGet, hfind, hfree, if_pos hmade]
          rw [hb]
        refine .inr (.inr ⟨rfl, i, b, _, hi, ?_, hb, hget, rfl, rfl, q, hq⟩)
        simp only [keyAt, List.getElem?_eq_getElem hi, Option.bind_some]
        exact of_decide_eq_true hkey
      · exact .inr (.inl ⟨rfl, by simp only [LockShim.s31LockGet, hfind, hfree, if_neg hmade]⟩)

/-- A lock and its mutex after `s31_lock_get`. -/
theorem TableInv.get (h : TableInv statics x) (th : Thread) (hk : x.Exists statics k)
    (hblock : ∀ b, env.block = some b → x.world.shim.queues b = none) (type : UInt8) :
    TableInv statics { x.returned k (x.world.s31LockGet th env (some k) type).2 with
      world := (x.world.s31LockGet th env (some k) type).1 } := by
  obtain ⟨e, hfind, hget⟩ | ⟨hfind, hget⟩ |
    ⟨hfind, i, b, w', hi, hfree, hb, hget, htable, -, q, hq⟩ :=
    s31LockGet_cases th env x.world k type
  · -- the entry is there: what is returned is what was returned before
    have hlast : x.last k = e.handle := by
      rw [← h.found k hk, LockShim.s31LockFind, hfind]
      rfl
    rw [hget]
    exact h.congr rfl (fun _ => id) (fun _ => .rfl) (by
      simp only [Locks.returned, ← hlast, Function.update_eq_self])
  -- the lock gets no mutex: none is returned, as before
  · have hlast : x.last k = none := by
      rw [← h.found k hk, LockShim.s31LockFind, hfind]
      rfl
    rw [hget]
    exact h.congr rfl (fun _ => id) (fun _ => .rfl) (by
      simp only [Locks.returned, ← hlast, Function.update_eq_self])
  · have hnew := find_eq_none_iff.mp hfind
    -- the new mutex is in no other entry, for those hold mutexes that are alive
    have hbnew : ∀ j, keyAt LockEntry.handle x.world.table j ≠ some b := by
      intro j hj
      obtain ⟨e, he, hhandle⟩ := keyAt_eq_some.mp hj
      have hmem := List.mem_of_getElem? he
      cases hkey : e.key with
      | none => exact nomatch hhandle.symm.trans (h.unused e hmem hkey)
      | some k' =>
        obtain ⟨m, hm, hlive⟩ := h.occupied e hmem (by rw [hkey]; exact nofun)
        obtain rfl := Option.some.inj (hm.symm.trans hhandle)
        rw [Locks.Alive, hblock m hb] at hlive
        exact nomatch hlive
    -- the mutexes that were there are still there
    have halive : ∀ m, x.Alive m → (w'.shim.queues m).isSome := by
      intro m hm
      rw [hq, Function.update_apply]
      split
      · rfl
      · exact hm
    rw [hget]
    refine ⟨?_, ?_, ?_, ?_, ?_, ?_, ?_⟩
    · show w'.table.length = _
      rw [htable, List.length_set, h.slots]
    · show DistinctKeys _ w'.table
      rw [htable]
      exact h.keys.fill hi fun k₁ hk₁ => Option.some.inj hk₁ ▸ hnew
    · show DistinctKeys _ w'.table
      rw [htable]
      exact h.handles.fill hi fun m hm => Option.some.inj hm ▸ hbnew
    · intro e he hkey
      rw [htable] at he
      obtain hold | rfl := List.mem_or_eq_of_mem_set he
      · obtain ⟨m, hm, hlive⟩ := h.occupied e hold hkey
        exact ⟨m, hm, halive m hlive⟩
      · refine ⟨b, rfl, ?_⟩
        show (w'.shim.queues b).isSome
        rw [hq, Function.update_self]
        rfl
    · intro e he hkey
      rw [htable] at he
      obtain hold | rfl := List.mem_or_eq_of_mem_set he
      · exact h.unused e hold hkey
      · exact nomatch hkey
    · intro e he k' hkey
      rw [htable] at he
      obtain hold | rfl := List.mem_or_eq_of_mem_set he
      · exact h.known e hold k' hkey
      · exact Option.some.inj hkey ▸ hk
    · intro k' hk'
      have hset := h.keys.find_fill (e := ⟨some k, some b, type⟩) hi hfree hnew rfl k'
      show w'.s31LockFind (some k') = Function.update x.last k (some b) k'
      rw [LockShim.s31LockFind, htable, hset, Function.update_apply]
      split
      · rfl
      · exact h.found k' hk'

/-- If `s31_lock_get` returns NULL, it has changed nothing of the table. -/
private theorem s31LockGet_failed (w : LockShim) (type : UInt8)
    (hnull : (w.s31LockGet th env (some k) type).2 = none) :
    (w.s31LockGet th env (some k) type).1.table = w.table := by
  obtain ⟨e, -, hget⟩ | ⟨-, hget⟩ | ⟨-, i, b, w', -, -, -, hget, -, -, -⟩ :=
    s31LockGet_cases th env w k type
  · rw [hget]
  · rw [hget]
  · rw [hget] at hnull
    exact nomatch hnull

/-! ## Calls on the mutexes -/

/-- A queue call neither creates nor deletes a queue. -/
private theorem queueCall_isSome (call : CallEnv) (q : Option Nat)
    (f : S31Queue → Ret ⊕ SyncProtocol.SyncCall (Option BridgeHandle) S31Queue Ret TickType) (s : Shim)
    {a : Nat} (ha : (s.queues a).isSome) : ((queueCall call q f s).1.queues a).isSome := by
  unfold queueCall
  split
  · exact ha
  · split
    · exact ha
    · simp only [Function.update_apply]
      split
      · rfl
      · exact ha

/-- The calls that take or give a mutex keep the table and the mutexes. -/
theorem TableInv.call (h : TableInv statics x) {c : ShimCall}
    (hc : ∀ a, (x.world.shim.queues a).isSome →
      ((perform th env.call x.world.shim c).1.queues a).isSome) :
    TableInv statics { x with world := (x.world.call th env c).1 } :=
  h.congr rfl (fun a ha => hc a ha) (fun _ => .rfl) rfl

/-- `s31_lock_take` after `s31_lock_get`. -/
theorem TableInv.take (h : TableInv statics x) (th : Thread) (hk : x.Exists statics k)
    (hblock : ∀ b, env.block = some b → x.world.shim.queues b = none) (timeout : TickType)
    (type : UInt8) :
    TableInv statics { x.returned k (x.world.s31LockGet th env (some k) type).2 with
      world := (x.world.s31LockTake th env (some k) timeout type).1 } := by
  have hget := h.get th hk hblock type
  unfold LockShim.s31LockTake
  cases hm : x.world.s31LockGet th env (some k) type with
  | mk w' m =>
    rw [hm] at hget
    cases m with
    | none => exact hget
    | some m =>
      dsimp only
      -- an interrupt, a recursive lock, or another one: each is a call on the mutex
      split
      · exact hget.call fun a ha => queueCall_isSome _ _ _ _ ha
      · split
        · exact hget.call fun a ha => queueCall_isSome _ _ _ _ ha
        · exact hget.call fun a ha => queueCall_isSome _ _ _ _ ha

/-- `s31_lock_give` -/
theorem TableInv.give (h : TableInv statics x) (lock : Option LockKey) :
    TableInv statics { x with world := (x.world.s31LockGive th env lock).1 } := by
  unfold LockShim.s31LockGive
  split
  · exact h
  · split
    · exact h.call fun a ha => queueCall_isSome _ _ _ _ ha
    · exact h.call fun a ha => queueCall_isSome _ _ _ _ ha

/-! ## Closing -/

/-- Deleting one mutex leaves the others. -/
private theorem vQueueDelete_isSome (s : Shim) {m a : Nat} (hne : a ≠ m)
    (ha : (s.queues a).isSome) :
    ((vQueueDelete (some m) s).1.queues a).isSome := by
  unfold vQueueDelete
  split
  · exact ha
  · next a' q heq =>
    obtain ⟨a₀, ha₀, hq⟩ := Option.bind_eq_some_iff.mp heq
    obtain ⟨q₀, -, hpair⟩ := Option.map_eq_some_iff.mp hq
    obtain ⟨rfl, rfl⟩ := Prod.mk.inj hpair
    obtain rfl := Option.some.inj ha₀
    simp only [Function.update_of_ne hne]
    exact ha

/-- A lock is closed: its mutex is deleted, its entry cleared and the lock freed. -/
theorem TableInv.close (h : TableInv statics x) (k : LockKey) :
    TableInv statics { x.free (some k) with world := (x.world.closeKey th env k).1 } := by
  unfold LockShim.closeKey
  cases hidx : x.world.table.findIdx? (fun e => e.key = some k) with
  | none =>
    -- the lock was never used
    have hno : ∀ i, keyAt LockEntry.key x.world.table i ≠ some k := by
      intro i hi
      obtain ⟨e, he, hkey⟩ := keyAt_eq_some.mp hi
      have := List.findIdx?_eq_none_iff.mp hidx e (List.mem_of_getElem? he)
      exact absurd (decide_eq_true hkey) (by rw [this]; decide)
    refine ⟨h.slots, h.keys, h.handles, h.occupied, h.unused, ?_, ?_⟩
    · intro e he k' hkey
      refine (h.known e he k' hkey).imp (fun hmem => ?_) id
      refine List.mem_filter.mpr ⟨hmem, decide_eq_true fun heq => ?_⟩
      obtain ⟨i, hi⟩ := keyAt_mem he hkey
      exact hno i (heq ▸ hi)
    · intro k' hk'
      show x.world.s31LockFind (some k') = Function.update x.last k none k'
      by_cases heq : k' = k
      · subst heq
        rw [Function.update_self]
        exact find_none_of_not_keyAt hno
      · rw [Function.update_of_ne heq]
        exact h.found k' (hk'.imp (fun hmem => (List.mem_filter.mp hmem).1) id)
  | some i =>
    obtain ⟨hi, hkey, -⟩ := List.findIdx?_eq_some_iff_getElem.mp hidx
    have hentry : x.world.table[i]? = some x.world.table[i] := List.getElem?_eq_getElem hi
    have hat : keyAt LockEntry.key x.world.table i = some k :=
      keyAt_eq_some.mpr ⟨_, hentry, of_decide_eq_true hkey⟩
    obtain ⟨m, hm, -⟩ := h.occupied _ (List.getElem_mem hi) (by
      rw [of_decide_eq_true hkey]
      exact nofun)
    have hmat : keyAt LockEntry.handle x.world.table i = some m := keyAt_eq_some.mpr ⟨_, hentry, hm⟩
    simp only [hentry, Option.bind_some, hm]
    -- what stays in the table is not the entry of the closed lock
    have hmem : ∀ e ∈ x.world.table.set i ⟨none, none, 0⟩, e.key ≠ none →
        e ∈ x.world.table ∧ e.key ≠ some k ∧ e.handle ≠ some m := by
      intro e he hne
      obtain ⟨j, hj⟩ := List.mem_iff_getElem?.mp he
      have hji : j ≠ i := by
        rintro rfl
        rw [List.getElem?_set_self hi] at hj
        exact hne (Option.some.inj hj ▸ rfl)
      rw [List.getElem?_set_ne hji.symm] at hj
      refine ⟨List.mem_of_getElem? hj, fun hk => hji ?_, fun hh => hji ?_⟩
      · exact h.keys j i k (keyAt_eq_some.mpr ⟨e, hj, hk⟩) hat
      · exact h.handles j i m (keyAt_eq_some.mpr ⟨e, hj, hh⟩) hmat
    refine ⟨?_, h.keys.clear hi rfl, h.handles.clear hi rfl, ?_, ?_, ?_, ?_⟩
    · show (x.world.table.set i _).length = _
      rw [List.length_set, h.slots]
    · intro e he hne
      obtain ⟨hold, -, hh⟩ := hmem e he hne
      obtain ⟨m', hm', hlive⟩ := h.occupied e hold hne
      exact ⟨m', hm', vQueueDelete_isSome x.world.shim (fun heq => hh (heq ▸ hm')) hlive⟩
    · intro e he hnone
      obtain hold | rfl := List.mem_or_eq_of_mem_set he
      · exact h.unused e hold hnone
      · rfl
    · intro e he k' hk'
      obtain ⟨hold, hne, -⟩ := hmem e he (by rw [hk']; exact nofun)
      refine (h.known e hold k' hk').imp (fun hheap => ?_) id
      exact List.mem_filter.mpr ⟨hheap, decide_eq_true fun heq => hne (heq ▸ hk')⟩
    · intro k' hk'
      show LockShim.s31LockFind (some k') _ = Function.update x.last k none k'
      have hclear := h.keys.find_clear (e := ⟨none, none, 0⟩) hat rfl k'
      have hfind : ∀ w : LockShim, w.table = x.world.table.set i ⟨none, none, 0⟩ →
          w.s31LockFind (some k') = if k' = k then none else x.world.s31LockFind (some k') := by
        intro w hw
        rw [LockShim.s31LockFind, hw, hclear]
        split <;> rfl
      rw [hfind _ rfl, Function.update_apply]
      split
      · rfl
      · next hne => exact h.found k' (hk'.imp (fun hmem => (List.mem_filter.mp hmem).1) id)

/-! ## Entry points -/

section

variable {op : LockEntryPoint} {lock : Option LockVar} {timeout : TickType} {type : UInt8}

/-- `_lock_init` and `_lock_init_recursive`. -/
theorem TableInv.perform_init (h : TableInv statics x) (hfresh : Fresh statics x env)
    (halloc : allocates env x.world op = if lock.isSome then env.lock else none)
    (hfree : frees x.world op = none) (hget : getCall env x.world op = none)
    (hworld : (performLock th env x.world op).1 = x.world.lockInit env lock) :
    TableInv statics (x.perform th env op) := by
  simp only [Locks.perform, halloc, hfree, hget, hworld]
  cases lock with
  | none => exact h
  | some l => exact h.alloc hfresh.lock rfl rfl

/-- The entry points that make a lock and its mutex. -/
theorem TableInv.perform_retargetInit (h : TableInv statics x) (hfresh : Fresh statics x env)
    (halloc : allocates env x.world op = if lock.isSome then env.lock else none)
    (hfree : frees x.world op = none)
    (hget : getCall env x.world op =
      (lock.bind (x.world.lockInit env lock).vars).map fun k => (x.world.lockInit env lock, k))
    (htype : getType op = type)
    (hworld : (performLock th env x.world op).1 = (x.world.retargetInit th env lock type).1) :
    TableInv statics (x.perform th env op) := by
  cases lock with
  | none =>
    simp only [Locks.perform, halloc, hfree, hget, hworld]
    exact h
  | some l =>
    have hvar : (x.world.lockInit env (some l)).vars l = env.lock := Function.update_self ..
    have hmade : TableInv statics
        { x.alloc env.lock with world := x.world.lockInit env (some l) } :=
      h.alloc hfresh.lock rfl rfl
    simp only [Locks.perform, halloc, hfree, hget, hworld, htype, LockShim.retargetInit,
      Option.bind_some, hvar, Option.isSome_some, if_true]
    -- without memory for the lock nothing else is done
    cases hlock : env.lock with
    | none =>
      rw [hlock] at hmade
      exact hmade
    | some k =>
      rw [hlock] at hmade
      exact hmade.get th (.inl (List.mem_cons_self ..)) hfresh.block type

/-- `_lock_acquire` and its three siblings. -/
theorem TableInv.perform_take (h : TableInv statics x) (hfresh : Fresh statics x env)
    (hlock : VarExists statics x lock)
    (halloc : allocates env x.world op =
      if lock.isSome ∧ (lock.bind x.world.vars).isNone then env.lock else none)
    (hfree : frees x.world op = none)
    (hget : getCall env x.world op =
      (lock.bind (x.world.lockEnsure env lock).vars).map fun k => (x.world.lockEnsure env lock, k))
    (htype : getType op = type)
    (hworld : (performLock th env x.world op).1 =
      (x.world.lockTakeVar th env lock timeout type).1) :
    TableInv statics (x.perform th env op) := by
  cases lock with
  | none =>
    simp only [Locks.perform, halloc, hfree, hget, hworld]
    exact h
  | some l =>
    cases hvar : x.world.vars l with
    | some k =>
      -- the variable has a lock already
      have hensure : x.world.lockEnsure env (some l) = x.world := by
        rw [LockShim.lockEnsure, Option.bind_some, hvar]
        rfl
      have hk : x.Exists statics k := hlock k hvar
      simp only [Locks.perform, halloc, hfree, hget, hworld, htype, LockShim.lockTakeVar, hensure,
        Option.bind_some, hvar]
      exact h.take th hk hfresh.block timeout type
    -- a lock is made first, if there is memory for it
    | none =>
      have hensure : x.world.lockEnsure env (some l) = x.world.lockInit env (some l) := by
        rw [LockShim.lockEnsure, Option.bind_some, hvar]
        rfl
      have hvar' : (x.world.lockInit env (some l)).vars l = env.lock := Function.update_self ..
      have hmade : TableInv statics
          { x.alloc env.lock with world := x.world.lockInit env (some l) } :=
        h.alloc hfresh.lock rfl rfl
      simp only [Locks.perform, halloc, hfree, hget, hworld, htype, LockShim.lockTakeVar, hensure,
        Option.bind_some, hvar, hvar']
      cases hnew : env.lock with
      | none =>
        rw [hnew] at hmade
        exact hmade
      | some k =>
        rw [hnew] at hmade
        exact hmade.take th (.inl (List.mem_cons_self ..)) hfresh.block timeout type

/-- The entry points that acquire a lock given by its address. -/
theorem TableInv.perform_retargetTake {lock : Option LockKey} (h : TableInv statics x)
    (hfresh : Fresh statics x env) (hlock : ∀ k, lock = some k → x.Exists statics k)
    (halloc : allocates env x.world op = none) (hfree : frees x.world op = none)
    (hget : getCall env x.world op = lock.map fun k => (x.world, k)) (htype : getType op = type)
    (hworld : (performLock th env x.world op).1 =
      (x.world.s31LockTake th env lock timeout type).1) :
    TableInv statics (x.perform th env op) := by
  cases lock with
  | none =>
    simp only [Locks.perform, halloc, hfree, hget, hworld]
    exact h
  | some k =>
    simp only [Locks.perform, halloc, hfree, hget, hworld, htype, Option.map_some]
    exact h.take th (hlock k rfl) hfresh.block timeout type

/-- Releases do not touch the table. -/
theorem TableInv.perform_give {lock : Option LockKey} (h : TableInv statics x)
    (halloc : allocates env x.world op = none) (hfree : frees x.world op = none)
    (hget : getCall env x.world op = none)
    (hworld : (performLock th env x.world op).1 = (x.world.s31LockGive th env lock).1) :
    TableInv statics (x.perform th env op) := by
  simp only [Locks.perform, halloc, hfree, hget, hworld]
  exact h.give lock

/-- `_lock_close` and `_lock_close_recursive`. -/
theorem TableInv.perform_close (h : TableInv statics x) (halloc : allocates env x.world op = none)
    (hfree : frees x.world op = lock.bind x.world.vars) (hget : getCall env x.world op = none)
    (hworld : (performLock th env x.world op).1 = (x.world.lockClose th env lock).1) :
    TableInv statics (x.perform th env op) := by
  simp only [Locks.perform, halloc, hfree, hget, hworld, LockShim.lockClose]
  cases lock with
  | none => exact h
  | some l =>
    cases hvar : x.world.vars l with
    | none =>
      simp only [Option.bind_some, hvar]
      exact h
    | some k =>
      simp only [Option.bind_some, hvar, Option.map_some]
      exact (h.close k).congr rfl (fun _ => id) (fun _ => .rfl) rfl

/-- The closing entry points that are given a lock. -/
theorem TableInv.perform_retargetClose {lock : Option LockKey} (h : TableInv statics x)
    (halloc : allocates env x.world op = none) (hfree : frees x.world op = lock)
    (hget : getCall env x.world op = none)
    (hworld : ∀ k, lock = some k →
      (performLock th env x.world op).1 = (x.world.closeKey th env k).1)
    (hnull : lock = none → (performLock th env x.world op).1 = x.world) :
    TableInv statics (x.perform th env op) := by
  cases lock with
  | none =>
    simp only [Locks.perform, halloc, hfree, hget, hnull rfl]
    exact h
  | some k =>
    simp only [Locks.perform, halloc, hfree, hget, hworld k rfl]
    exact h.close k

end

/-- Every entry point keeps the invariant. -/
theorem TableInv.perform (h : TableInv statics x) (hfresh : Fresh statics x env)
    (op : LockEntryPoint) (hop : Admissible statics x op) :
    TableInv statics (x.perform th env op) := by
  cases op with
  | lockInit lock | lockInitRecursive lock => exact h.perform_init hfresh rfl rfl rfl rfl
  | lockClose lock | lockCloseRecursive lock => exact h.perform_close rfl rfl rfl rfl
  | lockAcquire lock | lockAcquireRecursive lock | lockTryAcquire lock
  | lockTryAcquireRecursive lock => exact h.perform_take hfresh hop rfl rfl rfl rfl rfl
  | lockRelease lock | lockReleaseRecursive lock =>
    -- a lock that was never used has no key, and there is nothing to give back
    cases hkey : lock.bind x.world.vars with
    | none =>
      simp only [Locks.perform, performLock, LockShim.lockReleaseVar, hkey]
      exact h
    | some k =>
      have hworld : (performLock th env x.world (.lockRelease lock)).1 =
          (x.world.s31LockGive th env (some k)).1 := by
        simp only [performLock, LockShim.lockReleaseVar, hkey]
      exact h.perform_give rfl rfl rfl hworld
  | retargetLockInit lock | retargetLockInitRecursive lock =>
    exact h.perform_retargetInit hfresh rfl rfl rfl rfl rfl
  | retargetLockClose lock | retargetLockCloseRecursive lock =>
    refine h.perform_retargetClose rfl rfl rfl (fun k hk => ?_) fun hk => ?_
    · subst hk; rfl
    · subst hk; rfl
  | retargetLockAcquire lock | retargetLockAcquireRecursive lock | retargetLockTryAcquire lock
  | retargetLockTryAcquireRecursive lock =>
    exact h.perform_retargetTake hfresh hop rfl rfl rfl rfl rfl
  | retargetLockRelease lock | retargetLockReleaseRecursive lock => exact h.perform_give rfl rfl rfl rfl

/-! ## Runs -/

/-- After `esp_libc_locks_init`. -/
def Locks.start (th : Thread) (env : LockEnv) (w : LockShim) : Locks where
  world := (w.espLibcLocksInit th env).1
  heap := []
  last := Function.update (fun _ => none) libcRecursiveMutex (w.espLibcLocksInit th env).2

/-- The table is cleared and has at most one entry. -/
private theorem start_inv (w : LockShim)
    (hblock : ∀ b, env.block = some b → w.shim.queues b = none) :
    TableInv statics (.start th env w) := by
  -- the table before the static lock gets its entry
  let cleared : Locks :=
    { world := { w with table := List.replicate s31LockSlots ⟨none, none, 0⟩ }
      heap := []
      last := fun _ => none }
  have hmem : ∀ e ∈ cleared.world.table, e = ⟨none, none, 0⟩ :=
    fun e he => (List.mem_replicate.mp he).2
  have hno : ∀ (key : LockEntry → Option Nat) (k : Nat), key ⟨none, none, 0⟩ = none →
      ∀ i, keyAt key cleared.world.table i ≠ some k := by
    intro key k hnone i hi
    obtain ⟨e, he, hkey⟩ := keyAt_eq_some.mp hi
    rw [hmem e (List.mem_of_getElem? he), hnone] at hkey
    exact nomatch hkey
  -- in a cleared table every slot is unused
  have hcleared : TableInv statics cleared := by
    refine ⟨List.length_replicate .., fun i _ k hi => absurd hi (hno _ k rfl i),
      fun i _ m hi => absurd hi (hno _ m rfl i), ?_, ?_, ?_, ?_⟩
    · exact fun e he hkey => absurd (by rw [hmem e he]) hkey
    · exact fun e he _ => by rw [hmem e he]
    · intro e he k hkey
      rw [hmem e he] at hkey
      exact nomatch hkey
    · exact fun k _ => find_none_of_not_keyAt (hno _ k rfl)
  exact hcleared.get th (.inr statics.2) hblock s31MutexRecursive

/-- The states after `esp_libc_locks_init` and any number of entry points. -/
inductive Reaches (statics : StaticLocks) : Locks → Prop where
  | start (th : Thread) (env : LockEnv) (w : LockShim)
    (hblock : ∀ b, env.block = some b → w.shim.queues b = none) :
    Reaches statics (.start th env w)
  | perform {x : Locks} (th : Thread) (env : LockEnv) (op : LockEntryPoint) (h : Reaches statics x)
    (hfresh : Fresh statics x env) (hop : Admissible statics x op) :
    Reaches statics (x.perform th env op)

/-- The invariant holds along every sequence. -/
theorem Reaches.inv (h : Reaches statics x) : TableInv statics x := by
  induction h with
  | start th env w hblock => exact start_inv w hblock
  | perform th env op h hfresh hop ih => exact ih.perform hfresh op hop

/-- What an entry point leaves of the table is what its `s31_lock_get` has. -/
private theorem performLock_table (th : Thread) {w w' : LockShim} {op : LockEntryPoint}
    (hget : getCall env w op = some (w', k)) :
    w'.table = w.table ∧
      (performLock th env w op).1.table = (w'.s31LockGet th env (some k) (getType op)).1.table := by
  have hensure : ∀ lock, (w.lockEnsure env lock).table = w.table := by
    intro lock
    unfold LockShim.lockEnsure
    split
    · rfl
    · cases lock <;> rfl
  -- taking the mutex changes nothing of the table
  have htake : ∀ (w : LockShim) lock timeout type,
      (w.s31LockTake th env lock timeout type).1.table = (w.s31LockGet th env lock type).1.table := by
    intro w lock timeout type
    unfold LockShim.s31LockTake
    split
    · next heq => rw [heq]
    · next heq =>
      rw [heq]
      split
      · rfl
      · split <;> rfl
  have hvar : ∀ lock timeout type, (lock.bind (w.lockEnsure env lock).vars).map
      (fun k => (w.lockEnsure env lock, k)) = some (w', k) →
      w'.table = w.table ∧ (w.lockTakeVar th env lock timeout type).1.table =
        (w'.s31LockGet th env (some k) type).1.table := by
    intro lock timeout type heq
    obtain ⟨k', hk', hpair⟩ := Option.map_eq_some_iff.mp heq
    obtain ⟨rfl, rfl⟩ := Prod.mk.inj hpair
    refine ⟨hensure lock, ?_⟩
    simp only [LockShim.lockTakeVar, hk']
    exact htake ..
  -- the functions that are given the key itself
  have hkey : ∀ (lock : Option LockKey) timeout type, (lock.map fun k => (w, k)) = some (w', k) →
      w'.table = w.table ∧ (w.s31LockTake th env lock timeout type).1.table =
        (w'.s31LockGet th env (some k) type).1.table := by
    intro lock timeout type heq
    obtain ⟨k', rfl, hpair⟩ := Option.map_eq_some_iff.mp heq
    obtain ⟨rfl, rfl⟩ := Prod.mk.inj hpair
    exact ⟨rfl, htake ..⟩
  -- the ones that make a lock
  have hinit : ∀ lock type, (lock.bind (w.lockInit env lock).vars).map
      (fun k => (w.lockInit env lock, k)) = some (w', k) →
      w'.table = w.table ∧ (w.retargetInit th env lock type).1.table =
        (w'.s31LockGet th env (some k) type).1.table := by
    intro lock type heq
    obtain ⟨k', hk', hpair⟩ := Option.map_eq_some_iff.mp heq
    obtain ⟨rfl, rfl⟩ := Prod.mk.inj hpair
    refine ⟨by cases lock <;> rfl, ?_⟩
    simp only [LockShim.retargetInit, hk']
  cases op with
  | lockAcquire lock | lockAcquireRecursive lock | lockTryAcquire lock
  | lockTryAcquireRecursive lock => exact hvar lock _ _ hget
  | retargetLockInit lock | retargetLockInitRecursive lock => exact hinit lock _ hget
  | retargetLockAcquire lock | retargetLockAcquireRecursive lock | retargetLockTryAcquire lock
  | retargetLockTryAcquireRecursive lock => exact hkey lock _ _ hget
  | _ => exact nomatch hget

/-- The table and what its lookups find. -/
structure Intact (statics : StaticLocks) (x : Locks) : Prop where
  keys : ∀ i j k, keyAt LockEntry.key x.world.table i = some k →
    keyAt LockEntry.key x.world.table j = some k → i = j
  handles : ∀ i k, keyAt LockEntry.key x.world.table i = some k →
    ∃ h, keyAt LockEntry.handle x.world.table i = some h ∧ x.Alive h ∧
      ∀ j, keyAt LockEntry.handle x.world.table j = some h → j = i
  found : ∀ k, x.Exists statics k → x.world.s31LockFind (some k) = x.last k
  gone : ∀ k, ¬ x.Exists statics k → x.world.s31LockFind (some k) = none
  null : x.world.s31LockFind none = none
  failed : ∀ th env op w k, getCall env x.world op = some (w, k) →
    (w.s31LockGet th env (some k) (getType op)).2 = none →
    (performLock th env x.world op).1.table = x.world.table

/-- The table is intact after every sequence of calls. -/
theorem lock_table_integrity (h : Reaches statics x) : Intact statics x := by
  have hinv := h.inv
  refine ⟨hinv.keys, ?_, hinv.found, fun k hk => ?_, ?_, ?_⟩
  · intro i k hi
    obtain ⟨e, he, hkey⟩ := keyAt_eq_some.mp hi
    obtain ⟨m, hm, hlive⟩ := hinv.occupied e (List.mem_of_getElem? he) (by
      rw [hkey]
      exact nofun)
    have hat : keyAt LockEntry.handle x.world.table i = some m := keyAt_eq_some.mpr ⟨e, he, hm⟩
    exact ⟨m, hat, hlive, fun j hj => hinv.handles j i m hj hat⟩
  · exact find_none_of_not_keyAt (hinv.not_keyAt hk)
  · -- a NULL key finds an unused entry
    rw [LockShim.s31LockFind, Option.bind_eq_none_iff]
    intro e he
    have hkey := List.find?_some (p := fun e : LockEntry => decide (e.key = none)) he
    exact hinv.unused e (List.mem_of_find?_eq_some he) (of_decide_eq_true hkey)
  · intro th env op w k hget hnull
    obtain ⟨hsame, hleft⟩ := performLock_table th hget
    rw [hleft, s31LockGet_failed w _ hnull, hsame]

end

/-- The allocator hands out these addresses. -/
def answers (lock : Option LockKey) (block : Option MutexHandle) : LockEnv where
  call := ⟨0, fun _ => 0, 0⟩
  lock := lock
  block := block
  ctx := block

/-- A lock at address 100 is used and closed, and the next lock gets its address
    and the address of its mutex: nothing is found for it until it is acquired. -/
theorem lock_table_integrity_reused :
    ∃ (statics : StaticLocks) (x y : Locks), Reaches statics x ∧ Intact statics x ∧
      Intact statics y ∧ 100 ∈ x.heap ∧ x.world.s31LockFind (some 100) = none ∧
      y = x.perform ⟨1, 10, false⟩ (answers none (some 300)) (.lockTryAcquire (some 7)) ∧
      y.world.s31LockFind (some 100) = some 300 := by
  let th : Thread := ⟨1, 10, false⟩
  let statics : StaticLocks := ⟨fun k => k = libcRecursiveMutex, rfl⟩
  -- a lock is closed, and a new one gets its address
  let x₀ : Locks := .start th (answers none (some 200)) ⟨s31RtosInit, fun _ => none, []⟩
  let x₁ := x₀.perform th (answers (some 100) (some 300)) (.retargetLockInit (some 5))
  let x₂ := x₁.perform th (answers none none) (.lockClose (some 5))
  let x₃ := x₂.perform th (answers (some 100) none) (.lockInit (some 7))
  have h₀ : Reaches statics x₀ := .start _ _ _ fun _ _ => rfl
  have hfree : ∀ x : Locks, 100 ∉ x.heap → ∀ k, some 100 = some k → ¬ x.Exists statics k := by
    intro x hx k hk
    obtain rfl := Option.some.inj hk
    exact not_or.mpr ⟨hx, by decide⟩
  have h₁ : Reaches statics x₁ := .perform _ _ _ h₀
    ⟨hfree x₀ (by decide), fun b hb => by obtain rfl := Option.some.inj hb; rfl⟩ trivial
  have h₂ : Reaches statics x₂ := .perform _ _ _ h₁ ⟨nofun, nofun⟩ trivial
  have h₃ : Reaches statics x₃ := .perform _ _ _ h₂ ⟨hfree x₂ (by decide), nofun⟩ trivial
  have h₄ := Reaches.perform th (answers none (some 300)) (.lockTryAcquire (some 7)) h₃
    ⟨nofun, fun b hb => by obtain rfl := Option.some.inj hb; rfl⟩
    (fun k hk => by obtain rfl := Option.some.inj hk; exact .inl (by decide))
  exact ⟨statics, x₃, _, h₃, lock_table_integrity h₃, lock_table_integrity h₄, by decide, rfl, rfl,
    rfl⟩

end EspS31.Rtos.LockTable
