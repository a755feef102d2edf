import EspS31.Native.Locks
import EspS31.Spec.MutexCorrect

/-!
# Exclusion of libc locks

A lock that has an entry in the table is held by at most one task.  Its entry
leads to one mutex, found again by every later call, and the levels of that mutex
are the acquisitions a task has not released.

A task that already holds a lock acquires it again through either kind of entry
point: `xQueueCreateMutex` ignores the type it is given.  A lock that found the
table full has no mutex at all, and its void acquire functions return without
one.

## Key results

- `LockInv`: the table, the mutexes and the acquisitions outstanding agree
- `run_lockInv`: the invariant of every run
- `lock_exclusion`: at most one task holds a lock with an entry
- `lock_exclusion_limits`: the two cases beyond it
-/

namespace EspS31.Rtos

open SyncProtocol

/-- A thread outside of interrupts. -/
abbrev TaskThread := { th : Thread // th.inIsr = false }

/-- Threads that work with locks. -/
abbrev LockConfig := Config TaskThread MutexHandle LockWorld LockRet TickType LockOp

/-! ## Outstanding acquisitions -/

namespace LockOp

/-- The variable that a call is about. -/
def lock : LockOp → Option LockVar
  | .lockAcquire l | .lockAcquireRecursive l | .lockTryAcquire l | .lockTryAcquireRecursive l
  | .lockRelease l | .lockReleaseRecursive l => l

/-- The calls that wait for the lock. -/
def isAcquire : LockOp → Bool
  | .lockAcquire _ | .lockAcquireRecursive _ => true
  | _ => false

/-- The calls that take the lock or fail. -/
def isTry : LockOp → Bool
  | .lockTryAcquire _ | .lockTryAcquireRecursive _ => true
  | _ => false

/-- The calls that give the lock back. -/
def isRelease : LockOp → Bool
  | .lockRelease _ | .lockReleaseRecursive _ => true
  | _ => false

/-- A call that returned `r` has acquired its lock: a void acquire by returning
    at all, a try by returning 0. -/
def acquired (op : LockOp) (r : LockRet) : Bool := op.isAcquire || (op.isTry && decide (r = some 0))

/-- A try is neither of the others. -/
private theorem isTry_excl {op : LockOp} (h : op.isTry = true) :
    op.isAcquire = false ∧ op.isRelease = false := by
  cases op with
  | lockTryAcquire | lockTryAcquireRecursive => exact ⟨rfl, rfl⟩
  | _ => exact nomatch h

/-- A call that is neither of the others is a try. -/
private theorem isTry_of_not {op : LockOp} (hacq : op.isAcquire = false)
    (hrel : op.isRelease = false) :
    op.isTry = true := by
  cases op with
  | lockTryAcquire | lockTryAcquireRecursive => rfl
  | lockAcquire | lockAcquireRecursive => exact nomatch hacq
  | lockRelease | lockReleaseRecursive => exact nomatch hrel

end LockOp

/-- The acquisitions of lock `l` by task `t`, after a step. -/
def outstandingStep (t : TaskHandle) (l : LockVar) (n : Nat) (x : TaskThread × Event LockOp LockRet) :
    Nat :=
  match x.2.decided with
  | some (op, r) =>
    if x.1.1.task = t ∧ op.lock = some l then
      if op.acquired r then n + 1 else if op.isRelease then n - 1 else n
    else n
  | none => n

/-- The successful acquisitions of lock `l` by task `t` that it has not released. -/
def outstanding (t : TaskHandle) (l : LockVar) (log : List (TaskThread × Event LockOp LockRet)) :
    Nat :=
  log.foldl (outstandingStep t l) 0

/-- One event more, and what it changes. -/
private theorem outstanding_snoc (t : TaskHandle) (l : LockVar)
    (log : List (TaskThread × Event LockOp LockRet)) (x : TaskThread × Event LockOp LockRet) :
    outstanding t l (log ++ [x]) = outstandingStep t l (outstanding t l log) x := by
  simp only [outstanding, List.foldl_append, List.foldl_cons, List.foldl_nil]

/-- Steps that decide nothing about lock `l` leave its count alone. -/
private theorem outstandingStep_of_ne {t : TaskHandle} {l : LockVar} {n : Nat}
    {x : TaskThread × Event LockOp LockRet}
    (h : ∀ op r, x.2.decided = some (op, r) → op.lock ≠ some l) : outstandingStep t l n x = n := by
  unfold outstandingStep
  split
  · next op r hd => exact if_neg fun hc => h op r hd hc.2
  · rfl

/-- What a result changes for its task and its lock. -/
private theorem outstandingStep_of_decided {t : TaskHandle} {l : LockVar} {n : Nat}
    {th : TaskThread}
    {e : Event LockOp LockRet} {op : LockOp} {r : LockRet} (hd : e.decided = some (op, r))
    (hl : op.lock = some l) :
    outstandingStep t l n (th, e) =
      if th.1.task = t then if op.acquired r then n + 1 else if op.isRelease then n - 1 else n
      else n := by
  simp only [outstandingStep, hd, hl, and_true]

/-! ## The table -/

namespace LockWorld

/-- The mutex of a lock variable, if it has an entry. -/
def slot (w : LockWorld) (l : LockVar) : Option MutexHandle :=
  (w.vars l).bind fun k => s31LockFind k w

/-- Some entry of the table is unused. -/
def HasRoom (w : LockWorld) : Prop := ∃ e ∈ w.table, e.key = none

end LockWorld

/-- Filling an unused entry: the new key is found there, all others as before. -/
private theorem find_set_free {table : List LockEntry} {i : Nat} {k : LockKey} {new : LockEntry}
    (hi : table.findIdx? (fun e => e.key = none) = some i)
    (hk : table.find? (fun e => e.key = some k) = none) (hnew : new.key = some k) (k' : LockKey) :
    (table.set i new).find? (fun e => e.key = some k') =
      if k' = k then some new else table.find? (fun e => e.key = some k') := by
  induction table generalizing i with
  | nil => exact nomatch hi
  | cons e rest ih =>
    rw [List.findIdx?_cons] at hi
    rw [List.find?_cons] at hk
    split at hk
    · exact nomatch hk
    · next hek =>
      split at hi
      · next hfree =>
        -- the first entry is the unused one
        obtain rfl := Option.some.inj hi
        rw [decide_eq_true_eq] at hfree
        simp only [List.set_cons_zero, List.find?_cons, hnew, hfree]
        by_cases hkk : k' = k
        · simp only [hkk, decide_true, if_true]
        · have hne : k ≠ k' := fun h => hkk h.symm
          simp only [Option.some.injEq, hne, decide_false, hkk, if_false, reduceCtorEq]
      -- the unused entry comes later
      · obtain ⟨j, hj, rfl⟩ := Option.map_eq_some_iff.mp hi
        simp only [List.set_cons_succ, List.find?_cons, ih hj hk]
        by_cases hkk : k' = k
        · subst hkk
          rw [hek]
        · simp only [hkk, if_false]

/-- The mutex `xQueueCreateMutex` makes. -/
def newMutex (ctx : BridgeHandle) : S31Queue := s31QueueInit s31QTypeMutex 1 0 (fun _ => 0) (some ctx)

/-- A new mutex is well formed. -/
private theorem newMutex_rep (ctx : BridgeHandle) : MutexRep (newMutex ctx) :=
  ⟨rfl, rfl, .inl ⟨rfl, rfl, rfl⟩⟩

/-- Nobody has levels of a new mutex. -/
private theorem newMutex_levels (ctx : BridgeHandle) (t : TaskHandle) :
    (newMutex ctx).levels t = 0 := rfl

/-- What adding an entry for key `k` does to a world. -/
structure Added (k : LockKey) (w w' : LockWorld) : Prop where
  room : w.HasRoom
  unknown : s31LockFind k w = none
  vars : w'.vars = w.vars
  brk : w'.brk = w.brk + 1
  mutexes : w'.mutexes = Function.update w.mutexes w.brk (newMutex w.brk)
  find : ∀ k', s31LockFind k' w' = if k' = k then some w.brk else s31LockFind k' w
  entry : ∀ e ∈ w'.table, e ∈ w.table ∨ e.handle = some w.brk

/-- `s31_lock_get` finds the entry, adds it, or finds the table full. -/
theorem s31LockGet_cases (k : LockKey) (type : UInt8) (w : LockWorld) :
    (∃ e ∈ w.table, e.key = some k ∧ e.handle = s31LockFind k w ∧
      s31LockGet k type w = (w, s31LockFind k w)) ∨
    (¬ w.HasRoom ∧ s31LockFind k w = none ∧ s31LockGet k type w = (w, none)) ∨
    (∃ w', Added k w w' ∧ s31LockGet k type w = (w', some w.brk)) := by
  -- the key has an entry, or the table is full, or a free entry is taken
  unfold s31LockGet
  split
  · next e he =>
    have hfind : s31LockFind k w = e.handle := by rw [s31LockFind, he]; rfl
    have hkey : e.key = some k := by simpa using List.find?_some he
    exact .inl ⟨e, List.mem_of_find?_eq_some he, hkey, hfind.symm, by rw [hfind]⟩
  · next hk =>
    have hfind : s31LockFind k w = none := by rw [s31LockFind, hk]; rfl
    split
    · next hfull =>
      refine .inr (.inl ⟨?_, hfind, rfl⟩)
      rintro ⟨e, he, hkey⟩
      rw [List.findIdx?_eq_none_iff] at hfull
      simpa [hkey] using hfull e he
    -- the free entry `i` gets the key and a new mutex
    · next i hi =>
      let w' : LockWorld :=
        { w with
          table := w.table.set i ⟨some k, some w.brk, type⟩
          mutexes := Function.update w.mutexes w.brk (newMutex w.brk)
          brk := w.brk + 1 }
      refine .inr (.inr ⟨w', ⟨?_, hfind, rfl, rfl, rfl, fun k' => ?_, fun e he => ?_⟩, rfl⟩)
      · obtain ⟨hlt, hkey, -⟩ := List.findIdx?_eq_some_iff_getElem.mp hi
        exact ⟨_, List.getElem_mem hlt, by simpa using hkey⟩
      · have hset : (w.table.set i ⟨some k, some w.brk, type⟩).find? (fun e => e.key = some k') = _ :=
          find_set_free hi hk rfl k'
        simp only [s31LockFind, w', hset]
        split <;> rfl
      · obtain hold | rfl := List.mem_or_eq_of_mem_set he
        · exact .inl hold
        · exact .inr rfl

/-! ## The invariant -/

/-- The table, the mutexes and the numbers of acquisitions outstanding agree. -/
structure LockInv (out : TaskHandle → LockVar → Nat) (w : LockWorld) : Prop where
  /-- an entry with a key has a mutex -/
  entry : ∀ e ∈ w.table, e.key ≠ none → e.handle ≠ none
  /-- lock variables have keys of their own -/
  key_inj : ∀ {l l' k}, w.vars l = some k → w.vars l' = some k → l = l'
  /-- keys have mutexes of their own -/
  handle_inj : ∀ {k k' h}, s31LockFind k w = some h → s31LockFind k' w = some h → k = k'
  /-- the heap hands out new addresses -/
  key_lt : ∀ {l k}, w.vars l = some k → k < w.brk
  found_lt : ∀ {k h}, s31LockFind k w = some h → k < w.brk ∧ h < w.brk
  rep : ∀ {k h}, s31LockFind k w = some h → MutexRep (w.mutexes h)
  /-- levels of a lock's mutex are its acquisitions -/
  balance : ∀ {l h}, w.slot l = some h → ∀ t, (w.mutexes h).levels t = out t l
  /-- a lock without entry has been acquired only if the table was full -/
  unslotted : ∀ {l}, w.slot l = none → w.HasRoom → ∀ t, out t l = 0

/-- The mutex of a lock is that of its key. -/
private theorem slot_eq_some {w : LockWorld} {l : LockVar} {h : MutexHandle} :
    w.slot l = some h ↔ ∃ k, w.vars l = some k ∧ s31LockFind k w = some h :=
  Option.bind_eq_some_iff

namespace LockInv

variable {out out' : TaskHandle → LockVar → Nat} {w w' : LockWorld}

/-- Two lock variables share no mutex. -/
private theorem slot_inj (hw : LockInv out w) {l l' : LockVar} {h : MutexHandle}
    (hl : w.slot l = some h) (hl' : w.slot l' = some h) : l = l' := by
  obtain ⟨k, hk, hfind⟩ := slot_eq_some.mp hl
  obtain ⟨k', hk', hfind'⟩ := slot_eq_some.mp hl'
  obtain rfl := hw.handle_inj hfind hfind'
  exact hw.key_inj hk hk'

/-- The mutex of a lock is well formed. -/
private theorem slot_rep (hw : LockInv out w) {l : LockVar} {h : MutexHandle}
    (hl : w.slot l = some h) :
    MutexRep (w.mutexes h) := by
  obtain ⟨k, -, hfind⟩ := slot_eq_some.mp hl
  exact hw.rep hfind

/-- A section on the mutex of `l` that keeps the mutex in step with the new
    number of acquisitions of `l`. -/
theorem setMutex (hw : LockInv out w) {l : LockVar} {h : MutexHandle} {q : S31Queue}
    (hl : w.slot l = some h) (hq : MutexRep q) (hbalance : ∀ t, q.levels t = out' t l)
    (hother : ∀ t l', l' ≠ l → out' t l' = out t l') : LockInv out' (w.setMutex h q) where
  entry := hw.entry
  key_inj := hw.key_inj
  handle_inj := hw.handle_inj
  key_lt := hw.key_lt
  found_lt := hw.found_lt
  rep {k h'} hfind := by
    -- the mutex that was set, or one that keeps its state
    by_cases heq : h' = h
    · subst heq
      simp only [LockWorld.setMutex, Function.update_self]
      exact hq
    · simp only [LockWorld.setMutex, Function.update_of_ne heq]
      exact hw.rep hfind
  balance {l' h'} hl' t := by
    by_cases heq : h' = h
    · subst heq
      obtain rfl := hw.slot_inj hl hl'
      simp only [LockWorld.setMutex, Function.update_self]
      exact hbalance t
    -- another mutex is that of another lock, whose levels are as before
    · have hne : l' ≠ l := by
        rintro rfl
        exact heq (Option.some.inj (hl'.symm.trans hl))
      simp only [LockWorld.setMutex, Function.update_of_ne heq, hother t l' hne]
      exact hw.balance hl' t
  unslotted {l'} hl' hroom t := by
    have hne : l' ≠ l := by
      rintro rfl
      exact nomatch hl.symm.trans hl'
    rw [hother t l' hne]
    exact hw.unslotted hl' hroom t

/-- Counts of other locks, and counts that nothing depends on, may change. -/
private theorem recount (hw : LockInv out w) {l : LockVar} (hl : w.slot l = none)
    (hzero : w.HasRoom → ∀ t, out' t l = 0) (hother : ∀ t l', l' ≠ l → out' t l' = out t l') :
    LockInv out' w :=
  { hw with
    balance := fun {l'} h' hl' t => by
      have hne : l' ≠ l := by
        rintro rfl
        exact nomatch hl.symm.trans hl'
      rw [hother t l' hne]
      exact hw.balance hl' t
    unslotted := fun {l'} hl' hroom t => by
      -- the lock without a mutex, and the others
      by_cases heq : l' = l
      · subst heq
        exact hzero hroom t
      · rw [hother t l' heq]
        exact hw.unslotted hl' hroom t }

/-- A new lock object has a key that no entry has. -/
private theorem of_lockEnsure (hw : LockInv out w) (l : LockVar) :
    LockInv out (lockEnsure l w) := by
  unfold lockEnsure
  split
  · next hnone =>
    have hslot : w.slot l = none := by rw [LockWorld.slot, hnone]; rfl
    -- the new key is that of no entry, so the lock still has no mutex
    have hfresh : s31LockFind w.brk w = none := by
      cases hf : s31LockFind w.brk w with
      | none => rfl
      | some h => exact absurd (hw.found_lt hf).1 (Nat.lt_irrefl _)
    -- no lock variable gains or loses a mutex
    have hslot' : ∀ l', (lockInit l w).slot l' = w.slot l' := by
      intro l'
      by_cases heq : l' = l
      · subst heq
        rw [hslot]
        simp only [LockWorld.slot, lockInit, Function.update_self, Option.bind_some]
        exact hfresh
      · simp only [LockWorld.slot, lockInit, Function.update_of_ne heq]
        rfl
    exact {
      entry := hw.entry
      key_inj := fun {l₁ l₂ k} h₁ h₂ => by
        simp only [lockInit, Function.update_apply] at h₁ h₂
        split at h₁ <;> split at h₂
        · next e₁ e₂ => rw [e₁, e₂]
        · obtain rfl := Option.some.inj h₁
          exact absurd (hw.key_lt h₂) (Nat.lt_irrefl _)
        · obtain rfl := Option.some.inj h₂
          exact absurd (hw.key_lt h₁) (Nat.lt_irrefl _)
        · exact hw.key_inj h₁ h₂
      handle_inj := hw.handle_inj
      key_lt := fun {l' k} h => by
        simp only [lockInit, Function.update_apply] at h
        split at h
        · obtain rfl := Option.some.inj h
          exact Nat.lt_succ_self _
        · exact Nat.lt_succ_of_lt (hw.key_lt h)
      found_lt := fun hf =>
        ⟨Nat.lt_succ_of_lt (hw.found_lt hf).1, Nat.lt_succ_of_lt (hw.found_lt hf).2⟩
      rep := hw.rep
      balance := fun {l'} h hl' => hw.balance ((hslot' l').symm.trans hl')
      unslotted := fun {l'} hl' hroom => hw.unslotted ((hslot' l').symm.trans hl') hroom }
  · exact hw

/-- A lock that gets its entry has not been acquired before, and its mutex is
    new. -/
theorem added (hw : LockInv out w) {k : LockKey} (hk : k < w.brk) (ha : Added k w w') :
    LockInv out w' := by
  -- the other keys keep their mutexes, and the new one gets the next handle
  have hold : ∀ {k' h}, k' ≠ k → s31LockFind k' w' = some h → s31LockFind k' w = some h :=
    fun hne hf => by rwa [ha.find, if_neg hne] at hf
  have hnew : ∀ {h}, s31LockFind k w' = some h → h = w.brk :=
    fun hf => by rw [ha.find, if_pos rfl] at hf; exact (Option.some.inj hf).symm
  exact {
    entry := fun e he hkey => by
      obtain hmem | hhandle := ha.entry e he
      · exact hw.entry e hmem hkey
      · rw [hhandle]
        exact Option.some_ne_none _
    key_inj := by rw [ha.vars]; exact hw.key_inj
    handle_inj := fun {k₁ k₂ h} h₁ h₂ => by
      by_cases e₁ : k₁ = k <;> by_cases e₂ : k₂ = k
      · rw [e₁, e₂]
      -- an older handle is below the new one
      · obtain rfl := hnew (e₁ ▸ h₁)
        exact absurd (hw.found_lt (hold e₂ h₂)).2 (Nat.lt_irrefl _)
      · obtain rfl := hnew (e₂ ▸ h₂)
        exact absurd (hw.found_lt (hold e₁ h₁)).2 (Nat.lt_irrefl _)
      · exact hw.handle_inj (hold e₁ h₁) (hold e₂ h₂)
    key_lt := fun {l' k'} h' => by
      rw [ha.vars] at h'
      rw [ha.brk]
      exact Nat.lt_succ_of_lt (hw.key_lt h')
    found_lt := fun {k' h} hf => by
      rw [ha.brk]
      by_cases heq : k' = k
      · subst heq
        obtain rfl := hnew hf
        exact ⟨Nat.lt_succ_of_lt hk, Nat.lt_succ_self _⟩
      · have hlt := hw.found_lt (hold heq hf)
        exact ⟨Nat.lt_succ_of_lt hlt.1, Nat.lt_succ_of_lt hlt.2⟩
    rep := fun {k' h} hf => by
      rw [ha.mutexes]
      by_cases heq : k' = k
      · subst heq
        obtain rfl := hnew hf
        rw [Function.update_self]
        exact newMutex_rep _
      · have hlt := (hw.found_lt (hold heq hf)).2
        rw [Function.update_of_ne (Nat.ne_of_lt hlt)]
        exact hw.rep (hold heq hf)
    balance := fun {l' h} hl' t => by
      obtain ⟨k', hk', hf⟩ := slot_eq_some.mp hl'
      rw [ha.vars] at hk'
      rw [ha.mutexes]
      by_cases heq : k' = k
      · subst heq
        obtain rfl := hnew hf
        -- the new mutex is free, and nobody has held a lock that had none
        have hslot : w.slot l' = none := by rw [LockWorld.slot, hk']; exact ha.unknown
        rw [Function.update_self, newMutex_levels, hw.unslotted hslot ha.room]
      · have hf' := hold heq hf
        rw [Function.update_of_ne (Nat.ne_of_lt (hw.found_lt hf').2)]
        exact hw.balance (slot_eq_some.mpr ⟨k', hk', hf'⟩) t
    unslotted := fun {l'} hl' _ t => by
      refine hw.unslotted ?_ ha.room t
      cases hs : w.slot l' with
      | none => rfl
      | some h =>
        obtain ⟨k', hk', hf⟩ := slot_eq_some.mp hs
        have hne : k' ≠ k := by
          rintro rfl
          exact nomatch ha.unknown.symm.trans hf
        have : w'.slot l' = some h := slot_eq_some.mpr
          ⟨k', ha.vars ▸ hk', by rw [ha.find, if_neg hne]; exact hf⟩
        exact nomatch hl'.symm.trans this }

/-- Getting a lock's mutex keeps the invariant. -/
private theorem of_lockGet (hw : LockInv out w) {k : LockKey} (hk : k < w.brk)
    (type : UInt8) : LockInv out (s31LockGet k type w).1 := by
  obtain ⟨e, -, -, -, hget⟩ | ⟨-, -, hget⟩ | ⟨w', ha, hget⟩ := s31LockGet_cases k type w
  · rw [hget]
    exact hw
  · rw [hget]
    exact hw
  · rw [hget]
    exact hw.added hk ha

end LockInv

/-! ## The calls under way -/

/-- The code of a call on the mutex `h` of its lock. -/
inductive LockCall (th : TaskThread) (op : LockOp)
    (c : SyncCall MutexHandle LockWorld LockRet TickType) (w : LockWorld) : Prop where
  | take {l h} (f : Int → LockRet) (hlock : op.lock = some l) (hslot : w.slot l = some h)
      (hop : op.isRelease = false) (hf : op.acquired (f 0) = true)
      (hf' : op.isTry = true → f (-1) = some (-1))
      (hpatience : op.isAcquire = true → ∀ start now,
        (c.wait.bind fun p => p.patience start now) ≠ none)
      (hbody : ∀ w, c.body w = (w.setMutex h (semaphoreTakeSection th.1.task (w.mutexes h)).1,
        ((semaphoreTakeSection th.1.task (w.mutexes h)).2.map lockResult).map f))
      (hclosing : ∀ late, c.closing late = none)
  | give {l h} (hlock : op.lock = some l) (hslot : w.slot l = some h)
      (hop : op.isRelease = true) (hop' : ∀ r, op.acquired r = false)
      (hbody : ∀ w, c.body w = (w.setMutex h (giveMutexRecursiveSection th.1.task (w.mutexes h)).1,
        .done none (giveMutexRecursiveSection th.1.task (w.mutexes h)).2.2))
      (hclosing : ∀ late, c.closing late = none)

/-- Then the variable has a key. -/
private theorem lockEnsure_vars {l : LockVar} {w : LockWorld} :
    ∃ k, (lockEnsure l w).vars l = some k := by
  unfold lockEnsure
  split
  · exact ⟨w.brk, Function.update_self ..⟩
  · next h => exact Option.ne_none_iff_exists'.mp h

/-- The mutex `s31_lock_get` returns is the one found later. -/
private theorem s31LockGet_some {k : LockKey} {type : UInt8} {w w' : LockWorld} {h : MutexHandle}
    (hget : s31LockGet k type w = (w', some h)) : w'.vars = w.vars ∧ s31LockFind k w' = some h := by
  obtain ⟨e, -, -, -, hg⟩ | ⟨-, -, hg⟩ | ⟨w₁, ha, hg⟩ := s31LockGet_cases k type w
  · obtain ⟨rfl, hf⟩ := Prod.mk.inj (hget.symm.trans hg)
    exact ⟨rfl, hf.symm⟩
  · exact nomatch (Prod.mk.inj (hget.symm.trans hg)).2
  · obtain ⟨rfl, hh⟩ := Prod.mk.inj (hget.symm.trans hg)
    refine ⟨ha.vars, ?_⟩
    rw [ha.find, if_pos rfl, hh]

/-- The loop of a take that waits at most `timeout`. -/
def takeLoop (t : TaskHandle) (h : MutexHandle) (timeout : TickType) :
    SyncCall MutexHandle LockWorld Int TickType :=
  ((queueLoop h timeout (semaphoreTakeSection t)).zoom (fun w => w.mutexes h)
    (LockWorld.setMutex h)).mapRet lockResult

/-- A take outside ISR context runs the take loop on the lock's mutex. -/
private theorem s31LockTake_eq (th : TaskThread) (k : LockKey) (timeout : TickType) (type : UInt8)
    (w : LockWorld) :
    s31LockTake th.1 k timeout type w =
      ((s31LockGet k type w).1, match (s31LockGet k type w).2 with
        | none => .inl (-1)
        | some h =>
          if s31QueueValid ((s31LockGet k type w).1.mutexes h) then
            .inr (takeLoop th.1.task h timeout)
          else .inl (-1)) := by
  unfold s31LockTake
  split
  · next w' hget => rw [hget]
  -- outside of interrupts both kinds of locks are taken by the same loop
  · next w' h hget =>
    rw [hget]
    simp only [onMutex, th.2, Bool.false_eq_true, ↓reduceIte, xQueueTakeMutexRecursive,
      xQueueSemaphoreTake, ite_self]
    split <;> rfl

/-- A take goes to the key of the variable, which it has by then. -/
private theorem lockTakeVar_some (th : TaskThread) (timeout : TickType) (type : UInt8)
    (w : LockWorld)
    (l : LockVar) :
    ∃ k, (lockEnsure l w).vars l = some k ∧
      lockTakeVar th.1 (some l) timeout type w = s31LockTake th.1 k timeout type (lockEnsure l w) := by
  obtain ⟨k, hk⟩ := lockEnsure_vars (l := l) (w := w)
  exact ⟨k, hk, by simp only [lockTakeVar, hk]⟩

section

variable {th : TaskThread} {lock : Option LockVar} {timeout : TickType} {type : UInt8}
  {w w' : LockWorld}

/-- A take that goes on does so on the mutex of its lock. -/
private theorem lockTakeVar_inr {c : SyncCall MutexHandle LockWorld Int TickType}
    (h : lockTakeVar th.1 lock timeout type w = (w', .inr c)) :
    ∃ l m, lock = some l ∧ w'.slot l = some m ∧ c = takeLoop th.1.task m timeout := by
  cases lock with
  | none => exact nomatch (Prod.mk.inj h).2
  | some l =>
    obtain ⟨k, hk, htake⟩ := lockTakeVar_some th timeout type w l
    rw [htake, s31LockTake_eq] at h
    obtain ⟨rfl, hc⟩ := Prod.mk.inj h
    split at hc
    · exact nomatch hc
    · next m hm =>
      split at hc
      · obtain ⟨hvars, hfind⟩ := s31LockGet_some (Prod.ext rfl hm)
        refine ⟨l, m, rfl, slot_eq_some.mpr ⟨k, ?_, hfind⟩, (Sum.inr.inj hc).symm⟩
        rw [hvars]
        exact hk
      · exact nomatch hc

/-- A take that returns at once has no mutex: its lock is NULL or found the
    table full. -/
private theorem lockTakeVar_inl {out : TaskHandle → LockVar → Nat} {r : Int} (hw : LockInv out w)
    (h : lockTakeVar th.1 lock timeout type w = (w', .inl r)) :
    lock = none ∨ ∃ l, lock = some l ∧ w'.slot l = none ∧ ¬ w'.HasRoom := by
  cases lock with
  | none => exact .inl rfl
  | some l =>
    obtain ⟨k, hk, htake⟩ := lockTakeVar_some th timeout type w l
    rw [htake, s31LockTake_eq] at h
    obtain ⟨rfl, hr⟩ := Prod.mk.inj h
    have hw₁ := hw.of_lockEnsure l
    obtain ⟨e, he, hkey, hhandle, hget⟩ | ⟨hroom, hfind, hget⟩ | ⟨w₁, ha, hget⟩ :=
      s31LockGet_cases k type (lockEnsure l w)
    · -- an entry has a valid mutex, so the take goes on
      obtain ⟨m, hm⟩ := Option.ne_none_iff_exists'.mp
        (hw₁.entry e he (by rw [hkey]; exact Option.some_ne_none _))
      have hfind := hhandle.symm.trans hm
      simp only [hget, hfind, (hw₁.rep hfind).valid, ↓reduceIte] at hr
      exact nomatch hr
    -- the table is full
    · refine .inr ⟨l, rfl, ?_, ?_⟩
      · rw [hget, LockWorld.slot, hk]
        exact hfind
      · rw [hget]
        exact hroom
    -- the new mutex is valid as well
    · have hfind : s31LockFind k w₁ = some (lockEnsure l w).brk := by rw [ha.find, if_pos rfl]
      have hrep := (hw₁.added (hw₁.key_lt hk) ha).rep hfind
      simp only [hget, hrep.valid, ↓reduceIte] at hr
      exact nomatch hr

/-- Entering a take keeps the invariant. -/
theorem LockInv.of_lockTakeVar {out : TaskHandle → LockVar → Nat} (hw : LockInv out w) :
    LockInv out (lockTakeVar th.1 lock timeout type w).1 := by
  cases lock with
  | none => exact hw
  | some l =>
    obtain ⟨k, hk, htake⟩ := lockTakeVar_some th timeout type w l
    rw [htake, s31LockTake_eq]
    exact (hw.of_lockEnsure l).of_lockGet ((hw.of_lockEnsure l).key_lt hk) type

/-- Entering a take keeps every lock's mutex. -/
private theorem lockTakeVar_slot {l : LockVar} {m : MutexHandle} (hl : w.slot l = some m) :
    (lockTakeVar th.1 lock timeout type w).1.slot l = some m := by
  cases lock with
  | none => exact hl
  | some l₀ =>
    obtain ⟨k₀, hk₀, htake⟩ := lockTakeVar_some th timeout type w l₀
    obtain ⟨k, hk, hfind⟩ := slot_eq_some.mp hl
    -- a lock variable that has its key keeps it
    have hkeep : (lockEnsure l₀ w).vars l = some k ∧ s31LockFind k (lockEnsure l₀ w) = some m := by
      unfold lockEnsure
      split
      · next hnone =>
        have hne : l ≠ l₀ := by
          rintro rfl
          exact nomatch hnone.symm.trans hk
        exact ⟨(Function.update_of_ne hne ..).trans hk, hfind⟩
      · exact ⟨hk, hfind⟩
    rw [htake, s31LockTake_eq]
    obtain ⟨e, -, -, -, hget⟩ | ⟨-, -, hget⟩ | ⟨w₁, ha, hget⟩ :=
      s31LockGet_cases k₀ type (lockEnsure l₀ w)
    · rw [hget]
      exact slot_eq_some.mpr ⟨k, hkeep⟩
    · rw [hget]
      exact slot_eq_some.mpr ⟨k, hkeep⟩
    · rw [hget]
      refine slot_eq_some.mpr ⟨k, ha.vars ▸ hkeep.1, ?_⟩
      -- the entry added is for a key that had none
      have hne : k ≠ k₀ := by
        rintro rfl
        exact nomatch ha.unknown.symm.trans hkeep.2
      rw [ha.find, if_neg hne]
      exact hkeep.2

/-- A release of a lock with an entry runs the give section on its mutex; a
    release of any other lock returns at once. -/
private theorem lockReleaseVar_eq (th : TaskThread) (lock : Option LockVar) (w : LockWorld) :
    lockReleaseVar th.1 lock w =
      (w, match lock.bind w.slot with
        | none => .inl none
        | some m =>
          if s31QueueValid (w.mutexes m) ∧ (w.mutexes m).type = s31QTypeMutex then
            .inr ((((SyncCall.once m (giveMutexRecursiveSection th.1.task)).zoom
              (fun w => w.mutexes m) (LockWorld.setMutex m)).mapRet fun _ => ()).mapRet fun _ => none)
          else .inl none) := by
  cases lock with
  | none => rfl
  | some l =>
    simp only [lockReleaseVar, Option.bind_some, LockWorld.slot]
    split
    · next hnone => rw [hnone]; rfl
    -- a key without a mutex is ignored, like a variable without a key
    · next k hk =>
      rw [hk, Option.bind_some]
      simp only [s31LockGive]
      cases hf : s31LockFind k w with
      | none => rfl
      | some m =>
        simp only [onMutex, th.2, Bool.false_eq_true, ↓reduceIte, xQueueGiveMutexRecursive]
        split <;> rfl

end

/-- A call that goes on runs one of the two sections on its lock's mutex. -/
private theorem lockCall_of_entered {th : TaskThread} {op : LockOp} {w w' : LockWorld}
    {c : SyncCall MutexHandle LockWorld LockRet TickType}
    (h : lockCode th op w = (w', .inr c)) : LockCall th op c w' := by
  -- taking with and without waiting, and giving back; both kinds of lock do the same
  cases op with
  | lockAcquire lock | lockAcquireRecursive lock =>
    obtain ⟨hw', hc⟩ := Prod.mk.inj h
    cases hr : (lockTakeVar th.1 lock portMAX_DELAY _ w).2 with
    | inl r => rw [hr] at hc; exact nomatch hc
    | inr c₀ =>
      rw [hr] at hc
      obtain ⟨l, m, rfl, hslot, rfl⟩ := lockTakeVar_inr (Prod.ext hw' hr)
      obtain rfl := Sum.inr.inj hc
      exact .take (fun _ => none) rfl hslot rfl rfl (fun htry => nomatch htry)
        (fun _ _ _ hnone => nomatch hnone) (fun _ => rfl) fun late => by cases late <;> rfl
  | lockTryAcquire lock | lockTryAcquireRecursive lock =>
    obtain ⟨hw', hc⟩ := Prod.mk.inj h
    cases hr : (lockTakeVar th.1 lock 0 _ w).2 with
    | inl r => rw [hr] at hc; exact nomatch hc
    | inr c₀ =>
      rw [hr] at hc
      obtain ⟨l, m, rfl, hslot, rfl⟩ := lockTakeVar_inr (Prod.ext hw' hr)
      obtain rfl := Sum.inr.inj hc
      exact .take some rfl hslot rfl rfl (fun _ => rfl) (fun hacq => nomatch hacq) (fun _ => rfl)
        fun late => by cases late <;> rfl
  -- a release of a lock without a mutex does nothing
  | lockRelease lock | lockReleaseRecursive lock =>
    simp only [lockCode, lockReleaseVar_eq] at h
    obtain ⟨rfl, hc⟩ := Prod.mk.inj h
    split at hc
    · exact nomatch hc
    · next m hm =>
      split at hc
      · obtain ⟨l, rfl, hslot⟩ := Option.bind_eq_some_iff.mp hm
        obtain rfl := Sum.inr.inj hc
        exact .give rfl hslot rfl (fun _ => rfl) (fun _ => rfl) fun _ => rfl
      · exact nomatch hc

/-- Entry code keeps every lock's mutex. -/
private theorem lockCode_slot {th : TaskThread} {op : LockOp} {w : LockWorld} {l : LockVar}
    {m : MutexHandle} (hl : w.slot l = some m) : (lockCode th op w).1.slot l = some m := by
  cases op with
  | lockAcquire | lockAcquireRecursive | lockTryAcquire | lockTryAcquireRecursive =>
    exact lockTakeVar_slot hl
  | lockRelease | lockReleaseRecursive =>
    simp only [lockCode, lockReleaseVar_eq]
    exact hl

/-- Entering a call keeps the invariant. -/
theorem LockInv.of_lockCode {out : TaskHandle → LockVar → Nat} {th : TaskThread} {op : LockOp}
    {w : LockWorld} (hw : LockInv out w) : LockInv out (lockCode th op w).1 := by
  cases op with
  | lockAcquire | lockAcquireRecursive | lockTryAcquire | lockTryAcquireRecursive =>
    exact hw.of_lockTakeVar
  | lockRelease | lockReleaseRecursive =>
    simp only [lockCode, lockReleaseVar_eq]
    exact hw

/-- A take of a lock that has its mutex goes on. -/
private theorem lockCode_refused {out : TaskHandle → LockVar → Nat} {th : TaskThread} {op : LockOp}
    {w w' : LockWorld} {l : LockVar} {m : MutexHandle} {r : LockRet} (hw : LockInv out w)
    (hslot : w.slot l = some m) (hlock : op.lock = some l)
    (h : lockCode th op w = (w', .inl r)) : op.isRelease = true := by
  -- a take is refused only for a lock that gets no mutex
  have htake : ∀ {timeout type r₀}, lockTakeVar th.1 (some l) timeout type w ≠ (w', .inl r₀) := by
    intro timeout type r₀ ht
    obtain hnone | ⟨l', hl', hnone, -⟩ := lockTakeVar_inl hw ht
    · exact nomatch hnone
    · obtain rfl := Option.some.inj hl'
      have hkeep : (lockTakeVar th.1 (some l) timeout type w).1.slot l = some m :=
        lockTakeVar_slot hslot
      rw [ht, hnone] at hkeep
      exact nomatch hkeep
  cases op with
  | lockAcquire lock | lockAcquireRecursive lock =>
    obtain rfl : lock = some l := hlock
    obtain ⟨h₁, h₂⟩ := Prod.mk.inj h
    cases hr : (lockTakeVar th.1 (some l) portMAX_DELAY _ w).2 with
    | inl r₀ => exact absurd (Prod.ext h₁ hr) htake
    | inr c => rw [hr] at h₂; exact nomatch h₂
  | lockTryAcquire lock | lockTryAcquireRecursive lock =>
    obtain rfl : lock = some l := hlock
    obtain ⟨h₁, h₂⟩ := Prod.mk.inj h
    cases hr : (lockTakeVar th.1 (some l) 0 _ w).2 with
    | inl r₀ => exact absurd (Prod.ext h₁ hr) htake
    | inr c => rw [hr] at h₂; exact nomatch h₂
  | lockRelease | lockReleaseRecursive => rfl

/-- A call stays one on its mutex when others are added. -/
theorem LockCall.mono {th : TaskThread} {op : LockOp}
    {c : SyncCall MutexHandle LockWorld LockRet TickType} {w w' : LockWorld}
    (h : LockCall th op c w) (hslot : ∀ l m, w.slot l = some m → w'.slot l = some m) :
    LockCall th op c w' := by
  cases h with
  | take f hlock hs hop hf hf' hpatience hbody hclosing =>
    exact .take f hlock (hslot _ _ hs) hop hf hf' hpatience hbody hclosing
  | give hlock hs hop hop' hbody hclosing =>
    exact .give hlock (hslot _ _ hs) hop hop' hbody hclosing

/-- No call on locks has a closing section. -/
theorem LockCall.closing_none {th : TaskThread} {op : LockOp}
    {c : SyncCall MutexHandle LockWorld LockRet TickType} {w : LockWorld}
    (h : LockCall th op c w) (late : Bool) : c.closing late = none := by
  cases h with
  | take _ _ _ _ _ _ _ _ hclosing => exact hclosing late
  | give _ _ _ _ _ hclosing => exact hclosing late

/-- No step takes a lock's mutex away from it. -/
private theorem atomic_slot {th : TaskThread} {op : LockOp} {e : Event LockOp LockRet}
    {w w' : LockWorld}
    (h : AtomicOf lockCode LockCall th op w e w') (l : LockVar) (m : MutexHandle)
    (hl : w.slot l = some m) : w'.slot l = some m := by
  cases h with
  | refused h | entered h =>
    have hkeep : (lockCode th op w).1.slot l = some m := lockCode_slot hl
    rwa [h] at hkeep
  | closed hc hf _ =>
    rw [hc.closing_none] at hf
    exact nomatch hf
  | locked hc hbody =>
    -- the sections change the mutex, and the table stays
    cases hc with
    | take _ _ _ _ _ _ _ hsec | give _ _ _ _ hsec =>
      rw [hsec] at hbody
      obtain ⟨rfl, -⟩ := Prod.mk.inj hbody
      exact hl

/-! ## One section -/

section

variable {log : List (TaskThread × Event LockOp LockRet)} {w w' : LockWorld} {th : TaskThread}
  {op : LockOp} {l : LockVar} {m : MutexHandle}

/-- The numbers of acquisitions outstanding in a history. -/
def outstandingOf (log : List (TaskThread × Event LockOp LockRet)) (t : TaskHandle) (l : LockVar) :
    Nat :=
  outstanding t l log

/-- A step that decides nothing. -/
theorem LockInv.undecided {e : Event LockOp LockRet} (hw : LockInv (outstandingOf log) w)
    (he : e.decided = none) : LockInv (outstandingOf (log ++ [(th, e)])) w := by
  have heq : outstandingOf (log ++ [(th, e)]) = outstandingOf log := by
    funext t l
    rw [outstandingOf, outstanding_snoc]
    exact outstandingStep_of_ne fun op r hd => nomatch he.symm.trans hd
  rw [heq]
  exact hw

/-- The counts of locks other than the one a step decides on. -/
private theorem outstandingOf_other {e : Event LockOp LockRet} {r : LockRet}
    (hd : e.decided = some (op, r))
    (hlock : op.lock = some l) (t : TaskHandle) (l' : LockVar) (hne : l' ≠ l) :
    outstandingOf (log ++ [(th, e)]) t l' = outstandingOf log t l' := by
  rw [outstandingOf, outstanding_snoc]
  refine outstandingStep_of_ne fun op' r' hd' hl' => hne ?_
  obtain ⟨rfl, -⟩ := Prod.mk.inj (Option.some.inj (hd.symm.trans hd'))
  exact Option.some.inj (hl'.symm.trans hlock)

/-- What a result changes for a task and the lock it is about. -/
private theorem outstandingOf_decided {e : Event LockOp LockRet} {r : LockRet}
    (hd : e.decided = some (op, r)) (hlock : op.lock = some l) (t : TaskHandle) :
    outstandingOf (log ++ [(th, e)]) t l =
      if th.1.task = t then
        if op.acquired r then outstandingOf log t l + 1
        else if op.isRelease then outstandingOf log t l - 1
        else outstandingOf log t l
      else outstandingOf log t l := by
  rw [outstandingOf, outstanding_snoc]
  exact outstandingStep_of_decided hd hlock

/-- The take section: an acquisition more, or nothing. -/
theorem LockInv.take {f : Int → LockRet} (hw : LockInv (outstandingOf log) w)
    (hlock : op.lock = some l) (hslot : w.slot l = some m) (hf : op.acquired (f 0) = true)
    {out : Outcome LockRet}
    (hout : ((semaphoreTakeSection th.1.task (w.mutexes m)).2.map lockResult).map f = out)
    (hnested : outstandingOf (log ++ [(th, .locked op out)]) th.1.task l < 2 ^ 32) :
    LockInv (outstandingOf (log ++ [(th, .locked op out)]))
      (w.setMutex m (semaphoreTakeSection th.1.task (w.mutexes m)).1) := by
  have hrep := hw.slot_rep hslot
  obtain ⟨hallowed, hdone⟩ | ⟨t', -, -, hunmet⟩ := hrep.semaphoreTake_cases th.1.task
  · rw [hdone] at hout ⊢
    obtain rfl : Outcome.done (f 0) false = out := hout
    have hcount : ∀ t, outstandingOf (log ++ [(th, .locked op (.done (f 0) false))]) t l = _ :=
      outstandingOf_decided rfl hlock
    simp only [hf, ↓reduceIte] at hcount
    -- the new level fits, by the bound on the extended history
    have hdepth : (w.mutexes m).levels th.1.task + 1 < 2 ^ 32 := by
      rw [hcount, if_pos rfl] at hnested
      rw [hw.balance hslot]
      exact hnested
    refine hw.setMutex hslot (hrep.takenBy (MutexRep.depth_succ_ne_zero hallowed hdepth))
      (fun t => ?_) (outstandingOf_other rfl hlock)
    rw [MutexRep.levels_takenBy hallowed hdepth, hw.balance hslot, hcount]
    split <;> rfl
  -- another task has it, and nothing changes
  · rw [hunmet] at hout ⊢
    obtain rfl : Outcome.unmet (f (-1)) = out := hout
    have hsame : LockInv (outstandingOf (log ++ [(th, .locked op (.unmet (f (-1))))])) w :=
      hw.undecided rfl
    exact hsame.setMutex hslot hrep (hsame.balance hslot) fun _ _ _ => rfl

/-- The give section: an acquisition less, if there was one. -/
theorem LockInv.give {wake : Bool} (hw : LockInv (outstandingOf log) w) (hlock : op.lock = some l)
    (hslot : w.slot l = some m) (hop : op.isRelease = true) (hop' : ∀ r, op.acquired r = false) :
    LockInv (outstandingOf (log ++ [(th, .locked op (.done none wake))]))
      (w.setMutex m (giveMutexRecursiveSection th.1.task (w.mutexes m)).1) := by
  have hrep := hw.slot_rep hslot
  have hcount : ∀ t, outstandingOf (log ++ [(th, .locked op (.done none wake))]) t l = _ :=
    outstandingOf_decided rfl hlock
  simp only [hop, hop', ↓reduceIte, Bool.false_eq_true] at hcount
  obtain ⟨hheld, hgive⟩ | ⟨hne, hgive⟩ := hrep.giveMutexRecursive_cases th.1.task
  -- one level of the owner's is given back
  · rw [hgive]
    refine hw.setMutex hslot (hrep.giveLevel hheld) (fun t => ?_) (outstandingOf_other rfl hlock)
    have hlevels := MutexRep.levels_giveLevel hheld t
    rw [hw.balance hslot] at hlevels
    rw [hcount]
    by_cases ht : th.1.task = t
    · rw [if_pos ht] at hlevels ⊢
      exact Nat.eq_sub_of_add_eq hlevels
    · rw [if_neg ht] at hlevels ⊢
      exact hlevels
  · rw [hgive]
    refine hw.setMutex hslot hrep (fun t => ?_) (outstandingOf_other rfl hlock)
    rw [hcount, ← hw.balance hslot]
    split
    · next ht =>
      -- a task that is not the owner has nothing to release
      subst ht
      rw [S31Queue.levels, if_neg hne]
    · rfl

/-- A call that returns at once: no lock, a lock without entry and a full table,
    or a release of a lock without entry. -/
theorem LockInv.refused {r : LockRet} (hw : LockInv (outstandingOf log) w)
    (h : lockCode th op w = (w', .inl r)) :
    LockInv (outstandingOf (log ++ [(th, .enter op (some r))])) w' := by
  have hw' : LockInv (outstandingOf log) w' := by
    have hentered : LockInv (outstandingOf log) (lockCode th op w).1 := hw.of_lockCode
    rwa [h] at hentered
  have hd : (Event.enter op (some r)).decided = some (op, r) := rfl
  -- without a lock no count changes
  have hnone : op.lock = none → LockInv (outstandingOf (log ++ [(th, .enter op (some r))])) w' := by
    intro hlock
    have heq : outstandingOf (log ++ [(th, .enter op (some r))]) = outstandingOf log := by
      funext t l
      rw [outstandingOf, outstanding_snoc]
      refine outstandingStep_of_ne fun op' r' hd' => ?_
      obtain ⟨rfl, -⟩ := Prod.mk.inj (Option.some.inj (hd.symm.trans hd'))
      rw [hlock]
      exact fun h => nomatch h
    rw [heq]
    exact hw'
  -- a take is refused when the table is full, so the lock is not counted
  have htake : ∀ {lock timeout type r₀}, op.lock = lock →
      lockTakeVar th.1 lock timeout type w = (w', .inl r₀) →
      LockInv (outstandingOf (log ++ [(th, .enter op (some r))])) w' := by
    intro lock timeout type r₀ hlock ht
    obtain rfl | ⟨l, rfl, hslot, hroom⟩ := lockTakeVar_inl hw ht
    · exact hnone hlock
    · exact hw'.recount hslot (fun hroom' => absurd hroom' hroom) (outstandingOf_other hd hlock)
  -- a release is refused for a lock that has no mutex
  have hrelease : ∀ {lock}, op.lock = lock → op.isRelease = true → op.acquired r = false →
      lockReleaseVar th.1 lock w = (w', .inl r) →
      LockInv (outstandingOf (log ++ [(th, .enter op (some r))])) w' := by
    intro lock hlock hop hacq hr
    rw [lockReleaseVar_eq] at hr
    obtain ⟨rfl, hr⟩ := Prod.mk.inj hr
    cases lock with
    | none => exact hnone hlock
    | some l =>
      simp only [Option.bind_some] at hr
      cases hslot : w.slot l with
      | none =>
        refine hw'.recount hslot (fun hroom t => ?_) (outstandingOf_other hd hlock)
        rw [outstandingOf_decided hd hlock, hacq, hop, hw'.unslotted hslot hroom]
        simp only [Bool.false_eq_true, ↓reduceIte, ite_self, Nat.zero_sub]
      | some m =>
        have hrep := hw'.slot_rep hslot
        simp only [hslot, hrep.valid, hrep.type_eq, and_self, ↓reduceIte] at hr
        exact nomatch hr
  cases op with
  | lockAcquire lock | lockAcquireRecursive lock =>
    obtain ⟨h₁, h₂⟩ := Prod.mk.inj h
    cases hr : (lockTakeVar th.1 lock portMAX_DELAY _ w).2 with
    | inl r₀ => exact htake rfl (Prod.ext h₁ hr)
    | inr c => rw [hr] at h₂; exact nomatch h₂
  | lockTryAcquire lock | lockTryAcquireRecursive lock =>
    obtain ⟨h₁, h₂⟩ := Prod.mk.inj h
    cases hr : (lockTakeVar th.1 lock 0 _ w).2 with
    | inl r₀ => exact htake rfl (Prod.ext h₁ hr)
    | inr c => rw [hr] at h₂; exact nomatch h₂
  | lockRelease lock | lockReleaseRecursive lock => exact hrelease rfl rfl rfl h

/-- Every section keeps the invariant, up to the largest depth. -/
theorem LockInv.atomic {e : Event LockOp LockRet} (hw : LockInv (outstandingOf log) w)
    (h : AtomicOf lockCode LockCall th op w e w')
    (hnested : ∀ t l, outstandingOf (log ++ [(th, e)]) t l < 2 ^ 32) :
    LockInv (outstandingOf (log ++ [(th, e)])) w' := by
  cases h with
  | refused h => exact hw.refused h
  | entered h =>
    have hw' : LockInv (outstandingOf log) (lockCode th op w).1 := hw.of_lockCode
    rw [h] at hw'
    exact hw'.undecided rfl
  | closed hc hf _ =>
    rw [hc.closing_none] at hf
    exact nomatch hf
  | locked hc hbody =>
    -- a section is one of a take or of a give
    cases hc with
    | take f hlock hslot hop hf _ _ hsec _ =>
      rw [hsec] at hbody
      obtain ⟨rfl, hout⟩ := Prod.mk.inj hbody
      exact hw.take hlock hslot hf hout (hnested _ _)
    | give hlock hslot hop hop' hsec _ =>
      rw [hsec] at hbody
      obtain ⟨rfl, rfl⟩ := Prod.mk.inj hbody
      exact hw.give hlock hslot hop hop'

end

/-! ## Runs -/

/-- `_lock_acquire` waits without a time limit, and the bridge ends such a wait
    only by a wake-up. -/
def BridgeWaits (cfg : LockConfig) (th : TaskThread) (ch : Choice LockOp TickType) : Prop :=
  ch = .awake false → ∀ op c start seq left ret, cfg.pc th = .asleep op c start seq left ret →
    op.isAcquire = false

/-- No task nests `2^32` acquisitions of a lock, at any time of the history. -/
def LockNested (log : List (TaskThread × Event LockOp LockRet)) : Prop :=
  ∀ p, p <+: log → ∀ t l, outstandingOf p t l < 2 ^ 32

section

variable {cfg₀ cfg cfg' : LockConfig} {log : List (TaskThread × Event LockOp LockRet)}
  {th : TaskThread} {ch : Choice LockOp TickType}

/-- Only a try gives up, and it returns -1 then. -/
private theorem gaveUp_try {op : LockOp} {r : LockRet} (hsound : cfg.Sound lockCode)
    (hrefusal : ∀ th op c ret, (cfg.pc th).refusal = some (op, c, ret) →
      ∃ w w', c.body w = (w', .unmet ret))
    (hok : BridgeWaits cfg th ch) (h : step lockCode cfg th ch = some (.gaveUp op r, cfg')) :
    op.isTry = true ∧ r = some (-1) := by
  obtain ⟨c, hr, hwhy⟩ := step_gaveUp h
  obtain ⟨w₀, w₀', hcode⟩ := hsound th op c (Pc.call?_of_refusal hr)
  obtain ⟨w, w', hbody⟩ := hrefusal th op c r hr
  cases lockCall_of_entered hcode with
  | give _ _ _ _ hsec =>
    rw [hsec] at hbody
    exact nomatch (Prod.mk.inj hbody).2
  | @take _ m f _ _ hop _ hf' hpatience hsec =>
    -- an acquire waits without a limit, and the bridge does not end its wait
    have hacq : op.isAcquire = false := by
      obtain ⟨start, now, hnone⟩ | ⟨hch, start, seq, left, hpc⟩ := hwhy
      · cases hc : op.isAcquire with
        | false => rfl
        | true => exact absurd hnone (hpatience hc start now)
      · exact hok hch _ _ _ _ _ _ hpc
    -- so it is a try, which reports that the lock is taken
    have htry := LockOp.isTry_of_not hacq hop
    rw [hsec] at hbody
    have hout := (Prod.mk.inj hbody).2
    cases hs : (semaphoreTakeSection th.1.task (w.mutexes m)).2 with
    | done ret wake => rw [hs] at hout; exact nomatch hout
    | unmet ret =>
      obtain rfl := semaphoreTake_unmet_rc (Prod.ext rfl hs)
      rw [hs] at hout
      exact ⟨htry, (Outcome.unmet.inj hout).symm.trans (hf' htry)⟩

/-- Giving up decides no acquisition and no release. -/
theorem LockInv.gaveUp {w : LockWorld} {op : LockOp} {r : LockRet}
    (hw : LockInv (outstandingOf log) w) (htry : op.isTry = true) (hr : r = some (-1)) :
    LockInv (outstandingOf (log ++ [(th, .gaveUp op r)])) w := by
  obtain ⟨hacquire, hrel⟩ := LockOp.isTry_excl htry
  have hacq : op.acquired r = false := by
    subst hr
    simp only [LockOp.acquired, hacquire, htry, Bool.false_or, Bool.true_and]
    decide
  have heq : outstandingOf (log ++ [(th, .gaveUp op r)]) = outstandingOf log := by
    funext t l
    rw [outstandingOf, outstanding_snoc]
    simp only [outstandingStep, Event.decided, hacq, hrel, Bool.false_eq_true, ↓reduceIte, ite_self]
    rfl
  rw [heq]
  exact hw

/-- A history within the bound was within it before. -/
theorem LockNested.of_snoc {x : TaskThread × Event LockOp LockRet}
    (h : LockNested (log ++ [x])) : LockNested log :=
  fun p hp => h p (hp.trans (List.prefix_append ..))

/-- A history of fewer than `2^32` events nests no more than that. -/
private theorem lockNested_of_length (h : log.length < 2 ^ 32) : LockNested log := by
  -- the levels are at most as many as the events
  have hbound : ∀ (p : List (TaskThread × Event LockOp LockRet)) (t : TaskHandle) (l : LockVar)
      (n : Nat), p.foldl (outstandingStep t l) n ≤ n + p.length := by
    intro p t l
    induction p with
    | nil => exact fun n => Nat.le_refl n
    | cons x p ih =>
      intro n
      -- one event is one level more at most
      have hstep : outstandingStep t l n x ≤ n + 1 := by
        unfold outstandingStep
        split
        · split
          · split
            · exact Nat.le_refl _
            · split <;> omega
          · omega
        · omega
      have := ih (outstandingStep t l n x)
      simp only [List.foldl_cons, List.length_cons]
      omega
  intro p hp t l
  have h1 := hbound p t l 0
  have h2 := hp.length_le
  simp only [outstandingOf, outstanding]
  omega

/-- The table before any lock is used. -/
private theorem espLibcLocksInit_inv : LockInv (outstandingOf []) espLibcLocksInit := by
  have hfind : ∀ k, s31LockFind k locksCleared = none := fun _ => rfl
  have hcleared : LockInv (outstandingOf []) locksCleared := {
    entry := fun e he hkey => absurd (by rw [List.eq_of_mem_replicate he]) hkey
    key_inj := fun h => nomatch h
    handle_inj := fun {k _ _} h => nomatch (hfind k).symm.trans h
    key_lt := fun h => nomatch h
    found_lt := fun {k _} h => nomatch (hfind k).symm.trans h
    rep := fun {k _} h => nomatch (hfind k).symm.trans h
    balance := fun h => nomatch h
    unslotted := fun _ _ _ => rfl }
  exact hcleared.of_lockGet (by decide) _

/-- Calls that gave up in a history are tries that returned -1. -/
def OnlyTries (log : List (TaskThread × Event LockOp LockRet)) : Prop :=
  ∀ x ∈ log, ∀ op r, x.2 = .gaveUp op r → op.isTry = true ∧ r = some (-1)

/-- In such a run only a try fails. -/
private theorem run_onlyTries (hrun : Run lockCode BridgeWaits cfg₀ log cfg)
    (hidle : ∀ th, cfg₀.pc th = .idle) : OnlyTries log := by
  induction hrun with
  | nil => exact fun x hx => nomatch hx
  | snoc hrun hok hstep ih =>
    intro x hx op r hxe
    obtain hold | hnew := List.mem_append.mp hx
    · exact ih x hold op r hxe
    · obtain rfl := List.mem_singleton.mp hnew
      obtain rfl : _ = Event.gaveUp op r := hxe
      exact gaveUp_try (hrun.sound (Config.sound_of_idle hidle))
        (fun _ _ _ _ => hrun.refusal hidle) hok hstep

/-- The invariant of every run. -/
theorem run_lockInv (hrun : Run lockCode BridgeWaits cfg₀ log cfg)
    (hidle : ∀ th, cfg₀.pc th = .idle) (hinit : cfg₀.shared = espLibcLocksInit)
    (hnested : LockNested log) :
    LockInv (outstandingOf log) cfg.shared ∧
      ∀ th op c, (cfg.pc th).call? = some (op, c) → LockCall th op c cfg.shared := by
  have htries := run_onlyTries hrun hidle
  -- the invariant of the run, under what the log says of the calls so far
  let I (log : List (TaskThread × Event LockOp LockRet)) (w : LockWorld) : Prop :=
    OnlyTries log → LockNested log → LockInv (outstandingOf log) w
  have hatomic : ∀ log th op e w w', I log w → AtomicOf lockCode LockCall th op w e w' →
      I (log ++ [(th, e)]) w' := by
    intro log th op e w w' ih hat htries hnested
    have hold : OnlyTries log := fun x hx => htries x (List.mem_append_left _ hx)
    exact (ih hold hnested.of_snoc).atomic hat (hnested _ (List.prefix_refl _))
  -- a call that gives up is a try, which holds nothing
  have hquiet : ∀ log th e w, I log w → e.Quiet → I (log ++ [(th, e)]) w := by
    intro log th e w ih hq htries hnested
    have hold : OnlyTries log := fun x hx => htries x (List.mem_append_left _ hx)
    have hw := ih hold hnested.of_snoc
    cases e with
    | gaveUp op r =>
      obtain ⟨htry, hr⟩ := htries (th, .gaveUp op r) (by simp) op r rfl
      exact hw.gaveUp htry hr
    | woke | silent => exact hw.undecided rfl
    | _ => exact hq.elim
  have hrule := hrun.call_rule (R := LockCall)
    (fun th op c hc => by rw [hidle] at hc; exact nomatch hc)
    (fun _ _ => hinit ▸ espLibcLocksInit_inv) (fun _ _ _ _ _ hcode => lockCall_of_entered hcode)
    (fun _ _ _ _ _ hat _ _ _ hc => hc.mono (atomic_slot hat)) hatomic hquiet
  exact ⟨hrule.1 htries hnested, hrule.2⟩

/-- A call decided while another task holds its lock: no acquire returns, and
    every try returns -1. -/
private theorem decided_while_held {l : LockVar} {m : MutexHandle} {A : TaskHandle}
    {e : Event LockOp LockRet}
    {op : LockOp} {r : LockRet} (hrun : Run lockCode BridgeWaits cfg₀ log cfg)
    (hidle : ∀ th, cfg₀.pc th = .idle) (hinv : LockInv (outstandingOf log) cfg.shared)
    (hcalls : ∀ th op c, (cfg.pc th).call? = some (op, c) → LockCall th op c cfg.shared)
    (hslot : cfg.shared.slot l = some m) (howner : (cfg.shared.mutexes m).owner = some A)
    (hne : th.1.task ≠ A) (hok : BridgeWaits cfg th ch)
    (hstep : step lockCode cfg th ch = some (e, cfg')) (hd : e.decided = some (op, r))
    (hlock : op.lock = some l) : op.isAcquire = false ∧ (op.isTry = true → r = some (-1)) := by
  have h := Step.of_step hstep
  have hrep := hinv.slot_rep hslot
  -- releases have nothing to show
  have hrelease : op.isRelease = true → op.isAcquire = false ∧ (op.isTry = true → r = some (-1)) := by
    intro hrel
    cases op with
    | lockRelease | lockReleaseRecursive => exact ⟨rfl, fun htry => nomatch htry⟩
    | _ => exact nomatch hrel
  cases e with
  | woke | silent => exact nomatch hd
  | gaveUp op' r' =>
    obtain ⟨rfl, rfl⟩ := Prod.mk.inj (Option.some.inj hd)
    obtain ⟨htry, hr⟩ := gaveUp_try (hrun.sound (Config.sound_of_idle hidle))
      (fun _ _ _ _ => hrun.refusal hidle) hok hstep
    exact ⟨(LockOp.isTry_excl htry).1, fun _ => hr⟩
  | closed op' r' =>
    obtain ⟨op'', hat⟩ | ⟨hq, -⟩ := h.atomicOf (hcalls th)
    · cases hat with
      | closed hc hf _ =>
        rw [hc.closing_none] at hf
        exact nomatch hf
    · exact hq.elim
  | locked op' out =>
    obtain ⟨c, start, seq, hpc, hbody⟩ := h.locked_inv
    cases out with
    | unmet => exact nomatch hd
    | done r' wake =>
      obtain ⟨rfl, rfl⟩ := Prod.mk.inj (Option.some.inj hd)
      cases hcalls th op' c (by rw [hpc]; rfl) with
      | give _ _ hrel _ _ _ => exact hrelease hrel
      | @take l' m' f hlock' hslot' _ _ _ _ hsec _ =>
        -- the lock's mutex has another owner, so the section found it taken
        obtain rfl := Option.some.inj (hlock.symm.trans hlock')
        obtain rfl := Option.some.inj (hslot.symm.trans hslot')
        rw [hsec] at hbody
        have hout := (Prod.mk.inj hbody).2
        obtain ⟨hallowed, -⟩ | ⟨t', -, -, hunmet⟩ := hrep.semaphoreTake_cases th.1.task
        · obtain ho | hfree := hallowed
          · exact absurd (Option.some.inj (ho.symm.trans howner)) hne
          · exact nomatch hfree.1.symm.trans howner
        · rw [hunmet] at hout
          exact nomatch hout
  | enter op' r' =>
    cases r' with
    | none => exact nomatch hd
    | some r' =>
      obtain ⟨rfl, rfl⟩ := Prod.mk.inj (Option.some.inj hd)
      obtain ⟨op'', hat⟩ | ⟨hq, -⟩ := h.atomicOf (hcalls th)
      · cases hat with
        | refused hcode => exact hrelease (lockCode_refused hinv hslot hlock hcode)
      · exact hq.elim

/-- In every run of the entry points by tasks, a lock that has its entry in the
    table is held by at most one task, and while task `A` holds it, no acquire
    by another task returns and every try by another task returns -1. -/
theorem lock_exclusion (hrun : Run lockCode BridgeWaits cfg₀ log cfg)
    (hidle : ∀ th, cfg₀.pc th = .idle) (hinit : cfg₀.shared = espLibcLocksInit)
    (hnested : LockNested log) {l : LockVar} (hslot : cfg.shared.slot l ≠ none) :
    (∀ t t', outstanding t l log ≠ 0 → outstanding t' l log ≠ 0 → t = t') ∧
      ∀ A, outstanding A l log ≠ 0 → ∀ th ch e cfg' op r, BridgeWaits cfg th ch →
        step lockCode cfg th ch = some (e, cfg') → th.1.task ≠ A →
        e.decided = some (op, r) → op.lock = some l →
        op.isAcquire = false ∧ (op.isTry = true → r = some (-1)) := by
  obtain ⟨hinv, hcalls⟩ := run_lockInv hrun hidle hinit hnested
  obtain ⟨m, hm⟩ := Option.ne_none_iff_exists'.mp hslot
  -- who has outstanding takes owns the mutex, and there is one owner
  have howner : ∀ t, outstanding t l log ≠ 0 → (cfg.shared.mutexes m).owner = some t := by
    intro t ht
    apply MutexRep.owner_of_levels
    rw [hinv.balance hm]
    exact ht
  refine ⟨fun t t' ht ht' => Option.some.inj ((howner t ht).symm.trans (howner t' ht')), ?_⟩
  intro A hA th ch e cfg' op r hok hstep hne hd hlock
  exact decided_while_held hrun hidle hinv hcalls hm (howner A hA) hne hok hstep hd hlock

end

/-- The configuration after start-up. -/
def lockStart : LockConfig where
  shared := espLibcLocksInit
  seq := fun _ => 0
  pc := fun _ => .idle

/-- Task `t` outside ISR context. -/
def taskThread (t : TaskHandle) : TaskThread := ⟨⟨t, t, false⟩, rfl⟩

/-- `_lock_try_acquire` of lock `l` by task `t`, to its return. -/
def trySchedule (t : TaskHandle) (l : LockVar) : List (TaskThread × Choice LockOp TickType) :=
  [(taskThread t, .call (.lockTryAcquire (some l)) 0), (taskThread t, .go 0), (taskThread t, .go 0)]

/-- A schedule without spurious failures is one of a bridge that waits. -/
private theorem bridgeWaits_of_schedule {sched : List (TaskThread × Choice LockOp TickType)}
    (h : ∀ x ∈ sched, x.2 ≠ .awake false) : ∀ x ∈ sched, ∀ cfg, BridgeWaits cfg x.1 x.2 :=
  fun x hx _ hch => absurd hch (h x hx)

/-- Task 10 holds lock 0 when task 20 tries it. -/
theorem lock_exclusion_pair :
    ∃ (log : List (TaskThread × Event LockOp LockRet)) (cfg : LockConfig),
      Run lockCode BridgeWaits lockStart log cfg ∧ outstanding 10 0 log = 1 ∧
      ∀ t t', outstanding t 0 log ≠ 0 → outstanding t' 0 log ≠ 0 → t = t' := by
  have hrun : Run lockCode BridgeWaits lockStart _ _ :=
    Run.of_exec (bridgeWaits_of_schedule (by decide)) (show exec lockCode lockStart
      (trySchedule 10 0 ++ trySchedule 20 0) = some _ from rfl)
  exact ⟨_, _, hrun, rfl, (lock_exclusion hrun (fun _ => rfl) rfl
    (lockNested_of_length (by decide)) (l := 0) (fun hnone => nomatch hnone)).1⟩

set_option maxRecDepth 8192 in
/-- Task 10 uses 31 locks; together with the lock of libc the table is full, and
    `_lock_acquire` of one more lock returns to both tasks. -/
private theorem acquire_of_full_table :
    ∃ (log : List (TaskThread × Event LockOp LockRet)) (cfg : LockConfig),
      Run lockCode BridgeWaits lockStart log cfg ∧
      outstanding 10 31 log = 1 ∧ outstanding 20 31 log = 1 := by
  have hrun : Run lockCode BridgeWaits lockStart _ _ :=
    Run.of_exec (bridgeWaits_of_schedule (by decide)) (show exec lockCode lockStart
      ((List.range 31).flatMap (trySchedule 10) ++
        [(taskThread 10, .call (.lockAcquire (some 31)) 0),
          (taskThread 20, .call (.lockAcquire (some 31)) 0)]) = some _ from rfl)
  exact ⟨_, _, hrun, rfl, rfl⟩

/-- What exclusion does not extend to.  A task that holds a lock acquires it
    again through the entry point for locks that are not recursive.  And a lock
    that found the table full is acquired by everybody. -/
theorem lock_exclusion_limits :
    (∃ (log : List (TaskThread × Event LockOp LockRet)) (cfg : LockConfig),
      Run lockCode BridgeWaits lockStart log cfg ∧ outstanding 10 0 log = 2 ∧
      ∀ x ∈ log, ∀ p, x.2.decided = some p → p = (.lockTryAcquire (some 0), some 0)) ∧
    ∃ (log : List (TaskThread × Event LockOp LockRet)) (cfg : LockConfig),
      Run lockCode BridgeWaits lockStart log cfg ∧
      outstanding 10 31 log = 1 ∧ outstanding 20 31 log = 1 := by
  have hrun : Run lockCode BridgeWaits lockStart _ _ :=
    Run.of_exec (bridgeWaits_of_schedule (by decide)) (show exec lockCode lockStart
      (trySchedule 10 0 ++ trySchedule 10 0) = some _ from rfl)
  exact ⟨⟨_, _, hrun, rfl, by decide⟩, acquire_of_full_table⟩

end EspS31.Rtos
