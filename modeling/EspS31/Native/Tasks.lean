import Mathlib.Algebra.Ring.Nat
import Mathlib.Data.List.Basic
import Mathlib.Logic.Function.Basic

/-!
# Tasks, their local storage and critical sections

`s31_rtos_core.c`: `xTaskCreatePinnedToCore`, `vTaskDelete`, the end of
`s31_rtos_task_entry`, `s31_rtos_task_release`, thread local storage,
`vTaskPrioritySet` and `vPortEnterCritical`.

What the allocator and the bridge answer is part of a call.  A call that reads the
block of a task after it was freed, or frees what is not in use, is a fault.  A
destructor of local storage may call any of these functions and may block, so the loop
over the destructors is taken apart: `clean` is one round of it, and the frames are the
loops under way, those of one thread with the innermost first.  Each task has a number,
so that a block that is used again is not taken for the task it was.
-/

namespace EspS31.Tasks

/-- `struct s31_tcb` without its notification. -/
structure Tcb where
  id : Nat
  name : List UInt8
  entry : Nat := 0
  arg : Nat := 0
  priority : UInt32
  linuxTask : Nat := 0
  stackBase : Nat := 0
  stackSize : UInt32 := 0
  tls : Nat → Nat := fun _ => 0
  tlsDtor : Nat → Option Nat := fun _ => none
  criticalDepth : UInt32 := 0
  criticalFlags : UInt32 := 0
  tlsCleaned : Bool := false
  notifyContext : Option Nat := none
  suspendContext : Option Nat := none

/-- The calls of destructors and of the bridge, and the calls of the two functions for
    critical sections, with the number of the task they concern. -/
inductive Obs where
  | destructor (id index dtor value : Nat)
  | exitCurrent (id : Nat)
  | taskStop (linuxTask : Nat)
  | setPriority (linuxTask : Nat) (priority : UInt32)
  | enterCall (id : Nat)
  | exitCall (id : Nat)
  | criticalEnter (id : Nat) (flags : UInt32)
  | criticalExit (id : Nat) (flags : UInt32)
deriving DecidableEq, Repr

/-- A read of a task's block that was freed, or a free of what is not in use. -/
inductive Fault where
  | useAfterFree | badFree
deriving DecidableEq, Repr

/-- A loop over the destructors of `target` in the thread of `thread`; `next` is its
    `i`. -/
structure Frame where
  thread : Nat
  target : Nat
  next : Nat
  deleting : Bool
deriving DecidableEq, Repr

/-- The task blocks by address, what is allocated and created, the loops under way and
    the history. -/
structure State where
  tcbs : Nat → Option Tcb
  blocks : List Nat := []
  contexts : List Nat := []
  frames : List Frame := []
  ids : Nat := 1
  schedulerStarted : Bool := false
  trace : List Obs := []

/-- One observation more. -/
def State.log (s : State) (o : Obs) : State := { s with trace := s.trace ++ [o] }

/-- The observation of a step, if it has one. -/
def State.record (s : State) : Option Obs → State
  | none => s
  | some o => s.log o

/-- Address of `s31_foreign_tcb`. -/
def foreignTcb : Nat := 1

/-- `strncpy` of at most 15 characters to the zeroed name. -/
def nameField (name : List UInt8) : List UInt8 :=
  (name.take 15) ++ List.replicate (16 - (name.take 15).length) 0

/-- `"radio-worker"` -/
def radioWorker : List UInt8 := "radio-worker".toUTF8.toList

/-- `"s31-task"` -/
def s31Task : List UInt8 := "s31-task".toUTF8.toList

/-- `s31_rtos_init` -/
def s31RtosInit : State where
  tcbs := Function.update (fun _ => none) foreignTcb
    (some { id := 0, name := nameField radioWorker, priority := 24 })

/-! ## The allocator and the bridge -/

/-- A block of memory more in use. -/
def State.malloc (s : State) (block : Nat) : State := { s with blocks := block :: s.blocks }

/-- `s31_rtos_free` -/
def State.free (s : State) (block : Nat) : Except Fault State :=
  if block ∈ s.blocks then .ok { s with blocks := s.blocks.erase block } else .error .badFree

/-- `s31_linux_sync_create` with its answer -/
def State.syncCreate (s : State) (ctx : Option Nat) : State :=
  { s with contexts := ctx.toList ++ s.contexts }

/-- `if (ctx) s31_linux_sync_destroy(ctx)` -/
def State.syncDestroy (s : State) (ctx : Option Nat) : Except Fault State :=
  match ctx with
  | none => .ok s
  | some h =>
    if h ∈ s.contexts then .ok { s with contexts := s.contexts.erase h } else .error .badFree

/-- Goes on with what is in the block of a task. -/
def State.withTask (s : State) (t : Nat) (f : Tcb → State) : Except Fault State :=
  match s.tcbs t with
  | none => .error .useAfterFree
  | some tcb => .ok (f tcb)

/-! ## Creation and release -/

/-- The arguments of a creation. -/
structure CreateArgs where
  taskFunc : Option Nat
  name : Option (List UInt8)
  stackDepth : UInt32
  param : Nat
  prio : UInt32

/-- What the allocator and the bridge answer, in the order of the calls. -/
structure CreateAnswers where
  tcb : Option Nat
  notify : Option Nat
  suspend : Option Nat
  stack : Option Nat
  linuxTask : Option Nat

/-- The size of a stack of `depth` bytes. -/
def stackSize (depth : UInt32) : UInt32 :=
  let size := (depth + 15) &&& ~~~15
  if size < 8192 then 8192 else size

/-- The block of a new task. -/
def newTcb (args : CreateArgs) (a : CreateAnswers) (taskFunc stack linuxTask id : Nat) : Tcb where
  id := id
  name := nameField (args.name.getD s31Task)
  entry := taskFunc
  arg := args.param
  priority := args.prio
  linuxTask := linuxTask
  stackBase := stack
  stackSize := stackSize args.stackDepth
  notifyContext := a.notify
  suspendContext := a.suspend

/-- The end of a creation that fails behind its first allocation. -/
def giveBack (a : CreateAnswers) (t : Nat) (s : State) : Except Fault (Bool × State) := do
  let s ← s.syncDestroy a.notify
  let s ← s.syncDestroy a.suspend
  let s ← s.free t
  return (false, s)

/-- Creates a task; whatever was obtained is given back when something is missing. -/
def xTaskCreatePinnedToCore (args : CreateArgs) (a : CreateAnswers) (s : State) :
    Except Fault (Bool × State) :=
  match args.taskFunc with
  | none => .ok (false, s)
  | some taskFunc =>
    if args.stackDepth = 0 then .ok (false, s)
    else
      match a.tcb with
      | none => .ok (false, s)
      | some t =>
        let s := ((s.malloc t).syncCreate a.notify).syncCreate a.suspend
        -- one of the two may have been created, and then it is destroyed
        if a.notify.isNone ∨ a.suspend.isNone then giveBack a t s
        else
          match a.stack with
          | none => giveBack a t s
          | some stack =>
            let s := s.malloc stack
            match a.linuxTask with
            | none =>
              -- the bridge has not got the stack, so it is freed here
              (s.free stack).bind fun s => giveBack a t s
            | some linuxTask =>
              -- from here on the stack is the bridge's
              .ok (true, { s with
                tcbs := Function.update s.tcbs t (some (newTcb args a taskFunc stack linuxTask s.ids))
                ids := s.ids + 1
                schedulerStarted := true })

/-- `s31_rtos_task_release`, called by the bridge -/
def s31RtosTaskRelease (t : Nat) (s : State) : Except Fault State :=
  match s.tcbs t with
  | none => .error .useAfterFree
  | some tcb => do
    let s ← s.syncDestroy tcb.notifyContext
    let s ← s.syncDestroy tcb.suspendContext
    State.free { s with tcbs := Function.update s.tcbs t none } t

/-- What the bridge does with a task whose payload has returned: it releases the block
    and frees the stack that it has got for the task. -/
def bridgeRelease (t : Nat) (s : State) : Except Fault State :=
  match s.tcbs t with
  | none => .error .useAfterFree
  | some tcb => (s31RtosTaskRelease t s).bind fun s => s.free tcb.stackBase

/-! ## Local storage -/

/-- A task's control block written. -/
def State.setTcb (s : State) (t : Nat) (tcb : Tcb) : State :=
  { s with tcbs := Function.update s.tcbs t (some tcb) }

/-- A TLS pointer; null at an index out of range. -/
def pvTaskGetThreadLocalStoragePointer (cur : Nat) (task : Option Nat) (index : Int) (s : State) :
    Except Fault Nat :=
  match s.tcbs (task.getD cur) with
  | none => .error .useAfterFree
  | some tcb => .ok (if index < 0 ∨ index ≥ 4 then 0 else tcb.tls index.toNat)

/-- Sets a TLS pointer with its destructor. -/
def vTaskSetThreadLocalStoragePointerAndDelCallback (cur : Nat) (task : Option Nat) (index : Int)
    (value : Nat) (dtor : Option Nat) (s : State) : Except Fault State :=
  s.withTask (task.getD cur) fun tcb =>
    if index < 0 ∨ index ≥ 4 then s
    else
      s.setTcb (task.getD cur) { tcb with
        tls := Function.update tcb.tls index.toNat value
        tlsDtor := Function.update tcb.tlsDtor index.toNat dtor }

/-- `if (!t->tls_cleaned) { t->tls_cleaned = 1; ...` with the loop still to run. -/
def startCleaning (thread t : Nat) (tcb : Tcb) (deleting : Bool) (s : State) : State :=
  { s.setTcb t { tcb with tlsCleaned := true } with
    frames := ⟨thread, t, 0, deleting⟩ :: s.frames }

/-- The end of `vTaskDelete`.  Of a thread that exits no loop is left. -/
def finishDelete (cur t : Nat) (tcb : Tcb) (s : State) : State :=
  if t = cur then
    { s with frames := s.frames.filter fun f => f.thread ≠ cur }.log (.exitCurrent tcb.id)
  else s.log (.taskStop tcb.linuxTask)

/-- Calls the destructors, by the first delete only, and ends the task when it is the caller's. -/
def vTaskDelete (cur : Nat) (task : Option Nat) (s : State) : Except Fault State :=
  s.withTask (task.getD cur) fun tcb =>
    if ¬ tcb.tlsCleaned then startCleaning cur (task.getD cur) tcb true s
    else finishDelete cur (task.getD cur) tcb s

/-- `s31_rtos_task_entry` once the function of the task has returned. -/
def taskEntryReturns (cur : Nat) (s : State) : Except Fault State :=
  s.withTask cur fun tcb => if ¬ tcb.tlsCleaned then startCleaning cur cur tcb false s else s

/-- One round of the innermost loop of a thread. -/
def clean (cur : Nat) (s : State) : Except Fault State :=
  match s.frames.find? fun f => f.thread = cur with
  | none => .ok s
  | some f =>
    s.withTask f.target fun tcb =>
      if f.next < 4 then
        -- the destructor may delete the task again, so `i` counts on first
        let s := { s with frames := { f with next := f.next + 1 } :: s.frames.erase f }
        match tcb.tlsDtor f.next with
        | none => s
        | some dtor => s.log (.destructor tcb.id f.next dtor (tcb.tls f.next))
      else
        -- the loop is over; behind it only `vTaskDelete` has more to do
        let s := { s with frames := s.frames.erase f }
        if f.deleting then finishDelete cur f.target tcb s else s

/-! ## Priorities and critical sections -/

/-- Sets a priority. -/
def vTaskPrioritySet (cur : Nat) (task : Option Nat) (priority : UInt32) (s : State) :
    Except Fault State :=
  s.withTask (task.getD cur) fun tcb =>
    (s.setTcb (task.getD cur) { tcb with priority := priority }).log
      (.setPriority tcb.linuxTask priority)

/-- `flags` is what `s31_linux_critical_enter` would return. -/
def vPortEnterCritical (cur : Nat) (flags : UInt32) (s : State) : Except Fault State :=
  s.withTask cur fun tcb =>
    -- the outermost entry keeps the flags that the last exit gives back
    if tcb.criticalDepth = 0 then
      (s.setTcb cur { tcb with criticalDepth := tcb.criticalDepth + 1, criticalFlags := flags }).log
        (.criticalEnter tcb.id flags)
    else s.setTcb cur { tcb with criticalDepth := tcb.criticalDepth + 1 }

/-- Leaves a section; the last one unlocks with the flags of the lock. -/
def vPortExitCritical (cur : Nat) (s : State) : Except Fault State :=
  s.withTask cur fun tcb =>
    -- an exit without an entry does nothing
    if tcb.criticalDepth = 0 then s
    else
      let s := s.setTcb cur { tcb with criticalDepth := tcb.criticalDepth - 1 }
      if tcb.criticalDepth - 1 = 0 then s.log (.criticalExit tcb.id tcb.criticalFlags) else s

/-- `s31_rtos_can_yield` -/
def s31RtosCanYield (cur : Nat) (inIsr : Bool) (s : State) : Except Fault Bool :=
  if inIsr then .ok false
  else
    match s.tcbs cur with
    | none => .error .useAfterFree
    | some tcb => .ok (tcb.criticalDepth = 0)

/-! ## Runs -/

/-- A call, or what the bridge does.  `cur` is the task that `s31_rtos_current` finds. -/
inductive Event where
  | create (args : CreateArgs) (a : CreateAnswers)
  | release (t : Nat)
  | setTls (cur : Nat) (task : Option Nat) (index : Int) (value : Nat) (dtor : Option Nat)
  | delete (cur : Nat) (task : Option Nat)
  | entryReturns (cur : Nat)
  | clean (cur : Nat)
  | setPriority (cur : Nat) (task : Option Nat) (priority : UInt32)
  | enterCritical (cur : Nat) (flags : UInt32)
  | exitCritical (cur : Nat)

/-- What an event does. -/
def perform (s : State) : Event → Except Fault State
  | .create args a => (xTaskCreatePinnedToCore args a s).map Prod.snd
  | .release t => bridgeRelease t s
  | .setTls cur task index value dtor =>
    vTaskSetThreadLocalStoragePointerAndDelCallback cur task index value dtor s
  | .delete cur task => vTaskDelete cur task s
  | .entryReturns cur => taskEntryReturns cur s
  | .clean cur => Tasks.clean cur s
  | .setPriority cur task priority => vTaskPrioritySet cur task priority s
  | .enterCritical cur flags => vPortEnterCritical cur flags s
  | .exitCritical cur => vPortExitCritical cur s

/-- Who enters a critical section or leaves it. -/
def Event.observed (s : State) : Event → Option Obs
  | .enterCritical cur _ => (s.tcbs cur).map fun tcb => .enterCall tcb.id
  | .exitCritical cur => (s.tcbs cur).map fun tcb => .exitCall tcb.id
  | _ => none

/-- An event, with what is observed of it. -/
def step (s : State) (e : Event) : Except Fault State :=
  (perform s e).map fun s' => s'.record (e.observed s)

end EspS31.Tasks
