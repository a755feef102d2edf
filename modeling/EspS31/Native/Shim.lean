import EspS31.Native.Event
import EspS31.Native.Locks
import EspS31.Native.Notify

/-!
# The entry points of the shim and the bridge functions they call

One entry point at a time, run to its end: `perform` gives the objects it leaves and
the bridge functions it has called, each with the context it was given and whether
that context was created and not destroyed before.  What the allocator, the bridge
and the clock answer is part of the call.

Arguments are addresses, `none` for NULL.  The calls on queues, event groups and
notifications are those of the other modules, with the context field of the object
they work on.
-/

namespace EspS31.Rtos

open SyncProtocol

/-- The synchronisation part of `struct s31_tcb`. -/
structure Task where
  tcb : S31Tcb := ⟨0, .notWaiting⟩
  notifyContext : Option BridgeHandle := none
  suspendContext : Option BridgeHandle := none
deriving DecidableEq, Repr

/-- The objects by address, and the contexts created and not destroyed. -/
structure Shim where
  queues : Nat → Option S31Queue := fun _ => none
  groups : Nat → Option S31EventGroup := fun _ => none
  tasks : TaskHandle → Option Task := fun _ => none
  contexts : List BridgeHandle := []

/-- Address of `s31_foreign_tcb`, the task that `s31_rtos_current` finds in the radio
    worker. -/
def foreignTcb : TaskHandle := 1

/-- `s31_rtos_init`: the foreign task is all zero but its name and priority. -/
def s31RtosInit : Shim where
  tasks := Function.update (fun _ => none) foreignTcb (some {})

/-- A call of the bridge.  `live` is whether the context was created and not
    destroyed. -/
inductive Use where
  | sync (fn : SyncFn) (ctx : Option BridgeHandle) (live : Bool)
  | taskDelay (ticks : TickType)
  | taskYield
  | taskExitCurrent
  | taskStop
deriving DecidableEq, Repr

/-- The use of a context, and whether it lives. -/
def Shim.use (s : Shim) (fn : SyncFn) (ctx : Option BridgeHandle) : Use :=
  .sync fn ctx (ctx.any fun h => h ∈ s.contexts)

/-- `s31_linux_sync_create` with its answer. -/
def Shim.create (s : Shim) (ctx : Option BridgeHandle) : Shim :=
  { s with contexts := ctx.toList ++ s.contexts }

/-- `s31_linux_sync_destroy` -/
def Shim.destroy (s : Shim) (ctx : Option BridgeHandle) : Shim × List Use :=
  ({ s with contexts := match ctx with
      | none => s.contexts
      | some h => s.contexts.erase h }, [s.use .destroy ctx])

/-- `if (ctx) s31_linux_sync_destroy(ctx)` -/
def Shim.destroyIf (s : Shim) (ctx : Option BridgeHandle) : Shim × List Use :=
  if ctx.isSome then s.destroy ctx else (s, [])

/-- What a call meets while it runs: the time at its entry, the time before its waits
    and how many of them succeed. -/
structure CallEnv where
  start : TickType
  clock : Nat → TickType
  woken : Nat

/-- The rest of a call on an object. -/
def Shim.runCall {σ : Type} (s : Shim) (env : CallEnv)
    (c : SyncCall (Option BridgeHandle) σ Ret TickType) (obj : σ) : σ × List Use :=
  let r := c.alone env.start env.clock env.woken obj
  (r.2.1, r.1.map fun fn => s.use fn c.ctx)

/-- A call on the queue at `q`. -/
def queueCall (env : CallEnv) (q : Option Nat)
    (f : S31Queue → Ret ⊕ SyncCall (Option BridgeHandle) S31Queue Ret TickType) (s : Shim) :
    Shim × List Use :=
  match q.bind fun a => (s.queues a).map fun queue => (a, queue) with
  | none => (s, [])
  | some (a, queue) =>
    match f queue with
    | .inl _ => (s, [])
    | .inr c =>
      let r := s.runCall env c queue
      ({ s with queues := Function.update s.queues a (some r.1) }, r.2)

/-- A call on the event group at `g`. -/
def groupCall (env : CallEnv) (g : Option Nat)
    (f : S31EventGroup → Ret ⊕ SyncCall (Option BridgeHandle) S31EventGroup Ret TickType)
    (s : Shim) : Shim × List Use :=
  match g.bind fun a => (s.groups a).map fun group => (a, group) with
  | none => (s, [])
  | some (a, group) =>
    match f group with
    | .inl _ => (s, [])
    | .inr c =>
      let r := s.runCall env c group
      ({ s with groups := Function.update s.groups a (some r.1) }, r.2)

/-- A call on the notification of the task at `t`, with its context. -/
def taskCall (env : CallEnv) (t : Option TaskHandle)
    (f : Option BridgeHandle → S31Tcb → Ret ⊕ SyncCall (Option BridgeHandle) S31Tcb Ret TickType)
    (s : Shim) : Shim × List Use :=
  match t.bind fun a => (s.tasks a).map fun task => (a, task) with
  | none => (s, [])
  | some (a, task) =>
    match f task.notifyContext task.tcb with
    | .inl _ => (s, [])
    | .inr c =>
      let r := s.runCall env c task.tcb
      ({ s with tasks := Function.update s.tasks a (some { task with tcb := r.1 }) }, r.2)

/-- Puts a queue that a creator has made at the block it got. -/
def Shim.putQueue (s : Shim) (block : Option Nat) (ctx : Option BridgeHandle)
    (made : Option S31Queue) : Shim :=
  match block, made with
  | some a, some queue => { s.create ctx with queues := Function.update s.queues a (some queue) }
  | _, _ => s

/-- `xQueueGenericCreateStatic` fills the caller's block also when it then fails for
    want of a context. -/
def Shim.putStaticQueue (s : Shim) (queue : Option Nat) (ctx : Option BridgeHandle)
    (len itemSize : UInt32) (storage : Bool) (type : UInt8) : Shim :=
  match queue with
  | none => s
  | some a =>
    if len = 0 ∨ (itemSize ≠ 0 ∧ ¬ storage) then s
    else
      let made := { s31QueueInit type.toUInt32 len itemSize (fun _ => 0) ctx with isStatic := true }
      { s.create ctx with queues := Function.update s.queues a (some made) }

/-- Deletes a queue with its context; null is ignored. -/
def vQueueDelete (q : Option Nat) (s : Shim) : Shim × List Use :=
  match q.bind fun a => (s.queues a).map fun queue => (a, queue) with
  | none => (s, [])
  | some (a, queue) =>
    let r := s.destroy queue.waitContext
    let left := if queue.isStatic then some { queue with waitContext := none } else none
    ({ r.1 with queues := Function.update s.queues a left }, r.2)

/-- Deletes an event group with its context; null is ignored. -/
def vEventGroupDelete (g : Option Nat) (s : Shim) : Shim × List Use :=
  match g.bind fun a => (s.groups a).map fun group => (a, group) with
  | none => (s, [])
  | some (a, group) =>
    let r := s.destroy group.waitContext
    ({ r.1 with groups := Function.update s.groups a none }, r.2)

/-- `valid` is whether the function and the stack depth are given; `stack` and
    `linuxTask` whether the stack and the Linux task can be made. -/
def xTaskCreatePinnedToCore (valid : Bool) (block : Option TaskHandle)
    (notify suspend : Option BridgeHandle) (stack linuxTask : Bool) (s : Shim) :
    Shim × List Use :=
  match block with
  | none => (s, [])
  | some a =>
    if ¬ valid then (s, [])
    else
      let s := (s.create notify).create suspend
      if notify.isNone ∨ suspend.isNone ∨ ¬ stack ∨ ¬ linuxTask then
        -- the failure path destroys whichever contexts were made
        let r := s.destroyIf notify
        let r' := r.1.destroyIf suspend
        (r'.1, r.2 ++ r'.2)
      else
        let task : Task := { notifyContext := notify, suspendContext := suspend }
        ({ s with tasks := Function.update s.tasks a (some task) }, [])

/-- `s31_rtos_task_release`, called by the bridge when a task has ended. -/
def s31RtosTaskRelease (t : Option TaskHandle) (s : Shim) : Shim × List Use :=
  match t.bind fun a => (s.tasks a).map fun task => (a, task) with
  | none => (s, [])
  | some (a, task) =>
    let r := s.destroyIf task.notifyContext
    let r' := r.1.destroyIf task.suspendContext
    ({ r'.1 with tasks := Function.update s.tasks a none }, r.2 ++ r'.2)

/-- Waits for some ticks, or lets others run when there are none. -/
def vTaskDelay (th : Thread) (ticks : TickType) (s : Shim) : Shim × List Use :=
  if th.inIsr then (s, [])
  else if ticks = 0 then (s, [.taskYield])
  else (s, [.taskDelay ticks])

/-- Waits until the task is resumed; only for the caller itself. -/
def vTaskSuspend (th : Thread) (task : Option TaskHandle) (s : Shim) : Shim × List Use :=
  let t := task.getD th.task
  if t ≠ th.task then (s, [])
  else
    match s.tasks t with
    | none => (s, [])
    | some t => (s, [s.use .sequence t.suspendContext, s.use .wait t.suspendContext])

/-- The destructors of the task's local storage are left out. -/
def vTaskDelete (th : Thread) (task : Option TaskHandle) (s : Shim) : Shim × List Use :=
  if task.getD th.task = th.task then (s, [.taskExitCurrent]) else (s, [.taskStop])

/-- The entry points, with the answers of the allocator (`block`) and of
    `s31_linux_sync_create` (`ctx`) to the creators. -/
inductive ShimCall where
  | xQueueGenericCreate (block : Option Nat) (ctx : Option BridgeHandle) (len itemSize : UInt32)
      (type : UInt8)
  | xQueueGenericCreateStatic (queue : Option Nat) (ctx : Option BridgeHandle)
      (len itemSize : UInt32) (storage : Bool) (type : UInt8)
  | xQueueCreateMutex (block : Option Nat) (ctx : Option BridgeHandle) (type : UInt8)
  | xQueueCreateCountingSemaphore (block : Option Nat) (ctx : Option BridgeHandle)
      (max initial : UInt32)
  | vQueueDelete (q : Option Nat)
  | xQueueGenericSend (q : Option Nat) (item : Option (List UInt8)) (timeout : TickType)
      (copy : BaseType)
  | xQueueGenericSendFromISR (q : Option Nat) (item : Option (List UInt8))
      (woken : Option BaseType) (copy : BaseType)
  | xQueueGiveFromISR (q : Option Nat) (woken : Option BaseType)
  | xQueueReceive (q : Option Nat) (item : Bool) (timeout : TickType)
  | xQueueReceiveFromISR (q : Option Nat) (item : Bool) (woken : Option BaseType)
  | xQueueSemaphoreTake (q : Option Nat) (timeout : TickType)
  | xQueueTakeMutexRecursive (q : Option Nat) (timeout : TickType)
  | xQueueGiveMutexRecursive (q : Option Nat)
  | xQueueGetMutexHolder (q : Option Nat)
  | uxQueueMessagesWaiting (q : Option Nat)
  | xQueueGenericReset (q : Option Nat) (newQueue : BaseType)
  | xEventGroupCreate (block : Option Nat) (ctx : Option BridgeHandle)
  | vEventGroupDelete (g : Option Nat)
  | xEventGroupSetBits (g : Option Nat) (bits : UInt32)
  | xEventGroupClearBits (g : Option Nat) (bits : UInt32)
  | xEventGroupWaitBits (g : Option Nat) (bits : UInt32) (clearOnExit waitAllBits : Bool)
      (timeout : TickType)
  | xTaskCreatePinnedToCore (valid : Bool) (block : Option TaskHandle)
      (notify suspend : Option BridgeHandle) (stack linuxTask : Bool)
  | s31RtosTaskRelease (t : Option TaskHandle)
  | vTaskDelete (task : Option TaskHandle)
  | xTaskGenericNotify (task : Option TaskHandle) (index value : UInt32) (action : Int)
      (previous : Bool)
  | vTaskGenericNotifyGiveFromISR (task : Option TaskHandle) (index : UInt32)
  | ulTaskGenericNotifyTake (index : UInt32) (clear : Bool) (timeout : TickType)
  | xTaskGenericNotifyWait (index clearEntry clearExit : UInt32) (out : Bool) (timeout : TickType)
  | vTaskDelay (ticks : TickType)
  | vTaskSuspend (task : Option TaskHandle)
deriving DecidableEq, Repr

/-- One entry point, run to its end by a thread. -/
def perform (th : Thread) (env : CallEnv) (s : Shim) : ShimCall → Shim × List Use
  -- queues, semaphores and mutexes
  | .xQueueGenericCreate block ctx len itemSize type =>
    (s.putQueue block ctx
      (Rtos.xQueueGenericCreate (fun _ => some fun _ => 0) ctx len itemSize type), [])
  | .xQueueGenericCreateStatic queue ctx len itemSize storage type =>
    (s.putStaticQueue queue ctx len itemSize storage type, [])
  | .xQueueCreateMutex block ctx type =>
    (s.putQueue block ctx (Rtos.xQueueCreateMutex (fun _ => some fun _ => 0) ctx type), [])
  | .xQueueCreateCountingSemaphore block ctx max initial =>
    (s.putQueue block ctx
      (Rtos.xQueueCreateCountingSemaphore (fun _ => some fun _ => 0) ctx max initial), [])
  | .vQueueDelete q => Rtos.vQueueDelete q s
  | .xQueueGenericSend q item timeout copy =>
    queueCall env q (fun queue =>
      Rtos.xQueueGenericSend th queue.waitContext item timeout copy queue) s
  | .xQueueGenericSendFromISR q item woken copy =>
    queueCall env q (fun queue =>
      Rtos.xQueueGenericSendFromISR th queue.waitContext item woken copy queue) s
  | .xQueueGiveFromISR q woken =>
    queueCall env q (fun queue => Rtos.xQueueGiveFromISR th queue.waitContext woken queue) s
  | .xQueueReceive q item timeout =>
    queueCall env q (fun queue => Rtos.xQueueReceive th queue.waitContext item timeout queue) s
  | .xQueueReceiveFromISR q item woken =>
    queueCall env q (fun queue => Rtos.xQueueReceiveFromISR queue.waitContext item woken queue) s
  | .xQueueSemaphoreTake q timeout =>
    queueCall env q (fun queue => Rtos.xQueueSemaphoreTake th queue.waitContext timeout queue) s
  | .xQueueTakeMutexRecursive q timeout =>
    queueCall env q (fun queue =>
      Rtos.xQueueTakeMutexRecursive th queue.waitContext timeout queue) s
  | .xQueueGiveMutexRecursive q =>
    queueCall env q (fun queue => Rtos.xQueueGiveMutexRecursive th queue.waitContext queue) s
  | .xQueueGetMutexHolder q =>
    queueCall env q (fun queue => Rtos.xQueueGetMutexHolder queue.waitContext queue) s
  | .uxQueueMessagesWaiting q =>
    queueCall env q (fun queue => Rtos.uxQueueMessagesWaiting queue.waitContext queue) s
  | .xQueueGenericReset q newQueue =>
    queueCall env q (fun queue => Rtos.xQueueGenericReset queue.waitContext newQueue queue) s
  -- event groups
  | .xEventGroupCreate block ctx =>
    match block, Rtos.xEventGroupCreate true ctx with
    | some a, some group =>
      ({ s.create ctx with groups := Function.update s.groups a (some group) }, [])
    | _, _ => (s, [])
  | .vEventGroupDelete g => Rtos.vEventGroupDelete g s
  | .xEventGroupSetBits g bits =>
    groupCall env g (fun group => Rtos.xEventGroupSetBits group.waitContext bits group) s
  | .xEventGroupClearBits g bits =>
    groupCall env g (fun group => Rtos.xEventGroupClearBits group.waitContext bits group) s
  | .xEventGroupWaitBits g bits clearOnExit waitAllBits timeout =>
    groupCall env g (fun group =>
      Rtos.xEventGroupWaitBits th group.waitContext bits clearOnExit waitAllBits timeout group) s
  -- tasks and their notifications
  | .xTaskCreatePinnedToCore valid block notify suspend stack linuxTask =>
    Rtos.xTaskCreatePinnedToCore valid block notify suspend stack linuxTask s
  | .s31RtosTaskRelease t => Rtos.s31RtosTaskRelease t s
  | .vTaskDelete task => Rtos.vTaskDelete th task s
  | .xTaskGenericNotify task index value action previous =>
    taskCall env task (fun ctx => Rtos.xTaskGenericNotify ctx index value action previous) s
  | .vTaskGenericNotifyGiveFromISR task index =>
    taskCall env task (fun ctx => Rtos.vTaskGenericNotifyGiveFromISR ctx index) s
  | .ulTaskGenericNotifyTake index clear timeout =>
    taskCall env (some th.task)
      (fun ctx => Rtos.ulTaskGenericNotifyTake ctx index clear timeout) s
  | .xTaskGenericNotifyWait index clearEntry clearExit out timeout =>
    taskCall env (some th.task)
      (fun ctx => Rtos.xTaskGenericNotifyWait ctx index clearEntry clearExit out timeout) s
  | .vTaskDelay ticks => Rtos.vTaskDelay th ticks s
  | .vTaskSuspend task => Rtos.vTaskSuspend th task s

end EspS31.Rtos
