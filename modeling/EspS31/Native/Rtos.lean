import EspS31.Native.Event
import EspS31.Native.Notify

/-!
# The RTOS shim as one system

All queues, event groups and tasks together, and the calls on them by name.
Every object has a bridge context of its own; a task's notification context is
the one it waits on.
-/

namespace EspS31.Rtos

open SyncProtocol

/-- All objects of the shim. -/
structure World where
  queues : Nat → S31Queue
  groups : Nat → S31EventGroup
  tcbs : TaskHandle → S31Tcb

/-- The bridge context of an object. -/
inductive Ctx where
  | queue (q : Nat)
  | group (g : Nat)
  | notify (t : TaskHandle)
deriving DecidableEq, Repr

namespace World

/-- One queue replaced. -/
def setQueue (i : Nat) (w : World) (q : S31Queue) : World :=
  { w with queues := Function.update w.queues i q }

/-- One event group replaced. -/
def setGroup (i : Nat) (w : World) (g : S31EventGroup) : World :=
  { w with groups := Function.update w.groups i g }

/-- One task replaced. -/
def setTcb (i : TaskHandle) (w : World) (t : S31Tcb) : World :=
  { w with tcbs := Function.update w.tcbs i t }

end World

/-- The calls of the shim that synchronise.  Queues and groups are named by
    index; the waiting notification calls are about the caller's own task. -/
inductive RtosOp where
  | xQueueGenericSend (q : Nat) (item : Option (List UInt8)) (timeout : TickType)
      (copy : BaseType)
  | xQueueGenericSendFromISR (q : Nat) (item : Option (List UInt8)) (woken : Option BaseType)
      (copy : BaseType)
  | xQueueReceive (q : Nat) (item : Bool) (timeout : TickType)
  | xQueueReceiveFromISR (q : Nat) (item : Bool) (woken : Option BaseType)
  | xQueueSemaphoreTake (q : Nat) (timeout : TickType)
  | xQueueGiveMutexRecursive (q : Nat)
  | xQueueGenericReset (q : Nat) (newQueue : BaseType)
  | xEventGroupSetBits (g : Nat) (bits : UInt32)
  | xEventGroupClearBits (g : Nat) (bits : UInt32)
  | xEventGroupWaitBits (g : Nat) (bits : UInt32) (clearOnExit waitAllBits : Bool)
      (timeout : TickType)
  | xTaskGenericNotify (task : TaskHandle) (index value : UInt32) (action : Int) (previous : Bool)
  | ulTaskGenericNotifyTake (index : UInt32) (clear : Bool) (timeout : TickType)
  | xTaskGenericNotifyWait (index clearEntry clearExit : UInt32) (out : Bool) (timeout : TickType)
deriving DecidableEq, Repr

/-- A call on queue `i` of the world. -/
def onQueue (i : Nat) (f : S31Queue → Ret ⊕ SyncCall Ctx S31Queue Ret TickType) (w : World) :
    World × (Ret ⊕ SyncCall Ctx World Ret TickType) :=
  (w, (f (w.queues i)).map id (SyncCall.zoom (fun w => w.queues i) (World.setQueue i)))

/-- A call on event group `i` of the world. -/
def onGroup (i : Nat) (f : S31EventGroup → Ret ⊕ SyncCall Ctx S31EventGroup Ret TickType)
    (w : World) : World × (Ret ⊕ SyncCall Ctx World Ret TickType) :=
  (w, (f (w.groups i)).map id (SyncCall.zoom (fun w => w.groups i) (World.setGroup i)))

/-- A call on the notification fields of task `i` of the world. -/
def onTcb (i : TaskHandle) (f : S31Tcb → Ret ⊕ SyncCall Ctx S31Tcb Ret TickType) (w : World) :
    World × (Ret ⊕ SyncCall Ctx World Ret TickType) :=
  (w, (f (w.tcbs i)).map id (SyncCall.zoom (fun w => w.tcbs i) (World.setTcb i)))

/-- The entry code of every call. -/
def rtosCode : Entry Thread Ctx World Ret TickType RtosOp
  | th, .xQueueGenericSend q item timeout copy =>
    onQueue q (xQueueGenericSend th (.queue q) item timeout copy)
  | th, .xQueueGenericSendFromISR q item woken copy =>
    onQueue q (xQueueGenericSendFromISR th (.queue q) item woken copy)
  | th, .xQueueReceive q item timeout => onQueue q (xQueueReceive th (.queue q) item timeout)
  | _, .xQueueReceiveFromISR q item woken => onQueue q (xQueueReceiveFromISR (.queue q) item woken)
  | th, .xQueueSemaphoreTake q timeout => onQueue q (xQueueSemaphoreTake th (.queue q) timeout)
  | th, .xQueueGiveMutexRecursive q => onQueue q (xQueueGiveMutexRecursive th (.queue q))
  | _, .xQueueGenericReset q newQueue => onQueue q (xQueueGenericReset (.queue q) newQueue)
  | _, .xEventGroupSetBits g bits => onGroup g (xEventGroupSetBits (.group g) bits)
  | _, .xEventGroupClearBits g bits => onGroup g (xEventGroupClearBits (.group g) bits)
  | th, .xEventGroupWaitBits g bits clearOnExit waitAllBits timeout =>
    onGroup g (xEventGroupWaitBits th (.group g) bits clearOnExit waitAllBits timeout)
  | _, .xTaskGenericNotify task index value action previous =>
    onTcb task (xTaskGenericNotify (.notify task) index value action previous)
  -- the calls that wait for a notification are about the caller itself
  | th, .ulTaskGenericNotifyTake index clear timeout =>
    onTcb th.task (ulTaskGenericNotifyTake (.notify th.task) index clear timeout)
  | th, .xTaskGenericNotifyWait index clearEntry clearExit out timeout =>
    onTcb th.task (xTaskGenericNotifyWait (.notify th.task) index clearEntry clearExit out timeout)

/-! ## What the entry code hands out -/

/-- Entry code only reads the world. -/
theorem rtosCode_world {th : Thread} {op : RtosOp} {w w' : World}
    {x : Ret ⊕ SyncCall Ctx World Ret TickType} (h : rtosCode th op w = (w', x)) : w' = w := by
  cases op <;> exact (Prod.mk.inj h).1.symm

/-- A call on a queue that needs a section is one on that queue alone. -/
theorem onQueue_inr {i : Nat} {f : S31Queue → Ret ⊕ SyncCall Ctx S31Queue Ret TickType}
    {w w' : World} {c : SyncCall Ctx World Ret TickType} (h : onQueue i f w = (w', .inr c)) :
    ∃ c₀, f (w.queues i) = .inr c₀ ∧ c = c₀.zoom (fun w => w.queues i) (World.setQueue i) := by
  obtain ⟨-, h⟩ := Prod.mk.inj h
  cases hf : f (w.queues i) with
  | inl r => rw [hf] at h; exact nomatch h
  | inr c₀ => rw [hf] at h; exact ⟨c₀, rfl, (Sum.inr.inj h).symm⟩

/-- A call on an event group that needs a section is one on that group alone. -/
theorem onGroup_inr {i : Nat}
    {f : S31EventGroup → Ret ⊕ SyncCall Ctx S31EventGroup Ret TickType} {w w' : World}
    {c : SyncCall Ctx World Ret TickType} (h : onGroup i f w = (w', .inr c)) :
    ∃ c₀, f (w.groups i) = .inr c₀ ∧ c = c₀.zoom (fun w => w.groups i) (World.setGroup i) := by
  obtain ⟨-, h⟩ := Prod.mk.inj h
  cases hf : f (w.groups i) with
  | inl r => rw [hf] at h; exact nomatch h
  | inr c₀ => rw [hf] at h; exact ⟨c₀, rfl, (Sum.inr.inj h).symm⟩

/-- A call on a task that needs a section is one on that task alone. -/
theorem onTcb_inr {i : TaskHandle} {f : S31Tcb → Ret ⊕ SyncCall Ctx S31Tcb Ret TickType}
    {w w' : World} {c : SyncCall Ctx World Ret TickType} (h : onTcb i f w = (w', .inr c)) :
    ∃ c₀, f (w.tcbs i) = .inr c₀ ∧ c = c₀.zoom (fun w => w.tcbs i) (World.setTcb i) := by
  obtain ⟨-, h⟩ := Prod.mk.inj h
  cases hf : f (w.tcbs i) with
  | inl r => rw [hf] at h; exact nomatch h
  | inr c₀ => rw [hf] at h; exact ⟨c₀, rfl, (Sum.inr.inj h).symm⟩

end EspS31.Rtos
