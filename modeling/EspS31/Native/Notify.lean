import EspS31.Native.Queue

/-!
# Direct-to-task notifications

The notification part of the task control block (`s31_rtos_core.c`).  A task
waits on its own notification value; any task or ISR may notify it.
-/

namespace EspS31.Rtos

open SyncProtocol

/-- Whether a task waits for a notification. -/
inductive NotifyState where
  | notWaiting
  | waiting
  | received
deriving DecidableEq, Repr

/-- The notification fields of `struct s31_tcb`. -/
structure S31Tcb where
  notifyValue : UInt32
  notifyState : NotifyState
deriving DecidableEq, Repr

/-- `s31_notify_wait_remaining` is the same function as `s31_wait_remaining`,
    kept apart in the source. -/
def s31NotifyWaitRemaining (timeout start now : TickType) : TickType :=
  s31WaitRemaining timeout start now

/-- The ticks that a wait still has; none when it does not wait. -/
def notifyPatience (timeout start now : TickType) : Option TickType :=
  if timeout = 0 then none
  else if s31NotifyWaitRemaining timeout start now = 0 then none
  else some (s31NotifyWaitRemaining timeout start now)

/-! ## Locked sections -/

/-- The test section of `ulTaskGenericNotifyTake`. -/
def notifyTakeSection (clear : Bool) (t : S31Tcb) : S31Tcb × Outcome Ret :=
  if t.notifyValue ≠ 0 then
    ({ t with
        notifyValue := if clear then 0 else t.notifyValue - 1
        notifyState := .notWaiting },
      .done (.value t.notifyValue) false)
  else
    ({ t with notifyState := .waiting }, .unmet (.value 0))

/-- The section that ends a take which got nothing. -/
def notifyTakeClose (t : S31Tcb) : S31Tcb × Ret :=
  ({ t with notifyState := .notWaiting }, .value 0)

/-- The test section of `xTaskGenericNotifyWait`; `out` is whether the caller
    passed a buffer. -/
def notifyWaitSection (clearEntry clearExit : UInt32) (out : Bool) (t : S31Tcb) :
    S31Tcb × Outcome Ret :=
  if t.notifyState = .received then
    ({ t with notifyValue := t.notifyValue &&& ~~~clearExit, notifyState := .notWaiting },
      .done (.notified pdPASS (if out then some t.notifyValue else none)) false)
  else
    ({ t with notifyValue := t.notifyValue &&& ~~~clearEntry, notifyState := .waiting },
      .unmet (.notified pdFAIL none))

/-- The section that ends a wait which got nothing. -/
def notifyWaitClose (out : Bool) (t : S31Tcb) : S31Tcb × Ret :=
  ({ t with notifyState := .notWaiting },
    .notified pdFAIL (if out then some t.notifyValue else none))

/-- The switch over the action codes: the new value, or `none` for `pdFAIL`. -/
def notifyAction (t : S31Tcb) (value : UInt32) (action : Int) : Option UInt32 :=
  match action with
  | 0 => some t.notifyValue
  | 1 => some (t.notifyValue ||| value)
  | 2 => some (t.notifyValue + 1)
  | 3 => some value
  | 4 => if t.notifyState = .received then none else some value
  | _ => none

/-- The locked section of `xTaskGenericNotify`. -/
def notifySection (value : UInt32) (action : Int) (previous : Bool) (t : S31Tcb) :
    S31Tcb × Ret × Bool :=
  let prev := if previous then some t.notifyValue else none
  match notifyAction t value action with
  | some v => ({ t with notifyValue := v, notifyState := .received }, .notified pdPASS prev, true)
  | none => (t, .notified pdFAIL prev, false)

/-! ## Calls -/

section

variable {κ : Type}

/-- Waits for a value other than zero and takes one or all of it. -/
def ulTaskGenericNotifyTake (ctx : κ) (index : UInt32) (clear : Bool) (timeout : TickType)
    (_t : S31Tcb) : Ret ⊕ SyncCall κ S31Tcb Ret TickType :=
  if index ≠ 0 then .inl (.value 0)
  else
    .inr {
      ctx := ctx
      body := notifyTakeSection clear
      wait := some {
        patience := notifyPatience timeout
        early := some notifyTakeClose
        late := some notifyTakeClose } }

/-- Waits for a notification, with bits cleared at entry and at exit. -/
def xTaskGenericNotifyWait (ctx : κ) (index clearEntry clearExit : UInt32) (out : Bool)
    (timeout : TickType) (_t : S31Tcb) : Ret ⊕ SyncCall κ S31Tcb Ret TickType :=
  if index ≠ 0 then .inl (.notified pdFAIL none)
  else
    .inr {
      ctx := ctx
      body := notifyWaitSection clearEntry clearExit out
      wait := some {
        patience := notifyPatience timeout
        early := some (notifyWaitClose out)
        late := some (notifyWaitClose out) } }

/-- Notifies a task. -/
def xTaskGenericNotify (ctx : κ) (index value : UInt32) (action : Int) (previous : Bool)
    (_t : S31Tcb) : Ret ⊕ SyncCall κ S31Tcb Ret TickType :=
  if index ≠ 0 then .inl (.notified pdFAIL none)
  else .inr (.once ctx (notifySection value action previous))

/-- `higher_woken` is set whatever the notification does. -/
def vTaskGenericNotifyGiveFromISR (ctx : κ) (index : UInt32) (t : S31Tcb) :
    Ret ⊕ SyncCall κ S31Tcb Ret TickType :=
  xTaskGenericNotify ctx index 0 2 false t

end

end EspS31.Rtos
