import EspS31.ForStd.SyncCall

/-!
# FreeRTOS queues, semaphores and mutexes

The queue layer of the radio payload (`s31_rtos_queue.c` over the structures of
`s31_rtos.h`).  A `S31Queue` is one object; its operations are the locked
sections the C code runs between `s31_linux_sync_lock` and
`s31_linux_sync_unlock`, and the calls are those sections placed in the shapes
of `SyncProtocol`.

The item buffer is modelled by its bytes, addressed from `q->storage` on; item
arguments are the bytes they point to.  The trace counters and printouts have
no effect on the queues and are left out.
-/

namespace EspS31.Rtos

open SyncProtocol

/-! ## Types and constants of the ABI -/

/-- `BaseType_t`. -/
abbrev BaseType := Int
/-- `TickType_t`: ticks, modulo `2 ^ 32`. -/
abbrev TickType := UInt32

/-- Address of a `struct s31_tcb`. -/
abbrev TaskHandle := Nat

/-- Handle of an object of the Linux bridge. -/
abbrev BridgeHandle := Nat

/-- `pdTRUE`. -/
def pdTRUE : BaseType := 1
/-- `pdFALSE`. -/
def pdFALSE : BaseType := 0
/-- A call that did what it was asked for. -/
def pdPASS : BaseType := 1
/-- A call that did not. -/
def pdFAIL : BaseType := 0

/-- The timeout of a call that waits for ever. -/
def portMAX_DELAY : TickType := 0xffffffff

/-- The type of a mutex. -/
def s31QTypeMutex : UInt32 := 1
/-- The type of a semaphore. -/
def s31QTypeSem : UInt32 := 2

/-- The item goes behind the others. -/
def s31QueueSendToBack : BaseType := 0
/-- The item goes in front of the others. -/
def s31QueueSendToFront : BaseType := 1
/-- The item takes the place of another when the queue is full. -/
def s31QueueOverwrite : BaseType := 2

/-- A thread of execution: the task `s31_rtos_current` finds in it, and whether
    `s31_rtos_in_isr` holds there. -/
structure Thread where
  id : Nat
  task : TaskHandle
  inIsr : Bool
deriving DecidableEq, Repr

/-- What a call hands back: its status or value and what it stored through its
    pointer arguments. -/
inductive Ret where
  | status (rc : BaseType)
  | isrStatus (rc : BaseType) (woken : Option BaseType)
  | received (rc : BaseType) (item : Option (List UInt8))
  | isrReceived (rc : BaseType) (item : Option (List UInt8)) (woken : Option BaseType)
  | value (v : UInt32)
  | holder (owner : Option TaskHandle)
  | notified (rc : BaseType) (out : Option UInt32)
deriving DecidableEq, Repr

/-- The status of a call that returns one, `pdFAIL` for the others. -/
def Ret.rc : Ret → BaseType
  | .status rc | .isrStatus rc _ | .received rc _ | .isrReceived rc _ _ | .notified rc _ => rc
  | .value _ | .holder _ => pdFAIL

/-! ## Byte buffers -/

/-- The bytes from some address on. -/
abbrev Buf := Nat → UInt8

namespace Buf

/-- Store `bytes` from offset `off` on. -/
def write (b : Buf) (off : Nat) (bytes : List UInt8) : Buf := fun i =>
  if off ≤ i then bytes.getD (i - off) (b i) else b i

/-- The `n` bytes from offset `off` on. -/
def read (b : Buf) (off n : Nat) : List UInt8 :=
  (List.range n).map fun j => b (off + j)

end Buf

/-! ## The queue object -/

/-- `struct s31_queue`, with the bytes at `storage` in place of its address. -/
structure S31Queue where
  type : UInt32
  itemSize : UInt32
  capacity : UInt32
  count : UInt32
  head : UInt32
  storage : Buf
  owner : Option TaskHandle
  depth : UInt32
  waitContext : Option BridgeHandle
  isStatic : Bool

/-- A queue as it is initialized, with the context that the bridge gave. -/
def s31QueueInit (type len itemSize : UInt32) (storage : Buf) (ctx : Option BridgeHandle) :
    S31Queue where
  type := type
  itemSize := itemSize
  capacity := len
  count := 0
  head := 0
  storage := storage
  owner := none
  depth := 0
  waitContext := ctx
  isStatic := false

/-- A queue is valid from its creation to its deletion. -/
def s31QueueValid (q : S31Queue) : Bool := q.waitContext.isSome

/-- `sizeof(struct s31_queue)`. -/
def sizeofQueue : UInt32 := 40

/-- `malloc` is the radio heap (the bytes after the header of the block it
    returns), `ctx` what `s31_linux_sync_create` returns. -/
def xQueueGenericCreate (malloc : UInt32 → Option Buf) (ctx : Option BridgeHandle)
    (queueLen itemSize : UInt32) (queueType : UInt8) : Option S31Queue :=
  if queueLen = 0 ∨ (itemSize ≠ 0 ∧ queueLen > (0xffffffff - sizeofQueue) / itemSize) then
    none
  else
    (malloc (sizeofQueue + queueLen * itemSize)).bind fun storage =>
      let q := s31QueueInit queueType.toUInt32 queueLen itemSize storage ctx
      if q.waitContext.isSome then some q else none

/-- `storage` is the caller's buffer, `none` for a NULL pointer. -/
def xQueueGenericCreateStatic (ctx : Option BridgeHandle) (queueLen itemSize : UInt32)
    (storage : Option Buf) (queueType : UInt8) : Option S31Queue :=
  if queueLen = 0 ∨ (itemSize ≠ 0 ∧ storage.isNone) then
    none
  else
    let q := { s31QueueInit queueType.toUInt32 queueLen itemSize (storage.getD fun _ => 0) ctx with
      isStatic := true }
    if q.waitContext.isSome then some q else none

/-- The mutex `type` argument is ignored by the source. -/
def xQueueCreateMutex (malloc : UInt32 → Option Buf) (ctx : Option BridgeHandle) (_type : UInt8) :
    Option S31Queue :=
  (malloc sizeofQueue).bind fun _ =>
    let q := s31QueueInit s31QTypeMutex 1 0 (fun _ => 0) ctx
    if q.waitContext.isSome then some q else none

/-- A semaphore with its first tokens; none when an argument is refused or memory is short. -/
def xQueueCreateCountingSemaphore (malloc : UInt32 → Option Buf) (ctx : Option BridgeHandle)
    (max initial : UInt32) : Option S31Queue :=
  if max = 0 ∨ initial > max then
    none
  else
    (malloc sizeofQueue).bind fun _ =>
      let q := { s31QueueInit s31QTypeSem max 0 (fun _ => 0) ctx with count := initial }
      if q.waitContext.isSome then some q else none

/-! ## Locked sections -/

/-- The give of the mutex branch: one level less, free at zero. -/
def S31Queue.giveLevel (q : S31Queue) : S31Queue :=
  if q.depth - 1 = 0 then { q with depth := 0, owner := none, count := 0 }
  else { q with depth := q.depth - 1 }

/-- The head and the slot a send uses, by copy position. -/
def S31Queue.sendSlot (q : S31Queue) (copy : BaseType) : UInt32 × UInt32 :=
  if copy = s31QueueSendToFront then
    ((q.head + q.capacity - 1) % q.capacity, (q.head + q.capacity - 1) % q.capacity)
  else if copy = s31QueueOverwrite ∧ q.count = q.capacity then
    ((q.head + 1) % q.capacity, q.head)
  else
    (q.head, (q.head + q.count) % q.capacity)

/-- `memcpy` of an item into slot `idx`, skipped for a NULL item or empty items. -/
def S31Queue.storeItem (q : S31Queue) (idx : UInt32) (item : Option (List UInt8)) : Buf :=
  match item with
  | some bytes =>
    if q.itemSize ≠ 0 then
      q.storage.write (idx * q.itemSize).toNat (bytes.take q.itemSize.toNat)
    else q.storage
  | none => q.storage

/-- A send under the lock: what is done depends on the type of the queue. -/
def s31QueueSendLocked (t : TaskHandle) (q : S31Queue) (item : Option (List UInt8))
    (copy : BaseType) : S31Queue × BaseType :=
  if q.type = s31QTypeMutex then
    if q.owner ≠ some t ∨ q.depth = 0 then (q, pdFAIL) else (q.giveLevel, pdTRUE)
  else if q.type = s31QTypeSem then
    if q.count ≥ q.capacity then (q, pdFAIL) else ({ q with count := q.count + 1 }, pdTRUE)
  else if q.capacity = 0 ∨ (q.count ≥ q.capacity ∧ copy ≠ s31QueueOverwrite) then
    (q, pdFAIL)
  else
    ({ q with
        head := (q.sendSlot copy).1
        storage := q.storeItem (q.sendSlot copy).2 item
        count := if q.count < q.capacity then q.count + 1 else q.count },
      pdTRUE)

/-- `item` is whether the caller passed a buffer; the second component is what
    is stored there. -/
def s31QueueTakeLocked (q : S31Queue) (item : Bool) :
    S31Queue × Option (List UInt8) × BaseType :=
  if q.count = 0 ∨ q.capacity = 0 then
    (q, none, pdFALSE)
  else
    ({ q with head := (q.head + 1) % q.capacity, count := q.count - 1 },
      if item ∧ q.itemSize ≠ 0 then
        some (q.storage.read (q.head * q.itemSize).toNat q.itemSize.toNat)
      else none,
      pdTRUE)

/-- The locked section of `xQueueGenericSend`. -/
def sendSection (t : TaskHandle) (item : Option (List UInt8)) (copy : BaseType) (q : S31Queue) :
    S31Queue × Outcome Ret :=
  if q.type = s31QTypeMutex ∨ q.type = s31QTypeSem ∨ q.count < q.capacity ∨
      copy = s31QueueOverwrite then
    let r := s31QueueSendLocked t q item copy
    (r.1, .done (.status r.2) (r.2 ≠ pdFALSE))
  else
    (q, .unmet (.status pdFAIL))

/-- A successful ISR call promotes the caller's flag to `pdTRUE` and never
    clears it. -/
def promoteWoken (ret : BaseType) (woken : Option BaseType) : Option BaseType :=
  if ret ≠ pdFALSE then woken.map fun _ => pdTRUE else woken

/-- The locked section of `xQueueGenericSendFromISR`. -/
def sendFromISRSection (t : TaskHandle) (item : Option (List UInt8)) (woken : Option BaseType)
    (copy : BaseType) (q : S31Queue) : S31Queue × Ret × Bool :=
  let r :=
    if q.type = s31QTypeMutex then (q, pdFAIL)
    else if q.type = s31QTypeSem then
      if q.count ≥ q.capacity then (q, pdFAIL) else ({ q with count := q.count + 1 }, pdTRUE)
    else s31QueueSendLocked t q item copy
  (r.1, .isrStatus r.2 (promoteWoken r.2 woken), r.2 ≠ pdFALSE)

/-- The locked section of `xQueueReceive`. -/
def receiveSection (item : Bool) (q : S31Queue) : S31Queue × Outcome Ret :=
  if q.type ≠ s31QTypeMutex ∧ q.count ≠ 0 then
    let r := s31QueueTakeLocked q item
    (r.1, .done (.received r.2.2 r.2.1) (r.2.2 ≠ pdFALSE))
  else
    (q, .unmet (.received pdFALSE none))

/-- The locked section of `xQueueReceiveFromISR`. -/
def receiveFromISRSection (item : Bool) (woken : Option BaseType) (q : S31Queue) :
    S31Queue × Ret × Bool :=
  let r := if q.type = s31QTypeMutex then (q, none, pdFALSE) else s31QueueTakeLocked q item
  (r.1, .isrReceived r.2.2 r.2.1 (promoteWoken r.2.2 woken), r.2.2 ≠ pdFALSE)

/-- The locked section of `xQueueSemaphoreTake`; taking a mutex wakes nobody. -/
def semaphoreTakeSection (t : TaskHandle) (q : S31Queue) : S31Queue × Outcome Ret :=
  if q.type = s31QTypeMutex then
    if q.owner = some t then
      ({ q with depth := q.depth + 1 }, .done (.status pdTRUE) false)
    else if q.owner = none ∧ q.count = 0 then
      ({ q with owner := some t, depth := 1, count := 1 }, .done (.status pdTRUE) false)
    else
      (q, .unmet (.status pdFALSE))
  else if q.count ≠ 0 then
    ({ q with count := q.count - 1 }, .done (.status pdTRUE) true)
  else
    (q, .unmet (.status pdFALSE))

/-- The locked section of `xQueueGiveMutexRecursive`. -/
def giveMutexRecursiveSection (t : TaskHandle) (q : S31Queue) : S31Queue × Ret × Bool :=
  if q.owner = some t ∧ q.depth ≠ 0 then (q.giveLevel, .status pdTRUE, true)
  else (q, .status pdFAIL, false)

/-- The locked section of `xQueueGenericReset`. -/
def genericResetSection (newQueue : BaseType) (q : S31Queue) : S31Queue × Ret × Bool :=
  ({ q with head := 0, count := 0, owner := none, depth := 0 }, .status pdPASS, newQueue = 0)

/-! ## Calls -/

/-- The ticks left of a timeout; one that never ends stays. -/
def s31WaitRemaining (timeout start now : TickType) : TickType :=
  if timeout = portMAX_DELAY then portMAX_DELAY
  else if now - start ≥ timeout then 0
  else timeout - (now - start)

/-- A queue call gives up at once when it may not wait or has waited enough. -/
def queuePatience (timeout start now : TickType) : Option TickType :=
  if timeout = 0 then none
  else if s31WaitRemaining timeout start now = 0 then none
  else some (s31WaitRemaining timeout start now)

section

variable {κ : Type}

/-- The wait loop shared by the queue calls. -/
def queueLoop (ctx : κ) (timeout : TickType) (body : S31Queue → S31Queue × Outcome Ret) :
    SyncCall κ S31Queue Ret TickType where
  ctx := ctx
  body := body
  wait := some { patience := queuePatience timeout, early := none, late := none }

/-- A send in an interrupt: one section, no wait. -/
def xQueueGenericSendFromISR (th : Thread) (ctx : κ) (item : Option (List UInt8))
    (woken : Option BaseType) (copy : BaseType) (q : S31Queue) :
    Ret ⊕ SyncCall κ S31Queue Ret TickType :=
  if s31QueueValid q then
    .inr (.once ctx (sendFromISRSection th.task item woken copy))
  else .inl (.isrStatus pdFAIL woken)

/-- A send that waits for room; in an interrupt it does not. -/
def xQueueGenericSend (th : Thread) (ctx : κ) (item : Option (List UInt8)) (timeout : TickType)
    (copy : BaseType) (q : S31Queue) : Ret ⊕ SyncCall κ S31Queue Ret TickType :=
  if s31QueueValid q then
    if th.inIsr then xQueueGenericSendFromISR th ctx item none copy q
    else .inr (queueLoop ctx timeout (sendSection th.task item copy))
  else .inl (.status pdFAIL)

/-- A give in an interrupt. -/
def xQueueGiveFromISR (th : Thread) (ctx : κ) (woken : Option BaseType) (q : S31Queue) :
    Ret ⊕ SyncCall κ S31Queue Ret TickType :=
  xQueueGenericSendFromISR th ctx none woken s31QueueSendToBack q

/-- A receive in an interrupt: one section, no wait. -/
def xQueueReceiveFromISR (ctx : κ) (item : Bool) (woken : Option BaseType) (q : S31Queue) :
    Ret ⊕ SyncCall κ S31Queue Ret TickType :=
  if s31QueueValid q then .inr (.once ctx (receiveFromISRSection item woken))
  else .inl (.isrReceived pdFAIL none woken)

/-- A receive that waits for an item; in an interrupt it does not. -/
def xQueueReceive (th : Thread) (ctx : κ) (item : Bool) (timeout : TickType) (q : S31Queue) :
    Ret ⊕ SyncCall κ S31Queue Ret TickType :=
  if s31QueueValid q then
    if th.inIsr then xQueueReceiveFromISR ctx item none q
    else .inr (queueLoop ctx timeout (receiveSection item))
  else .inl (.received pdFAIL none)

/-- A take that waits for a token or the mutex, in an interrupt as well. -/
def xQueueSemaphoreTake (th : Thread) (ctx : κ) (timeout : TickType) (q : S31Queue) :
    Ret ⊕ SyncCall κ S31Queue Ret TickType :=
  if s31QueueValid q then .inr (queueLoop ctx timeout (semaphoreTakeSection th.task))
  else .inl (.status pdFAIL)

/-- A take of a recursive mutex. -/
def xQueueTakeMutexRecursive (th : Thread) (ctx : κ) (timeout : TickType) (q : S31Queue) :
    Ret ⊕ SyncCall κ S31Queue Ret TickType :=
  xQueueSemaphoreTake th ctx timeout q

/-- A give of a recursive mutex, by its owner only. -/
def xQueueGiveMutexRecursive (th : Thread) (ctx : κ) (q : S31Queue) :
    Ret ⊕ SyncCall κ S31Queue Ret TickType :=
  if s31QueueValid q ∧ q.type = s31QTypeMutex then
    .inr (.once ctx (giveMutexRecursiveSection th.task))
  else .inl (.status pdFAIL)

/-- The owner of a mutex. -/
def xQueueGetMutexHolder (ctx : κ) (q : S31Queue) : Ret ⊕ SyncCall κ S31Queue Ret TickType :=
  if s31QueueValid q ∧ q.type = s31QTypeMutex then
    .inr (.once ctx fun q => (q, .holder q.owner, false))
  else .inl (.holder none)

/-- A mutex counts as one message while it is free, the inverse of `count`. -/
def S31Queue.messagesWaiting (q : S31Queue) : UInt32 :=
  if q.type = s31QTypeMutex then (if q.count = 0 then 1 else 0) else q.count

/-- The number of items. -/
def uxQueueMessagesWaiting (ctx : κ) (q : S31Queue) : Ret ⊕ SyncCall κ S31Queue Ret TickType :=
  if s31QueueValid q then .inr (.once ctx fun q => (q, .value q.messagesWaiting, false))
  else .inl (.value 0)

/-- Empties the queue. -/
def xQueueGenericReset (ctx : κ) (newQueue : BaseType) (q : S31Queue) :
    Ret ⊕ SyncCall κ S31Queue Ret TickType :=
  if s31QueueValid q then .inr (.once ctx (genericResetSection newQueue))
  else .inl (.status pdFAIL)

end

end EspS31.Rtos
