import EspS31.Native.Event

/-!
# What the locked sections leave alone

The sections of the queue and event group functions change the items, the count, the
owner and the bits of their object.  Its type, its capacity and the context that its
waiters sleep on stay as the creator left them.

## Key results

- `sendSection_same`, `receiveSection_same`, `semaphoreTakeSection_same`: the sections
  of the queue functions
- `waitBitsSection_waitContext`: the section of `xEventGroupWaitBits`
-/

namespace EspS31.Rtos

/-! ## Queues -/

/-- The two queues are the same but for what the calls change. -/
structure SameQueue (q q' : S31Queue) : Prop where
  type : q'.type = q.type
  capacity : q'.capacity = q.capacity
  context : q'.waitContext = q.waitContext

/-- A queue that is left is the same. -/
theorem SameQueue.refl (q : S31Queue) : SameQueue q q := ⟨rfl, rfl, rfl⟩

/-- Giving one level of a mutex. -/
private theorem giveLevel_same (q : S31Queue) : SameQueue q q.giveLevel := by
  unfold S31Queue.giveLevel
  split <;> exact ⟨rfl, rfl, rfl⟩

/-- `s31_queue_send_locked`, for every type of queue. -/
private theorem sendLocked_same (t : TaskHandle) (q : S31Queue) (item : Option (List UInt8))
    (copy : BaseType) : SameQueue q (s31QueueSendLocked t q item copy).1 := by
  unfold s31QueueSendLocked
  split
  · split
    · exact .refl q
    · exact giveLevel_same q
  · split
    · split <;> exact ⟨rfl, rfl, rfl⟩
    · split <;> exact ⟨rfl, rfl, rfl⟩

/-- `s31_queue_take_locked`. -/
private theorem takeLocked_same (q : S31Queue) (item : Bool) :
    SameQueue q (s31QueueTakeLocked q item).1 := by
  unfold s31QueueTakeLocked
  split <;> exact ⟨rfl, rfl, rfl⟩

/-- The locked section of `xQueueGenericSend`. -/
theorem sendSection_same (t : TaskHandle) (item : Option (List UInt8)) (copy : BaseType)
    (q : S31Queue) : SameQueue q (sendSection t item copy q).1 := by
  unfold sendSection
  split
  · exact sendLocked_same t q item copy
  · exact .refl q

/-- The locked section of `xQueueGenericSendFromISR`. -/
theorem sendFromISRSection_same (t : TaskHandle) (item : Option (List UInt8))
    (woken : Option BaseType) (copy : BaseType) (q : S31Queue) :
    SameQueue q (sendFromISRSection t item woken copy q).1 := by
  unfold sendFromISRSection
  simp only
  split
  · exact .refl q
  · split
    · split <;> exact ⟨rfl, rfl, rfl⟩
    · exact sendLocked_same t q item copy

/-- The locked section of `xQueueReceive`. -/
theorem receiveSection_same (item : Bool) (q : S31Queue) :
    SameQueue q (receiveSection item q).1 := by
  unfold receiveSection
  split
  · exact takeLocked_same q item
  · exact .refl q

/-- The locked section of `xQueueReceiveFromISR`. -/
theorem receiveFromISRSection_same (item : Bool) (woken : Option BaseType) (q : S31Queue) :
    SameQueue q (receiveFromISRSection item woken q).1 := by
  unfold receiveFromISRSection
  simp only
  split
  · exact .refl q
  · exact takeLocked_same q item

/-- The locked section of `xQueueSemaphoreTake`. -/
theorem semaphoreTakeSection_same (t : TaskHandle) (q : S31Queue) :
    SameQueue q (semaphoreTakeSection t q).1 := by
  unfold semaphoreTakeSection
  split
  · split
    · exact ⟨rfl, rfl, rfl⟩
    · split <;> exact ⟨rfl, rfl, rfl⟩
  · split <;> exact ⟨rfl, rfl, rfl⟩

/-- The locked section of `xQueueGiveMutexRecursive`. -/
theorem giveMutexRecursiveSection_same (t : TaskHandle) (q : S31Queue) :
    SameQueue q (giveMutexRecursiveSection t q).1 := by
  unfold giveMutexRecursiveSection
  split
  · exact giveLevel_same q
  · exact .refl q

/-! ## Event groups -/

/-- Clearing the bits waited for. -/
theorem consume_waitContext (g : S31EventGroup) (bits : UInt32) (clearOnExit waitAllBits : Bool) :
    (g.consume bits clearOnExit waitAllBits).waitContext = g.waitContext := by
  unfold S31EventGroup.consume
  split <;> rfl

/-- The locked section of `xEventGroupWaitBits`. -/
theorem waitBitsSection_waitContext (bits : UInt32) (clearOnExit waitAllBits : Bool)
    (g : S31EventGroup) :
    (waitBitsSection bits clearOnExit waitAllBits g).1.waitContext = g.waitContext := by
  unfold waitBitsSection
  split
  · exact consume_waitContext ..
  · rfl

end EspS31.Rtos
