import EspS31.Native.ShimLocks

/-!
# Blocking in ISR context

A deferred interrupt handler runs with `s31_rtos_isr_depth > 0`, and no function it
calls may wait, delay or yield there.  Sending, receiving, waiting for event bits,
delaying and the lock functions all ask `s31_rtos_in_isr` first; taking a semaphore,
waiting for a notification and suspending do not.

## Key results

- `isr_nonblocking_iff`: the calls that block in ISR context, exactly
-/

namespace EspS31.Rtos

open SyncProtocol

/-- The bridge functions that do not return at once. -/
def Use.blocks : Use → Bool
  | .sync .wait _ _ | .taskDelay _ | .taskYield => true
  | _ => false

/-- An entry point of the shim or of the locks. -/
inductive EntryPoint where
  | shim (c : ShimCall)
  | lock (c : LockEntryPoint)
deriving DecidableEq, Repr

/-- The bridge functions an entry point calls. -/
def EntryPoint.uses (th : Thread) (env : LockEnv) (w : LockShim) : EntryPoint → List Use
  | .shim c => (perform th env.call w.shim c).2
  | .lock c => (performLock th env w c).2

/-! ## The condition -/

/-- No unit of the semaphore is left, or the mutex has another owner. -/
def S31Queue.Unavailable (q : S31Queue) (t : TaskHandle) : Prop :=
  if q.type = s31QTypeMutex then q.owner ≠ some t ∧ ¬ (q.owner = none ∧ q.count = 0)
  else q.count = 0

/-- Time is left when the call comes to its wait. -/
def CallEnv.TimeLeft (env : CallEnv) (timeout : TickType) : Prop :=
  timeout ≠ 0 ∧ s31WaitRemaining timeout env.start (env.clock env.woken) ≠ 0

/-- A take that finds the queue unavailable and has time left. -/
def TakeBlocks (th : Thread) (env : CallEnv) (s : Shim) (q : Option Nat) (timeout : TickType) :
    Prop :=
  ∃ a queue, q = some a ∧ s.queues a = some queue ∧ s31QueueValid queue ∧
    queue.Unavailable th.task ∧ env.TimeLeft timeout

/-- The calls that wait whatever context they are made in. -/
def ShimCall.Unguarded (th : Thread) (env : CallEnv) (s : Shim) : ShimCall → Prop
  | .xQueueSemaphoreTake q timeout => TakeBlocks th env s q timeout
  | .xQueueTakeMutexRecursive q timeout => TakeBlocks th env s q timeout
  | .ulTaskGenericNotifyTake index _ timeout =>
    ∃ task, s.tasks th.task = some task ∧ index = 0 ∧ task.tcb.notifyValue = 0 ∧
      env.TimeLeft timeout
  | .xTaskGenericNotifyWait index _ _ _ timeout =>
    ∃ task, s.tasks th.task = some task ∧ index = 0 ∧ task.tcb.notifyState ≠ .received ∧
      env.TimeLeft timeout
  | .vTaskSuspend task => ∃ t, task.getD th.task = th.task ∧ s.tasks th.task = some t
  | _ => False

/-- The lock functions never do. -/
def EntryPoint.Unguarded (th : Thread) (env : LockEnv) (w : LockShim) : EntryPoint → Prop
  | .shim c => c.Unguarded th env.call w.shim
  | .lock _ => False

/-! ## Calls on objects -/

/-- Some use of the list blocks. -/
def Blocks (uses : List Use) : Prop := ∃ u ∈ uses, u.blocks

/-- Without a use nothing blocks. -/
@[simp] theorem not_blocks_nil : ¬ Blocks [] := by
  simp [Blocks]

/-- One use blocks when it is a wait. -/
private theorem blocks_singleton (u : Use) : Blocks [u] ↔ u.blocks := by
  simp only [Blocks, List.mem_singleton, exists_eq_left]

section

variable {th : Thread} {env : CallEnv} {s : Shim}

/-- A call on an object blocks when it waits. -/
private theorem blocks_runCall_iff {σ : Type} (c : SyncCall (Option BridgeHandle) σ Ret TickType)
    (obj : σ) :
    Blocks (s.runCall env c obj).2 ↔
      (∃ ret, (c.body obj).2 = .unmet ret) ∧
        (c.wait.bind fun w => w.patience env.start (env.clock env.woken)).isSome := by
  rw [← SyncCall.wait_mem_alone_iff]
  constructor
  · rintro ⟨u, hu, hblocks⟩
    obtain ⟨fn, hfn, rfl⟩ := List.mem_map.mp hu
    cases fn with
    | wait => exact hfn
    | _ => exact nomatch hblocks
  · intro hwait
    exact ⟨_, List.mem_map_of_mem hwait, rfl⟩

/-- The call never waits, whatever its section finds. -/
def Impatient {σ : Type} (c : SyncCall (Option BridgeHandle) σ Ret TickType) : Prop :=
  ∀ start now, (c.wait.bind fun w => w.patience start now) = none

/-- A call of one section does not wait. -/
private theorem impatient_once {σ : Type} (ctx : Option BridgeHandle) (body : σ → σ × Ret × Bool) :
    Impatient (.once ctx body) := fun _ _ => rfl

/-- A call that does not wait does not block. -/
theorem Impatient.not_blocks {σ : Type} {c : SyncCall (Option BridgeHandle) σ Ret TickType}
    (hc : Impatient c) (obj : σ) : ¬ Blocks (s.runCall env c obj).2 := by
  rw [blocks_runCall_iff, hc]
  rintro ⟨-, hwait⟩
  exact nomatch hwait

/-- A call on a queue blocks when the queue is there and its section waits. -/
private theorem blocks_queueCall_iff (q : Option Nat)
    (f : S31Queue → Ret ⊕ SyncCall (Option BridgeHandle) S31Queue Ret TickType) :
    Blocks (queueCall env q f s).2 ↔
      ∃ a queue c, q = some a ∧ s.queues a = some queue ∧ f queue = .inr c ∧
        Blocks (s.runCall env c queue).2 := by
  cases q with
  | none => simp [queueCall]
  | some a =>
    cases hq : s.queues a with
    | none => simp [queueCall, hq]
    | some queue => cases hf : f queue <;> simp [queueCall, hq, hf]

/-- A call on an event group blocks when the group is there and its section waits. -/
private theorem blocks_groupCall_iff (g : Option Nat)
    (f : S31EventGroup → Ret ⊕ SyncCall (Option BridgeHandle) S31EventGroup Ret TickType) :
    Blocks (groupCall env g f s).2 ↔
      ∃ a group c, g = some a ∧ s.groups a = some group ∧ f group = .inr c ∧
        Blocks (s.runCall env c group).2 := by
  cases g with
  | none => simp [groupCall]
  | some a =>
    cases hg : s.groups a with
    | none => simp [groupCall, hg]
    | some group => cases hf : f group <;> simp [groupCall, hg, hf]

/-- A call on a task blocks when the task is there and its section waits. -/
private theorem blocks_taskCall_iff (t : Option TaskHandle)
    (f : Option BridgeHandle → S31Tcb → Ret ⊕ SyncCall (Option BridgeHandle) S31Tcb Ret TickType) :
    Blocks (taskCall env t f s).2 ↔
      ∃ a task c, t = some a ∧ s.tasks a = some task ∧ f task.notifyContext task.tcb = .inr c ∧
        Blocks (s.runCall env c task.tcb).2 := by
  cases t with
  | none => simp [taskCall]
  | some a =>
    cases ht : s.tasks a with
    | none => simp [taskCall, ht]
    | some task => cases hf : f task.notifyContext task.tcb <;> simp [taskCall, ht, hf]

/-! ## Entry points that do not block -/

/-- A call on a queue that never waits does not block. -/
private theorem not_blocks_queueCall (q : Option Nat)
    {f : S31Queue → Ret ⊕ SyncCall (Option BridgeHandle) S31Queue Ret TickType}
    (hf : ∀ queue c, f queue = .inr c → Impatient c) : ¬ Blocks (queueCall env q f s).2 := by
  rw [blocks_queueCall_iff]
  rintro ⟨a, queue, c, -, -, hc, hblocks⟩
  exact (hf queue c hc).not_blocks _ hblocks

/-- A call on an event group that never waits does not block. -/
private theorem not_blocks_groupCall (g : Option Nat)
    {f : S31EventGroup → Ret ⊕ SyncCall (Option BridgeHandle) S31EventGroup Ret TickType}
    (hf : ∀ group c, f group = .inr c → Impatient c) : ¬ Blocks (groupCall env g f s).2 := by
  rw [blocks_groupCall_iff]
  rintro ⟨a, group, c, -, -, hc, hblocks⟩
  exact (hf group c hc).not_blocks _ hblocks

/-- A send in an interrupt does not wait. -/
private theorem sendFromISR_impatient {item : Option (List UInt8)} {woken : Option BaseType}
    {copy : BaseType} {ctx : Option BridgeHandle} (queue : S31Queue)
    (c : SyncCall (Option BridgeHandle) S31Queue Ret TickType)
    (hc : xQueueGenericSendFromISR th ctx item woken copy queue = .inr c) : Impatient c := by
  unfold xQueueGenericSendFromISR at hc
  split at hc
  · obtain rfl := Sum.inr.inj hc
    exact impatient_once _ _
  · exact nomatch hc

/-- A receive by the variant for interrupts does not wait. -/
private theorem receiveFromISR_impatient {item : Bool} {woken : Option BaseType}
    {ctx : Option BridgeHandle} (queue : S31Queue)
    (c : SyncCall (Option BridgeHandle) S31Queue Ret TickType)
    (hc : xQueueReceiveFromISR ctx item woken queue = .inr c) : Impatient c := by
  unfold xQueueReceiveFromISR at hc
  split at hc
  · obtain rfl := Sum.inr.inj hc
    exact impatient_once _ _
  · exact nomatch hc

/-- In ISR context a send is the send of an ISR. -/
private theorem send_impatient (hisr : th.inIsr) {item : Option (List UInt8)} {timeout : TickType}
    {copy : BaseType} {ctx : Option BridgeHandle} (queue : S31Queue)
    (c : SyncCall (Option BridgeHandle) S31Queue Ret TickType)
    (hc : xQueueGenericSend th ctx item timeout copy queue = .inr c) : Impatient c := by
  unfold xQueueGenericSend at hc
  split at hc
  · exact sendFromISR_impatient _ _ hc
  · exact nomatch hc

/-- A receive in an interrupt does not wait. -/
private theorem receive_impatient (hisr : th.inIsr) {item : Bool} {timeout : TickType}
    {ctx : Option BridgeHandle} (queue : S31Queue)
    (c : SyncCall (Option BridgeHandle) S31Queue Ret TickType)
    (hc : xQueueReceive th ctx item timeout queue = .inr c) : Impatient c := by
  unfold xQueueReceive at hc
  split at hc
  · exact receiveFromISR_impatient _ _ hc
  · exact nomatch hc

/-- In ISR context a wait for event bits has no patience. -/
private theorem waitBits_impatient (hisr : th.inIsr) {bits : UInt32}
    {clearOnExit waitAllBits : Bool}
    {timeout : TickType} {ctx : Option BridgeHandle} (group : S31EventGroup)
    (c : SyncCall (Option BridgeHandle) S31EventGroup Ret TickType)
    (hc : xEventGroupWaitBits th ctx bits clearOnExit waitAllBits timeout group = .inr c) :
    Impatient c := by
  unfold xEventGroupWaitBits at hc
  split at hc
  · obtain rfl := Sum.inr.inj hc
    intro start now
    rfl
  · exact nomatch hc

/-- A function guarded by a test that makes one section. -/
private theorem guarded_impatient {σ : Type} {p : Prop} [Decidable p] {ret : Ret}
    {ctx : Option BridgeHandle} {body : σ → σ × Ret × Bool}
    (c : SyncCall (Option BridgeHandle) σ Ret TickType)
    (hc : (if p then Sum.inr (SyncCall.once ctx body) else Sum.inl ret) = .inr c) :
    Impatient c := by
  split at hc
  · obtain rfl := Sum.inr.inj hc
    exact impatient_once _ _
  · exact nomatch hc

/-- Notifying a task makes one section. -/
private theorem not_blocks_notify (task : Option TaskHandle) (index value : UInt32) (action : Int)
    (previous : Bool) :
    ¬ Blocks (taskCall env task (fun ctx =>
      xTaskGenericNotify ctx index value action previous) s).2 := by
  rw [blocks_taskCall_iff]
  rintro ⟨a, t, c, -, -, hc, hblocks⟩
  unfold xTaskGenericNotify at hc
  split at hc
  · exact nomatch hc
  · obtain rfl := Sum.inr.inj hc
    exact (impatient_once _ _).not_blocks _ hblocks

/-- Destroying a context does not block. -/
private theorem not_blocks_destroy (ctx : Option BridgeHandle) : ¬ Blocks (s.destroy ctx).2 :=
  (blocks_singleton _).not.mpr Bool.false_ne_true

/-- Destroying a context, if there is one, does not block. -/
private theorem not_blocks_destroyIf (ctx : Option BridgeHandle) :
    ¬ Blocks (s.destroyIf ctx).2 := by
  unfold Shim.destroyIf
  split
  · exact not_blocks_destroy ctx
  · exact not_blocks_nil

/-- Two lists of uses block when one of them does. -/
private theorem blocks_append {l l' : List Use} : Blocks (l ++ l') ↔ Blocks l ∨ Blocks l' := by
  simp [Blocks, or_and_right, exists_or]

/-- Deleting a queue does not block. -/
private theorem not_blocks_vQueueDelete (q : Option Nat) : ¬ Blocks (vQueueDelete q s).2 := by
  unfold vQueueDelete
  split
  · exact not_blocks_nil
  · exact not_blocks_destroy _

/-- Deleting an event group does not block. -/
private theorem not_blocks_vEventGroupDelete (g : Option Nat) :
    ¬ Blocks (vEventGroupDelete g s).2 := by
  unfold vEventGroupDelete
  split
  · exact not_blocks_nil
  · exact not_blocks_destroy _

/-- Creating a task does not block. -/
private theorem not_blocks_taskCreate (valid : Bool) (block : Option TaskHandle)
    (notify suspend : Option BridgeHandle) (stack linuxTask : Bool) :
    ¬ Blocks (xTaskCreatePinnedToCore valid block notify suspend stack linuxTask s).2 := by
  unfold xTaskCreatePinnedToCore
  split
  · exact not_blocks_nil
  · split
    · exact not_blocks_nil
    · dsimp only
      split
      · rw [blocks_append]
        exact not_or.mpr ⟨not_blocks_destroyIf _, not_blocks_destroyIf _⟩
      · exact not_blocks_nil

/-- Releasing a task does not block. -/
private theorem not_blocks_taskRelease (t : Option TaskHandle) :
    ¬ Blocks (s31RtosTaskRelease t s).2 := by
  unfold s31RtosTaskRelease
  split
  · exact not_blocks_nil
  · rw [blocks_append]
    exact not_or.mpr ⟨not_blocks_destroyIf _, not_blocks_destroyIf _⟩

/-- Deleting a task does not block. -/
private theorem not_blocks_vTaskDelete (task : Option TaskHandle) :
    ¬ Blocks (vTaskDelete th task s).2 := by
  unfold vTaskDelete
  split <;> exact (blocks_singleton _).not.mpr Bool.false_ne_true

/-! ## Entry points that block -/

/-- A call goes on waiting exactly when there is time left. -/
private theorem queuePatience_isSome_iff (timeout : TickType) :
    (queuePatience timeout env.start (env.clock env.woken)).isSome ↔ env.TimeLeft timeout := by
  unfold queuePatience CallEnv.TimeLeft
  split
  · next h0 => simp [h0]
  · next h0 =>
    split
    · next hleft => simp [hleft]
    · next hleft => simp [h0, hleft]

/-- A take waits exactly for a token or the mutex. -/
private theorem semaphoreTake_unmet_iff (t : TaskHandle) (q : S31Queue) :
    (∃ ret, (semaphoreTakeSection t q).2 = .unmet ret) ↔ q.Unavailable t := by
  unfold semaphoreTakeSection S31Queue.Unavailable
  split
  · split
    · next howner => simp [howner]
    · next howner =>
      split
      · next hfree => simp [hfree]
      · next hfree => simp [howner, hfree]
  · split
    · next hcount => simp [hcount]
    · next hcount => simp [not_not.mp hcount]

/-- A take never asks for the context it is called in. -/
private theorem blocks_semaphoreTake_iff (q : Option Nat) (timeout : TickType) :
    Blocks (queueCall env q (fun queue =>
      xQueueSemaphoreTake th queue.waitContext timeout queue) s).2 ↔
        TakeBlocks th env s q timeout := by
  -- for one queue: it is valid, its section does not succeed, and there is time left
  have hcall : ∀ queue : S31Queue, (∃ c, xQueueSemaphoreTake th queue.waitContext timeout queue =
      .inr c ∧ Blocks (s.runCall env c queue).2) ↔
        s31QueueValid queue ∧ queue.Unavailable th.task ∧ env.TimeLeft timeout := by
    intro queue
    unfold xQueueSemaphoreTake
    split
    · next hvalid =>
      simp only [Sum.inr.injEq, exists_eq_left', blocks_runCall_iff, hvalid, true_and]
      exact and_congr (semaphoreTake_unmet_iff _ _) (queuePatience_isSome_iff _)
    · next hvalid => simp [hvalid]
  rw [blocks_queueCall_iff]
  constructor
  · rintro ⟨a, queue, c, rfl, hqueue, hc, hblocks⟩
    exact ⟨a, queue, rfl, hqueue, (hcall queue).mp ⟨c, hc, hblocks⟩⟩
  · rintro ⟨a, queue, rfl, hqueue, hblocked⟩
    obtain ⟨c, hc, hblocks⟩ := (hcall queue).mpr hblocked
    exact ⟨a, queue, c, rfl, hqueue, hc, hblocks⟩

/-- A take of a notification waits exactly for a value. -/
private theorem notifyTake_unmet_iff (clear : Bool) (t : S31Tcb) :
    (∃ ret, (notifyTakeSection clear t).2 = .unmet ret) ↔ t.notifyValue = 0 := by
  unfold notifyTakeSection
  split
  · next hvalue => simp [hvalue]
  · next hvalue => simp [not_not.mp hvalue]

/-- A wait waits exactly for a notification. -/
private theorem notifyWait_unmet_iff (clearEntry clearExit : UInt32) (out : Bool) (t : S31Tcb) :
    (∃ ret, (notifyWaitSection clearEntry clearExit out t).2 = .unmet ret) ↔
      t.notifyState ≠ .received := by
  unfold notifyWaitSection
  split
  · next hstate => simp [hstate]
  · next hstate => simp [hstate]

/-- The waits for a notification: on the caller's own task, for index 0. -/
private theorem blocks_notify_iff {index : UInt32} {timeout : TickType} {ret : Ret}
    {body : S31Tcb → S31Tcb × Outcome Ret} {early late : Option (S31Tcb → S31Tcb × Ret)}
    {f : Option BridgeHandle → S31Tcb → Ret ⊕ SyncCall (Option BridgeHandle) S31Tcb Ret TickType}
    (hf : ∀ ctx t, f ctx t = if index ≠ 0 then .inl ret else
      .inr { ctx := ctx, body := body,
             wait := some { patience := notifyPatience timeout, early := early, late := late } })
    {P : S31Tcb → Prop} (hbody : ∀ t, (∃ ret, (body t).2 = .unmet ret) ↔ P t) :
    Blocks (taskCall env (some th.task) f s).2 ↔
      ∃ task, s.tasks th.task = some task ∧ index = 0 ∧ P task.tcb ∧ env.TimeLeft timeout := by
  rw [blocks_taskCall_iff]
  constructor
  · rintro ⟨a, task, c, ha, htask, hc, hblocks⟩
    obtain rfl := Option.some.inj ha
    rw [hf] at hc
    split at hc
    · exact nomatch hc
    -- it blocks in its section, which is not met in time
    · next hindex =>
      obtain rfl := Sum.inr.inj hc
      obtain ⟨hunmet, hleft⟩ := (blocks_runCall_iff _ _).mp hblocks
      exact ⟨task, htask, not_not.mp hindex, (hbody _).mp hunmet,
        (queuePatience_isSome_iff timeout).mp hleft⟩
  · rintro ⟨task, htask, hindex, hP, hleft⟩
    -- with the index 0 the call has its section
    have hc := hf task.notifyContext task.tcb
    rw [if_neg (not_not.mpr hindex)] at hc
    exact ⟨th.task, task, _, rfl, htask, hc, (blocks_runCall_iff _ _).mpr
      ⟨(hbody _).mpr hP, (queuePatience_isSome_iff timeout).mpr hleft⟩⟩

/-- Suspending blocks exactly for the caller itself. -/
private theorem blocks_vTaskSuspend_iff (task : Option TaskHandle) :
    Blocks (vTaskSuspend th task s).2 ↔
      ∃ t, task.getD th.task = th.task ∧ s.tasks th.task = some t := by
  unfold vTaskSuspend
  dsimp only
  split
  · next hne => simp [hne]
  · next heq =>
    rw [not_not.mp heq]
    cases hcur : s.tasks th.task with
    | none => simp
    | some t =>
      exact iff_of_true ⟨_, List.mem_cons_of_mem _ (List.mem_singleton.mpr rfl), rfl⟩
        ⟨t, rfl, rfl⟩

/-- The entry points of the shim. -/
private theorem blocks_perform_iff (hisr : th.inIsr) (c : ShimCall) :
    Blocks (perform th env s c).2 ↔ c.Unguarded th env s := by
  cases c with
  -- the calls without a test for interrupts block when their condition is not met
  | xQueueSemaphoreTake q timeout => exact blocks_semaphoreTake_iff q timeout
  | xQueueTakeMutexRecursive q timeout => exact blocks_semaphoreTake_iff q timeout
  | ulTaskGenericNotifyTake index clear timeout =>
    exact blocks_notify_iff (fun _ _ => rfl) (notifyTake_unmet_iff clear)
  | xTaskGenericNotifyWait index clearEntry clearExit out timeout =>
    exact blocks_notify_iff (fun _ _ => rfl) (notifyWait_unmet_iff clearEntry clearExit out)
  | vTaskSuspend task => exact blocks_vTaskSuspend_iff task
  | vTaskDelay ticks => simp [perform, vTaskDelay, hisr, ShimCall.Unguarded]
  -- all others look first, or never wait
  | xQueueGenericSend q item timeout copy =>
    exact iff_false_intro (not_blocks_queueCall q fun _ => send_impatient hisr _)
  | xQueueGenericSendFromISR q item woken copy =>
    exact iff_false_intro (not_blocks_queueCall q fun _ => sendFromISR_impatient _)
  | xQueueGiveFromISR q woken =>
    exact iff_false_intro (not_blocks_queueCall q fun _ => sendFromISR_impatient _)
  | xQueueReceive q item timeout =>
    exact iff_false_intro (not_blocks_queueCall q fun _ => receive_impatient hisr _)
  | xQueueReceiveFromISR q item woken =>
    exact iff_false_intro (not_blocks_queueCall q fun _ => receiveFromISR_impatient _)
  | xQueueGiveMutexRecursive q | xQueueGetMutexHolder q | uxQueueMessagesWaiting q
  | xQueueGenericReset q _ =>
    exact iff_false_intro (not_blocks_queueCall q fun _ => guarded_impatient)
  | xEventGroupSetBits g bits | xEventGroupClearBits g bits =>
    exact iff_false_intro (not_blocks_groupCall g fun _ => guarded_impatient)
  | xEventGroupWaitBits g bits clearOnExit waitAllBits timeout =>
    exact iff_false_intro (not_blocks_groupCall g fun _ => waitBits_impatient hisr _)
  | xTaskGenericNotify task index value action previous =>
    exact iff_false_intro (not_blocks_notify task index value action previous)
  | vTaskGenericNotifyGiveFromISR task index =>
    exact iff_false_intro (not_blocks_notify task index 0 2 false)
  | vQueueDelete q => exact iff_false_intro (not_blocks_vQueueDelete q)
  | vEventGroupDelete g => exact iff_false_intro (not_blocks_vEventGroupDelete g)
  | xTaskCreatePinnedToCore valid block notify suspend stack linuxTask =>
    exact iff_false_intro (not_blocks_taskCreate valid block notify suspend stack linuxTask)
  | s31RtosTaskRelease t => exact iff_false_intro (not_blocks_taskRelease t)
  | vTaskDelete task => exact iff_false_intro (not_blocks_vTaskDelete task)
  | xQueueGenericCreate | xQueueGenericCreateStatic | xQueueCreateMutex
  | xQueueCreateCountingSemaphore => exact iff_false_intro not_blocks_nil
  | xEventGroupCreate block ctx =>
    apply iff_false_intro
    simp only [perform]
    split <;> exact not_blocks_nil

end

/-! ## The lock functions -/

section

variable {th : Thread} {env : LockEnv}

/-- A call of the shim that is guarded everywhere. -/
theorem LockShim.not_blocks_call (hisr : th.inIsr) {w : LockShim} {c : ShimCall}
    (hc : ¬ c.Unguarded th env.call w.shim) : ¬ Blocks (w.call th env c).2 :=
  fun hblocks => hc ((blocks_perform_iff hisr c).mp hblocks)

/-- In ISR context a lock is taken with the receive of an ISR. -/
theorem LockShim.not_blocks_s31LockTake (hisr : th.inIsr) (lock : Option LockKey)
    (timeout : TickType) (type : UInt8) (w : LockShim) :
    ¬ Blocks (w.s31LockTake th env lock timeout type).2 := by
  unfold s31LockTake
  split
  · exact not_blocks_nil
  · rw [if_pos hisr]
    exact not_blocks_call hisr (nomatch ·)

/-- Giving a lock back in an interrupt does not block. -/
theorem LockShim.not_blocks_s31LockGive (hisr : th.inIsr) (lock : Option LockKey) (w : LockShim) :
    ¬ Blocks (w.s31LockGive th env lock).2 := by
  unfold s31LockGive
  split
  · exact not_blocks_nil
  · rw [if_pos hisr]
    exact not_blocks_call hisr (nomatch ·)

/-- Closing a lock in an interrupt does not block. -/
theorem LockShim.not_blocks_closeKey (hisr : th.inIsr) (key : LockKey) (w : LockShim) :
    ¬ Blocks (w.closeKey th env key).2 := by
  unfold closeKey
  split
  · exact not_blocks_nil
  · exact not_blocks_call hisr (nomatch ·)

/-- Closing the lock of a variable in an interrupt does not block. -/
theorem LockShim.not_blocks_lockClose (hisr : th.inIsr) (lock : Option LockVar) (w : LockShim) :
    ¬ Blocks (w.lockClose th env lock).2 := by
  unfold lockClose
  split
  · exact not_blocks_nil
  · exact not_blocks_closeKey hisr _ w

/-- Taking the lock of a variable in an interrupt does not block. -/
theorem LockShim.not_blocks_lockTakeVar (hisr : th.inIsr) (lock : Option LockVar)
    (timeout : TickType) (type : UInt8) (w : LockShim) :
    ¬ Blocks (w.lockTakeVar th env lock timeout type).2 := by
  unfold lockTakeVar
  dsimp only
  split
  · exact not_blocks_nil
  · exact not_blocks_s31LockTake hisr _ _ _ _

/-- Giving back the lock of a variable in an interrupt does not block. -/
theorem LockShim.not_blocks_lockReleaseVar (hisr : th.inIsr) (lock : Option LockVar)
    (w : LockShim) : ¬ Blocks (w.lockReleaseVar th env lock).2 := by
  unfold lockReleaseVar
  split
  · exact not_blocks_nil
  · exact not_blocks_s31LockGive hisr _ _

/-- Preparing the lock of a variable in an interrupt does not block. -/
theorem LockShim.not_blocks_retargetInit (lock : Option LockVar) (type : UInt8) (w : LockShim) :
    ¬ Blocks (w.retargetInit th env lock type).2 := by
  unfold retargetInit
  dsimp only
  split <;> exact not_blocks_nil

/-- No function on locks blocks in an interrupt. -/
private theorem not_blocks_performLock (hisr : th.inIsr) (w : LockShim) (c : LockEntryPoint) :
    ¬ Blocks (performLock th env w c).2 := by
  cases c with
  | lockInit | lockInitRecursive => exact not_blocks_nil
  | lockClose | lockCloseRecursive => exact w.not_blocks_lockClose hisr _
  | lockAcquire | lockAcquireRecursive | lockTryAcquire | lockTryAcquireRecursive =>
    exact w.not_blocks_lockTakeVar hisr _ _ _
  | lockRelease | lockReleaseRecursive => exact w.not_blocks_lockReleaseVar hisr _
  | retargetLockInit | retargetLockInitRecursive => exact w.not_blocks_retargetInit _ _
  -- these take the lock itself and not a variable with it
  | retargetLockClose lock | retargetLockCloseRecursive lock =>
    cases lock with
    | none => exact not_blocks_nil
    | some key => exact w.not_blocks_closeKey hisr key
  | retargetLockAcquire | retargetLockAcquireRecursive | retargetLockTryAcquire
  | retargetLockTryAcquireRecursive => exact w.not_blocks_s31LockTake hisr _ _ _
  | retargetLockRelease | retargetLockReleaseRecursive => exact w.not_blocks_s31LockGive hisr _

/-- In ISR context an entry point calls no function that waits, delays or yields,
    unless it is a take, a notification wait or a suspend that comes to its wait. -/
theorem isr_nonblocking_iff (hisr : th.inIsr) (w : LockShim) (e : EntryPoint) :
    (∀ u ∈ e.uses th env w, u.blocks = false) ↔ ¬ e.Unguarded th env w := by
  have hblocks : Blocks (e.uses th env w) ↔ e.Unguarded th env w := by
    cases e with
    | shim c => exact blocks_perform_iff hisr c
    | lock c => exact iff_false_intro (not_blocks_performLock hisr w c)
  rw [← hblocks]
  simp [Blocks]

end

/-- A counting semaphore without units at address 40, with context 7. -/
def drainedSemaphore : LockShim where
  shim := {
    queues := Function.update (fun _ => none) 40
      (xQueueCreateCountingSemaphore (fun _ => some fun _ => 0) (some 7) 1 0)
    contexts := [7] }
  vars := fun _ => none
  table := []

/-- A handler of the radio worker. -/
def isrWorker : Thread := ⟨0, foreignTcb, true⟩

/-- Time does not pass and no wait succeeds. -/
def idleEnv : LockEnv where
  call := { start := 0, clock := fun _ => 0, woken := 0 }
  lock := none
  block := none
  ctx := none

/-- An ISR that receives from the semaphore does not block. -/
theorem isr_receive_nonblocking :
    isrWorker.inIsr ∧
      ∀ u ∈ (EntryPoint.shim (.xQueueReceive (some 40) false 1)).uses isrWorker idleEnv
        drainedSemaphore, u.blocks = false :=
  ⟨rfl, (isr_nonblocking_iff rfl drainedSemaphore _).mpr (nomatch ·)⟩

/-- An ISR that takes it waits for a tick. -/
theorem isr_take_blocks :
    isrWorker.inIsr ∧
      ¬ ∀ u ∈ (EntryPoint.shim (.xQueueSemaphoreTake (some 40) 1)).uses isrWorker idleEnv
        drainedSemaphore, u.blocks = false := by
  refine ⟨rfl, fun h => ?_⟩
  have hwait : Use.sync .wait (some 7) true ∈
      (EntryPoint.shim (.xQueueSemaphoreTake (some 40) 1)).uses isrWorker idleEnv
        drainedSemaphore := by decide
  exact nomatch h _ hwait

end EspS31.Rtos
