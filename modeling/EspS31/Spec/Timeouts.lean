import EspS31.ForStd.Deadline
import EspS31.Native.Rtos
import EspS31.Spec.SectionFrames

/-!
# Finite timeouts

The six calls of the shim that block, made in task context with a timeout below
`portMAX_DELAY`.  The tick counter is 32 bits wide and may wrap during a wait;
what is left of the timeout is recomputed after every wake-up.

## Key results

- `queuePatience_deadline`: what the calls ask the bridge for fits the timeout
- `rtosCode_keeps`: no call changes the type, the capacity or the context of an
  object
- `timeout_honoured`: what a call with a timeout does in every run
-/

namespace EspS31.Rtos

open SyncProtocol

/-! ## Ticks -/

/-- The tick counter `k` ticks after `start`. -/
def tickLater (start : TickType) (k : Nat) : TickType := start + UInt32.ofNat k

/-- Unsigned subtraction gives the ticks passed, also when the counter wrapped. -/
private theorem tickLater_sub (start : TickType) {k : Nat} (hk : k < 2 ^ 32) :
    (tickLater start k - start).toNat = k := by
  have hsub : tickLater start k - start = UInt32.ofNat k := by
    rw [tickLater, UInt32.add_comm, UInt32.add_sub_cancel]
  rw [hsub, UInt32.toNat_ofNat_of_lt' hk]

/-- After `k` ticks there are `k` less left. -/
private theorem s31WaitRemaining_toNat {T : TickType} (hT : T ≠ portMAX_DELAY) (start : TickType)
    {k : Nat}
    (hk : k ≤ T.toNat) : (s31WaitRemaining T start (tickLater start k)).toNat = T.toNat - k := by
  have hlt : k < 2 ^ 32 := Nat.lt_of_le_of_lt hk T.toNat_lt
  have hpassed := tickLater_sub start hlt
  rw [s31WaitRemaining, if_neg hT]
  split
  · next hge =>
    have := UInt32.le_iff_toNat_le.mp hge
    rw [hpassed] at this
    rw [UInt32.toNat_zero]
    omega
  · next hlt' =>
    have hle : tickLater start k - start ≤ T := UInt32.le_of_lt (UInt32.not_le.mp hlt')
    rw [UInt32.toNat_sub_of_le _ _ hle, hpassed]

/-- The queue calls wait with a deadline. -/
theorem queuePatience_deadline {T : TickType} (hT : T ≠ portMAX_DELAY) :
    Deadline UInt32.toNat tickLater T.toNat (queuePatience T) where
  -- what is left is positive and ends at the deadline
  sleeps start k left hk hleft := by
    have hremaining := s31WaitRemaining_toNat hT start hk
    unfold queuePatience at hleft
    split at hleft
    · exact nomatch hleft
    · split at hleft
      · exact nomatch hleft
      · next hne =>
        obtain rfl := Option.some.inj hleft
        have hpos := mt UInt32.toNat_inj.mp hne
        rw [UInt32.toNat_zero] at hpos
        omega
  -- nothing is left: the whole timeout has passed
  ends start k hk hleft := by
    have hremaining := s31WaitRemaining_toNat hT start hk
    unfold queuePatience at hleft
    split at hleft
    · next hzero =>
      rw [hzero, UInt32.toNat_zero] at hk ⊢
      omega
    · split at hleft
      · next heq =>
        rw [heq, UInt32.toNat_zero] at hremaining
        omega
      · exact nomatch hleft

/-! ## The blocking calls -/

/-- The timeout of a call that waits. -/
def RtosOp.timeout? : RtosOp → Option TickType
  | .xQueueGenericSend _ _ timeout _ | .xQueueReceive _ _ timeout | .xQueueSemaphoreTake _ timeout
  | .xEventGroupWaitBits _ _ _ _ timeout | .ulTaskGenericNotifyTake _ _ timeout
  | .xTaskGenericNotifyWait _ _ _ _ timeout => some timeout
  | _ => none

/-- The object of a blocking call is valid: it has a context, and a queue has
    room for items.  A send is to a queue proper. -/
def RtosOp.Valid (w : World) : RtosOp → Prop
  | .xQueueGenericSend q _ _ _ =>
    s31QueueValid (w.queues q) ∧ (w.queues q).capacity ≠ 0 ∧
      (w.queues q).type ≠ s31QTypeMutex ∧ (w.queues q).type ≠ s31QTypeSem
  | .xQueueReceive q _ _ => s31QueueValid (w.queues q) ∧ (w.queues q).capacity ≠ 0
  | .xQueueSemaphoreTake q _ => s31QueueValid (w.queues q)
  | .xEventGroupWaitBits g _ _ _ _ => (w.groups g).waitContext.isSome
  | .ulTaskGenericNotifyTake index _ _ | .xTaskGenericNotifyWait index _ _ _ _ => index = 0
  | _ => False

/-- The value says that the call got what it waited for. -/
def RtosOp.Got : RtosOp → Ret → Prop
  | .xEventGroupWaitBits _ bits _ waitAllBits _, ret =>
    ∃ held, ret = .value held ∧ s31EgMatch held bits waitAllBits
  | .ulTaskGenericNotifyTake _ _ _, ret => ∃ v, ret = .value v ∧ v ≠ 0
  | _, ret => ret.rc = pdTRUE

/-! ## What no call changes -/

/-- All objects keep their type, capacity and context. -/
structure SameObjects (w w' : World) : Prop where
  queues : ∀ i, SameQueue (w.queues i) (w'.queues i)
  groups : ∀ i, (w'.groups i).waitContext = (w.groups i).waitContext

/-- Replacing a queue by one of its kind keeps the objects. -/
private theorem setQueue_same {w : World} {i : Nat} {q : S31Queue} (h : SameQueue (w.queues i) q) :
    SameObjects w (w.setQueue i q) := by
  refine ⟨fun j => ?_, fun _ => rfl⟩
  simp only [World.setQueue, Function.update_apply]
  split
  · next hj => rwa [hj]
  · exact .refl _

/-- Replacing a group with its context keeps the objects. -/
private theorem setGroup_same {w : World} {i : Nat} {g : S31EventGroup}
    (h : g.waitContext = (w.groups i).waitContext) : SameObjects w (w.setGroup i g) := by
  refine ⟨fun _ => .refl _, fun j => ?_⟩
  simp only [World.setGroup, Function.update_apply]
  split
  · next hj => rwa [hj]
  · rfl

/-- Replacing a task's block keeps the objects. -/
private theorem setTcb_same (w : World) (i : TaskHandle) (t : S31Tcb) :
    SameObjects w (w.setTcb i t) :=
  ⟨fun _ => .refl _, fun _ => rfl⟩

/-- The sections of a call leave the objects of every world the same. -/
def KeepsObjects (c : SyncCall Ctx World Ret TickType) : Prop :=
  (∀ w, SameObjects w (c.body w).1) ∧
    ∀ late f, c.closing late = some f → ∀ w, SameObjects w (f w).1

/-- A call on a queue keeps the objects when its section does. -/
private theorem keepsObjects_onQueue {i : Nat} {c : SyncCall Ctx S31Queue Ret TickType}
    (hbody : ∀ q, SameQueue q (c.body q).1) (hclosing : ∀ late, c.closing late = none) :
    KeepsObjects (c.zoom (fun w => w.queues i) (World.setQueue i)) := by
  refine ⟨fun w => setQueue_same (hbody _), fun late f hf => ?_⟩
  rw [SyncCall.closing_zoom, hclosing] at hf
  exact nomatch hf

/-- A call on a group keeps the objects when its sections do. -/
private theorem keepsObjects_onGroup {i : Nat} {c : SyncCall Ctx S31EventGroup Ret TickType}
    (hbody : ∀ g, (c.body g).1.waitContext = g.waitContext)
    (hclosing : ∀ late f, c.closing late = some f → ∀ g, (f g).1.waitContext = g.waitContext) :
    KeepsObjects (c.zoom (fun w => w.groups i) (World.setGroup i)) := by
  refine ⟨fun w => setGroup_same (hbody _), fun late f hf w => ?_⟩
  rw [SyncCall.closing_zoom] at hf
  obtain ⟨f₀, hf₀, rfl⟩ := Option.map_eq_some_iff.mp hf
  exact setGroup_same (hclosing late f₀ hf₀ _)

/-- A call on a task keeps the objects. -/
private theorem keepsObjects_onTcb (i : TaskHandle) (c : SyncCall Ctx S31Tcb Ret TickType) :
    KeepsObjects (c.zoom (fun w => w.tcbs i) (World.setTcb i)) := by
  refine ⟨fun w => setTcb_same w i _, fun late f hf w => ?_⟩
  rw [SyncCall.closing_zoom] at hf
  obtain ⟨f₀, -, rfl⟩ := Option.map_eq_some_iff.mp hf
  exact setTcb_same w i _

/-- The queue calls that loop have no closing sections. -/
private theorem queueLoop_closing (timeout : TickType) (body : S31Queue → S31Queue × Outcome Ret)
    (i : Nat) (late : Bool) : (queueLoop (Ctx.queue i) timeout body).closing late = none := by
  cases late <;> rfl

/-- A call that is accepted under one condition and refused otherwise. -/
private theorem eq_of_ite_inr {α β : Type} {p : Prop} [Decidable p] {x y : β} {r : α}
    (h : (if p then Sum.inr x else Sum.inl r) = Sum.inr y) : x = y := by
  split at h
  · exact Sum.inr.inj h
  · exact nomatch h

/-- No call changes the type, the capacity or the context of an object. -/
theorem rtosCode_keeps {th : Thread} {op : RtosOp} {c : SyncCall Ctx World Ret TickType}
    (h : Calls rtosCode th op c) : KeepsObjects c := by
  -- the calls on queues, on event groups and on notifications, each by its section
  obtain ⟨w, w', h⟩ := h
  cases op with
  | xQueueGenericSend q item timeout copy =>
    obtain ⟨c₀, hf, rfl⟩ := onQueue_inr h
    unfold xQueueGenericSend at hf
    split at hf
    · split at hf
      · obtain rfl := eq_of_ite_inr hf
        exact keepsObjects_onQueue (sendFromISRSection_same _ _ none _) fun _ => rfl
      · obtain rfl := Sum.inr.inj hf
        exact keepsObjects_onQueue (sendSection_same _ _ _) (queueLoop_closing _ _ _)
    · exact nomatch hf
  | xQueueGenericSendFromISR q item woken copy =>
    obtain ⟨c₀, hf, rfl⟩ := onQueue_inr h
    obtain rfl := eq_of_ite_inr hf
    exact keepsObjects_onQueue (sendFromISRSection_same _ _ woken _) fun _ => rfl
  | xQueueReceive q item timeout =>
    obtain ⟨c₀, hf, rfl⟩ := onQueue_inr h
    unfold xQueueReceive at hf
    split at hf
    · split at hf
      · obtain rfl := eq_of_ite_inr hf
        exact keepsObjects_onQueue (receiveFromISRSection_same _ none) fun _ => rfl
      · obtain rfl := Sum.inr.inj hf
        exact keepsObjects_onQueue (receiveSection_same _) (queueLoop_closing _ _ _)
    · exact nomatch hf
  | xQueueReceiveFromISR q item woken =>
    obtain ⟨c₀, hf, rfl⟩ := onQueue_inr h
    obtain rfl := eq_of_ite_inr hf
    exact keepsObjects_onQueue (receiveFromISRSection_same _ woken) fun _ => rfl
  | xQueueSemaphoreTake q timeout =>
    obtain ⟨c₀, hf, rfl⟩ := onQueue_inr h
    obtain rfl := eq_of_ite_inr hf
    exact keepsObjects_onQueue (semaphoreTakeSection_same _) (queueLoop_closing _ _ _)
  | xQueueGiveMutexRecursive q =>
    obtain ⟨c₀, hf, rfl⟩ := onQueue_inr h
    obtain rfl := eq_of_ite_inr hf
    exact keepsObjects_onQueue (giveMutexRecursiveSection_same _) fun _ => rfl
  | xQueueGenericReset q newQueue =>
    obtain ⟨c₀, hf, rfl⟩ := onQueue_inr h
    obtain rfl := eq_of_ite_inr hf
    exact keepsObjects_onQueue (fun _ => ⟨rfl, rfl, rfl⟩) fun _ => rfl
  | xEventGroupSetBits g bits =>
    obtain ⟨c₀, hf, rfl⟩ := onGroup_inr h
    obtain rfl := eq_of_ite_inr hf
    exact keepsObjects_onGroup (fun _ => rfl) fun _ _ hclosing => nomatch hclosing
  | xEventGroupClearBits g bits =>
    obtain ⟨c₀, hf, rfl⟩ := onGroup_inr h
    obtain rfl := eq_of_ite_inr hf
    exact keepsObjects_onGroup (fun _ => rfl) fun _ _ hclosing => nomatch hclosing
  | xEventGroupWaitBits g bits clearOnExit waitAllBits timeout =>
    obtain ⟨c₀, hf, rfl⟩ := onGroup_inr h
    obtain rfl := eq_of_ite_inr hf
    apply keepsObjects_onGroup
    · intro g
      show (waitBitsSection bits clearOnExit waitAllBits g).1.waitContext = g.waitContext
      unfold waitBitsSection
      split
      · exact consume_waitContext g bits clearOnExit waitAllBits
      · rfl
    · intro late f hclosing g
      cases late with
      | true =>
        obtain rfl := Option.some.inj hclosing
        -- clearing bits leaves the context that the waiters sleep on
        exact consume_waitContext g bits clearOnExit waitAllBits
      | false => exact nomatch hclosing
  | xTaskGenericNotify task index value action previous =>
    obtain ⟨c₀, -, rfl⟩ := onTcb_inr h
    exact keepsObjects_onTcb task c₀
  | ulTaskGenericNotifyTake index clear timeout =>
    obtain ⟨c₀, -, rfl⟩ := onTcb_inr h
    exact keepsObjects_onTcb th.task c₀
  | xTaskGenericNotifyWait index clearEntry clearExit out timeout =>
    obtain ⟨c₀, -, rfl⟩ := onTcb_inr h
    exact keepsObjects_onTcb th.task c₀

/-- What a call needs of its object stays true. -/
theorem RtosOp.Valid.mono {op : RtosOp} {w w' : World} (h : op.Valid w) (hsame : SameObjects w w') :
    op.Valid w' := by
  -- a call looks at the kind of its object, which no section changes
  cases op with
  | xQueueGenericSend q item timeout copy =>
    simp only [RtosOp.Valid, s31QueueValid, (hsame.queues q).context, (hsame.queues q).capacity,
      (hsame.queues q).type]
    exact h
  | xQueueReceive q item timeout =>
    simp only [RtosOp.Valid, s31QueueValid, (hsame.queues q).context, (hsame.queues q).capacity]
    exact h
  | xQueueSemaphoreTake q timeout =>
    simp only [RtosOp.Valid, s31QueueValid, (hsame.queues q).context]
    exact h
  | xEventGroupWaitBits g bits clearOnExit waitAllBits timeout =>
    simp only [RtosOp.Valid, hsame.groups g]
    exact h
  | ulTaskGenericNotifyTake | xTaskGenericNotifyWait => exact h
  | _ => exact h.elim

/-- An object stays valid while calls go on. -/
private theorem valid_kept {op op' : RtosOp} {th : Thread} {w w' : World} {e : Event RtosOp Ret}
    (hat : Atomic rtosCode th op' w e w') (h : op.Valid w) : op.Valid w' := by
  cases hat with
  | refused hcode | entered hcode => rwa [rtosCode_world hcode]
  | locked hc hbody =>
    have hsame := (rtosCode_keeps hc).1 w
    rw [hbody] at hsame
    exact h.mono hsame
  | closed hc hf hr =>
    have hsame := (rtosCode_keeps hc).2 _ _ hf w
    rw [hr] at hsame
    exact h.mono hsame

/-! ## The calls keep their time -/

section

variable {th : Thread} {T : TickType}

/-- A blocking call whose code is always `c` and waits as the queue calls do. -/
private theorem punctual_of_code {op : RtosOp} {c : SyncCall Ctx World Ret TickType}
    {w : WaitPart World Ret TickType} (hT : T ≠ portMAX_DELAY)
    (haccepts : ∀ s, op.Valid s → rtosCode th op s = (s, .inr c))
    (hcode : ∀ c', Calls rtosCode th op c' → c = c') (hwait : c.wait = some w)
    (hpatience : w.patience = queuePatience T)
    (hdecides : ∀ s ret wake, op.Valid s → (c.body s).2 = .done ret wake → op.Got ret) :
    Punctual rtosCode UInt32.toNat tickLater th op T.toNat (op.Valid ·) op.Got where
  -- a valid call is not refused at once
  accepts s s' ret hvalid hrefused := by
    rw [haccepts s hvalid] at hrefused
    exact nomatch (Prod.mk.inj hrefused).2
  waits c' hc := by
    obtain rfl := hcode c' hc
    exact ⟨w, hwait, hpatience ▸ queuePatience_deadline hT⟩
  decides c' s s' ret wake hc hvalid hbody := by
    obtain rfl := hcode c' hc
    exact hdecides s ret wake hvalid (by rw [hbody])

/-- A send ends within its timeout. -/
private theorem send_punctual (hT : T ≠ portMAX_DELAY) (htask : th.inIsr = false) (q : Nat)
    (item : Option (List UInt8)) (copy : BaseType) :
    Punctual rtosCode UInt32.toNat tickLater th (.xQueueGenericSend q item T copy) T.toNat
      ((RtosOp.xQueueGenericSend q item T copy).Valid ·)
      (RtosOp.xQueueGenericSend q item T copy).Got := by
  -- outside of interrupts the call is the loop over the section
  have hloop : ∀ s, s31QueueValid s →
      xQueueGenericSend th (Ctx.queue q) item T copy s =
        .inr (queueLoop (.queue q) T (sendSection th.task item copy)) := by
    intro s hvalid
    rw [xQueueGenericSend, if_pos hvalid, htask]
    rfl
  refine punctual_of_code (c := (queueLoop (.queue q) T (sendSection th.task item copy)).zoom
    (fun w => w.queues q) (World.setQueue q))
    hT (fun s hvalid => ?_) (fun c' hc => ?_) rfl rfl
    fun s ret wake hvalid hdone => ?_
  · simp only [rtosCode, onQueue, hloop _ hvalid.1, Sum.map_inr]
  · obtain ⟨w, w', h⟩ := hc
    obtain ⟨c₀, hf, rfl⟩ := onQueue_inr h
    by_cases hvalid : s31QueueValid (w.queues q)
    · rw [hloop _ hvalid] at hf
      obtain rfl := Sum.inr.inj hf
      rfl
    · rw [xQueueGenericSend, if_neg hvalid] at hf
      exact nomatch hf
  · -- the section sends to a queue proper with room, or overwrites
    obtain ⟨-, hcap, hmutex, hsem⟩ := hvalid
    change (sendSection th.task item copy (s.queues q)).2 = _ at hdone
    unfold sendSection at hdone
    split at hdone
    · next hready =>
      obtain ⟨rfl, -⟩ := Outcome.done.inj hdone
      -- the condition of the loop is what the send needs, so it cannot fail here
      have hroom : ¬ ((s.queues q).capacity = 0 ∨
          ((s.queues q).count ≥ (s.queues q).capacity ∧ copy ≠ s31QueueOverwrite)) := by
        rintro (hzero | ⟨hfull, hcopy⟩)
        · exact hcap hzero
        · obtain h | h | h | h := hready
          · exact hmutex h
          · exact hsem h
          · exact absurd h (UInt32.not_lt.mpr hfull)
          · exact hcopy h
      show (s31QueueSendLocked th.task (s.queues q) item copy).2 = pdTRUE
      rw [s31QueueSendLocked, if_neg hmutex, if_neg hsem, if_neg hroom]
    · exact nomatch hdone

/-- A receive ends within its timeout. -/
private theorem receive_punctual (hT : T ≠ portMAX_DELAY) (htask : th.inIsr = false) (q : Nat)
    (item : Bool) :
    Punctual rtosCode UInt32.toNat tickLater th (.xQueueReceive q item T) T.toNat
      ((RtosOp.xQueueReceive q item T).Valid ·) (RtosOp.xQueueReceive q item T).Got := by
  -- outside of interrupts the call is the loop over the section
  have hloop : ∀ s, s31QueueValid s → xQueueReceive th (Ctx.queue q) item T s =
      .inr (queueLoop (.queue q) T (receiveSection item)) := by
    intro s hvalid
    rw [xQueueReceive, if_pos hvalid, htask]
    rfl
  refine punctual_of_code (c := (queueLoop (.queue q) T (receiveSection item)).zoom
    (fun w => w.queues q) (World.setQueue q))
    hT (fun s hvalid => ?_) (fun c' hc => ?_) rfl rfl
    fun s ret wake hvalid hdone => ?_
  · simp only [rtosCode, onQueue, hloop _ hvalid.1, Sum.map_inr]
  · obtain ⟨w, w', h⟩ := hc
    obtain ⟨c₀, hf, rfl⟩ := onQueue_inr h
    by_cases hvalid : s31QueueValid (w.queues q)
    · rw [hloop _ hvalid] at hf
      obtain rfl := Sum.inr.inj hf
      rfl
    · rw [xQueueReceive, if_neg hvalid] at hf
      exact nomatch hf
  · change (receiveSection item (s.queues q)).2 = _ at hdone
    unfold receiveSection at hdone
    split at hdone
    · next hready =>
      obtain ⟨rfl, -⟩ := Outcome.done.inj hdone
      show (s31QueueTakeLocked (s.queues q) item).2.2 = pdTRUE
      rw [s31QueueTakeLocked, if_neg (not_or.mpr ⟨hready.2, hvalid.2⟩)]
    · exact nomatch hdone

/-- A take ends within its timeout. -/
private theorem semaphoreTake_punctual (hT : T ≠ portMAX_DELAY) (q : Nat) :
    Punctual rtosCode UInt32.toNat tickLater th (.xQueueSemaphoreTake q T) T.toNat
      ((RtosOp.xQueueSemaphoreTake q T).Valid ·) (RtosOp.xQueueSemaphoreTake q T).Got := by
  refine punctual_of_code (c := (queueLoop (.queue q) T (semaphoreTakeSection th.task)).zoom
    (fun w => w.queues q) (World.setQueue q))
    hT (fun s hvalid => ?_) (fun c' hc => ?_) rfl rfl
    fun s ret wake hvalid hdone => ?_
  · have hloop : xQueueSemaphoreTake th (Ctx.queue q) T (s.queues q) =
        .inr (queueLoop (.queue q) T (semaphoreTakeSection th.task)) := if_pos hvalid
    simp only [rtosCode, onQueue, hloop, Sum.map_inr]
  · obtain ⟨w, w', h⟩ := hc
    obtain ⟨c₀, hf, rfl⟩ := onQueue_inr h
    obtain rfl := eq_of_ite_inr hf
    rfl
  · change (semaphoreTakeSection th.task (s.queues q)).2 = _ at hdone
    unfold semaphoreTakeSection at hdone
    split at hdone
    -- a mutex that is held by this task, then a free one, then a semaphore with a token
    · split at hdone
      · obtain ⟨rfl, -⟩ := Outcome.done.inj hdone
        rfl
      · split at hdone
        · obtain ⟨rfl, -⟩ := Outcome.done.inj hdone
          rfl
        · exact nomatch hdone
    · split at hdone
      · obtain ⟨rfl, -⟩ := Outcome.done.inj hdone
        rfl
      · exact nomatch hdone

/-- A wait for bits ends within its timeout. -/
private theorem waitBits_punctual (hT : T ≠ portMAX_DELAY) (htask : th.inIsr = false) (g : Nat)
    (bits : UInt32) (clearOnExit waitAllBits : Bool) :
    Punctual rtosCode UInt32.toNat tickLater th
      (.xEventGroupWaitBits g bits clearOnExit waitAllBits T) T.toNat
      ((RtosOp.xEventGroupWaitBits g bits clearOnExit waitAllBits T).Valid ·)
      (RtosOp.xEventGroupWaitBits g bits clearOnExit waitAllBits T).Got := by
  refine punctual_of_code (c := SyncCall.zoom (fun w => w.groups g) (World.setGroup g) {
    ctx := .group g
    body := waitBitsSection bits clearOnExit waitAllBits
    wait := some {
      patience := fun start now => if th.inIsr then none else queuePatience T start now
      early := none
      late := some (waitBitsRecheck bits clearOnExit waitAllBits) } })
    hT (fun s hvalid => ?_) (fun c' hc => ?_) rfl ?_
    fun s ret wake hvalid hdone => ?_
  · have hloop : xEventGroupWaitBits th (Ctx.group g) bits clearOnExit waitAllBits T (s.groups g) =
        .inr _ := if_pos hvalid
    simp only [rtosCode, onGroup, hloop, Sum.map_inr]
  · obtain ⟨w, w', h⟩ := hc
    obtain ⟨c₀, hf, rfl⟩ := onGroup_inr h
    obtain rfl := eq_of_ite_inr hf
    rfl
  · funext start now
    show (if th.inIsr then none else queuePatience T start now) = _
    rw [htask]
    rfl
  -- the section ends with the bits that were there when it looked
  · change (waitBitsSection bits clearOnExit waitAllBits (s.groups g)).2 = _ at hdone
    unfold waitBitsSection at hdone
    split at hdone
    · next hmatch =>
      obtain ⟨rfl, -⟩ := Outcome.done.inj hdone
      exact ⟨_, rfl, hmatch⟩
    · exact nomatch hdone

/-- A take of a notification ends within its timeout. -/
private theorem notifyTake_punctual (hT : T ≠ portMAX_DELAY) (index : UInt32) (clear : Bool) :
    Punctual rtosCode UInt32.toNat tickLater th (.ulTaskGenericNotifyTake index clear T) T.toNat
      ((RtosOp.ulTaskGenericNotifyTake index clear T).Valid ·)
      (RtosOp.ulTaskGenericNotifyTake index clear T).Got := by
  refine punctual_of_code (c := SyncCall.zoom (fun w => w.tcbs th.task) (World.setTcb th.task) {
    ctx := .notify th.task
    body := notifyTakeSection clear
    wait := some {
      patience := notifyPatience T
      early := some notifyTakeClose
      late := some notifyTakeClose } })
    hT (fun s hvalid => ?_) (fun c' hc => ?_) rfl rfl
    fun s ret wake hvalid hdone => ?_
  · have hloop : ulTaskGenericNotifyTake (Ctx.notify th.task) index clear T (s.tcbs th.task) =
        .inr _ := if_neg (not_not.mpr hvalid)
    simp only [rtosCode, onTcb, hloop, Sum.map_inr]
  · obtain ⟨w, w', h⟩ := hc
    obtain ⟨c₀, hf, rfl⟩ := onTcb_inr h
    unfold ulTaskGenericNotifyTake at hf
    split at hf
    · exact nomatch hf
    · obtain rfl := Sum.inr.inj hf
      rfl
  -- the section is done only with a value that is not zero
  · change (notifyTakeSection clear (s.tcbs th.task)).2 = _ at hdone
    unfold notifyTakeSection at hdone
    split at hdone
    · next hvalue =>
      obtain ⟨rfl, -⟩ := Outcome.done.inj hdone
      exact ⟨_, rfl, hvalue⟩
    · exact nomatch hdone

/-- A wait for a notification ends within its timeout. -/
private theorem notifyWait_punctual (hT : T ≠ portMAX_DELAY) (index clearEntry clearExit : UInt32)
    (out : Bool) :
    Punctual rtosCode UInt32.toNat tickLater th
      (.xTaskGenericNotifyWait index clearEntry clearExit out T) T.toNat
      ((RtosOp.xTaskGenericNotifyWait index clearEntry clearExit out T).Valid ·)
      (RtosOp.xTaskGenericNotifyWait index clearEntry clearExit out T).Got := by
  refine punctual_of_code (c := SyncCall.zoom (fun w => w.tcbs th.task) (World.setTcb th.task) {
    ctx := .notify th.task
    body := notifyWaitSection clearEntry clearExit out
    wait := some {
      patience := notifyPatience T
      early := some (notifyWaitClose out)
      late := some (notifyWaitClose out) } })
    hT (fun s hvalid => ?_) (fun c' hc => ?_) rfl rfl
    fun s ret wake hvalid hdone => ?_
  · have hloop : xTaskGenericNotifyWait (Ctx.notify th.task) index clearEntry clearExit out T
        (s.tcbs th.task) = .inr _ := if_neg (not_not.mpr hvalid)
    simp only [rtosCode, onTcb, hloop, Sum.map_inr]
  · obtain ⟨w, w', h⟩ := hc
    obtain ⟨c₀, hf, rfl⟩ := onTcb_inr h
    unfold xTaskGenericNotifyWait at hf
    split at hf
    · exact nomatch hf
    · obtain rfl := Sum.inr.inj hf
      rfl
  -- the section is done only with a notification that was pending
  · change (notifyWaitSection clearEntry clearExit out (s.tcbs th.task)).2 = _ at hdone
    unfold notifyWaitSection at hdone
    split at hdone
    · obtain ⟨rfl, -⟩ := Outcome.done.inj hdone
      rfl
    · exact nomatch hdone

/-- Every blocking call keeps its time. -/
private theorem rtos_punctual {op : RtosOp} (hop : op.timeout? = some T) (hT : T ≠ portMAX_DELAY)
    (htask : th.inIsr = false) :
    Punctual rtosCode UInt32.toNat tickLater th op T.toNat (op.Valid ·) op.Got := by
  cases op with
  | xQueueGenericSend q item timeout copy =>
    obtain rfl := Option.some.inj hop
    exact send_punctual hT htask q item copy
  | xQueueReceive q item timeout =>
    obtain rfl := Option.some.inj hop
    exact receive_punctual hT htask q item
  | xQueueSemaphoreTake q timeout =>
    obtain rfl := Option.some.inj hop
    exact semaphoreTake_punctual hT q
  | xEventGroupWaitBits g bits clearOnExit waitAllBits timeout =>
    obtain rfl := Option.some.inj hop
    exact waitBits_punctual hT htask g bits clearOnExit waitAllBits
  | ulTaskGenericNotifyTake index clear timeout =>
    obtain rfl := Option.some.inj hop
    exact notifyTake_punctual hT index clear
  | xTaskGenericNotifyWait index clearEntry clearExit out timeout =>
    obtain rfl := Option.some.inj hop
    exact notifyWait_punctual hT index clearEntry clearExit out
  | _ => exact nomatch hop

end

/-- A call with timeout `T`, as far as it has come: the time it has been blocked,
    the wait it is in, and the value it has returned. -/
structure HonoursTimeout (th : Thread) (op : RtosOp) (T : TickType)
    (cfg : Config Thread Ctx World Ret TickType RtosOp) (x : Timing Ret) : Prop where
  blocked : x.elapsed ≤ T.toNat
  waits : ∀ op' c start seq left ret, cfg.pc th = .asleep op' c start seq left ret →
    1 ≤ left.toNat ∧ left.toNat ≤ T.toNat - x.elapsed ∧ left ≠ portMAX_DELAY
  givesUp : ∀ ret, x.ret = some ret → ¬ op.Got ret → x.reported = true ∨ x.elapsed = T.toNat

/-- Whatever the tick counter shows at the call, however often it is woken for
    nothing and whatever the other threads do. -/
theorem timeout_honoured {th : Thread} {op : RtosOp} {T start : TickType}
    {cfg₀ cfg : Config Thread Ctx World Ret TickType RtosOp} {x : Timing Ret}
    (hop : op.timeout? = some T) (hT : T < portMAX_DELAY) (htask : th.inIsr = false)
    (hsound : cfg₀.Sound rtosCode) (hvalid : op.Valid cfg₀.shared)
    (h : Timed rtosCode UInt32.toNat tickLater th op start cfg₀ cfg x) :
    HonoursTimeout th op T cfg x := by
  have hpunctual := rtos_punctual hop (UInt32.ne_of_lt hT) htask
  obtain ⟨-, -, hon⟩ := h.onTime hpunctual (fun _ _ _ _ _ hat hv => valid_kept hat hv) hsound hvalid
  refine ⟨hon.elapsed, fun op' c s seq left ret hpc => ?_, fun ret hret hgot => ?_⟩
  -- while it sleeps, what is left is positive and below the largest delay
  · have hpoint := hon.pc
    rw [hpc] at hpoint
    obtain ⟨-, -, hpos, hleft⟩ := hpoint
    have hmax := UInt32.lt_iff_toNat_lt.mp hT
    refine ⟨hpos, by omega, fun heq => ?_⟩
    rw [heq] at hleft
    omega
  · exact (hon.ret ret hret).resolve_left hgot

/-- A receive with a timeout of five ticks, two ticks before the counter wraps: a
    wake-up for nothing after three ticks, then nothing for the other two. -/
theorem timeout_honoured_wrap :
    ∃ (cfg₀ cfg : Config Thread Ctx World Ret TickType RtosOp) (x : Timing Ret),
      Timed rtosCode UInt32.toNat tickLater ⟨1, 10, false⟩ (.xQueueReceive 0 true 5) 0xfffffffe
        cfg₀ cfg x ∧
      x.elapsed = 5 ∧ x.reported = false ∧ x.ret = some (.received pdFALSE none) ∧
      HonoursTimeout ⟨1, 10, false⟩ (.xQueueReceive 0 true 5) 5 cfg x := by
  -- it starts two ticks before the counter wraps and is woken once in between
  let cfg₀ : Config Thread Ctx World Ret TickType RtosOp :=
    { shared := ⟨fun _ => s31QueueInit 0 1 4 (fun _ => 0) (some 7), fun _ => ⟨0, none⟩,
        fun _ => ⟨0, .notWaiting⟩⟩
      seq := fun _ => 0
      pc := fun _ => .idle }
  have hcall : Timed rtosCode UInt32.toNat tickLater ⟨1, 10, false⟩ (.xQueueReceive 0 true 5)
      0xfffffffe cfg₀ _ _ := .call (show step rtosCode cfg₀ _ _ = some (_, _) from rfl)
  have hunmet : Timed _ _ _ _ _ _ _ _ ⟨0, false, none⟩ := (hcall.go rfl).go rfl
  have hasleep : Timed _ _ _ _ _ _ _ _ ⟨0, false, none⟩ := hunmet.go (e := .silent) rfl
  have hwoken : Timed _ _ _ _ _ _ _ _ ⟨3, false, none⟩ :=
    hasleep.awake 3 true rfl (by decide) rfl
  -- the queue is still empty, and it sleeps for what is left
  have hagain : Timed _ _ _ _ _ _ _ _ ⟨3, false, none⟩ := (hwoken.go rfl).go rfl
  have hasleep' : Timed _ _ _ _ _ _ _ _ ⟨3, false, none⟩ := hagain.go (e := .silent) rfl
  have hlate : Timed _ _ _ _ _ _ _ _ ⟨5, false, none⟩ :=
    hasleep'.awake 2 true rfl (by decide) rfl
  -- five ticks have passed over the wrap
  have hover : Timed _ _ _ _ _ _ _ _ ⟨5, false, none⟩ := (hlate.go rfl).go rfl
  have hend := hover.go (e := .gaveUp _ (.received pdFALSE none)) rfl
  refine ⟨cfg₀, _, _, hend, rfl, rfl, rfl, ?_⟩
  exact timeout_honoured rfl (by decide) rfl (Config.sound_of_idle fun _ => rfl)
    ⟨rfl, by decide⟩ hend

end EspS31.Rtos
