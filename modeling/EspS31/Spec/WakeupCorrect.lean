import EspS31.ForStd.Wakeup
import EspS31.Native.Rtos

/-!
# No lost wake-up in the RTOS shim

Six loops wait in the shim, each for a condition of one object (`Cond`).  The
sections of all calls are shown to wake an object's context whenever they make
one of its conditions true (`WorldSection`), which is what the sequence
protocol asks for (`WakeSpec`).

## Key results

- `QueueSection`, `GroupSection`, `TcbSection`: the obligation, object by object
- `rtos_wakeSpec`: all calls meet it
- `no_lost_wakeup`: the property of every run
-/

namespace EspS31.Rtos

open SyncProtocol

/-! ## The conditions waited for -/

/-- What a queue call waits for: room to send, an item to receive, a token (or
    a mutex without owner) to take. -/
inductive QueueCond where
  | room
  | item
  | token
deriving DecidableEq, Repr

/-- What a send, a receive or a take waits for. -/
def QueueCond.Holds (q : S31Queue) : QueueCond → Prop
  | .room => q.count < q.capacity
  | .item => q.type ≠ s31QTypeMutex ∧ q.count ≠ 0
  | .token => if q.type = s31QTypeMutex then q.owner = none else q.count ≠ 0

/-- What an event or notification call waits for. -/
def GroupHolds (bits : UInt32) (all : Bool) (g : S31EventGroup) : Prop :=
  s31EgMatch g.bits bits all = true

/-- What a task can wait for in its own block. -/
inductive TcbCond where
  | value
  | received
deriving DecidableEq, Repr

/-- A value other than zero, or a notification. -/
def TcbCond.Holds (t : S31Tcb) : TcbCond → Prop
  | .value => t.notifyValue ≠ 0
  | .received => t.notifyState = .received

/-- A condition of one object of the world. -/
inductive Cond where
  | queue (q : Nat) (c : QueueCond)
  | group (g : Nat) (bits : UInt32) (all : Bool)
  | notify (t : TaskHandle) (c : TcbCond)
deriving DecidableEq, Repr

namespace Cond

/-- The context waited on. -/
def ctx : Cond → Ctx
  | .queue q _ => .queue q
  | .group g _ _ => .group g
  | .notify t _ => .notify t

/-- Whether the condition holds in the world. -/
def Holds (w : World) : Cond → Prop
  | .queue q c => c.Holds (w.queues q)
  | .group g bits all => GroupHolds bits all (w.groups g)
  | .notify t c => c.Holds (w.tcbs t)

end Cond

/-- The condition a call waits for, if it can wait. -/
def RtosOp.cond (th : Thread) : RtosOp → Option Cond
  | .xQueueGenericSend q _ _ _ => some (.queue q .room)
  | .xQueueReceive q _ _ => some (.queue q .item)
  | .xQueueSemaphoreTake q _ => some (.queue q .token)
  | .xEventGroupWaitBits g bits _ all _ => some (.group g bits all)
  | .ulTaskGenericNotifyTake _ _ _ => some (.notify th.task .value)
  | .xTaskGenericNotifyWait _ _ _ _ _ => some (.notify th.task .received)
  | _ => none

/-- The condition a call waits for holds. -/
def waitCondition (th : Thread) (op : RtosOp) (w : World) : Prop :=
  ∃ c, op.cond th = some c ∧ c.Holds w

/-! ## Queue sections -/

/-- A mutex without owner has `count = 0`. -/
def MutexCounted (q : S31Queue) : Prop :=
  q.type = s31QTypeMutex → q.owner = none → q.count = 0

/-- A section that keeps `MutexCounted` and wakes when it makes a condition true. -/
structure QueueSection (f : S31Queue → S31Queue × Outcome Ret) : Prop where
  counted : ∀ q, MutexCounted q → MutexCounted (f q).1
  wakes : ∀ q, MutexCounted q → ∀ c : QueueCond, c.Holds (f q).1 →
    c.Holds q ∨ ∃ ret, (f q).2 = .done ret true

/-- A section that wakes whenever it changes the queue wakes when it must. -/
theorem QueueSection.of_unchanged {f : S31Queue → S31Queue × Outcome Ret}
    (hcounted : ∀ q, MutexCounted q → MutexCounted (f q).1)
    (h : ∀ q, (f q).1 = q ∨ ∃ ret, (f q).2 = .done ret true) : QueueSection f where
  counted := hcounted
  wakes q _ c hc := by
    obtain heq | hwake := h q
    · exact .inl (heq ▸ hc)
    · exact .inr hwake

/-- Giving a level keeps the count of a mutex. -/
private theorem giveLevel_counted {q : S31Queue} (h : MutexCounted q) :
    MutexCounted q.giveLevel := by
  unfold S31Queue.giveLevel
  split
  · exact fun _ _ => rfl
  · exact h

/-- `s31_queue_send_locked` changes nothing or returns `pdTRUE`. -/
private theorem sendLocked_fail (t : TaskHandle) (q : S31Queue) (item : Option (List UInt8))
    (copy : BaseType) :
    s31QueueSendLocked t q item copy = (q, pdFAIL) ∨
      (s31QueueSendLocked t q item copy).2 = pdTRUE := by
  -- a semaphore, a queue that has no room, and one that has
  unfold s31QueueSendLocked
  split
  · split
    · exact .inl rfl
    · exact .inr rfl
  · split
    · split
      · exact .inl rfl
      · exact .inr rfl
    · split
      · exact .inl rfl
      · exact .inr rfl

/-- A send keeps the count of a mutex. -/
private theorem sendLocked_counted {t : TaskHandle} {q : S31Queue} {item : Option (List UInt8)}
    {copy : BaseType} (h : MutexCounted q) : MutexCounted (s31QueueSendLocked t q item copy).1 := by
  unfold s31QueueSendLocked
  split
  · split
    · exact h
    · exact giveLevel_counted h
  · next hm =>
    -- not a mutex: nothing to show
    split <;> split <;> exact fun hm' => absurd hm' hm

/-- The section of a send. -/
private theorem sendSection_queueSection (t : TaskHandle) (item : Option (List UInt8))
    (copy : BaseType) :
    QueueSection (sendSection t item copy) := by
  apply QueueSection.of_unchanged
  · intro q h
    unfold sendSection
    split
    · exact sendLocked_counted h
    · exact h
  · intro q
    unfold sendSection
    split
    · obtain heq | hok := sendLocked_fail t q item copy
      · exact .inl (by rw [heq])
      · exact .inr ⟨.status pdTRUE, by simp only [hok]; rfl⟩
    · exact .inl rfl

/-- The same for a section that always decides its call. -/
theorem QueueSection.of_once {f : S31Queue → S31Queue × Ret × Bool}
    (hcounted : ∀ q, MutexCounted q → MutexCounted (f q).1)
    (h : ∀ q, (f q).1 = q ∨ (f q).2.2 = true) : QueueSection (SyncCall.onceBody f) :=
  .of_unchanged hcounted fun q => (h q).imp_right fun hw =>
    ⟨(f q).2.1, by rw [SyncCall.onceBody, hw]⟩

/-- The section of a send in an interrupt. -/
private theorem sendFromISR_queueSection (t : TaskHandle) (item : Option (List UInt8))
    (woken : Option BaseType) (copy : BaseType) :
    QueueSection (SyncCall.onceBody (sendFromISRSection t item woken copy)) := by
  apply QueueSection.of_once
  -- it does not give a mutex away
  · intro q h
    simp only [sendFromISRSection]
    split
    · exact h
    · next hm =>
      split
      · split <;> exact fun hm' => absurd hm' hm
      · exact sendLocked_counted h
  -- it leaves the queue as it was or wakes the waiters
  · intro q
    simp only [sendFromISRSection]
    split
    · exact .inl rfl
    · split
      · split
        · exact .inl rfl
        · exact .inr rfl
      · obtain heq | hok := sendLocked_fail t q item copy
        · exact .inl (by rw [heq])
        · exact .inr (by rw [hok]; rfl)

/-- `s31_queue_take_locked` changes nothing or returns `pdTRUE`. -/
private theorem takeLocked_fail (q : S31Queue) (item : Bool) :
    s31QueueTakeLocked q item = (q, none, pdFALSE) ∨
      (s31QueueTakeLocked q item).2.2 = pdTRUE := by
  unfold s31QueueTakeLocked
  split
  · exact .inl rfl
  · exact .inr rfl

/-- Taking an item concerns no mutex. -/
private theorem takeLocked_counted {q : S31Queue} {item : Bool} (hm : q.type ≠ s31QTypeMutex) :
    MutexCounted (s31QueueTakeLocked q item).1 := by
  unfold s31QueueTakeLocked
  split <;> exact fun hm' => absurd hm' hm

/-- The section of a receive. -/
private theorem receiveSection_queueSection (item : Bool) : QueueSection (receiveSection item) := by
  apply QueueSection.of_unchanged
  · intro q h
    unfold receiveSection
    split
    · next hc => exact takeLocked_counted hc.1
    · exact h
  · intro q
    unfold receiveSection
    split
    · obtain heq | hok := takeLocked_fail q item
      · exact .inl (by rw [heq])
      · exact .inr ⟨.received pdTRUE (s31QueueTakeLocked q item).2.1, by simp only [hok]; rfl⟩
    · exact .inl rfl

/-- The section of a receive in an interrupt. -/
private theorem receiveFromISR_queueSection (item : Bool) (woken : Option BaseType) :
    QueueSection (SyncCall.onceBody (receiveFromISRSection item woken)) := by
  apply QueueSection.of_once
  · intro q h
    simp only [receiveFromISRSection]
    split
    · exact h
    · next hm => exact takeLocked_counted hm
  · intro q
    simp only [receiveFromISRSection]
    split
    · exact .inl rfl
    · obtain heq | hok := takeLocked_fail q item
      · exact .inl (by rw [heq])
      · exact .inr (by rw [hok]; rfl)

/-- Taking a mutex wakes nobody: it makes no condition true. -/
private theorem semaphoreTake_queueSection (t : TaskHandle) :
    QueueSection (semaphoreTakeSection t) where
  counted q h := by
    unfold semaphoreTakeSection
    split
    · split
      · exact h
      · split
        · exact fun _ hnone => nomatch hnone
        · exact h
    · next hm => split <;> exact fun hm' => absurd hm' hm
  wakes q h c hc := by
    unfold semaphoreTakeSection at hc ⊢
    split
    · next hm =>
      rw [if_pos hm] at hc
      split
      · next howner =>
        -- one level deeper: no condition mentions the depth
        rw [if_pos howner] at hc
        exact .inl (by cases c <;> exact hc)
      · next howner =>
        rw [if_neg howner] at hc
        split
        -- a free mutex is taken: if there is room now, there was room before
        · next hfree =>
          rw [if_pos hfree] at hc
          left
          cases c with
          | room =>
            have h1 : (1 : UInt32).toNat < q.capacity.toNat := UInt32.lt_iff_toNat_lt.mp hc
            show q.count < q.capacity
            rw [UInt32.lt_iff_toNat_lt, hfree.2]
            exact Nat.zero_lt_of_lt h1
          | item => exact absurd hm hc.1
          | token =>
            simp only [QueueCond.Holds, if_pos hm] at hc
            exact nomatch hc
        · next hbusy =>
          rw [if_neg hbusy] at hc
          exact .inl hc
    · next hm =>
      rw [if_neg hm] at hc
      split
      -- a token is taken, and those who wait for room are woken
      · exact .inr ⟨_, rfl⟩
      · next h0 =>
        rw [if_neg h0] at hc
        exact .inl hc

/-- The section that gives a recursive mutex. -/
private theorem giveMutexRecursive_queueSection (t : TaskHandle) :
    QueueSection (SyncCall.onceBody (giveMutexRecursiveSection t)) := by
  apply QueueSection.of_once
  · intro q h
    unfold giveMutexRecursiveSection
    split
    · exact giveLevel_counted h
    · exact h
  · intro q
    unfold giveMutexRecursiveSection
    split
    · exact .inr rfl
    · exact .inl rfl

/-- The section of a reset. -/
private theorem genericReset_queueSection :
    QueueSection (SyncCall.onceBody (genericResetSection 0)) :=
  .of_once (fun _ _ _ _ => rfl) fun _ => .inr rfl

/-! ## Event group and notification sections -/

/-- A section of an event group that wakes when it makes a condition true. -/
def GroupSection (f : S31EventGroup → S31EventGroup × Outcome Ret) : Prop :=
  ∀ g bits all, GroupHolds bits all (f g).1 →
    GroupHolds bits all g ∨ ∃ ret, (f g).2 = .done ret true

/-- A section of the notification fields that wakes when it makes a condition true. -/
def TcbSection (f : S31Tcb → S31Tcb × Outcome Ret) : Prop :=
  ∀ t, ∀ c : TcbCond, c.Holds (f t).1 → c.Holds t ∨ ∃ ret, (f t).2 = .done ret true

/-- Clearing bits satisfies nobody. -/
private theorem s31EgMatch_of_clear {held x want : UInt32} {all : Bool}
    (h : s31EgMatch (held &&& ~~~x) want all = true) : s31EgMatch held want all = true := by
  unfold s31EgMatch at h ⊢
  cases all with
  -- all the bits wanted are left over, so they were there
  | true =>
    simp only [↓reduceIte, beq_iff_eq] at h ⊢
    calc held &&& want = held &&& (held &&& ~~~x &&& want) := by rw [h]
      _ = held &&& ~~~x &&& want := by rw [← UInt32.and_assoc, ← UInt32.and_assoc, UInt32.and_self]
      _ = want := h
  -- were none of them there, none would be left
  | false =>
    simp only [Bool.false_eq_true, ↓reduceIte, bne_iff_ne] at h ⊢
    intro h0
    apply h
    calc held &&& ~~~x &&& want = held &&& want &&& ~~~x := by
          rw [UInt32.and_assoc, UInt32.and_comm (~~~x), ← UInt32.and_assoc]
      _ = 0 := by rw [h0, UInt32.zero_and]

/-- Clearing bits fulfils nobody's condition. -/
private theorem consume_groupHolds {g : S31EventGroup} {want bits : UInt32} {clear all all' : Bool}
    (h : GroupHolds bits all (g.consume want clear all')) : GroupHolds bits all g := by
  unfold S31EventGroup.consume at h
  split at h
  · exact s31EgMatch_of_clear h
  · exact h

/-- The section of a wait for bits. -/
private theorem waitBits_groupSection (bits : UInt32) (clear all : Bool) :
    GroupSection (waitBitsSection bits clear all) := by
  intro g bits' all' h
  unfold waitBitsSection at h ⊢
  split
  · next hm =>
    rw [if_pos hm] at h
    exact .inl (consume_groupHolds h)
  · next hm =>
    rw [if_neg hm] at h
    exact .inl h

/-- Clearing bits of a notification value does not make it nonzero. -/
private theorem ne_zero_of_clear {v x : UInt32} (h : v &&& ~~~x ≠ 0) : v ≠ 0 := by
  rintro rfl
  exact h UInt32.zero_and

/-- The section of a take of a notification. -/
private theorem notifyTake_tcbSection (clear : Bool) : TcbSection (notifyTakeSection clear) := by
  intro t c h
  left
  unfold notifyTakeSection at h
  split at h
  · next hv =>
    cases c with
    | value => exact hv
    | received => exact nomatch h
  · cases c with
    | value => exact h
    | received => exact nomatch h

/-- The section of a wait for a notification. -/
private theorem notifyWait_tcbSection (clearEntry clearExit : UInt32) (out : Bool) :
    TcbSection (notifyWaitSection clearEntry clearExit out) := by
  intro t c h
  left
  unfold notifyWaitSection at h
  split at h <;> cases c with
  | value => exact ne_zero_of_clear h
  | received => exact nomatch h

/-- The section of a notification. -/
private theorem notify_tcbSection (value : UInt32) (action : Int) (previous : Bool) :
    TcbSection (SyncCall.onceBody (notifySection value action previous)) := by
  intro t c h
  simp only [SyncCall.onceBody, notifySection] at h ⊢
  split
  · exact .inr ⟨_, rfl⟩
  · next hnone =>
    rw [hnone] at h
    exact .inl h

/-! ## All calls -/

/-- Every mutex has its count. -/
def Counted (w : World) : Prop := ∀ i, MutexCounted (w.queues i)

/-- What the sections of a call must do for the conditions of the whole world. -/
structure CallSpec (th : Thread) (op : RtosOp) (c : SyncCall Ctx World Ret TickType) : Prop where
  counted : ∀ w, Counted w → Counted (c.body w).1
  wakes : ∀ w, Counted w → ∀ d : Cond, d.Holds (c.body w).1 →
    d.Holds w ∨ (d.ctx = c.ctx ∧ ∃ ret, (c.body w).2 = .done ret true)
  close_counted : ∀ late f, c.closing late = some f → ∀ w, Counted w → Counted (f w).1
  close : ∀ late f, c.closing late = some f → ∀ w, ∀ d : Cond, d.Holds (f w).1 → d.Holds w
  ctx_eq : ∀ d, op.cond th = some d → d.ctx = c.ctx
  unmet : ∀ d, op.cond th = some d → ∀ w w' ret, Counted w → c.body w = (w', .unmet ret) →
    ¬ d.Holds w'

/-- Replacing queue `i` leaves the conditions of all other contexts alone. -/
theorem Cond.holds_setQueue {d : Cond} {i : Nat} {w : World} {q : S31Queue}
    (h : d.Holds (w.setQueue i q)) :
    d.Holds w ∨ ∃ c, d = .queue i c ∧ c.Holds q := by
  cases d with
  | queue j c =>
    by_cases hj : j = i
    · subst hj
      simp only [Cond.Holds, World.setQueue, Function.update_self] at h
      exact .inr ⟨c, rfl, h⟩
    · simp only [Cond.Holds, World.setQueue, Function.update_of_ne hj] at h
      exact .inl h
  | group | notify => exact .inl h

/-- Replacing a group can fulfil conditions on that group only. -/
theorem Cond.holds_setGroup {d : Cond} {i : Nat} {w : World} {g : S31EventGroup}
    (h : d.Holds (w.setGroup i g)) :
    d.Holds w ∨ ∃ bits all, d = .group i bits all ∧ GroupHolds bits all g := by
  cases d with
  | group j bits all =>
    by_cases hj : j = i
    · subst hj
      simp only [Cond.Holds, World.setGroup, Function.update_self] at h
      exact .inr ⟨bits, all, rfl, h⟩
    · simp only [Cond.Holds, World.setGroup, Function.update_of_ne hj] at h
      exact .inl h
  | queue | notify => exact .inl h

/-- Replacing a task's block can fulfil conditions on that task only. -/
theorem Cond.holds_setTcb {d : Cond} {i : TaskHandle} {w : World} {t : S31Tcb}
    (h : d.Holds (w.setTcb i t)) :
    d.Holds w ∨ ∃ c, d = .notify i c ∧ c.Holds t := by
  cases d with
  | notify j c =>
    by_cases hj : j = i
    · subst hj
      simp only [Cond.Holds, World.setTcb, Function.update_self] at h
      exact .inr ⟨c, rfl, h⟩
    · simp only [Cond.Holds, World.setTcb, Function.update_of_ne hj] at h
      exact .inl h
  | queue | group => exact .inl h

/-- Replacing a queue by one with its count keeps all counts. -/
theorem Counted.setQueue {w : World} {i : Nat} {q : S31Queue} (h : Counted w)
    (hq : MutexCounted q) : Counted (w.setQueue i q) := by
  intro j
  by_cases hj : j = i
  · subst hj
    simp only [World.setQueue, Function.update_self]
    exact hq
  · simp only [World.setQueue, Function.update_of_ne hj]
    exact h j

/-- The world view of a call on queue `i` that has no closing section. -/
theorem CallSpec.queue {th : Thread} {op : RtosOp} {i : Nat}
    {c : SyncCall Ctx S31Queue Ret TickType} (hctx : c.ctx = .queue i)
    (hsec : QueueSection c.body) (hclose : ∀ late, c.closing late = none)
    (hcond : ∀ d, op.cond th = some d → ∃ qc, d = .queue i qc ∧
      ∀ q q' ret, MutexCounted q → c.body q = (q', .unmet ret) → ¬ qc.Holds q') :
    CallSpec th op (c.zoom (fun w => w.queues i) (World.setQueue i)) where
  counted w hw := hw.setQueue (hsec.counted _ (hw i))
  -- a condition about another object is not touched
  wakes w hw d hd := by
    obtain hd | ⟨qc, rfl, hq⟩ := Cond.holds_setQueue hd
    · exact .inl hd
    · exact (hsec.wakes _ (hw i) qc hq).imp_right fun hwake => ⟨hctx.symm, hwake⟩
  close_counted late f hf := by
    rw [SyncCall.closing_zoom, hclose] at hf
    exact nomatch hf
  close late f hf := by
    rw [SyncCall.closing_zoom, hclose] at hf
    exact nomatch hf
  ctx_eq d hd := by
    obtain ⟨qc, rfl, -⟩ := hcond d hd
    exact hctx.symm
  unmet d hd w w' ret hw hbody := by
    obtain ⟨qc, rfl, hunmet⟩ := hcond d hd
    obtain ⟨rfl, hout⟩ := Prod.mk.inj hbody
    simp only [Cond.Holds, World.setQueue, Function.update_self]
    exact hunmet (w.queues i) _ ret (hw i) (Prod.ext rfl hout)

/-- The world view of a call on event group `i`. -/
theorem CallSpec.group {th : Thread} {op : RtosOp} {i : Nat}
    {c : SyncCall Ctx S31EventGroup Ret TickType} (hctx : c.ctx = .group i)
    (hsec : GroupSection c.body)
    (hclose : ∀ late f, c.closing late = some f →
      ∀ g bits all, GroupHolds bits all (f g).1 → GroupHolds bits all g)
    (hcond : ∀ d, op.cond th = some d → ∃ bits all, d = .group i bits all ∧
      ∀ g g' ret, c.body g = (g', .unmet ret) → ¬ GroupHolds bits all g') :
    CallSpec th op (c.zoom (fun w => w.groups i) (World.setGroup i)) where
  counted _ hw := hw
  -- a condition about another group is not touched
  wakes w _ d hd := by
    obtain hd | ⟨bits, all, rfl, hg⟩ := Cond.holds_setGroup hd
    · exact .inl hd
    · exact (hsec _ bits all hg).imp_right fun hwake => ⟨hctx.symm, hwake⟩
  close_counted late f hf w hw := by
    rw [SyncCall.closing_zoom] at hf
    obtain ⟨f₀, -, rfl⟩ := Option.map_eq_some_iff.mp hf
    exact hw
  -- clearing bits on the way out makes no condition hold
  close late f hf w d hd := by
    rw [SyncCall.closing_zoom] at hf
    obtain ⟨f₀, hf₀, rfl⟩ := Option.map_eq_some_iff.mp hf
    obtain hd | ⟨bits, all, rfl, hg⟩ := Cond.holds_setGroup hd
    · exact hd
    · exact hclose late f₀ hf₀ _ bits all hg
  ctx_eq d hd := by
    obtain ⟨bits, all, rfl, -⟩ := hcond d hd
    exact hctx.symm
  unmet d hd w w' ret _ hbody := by
    obtain ⟨bits, all, rfl, hunmet⟩ := hcond d hd
    obtain ⟨rfl, hout⟩ := Prod.mk.inj hbody
    simp only [Cond.Holds, World.setGroup, Function.update_self]
    exact hunmet (w.groups i) _ ret (Prod.ext rfl hout)

/-- The world view of a call on the notification fields of task `i`. -/
theorem CallSpec.tcb {th : Thread} {op : RtosOp} {i : TaskHandle}
    {c : SyncCall Ctx S31Tcb Ret TickType} (hctx : c.ctx = .notify i) (hsec : TcbSection c.body)
    (hclose : ∀ late f, c.closing late = some f →
      ∀ t, ∀ tc : TcbCond, tc.Holds (f t).1 → tc.Holds t)
    (hcond : ∀ d, op.cond th = some d → ∃ tc, d = .notify i tc ∧
      ∀ t t' ret, c.body t = (t', .unmet ret) → ¬ tc.Holds t') :
    CallSpec th op (c.zoom (fun w => w.tcbs i) (World.setTcb i)) where
  counted _ hw := hw
  -- a condition about another task is not touched
  wakes w _ d hd := by
    obtain hd | ⟨tc, rfl, ht⟩ := Cond.holds_setTcb hd
    · exact .inl hd
    · exact (hsec _ tc ht).imp_right fun hwake => ⟨hctx.symm, hwake⟩
  close_counted late f hf w hw := by
    rw [SyncCall.closing_zoom] at hf
    obtain ⟨f₀, -, rfl⟩ := Option.map_eq_some_iff.mp hf
    exact hw
  close late f hf w d hd := by
    rw [SyncCall.closing_zoom] at hf
    obtain ⟨f₀, hf₀, rfl⟩ := Option.map_eq_some_iff.mp hf
    obtain hd | ⟨tc, rfl, ht⟩ := Cond.holds_setTcb hd
    · exact hd
    · exact hclose late f₀ hf₀ _ tc ht
  ctx_eq d hd := by
    obtain ⟨tc, rfl, -⟩ := hcond d hd
    exact hctx.symm
  unmet d hd w w' ret _ hbody := by
    obtain ⟨tc, rfl, hunmet⟩ := hcond d hd
    obtain ⟨rfl, hout⟩ := Prod.mk.inj hbody
    simp only [Cond.Holds, World.setTcb, Function.update_self]
    exact hunmet (w.tcbs i) _ ret (Prod.ext rfl hout)

/-! ## When a section reports its condition unmet -/

/-- A send that goes on waiting finds no room. -/
private theorem sendSection_unmet {t : TaskHandle} {item : Option (List UInt8)} {copy : BaseType}
    {q q' : S31Queue} {ret : Ret} (h : sendSection t item copy q = (q', .unmet ret)) :
    ¬ QueueCond.room.Holds q' := by
  unfold sendSection at h
  split at h
  · exact nomatch h
  · next hc =>
    obtain ⟨rfl, -⟩ := Prod.mk.inj h
    exact fun hroom => hc (.inr (.inr (.inl hroom)))

/-- A receive that goes on waiting finds no item. -/
private theorem receiveSection_unmet {item : Bool} {q q' : S31Queue} {ret : Ret}
    (h : receiveSection item q = (q', .unmet ret)) : ¬ QueueCond.item.Holds q' := by
  unfold receiveSection at h
  split at h
  · exact nomatch h
  · next hc =>
    obtain ⟨rfl, -⟩ := Prod.mk.inj h
    exact hc

/-- A task that may not take a mutex found an owner: here `MutexCounted` is
    needed, since the source also asks for `count = 0`. -/
private theorem semaphoreTake_unmet {t : TaskHandle} {q q' : S31Queue} {ret : Ret}
    (hq : MutexCounted q)
    (h : semaphoreTakeSection t q = (q', .unmet ret)) : ¬ QueueCond.token.Holds q' := by
  unfold semaphoreTakeSection at h
  split at h
  -- a mutex: somebody else holds it
  · next hm =>
    split at h
    · exact nomatch h
    · split at h
      · exact nomatch h
      · next hbusy =>
        obtain ⟨rfl, -⟩ := Prod.mk.inj h
        simp only [QueueCond.Holds, if_pos hm]
        exact fun hnone => hbusy ⟨hnone, hq hm hnone⟩
  -- a semaphore without tokens
  · next hm =>
    split at h
    · exact nomatch h
    · next h0 =>
      obtain ⟨rfl, -⟩ := Prod.mk.inj h
      simp only [QueueCond.Holds, if_neg hm]
      exact h0

/-- A wait for bits that goes on waiting does not find them. -/
private theorem waitBits_unmet {bits : UInt32} {clear all : Bool} {g g' : S31EventGroup} {ret : Ret}
    (h : waitBitsSection bits clear all g = (g', .unmet ret)) : ¬ GroupHolds bits all g' := by
  unfold waitBitsSection at h
  split at h
  · exact nomatch h
  · next hm =>
    obtain ⟨rfl, -⟩ := Prod.mk.inj h
    exact hm

/-- A take that goes on waiting finds no value. -/
private theorem notifyTake_unmet {clear : Bool} {t t' : S31Tcb} {ret : Ret}
    (h : notifyTakeSection clear t = (t', .unmet ret)) : ¬ TcbCond.value.Holds t' := by
  unfold notifyTakeSection at h
  split at h
  · exact nomatch h
  · next hv =>
    obtain ⟨rfl, -⟩ := Prod.mk.inj h
    exact hv

/-- A wait that goes on waiting finds no notification. -/
private theorem notifyWait_unmet {clearEntry clearExit : UInt32} {out : Bool} {t t' : S31Tcb}
    {ret : Ret}
    (h : notifyWaitSection clearEntry clearExit out t = (t', .unmet ret)) :
    ¬ TcbCond.received.Holds t' := by
  unfold notifyWaitSection at h
  split at h
  · exact nomatch h
  · obtain ⟨rfl, -⟩ := Prod.mk.inj h
    exact fun hrec => nomatch hrec

/-! ## The calls of the shim meet the protocol -/

/-- Resets are those of a live queue, `new_queue = 0`. -/
def RtosOp.LiveReset : RtosOp → Prop
  | .xQueueGenericReset _ newQueue => newQueue = 0
  | _ => True

/-- The calls without the reset that makes a queue anew. -/
abbrev LiveOp := { op : RtosOp // op.LiveReset }

/-- The functions on queues, groups and notifications for these calls. -/
def liveCode : Entry Thread Ctx World Ret TickType LiveOp := fun th op => rtosCode th op.1

/-- A queue call of one section that always decides waits for nothing. -/
theorem CallSpec.queueOnce {th : Thread} {op : RtosOp} {i : Nat}
    {f : S31Queue → S31Queue × Ret × Bool} (hsec : QueueSection (SyncCall.onceBody f))
    (hcond : ∀ d, op.cond th = some d → ∃ qc, d = .queue i qc) :
    CallSpec th op
      ((SyncCall.once (.queue i) f).zoom (fun w => w.queues i) (World.setQueue i)) :=
  .queue rfl hsec (fun _ => rfl) fun d hd =>
    (hcond d hd).imp fun _ h => ⟨h, fun _ _ _ _ hbody => nomatch hbody⟩

/-- A queue call that waits, for the condition its section tests. -/
theorem CallSpec.queueLoop {th : Thread} {op : RtosOp} {i : Nat} {timeout : TickType}
    {body : S31Queue → S31Queue × Outcome Ret} {qc : QueueCond} (hsec : QueueSection body)
    (hcond : op.cond th = some (.queue i qc))
    (hunmet : ∀ q q' ret, MutexCounted q → body q = (q', .unmet ret) → ¬ qc.Holds q') :
    CallSpec th op
      ((EspS31.Rtos.queueLoop (.queue i) timeout body).zoom (fun w => w.queues i)
        (World.setQueue i)) := by
  refine .queue rfl hsec (fun late => by cases late <;> rfl) fun d hd => ?_
  rw [hcond] at hd
  exact ⟨qc, (Option.some.inj hd).symm, hunmet⟩

/-- Every call of the shim wakes when it must and tests what it waits for. -/
private theorem callSpec_of_calls {th : Thread} {op : LiveOp} {c : SyncCall Ctx World Ret TickType}
    (h : Calls liveCode th op c) : CallSpec th op.1 c := by
  -- one case for each function: a single section, or a loop over one that waits for a condition
  obtain ⟨op, hlive⟩ := op
  obtain ⟨w, w', h⟩ := h
  cases op with
  | xQueueGenericSend q item timeout copy =>
    obtain ⟨c₀, hf, rfl⟩ := onQueue_inr h
    unfold xQueueGenericSend xQueueGenericSendFromISR at hf
    split at hf
    · split at hf
      · obtain rfl := Sum.inr.inj hf
        -- in an interrupt the call is that of the variant for interrupts
        exact .queueOnce (sendFromISR_queueSection ..)
          fun d hd => ⟨.room, (Option.some.inj hd).symm⟩
      · obtain rfl := Sum.inr.inj hf
        exact .queueLoop (sendSection_queueSection ..) rfl fun _ _ _ _ => sendSection_unmet
    · exact nomatch hf
  | xQueueGenericSendFromISR q item woken copy =>
    obtain ⟨c₀, hf, rfl⟩ := onQueue_inr h
    unfold xQueueGenericSendFromISR at hf
    split at hf
    · obtain rfl := Sum.inr.inj hf
      exact .queueOnce (sendFromISR_queueSection ..) fun d hd => nomatch hd
    · exact nomatch hf
  | xQueueReceive q item timeout =>
    obtain ⟨c₀, hf, rfl⟩ := onQueue_inr h
    unfold xQueueReceive xQueueReceiveFromISR at hf
    split at hf
    · split at hf
      · obtain rfl := Sum.inr.inj hf
        exact .queueOnce (receiveFromISR_queueSection ..)
          fun d hd => ⟨.item, (Option.some.inj hd).symm⟩
      · obtain rfl := Sum.inr.inj hf
        exact .queueLoop (receiveSection_queueSection ..) rfl fun _ _ _ _ => receiveSection_unmet
    · exact nomatch hf
  | xQueueReceiveFromISR q item woken =>
    obtain ⟨c₀, hf, rfl⟩ := onQueue_inr h
    unfold xQueueReceiveFromISR at hf
    split at hf
    · obtain rfl := Sum.inr.inj hf
      exact .queueOnce (receiveFromISR_queueSection ..) fun d hd => nomatch hd
    · exact nomatch hf
  | xQueueSemaphoreTake q timeout =>
    obtain ⟨c₀, hf, rfl⟩ := onQueue_inr h
    unfold xQueueSemaphoreTake at hf
    split at hf
    · obtain rfl := Sum.inr.inj hf
      exact .queueLoop (semaphoreTake_queueSection ..) rfl fun _ _ _ => semaphoreTake_unmet
    · exact nomatch hf
  | xQueueGiveMutexRecursive q =>
    obtain ⟨c₀, hf, rfl⟩ := onQueue_inr h
    unfold xQueueGiveMutexRecursive at hf
    split at hf
    · obtain rfl := Sum.inr.inj hf
      exact .queueOnce (giveMutexRecursive_queueSection ..) fun d hd => nomatch hd
    · exact nomatch hf
  -- a queue that is in use is reset, not one that is being made
  | xQueueGenericReset q newQueue =>
    obtain rfl : newQueue = 0 := hlive
    obtain ⟨c₀, hf, rfl⟩ := onQueue_inr h
    unfold xQueueGenericReset at hf
    split at hf
    · obtain rfl := Sum.inr.inj hf
      exact .queueOnce genericReset_queueSection fun d hd => nomatch hd
    · exact nomatch hf
  | xEventGroupSetBits g bits =>
    obtain ⟨c₀, hf, rfl⟩ := onGroup_inr h
    unfold xEventGroupSetBits at hf
    split at hf
    · obtain rfl := Sum.inr.inj hf
      exact .group rfl (fun _ _ _ _ => .inr ⟨_, rfl⟩) (fun _ _ hf => nomatch hf)
        fun d hd => nomatch hd
    · exact nomatch hf
  | xEventGroupClearBits g bits =>
    obtain ⟨c₀, hf, rfl⟩ := onGroup_inr h
    unfold xEventGroupClearBits at hf
    split at hf
    · obtain rfl := Sum.inr.inj hf
      exact .group rfl (fun _ _ _ hg => .inl (s31EgMatch_of_clear hg)) (fun _ _ hf => nomatch hf)
        fun d hd => nomatch hd
    · exact nomatch hf
  | xEventGroupWaitBits g bits clearOnExit waitAllBits timeout =>
    obtain ⟨c₀, hf, rfl⟩ := onGroup_inr h
    unfold xEventGroupWaitBits at hf
    split at hf
    · obtain rfl := Sum.inr.inj hf
      -- the section after the wait clears bits only when it did not time out
      refine .group rfl (waitBits_groupSection _ _ _) (fun late f hf => ?_)
        fun d hd => ⟨bits, waitAllBits, (Option.some.inj hd).symm, fun _ _ _ => waitBits_unmet⟩
      cases late with
      | false => exact nomatch hf
      | true =>
        obtain rfl := Option.some.inj hf
        exact fun _ _ _ => consume_groupHolds
    · exact nomatch hf
  | xTaskGenericNotify task index value action previous =>
    obtain ⟨c₀, hf, rfl⟩ := onTcb_inr h
    unfold xTaskGenericNotify at hf
    split at hf
    · exact nomatch hf
    · obtain rfl := Sum.inr.inj hf
      exact .tcb rfl (notify_tcbSection _ _ _) (fun _ _ hf => nomatch hf) fun d hd => nomatch hd
  | ulTaskGenericNotifyTake index clear timeout =>
    obtain ⟨c₀, hf, rfl⟩ := onTcb_inr h
    unfold ulTaskGenericNotifyTake at hf
    split at hf
    · exact nomatch hf
    · obtain rfl := Sum.inr.inj hf
      refine .tcb rfl (notifyTake_tcbSection _) (fun late f hf => ?_)
        fun d hd => ⟨.value, (Option.some.inj hd).symm, fun _ _ _ => notifyTake_unmet⟩
      -- the same section ends the call after the wait and after a timeout
      obtain rfl : f = notifyTakeClose := by cases late <;> exact (Option.some.inj hf).symm
      intro t tc htc
      cases tc with
      | value => exact htc
      | received => exact nomatch htc
  | xTaskGenericNotifyWait index clearEntry clearExit out timeout =>
    obtain ⟨c₀, hf, rfl⟩ := onTcb_inr h
    unfold xTaskGenericNotifyWait at hf
    split at hf
    · exact nomatch hf
    · obtain rfl := Sum.inr.inj hf
      refine .tcb rfl (notifyWait_tcbSection _ _ _) (fun late f hf => ?_)
        fun d hd => ⟨.received, (Option.some.inj hd).symm, fun _ _ _ => notifyWait_unmet⟩
      obtain rfl : f = notifyWaitClose out := by cases late <;> exact (Option.some.inj hf).symm
      intro t tc htc
      cases tc with
      | value => exact htc
      | received => exact nomatch htc

/-- The calls wake whom they let through, and wait for their own condition. -/
theorem rtos_wakeSpec : WakeSpec liveCode (fun th op w => waitCondition th op.1 w) Counted where
  inv hat hI := by
    cases hat with
    | refused h | entered h => rw [rtosCode_world h]; exact hI
    | locked hc h =>
      have := (callSpec_of_calls hc).counted _ hI
      rw [h] at this
      exact this
    -- the closing section of a call that gives up
    | closed hc hf h =>
      have := (callSpec_of_calls hc).close_counted _ _ hf _ hI
      rw [h] at this
      exact this
  unmet hc hI h := by
    rintro ⟨d, hd, hholds⟩
    exact (callSpec_of_calls hc).unmet d hd _ _ _ hI h hholds
  enter h _ hr := by
    rw [rtosCode_world h] at hr
    exact hr
  body hc hI h hc' hr := by
    obtain ⟨d, hd, hholds⟩ := hr
    have hw := (callSpec_of_calls hc).wakes _ hI d
    rw [h] at hw
    -- the condition held before, or the section wakes those who wait for it
    obtain hold | ⟨hctx, hret⟩ := hw hholds
    · exact .inl ⟨d, hd, hold⟩
    · exact .inr ⟨hctx.symm.trans ((callSpec_of_calls hc').ctx_eq d hd), hret⟩
  -- what holds after the closing section held before it
  close {_ _ _ _ f s s' _ _ _} hc hf _ h hr := by
    obtain ⟨d, hd, hholds⟩ := hr
    obtain rfl : (f s).1 = s' := by rw [h]
    exact ⟨d, hd, (callSpec_of_calls hc).close _ f hf s d hholds⟩

/-! ## Main result -/

/-- A queue object as one of the creators returns it. -/
inductive Created : S31Queue → Prop where
  | create {malloc ctx len size type q}
    (h : xQueueGenericCreate malloc ctx len size type = some q) : Created q
  | createStatic {ctx len size storage type q}
    (h : xQueueGenericCreateStatic ctx len size storage type = some q) : Created q
  | createMutex {malloc ctx type q} (h : xQueueCreateMutex malloc ctx type = some q) : Created q
  | createCountingSemaphore {malloc ctx max initial q}
    (h : xQueueCreateCountingSemaphore malloc ctx max initial = some q) : Created q

/-- Only a counting semaphore starts with a count. -/
theorem Created.counted {q : S31Queue} (h : Created q) : MutexCounted q := by
  cases h with
  -- new mutexes hold one token; the others are none
  | create h =>
    unfold xQueueGenericCreate at h
    split at h
    · exact nomatch h
    · obtain ⟨storage, -, h⟩ := Option.bind_eq_some_iff.mp h
      obtain rfl := Option.some.inj (Option.ite_none_right_eq_some.mp h).2
      exact fun _ _ => rfl
  | createStatic h =>
    unfold xQueueGenericCreateStatic at h
    split at h
    · exact nomatch h
    · obtain rfl := Option.some.inj (Option.ite_none_right_eq_some.mp h).2
      exact fun _ _ => rfl
  | createMutex h =>
    obtain ⟨storage, -, h⟩ := Option.bind_eq_some_iff.mp h
    obtain rfl := Option.some.inj (Option.ite_none_right_eq_some.mp h).2
    exact fun _ _ => rfl
  | createCountingSemaphore h =>
    unfold xQueueCreateCountingSemaphore at h
    split at h
    · exact nomatch h
    · obtain ⟨storage, -, h⟩ := Option.bind_eq_some_iff.mp h
      obtain rfl := Option.some.inj (Option.ite_none_right_eq_some.mp h).2
      exact fun hm => nomatch hm

/-- In every state a run reaches from freshly created objects: a task that
    sleeps on sequence `s` although the condition it waits for holds sees a
    sequence different from `s`, or some call that has left its locked section
    is about to wake its context. -/
theorem no_lost_wakeup {ok : Config Thread Ctx World Ret TickType LiveOp → Thread →
      Choice LiveOp TickType → Prop} {cfg₀ cfg : Config Thread Ctx World Ret TickType LiveOp}
    {log : List (Thread × Event LiveOp Ret)} (hrun : Run liveCode ok cfg₀ log cfg)
    (hidle : ∀ th, cfg₀.pc th = .idle) (hmade : ∀ i, Created (cfg₀.shared.queues i))
    {th : Thread} {op : LiveOp} {c : SyncCall Ctx World Ret TickType} {start left : TickType}
    {s : Nat} {ret : Ret} (hsleep : cfg.pc th = .asleep op c start s left ret) {d : Cond}
    (hd : op.1.cond th = some d) (hholds : d.Holds cfg.shared) :
    cfg.seq d.ctx ≠ s ∨
      ∃ th' op' c' ret', cfg.pc th' = .wake op' c' ret' ∧ c'.ctx = d.ctx := by
  have hinv := hrun.wakeup rtos_wakeSpec hidle fun i => (hmade i).counted
  have hctx : d.ctx = c.ctx := by
    have hc : Calls liveCode th op c :=
      hrun.sound (Config.sound_of_idle hidle) th op c (by rw [hsleep]; rfl)
    exact (callSpec_of_calls hc).ctx_eq d hd
  rw [hctx]
  -- it was woken, or the wake is on its way
  obtain hlt | hpending := hinv.wake (by rw [hsleep]; rfl) ⟨d, hd, hholds⟩
  · exact .inl (Nat.ne_of_gt hlt)
  · exact .inr hpending

/-- One empty semaphore, one task that waits for it and one ISR that gives it,
    stopped between the ISR's locked section and its wake-up. -/
theorem no_lost_wakeup_semaphore :
    ∃ cfg : Config Thread Ctx World Ret TickType LiveOp, ∃ op c start left ret,
      cfg.pc ⟨1, 10, false⟩ = .asleep op c start 0 left ret ∧
      QueueCond.token.Holds (cfg.shared.queues 0) ∧
      (cfg.seq (.queue 0) ≠ 0 ∨
        ∃ th' op' c' ret', cfg.pc th' = .wake op' c' ret' ∧ c'.ctx = .queue 0) := by
  let sem : S31Queue := s31QueueInit s31QTypeSem 1 0 (fun _ => 0) (some 7)
  have hsem : Created sem := .createCountingSemaphore
    (show xQueueCreateCountingSemaphore (fun _ => some fun _ => 0) (some 7) 1 0 = some _ from rfl)
  let cfg₀ : Config Thread Ctx World Ret TickType LiveOp :=
    { shared := ⟨fun _ => sem, fun _ => ⟨0, none⟩, fun _ => ⟨0, .notWaiting⟩⟩
      seq := fun _ => 0
      pc := fun _ => .idle }
  -- a task sleeps on the empty semaphore, and an interrupt gives it
  have hrun : Run liveCode (fun _ _ _ => True) cfg₀ _ _ := Run.of_exec (fun _ _ _ => trivial)
    (show exec liveCode cfg₀
      [(⟨1, 10, false⟩, .call ⟨.xQueueSemaphoreTake 0 portMAX_DELAY, trivial⟩ 5),
        (⟨1, 10, false⟩, .go 5), (⟨1, 10, false⟩, .go 6), (⟨1, 10, false⟩, .go 6),
        (⟨2, 0, true⟩, .call ⟨.xQueueGenericSendFromISR 0 none none 0, trivial⟩ 7),
        (⟨2, 0, true⟩, .go 7)] = some _ from rfl)
  -- the give has put a token in and has not yet woken the taker
  have hcount : QueueCond.token.Holds { sem with count := 1 } := by
    simp only [QueueCond.Holds]
    decide
  exact ⟨_, ⟨.xQueueSemaphoreTake 0 portMAX_DELAY, trivial⟩, _, _, _, _, rfl, hcount,
    @no_lost_wakeup _ _ _ _ hrun (fun _ => rfl) (fun _ => hsem) ⟨1, 10, false⟩
      ⟨.xQueueSemaphoreTake 0 portMAX_DELAY, trivial⟩ _ _ _ _ _ rfl (.queue 0 .token) rfl hcount⟩

end EspS31.Rtos
