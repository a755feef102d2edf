import EspS31.Native.Queue

/-!
# Recursive mutexes

A mutex is a queue object of type `s31QTypeMutex` whose state is spread over
`owner`, `depth` and an inverted `count`.  This file shows that every run of the
calls on it keeps the three in step and that `depth` is the number of takes the
owner has not given back.

## Key results

- `MutexRep`: the object is a mutex that is free or held
- `semaphoreTake_cases`, `giveMutexRecursive_cases`: what the two sections do
- `mutex_atomic`: every section of every call takes, gives or changes nothing
- `mutex_correct`: the property of every run
-/

namespace EspS31.Rtos

open SyncProtocol

/-! ## States of a mutex -/

namespace S31Queue

/-- A mutex that nobody holds. -/
def Free (q : S31Queue) : Prop := q.owner = none ∧ q.depth = 0 ∧ q.count = 0

/-- A mutex that the task holds. -/
def HeldBy (q : S31Queue) (t : TaskHandle) : Prop :=
  q.owner = some t ∧ q.depth ≠ 0 ∧ q.count = 1

/-- How many takes of task `t` are in effect. -/
def levels (q : S31Queue) (t : TaskHandle) : Nat := if q.owner = some t then q.depth.toNat else 0

/-- The mutex after a successful take by `t`. -/
def takenBy (q : S31Queue) (t : TaskHandle) : S31Queue :=
  { q with owner := some t, depth := q.depth + 1, count := 1 }

end S31Queue

/-- A mutex in one of its two kinds of states. -/
structure MutexRep (q : S31Queue) : Prop where
  type_eq : q.type = s31QTypeMutex
  valid : s31QueueValid q = true
  state : q.Free ∨ ∃ t, q.HeldBy t

namespace MutexRep

variable {q : S31Queue} {t : TaskHandle}

/-- A mutex with an owner is held by it. -/
private theorem heldBy_of_owner (h : MutexRep q) (ho : q.owner = some t) : q.HeldBy t := by
  obtain hfree | ⟨t', hheld⟩ := h.state
  · exact nomatch hfree.1.symm.trans ho
  · obtain rfl := Option.some.inj (hheld.1.symm.trans ho)
    exact hheld

/-- Who has levels is the owner. -/
theorem owner_of_levels (h : q.levels t ≠ 0) : q.owner = some t := by
  by_contra hne
  exact h (if_neg hne)

/-- The owner has as many levels as the depth. -/
private theorem levels_of_held (h : q.HeldBy t) : q.levels t = q.depth.toNat := if_pos h.1

/-- The owner has at least one level. -/
private theorem levels_pos_of_held (h : q.HeldBy t) : 0 < q.levels t := by
  rw [levels_of_held h]
  exact Nat.pos_of_ne_zero fun h0 => h.2.1 (UInt32.toNat_inj.mp h0)

/-- Nobody has levels of a free mutex. -/
private theorem levels_of_free (h : q.Free) : q.levels t = 0 := by
  unfold S31Queue.levels
  rw [h.1]
  rfl

/-! ## Taking -/

/-- A take succeeds for the owner and on a free mutex, and finds its condition
    unmet while another task is the owner. -/
theorem semaphoreTake_cases (h : MutexRep q) (t : TaskHandle) :
    ((q.owner = some t ∨ q.Free) ∧
        semaphoreTakeSection t q = (q.takenBy t, .done (.status pdTRUE) false)) ∨
      (∃ t', t' ≠ t ∧ q.HeldBy t' ∧
        semaphoreTakeSection t q = (q, .unmet (.status pdFALSE))) := by
  simp only [semaphoreTakeSection, if_pos h.type_eq]
  obtain hfree | ⟨t', hheld⟩ := h.state
  · left
    have hne : q.owner ≠ some t := fun ho => nomatch hfree.1.symm.trans ho
    rw [if_neg hne, if_pos ⟨hfree.1, hfree.2.2⟩]
    refine ⟨.inr hfree, ?_⟩
    simp only [S31Queue.takenBy, hfree.2.1]
    rfl
  · by_cases ht : t' = t
    · left
      subst ht
      rw [if_pos hheld.1]
      refine ⟨.inl hheld.1, ?_⟩
      -- the source leaves `owner` and `count` as they are
      simp only [S31Queue.takenBy, ← hheld.1, ← hheld.2.2]
    · right
      have hne : q.owner ≠ some t := fun ho => ht (Option.some.inj (hheld.1.symm.trans ho))
      have hbusy : ¬ (q.owner = none ∧ q.count = 0) := fun hn => nomatch hheld.1.symm.trans hn.1
      rw [if_neg hne, if_neg hbusy]
      exact ⟨t', ht, hheld, rfl⟩

/-- Taking keeps a mutex well formed. -/
theorem takenBy (h : MutexRep q) (hdepth : q.depth + 1 ≠ 0) : MutexRep (q.takenBy t) :=
  ⟨h.type_eq, h.valid, .inr ⟨t, rfl, hdepth, rfl⟩⟩

/-- A take that is allowed adds one level to its task and to no other. -/
theorem levels_takenBy (hallowed : q.owner = some t ∨ q.Free) (hdepth : q.levels t + 1 < 2 ^ 32)
    (t' : TaskHandle) :
    (q.takenBy t).levels t' = q.levels t' + if t = t' then 1 else 0 := by
  have hdepth' : q.depth.toNat + 1 < 2 ^ 32 := by
    obtain ho | hfree := hallowed
    · rwa [S31Queue.levels, if_pos ho] at hdepth
    · rw [hfree.2.1]
      decide
  -- the depth does not wrap around
  have hsucc : (q.depth + 1).toNat = q.depth.toNat + 1 := by
    rw [UInt32.toNat_add]
    exact Nat.mod_eq_of_lt hdepth'
  by_cases ht : t = t'
  · subst ht
    rw [if_pos rfl, S31Queue.levels, if_pos (show (q.takenBy t).owner = some t from rfl)]
    obtain ho | hfree := hallowed
    · rw [S31Queue.levels, if_pos ho]
      exact hsucc
    · rw [levels_of_free hfree]
      simp only [S31Queue.takenBy, hfree.2.1]
      rfl
  -- another task has no level, before and after
  · have hnew : (q.takenBy t).levels t' = 0 := if_neg fun ho => ht (Option.some.inj ho)
    have hold : q.levels t' = 0 := by
      obtain ho | hfree := hallowed
      · exact if_neg fun ho' => ht (Option.some.inj (ho.symm.trans ho'))
      · exact levels_of_free hfree
    rw [hnew, hold, if_neg ht]

/-- A take that is allowed does not overflow the depth. -/
theorem depth_succ_ne_zero (hallowed : q.owner = some t ∨ q.Free)
    (hdepth : q.levels t + 1 < 2 ^ 32) : q.depth + 1 ≠ 0 := by
  intro h0
  have h1 := levels_takenBy hallowed hdepth t
  simp only [S31Queue.levels, S31Queue.takenBy, h0, ↓reduceIte] at h1
  exact nomatch h1

/-! ## Giving -/

/-- A give succeeds for the owner and changes nothing for anybody else. -/
theorem giveMutexRecursive_cases (h : MutexRep q) (t : TaskHandle) :
    (q.HeldBy t ∧ giveMutexRecursiveSection t q = (q.giveLevel, .status pdTRUE, true)) ∨
      (q.owner ≠ some t ∧ giveMutexRecursiveSection t q = (q, .status pdFAIL, false)) := by
  by_cases ho : q.owner = some t
  · have hheld := h.heldBy_of_owner ho
    exact .inl ⟨hheld, if_pos ⟨ho, hheld.2.1⟩⟩
  · exact .inr ⟨ho, if_neg fun hc => ho hc.1⟩

/-- The give of `xQueueGenericSend` is the give of `xQueueGiveMutexRecursive`. -/
private theorem sendSection_eq_give (h : MutexRep q) (t : TaskHandle) (item : Option (List UInt8))
    (copy : BaseType) :
    sendSection t item copy q = SyncCall.onceBody (giveMutexRecursiveSection t) q := by
  simp only [sendSection, if_pos (Or.inl h.type_eq : _ ∨ _), s31QueueSendLocked,
    if_pos h.type_eq, SyncCall.onceBody]
  obtain ⟨hheld, hgive⟩ | ⟨hne, hgive⟩ := h.giveMutexRecursive_cases t
  · have : ¬ (q.owner ≠ some t ∨ q.depth = 0) := by
      rintro (hne | h0)
      · exact hne hheld.1
      · exact hheld.2.1 h0
    rw [hgive, if_neg this]
    rfl
  · rw [hgive, if_pos (.inl hne)]
    rfl

/-- A give takes one level off. -/
private theorem depth_pred_toNat (h : q.HeldBy t) : (q.depth - 1).toNat + 1 = q.depth.toNat := by
  have hpos := levels_pos_of_held h
  rw [levels_of_held h] at hpos
  have hle : (1 : UInt32) ≤ q.depth := UInt32.le_iff_toNat_le.mpr hpos
  rw [UInt32.toNat_sub_of_le _ _ hle]
  exact Nat.sub_add_cancel hpos

/-- Giving a level keeps a mutex well formed. -/
theorem giveLevel (h : MutexRep q) (hheld : q.HeldBy t) : MutexRep q.giveLevel := by
  unfold S31Queue.giveLevel
  split
  · exact ⟨h.type_eq, h.valid, .inl ⟨rfl, rfl, rfl⟩⟩
  · next hne => exact ⟨h.type_eq, h.valid, .inr ⟨t, hheld.1, hne, hheld.2.2⟩⟩

/-- A give by the owner takes one level from it and none from the others. -/
theorem levels_giveLevel (hheld : q.HeldBy t) (t' : TaskHandle) :
    q.giveLevel.levels t' + (if t = t' then 1 else 0) = q.levels t' := by
  have hpred := depth_pred_toNat hheld
  by_cases ht : t = t'
  · subst ht
    rw [if_pos rfl, levels_of_held hheld]
    unfold S31Queue.giveLevel
    split
    -- the last level was given, and the owner goes with it
    · next h0 =>
      rw [h0] at hpred
      exact hpred
    · exact (congrArg (· + 1) (if_pos hheld.1)).trans hpred
  · have hold : q.levels t' = 0 :=
      if_neg fun ho => ht (Option.some.inj (hheld.1.symm.trans ho))
    rw [if_neg ht, hold]
    unfold S31Queue.giveLevel
    split
    · rfl
    · exact if_neg fun ho => ht (Option.some.inj (hheld.1.symm.trans ho))

end MutexRep

/-! ## The calls on one mutex -/

/-- The calls made on a mutex.  The receiving and the ISR-side calls are those
    of all queues; they have to refuse a mutex. -/
inductive MutexOp where
  | xQueueSemaphoreTake (timeout : TickType)
  | xQueueTakeMutexRecursive (timeout : TickType)
  | xQueueGenericSend (item : Option (List UInt8)) (timeout : TickType) (copy : BaseType)
  | xQueueGiveMutexRecursive
  | xQueueGenericSendFromISR (item : Option (List UInt8)) (woken : Option BaseType)
      (copy : BaseType)
  | xQueueReceiveFromISR (item : Bool) (woken : Option BaseType)
  | xQueueReceive (item : Bool) (timeout : TickType)
  | xQueueGetMutexHolder
  | uxQueueMessagesWaiting
deriving DecidableEq, Repr

namespace MutexOp

/-- The calls that take. -/
def isTake : MutexOp → Bool
  | .xQueueSemaphoreTake _ | .xQueueTakeMutexRecursive _ => true
  | _ => false

/-- The calls that give. -/
def isGive : MutexOp → Bool
  | .xQueueGenericSend _ _ _ | .xQueueGiveMutexRecursive => true
  | _ => false

/-- The calls that reach the ISR side or receive, when made from `th`. -/
def isIsrSide (th : Thread) : MutexOp → Bool
  | .xQueueGenericSend _ _ _ => th.inIsr
  | .xQueueGenericSendFromISR _ _ _ | .xQueueReceiveFromISR _ _ | .xQueueReceive _ _ => true
  | _ => false

/-- A take is no give and no call of an interrupt. -/
private theorem isTake_excl {op : MutexOp} (h : op.isTake = true) :
    op.isGive = false ∧ ∀ th, op.isIsrSide th = false := by
  cases op with
  | xQueueSemaphoreTake | xQueueTakeMutexRecursive => exact ⟨rfl, fun _ => rfl⟩
  | _ => exact nomatch h

/-- A give is no take. -/
private theorem isGive_excl {op : MutexOp} (h : op.isGive = true) : op.isTake = false := by
  cases op with
  | xQueueGenericSend | xQueueGiveMutexRecursive => rfl
  | _ => exact nomatch h

end MutexOp

/-- The functions on a mutex. -/
def mutexCode : Entry Thread Unit S31Queue Ret TickType MutexOp
  | th, .xQueueSemaphoreTake timeout, q => (q, xQueueSemaphoreTake th () timeout q)
  | th, .xQueueTakeMutexRecursive timeout, q => (q, xQueueTakeMutexRecursive th () timeout q)
  | th, .xQueueGenericSend item timeout copy, q => (q, xQueueGenericSend th () item timeout copy q)
  | th, .xQueueGiveMutexRecursive, q => (q, xQueueGiveMutexRecursive th () q)
  | th, .xQueueGenericSendFromISR item woken copy, q =>
    (q, xQueueGenericSendFromISR th () item woken copy q)
  | _, .xQueueReceiveFromISR item woken, q => (q, xQueueReceiveFromISR () item woken q)
  | th, .xQueueReceive item timeout, q => (q, xQueueReceive th () item timeout q)
  | _, .xQueueGetMutexHolder, q => (q, xQueueGetMutexHolder () q)
  | _, .uxQueueMessagesWaiting, q => (q, uxQueueMessagesWaiting () q)

/-- What a call's section does, by kind of call. -/
inductive MutexCall (th : Thread) (op : MutexOp) (c : SyncCall Unit S31Queue Ret TickType) :
    Prop where
  | take (hop : op.isTake = true) (hbody : c.body = semaphoreTakeSection th.task)
  | give (hop : op.isGive = true) (hop' : op.isIsrSide th = false) (hbody : ∀ q, MutexRep q →
      c.body q = SyncCall.onceBody (giveMutexRecursiveSection th.task) q)
  | refuse (hop : op.isTake = false)
      (hbody : ∀ q, MutexRep q → ∃ ret, ret.rc = pdFAIL ∧
        (c.body q = (q, .done ret false) ∨ c.body q = (q, .unmet ret)))

/-- A take that goes on waiting would fail. -/
theorem semaphoreTake_unmet_rc {t : TaskHandle} {q q' : S31Queue} {ret : Ret}
    (h : semaphoreTakeSection t q = (q', .unmet ret)) : ret = .status pdFALSE := by
  unfold semaphoreTakeSection at h
  split at h
  · split at h
    · exact nomatch h
    · split at h
      · exact nomatch h
      · exact (Outcome.unmet.inj (Prod.mk.inj h).2).symm
  · split at h
    · exact nomatch h
    · exact (Outcome.unmet.inj (Prod.mk.inj h).2).symm

/-- Each call is one of the three kinds, without a closing section. -/
private theorem mutexCall_of_calls {th : Thread} {op : MutexOp}
    {c : SyncCall Unit S31Queue Ret TickType}
    (h : Calls mutexCode th op c) : MutexCall th op c ∧ ∀ late, c.closing late = none := by
  obtain ⟨q, q', h⟩ := h
  have hloop : ∀ (timeout : TickType) (body : S31Queue → S31Queue × Outcome Ret) (late : Bool),
      (queueLoop () timeout body).closing late = none := fun _ _ late => by cases late <;> rfl
  -- in an interrupt a mutex is neither given nor taken
  have hsendISR : ∀ (item : Option (List UInt8)) (woken : Option BaseType) (copy : BaseType) (q),
      MutexRep q → ∃ ret : Ret, ret.rc = pdFAIL ∧
        (SyncCall.onceBody (sendFromISRSection th.task item woken copy) q = (q, .done ret false) ∨
          SyncCall.onceBody (sendFromISRSection th.task item woken copy) q = (q, .unmet ret)) := by
    intro item woken copy q hq
    refine ⟨.isrStatus pdFAIL woken, rfl, .inl ?_⟩
    simp only [SyncCall.onceBody, sendFromISRSection, if_pos hq.type_eq]
    rfl
  have hreceiveISR : ∀ (item : Bool) (woken : Option BaseType) (q), MutexRep q →
      ∃ ret : Ret, ret.rc = pdFAIL ∧
        (SyncCall.onceBody (receiveFromISRSection item woken) q = (q, .done ret false) ∨
          SyncCall.onceBody (receiveFromISRSection item woken) q = (q, .unmet ret)) := by
    intro item woken q hq
    refine ⟨.isrReceived pdFALSE none woken, rfl, .inl ?_⟩
    simp only [SyncCall.onceBody, receiveFromISRSection, if_pos hq.type_eq]
    rfl
  have h := (Prod.mk.inj h).2
  cases op with
  | xQueueSemaphoreTake timeout | xQueueTakeMutexRecursive timeout =>
    simp only [xQueueTakeMutexRecursive, xQueueSemaphoreTake] at h
    split at h
    · obtain rfl := Sum.inr.inj h
      exact ⟨.take rfl rfl, hloop _ _⟩
    · exact nomatch h
  | xQueueGenericSend item timeout copy =>
    simp only [xQueueGenericSend, xQueueGenericSendFromISR] at h
    split at h
    · split at h
      · obtain rfl := Sum.inr.inj h
        exact ⟨.refuse rfl (hsendISR item none copy), fun _ => rfl⟩
      · next hisr =>
        obtain rfl := Sum.inr.inj h
        exact ⟨.give rfl (Bool.not_eq_true _ ▸ hisr) fun q hq => hq.sendSection_eq_give .., hloop _ _⟩
    · exact nomatch h
  | xQueueGiveMutexRecursive =>
    simp only [xQueueGiveMutexRecursive] at h
    split at h
    · obtain rfl := Sum.inr.inj h
      exact ⟨.give rfl rfl fun _ _ => rfl, fun _ => rfl⟩
    · exact nomatch h
  | xQueueGenericSendFromISR item woken copy =>
    simp only [xQueueGenericSendFromISR] at h
    split at h
    · obtain rfl := Sum.inr.inj h
      exact ⟨.refuse rfl (hsendISR item woken copy), fun _ => rfl⟩
    · exact nomatch h
  | xQueueReceiveFromISR item woken =>
    simp only [xQueueReceiveFromISR] at h
    split at h
    · obtain rfl := Sum.inr.inj h
      exact ⟨.refuse rfl (hreceiveISR item woken), fun _ => rfl⟩
    · exact nomatch h
  | xQueueReceive item timeout =>
    simp only [xQueueReceive, xQueueReceiveFromISR] at h
    split at h
    · split at h
      · obtain rfl := Sum.inr.inj h
        exact ⟨.refuse rfl (hreceiveISR item none), fun _ => rfl⟩
      · obtain rfl := Sum.inr.inj h
        refine ⟨.refuse rfl fun q hq => ?_, hloop _ _⟩
        -- the receive loop never finds a mutex receivable
        exact ⟨.received pdFALSE none, rfl, .inr (if_neg fun hc => hc.1 hq.type_eq)⟩
    · exact nomatch h
  | xQueueGetMutexHolder =>
    simp only [xQueueGetMutexHolder] at h
    split at h
    · obtain rfl := Sum.inr.inj h
      exact ⟨.refuse rfl fun q _ => ⟨.holder q.owner, rfl, .inl rfl⟩, fun _ => rfl⟩
    · exact nomatch h
  | uxQueueMessagesWaiting =>
    simp only [uxQueueMessagesWaiting] at h
    split at h
    · obtain rfl := Sum.inr.inj h
      exact ⟨.refuse rfl fun q _ => ⟨.value q.messagesWaiting, rfl, .inl rfl⟩,
        fun _ => rfl⟩
    · exact nomatch h

/-- No call returns success by giving up. -/
private theorem mutexCode_unmet_rc {th : Thread} {op : MutexOp}
    {c : SyncCall Unit S31Queue Ret TickType}
    (h : Calls mutexCode th op c) {q q' : S31Queue} {ret : Ret}
    (hbody : c.body q = (q', .unmet ret)) : ret.rc = pdFAIL := by
  -- only the sections of the waiting calls can end unmet
  obtain ⟨q₀, q₀', h⟩ := h
  have h := (Prod.mk.inj h).2
  cases op with
  | xQueueSemaphoreTake timeout | xQueueTakeMutexRecursive timeout =>
    simp only [xQueueTakeMutexRecursive, xQueueSemaphoreTake] at h
    split at h
    · obtain rfl := Sum.inr.inj h
      rw [semaphoreTake_unmet_rc hbody]
      rfl
    · exact nomatch h
  | xQueueGenericSend item timeout copy =>
    simp only [xQueueGenericSend, xQueueGenericSendFromISR] at h
    split at h
    · split at h <;> obtain rfl := Sum.inr.inj h
      · exact nomatch hbody
      · simp only [queueLoop, sendSection] at hbody
        split at hbody
        · exact nomatch hbody
        · obtain rfl := Outcome.unmet.inj (Prod.mk.inj hbody).2
          rfl
    · exact nomatch h
  | xQueueReceive item timeout =>
    simp only [xQueueReceive, xQueueReceiveFromISR] at h
    split at h
    · split at h <;> obtain rfl := Sum.inr.inj h
      · exact nomatch hbody
      · simp only [queueLoop, receiveSection] at hbody
        split at hbody
        · exact nomatch hbody
        · obtain rfl := Outcome.unmet.inj (Prod.mk.inj hbody).2
          rfl
    · exact nomatch h
  -- these run once and do not wait
  | xQueueGiveMutexRecursive | xQueueGenericSendFromISR | xQueueReceiveFromISR
  | xQueueGetMutexHolder | uxQueueMessagesWaiting =>
    simp only [xQueueGiveMutexRecursive, xQueueGenericSendFromISR, xQueueReceiveFromISR,
      xQueueGetMutexHolder, uxQueueMessagesWaiting] at h
    split at h
    · obtain rfl := Sum.inr.inj h
      exact nomatch hbody
    · exact nomatch h

/-! ## Counting takes and gives -/

/-- Task `t` has just taken the mutex. -/
def took (t : TaskHandle) : Thread × Event MutexOp Ret → Bool
  | (th, .locked op (.done ret _)) => op.isTake && decide (th.task = t) && decide (ret.rc = pdTRUE)
  | _ => false

/-- Task `t` has just given the mutex. -/
def gave (t : TaskHandle) : Thread × Event MutexOp Ret → Bool
  | (th, .locked op (.done ret _)) => op.isGive && decide (th.task = t) && decide (ret.rc = pdTRUE)
  | _ => false

/-- The takes of a task that succeeded. -/
def takes (t : TaskHandle) (log : List (Thread × Event MutexOp Ret)) : Nat := log.countP (took t)

/-- The gives of a task that succeeded. -/
def gives (t : TaskHandle) (log : List (Thread × Event MutexOp Ret)) : Nat := log.countP (gave t)

/-- One event more is one take more or none. -/
theorem takes_snoc (t : TaskHandle) (log : List (Thread × Event MutexOp Ret))
    (x : Thread × Event MutexOp Ret) :
    takes t (log ++ [x]) = takes t log + if took t x then 1 else 0 := by
  simp only [takes, List.countP_append, List.countP_singleton]

/-- One event more is one give more or none. -/
theorem gives_snoc (t : TaskHandle) (log : List (Thread × Event MutexOp Ret))
    (x : Thread × Event MutexOp Ret) :
    gives t (log ++ [x]) = gives t log + if gave t x then 1 else 0 := by
  simp only [gives, List.countP_append, List.countP_singleton]

/-- Every section takes the mutex, gives it, or changes nothing. -/
theorem mutex_atomic {th : Thread} {op : MutexOp} {q q' : S31Queue} {e : Event MutexOp Ret}
    (h : Atomic mutexCode th op q e q') (hq : MutexRep q) :
    (q' = q ∧ (∀ t, took t (th, e) = false) ∧ ∀ t, gave t (th, e) = false) ∨
    ((q.owner = some th.task ∨ q.Free) ∧ q' = q.takenBy th.task ∧
      (∀ t, took t (th, e) = decide (th.task = t)) ∧ ∀ t, gave t (th, e) = false) ∨
    (q.HeldBy th.task ∧ q' = q.giveLevel ∧
      (∀ t, took t (th, e) = false) ∧ ∀ t, gave t (th, e) = decide (th.task = t)) := by
  cases h with
  | refused h | entered h =>
    -- a call that is refused at once, or only entered, changes nothing
    left
    exact ⟨by cases op <;> exact (Prod.mk.inj h).1.symm, fun _ => rfl, fun _ => rfl⟩
  | closed hc hf _ =>
    rw [(mutexCall_of_calls hc).2] at hf
    exact nomatch hf
  | locked hc hbody =>
    cases (mutexCall_of_calls hc).1 with
    -- the mutex is taken by a task that may, or the call goes on waiting
    | take hop hsec =>
      have hop' := (MutexOp.isTake_excl hop).1
      rw [hsec] at hbody
      obtain ⟨hallowed, hdone⟩ | ⟨t', -, -, hunmet⟩ := hq.semaphoreTake_cases th.task
      · obtain ⟨rfl, rfl⟩ := Prod.mk.inj (hbody.symm.trans hdone)
        refine .inr (.inl ⟨hallowed, rfl, fun t => ?_, fun t => ?_⟩)
        · simp only [took, hop, Bool.true_and, Ret.rc, decide_true, Bool.and_true]
        · simp only [gave, hop', Bool.false_and]
      · obtain ⟨rfl, rfl⟩ := Prod.mk.inj (hbody.symm.trans hunmet)
        exact .inl ⟨rfl, fun _ => rfl, fun _ => rfl⟩
    -- a level is given back by the owner, and by nobody else
    | give hop _ hsec =>
      have hop' := MutexOp.isGive_excl hop
      rw [hsec _ hq] at hbody
      obtain ⟨hheld, hdone⟩ | ⟨-, hrefused⟩ := hq.giveMutexRecursive_cases th.task
      · rw [SyncCall.onceBody, hdone] at hbody
        obtain ⟨rfl, rfl⟩ := Prod.mk.inj hbody
        refine .inr (.inr ⟨hheld, rfl, fun t => ?_, fun t => ?_⟩)
        · simp only [took, hop', Bool.false_and]
        · simp only [gave, hop, Bool.true_and, Ret.rc, decide_true, Bool.and_true]
      · rw [SyncCall.onceBody, hrefused] at hbody
        obtain ⟨rfl, rfl⟩ := Prod.mk.inj hbody
        refine .inl ⟨rfl, fun t => ?_, fun t => ?_⟩
        · simp only [took, hop', Bool.false_and]
        · simp only [gave, Ret.rc, Bool.and_eq_false_imp]
          exact fun _ => rfl
    -- the other calls leave a mutex alone
    | refuse hop hsec =>
      obtain ⟨ret, hrc, hdone | hunmet⟩ := hsec _ hq
      · obtain ⟨rfl, rfl⟩ := Prod.mk.inj (hbody.symm.trans hdone)
        refine .inl ⟨rfl, fun t => ?_, fun t => ?_⟩
        · simp only [took, hop, Bool.false_and]
        · simp only [gave, hrc, Bool.and_eq_false_imp]
          exact fun _ => rfl
      · obtain ⟨rfl, rfl⟩ := Prod.mk.inj (hbody.symm.trans hunmet)
        exact .inl ⟨rfl, fun _ => rfl, fun _ => rfl⟩

/-! ## Runs -/

/-- Threads that work on one mutex. -/
abbrev MutexConfig := Config Thread Unit S31Queue Ret TickType MutexOp

/-- No task nests `2^32` takes, at any time of the history. -/
def Nested (log : List (Thread × Event MutexOp Ret)) : Prop :=
  ∀ l, l <+: log → ∀ t, takes t l < gives t l + 2 ^ 32

/-- The invariant of a run: a mutex whose levels are the history's balance. -/
structure MutexInv (log : List (Thread × Event MutexOp Ret)) (q : S31Queue) : Prop where
  rep : MutexRep q
  balance : ∀ t, q.levels t + gives t log = takes t log

/-- Every event keeps the invariant. -/
theorem MutexInv.step {log : List (Thread × Event MutexOp Ret)} {q q' : S31Queue} {th : Thread}
    {op : MutexOp} {e : Event MutexOp Ret} (h : MutexInv log q)
    (hnested : Nested (log ++ [(th, e)])) (hat : Atomic mutexCode th op q e q') :
    MutexInv (log ++ [(th, e)]) q' := by
  obtain ⟨rfl, htook, hgave⟩ | ⟨hallowed, rfl, htook, hgave⟩ | ⟨hheld, rfl, htook, hgave⟩ :=
    mutex_atomic hat h.rep
  -- nothing was taken or given
  · refine ⟨h.rep, fun t => ?_⟩
    rw [takes_snoc, gives_snoc, htook, hgave]
    exact h.balance t
  · -- the new level fits, by the bound on the extended history
    have hdepth : q.levels th.task + 1 < 2 ^ 32 := by
      have hbound := hnested _ (List.prefix_refl _) th.task
      rw [takes_snoc, gives_snoc, htook, hgave, decide_eq_true rfl] at hbound
      have := h.balance th.task
      simp only [↓reduceIte, Bool.false_eq_true] at hbound
      omega
    refine ⟨h.rep.takenBy (MutexRep.depth_succ_ne_zero hallowed hdepth), fun t => ?_⟩
    rw [takes_snoc, gives_snoc, htook, hgave, MutexRep.levels_takenBy hallowed hdepth]
    have := h.balance t
    simp only [decide_eq_true_eq, Bool.false_eq_true, ↓reduceIte]
    omega
  -- a level less, which the owner had
  · refine ⟨h.rep.giveLevel hheld, fun t => ?_⟩
    rw [takes_snoc, gives_snoc, htook, hgave]
    have := h.balance t
    have := MutexRep.levels_giveLevel hheld t
    simp only [decide_eq_true_eq, Bool.false_eq_true, ↓reduceIte]
    omega

/-- A history within the bound was within it before. -/
theorem Nested.of_snoc {log : List (Thread × Event MutexOp Ret)} {x : Thread × Event MutexOp Ret}
    (h : Nested (log ++ [x])) : Nested log :=
  fun l hl => h l (hl.trans (List.prefix_append ..))

/-- A history of fewer than `2^32` events nests no more than that. -/
private theorem nested_of_length {log : List (Thread × Event MutexOp Ret)}
    (h : log.length < 2 ^ 32) :
    Nested log := by
  intro l hl t
  have h1 : takes t l ≤ l.length := List.countP_le_length
  have h2 := hl.length_le
  omega

/-- A mutex starts free. -/
private theorem mutexMade_inv {malloc : UInt32 → Option Buf} {ctx : Option BridgeHandle}
    {type : UInt8}
    {q : S31Queue} (h : xQueueCreateMutex malloc ctx type = some q) : MutexInv [] q := by
  obtain ⟨storage, -, h⟩ := Option.bind_eq_some_iff.mp h
  obtain ⟨hvalid, h⟩ := Option.ite_none_right_eq_some.mp h
  obtain rfl := Option.some.inj h
  exact ⟨⟨rfl, hvalid, .inl ⟨rfl, rfl, rfl⟩⟩, fun t => rfl⟩

variable {ok : MutexConfig → Thread → Choice MutexOp TickType → Prop} {cfg₀ cfg : MutexConfig}
  {log : List (Thread × Event MutexOp Ret)}

/-- The invariant holds all along a run. -/
private theorem run_mutexInv (hrun : Run mutexCode ok cfg₀ log cfg)
    (hidle : ∀ th, cfg₀.pc th = .idle)
    (hinit : MutexInv [] cfg₀.shared) (hnested : Nested log) : MutexInv log cfg.shared := by
  refine hrun.shared_rule (P := fun log q => Nested log → MutexInv log q)
    (Config.sound_of_idle hidle) (fun _ => hinit) ?_ ?_ hnested
  · intro log q th op e q' ih hat hnested
    exact (ih hnested.of_snoc).step hnested hat
  · intro log q th e ih hquiet hnested
    obtain ⟨hrep, hbalance⟩ := ih hnested.of_snoc
    refine ⟨hrep, fun t => ?_⟩
    -- quiet events neither take nor give
    rw [takes_snoc, gives_snoc]
    cases e with
    | gaveUp | woke | silent => exact hbalance t
    | _ => exact hquiet.elim

/-- The section of a give by a task that is not the owner, or of any ISR-side
    call, changes nothing and reports failure. -/
private theorem refused_section {th : Thread} {op : MutexOp}
    {c : SyncCall Unit S31Queue Ret TickType}
    {q : S31Queue} (hc : Calls mutexCode th op c) (hq : MutexRep q)
    (hop : (op.isGive = true ∧ q.owner ≠ some th.task) ∨ op.isIsrSide th = true) :
    ∃ ret, ret.rc = pdFAIL ∧ (c.body q = (q, .done ret false) ∨ c.body q = (q, .unmet ret)) := by
  cases (mutexCall_of_calls hc).1 with
  | refuse _ hsec => exact hsec q hq
  | take htake _ =>
    -- a take is neither a give nor a call of an interrupt
    obtain ⟨hgive, -⟩ | hisr := hop
    · rw [(MutexOp.isTake_excl htake).1] at hgive
      exact nomatch hgive
    · rw [(MutexOp.isTake_excl htake).2] at hisr
      exact nomatch hisr
  | give _ hnisr hsec =>
    obtain ⟨-, hne⟩ | hisr := hop
    · obtain ⟨hheld, -⟩ | ⟨-, hrefused⟩ := hq.giveMutexRecursive_cases th.task
      · exact absurd hheld.1 hne
      · exact ⟨.status pdFAIL, rfl, .inl (by rw [hsec q hq, SyncCall.onceBody, hrefused])⟩
    · rw [hnisr] at hisr
      exact nomatch hisr

/-- What a step from `cfg` must respect. -/
structure MutexStep (cfg : MutexConfig) (th : Thread) (e : Event MutexOp Ret)
    (cfg' : MutexConfig) : Prop where
  /-- a take by a task that is not the owner succeeds only on a free mutex -/
  take : ∀ op ret wake, e = .locked op (.done ret wake) → op.isTake = true → ret.rc = pdTRUE →
    cfg.shared.owner ≠ some th.task → cfg.shared.Free
  /-- gives by other tasks and ISR-side calls change nothing and fail -/
  refused : ∀ op out, e = .locked op out →
    (op.isGive = true ∧ cfg.shared.owner ≠ some th.task) ∨ op.isIsrSide th = true →
    cfg'.shared = cfg.shared ∧
      ∃ ret, ret.rc = pdFAIL ∧ (out = .done ret false ∨ out = .unmet ret)
  /-- a call that gives up fails -/
  gaveUp : ∀ op ret, e = .gaveUp op ret → ret.rc = pdFAIL
  /-- nothing but a locked section changes the mutex -/
  frame : (∀ op out, e ≠ .locked op out) → cfg'.shared = cfg.shared

/-- A step of a thread on the mutex, as one of the atomic steps or none. -/
private theorem mutexStep_of_step {cfg' : MutexConfig} {th : Thread} {e : Event MutexOp Ret}
    (hrep : MutexRep cfg.shared) (hsound : cfg.Sound mutexCode)
    (hrefusal : ∀ th op c ret, (cfg.pc th).refusal = some (op, c, ret) → ret.rc = pdFAIL)
    (h : Step mutexCode cfg th e cfg') : MutexStep cfg th e cfg' where
  -- by what the section can do to a mutex
  take op ret wake he htake hrc hne := by
    subst he
    obtain ⟨op', hat⟩ | ⟨hquiet, -⟩ := h.atomicOf (R := fun t op c _ => Calls mutexCode t op c) (hsound th)
    · have htook : took th.task (th, .locked op (.done ret wake)) = true := by
        simp only [took, htake, hrc, decide_true, Bool.and_self]
      obtain ⟨-, hno, -⟩ | ⟨hallowed, -⟩ | ⟨hheld, -⟩ := mutex_atomic hat hrep
      · rw [hno] at htook
        exact nomatch htook
      · exact hallowed.resolve_left hne
      · exact absurd hheld.1 hne
    · exact hquiet.elim
  refused op out he hop := by
    subst he
    obtain ⟨c, start, seq, hpc, hbody⟩ := h.locked_inv
    have hc : Calls mutexCode th op c := hsound th op c (by rw [hpc]; rfl)
    -- its section leaves the mutex alone and says so
    obtain ⟨ret, hrc, hdone | hunmet⟩ := refused_section hc hrep hop
    · obtain ⟨hsame, rfl⟩ := Prod.mk.inj (hbody.symm.trans hdone)
      exact ⟨hsame, ret, hrc, .inl rfl⟩
    · obtain ⟨hsame, rfl⟩ := Prod.mk.inj (hbody.symm.trans hunmet)
      exact ⟨hsame, ret, hrc, .inr rfl⟩
  gaveUp op ret he := by
    subst he
    obtain ⟨c, hc⟩ := h.gaveUp
    exact hrefusal th op c ret hc
  frame hne := by
    obtain ⟨op, hat⟩ | ⟨-, hsame⟩ := h.atomicOf (R := fun t op c _ => Calls mutexCode t op c) (hsound th)
    -- outside of a section only entries are left, which change nothing
    · cases hat with
      | refused hcode | entered hcode => cases op <;> exact (Prod.mk.inj hcode).1.symm
      | locked => exact absurd rfl (hne _ _)
      | closed hc hf =>
        rw [(mutexCall_of_calls hc).2] at hf
        exact nomatch hf
    · exact hsame

/-- The messages waiting are one exactly when the mutex is free. -/
theorem MutexRep.messagesWaiting_eq_one {q : S31Queue} (h : MutexRep q) :
    q.messagesWaiting = 1 ↔ q.Free := by
  simp only [S31Queue.messagesWaiting, if_pos h.type_eq]
  constructor
  · intro h1
    obtain hfree | ⟨t, hheld⟩ := h.state
    · exact hfree
    · rw [hheld.2.2] at h1
      exact nomatch h1
  · intro hfree
    rw [if_pos hfree.2.2]

/-- The object of every run is a mutex that is free, or held by a task whose
    takes exceed its gives by `depth`.  From every state reached, every step
    respects `MutexStep`, both give paths have the same section, and the
    messages waiting are one exactly when the mutex is free. -/
theorem mutex_correct {malloc : UInt32 → Option Buf} {ctx : Option BridgeHandle} {type : UInt8}
    (hmade : xQueueCreateMutex malloc ctx type = some cfg₀.shared)
    (hidle : ∀ th, cfg₀.pc th = .idle) (hrun : Run mutexCode ok cfg₀ log cfg)
    (hnested : Nested log) :
    (cfg.shared.Free ∨ ∃ t, cfg.shared.owner = some t ∧ cfg.shared.count = 1 ∧
      1 ≤ cfg.shared.depth.toNat ∧ cfg.shared.depth.toNat = takes t log - gives t log) ∧
    (∀ th ch e cfg', step mutexCode cfg th ch = some (e, cfg') → MutexStep cfg th e cfg') ∧
    (∀ th : Thread, th.inIsr = false → ∀ item timeout copy, ∃ c c',
      xQueueGenericSend th () item timeout copy cfg.shared = .inr c ∧
      xQueueGiveMutexRecursive th () cfg.shared = .inr c' ∧
      c.body cfg.shared = c'.body cfg.shared) ∧
    ∃ c v, uxQueueMessagesWaiting () cfg.shared = .inr c ∧
      c.body cfg.shared = (cfg.shared, .done (.value v) false) ∧ (v = 1 ↔ cfg.shared.Free) := by
  -- what the invariant says about the state that the run has reached
  have hinv := run_mutexInv hrun hidle (mutexMade_inv hmade) hnested
  have hrep := hinv.rep
  have hsound := hrun.sound (Config.sound_of_idle hidle)
  refine ⟨?_, fun th ch e cfg' hstep => ?_, fun th hth item timeout copy => ?_, ?_⟩
  · obtain hfree | ⟨t, hheld⟩ := hrep.state
    · exact .inl hfree
    · have hlevels := MutexRep.levels_of_held hheld
      have hpos := MutexRep.levels_pos_of_held hheld
      have hbalance := hinv.balance t
      exact .inr ⟨t, hheld.1, hheld.2.2, by omega, by omega⟩
  · refine mutexStep_of_step hrep hsound (fun th op c ret hr => ?_) (Step.of_step hstep)
    obtain ⟨q, q', hbody⟩ := hrun.refusal hidle hr
    have hcall : (cfg.pc th).call? = some (op, c) := Pc.call?_of_refusal hr
    exact mutexCode_unmet_rc (hsound th op c hcall) hbody
  -- a send to a mutex is a call that gives it back
  · refine ⟨queueLoop () timeout (sendSection th.task item copy),
      .once () (giveMutexRecursiveSection th.task), ?_, if_pos ⟨hrep.valid, hrep.type_eq⟩,
      hrep.sendSection_eq_give ..⟩
    simp only [xQueueGenericSend, hrep.valid, hth, ↓reduceIte, Bool.false_eq_true]
  · exact ⟨.once () fun q => (q, .value q.messagesWaiting, false), _, if_pos hrep.valid, rfl,
      hrep.messagesWaiting_eq_one⟩

/-- Task 10 takes a new mutex twice, once through each entry point. -/
theorem mutex_correct_nested :
    ∃ (log : List (Thread × Event MutexOp Ret)) (cfg : MutexConfig),
      cfg.shared.depth = 2 ∧ takes 10 log = 2 ∧
      (cfg.shared.Free ∨ ∃ t, cfg.shared.owner = some t ∧ cfg.shared.count = 1 ∧
        1 ≤ cfg.shared.depth.toNat ∧ cfg.shared.depth.toNat = takes t log - gives t log) := by
  let cfg₀ : MutexConfig :=
    { shared := s31QueueInit s31QTypeMutex 1 0 (fun _ => 0) (some 7)
      seq := fun _ => 0
      pc := fun _ => .idle }
  have hmade : xQueueCreateMutex (fun _ => some fun _ => 0) (some 7) 1 = some cfg₀.shared := rfl
  have hrun : Run mutexCode (fun _ _ _ => True) cfg₀ _ _ := Run.of_exec (fun _ _ _ => trivial)
    (show exec mutexCode cfg₀
    [(⟨1, 10, false⟩, .call (.xQueueSemaphoreTake 0) 0), (⟨1, 10, false⟩, .go 0),
      (⟨1, 10, false⟩, .go 0), (⟨1, 10, false⟩, .call (.xQueueTakeMutexRecursive 5) 1),
      (⟨1, 10, false⟩, .go 1), (⟨1, 10, false⟩, .go 1)] = some _ from rfl)
  exact ⟨_, _, rfl, rfl,
    (mutex_correct hmade (fun _ => rfl) hrun (nested_of_length (by decide))).1⟩

end EspS31.Rtos
