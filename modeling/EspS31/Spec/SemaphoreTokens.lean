import EspS31.ForStd.CallHistory
import EspS31.Native.Queue

/-!
# Tokens of a semaphore

A semaphore is a queue without items, of the semaphore type or of another type that
is not the mutex type.  Any number of tasks and ISRs give and take it.

## Key results

- `calls_tokenSection`: every call gives a token, takes one, or finds none and changes
  nothing
- `semaphore_conserved`: the count is what was given less what was taken
-/

namespace EspS31.Rtos.Semaphore

open SyncProtocol

/-! ## The calls on one semaphore -/

/-- Every copy position but overwriting, which sends to a full queue. -/
abbrev CopyPosition := { copy : BaseType // copy ≠ s31QueueOverwrite }

/-- The calls on a semaphore. -/
inductive SemOp where
  | xQueueGenericSend (item : Option (List UInt8)) (timeout : TickType) (copy : CopyPosition)
  | xQueueGenericSendFromISR (item : Option (List UInt8)) (woken : Option BaseType)
      (copy : CopyPosition)
  | xQueueGiveFromISR (woken : Option BaseType)
  | xQueueSemaphoreTake (timeout : TickType)
  | xQueueReceive (item : Bool) (timeout : TickType)
  | xQueueReceiveFromISR (item : Bool) (woken : Option BaseType)
deriving DecidableEq, Repr

/-- The calls that give a token. -/
def SemOp.isGive : SemOp → Bool
  | .xQueueGenericSend _ _ _ | .xQueueGenericSendFromISR _ _ _ | .xQueueGiveFromISR _ => true
  | .xQueueSemaphoreTake _ | .xQueueReceive _ _ | .xQueueReceiveFromISR _ _ => false

/-- Threads that work on one semaphore. -/
abbrev SemConfig := Config Thread Unit S31Queue Ret TickType SemOp

/-- The functions on a semaphore. -/
def semCode : Entry Thread Unit S31Queue Ret TickType SemOp
  | th, .xQueueGenericSend item timeout copy, q => (q, xQueueGenericSend th () item timeout copy q)
  | th, .xQueueGenericSendFromISR item woken copy, q =>
    (q, xQueueGenericSendFromISR th () item woken copy q)
  | th, .xQueueGiveFromISR woken, q => (q, xQueueGiveFromISR th () woken q)
  | th, .xQueueSemaphoreTake timeout, q => (q, xQueueSemaphoreTake th () timeout q)
  | th, .xQueueReceive item timeout, q => (q, xQueueReceive th () item timeout q)
  | _, .xQueueReceiveFromISR item woken, q => (q, xQueueReceiveFromISR () item woken q)

/-! ## Sections -/

/-- A live semaphore of at most `max` tokens. -/
structure SemRep (max : UInt32) (q : S31Queue) : Prop where
  valid : s31QueueValid q
  type : q.type ≠ s31QTypeMutex
  capacity : q.capacity = max
  pos : max ≠ 0
  bound : q.count ≤ max

/-- One token more, or one less. -/
structure Moved (give : Bool) (q q' : S31Queue) : Prop where
  type : q'.type = q.type
  capacity : q'.capacity = q.capacity
  context : q'.waitContext = q.waitContext
  possible : if give then q.count < q.capacity else q.count ≠ 0
  count : q'.count = if give then q.count + 1 else q.count - 1

/-- What keeps a call from moving a token. -/
def Stuck (give : Bool) (q : S31Queue) : Prop :=
  if give then q.count = q.capacity else q.count = 0

/-- The value an outcome reports. -/
def reported : Outcome Ret → Ret
  | .done ret _ | .unmet ret => ret

/-- The section moves a token, or finds it cannot and changes nothing. -/
def TokenSection (give : Bool) (f : S31Queue → S31Queue × Outcome Ret) : Prop :=
  ∀ max q, SemRep max q →
    (∃ ret wake, (f q).2 = .done ret wake ∧ ret.rc = pdTRUE ∧ Moved give q (f q).1) ∨
      ((f q).1 = q ∧ (reported (f q).2).rc = pdFALSE ∧ Stuck give q)

section

variable {max : UInt32} {q : S31Queue}

/-- A semaphore that is not below its capacity is at it. -/
theorem SemRep.full (h : SemRep max q) (hge : ¬ q.count < q.capacity) : q.count = q.capacity := by
  rw [h.capacity] at hge ⊢
  exact UInt32.le_antisymm h.bound (UInt32.not_lt.mp hge)

/-- The common part of the two sends, for queues without items. -/
private theorem sendLocked_moves (h : SemRep max q) (t : TaskHandle) (item : Option (List UInt8))
    {copy : BaseType} (hcopy : copy ≠ s31QueueOverwrite) :
    ((s31QueueSendLocked t q item copy).2 = pdTRUE ∧
        Moved true q (s31QueueSendLocked t q item copy).1) ∨
      (s31QueueSendLocked t q item copy = (q, pdFAIL) ∧ Stuck true q) := by
  unfold s31QueueSendLocked
  rw [if_neg h.type]
  -- a token fits in
  by_cases hlt : q.count < q.capacity
  · have hnge : ¬ q.count ≥ q.capacity := UInt32.not_le.mpr hlt
    refine .inl ?_
    by_cases hsem : q.type = s31QTypeSem
    · rw [if_pos hsem, if_neg hnge]
      exact ⟨rfl, rfl, rfl, rfl, hlt, rfl⟩
    · have hgo : ¬ (q.capacity = 0 ∨ (q.count ≥ q.capacity ∧ copy ≠ s31QueueOverwrite)) :=
        not_or.mpr ⟨h.capacity ▸ h.pos, fun hfull => hnge hfull.1⟩
      rw [if_neg hsem, if_neg hgo]
      exact ⟨rfl, rfl, rfl, rfl, hlt, if_pos hlt⟩
  -- it is full, in either kind of object
  · have hge : q.count ≥ q.capacity := UInt32.not_lt.mp hlt
    refine .inr ⟨?_, h.full hlt⟩
    by_cases hsem : q.type = s31QTypeSem
    · rw [if_pos hsem, if_pos hge]
    · rw [if_neg hsem, if_pos (Or.inr ⟨hge, hcopy⟩)]

/-- A take moves a token or finds none. -/
private theorem takeLocked_moves (h : SemRep max q) (item : Bool) :
    ((s31QueueTakeLocked q item).2.2 = pdTRUE ∧ Moved false q (s31QueueTakeLocked q item).1) ∨
      (s31QueueTakeLocked q item = (q, none, pdFALSE) ∧ Stuck false q) := by
  unfold s31QueueTakeLocked
  by_cases hcount : q.count = 0
  · rw [if_pos (Or.inl hcount)]
    exact .inr ⟨rfl, hcount⟩
  · rw [if_neg (not_or.mpr ⟨hcount, h.capacity ▸ h.pos⟩)]
    exact .inl ⟨rfl, rfl, rfl, rfl, hcount, rfl⟩

end

/-- A send gives a token or fails at the bound. -/
private theorem sendSection_tokens (t : TaskHandle) (item : Option (List UInt8))
    (copy : CopyPosition) :
    TokenSection true (sendSection t item copy) := by
  intro max q h
  unfold sendSection
  split
  · obtain ⟨hrc, hmoved⟩ | ⟨heq, hstuck⟩ := sendLocked_moves h t item copy.2
    · exact .inl ⟨_, _, rfl, hrc, hmoved⟩
    · rw [heq]
      exact .inr ⟨rfl, rfl, hstuck⟩
  · next hno =>
    have hge : ¬ q.count < q.capacity := fun hlt => hno (.inr (.inr (.inl hlt)))
    exact .inr ⟨rfl, rfl, h.full hge⟩

/-- A send in an interrupt gives a token or fails at the bound. -/
private theorem sendFromISRSection_tokens (t : TaskHandle) (item : Option (List UInt8))
    (woken : Option BaseType) (copy : CopyPosition) :
    TokenSection true (SyncCall.onceBody (sendFromISRSection t item woken copy)) := by
  intro max q h
  unfold SyncCall.onceBody sendFromISRSection
  rw [if_neg h.type]
  dsimp only
  -- a semaphore is counted here, a queue without items through the send
  split
  · split
    · next hge => exact .inr ⟨rfl, rfl, h.full (UInt32.not_lt.mpr hge)⟩
    · next hge =>
      exact .inl ⟨_, _, rfl, rfl, rfl, rfl, rfl, UInt32.not_le.mp hge, rfl⟩
  · obtain ⟨hrc, hmoved⟩ | ⟨heq, hstuck⟩ := sendLocked_moves h t item copy.2
    · exact .inl ⟨_, _, rfl, hrc, hmoved⟩
    · rw [heq]
      exact .inr ⟨rfl, rfl, hstuck⟩

/-- A receive takes a token or finds none. -/
private theorem receiveSection_tokens (item : Bool) : TokenSection false (receiveSection item) := by
  intro max q h
  unfold receiveSection
  split
  · obtain ⟨hrc, hmoved⟩ | ⟨heq, hstuck⟩ := takeLocked_moves h item
    · exact .inl ⟨_, _, rfl, hrc, hmoved⟩
    · rw [heq]
      exact .inr ⟨rfl, rfl, hstuck⟩
  · next hno =>
    have hcount : q.count = 0 := by
      by_contra hne
      exact hno ⟨h.type, hne⟩
    exact .inr ⟨rfl, rfl, hcount⟩

/-- A receive in an interrupt takes a token or finds none. -/
private theorem receiveFromISRSection_tokens (item : Bool) (woken : Option BaseType) :
    TokenSection false (SyncCall.onceBody (receiveFromISRSection item woken)) := by
  intro max q h
  unfold SyncCall.onceBody receiveFromISRSection
  rw [if_neg h.type]
  obtain ⟨hrc, hmoved⟩ | ⟨heq, hstuck⟩ := takeLocked_moves h item
  · exact .inl ⟨_, _, rfl, hrc, hmoved⟩
  · dsimp only
    rw [heq]
    exact .inr ⟨rfl, rfl, hstuck⟩

/-- A take takes a token or finds none. -/
private theorem semaphoreTakeSection_tokens (t : TaskHandle) :
    TokenSection false (semaphoreTakeSection t) := by
  intro max q h
  unfold semaphoreTakeSection
  rw [if_neg h.type]
  split
  · next hcount => exact .inl ⟨_, _, rfl, rfl, rfl, rfl, rfl, hcount, rfl⟩
  · next hcount => exact .inr ⟨rfl, rfl, not_not.mp hcount⟩

/-- A section that finds its condition unmet reports failure, whatever the queue. -/
def Refuses (f : S31Queue → S31Queue × Outcome Ret) : Prop :=
  ∀ q q' ret, f q = (q', .unmet ret) → ret.rc = pdFALSE

/-- A call of one section refuses nothing. -/
private theorem refuses_once (body : S31Queue → S31Queue × Ret × Bool) :
    Refuses (SyncCall.onceBody body) := fun _ _ _ h => nomatch (Prod.mk.inj h).2

/-- A send that is refused would fail. -/
private theorem sendSection_refuses (t : TaskHandle) (item : Option (List UInt8))
    (copy : BaseType) :
    Refuses (sendSection t item copy) := by
  intro q q' ret h
  unfold sendSection at h
  split at h
  · exact nomatch (Prod.mk.inj h).2
  · obtain rfl := Outcome.unmet.inj (Prod.mk.inj h).2
    rfl

/-- A receive that is refused would fail. -/
private theorem receiveSection_refuses (item : Bool) : Refuses (receiveSection item) := by
  intro q q' ret h
  unfold receiveSection at h
  split at h
  · exact nomatch (Prod.mk.inj h).2
  · obtain rfl := Outcome.unmet.inj (Prod.mk.inj h).2
    rfl

/-- A take that is refused would fail. -/
private theorem semaphoreTakeSection_refuses (t : TaskHandle) :
    Refuses (semaphoreTakeSection t) := by
  intro q q' ret h
  unfold semaphoreTakeSection at h
  split at h
  · split at h
    · exact nomatch (Prod.mk.inj h).2
    · split at h
      · exact nomatch (Prod.mk.inj h).2
      · obtain rfl := Outcome.unmet.inj (Prod.mk.inj h).2
        rfl
  · split at h
    · exact nomatch (Prod.mk.inj h).2
    · obtain rfl := Outcome.unmet.inj (Prod.mk.inj h).2
      rfl

/-- What a call is made of: one section that moves a token, and no closing section. -/
structure TokenCall (give : Bool) (c : SyncCall Unit S31Queue Ret TickType) : Prop where
  body : TokenSection give c.body
  refuses : Refuses c.body
  closing : ∀ late, c.closing late = none

/-- A call of one section on the tokens. -/
private theorem tokenCall_once {give : Bool} {body : S31Queue → S31Queue × Ret × Bool}
    (h : TokenSection give (SyncCall.onceBody body)) : TokenCall give (.once () body) :=
  ⟨h, refuses_once body, fun _ => rfl⟩

/-- A call that waits, on the tokens. -/
private theorem tokenCall_loop {give : Bool} {timeout : TickType}
    {body : S31Queue → S31Queue × Outcome Ret} (h : TokenSection give body)
    (hrefuses : Refuses body) : TokenCall give (queueLoop () timeout body) :=
  ⟨h, hrefuses, fun late => by cases late <;> rfl⟩

/-- A send in an interrupt is a call on the tokens. -/
private theorem tokenCall_sendFromISR {th : Thread} {item : Option (List UInt8)}
    {woken : Option BaseType}
    (copy : CopyPosition) {q : S31Queue} {c : SyncCall Unit S31Queue Ret TickType}
    (h : xQueueGenericSendFromISR th () item woken copy q = .inr c) : TokenCall true c := by
  unfold xQueueGenericSendFromISR at h
  split at h
  · obtain rfl := Sum.inr.inj h
    exact tokenCall_once (sendFromISRSection_tokens _ _ _ copy)
  · exact nomatch h

/-- A receive in an interrupt is a call on the tokens. -/
private theorem tokenCall_receiveFromISR {item : Bool} {woken : Option BaseType} {q : S31Queue}
    {c : SyncCall Unit S31Queue Ret TickType} (h : xQueueReceiveFromISR () item woken q = .inr c) :
    TokenCall false c := by
  unfold xQueueReceiveFromISR at h
  split at h
  · obtain rfl := Sum.inr.inj h
    exact tokenCall_once (receiveFromISRSection_tokens _ _)
  · exact nomatch h

/-- Every call is a give or a take. -/
theorem calls_tokenSection {th : Thread} {op : SemOp} {c : SyncCall Unit S31Queue Ret TickType}
    (h : Calls semCode th op c) : TokenCall op.isGive c := by
  -- a call gives a token or takes one, by a single section or by a loop over it
  obtain ⟨q, q', h⟩ := h
  cases op with
  | xQueueGenericSend item timeout copy =>
    obtain ⟨-, h⟩ := Prod.mk.inj h
    unfold xQueueGenericSend at h
    split at h
    · split at h
      · exact tokenCall_sendFromISR copy h
      · obtain rfl := Sum.inr.inj h
        exact tokenCall_loop (sendSection_tokens _ _ copy) (sendSection_refuses _ _ _)
    · exact nomatch h
  | xQueueGenericSendFromISR item woken copy => exact tokenCall_sendFromISR copy (Prod.mk.inj h).2
  | xQueueGiveFromISR woken =>
    exact tokenCall_sendFromISR ⟨s31QueueSendToBack, by decide⟩ (Prod.mk.inj h).2
  | xQueueSemaphoreTake timeout =>
    obtain ⟨-, h⟩ := Prod.mk.inj h
    unfold xQueueSemaphoreTake at h
    split at h
    · obtain rfl := Sum.inr.inj h
      exact tokenCall_loop (semaphoreTakeSection_tokens _) (semaphoreTakeSection_refuses _)
    · exact nomatch h
  | xQueueReceive item timeout =>
    obtain ⟨-, h⟩ := Prod.mk.inj h
    unfold xQueueReceive at h
    split at h
    · split at h
      · exact tokenCall_receiveFromISR h
      · obtain rfl := Sum.inr.inj h
        exact tokenCall_loop (receiveSection_tokens _) (receiveSection_refuses _)
    · exact nomatch h
  | xQueueReceiveFromISR item woken => exact tokenCall_receiveFromISR (Prod.mk.inj h).2

/-- A call on a live semaphore goes on to its section. -/
private theorem semCode_live {th : Thread} {op : SemOp} {q q' : S31Queue} {r : Ret}
    (hlive : s31QueueValid q) : semCode th op q ≠ (q', .inl r) := by
  intro h
  cases op with
  | xQueueGenericSend | xQueueReceive =>
    cases hisr : th.inIsr <;>
      simp [semCode, xQueueGenericSend, xQueueGenericSendFromISR, xQueueReceive,
        xQueueReceiveFromISR, hlive, hisr] at h
  | xQueueGenericSendFromISR | xQueueGiveFromISR | xQueueSemaphoreTake | xQueueReceiveFromISR =>
    simp [semCode, xQueueGenericSendFromISR, xQueueGiveFromISR, xQueueSemaphoreTake,
      xQueueReceiveFromISR, hlive] at h

/-- Entering a call leaves the semaphore. -/
private theorem semCode_queue {th : Thread} {op : SemOp} {q q' : S31Queue}
    {x : Ret ⊕ SyncCall Unit S31Queue Ret TickType} (h : semCode th op q = (q', x)) : q' = q := by
  cases op <;> exact (Prod.mk.inj h).1.symm

/-! ## Counting tokens -/

/-- A give has just succeeded. -/
def gave (x : Thread × Event SemOp Ret) : Bool :=
  x.2.decided.any fun d => d.1.isGive && decide (d.2.rc = pdTRUE)

/-- A take has just succeeded. -/
def took (x : Thread × Event SemOp Ret) : Bool :=
  x.2.decided.any fun d => !d.1.isGive && decide (d.2.rc = pdTRUE)

/-- The gives that succeeded. -/
def gives (log : List (Thread × Event SemOp Ret)) : Nat := log.countP gave

/-- The takes that succeeded. -/
def takes (log : List (Thread × Event SemOp Ret)) : Nat := log.countP took

/-- One event more is one give more or none. -/
theorem gives_snoc (log : List (Thread × Event SemOp Ret)) (x : Thread × Event SemOp Ret) :
    gives (log ++ [x]) = gives log + if gave x then 1 else 0 := by
  simp only [gives, List.countP_append, List.countP_singleton]

/-- One event more is one take more or none. -/
theorem takes_snoc (log : List (Thread × Event SemOp Ret)) (x : Thread × Event SemOp Ret) :
    takes (log ++ [x]) = takes log + if took x then 1 else 0 := by
  simp only [takes, List.countP_append, List.countP_singleton]

/-- A failed call is counted by neither. -/
private theorem not_counted {t : Thread} {e : Event SemOp Ret} {op : SemOp} {ret : Ret}
    (hdec : e.decided = some (op, ret)) (hrc : ret.rc = pdFALSE) :
    gave (t, e) = false ∧ took (t, e) = false := by
  simp [gave, took, hdec, hrc, pdFALSE, pdTRUE]

/-- An event that decides nothing counts for nothing. -/
private theorem not_counted_of_open {t : Thread} {e : Event SemOp Ret} (hdec : e.decided = none) :
    gave (t, e) = false ∧ took (t, e) = false := by
  simp [gave, took, hdec]

/-- The semaphore after one token has moved. -/
theorem Moved.rep {max : UInt32} {give : Bool} {q q' : S31Queue} (h : Moved give q q')
    (hq : SemRep max q) :
    SemRep max q' ∧ q'.count.toNat + (if give then 0 else 1) =
      q.count.toNat + if give then 1 else 0 := by
  have hcap := hq.capacity
  have hbound := UInt32.le_iff_toNat_le.mp hq.bound
  have hcount : q'.count.toNat + (if give then 0 else 1) =
      q.count.toNat + (if give then 1 else 0) ∧ q'.count.toNat ≤ max.toNat := by
    have hpossible := h.possible
    rw [h.count]
    cases give with
    | true =>
      -- below the capacity the count does not wrap
      have hlt := UInt32.lt_iff_toNat_lt.mp hpossible
      have hmax := max.toNat_lt
      rw [hcap] at hlt
      simp only [↓reduceIte, UInt32.toNat_add, UInt32.toNat_one]
      omega
    | false =>
      have hne : q.count.toNat ≠ 0 := fun h0 => hpossible (UInt32.toNat_inj.mp h0)
      have hone : (1 : UInt32) ≤ q.count := by
        rw [UInt32.le_iff_toNat_le]
        exact Nat.one_le_iff_ne_zero.mpr hne
      simp only [Bool.false_eq_true, ↓reduceIte, UInt32.toNat_sub_of_le _ _ hone,
        UInt32.toNat_one]
      omega
  refine ⟨⟨?_, ?_, ?_, hq.pos, ?_⟩, hcount.1⟩
  · rw [s31QueueValid, h.context]
    exact hq.valid
  · rw [h.type]
    exact hq.type
  · rw [h.capacity, hcap]
  · exact UInt32.le_iff_toNat_le.mpr hcount.2

section

variable {max : UInt32} {cfg cfg' : SemConfig} {t : Thread} {e : Event SemOp Ret}

/-- The section of a call, by what it decides. -/
private theorem section_cases (hsound : cfg.Sound semCode) (hrep : SemRep max cfg.shared)
    {op : SemOp}
    {out : Outcome Ret} (h : Step semCode cfg t (.locked op out) cfg') :
    (∃ ret wake, out = .done ret wake ∧ ret.rc = pdTRUE ∧
        Moved op.isGive cfg.shared cfg'.shared) ∨
      (cfg'.shared = cfg.shared ∧ (reported out).rc = pdFALSE ∧ Stuck op.isGive cfg.shared) := by
  obtain ⟨c, start, seq, hpc, hbody⟩ := h.locked_inv
  have hc := (calls_tokenSection (hsound t op c (by rw [hpc]; rfl))).body max cfg.shared hrep
  rw [hbody] at hc
  exact hc

/-- A step keeps the semaphore and counts the token it moves. -/
private theorem step_tokens (hsound : cfg.Sound semCode) (hrep : SemRep max cfg.shared)
    (hrefusal : ∀ op c ret, (cfg.pc t).refusal = some (op, c, ret) → ret.rc = pdFALSE)
    (h : Step semCode cfg t e cfg') :
    SemRep max cfg'.shared ∧
      cfg'.shared.count.toNat + (if took (t, e) then 1 else 0) =
        cfg.shared.count.toNat + if gave (t, e) then 1 else 0 := by
  -- a step that moves no token leaves the semaphore alone
  have still : cfg'.shared = cfg.shared → gave (t, e) = false ∧ took (t, e) = false →
      SemRep max cfg'.shared ∧ cfg'.shared.count.toNat + (if took (t, e) then 1 else 0) =
        cfg.shared.count.toNat + if gave (t, e) then 1 else 0 := by
    rintro hsame ⟨hgave, htook⟩
    rw [hsame, hgave, htook]
    exact ⟨hrep, rfl⟩
  cases e with
  | enter op r =>
    cases r with
    | none =>
      obtain ⟨c, hcode⟩ := h.entered_inv
      exact still (semCode_queue hcode) (not_counted_of_open rfl)
    | some r => exact absurd h.refused_inv (semCode_live hrep.valid)
  | locked op out =>
    obtain ⟨ret, wake, rfl, hrc, hmoved⟩ | ⟨hsame, hrc, -⟩ := section_cases hsound hrep h
    · obtain ⟨hrep', hcount⟩ := hmoved.rep hrep
      refine ⟨hrep', ?_⟩
      cases hgive : op.isGive <;> rw [hgive] at hcount <;>
        simpa [gave, took, Event.decided, hgive, hrc] using hcount
    · refine still hsame ?_
      cases out with
      | done ret wake => exact not_counted rfl hrc
      | unmet ret => exact not_counted_of_open rfl
  | closed op r =>
    obtain ⟨c, late, f, hpc, hf, -⟩ := h.closed_inv
    exact nomatch ((calls_tokenSection (hsound t op c (by rw [hpc]; rfl))).closing late).symm.trans hf
  | gaveUp op r =>
    obtain ⟨c, hr⟩ := h.gaveUp
    exact still (h.quiet_shared trivial) (not_counted rfl (hrefusal op c r hr))
  | woke | silent => exact still (h.quiet_shared trivial) (not_counted_of_open rfl)

end

section

variable {max : UInt32} {ok : SemConfig → Thread → Choice SemOp TickType → Prop}
  {cfg₀ cfg : SemConfig} {log pre post : List (Thread × Event SemOp Ret)}
  {t : Thread} {e : Event SemOp Ret}

/-- Over a run the semaphore is kept and its tokens are conserved. -/
private theorem run_tokens (hrun : Run semCode ok cfg₀ log cfg) (hidle : ∀ t, cfg₀.pc t = .idle)
    (hrep : SemRep max cfg₀.shared) :
    SemRep max cfg.shared ∧
      cfg.shared.count.toNat + takes log = cfg₀.shared.count.toNat + gives log := by
  induction hrun with
  | nil => exact ⟨hrep, rfl⟩
  | @snoc log cfg t ch e cfg' hrun _ hstep ih =>
    obtain ⟨hrep', hcount⟩ := ih
    have hsound := hrun.sound (Config.sound_of_idle hidle)
    -- a reply kept for later is that of a section that was refused
    have hrefusal : ∀ op c ret, (cfg.pc t).refusal = some (op, c, ret) → ret.rc = pdFALSE := by
      intro op c ret hr
      obtain ⟨q, q', hbody⟩ := hrun.refusal hidle hr
      exact (calls_tokenSection (hsound t op c (Pc.call?_of_refusal hr))).refuses q q' ret hbody
    obtain ⟨hrep'', hmove⟩ := step_tokens hsound hrep' hrefusal (Step.of_step hstep)
    refine ⟨hrep'', ?_⟩
    rw [gives_snoc, takes_snoc]
    omega

/-- A call on a live semaphore is not decided at its entry. -/
theorem run_decided_not_enter (hrun : Run semCode ok cfg₀ (pre ++ (t, e) :: post) cfg)
    (hidle : ∀ t, cfg₀.pc t = .idle) (hrep : SemRep max cfg₀.shared) {op : SemOp} {ret : Ret}
    (hdec : e.decided = some (op, ret)) : ¬ e.IsEnter := by
  intro henter
  obtain ⟨ch, cfg₁, cfg₂, hpre, -, hstep, -⟩ := hrun.split
  have hlive := (run_tokens hpre hidle hrep).1.valid
  cases e with
  | enter op r =>
    cases r with
    | none => exact nomatch hdec
    | some r => exact semCode_live hlive (Step.of_step hstep).refused_inv
  | _ => exact henter

/-- The event that fails a call leaves the semaphore alone. -/
private theorem step_failed {cfg' : SemConfig} (hsound : cfg.Sound semCode)
    (hrep : SemRep max cfg.shared)
    (h : Step semCode cfg t e cfg') {op : SemOp} {ret : Ret} (hdec : e.decided = some (op, ret))
    (hrc : ret.rc ≠ pdTRUE) :
    cfg'.shared = cfg.shared ∧ (e.IsSection → Stuck op.isGive cfg.shared) := by
  cases e with
  | enter op r =>
    cases r with
    -- the call is entered and nothing decided
    | none => exact nomatch hdec
    | some r => exact absurd h.refused_inv (semCode_live hrep.valid)
  | locked op out =>
    obtain ⟨ret, wake, rfl, hok, -⟩ | ⟨hsame, -, hstuck⟩ := section_cases hsound hrep h
    -- a token has moved, so the call has succeeded
    · obtain ⟨-, rfl⟩ := Prod.mk.inj (Option.some.inj hdec)
      exact absurd hok hrc
    · cases out with
      | unmet r => exact nomatch hdec
      | done r wake =>
        obtain ⟨rfl, -⟩ := Prod.mk.inj (Option.some.inj hdec)
        exact ⟨hsame, fun _ => hstuck⟩
  | closed op r =>
    obtain ⟨c, late, f, hpc, hf, -⟩ := h.closed_inv
    exact nomatch ((calls_tokenSection (hsound t op c (by rw [hpc]; rfl))).closing late).symm.trans hf
  | gaveUp => exact ⟨h.quiet_shared trivial, False.elim⟩
  | woke | silent => exact nomatch hdec

end

/-! ## Histories -/

/-- Semaphores and the tokens they start with, by creator. -/
inductive Made : UInt32 → UInt32 → S31Queue → Prop where
  | counting {malloc ctx max initial q}
    (h : xQueueCreateCountingSemaphore malloc ctx max initial = some q) : Made max initial q
  | generic {malloc ctx max type q} (htype : type.toUInt32 ≠ s31QTypeMutex)
    (h : xQueueGenericCreate malloc ctx max 0 type = some q) : Made max 0 q

/-- A semaphore starts with its first tokens. -/
theorem Made.rep {max initial : UInt32} {q : S31Queue} (h : Made max initial q) :
    SemRep max q ∧ q.count = initial := by
  -- either function refuses a capacity of zero and then sets all the fields
  cases h with
  | counting h =>
    unfold xQueueCreateCountingSemaphore at h
    split at h
    · exact nomatch h
    · next hargs =>
      obtain ⟨storage, -, h⟩ := Option.bind_eq_some_iff.mp h
      dsimp only at h
      split at h
      · next hctx =>
        obtain rfl := Option.some.inj h
        have hle := UInt32.not_lt.mp (not_or.mp hargs).2
        have htype : s31QTypeSem ≠ s31QTypeMutex := by decide
        exact ⟨⟨hctx, htype, rfl, (not_or.mp hargs).1, hle⟩, rfl⟩
      · exact nomatch h
  | generic htype h =>
    unfold xQueueGenericCreate at h
    split at h
    · exact nomatch h
    · next hargs =>
      obtain ⟨storage, -, h⟩ := Option.bind_eq_some_iff.mp h
      dsimp only at h
      split at h
      · next hctx =>
        obtain rfl := Option.some.inj h
        exact ⟨⟨hctx, htype, rfl, (not_or.mp hargs).1, UInt32.zero_le⟩, rfl⟩
      · exact nomatch h

/-- What the history of a run says about its calls on a semaphore. -/
structure Conserved (max initial : UInt32)
    (ok : SemConfig → Thread → Choice SemOp TickType → Prop) (cfg₀ : SemConfig)
    (log : List (Thread × Event SemOp Ret)) (cfg : SemConfig) : Prop where
  /-- The tokens are those there were, less those taken, plus those given. -/
  count : cfg.shared.count.toNat + takes log = initial.toNat + gives log
  bound : cfg.shared.count ≤ max
  /-- A failed give has found the semaphore full in its last section, a failed take has
      found it empty. -/
  stuck : ∀ pre post t e op ret, log = pre ++ (t, e) :: post → e.decided = some (op, ret) →
    ret.rc ≠ pdTRUE →
    ∃ pre₁ e₁ mid, pre ++ [(t, e)] = pre₁ ++ (t, e₁) :: mid ∧ e₁.IsSection ∧
      (∀ x ∈ mid, x.1 = t → ¬ x.2.IsSection ∧ ¬ x.2.IsEnter) ∧
      ∀ cfg₁, Run semCode ok cfg₀ pre₁ cfg₁ →
        cfg₁.shared.count = if op.isGive then max else 0
  /-- No event of a failed call, from its entry to the event that decides it, changes
      the semaphore. -/
  untouched : ∀ pre post t e op ret, log = pre ++ (t, e) :: post → e.decided = some (op, ret) →
    ret.rc ≠ pdTRUE →
    ∀ pre₁ e₁ mid, pre ++ [(t, e)] = pre₁ ++ (t, e₁) :: mid →
      (∀ x ∈ mid, x.1 = t → ¬ x.2.IsEnter) →
      ∀ ch cfg₁ cfg₂, Run semCode ok cfg₀ pre₁ cfg₁ →
        step semCode cfg₁ t ch = some (e₁, cfg₂) → cfg₂.shared = cfg₁.shared

section

variable {max initial : UInt32} {ok : SemConfig → Thread → Choice SemOp TickType → Prop}
  {cfg₀ cfg : SemConfig} {log : List (Thread × Event SemOp Ret)}

/-- Two runs with the same history leave the same count. -/
private theorem count_eq_of_runs (hidle : ∀ t, cfg₀.pc t = .idle) (hrep : SemRep max cfg₀.shared)
    {cfg' : SemConfig} (h : Run semCode ok cfg₀ log cfg) (h' : Run semCode ok cfg₀ log cfg') :
    cfg'.shared.count = cfg.shared.count := by
  have hcount := (run_tokens h hidle hrep).2
  have hcount' := (run_tokens h' hidle hrep).2
  exact UInt32.toNat_inj.mp (by omega)

/-- For every run of any number of tasks and ISRs on one semaphore. -/
theorem semaphore_conserved (hmade : Made max initial cfg₀.shared)
    (hidle : ∀ t, cfg₀.pc t = .idle) (hrun : Run semCode ok cfg₀ log cfg) :
    Conserved max initial ok cfg₀ log cfg := by
  obtain ⟨hrep, hinitial⟩ := hmade.rep
  have hsound₀ : cfg₀.Sound semCode := Config.sound_of_idle hidle
  obtain ⟨hrep', hcount⟩ := run_tokens hrun hidle hrep
  refine ⟨hinitial ▸ hcount, hrep'.bound, ?_, ?_⟩
  · intro pre post t e op ret hlog hdec hrc
    subst hlog
    obtain ⟨pre₁, e₁, mid, hsplit, he₁, hmid⟩ :=
      hrun.last_section hidle hdec (run_decided_not_enter hrun hidle hrep hdec)
    have hlog : pre ++ (t, e) :: post = pre₁ ++ (t, e₁) :: (mid ++ post) := by
      rw [← List.singleton_append, ← List.append_assoc, hsplit]
      simp
    obtain ⟨ch, cfg₁, cfg₂, hpre₁, -, hstep, -⟩ := (hlog ▸ hrun).split
    have hrep₁ := (run_tokens hpre₁ hidle hrep).1
    have hsound := hpre₁.sound hsound₀
    -- the last section is the failing one, or the one whose failure is returned
    have hlast : e₁.IsSection ∧ Stuck op.isGive cfg₁.shared := by
      obtain ⟨rfl, hsec⟩ | rfl := he₁
      · exact ⟨hsec, (step_failed hsound hrep₁ (Step.of_step hstep) hdec hrc).2 hsec⟩
      · obtain ⟨_, _, hdone, -⟩ | ⟨-, -, hstuck⟩ :=
          section_cases hsound hrep₁ (Step.of_step hstep)
        · exact nomatch hdone
        · exact ⟨trivial, hstuck⟩
    refine ⟨pre₁, e₁, mid, hsplit, hlast.1, hmid, fun cfg₃ hpre₃ => ?_⟩
    rw [count_eq_of_runs hidle hrep hpre₁ hpre₃]
    have hstuck := hlast.2
    unfold Stuck at hstuck
    cases hgive : op.isGive with
    | true =>
      rw [hgive] at hstuck
      exact hstuck.trans hrep₁.capacity
    | false =>
      rw [hgive] at hstuck
      exact hstuck
  -- and no section of a failing call changes the semaphore
  · intro pre post t e op ret hlog hdec hrc pre₁ e₁ mid hsplit hmid ch cfg₁ cfg₂ hpre₁ hstep
    subst hlog
    have hrep₁ := (run_tokens hpre₁ hidle hrep).1
    have hsound := hpre₁.sound hsound₀
    have h := Step.of_step hstep
    obtain ⟨-, rfl⟩ | rfl | rfl | ⟨ret', rfl⟩ := hrun.call_event_cases hdec hsplit hmid
    · exact (step_failed hsound hrep₁ h hdec hrc).1
    · obtain ⟨c, hcode⟩ := h.entered_inv
      exact semCode_queue hcode
    · exact h.quiet_shared trivial
    · obtain ⟨_, _, hdone, -⟩ | ⟨hsame, -, -⟩ := section_cases hsound hrep₁ h
      · exact nomatch hdone
      · exact hsame

end

/-- A binary semaphore of the queue type: an ISR gives it twice and a task takes it. -/
theorem semaphore_conserved_binary :
    ∃ (cfg₀ : SemConfig) (log : List (Thread × Event SemOp Ret)) (cfg : SemConfig),
      Conserved 1 0 (fun _ _ _ => True) cfg₀ log cfg ∧ gives log = 1 ∧ takes log = 1 := by
  -- a give from an interrupt, a second one that finds it full, and a take
  let cfg₀ : SemConfig :=
    { shared := s31QueueInit 3 1 0 (fun _ => 0) (some 7)
      seq := fun _ => 0
      pc := fun _ => .idle }
  have hmade : Made 1 0 cfg₀.shared :=
    @Made.generic (fun _ => some fun _ => 0) (some 7) 1 3 _ (by decide) rfl
  have hrun : Run semCode (fun _ _ _ => True) cfg₀ _ _ := Run.of_exec (fun _ _ _ => trivial)
    (show exec semCode cfg₀
    [(⟨1, 1, true⟩, .call (.xQueueGiveFromISR none) 0), (⟨1, 1, true⟩, .go 0),
      (⟨1, 1, true⟩, .go 0), (⟨1, 1, true⟩, .call (.xQueueGiveFromISR none) 0),
      (⟨1, 1, true⟩, .go 0), (⟨2, 20, false⟩, .call (.xQueueSemaphoreTake 5) 0),
      (⟨2, 20, false⟩, .go 0), (⟨2, 20, false⟩, .go 0)] = some _ from rfl)
  exact ⟨cfg₀, _, _, semaphore_conserved hmade (fun _ => rfl) hrun, by decide, by decide⟩

end EspS31.Rtos.Semaphore
