import Mathlib.Data.List.GetD
import EspS31.ForStd.Ring
import EspS31.Native.Queue

/-!
# Queues are bounded double-ended queues

A queue that is neither a mutex nor a semaphore keeps `count` items of
`itemSize` bytes in a ring of `capacity` slots, starting at slot `head`.  This
file relates the locked sections of the queue calls to operations on the list
of items (`Deque`), for every sequence of operations.

## Key results

- `QueueRep`: the representation invariant, kept by every section
- `runOps_eq_deque`: sections and list operations agree on contents and replies
- `queue_refines_deque`: the refinement from creation on, with its frame
-/

namespace EspS31.Rtos

open SyncProtocol

/-! ## Byte buffers -/

namespace Buf

/-- Reading `n` bytes gives `n`. -/
private theorem read_length (b : Buf) (off n : Nat) : (b.read off n).length = n := by
  simp only [read, List.length_map, List.length_range]

/-- Bytes outside the written range keep their value. -/
private theorem write_of_not_mem (b : Buf) {off i : Nat} {bytes : List UInt8}
    (h : i < off ∨ off + bytes.length ≤ i) : b.write off bytes i = b i := by
  unfold write
  split
  · rw [List.getD_eq_default _ _ (by omega)]
  · rfl

/-- Reading back what was written. -/
private theorem read_write_self (b : Buf) (off : Nat) (bytes : List UInt8) :
    (b.write off bytes).read off bytes.length = bytes := by
  apply List.ext_getElem
  · rw [read_length]
  · intro j h₁ h₂
    simp only [read, write, List.getElem_map, List.getElem_range, Nat.le_add_right, ↓reduceIte,
      Nat.add_sub_cancel_left]
    exact List.getD_eq_getElem _ _ h₂

/-- Reading a range disjoint from the written one. -/
private theorem read_write_disjoint (b : Buf) {off off' n : Nat} {bytes : List UInt8}
    (h : off' + n ≤ off ∨ off + bytes.length ≤ off') :
    (b.write off bytes).read off' n = b.read off' n := by
  apply List.map_congr_left
  intro j hj
  have := List.mem_range.mp hj
  exact write_of_not_mem b (by omega)

end Buf

/-! ## The list of items a queue holds -/

/-- The bytes of slot `k`. -/
def S31Queue.slot (q : S31Queue) (k : Nat) : List UInt8 :=
  q.storage.read (k * q.itemSize.toNat) q.itemSize.toNat

/-- The items of the queue, oldest first. -/
def S31Queue.items (q : S31Queue) : List (List UInt8) :=
  (List.range q.count.toNat).map fun i => q.slot ((q.head.toNat + i) % q.capacity.toNat)

/-- The representation invariant of a queue proper: indices in range, and
    sizes for which the 32-bit index arithmetic does not wrap. -/
structure QueueRep (q : S31Queue) : Prop where
  not_mutex : q.type ≠ s31QTypeMutex
  not_sem : q.type ≠ s31QTypeSem
  head_lt : q.head.toNat < q.capacity.toNat
  count_le : q.count.toNat ≤ q.capacity.toNat
  capacity_le : q.capacity.toNat ≤ 2 ^ 31
  storage_le : q.capacity.toNat * q.itemSize.toNat ≤ 2 ^ 32

namespace QueueRep

variable {q : S31Queue}

/-- The ring a queue represents. -/
def ring (h : QueueRep q) : RingBuffer (List UInt8) where
  cap := q.capacity.toNat
  head := q.head.toNat
  count := q.count.toNat
  slots := q.slot
  head_lt := h.head_lt
  count_le := h.count_le

/-- The items are those of the ring. -/
private theorem items_eq (h : QueueRep q) : q.items = h.ring.toList := rfl

/-- There are `count` items. -/
private theorem length_items (h : QueueRep q) : q.items.length = q.count.toNat :=
  h.ring.length_toList

/-- A queue has room for some item. -/
private theorem capacity_ne_zero (h : QueueRep q) : q.capacity ≠ 0 := by
  intro h0
  have := h.head_lt
  rw [h0] at this
  exact Nat.not_lt_zero _ this

/-- The slot offset computed in 32 bits is the exact one. -/
private theorem toNat_slot_offset (h : QueueRep q) {idx : UInt32}
    (hidx : idx.toNat < q.capacity.toNat) :
    (idx * q.itemSize).toNat = idx.toNat * q.itemSize.toNat := by
  rw [UInt32.toNat_mul]
  apply Nat.mod_eq_of_lt
  have hle := h.storage_le
  rcases Nat.eq_zero_or_pos q.itemSize.toNat with h0 | hpos
  · rw [h0]; omega
  · calc idx.toNat * q.itemSize.toNat < q.capacity.toNat * q.itemSize.toNat :=
          (Nat.mul_lt_mul_right hpos).mpr hidx
      _ ≤ 2 ^ 32 := hle

/-- Storing an item updates its slot and no other. -/
private theorem slot_storeItem (h : QueueRep q) {idx : UInt32} (hidx : idx.toNat < q.capacity.toNat)
    {bytes : List UInt8} (hlen : bytes.length = q.itemSize.toNat) (k : Nat) :
    (q.storeItem idx (some bytes)).read (k * q.itemSize.toNat) q.itemSize.toNat =
      Function.update q.slot idx.toNat bytes k := by
  simp only [S31Queue.storeItem]
  split
  · rw [h.toNat_slot_offset hidx, List.take_of_length_le (by omega)]
    by_cases hk : k = idx.toNat
    · subst hk
      rw [Function.update_self, ← hlen, Buf.read_write_self]
    · rw [Function.update_of_ne hk]
      apply Buf.read_write_disjoint
      rw [hlen]
      rcases Nat.lt_or_gt_of_ne hk with hlt | hgt
      · left
        calc k * q.itemSize.toNat + q.itemSize.toNat = (k + 1) * q.itemSize.toNat := by
              rw [Nat.succ_mul]
          _ ≤ idx.toNat * q.itemSize.toNat := Nat.mul_le_mul_right _ hlt
      · right
        calc idx.toNat * q.itemSize.toNat + q.itemSize.toNat
            = (idx.toNat + 1) * q.itemSize.toNat := by rw [Nat.succ_mul]
          _ ≤ k * q.itemSize.toNat := Nat.mul_le_mul_right _ hgt
  · next h0 =>
    -- items of no bytes: every slot is the empty list
    have hsz : q.itemSize.toNat = 0 := by
      rw [ne_eq, Decidable.not_not] at h0; rw [h0]; rfl
    have hb : bytes = [] := List.eq_nil_of_length_eq_zero (by omega)
    have hempty : ∀ b : Buf, ∀ off, b.read off q.itemSize.toNat = [] := by
      intro b off; rw [hsz]; rfl
    rw [hempty, Function.update_apply, hb]
    split
    · rfl
    · exact (hempty _ _).symm

/-- Storing an item changes only bytes of its slot. -/
private theorem storeItem_frame (h : QueueRep q) {idx : UInt32}
    (hidx : idx.toNat < q.capacity.toNat)
    {bytes : List UInt8} (hlen : bytes.length = q.itemSize.toNat) {off : Nat}
    (hoff : off < idx.toNat * q.itemSize.toNat ∨
      idx.toNat * q.itemSize.toNat + q.itemSize.toNat ≤ off) :
    q.storeItem idx (some bytes) off = q.storage off := by
  simp only [S31Queue.storeItem]
  split
  · rw [h.toNat_slot_offset hidx, List.take_of_length_le (by omega)]
    exact Buf.write_of_not_mem _ (by omega)
  · rfl

/-! ## 32-bit index arithmetic -/

/-- The slot after `head`. -/
private theorem toNat_next (h : QueueRep q) :
    ((q.head + 1) % q.capacity).toNat = (q.head.toNat + 1) % q.capacity.toNat := by
  have h₁ := h.head_lt
  have h₂ := h.capacity_le
  rw [UInt32.toNat_mod, UInt32.toNat_add, UInt32.toNat_one]
  congr 1
  omega

/-- The slot before `head`. -/
private theorem toNat_prev (h : QueueRep q) :
    ((q.head + q.capacity - 1) % q.capacity).toNat =
      (q.head.toNat + q.capacity.toNat - 1) % q.capacity.toNat := by
  have h₁ := h.head_lt
  have h₂ := h.capacity_le
  rw [UInt32.toNat_mod, UInt32.toNat_sub, UInt32.toNat_add, UInt32.toNat_one]
  congr 1
  omega

/-- The slot behind the items. -/
private theorem toNat_tail (h : QueueRep q) :
    ((q.head + q.count) % q.capacity).toNat =
      (q.head.toNat + q.count.toNat) % q.capacity.toNat := by
  have h₁ := h.head_lt
  have h₂ := h.capacity_le
  have h₃ := h.count_le
  rw [UInt32.toNat_mod, UInt32.toNat_add]
  congr 1
  omega

/-- One item more does not overflow the count. -/
private theorem toNat_count_succ (h : QueueRep q) (hlt : q.count < q.capacity) :
    (q.count + 1).toNat = q.count.toNat + 1 := by
  have h₁ := UInt32.lt_iff_toNat_lt.mp hlt
  have h₂ := h.capacity_le
  rw [UInt32.toNat_add, UInt32.toNat_one, Nat.mod_eq_of_lt (by omega)]

end QueueRep

/-! ## Operations on queues and on lists of items -/

/-- The documented copy positions of a send. -/
inductive CopyMode where
  | back
  | front
  | overwrite
deriving DecidableEq, Repr

/-- The `copy` argument of the C calls. -/
def CopyMode.code : CopyMode → BaseType
  | .back => s31QueueSendToBack
  | .front => s31QueueSendToFront
  | .overwrite => s31QueueOverwrite

/-- One locked section on a queue.  `isr` selects the `FromISR` call, `woken`
    its flag argument; `buffer` is whether a take passes a buffer. -/
inductive QueueOp where
  | send (isr : Bool) (task : TaskHandle) (woken : Option BaseType) (item : List UInt8)
      (mode : CopyMode)
  | take (isr : Bool) (woken : Option BaseType) (buffer : Bool)
  | reset (newQueue : BaseType)
deriving DecidableEq, Repr

/-- Whether an operation succeeded, and the bytes it stored for its caller. -/
structure Reply where
  ok : Bool
  bytes : List UInt8
deriving DecidableEq, Repr

/-- What a call replies: success, and the item. -/
def Ret.reply : Ret → Reply
  | .received rc item | .isrReceived rc item _ => ⟨rc = pdTRUE, item.getD []⟩
  | ret => ⟨ret.rc = pdTRUE, []⟩

/-- What a section replies. -/
def outcomeReply : Outcome Ret → Reply
  | .done ret _ => ret.reply
  | .unmet _ => ⟨false, []⟩

/-- Run the locked section of an operation. -/
def QueueOp.run : QueueOp → S31Queue → S31Queue × Reply
  | .send false t _ item mode, q =>
    let r := sendSection t (some item) mode.code q
    (r.1, outcomeReply r.2)
  | .send true t woken item mode, q =>
    let r := sendFromISRSection t (some item) woken mode.code q
    (r.1, r.2.1.reply)
  | .take false _ buffer, q =>
    let r := receiveSection buffer q
    (r.1, outcomeReply r.2)
  | .take true woken buffer, q =>
    let r := receiveFromISRSection buffer woken q
    (r.1, r.2.1.reply)
  | .reset newQueue, q =>
    let r := genericResetSection newQueue q
    (r.1, r.2.1.reply)

/-- A send passes an item of the queue's size. -/
def QueueOp.Fits (itemSize : UInt32) : QueueOp → Prop
  | .send _ _ _ item _ => item.length = itemSize.toNat
  | _ => True

instance {itemSize : UInt32} : DecidablePred (QueueOp.Fits itemSize)
  | .send _ _ _ item _ => inferInstanceAs (Decidable (item.length = itemSize.toNat))
  | .take _ _ _ => isTrue trivial
  | .reset _ => isTrue trivial

/-- Where a send to a queue with room puts its item. -/
def CopyMode.insert (mode : CopyMode) (item : List UInt8) (l : List (List UInt8)) :
    List (List UInt8) :=
  match mode with
  | .front => item :: l
  | .back | .overwrite => l ++ [item]

/-- What an operation does to a double-ended queue of at most `cap` items. -/
def QueueOp.deque (cap : Nat) : QueueOp → List (List UInt8) → List (List UInt8) × Reply
  | .send _ _ _ item mode, l =>
    if l.length < cap then (mode.insert item l, ⟨true, []⟩)
    else
      match mode with
      | .overwrite => (l.tail ++ [item], ⟨true, []⟩)
      | .back | .front => (l, ⟨false, []⟩)
  | .take _ _ buffer, l =>
    match l with
    | [] => ([], ⟨false, []⟩)
    | x :: xs => (xs, ⟨true, if buffer then x else []⟩)
  | .reset _, _ => ([], ⟨true, []⟩)

/-- Run a sequence of operations, collecting the replies. -/
def runOps {σ : Type} (run : QueueOp → σ → σ × Reply) : List QueueOp → σ → σ × List Reply
  | [], s => (s, [])
  | op :: ops, s =>
    let r := run op s
    let rs := runOps run ops r.1
    (rs.1, r.2 :: rs.2)

/-! ## Sends -/

/-- The queue after an accepted send. -/
def S31Queue.sent (q : S31Queue) (item : List UInt8) (mode : CopyMode) : S31Queue :=
  { q with
    head := (q.sendSlot mode.code).1
    storage := q.storeItem (q.sendSlot mode.code).2 (some item)
    count := if q.count < q.capacity then q.count + 1 else q.count }

/-- A send is accepted unless the queue is full and the mode does not overwrite. -/
def S31Queue.accepts (q : S31Queue) (mode : CopyMode) : Prop :=
  q.count < q.capacity ∨ mode = .overwrite

namespace QueueRep

variable {q : S31Queue}

/-- A send that is accepted stores its item. -/
private theorem sendLocked_of_accepts (h : QueueRep q) (t : TaskHandle) (item : List UInt8)
    {mode : CopyMode} (hacc : q.accepts mode) :
    s31QueueSendLocked t q (some item) mode.code = (q.sent item mode, pdTRUE) := by
  have hcopy : ¬ (q.capacity = 0 ∨ (q.count ≥ q.capacity ∧ mode.code ≠ s31QueueOverwrite)) := by
    rintro (h0 | ⟨hge, hne⟩)
    · exact h.capacity_ne_zero h0
    · rcases hacc with hlt | rfl
      · exact absurd hlt (UInt32.not_lt.mpr hge)
      · exact hne rfl
  rw [s31QueueSendLocked, if_neg h.not_mutex, if_neg h.not_sem, if_neg hcopy]
  rfl

/-- A send that is not accepted changes nothing. -/
private theorem sendLocked_of_not_accepts (h : QueueRep q) (t : TaskHandle) (item : List UInt8)
    {mode : CopyMode} (hacc : ¬ q.accepts mode) :
    s31QueueSendLocked t q (some item) mode.code = (q, pdFAIL) := by
  obtain ⟨hge, hmode⟩ := not_or.mp hacc
  have hcopy : q.capacity = 0 ∨ (q.count ≥ q.capacity ∧ mode.code ≠ s31QueueOverwrite) := by
    refine .inr ⟨UInt32.not_lt.mp hge, ?_⟩
    cases mode with
    | back | front => decide
    | overwrite => exact absurd rfl hmode
  rw [s31QueueSendLocked, if_neg h.not_mutex, if_neg h.not_sem, if_pos hcopy]

/-- Both send calls run `s31_queue_send_locked`; a send that would not be
    accepted changes nothing in either. -/
private theorem run_send (h : QueueRep q) (isr : Bool) (t : TaskHandle) (woken : Option BaseType)
    (item : List UInt8) (mode : CopyMode) :
    (QueueOp.send isr t woken item mode).run q =
      ((s31QueueSendLocked t q (some item) mode.code).1,
        ⟨(s31QueueSendLocked t q (some item) mode.code).2 = pdTRUE, []⟩) := by
  cases isr with
  | true =>
    simp only [QueueOp.run, sendFromISRSection, if_neg h.not_mutex, if_neg h.not_sem]
    rfl
  | false =>
    simp only [QueueOp.run, sendSection]
    split
    · rfl
    · next hcond =>
      -- the queue is full and nothing is overwritten, so the section would have refused too
      have hacc : ¬ q.accepts mode := by
        rintro (hlt | rfl)
        · exact hcond (.inr (.inr (.inl hlt)))
        · exact hcond (.inr (.inr (.inr rfl)))
      rw [h.sendLocked_of_not_accepts t item hacc]
      rfl

/-- A send to the back writes the slot behind the items. -/
private theorem sendSlot_back (q : S31Queue) {mode : CopyMode} (hfront : mode ≠ .front)
    (hlt : q.count < q.capacity) :
    q.sendSlot mode.code = (q.head, (q.head + q.count) % q.capacity) := by
  have hfull : ¬ (mode.code = s31QueueOverwrite ∧ q.count = q.capacity) := by
    rintro ⟨-, heq⟩
    rw [heq] at hlt
    exact UInt32.lt_irrefl _ hlt
  have hne : mode.code ≠ s31QueueSendToFront := by
    cases mode with
    | back | overwrite => decide
    | front => exact absurd rfl hfront
  rw [S31Queue.sendSlot, if_neg hne, if_neg hfull]

/-- An overwrite of a full queue writes the oldest slot and goes on. -/
private theorem sendSlot_rotate (q : S31Queue) (heq : q.count = q.capacity) :
    q.sendSlot CopyMode.overwrite.code = ((q.head + 1) % q.capacity, q.head) := by
  rw [S31Queue.sendSlot, if_neg (by decide), if_pos ⟨rfl, heq⟩]

/-- The slots of a send lie in the storage. -/
private theorem sendSlot_lt (h : QueueRep q) (mode : CopyMode) :
    (q.sendSlot mode.code).1.toNat < q.capacity.toNat ∧
      (q.sendSlot mode.code).2.toNat < q.capacity.toNat := by
  have hpos : 0 < q.capacity.toNat := Nat.zero_lt_of_lt h.head_lt
  have hmod : ∀ x : UInt32, (x % q.capacity).toNat < q.capacity.toNat := by
    intro x
    rw [UInt32.toNat_mod]
    exact Nat.mod_lt _ hpos
  unfold S31Queue.sendSlot
  split
  · exact ⟨hmod _, hmod _⟩
  · split
    · exact ⟨hmod _, h.head_lt⟩
    · exact ⟨h.head_lt, hmod _⟩

/-- A send writes one slot. -/
private theorem slot_sent (h : QueueRep q) {item : List UInt8}
    (hlen : item.length = q.itemSize.toNat)
    (mode : CopyMode) :
    (q.sent item mode).slot = Function.update q.slot (q.sendSlot mode.code).2.toNat item :=
  funext fun k => h.slot_storeItem (h.sendSlot_lt mode).2 hlen k

/-- A send counts one item more, unless the queue was full. -/
private theorem count_sent (h : QueueRep q) (item : List UInt8) (mode : CopyMode) :
    (q.sent item mode).count.toNat =
      if q.count < q.capacity then q.count.toNat + 1 else q.count.toNat := by
  simp only [S31Queue.sent]
  split
  · next hlt => rw [h.toNat_count_succ hlt]
  · rfl

/-- An accepted send keeps the representation invariant. -/
theorem sent (h : QueueRep q) (item : List UInt8) (mode : CopyMode) :
    QueueRep (q.sent item mode) where
  not_mutex := h.not_mutex
  not_sem := h.not_sem
  head_lt := (h.sendSlot_lt mode).1
  count_le := by
    have hle := h.count_le
    rw [h.count_sent]
    split
    · next hlt => exact UInt32.lt_iff_toNat_lt.mp hlt
    · exact hle
  capacity_le := h.capacity_le
  storage_le := h.storage_le

/-- A queue whose fields are those of a ring holds the ring's items. -/
private theorem items_eq_toList {q : S31Queue} {r : RingBuffer (List UInt8)}
    (hcap : q.capacity.toNat = r.cap)
    (hhead : q.head.toNat = r.head) (hcount : q.count.toNat = r.count) (hslot : q.slot = r.slots) :
    q.items = r.toList := by
  simp only [S31Queue.items, RingBuffer.toList, hcap, hhead, hcount, hslot]

/-- An accepted send changes the items as the copy mode says. -/
private theorem items_sent (h : QueueRep q) {item : List UInt8}
    (hlen : item.length = q.itemSize.toNat)
    {mode : CopyMode} (hacc : q.accepts mode) :
    (q.sent item mode).items =
      if q.count < q.capacity then mode.insert item q.items else q.items.tail ++ [item] := by
  have hslot := h.slot_sent hlen mode
  have hcount := h.count_sent item mode
  split
  · next hlt =>
    have hlt' : h.ring.count < h.ring.cap := UInt32.lt_iff_toNat_lt.mp hlt
    rw [if_pos hlt] at hcount
    have hback : mode ≠ .front → (q.sent item mode).items = q.items ++ [item] := by
      intro hfront
      rw [sendSlot_back q hfront hlt, h.toNat_tail] at hslot
      rw [h.items_eq, ← h.ring.toList_pushBack item hlt']
      refine items_eq_toList rfl ?_ hcount hslot
      rw [S31Queue.sent, sendSlot_back q hfront hlt]
      rfl
    cases mode with
    | back => exact hback (by decide)
    | overwrite => exact hback (by decide)
    | front =>
      have hidx : (q.sendSlot CopyMode.front.code).2.toNat =
          (q.head.toNat + q.capacity.toNat - 1) % q.capacity.toNat := h.toNat_prev
      rw [hidx] at hslot
      show _ = item :: h.ring.toList
      rw [← h.ring.toList_pushFront item hlt']
      exact items_eq_toList rfl h.toNat_prev hcount hslot
  · next hge =>
    -- a full queue accepts only the overwriting send, which rotates the ring
    obtain hlt | rfl := hacc
    · exact absurd hlt hge
    have hge' := UInt32.le_iff_toNat_le.mp (UInt32.not_lt.mp hge)
    have hfull : q.count.toNat = q.capacity.toNat := Nat.le_antisymm h.count_le hge'
    have heq : q.count = q.capacity := UInt32.toNat_inj.mp hfull
    rw [if_neg hge] at hcount
    rw [sendSlot_rotate q heq] at hslot
    rw [h.items_eq, ← h.ring.toList_rotate item hfull]
    refine items_eq_toList rfl ?_ hcount hslot
    rw [S31Queue.sent, sendSlot_rotate q heq]
    exact h.toNat_next

end QueueRep

/-! ## Takes and resets -/

/-- The queue after a successful take. -/
def S31Queue.taken (q : S31Queue) : S31Queue :=
  { q with head := (q.head + 1) % q.capacity, count := q.count - 1 }

namespace QueueRep

variable {q : S31Queue}

/-- One item less. -/
private theorem toNat_count_pred (hne : q.count ≠ 0) : (q.count - 1).toNat = q.count.toNat - 1 := by
  have hpos : q.count.toNat ≠ 0 := fun h0 => hne (UInt32.toNat_inj.mp h0)
  have hlt := q.count.toNat_lt
  rw [UInt32.toNat_sub, UInt32.toNat_one]
  omega

/-- A take keeps the representation invariant. -/
theorem taken (h : QueueRep q) (hne : q.count ≠ 0) : QueueRep q.taken where
  not_mutex := h.not_mutex
  not_sem := h.not_sem
  head_lt := by
    rw [S31Queue.taken, h.toNat_next]
    exact Nat.mod_lt _ (Nat.zero_lt_of_lt h.head_lt)
  count_le := by
    have hle := h.count_le
    show (q.count - 1).toNat ≤ q.capacity.toNat
    rw [toNat_count_pred hne]
    omega
  capacity_le := h.capacity_le
  storage_le := h.storage_le

/-- A take removes the first item. -/
private theorem items_taken (h : QueueRep q) (hne : q.count ≠ 0) :
    q.taken.items = q.items.tail := by
  have hpos : 0 < h.ring.count :=
    Nat.pos_of_ne_zero fun h0 => hne (UInt32.toNat_inj.mp h0)
  rw [h.items_eq, ← h.ring.toList_popFront hpos]
  exact items_eq_toList rfl h.toNat_next (toNat_count_pred hne) rfl

/-- A nonempty queue holds the slot at `head` first. -/
private theorem items_cons (h : QueueRep q) (hne : q.count ≠ 0) :
    q.items = q.slot q.head.toNat :: q.items.tail := by
  have hpos : 0 < h.ring.count :=
    Nat.pos_of_ne_zero fun h0 => hne (UInt32.toNat_inj.mp h0)
  rw [h.items_eq, h.ring.toList_cons hpos]
  rfl

/-- The bytes a take stores are those of the slot at `head`. -/
private theorem taken_bytes (h : QueueRep q) (buffer : Bool) :
    (if buffer ∧ q.itemSize ≠ 0 then
        some (q.storage.read (q.head * q.itemSize).toNat q.itemSize.toNat)
      else none).getD [] = if buffer then q.slot q.head.toNat else [] := by
  cases buffer with
  | false => rfl
  | true =>
    by_cases h0 : q.itemSize = 0
    · simp only [h0, ne_eq, not_true_eq_false, and_false, ↓reduceIte, Option.getD_none,
        S31Queue.slot]
      rfl
    · simp only [h0, ne_eq, not_false_eq_true, and_self, ↓reduceIte, Option.getD_some,
        S31Queue.slot, h.toNat_slot_offset h.head_lt]

/-- Both receive calls run `s31_queue_take_locked`. -/
private theorem run_take (h : QueueRep q) (isr : Bool) (woken : Option BaseType) (buffer : Bool) :
    (QueueOp.take isr woken buffer).run q =
      if q.count = 0 then (q, ⟨false, []⟩)
      else (q.taken, ⟨true, if buffer then q.slot q.head.toNat else []⟩) := by
  have hcap := h.capacity_ne_zero
  by_cases h0 : q.count = 0
  · rw [if_pos h0]
    cases isr with
    | true =>
      simp only [QueueOp.run, receiveFromISRSection, if_neg h.not_mutex, s31QueueTakeLocked,
        if_pos (Or.inl h0 : q.count = 0 ∨ q.capacity = 0)]
      rfl
    | false =>
      simp only [QueueOp.run, receiveSection,
        if_neg (fun hc => hc.2 h0 : ¬ (q.type ≠ s31QTypeMutex ∧ q.count ≠ 0))]
      rfl
  -- with an item in the queue both variants take the oldest
  · have hlocked : ¬ (q.count = 0 ∨ q.capacity = 0) := not_or.mpr ⟨h0, hcap⟩
    rw [if_neg h0, ← h.taken_bytes]
    cases isr with
    | true =>
      simp only [QueueOp.run, receiveFromISRSection, if_neg h.not_mutex, s31QueueTakeLocked,
        if_neg hlocked]
      rfl
    | false =>
      simp only [QueueOp.run, receiveSection,
        if_pos (⟨h.not_mutex, h0⟩ : q.type ≠ s31QTypeMutex ∧ q.count ≠ 0), s31QueueTakeLocked,
        if_neg hlocked]
      rfl

/-- A reset keeps the representation invariant and forgets the items. -/
private theorem reset (h : QueueRep q) (newQueue : BaseType) :
    QueueRep ((QueueOp.reset newQueue).run q).1 where
  not_mutex := h.not_mutex
  not_sem := h.not_sem
  head_lt := Nat.zero_lt_of_lt h.head_lt
  count_le := Nat.zero_le _
  capacity_le := h.capacity_le
  storage_le := h.storage_le

/-! ## Refinement -/

/-- One operation keeps the invariant and the sizes, and agrees with the
    operation on the list of items. -/
theorem run (h : QueueRep q) {op : QueueOp} (hfit : op.Fits q.itemSize) :
    QueueRep (op.run q).1 ∧ (op.run q).1.capacity = q.capacity ∧
      (op.run q).1.itemSize = q.itemSize ∧
      ((op.run q).1.items, (op.run q).2) = op.deque q.capacity.toNat q.items := by
  cases op with
  | send isr t woken item mode =>
    have hlen : (q.items.length < q.capacity.toNat) = (q.count < q.capacity) := by
      rw [h.length_items, UInt32.lt_iff_toNat_lt]
    rw [h.run_send]
    -- a send is accepted with room and when it overwrites
    by_cases hacc : q.accepts mode
    · rw [h.sendLocked_of_accepts t item hacc]
      refine ⟨h.sent item mode, rfl, rfl, ?_⟩
      rw [h.items_sent hfit hacc]
      simp only [QueueOp.deque, hlen]
      split
      · rfl
      · next hge =>
        obtain hlt | rfl := hacc
        · exact absurd hlt hge
        · rfl
    · rw [h.sendLocked_of_not_accepts t item hacc]
      refine ⟨h, rfl, rfl, ?_⟩
      obtain ⟨hge, hmode⟩ := not_or.mp hacc
      simp only [QueueOp.deque, hlen, if_neg hge]
      cases mode with
      | back | front => rfl
      | overwrite => exact absurd rfl hmode
  -- a take fails on an empty queue only
  | take isr woken buffer =>
    rw [h.run_take]
    split
    · next h0 =>
      have hnil : q.items = [] := by
        simp only [S31Queue.items, h0]
        rfl
      refine ⟨h, rfl, rfl, ?_⟩
      rw [hnil]
      rfl
    · next h0 =>
      refine ⟨h.taken h0, rfl, rfl, ?_⟩
      rw [h.items_taken h0, h.items_cons h0]
      rfl
  | reset newQueue => exact ⟨h.reset newQueue, rfl, rfl, rfl⟩

/-- Sequences of operations agree with the operations on lists. -/
theorem runOps_eq_deque (h : QueueRep q) {ops : List QueueOp}
    (hfit : ∀ op ∈ ops, op.Fits q.itemSize) :
    QueueRep (runOps QueueOp.run ops q).1 ∧
      (runOps QueueOp.run ops q).1.capacity = q.capacity ∧
      (runOps QueueOp.run ops q).1.itemSize = q.itemSize ∧
      ((runOps QueueOp.run ops q).1.items, (runOps QueueOp.run ops q).2) =
        runOps (QueueOp.deque q.capacity.toNat) ops q.items := by
  induction ops generalizing q with
  | nil => exact ⟨h, rfl, rfl, rfl⟩
  | cons op ops ih =>
    obtain ⟨hrep, hcap, hsize, hstep⟩ := h.run (hfit op List.mem_cons_self)
    -- the first operation does what the deque does
    have hstate : (op.run q).1.items = (op.deque q.capacity.toNat q.items).1 :=
      congrArg Prod.fst hstep
    have hreply : (op.run q).2 = (op.deque q.capacity.toNat q.items).2 := congrArg Prod.snd hstep
    obtain ⟨hrep', hcap', hsize', hrest⟩ :=
      ih hrep fun op' hop => hsize ▸ hfit op' (List.mem_cons_of_mem _ hop)
    rw [hcap, hstate] at hrest
    refine ⟨hrep', hcap'.trans hcap, hsize'.trans hsize, ?_⟩
    simp only [runOps, ← hrest, hreply]

/-- An accepted send writes one slot, with the item, and no byte outside it. -/
private theorem run_send_frame (h : QueueRep q) {isr : Bool} {t : TaskHandle}
    {woken : Option BaseType}
    {item : List UInt8} {mode : CopyMode} (hlen : item.length = q.itemSize.toNat)
    (hok : ((QueueOp.send isr t woken item mode).run q).2.ok = true) :
    ∃ idx < q.capacity.toNat,
      ((QueueOp.send isr t woken item mode).run q).1.slot idx = item ∧
      ∀ off, off < idx * q.itemSize.toNat ∨ (idx + 1) * q.itemSize.toNat ≤ off →
        ((QueueOp.send isr t woken item mode).run q).1.storage off = q.storage off := by
  rw [h.run_send] at hok ⊢
  -- it succeeds only if the queue accepts the item, which goes to one slot
  by_cases hacc : q.accepts mode
  · rw [h.sendLocked_of_accepts t item hacc]
    refine ⟨_, (h.sendSlot_lt mode).2, ?_, fun off hoff => ?_⟩
    · rw [h.slot_sent hlen mode, Function.update_self]
    · rw [Nat.succ_mul] at hoff
      exact h.storeItem_frame (h.sendSlot_lt mode).2 hlen hoff
  · rw [h.sendLocked_of_not_accepts t item hacc] at hok
    exact nomatch hok

/-- A refused operation changes nothing. -/
private theorem run_refused (h : QueueRep q) {op : QueueOp} (hno : (op.run q).2.ok = false) :
    (op.run q).1 = q := by
  cases op with
  | send isr t woken item mode =>
    rw [h.run_send] at hno ⊢
    by_cases hacc : q.accepts mode
    · rw [h.sendLocked_of_accepts t item hacc] at hno
      exact nomatch hno
    · rw [h.sendLocked_of_not_accepts t item hacc]
  | take isr woken buffer =>
    rw [h.run_take] at hno ⊢
    split at hno
    · next h0 => rw [if_pos h0]
    · exact nomatch hno
  | reset newQueue => exact nomatch hno

end QueueRep

/-! ## From creation on -/

/-- A queue one of the two generic creators has returned, with the storage a
    static one needs: `capacity * itemSize` bytes of a 32-bit address space. -/
inductive QueueMade : S31Queue → Prop where
  | create {malloc ctx len size type q}
    (h : xQueueGenericCreate malloc ctx len size type = some q) : QueueMade q
  | createStatic {ctx len size storage type q}
    (h : xQueueGenericCreateStatic ctx len size storage type = some q)
    (hsize : len.toNat * size.toNat ≤ 2 ^ 32) : QueueMade q

/-- A successful allocation check bounds the storage. -/
private theorem storage_le_of_create_check {len size : UInt32}
    (h : ¬ (len = 0 ∨ (size ≠ 0 ∧ len > (0xffffffff - sizeofQueue) / size))) :
    len.toNat * size.toNat ≤ 2 ^ 32 := by
  obtain ⟨-, hcheck⟩ := not_or.mp h
  by_cases h0 : size = 0
  · rw [h0]
    exact Nat.zero_le _
  · have hle : len ≤ (0xffffffff - sizeofQueue) / size :=
      UInt32.not_lt.mp fun hgt => hcheck ⟨h0, hgt⟩
    rw [UInt32.le_iff_toNat_le, UInt32.toNat_div] at hle
    calc len.toNat * size.toNat
        ≤ (0xffffffff - sizeofQueue).toNat / size.toNat * size.toNat := Nat.mul_le_mul_right _ hle
      _ ≤ (0xffffffff - sizeofQueue).toNat := Nat.div_mul_le_self _ _
      _ ≤ 2 ^ 32 := by decide

/-- A created queue is empty, has room for at least one item and its storage
    fits the address space. -/
theorem QueueMade.init {q : S31Queue} (h : QueueMade q) :
    q.head = 0 ∧ q.count = 0 ∧ q.capacity ≠ 0 ∧
      q.capacity.toNat * q.itemSize.toNat ≤ 2 ^ 32 := by
  cases h with
  -- the check on the sizes has been passed and the storage was there
  | create h =>
    unfold xQueueGenericCreate at h
    split at h
    · exact nomatch h
    · next hcheck =>
      obtain ⟨storage, -, h⟩ := Option.bind_eq_some_iff.mp h
      dsimp only at h
      split at h
      · obtain rfl := Option.some.inj h
        exact ⟨rfl, rfl, (not_or.mp hcheck).1, storage_le_of_create_check hcheck⟩
      · exact nomatch h
  | createStatic h hsize =>
    unfold xQueueGenericCreateStatic at h
    split at h
    · exact nomatch h
    · next hcheck =>
      dsimp only at h
      split at h
      · obtain rfl := Option.some.inj h
        exact ⟨rfl, rfl, (not_or.mp hcheck).1, hsize⟩
      · exact nomatch h

/-- A queue starts empty and well formed. -/
theorem QueueMade.rep {q : S31Queue} (h : QueueMade q) (hmutex : q.type ≠ s31QTypeMutex)
    (hsem : q.type ≠ s31QTypeSem) (hcap : q.capacity.toNat ≤ 2 ^ 31) : QueueRep q := by
  obtain ⟨hhead, hcount, hne, hsize⟩ := h.init
  refine ⟨hmutex, hsem, ?_, ?_, hcap, hsize⟩
  · rw [hhead]
    exact Nat.pos_of_ne_zero fun h0 => hne (UInt32.toNat_inj.mp h0)
  · rw [hcount]
    exact Nat.zero_le _

/-- A created queue that is neither mutex nor semaphore is a bounded
    double-ended queue: after any sequence of sends, takes and resets its
    indices are in range, its items and all replies are those of the list
    operations, a refused operation changes nothing, and an accepted send
    writes exactly one slot. -/
theorem queue_refines_deque {q₀ : S31Queue} (hmade : QueueMade q₀)
    (hmutex : q₀.type ≠ s31QTypeMutex) (hsem : q₀.type ≠ s31QTypeSem)
    (hcap : q₀.capacity.toNat ≤ 2 ^ 31) (ops : List QueueOp)
    (hfit : ∀ op ∈ ops, op.Fits q₀.itemSize) :
    let q := (runOps QueueOp.run ops q₀).1
    q.head < q.capacity ∧ q.count ≤ q.capacity ∧ q.capacity = q₀.capacity ∧
      (q.items, (runOps QueueOp.run ops q₀).2) =
        runOps (QueueOp.deque q₀.capacity.toNat) ops [] ∧
      (∀ op : QueueOp, (op.run q).2.ok = false → (op.run q).1 = q) ∧
      ∀ isr t woken item mode, item.length = q₀.itemSize.toNat →
        ((QueueOp.send isr t woken item mode).run q).2.ok = true →
        ∃ idx < q.capacity.toNat,
          ((QueueOp.send isr t woken item mode).run q).1.slot idx = item ∧
          ∀ off, off < idx * q.itemSize.toNat ∨ (idx + 1) * q.itemSize.toNat ≤ off →
            ((QueueOp.send isr t woken item mode).run q).1.storage off = q.storage off := by
  intro q
  have hrep₀ := hmade.rep hmutex hsem hcap
  obtain ⟨hrep, hcapq, hsize, hruns⟩ := hrep₀.runOps_eq_deque hfit
  -- a new queue is the empty deque
  have hempty : q₀.items = [] := by
    simp only [S31Queue.items, hmade.init.2.1]
    rfl
  rw [hempty] at hruns
  refine ⟨UInt32.lt_iff_toNat_lt.mpr hrep.head_lt, UInt32.le_iff_toNat_le.mpr hrep.count_le,
    hcapq, hruns, fun op hno => hrep.run_refused hno, fun isr t woken item mode hlen hok => ?_⟩
  exact hrep.run_send_frame (hsize ▸ hlen) hok

/-- A queue of one two-byte item: a send, a refused send, an overwriting send. -/
theorem queue_refines_deque_pair :
    let q₀ := s31QueueInit 0 1 2 (fun _ => 0) (some 7)
    let ops := [QueueOp.send false 3 none [1, 2] .back, .send true 4 none [3, 4] .front,
      .send false 3 none [5, 6] .overwrite]
    let q := (runOps QueueOp.run ops q₀).1
    QueueMade q₀ ∧ q.head < q.capacity ∧ q.count ≤ q.capacity ∧
      (q.items, (runOps QueueOp.run ops q₀).2) = runOps (QueueOp.deque 1) ops [] ∧
      q.items = [[5, 6]] := by
  have hmade : QueueMade (s31QueueInit 0 1 2 (fun _ => 0) (some 7)) :=
    .create (show xQueueGenericCreate (fun _ => some fun _ => 0) (some 7) 1 2 0 = some _ from rfl)
  have h := queue_refines_deque hmade (by decide) (by decide) (by decide)
    [QueueOp.send false 3 none [1, 2] .back, .send true 4 none [3, 4] .front,
      .send false 3 none [5, 6] .overwrite] (by decide)
  exact ⟨hmade, h.1, h.2.1, h.2.2.2.1, rfl⟩

end EspS31.Rtos
