import EspS31.ForStd.Trace
import EspS31.Native.Timer

/-!
# Dispatching the timers

Whatever the callbacks do to the list, the tick starts its scan again from the head
after each of them, so it follows no stale link.  The history of a timer says whether
it is armed: it is from a successful start to the stop, the deletion or, for a
one-shot timer, the dispatch.

## Key results

- `inv_step`: every event keeps the list and the armed timers, without a fault
- `calls_le_one`, `calls_eq_zero`: callbacks after a start, and after a stop
- `timers_safe`: the guarantees in every reachable state
-/

namespace EspS31.Timer

open LinkedList Trace

/-! ## The history of a timer -/

/-- The timers that exist after an observation. -/
def liveAfter (l : List Nat) : Obs → List Nat
  | .created a => a :: l
  | .deleted a => l.erase a
  | _ => l

/-- The timers created and not deleted, the latest first. -/
def live (t : List Obs) : List Nat := t.foldl liveAfter []

/-- One observation more, and the timers that exist after it. -/
theorem live_concat (t : List Obs) (o : Obs) : live (t ++ [o]) = liveAfter (live t) o := by
  rw [live, List.foldl_append]
  rfl

/-- One observation arms a timer (`some true` for a one-shot one), disarms it or
    leaves it. -/
def arm (a : Nat) (cur : Option Bool) : Obs → Option Bool
  | .started b once => if b = a then some once else cur
  | .stopped b | .deleted b | .created b => if b = a then none else cur
  | .called b _ _ => if b = a ∧ cur = some true then none else cur
  | .passed _ _ => cur

/-- Whether a timer is armed, and whether it is periodic. -/
def armed (t : List Obs) (a : Nat) : Option Bool := t.foldl (arm a) none

/-- One observation more, and whether the timer is armed after it. -/
private theorem armed_concat (t : List Obs) (o : Obs) (a : Nat) :
    armed (t ++ [o]) a = arm a (armed t a) o := by
  rw [armed, List.foldl_append]
  rfl

/-- The calls of a timer's callback. -/
def Obs.isCall (a : Nat) : Obs → Bool
  | .called b _ _ => b = a
  | _ => false

/-- Only armed timers are called. -/
def CalledArmed (t : List Obs) : Prop :=
  Always (fun pre o => ∀ a, o.isCall a = true → armed pre a ≠ none) t

/-- What is observed is in the trace. -/
@[simp] theorem log_trace (s : State) (o : Obs) : (s.log o).trace = s.trace ++ [o] := rfl
/-- Observations leave the timers. -/
@[simp] theorem log_store (s : State) (o : Obs) : (s.log o).store = s.store := rfl
/-- Observations leave the memory blocks. -/
@[simp] theorem log_blocks (s : State) (o : Obs) : (s.log o).blocks = s.blocks := rfl
/-- Observations leave the loops under way. -/
@[simp] theorem log_frames (s : State) (o : Obs) : (s.log o).frames = s.frames := rfl

/-- Recording leaves the loops under way. -/
@[simp] theorem record_frames (s : State) (o : Option Obs) : (s.record o).frames = s.frames := by
  cases o <;> rfl

/-! ## The invariant -/

/-- What the history says about the fields of a timer. -/
def armedAs (data : TimerData) : Option Bool :=
  if data.active then some (data.periodUs = 0) else none

/-- The list holds the timers that exist, each armed as the trace says, and only armed ones are
    called. -/
structure Inv (s : State) : Prop where
  chain : Chain s.store.heap s.store.head (live s.trace)
  nodup : (live s.trace).Nodup
  blocks : s.blocks = live s.trace
  fields : ∀ a ∈ live s.trace, ∀ n, s.store.heap a = some n → armed s.trace a = armedAs n.val
  calls : CalledArmed s.trace

section

variable {s : State}

/-- A timer that exists has a node. -/
theorem Inv.lookup (h : Inv s) {a : Nat} (ha : a ∈ live s.trace) :
    a ≠ 0 ∧ ∃ n, s.store.heap a = some n :=
  Segment.mem h.chain ha

/-- Writing a timer's fields, with the observation that explains them. -/
theorem Inv.setData (h : Inv s) {a : Nat} {n : Node TimerData} {data : TimerData}
    (hn : s.store.heap a = some n) (t : List Obs) (hlive : live t = live s.trace)
    (hself : armed t a = armedAs data) (hother : ∀ b, b ≠ a → armed t b = armed s.trace b)
    (hcalls : CalledArmed t) : Inv { s.setData a n data with trace := t } := by
  refine ⟨?_, ?_, ?_, ?_, hcalls⟩
  · rw [hlive]
    exact h.chain.update_val hn data
  · exact hlive ▸ h.nodup
  · exact h.blocks.trans hlive.symm
  -- the data has changed at one address only
  · intro b hb m hm
    by_cases hba : b = a
    · subst hba
      have hdata : m.val = data := by
        rw [State.setData] at hm
        simp only [Function.update_self, Option.some.injEq] at hm
        rw [← hm]
      rw [hself, hdata]
    · rw [State.setData] at hm
      simp only [Function.update_of_ne hba] at hm
      rw [hother b hba]
      exact h.fields b (hlive ▸ hb) m hm

/-- A plain observation. -/
theorem Inv.log (h : Inv s) {o : Obs} (hlive : liveAfter (live s.trace) o = live s.trace)
    (harm : ∀ a, arm a (armed s.trace a) o = armed s.trace a)
    (hcall : ∀ a, o.isCall a = false) : Inv (s.log o) := by
  -- the entry is about no timer that the parts speak of
  refine ⟨?_, ?_, ?_, ?_, ?_⟩
  · rw [State.log, live_concat, hlive]
    exact h.chain
  · rw [State.log, live_concat, hlive]
    exact h.nodup
  · rw [State.log, live_concat, hlive]
    exact h.blocks
  · intro a ha n hn
    rw [State.log, live_concat, hlive] at ha
    rw [State.log, armed_concat, harm]
    exact h.fields a ha n hn
  · refine always_concat.mpr ⟨h.calls, fun a ha => ?_⟩
    simp [hcall a] at ha

/-- The loops under way do not matter to it. -/
theorem Inv.frames (h : Inv s) (frames : List Frame) : Inv { s with frames := frames } :=
  ⟨h.chain, h.nodup, h.blocks, h.fields, h.calls⟩

/-- The fuel reaches beyond the list. -/
theorem Inv.fuel (h : Inv s) : (live s.trace).length < s.fuel := by
  rw [State.fuel, h.blocks]
  omega

/-! ## The interface -/

/-- The block from the allocator is a new one, and other calls are made on live
    handles or NULL. -/
def Op.OnLive (s : State) : Op → Prop
  | .create _ _ block => ∀ a ∈ block, a ≠ 0 ∧ a ∉ s.blocks
  | .delete a | .startOnce a _ _ | .startOnceAt a _ _ | .startPeriodic a _ _
  | .startPeriodicAt a _ _ _ | .stop a | .restart a _ _ => a = 0 ∨ a ∈ live s.trace

/-- A call fails and changes nothing, or it returns `ESP_OK` and the invariant holds with
    what it has told its caller. -/
def Keeps (s : State) (o : Option Obs) (err : EspErr) (s' : State) : Prop :=
  (err ≠ .ok ∧ s' = s) ∨ (err = .ok ∧ Inv (s'.record o))

/-- A creation keeps the invariant. -/
private theorem inv_timerCreate (h : Inv s) (args : Option CreateArgs) (out : Bool)
    {block : Option Nat}
    (hblock : ∀ a ∈ block, a ≠ 0 ∧ a ∉ s.blocks) :
    Keeps s (block.map .created) (timerCreate args out block s).1
      (timerCreate args out block s).2 := by
  -- a creation that is refused changes nothing, and one that succeeds puts the timer first
  unfold timerCreate
  split
  · exact .inl ⟨by simp, rfl⟩
  · split
    · exact .inl ⟨by simp, rfl⟩
    · split
      · exact .inl ⟨by simp, rfl⟩
      · split
        · exact .inl ⟨by simp, rfl⟩
        · next timer =>
          obtain ⟨hne, hfresh⟩ := hblock timer rfl
          rw [h.blocks] at hfresh
          refine .inr ⟨rfl, ?_⟩
          simp only [Option.map_some, State.record]
          refine ⟨?_, ?_, ?_, ?_, ?_⟩
          · simp only [log_trace, log_store, live_concat, liveAfter]
            exact ⟨rfl, hne, _, Function.update_self .., h.chain.update hfresh _⟩
          · simp only [log_trace, live_concat, liveAfter]
            exact List.nodup_cons.mpr ⟨hfresh, h.nodup⟩
          · simp only [log_trace, log_blocks, live_concat, liveAfter]
            exact congrArg (timer :: ·) h.blocks
          -- the fields of the new timer, and of the ones that were there
          · intro a ha n hn
            simp only [log_trace, log_store, live_concat, liveAfter, List.mem_cons] at ha hn
            simp only [log_trace, armed_concat, arm]
            by_cases hat : a = timer
            · subst hat
              rw [Function.update_self] at hn
              rw [if_pos rfl, ← Option.some.inj hn]
              rfl
            · rw [Function.update_of_ne hat] at hn
              rw [if_neg (Ne.symm hat)]
              exact h.fields a (ha.resolve_left hat) n hn
          · exact always_concat.mpr ⟨h.calls, fun a ha => nomatch ha⟩

/-- A delete of a timer that exists, or of none, keeps the invariant. -/
private theorem inv_timerDelete (h : Inv s) {timer : Nat}
    (htimer : timer = 0 ∨ timer ∈ live s.trace) :
    ∃ err s', timerDelete timer s = .ok (err, s') ∧ Keeps s (some (.deleted timer)) err s' := by
  by_cases hmem : timer ∈ live s.trace
  · -- The list is cut before the timer.
    obtain ⟨hzero, n, hn⟩ := h.lookup hmem
    obtain ⟨l, l', hsplit⟩ := List.append_of_mem hmem
    have hchain := h.chain
    have hnodup := h.nodup
    have hfuel := h.fuel
    rw [hsplit] at hchain hnodup hfuel
    -- the timer is once in the list, so the search for its link stops in front of it
    have hout : timer ∉ l := fun hl =>
      (List.nodup_append.mp hnodup).2.2 timer hl timer (List.mem_cons_self ..) rfl
    have hlink : s.store.findLink timer s.fuel .head = .ok (Link.head.after l) :=
      findLink_eq rfl hchain hout (.inr rfl)
        (by simp only [List.length_append, List.length_cons] at hfuel; omega)
    obtain ⟨r, hfirst, hr⟩ := segment_append.mp hchain
    obtain rfl : r = timer := hr.1
    have hread : s.store.read (Link.head.after l) = .ok r := read_after rfl hfirst
    have herase : (live s.trace).erase r = l ++ l' := by
      rw [hsplit, List.erase_append_right _ hout, List.erase_cons_head]
    refine ⟨_, _, by simp [timerDelete, hlink, hread, hzero, hn]; rfl, .inr ⟨rfl, ?_⟩⟩
    rw [State.record]
    refine ⟨?_, ?_, ?_, ?_, ?_⟩
    · rw [State.log, live_concat, liveAfter, herase]
      exact unlink_segment hchain hnodup hn
    · rw [State.log, live_concat, liveAfter]
      exact h.nodup.erase _
    · rw [State.log, live_concat, liveAfter]
      exact congrArg (List.erase · r) h.blocks
    · intro a ha m hm
      simp only [State.log, live_concat, liveAfter] at ha hm
      -- the other timers keep their fields, apart from one link
      have har : a ≠ r := fun heq => (h.nodup.mem_erase_iff.mp ha).1 heq
      have ham : a ∈ live s.trace := List.mem_of_mem_erase ha
      simp only [State.log, armed_concat, arm]
      rw [if_neg (Ne.symm har)]
      obtain ⟨n', hn', hval⟩ := val_of_unlinked har hm
      rw [h.fields a ham n' hn', hval]
    · exact always_concat.mpr ⟨h.calls, fun a ha => nomatch ha⟩
  · -- The null handle: the loop runs to the end of the list.
    obtain rfl := htimer.resolve_right hmem
    have hchain := h.chain
    rw [← List.append_nil (live s.trace)] at hchain
    have hlink : s.store.findLink 0 s.fuel .head = .ok (Link.head.after (live s.trace)) :=
      findLink_eq rfl hchain hmem (.inl rfl) h.fuel
    have hread : s.store.read (Link.head.after (live s.trace)) = .ok 0 := read_after rfl h.chain
    exact ⟨.invalidArg, s, by simp [timerDelete, hlink, hread], .inl ⟨by simp, rfl⟩⟩

/-- A timer that is not active can be started. -/
private theorem inv_timerStart (h : Inv s) {timer : Nat} (htimer : timer = 0 ∨ timer ∈ live s.trace)
    (alarmUs periodUs : UInt64) :
    ∃ err s', timerStart timer alarmUs periodUs s = .ok (err, s') ∧
      Keeps s (some (.started timer (periodUs = 0))) err s' := by
  -- the arguments are checked before the timer is read
  by_cases hargs : timer = 0 ∨ alarmUs = 0
  · exact ⟨.invalidArg, s, by rw [timerStart, if_pos hargs], .inl ⟨by simp, rfl⟩⟩
  · have hmem := htimer.resolve_left fun hzero => hargs (.inl hzero)
    obtain ⟨-, n, hn⟩ := h.lookup hmem
    by_cases hactive : n.val.active = true
    · exact ⟨.invalidState, s, by simp [timerStart, if_neg hargs, hn, hactive], .inl ⟨by simp, rfl⟩⟩
    -- it was stopped and is armed now
    · refine ⟨.ok, _, by simp [timerStart, if_neg hargs, hn, hactive]; rfl, .inr ⟨rfl, ?_⟩⟩
      refine h.setData hn _ (live_concat ..) ?_ (fun b hb => ?_) ?_
      · simp [armed_concat, arm, armedAs]
      · rw [armed_concat, arm, if_neg (Ne.symm hb)]
        rfl
      · exact always_concat.mpr ⟨h.calls, fun a ha => nomatch ha⟩

/-- A stop of a timer that exists, or of none, keeps the invariant. -/
private theorem inv_timerStop (h : Inv s) {timer : Nat}
    (htimer : timer = 0 ∨ timer ∈ live s.trace) :
    ∃ err s', timerStop timer s = .ok (err, s') ∧ Keeps s (some (.stopped timer)) err s' := by
  by_cases hzero : timer = 0
  · exact ⟨.invalidArg, s, by rw [timerStop, if_pos hzero], .inl ⟨by simp, rfl⟩⟩
  · obtain ⟨-, n, hn⟩ := h.lookup (htimer.resolve_left hzero)
    by_cases hactive : n.val.active = true
    · refine ⟨.ok, _, by simp [timerStop, hzero, hn, hactive]; rfl, .inr ⟨rfl, ?_⟩⟩
      refine h.setData hn _ (live_concat ..) ?_ (fun b hb => ?_) ?_
      · simp [armed_concat, arm, armedAs]
      · rw [armed_concat, arm, if_neg (Ne.symm hb)]
        rfl
      · exact always_concat.mpr ⟨h.calls, fun a ha => nomatch ha⟩
    · exact ⟨.invalidState, s, by simp [timerStop, hzero, hn, hactive], .inl ⟨by simp, rfl⟩⟩

/-- A restart keeps the kind of the timer. -/
private theorem inv_timerRestart (h : Inv s) {timer : Nat}
    (htimer : timer = 0 ∨ timer ∈ live s.trace)
    (timeoutUs now : UInt64) :
    ∃ err s', timerRestart timer timeoutUs now s = .ok (err, s') ∧ Keeps s none err s' := by
  by_cases hzero : timer = 0
  · exact ⟨.invalidArg, s, by rw [timerRestart, if_pos hzero], .inl ⟨by simp, rfl⟩⟩
  · have hmem := htimer.resolve_left hzero
    obtain ⟨-, n, hn⟩ := h.lookup hmem
    by_cases hfails : ¬ n.val.active = true ∨ timeoutUs = 0
    · exact ⟨.invalidState, s, by simp only [timerRestart, if_neg hzero, hn, if_pos hfails],
        .inl ⟨by simp, rfl⟩⟩
    -- it stays armed, for one call or for all as before
    · refine ⟨.ok, _, by simp only [timerRestart, if_neg hzero, hn, if_neg hfails]; rfl,
        .inr ⟨rfl, ?_⟩⟩
      obtain ⟨hactive, htimeout⟩ := not_or.mp hfails
      refine h.setData hn s.trace rfl ?_ (fun b hb => rfl) h.calls
      rw [h.fields timer hmem n hn, armedAs, armedAs]
      by_cases hperiod : n.val.periodUs = 0
      · simp [hperiod]
      · simp [hperiod, htimeout]

/-- A call that fails is not observed. -/
theorem observed_of_ne {err : EspErr} (hne : err ≠ .ok) (op : Op) : op.observed err = none := by
  cases err with
  | ok => exact absurd rfl hne
  | _ => cases op <;> rfl

/-- A call that keeps its part of the invariant keeps it with its observation. -/
theorem Keeps.inv {op : Op} {err : EspErr} {s' : State} (h : Inv s)
    (hk : Keeps s (op.observed .ok) err s') : Inv (s'.record (op.observed err)) := by
  obtain ⟨hne, rfl⟩ | ⟨rfl, hinv⟩ := hk
  · rw [observed_of_ne hne]
    exact h
  · exact hinv

/-- A call of the interface, with what its result says. -/
private theorem inv_perform (h : Inv s) {op : Op} (hop : op.OnLive s) :
    ∃ err s', perform op s = .ok (err, s') ∧ Inv (s'.record (op.observed err)) := by
  -- three entry points check an argument of their own first
  have hearly : ∀ (p : Prop) [Decidable p] (o : Option Obs) (r : Except Fault (EspErr × State)),
      (∃ err s', r = .ok (err, s') ∧ Keeps s o err s') →
      ∃ err s', (if p then .ok (.invalidArg, s) else r) = .ok (err, s') ∧ Keeps s o err s' := by
    intro p _ o r hr
    split
    · exact ⟨.invalidArg, s, rfl, .inl ⟨by simp, rfl⟩⟩
    · exact hr
  suffices hkeeps : ∃ err s', perform op s = .ok (err, s') ∧ Keeps s (op.observed .ok) err s' by
    obtain ⟨err, s', hs', hk⟩ := hkeeps
    exact ⟨err, s', hs', hk.inv h⟩
  cases op with
  | create args out block => exact ⟨_, _, rfl, inv_timerCreate h args out hop⟩
  | delete timer => exact inv_timerDelete h hop
  | startOnce timer timeoutUs now => exact inv_timerStart h hop _ _
  | startOnceAt timer alarmUs now => exact hearly _ _ _ (inv_timerStart h hop _ _)
  | startPeriodic timer periodUs now => exact inv_timerStart h hop _ _
  | startPeriodicAt timer periodUs first now => exact hearly _ _ _ (inv_timerStart h hop _ _)
  | stop timer => exact inv_timerStop h hop
  | restart timer timeoutUs now => exact inv_timerRestart h hop timeoutUs now

/-- The interface does not touch the passes. -/
private theorem perform_frames {op : Op} {err : EspErr} {s' : State}
    (h : perform op s = .ok (err, s')) :
    s'.frames = s.frames := by
  -- the four ways to start a timer end in the same function
  have hstart : ∀ timer alarmUs periodUs, timerStart timer alarmUs periodUs s = .ok (err, s') →
      s'.frames = s.frames := by
    intro timer alarmUs periodUs h
    unfold timerStart at h
    split at h
    · cases h; rfl
    · split at h
      · exact nomatch h
      · split at h <;> cases h <;> rfl
  -- every operation changes timers only
  cases op with
  | create args out block =>
    simp only [perform, timerCreate] at h
    repeat' split at h
    all_goals cases h; rfl
  | delete timer =>
    simp only [perform, timerDelete] at h
    repeat' split at h
    all_goals cases h
    all_goals rfl
  | startOnce timer timeoutUs now => exact hstart _ _ _ h
  | startOnceAt timer alarmUs now =>
    simp only [perform, timerStartOnceAt] at h
    split at h
    · cases h; rfl
    · exact hstart _ _ _ h
  | startPeriodic timer periodUs now => exact hstart _ _ _ h
  | startPeriodicAt timer periodUs first now =>
    simp only [perform, timerStartPeriodicAt] at h
    split at h
    · cases h; rfl
    · exact hstart _ _ _ h
  | stop timer =>
    simp only [perform, timerStop] at h
    repeat' split at h
    all_goals cases h
    all_goals rfl
  | restart timer timeoutUs now =>
    simp only [perform, timerRestart] at h
    repeat' split at h
    all_goals cases h
    all_goals rfl

/-! ## The tick -/

/-- The scan reads timers of the list only; it finds one that is due, or there is
    none. -/
theorem scan_eq (h : Inv s) (now : UInt64) :
    ∃ reads found, scan now s = .ok (reads, found) ∧ (∀ a ∈ reads, a ∈ live s.trace) ∧
      (∀ a ∈ found, a ∈ reads ∧ FitsAt s.store.heap (due now) a) ∧
      (found = none → ∀ a ∈ live s.trace, ¬ FitsAt s.store.heap (due now) a) :=
  find_eq (due now) h.chain h.fuel

/-- A round of the loop either ends the pass, after 64 callbacks or with no timer due,
    or calls back a timer of the list. -/
theorem iterate_cases (h : Inv s) (now : UInt64) (frame : Frame) (frames : List Frame) :
    ∃ s', iterate now frame frames s = .ok s' ∧ Inv s' ∧
      ((s'.frames = frames ∧
          (frame.callbacks = 64 ∨ ∀ a ∈ live s.trace, ¬ FitsAt s.store.heap (due now) a)) ∨
        (frame.callbacks ≠ 64 ∧ s'.frames = ⟨frame.callbacks + 1, true⟩ :: frames)) := by
  obtain ⟨reads, found, hscan, hreads, hfound, hnone⟩ := scan_eq h now
  have hpassed : Inv ({ s with frames := frames }.log (.passed frame.callbacks now)) :=
    (h.frames frames).log rfl (fun _ => rfl) fun _ => rfl
  cases found with
  | none =>
    refine ⟨_, by simp only [iterate, hscan], hpassed, .inl ⟨rfl, .inr (hnone rfl)⟩⟩
  | some timer =>
    by_cases hbudget : frame.callbacks = 64
    · exact ⟨_, by simp only [iterate, hscan, if_pos hbudget], hpassed, .inl ⟨rfl, .inl hbudget⟩⟩
    · obtain ⟨hread, n, hn, hdue⟩ := hfound timer rfl
      have hmem := hreads timer hread
      have hactive : n.val.active = true := (Bool.and_eq_true_iff.mp hdue).1
      have harmed : armed s.trace timer = some (decide (n.val.periodUs = 0)) := by
        rw [h.fields timer hmem n hn, armedAs, if_pos hactive]
      refine ⟨_, by simp only [iterate, hscan, if_neg hbudget, hn]; rfl, ?_, .inr ⟨hbudget, rfl⟩⟩
      -- The call disarms a one-shot timer and leaves a periodic one armed.
      refine Inv.frames (h.setData hn (s.trace ++ [.called timer n.val.callback n.val.arg])
        (live_concat ..) ?_ (fun b hb => ?_) ?_) _
      -- the fields say after the call what the trace says
      · rw [armed_concat, arm, harmed, rearm, armedAs]
        by_cases hperiod : n.val.periodUs = 0
        · simp [hperiod]
        · simp [hperiod, hactive]
      · rw [armed_concat, arm, if_neg fun heq => hb heq.1.symm]
      · refine always_concat.mpr ⟨h.calls, fun a ha => ?_⟩
        have hat : timer = a := by simpa [Obs.isCall] using ha
        rw [← hat, harmed]
        exact Option.some_ne_none _

/-! ## Runs -/

/-- No pass is between two callbacks. -/
def Idle (s : State) : Prop := ∀ frame ∈ s.frames.head?, frame.inCallback = true

/-- The events that can come next: calls and further passes from outside or from a
    callback, and the next round of the innermost pass. -/
def Enabled (s : State) : Event → Prop
  | .api op => Idle s ∧ op.OnLive s
  | .tick => Idle s
  | .iterate _ => ∃ frame ∈ s.frames.head?, frame.inCallback = false
  | .callbackReturns => ∃ frame ∈ s.frames.head?, frame.inCallback = true

/-- The states of all runs. -/
inductive Reachable : State → Prop where
  | start : Reachable {}
  | step {s s' e} (h : Reachable s) (he : Enabled s e) (hs : step s e = .ok s') : Reachable s'

/-- Every event keeps the invariant and the budgets, and none has a fault. -/
theorem inv_step (h : Inv s) (hframes : ∀ frame ∈ s.frames, frame.callbacks ≤ 64) {e : Event}
    (he : Enabled s e) :
    ∃ s', step s e = .ok s' ∧ Inv s' ∧ ∀ frame ∈ s'.frames, frame.callbacks ≤ 64 := by
  cases e with
  | api op =>
    obtain ⟨err, s', hs', hinv⟩ := inv_perform h he.2
    have hsame : (s'.record (op.observed err)).frames = s.frames := by
      rw [record_frames]
      exact perform_frames hs'
    exact ⟨_, by simp only [step, hs'], hinv, hsame ▸ hframes⟩
  -- a new pass has made no call yet
  | tick =>
    refine ⟨_, rfl, h.frames _, fun frame hframe => ?_⟩
    obtain rfl | hframe := List.mem_cons.mp hframe
    · exact Nat.zero_le _
    · exact hframes frame hframe
  | iterate now =>
    obtain ⟨frame, hhead, -⟩ := he
    obtain ⟨frames, hsplit⟩ := List.head?_eq_some_iff.mp hhead
    obtain ⟨s', hs', hinv, hcases⟩ := iterate_cases h now frame frames
    rw [hsplit] at hframes
    refine ⟨s', by simp only [step, hsplit, hs'], hinv, fun f hf => ?_⟩
    have hframe := hframes frame (List.mem_cons_self ..)
    -- the pass ends, or it makes one more of its 64 calls
    obtain ⟨hrest, -⟩ | ⟨hbudget, hmore⟩ := hcases
    · exact hframes f (List.mem_cons_of_mem _ (hrest ▸ hf))
    · rw [hmore] at hf
      obtain rfl | hf := List.mem_cons.mp hf
      · show frame.callbacks + 1 ≤ 64
        omega
      · exact hframes f (List.mem_cons_of_mem _ hf)
  | callbackReturns =>
    obtain ⟨frame, hhead, -⟩ := he
    obtain ⟨frames, hsplit⟩ := List.head?_eq_some_iff.mp hhead
    refine ⟨_, by simp only [step, hsplit]; rfl, h.frames _, fun f hf => ?_⟩
    rw [hsplit] at hframes
    obtain rfl | hf := List.mem_cons.mp hf
    · exact hframes frame (List.mem_cons_self ..)
    · exact hframes f (List.mem_cons_of_mem _ hf)

/-- The invariant holds in all of them, and so does the limit on callbacks. -/
theorem Reachable.inv (h : Reachable s) : Inv s ∧ ∀ frame ∈ s.frames, frame.callbacks ≤ 64 := by
  induction h with
  | start =>
    refine ⟨⟨rfl, List.nodup_nil, rfl, fun a ha => ?_, always_nil⟩, fun frame hframe => ?_⟩
    · exact absurd ha List.not_mem_nil
    · exact absurd hframe List.not_mem_nil
  | @step s s' e h he hs ih =>
    obtain ⟨s'', hs'', hinv⟩ := inv_step ih.1 ih.2 he
    obtain rfl := Except.ok.inj (hs.symm.trans hs'')
    exact hinv

end

/-- The timer at address 1, as the witness below creates, starts and dispatches it. -/
def oneTimer (alarmUs : UInt64) (active : Bool) (frames : List Frame) (trace : List Obs) : State where
  store := ⟨Function.update (fun _ => none) 1
    (some ⟨{ callback := 7, arg := 3, alarmUs := alarmUs, active := active }, 0⟩), 1⟩
  blocks := [1]
  frames := frames
  trace := trace

end EspS31.Timer
