import EspS31.Spec.TimerPhase

/-!
# The order of callbacks in one pass

Each round of `s31_linux_timers_tick` takes the first timer of the list that is due.  New
timers are put at the head of the list, so timers that are due together are called back
latest created first, whatever their alarms.

## Key results

- `order_eq`: the callbacks of the rounds are the timers due, in the order of the list
- `rounds_order`: the rounds of a pass
- `pass_order_iff`: when a pass calls back in the order of the alarms
-/

namespace EspS31.Timer

open LinkedList

/-! ## Rounds on a list -/

/-- A timer with these fields is due. -/
def dueAt (now : UInt64) (D : Nat → Option TimerData) (a : Nat) : Bool := (D a).any (due now)

/-- It is still due after its dispatch. -/
def staysDue (now : UInt64) (D : Nat → Option TimerData) (a : Nat) : Bool :=
  ((D a).map (rearm now)).any (due now)

/-- The timers called back in at most `n` rounds. -/
def order (now : UInt64) (l : List Nat) : Nat → (Nat → Option TimerData) → List Nat
  | 0, _ => []
  | n + 1, D =>
    match l.find? (dueAt now D) with
    | none => []
    | some a => a :: order now l n (Function.update D a ((D a).map (rearm now)))

section

variable {now : UInt64} {l : List Nat} {D D' : Nat → Option TimerData} {a n : Nat}

/-- Which timer is due depends on those of the list. -/
private theorem find_dueAt_congr (h : ∀ a ∈ l, D a = D' a) :
    l.find? (dueAt now D) = l.find? (dueAt now D') := by
  induction l with
  | nil => rfl
  | cons a l ih =>
    rw [List.find?_cons, List.find?_cons, dueAt, dueAt, h a (List.mem_cons_self ..),
      ih fun b hb => h b (List.mem_cons_of_mem _ hb)]

/-- Only the fields of the timers in the list matter. -/
private theorem order_congr (n : Nat) (h : ∀ a ∈ l, D a = D' a) :
    order now l n D = order now l n D' := by
  induction n generalizing D D' with
  | zero => rfl
  | succ n ih =>
    rw [order, order, find_dueAt_congr h]
    cases hfind : l.find? (dueAt now D') with
    | none => rfl
    | some b =>
      refine congrArg (b :: ·) (ih fun a ha => ?_)
      by_cases hab : a = b
      · rw [hab, Function.update_self, Function.update_self, h b (hab ▸ ha)]
      · rw [Function.update_of_ne hab, Function.update_of_ne hab, h a ha]

/-- The timers called are those of the list. -/
private theorem mem_of_mem_order (n : Nat) (ha : a ∈ order now l n D) : a ∈ l := by
  induction n generalizing D with
  | zero => exact absurd ha List.not_mem_nil
  | succ n ih =>
    rw [order] at ha
    split at ha
    · exact absurd ha List.not_mem_nil
    · next b hfind =>
      obtain rfl | ha := List.mem_cons.mp ha
      · exact List.mem_of_find?_eq_some hfind
      · exact ih ha

/-- A timer that is not due is passed over in every round. -/
private theorem order_cons_of_not_due (n : Nat) (ha : a ∉ l) (h : dueAt now D a = false) :
    order now (a :: l) n D = order now l n D := by
  induction n generalizing D with
  | zero => rfl
  | succ n ih =>
    rw [order, order, List.find?_cons, h]
    cases hfind : l.find? (dueAt now D) with
    | none => rfl
    | some b =>
      have hab : a ≠ b := fun heq => ha (heq ▸ List.mem_of_find?_eq_some hfind)
      refine congrArg (b :: ·) (ih ?_)
      rw [dueAt, Function.update_of_ne hab]
      exact h

/-- A timer that is due at the head of the list is called back first. -/
private theorem order_cons_of_due (n : Nat) (h : dueAt now D a = true) :
    order now (a :: l) (n + 1) D =
      a :: order now (a :: l) n (Function.update D a ((D a).map (rearm now))) := by
  rw [order, List.find?_cons, h]

/-- A timer that was called is due again when it stays so. -/
private theorem dueAt_update_self (D : Nat → Option TimerData) (a : Nat) :
    dueAt now (Function.update D a ((D a).map (rearm now))) a = staysDue now D a := by
  rw [dueAt, Function.update_self, staysDue]

/-- A timer still due after its dispatch is called back again in the next round. -/
private theorem order_cons_of_staysDue (n : Nat) (h : dueAt now D a = true)
    (hstays : staysDue now D a = true) :
    ∃ rest, order now (a :: l) (n + 2) D = a :: a :: rest := by
  rw [order_cons_of_due _ h, order_cons_of_due _ ((dueAt_update_self D a).trans hstays)]
  exact ⟨_, rfl⟩

/-- A timer that does not stay due is called once. -/
private theorem order_cons_of_once (n : Nat) (ha : a ∉ l) (h : dueAt now D a = true)
    (hstays : staysDue now D a = false) :
    order now (a :: l) (n + 1) D = a :: order now l n D := by
  rw [order_cons_of_due _ h, order_cons_of_not_due _ ha ((dueAt_update_self D a).trans hstays)]
  refine congrArg (a :: ·) (order_congr n fun b hb => ?_)
  have hba : b ≠ a := fun heq => ha (heq ▸ hb)
  exact Function.update_of_ne hba ..

/-- The rounds call back the timers due, each once, unless one of them, the last round's
    apart, is still due after its dispatch. -/
theorem order_eq (n : Nat) (hl : l.Nodup) :
    ((order now l n D).Nodup ↔ ∀ a ∈ (l.filter (dueAt now D)).take (n - 1), staysDue now D a = false) ∧
      ((order now l n D).Nodup → order now l n D = (l.filter (dueAt now D)).take n) := by
  -- induction on the list of timers; one that is not due changes nothing
  induction l generalizing n with
  | nil => cases n <;> simp [order]
  | cons a l ih =>
    obtain ⟨ha, hl⟩ := List.nodup_cons.mp hl
    cases hdue : dueAt now D a with
    | false =>
      rw [order_cons_of_not_due n ha hdue, List.filter_cons_of_neg (by rw [hdue]; decide)]
      exact ih n hl
    | true =>
      rw [List.filter_cons_of_pos hdue]
      match n with
      | 0 => simp [order]
      | 1 =>
        rw [order_cons_of_due 0 hdue]
        simp [order]
      | n + 2 =>
        cases hstays : staysDue now D a with
        | true =>
          -- a timer that stays due is called again at once, so the calls repeat it
          obtain ⟨rest, hrest⟩ := order_cons_of_staysDue (l := l) n hdue hstays
          have hnot : ¬ (order now (a :: l) (n + 2) D).Nodup := by
            rw [hrest]
            simp
          refine ⟨iff_of_false hnot fun hall => ?_, fun hnodup => absurd hnodup hnot⟩
          have := hall a (List.mem_cons_self ..)
          rw [hstays] at this
          exact nomatch this
        | false =>
          -- it is called once and is then not due, as if it were not in the list
          obtain ⟨hiff, heq⟩ := ih (n + 1) hl
          have hout : a ∉ order now l (n + 1) D := fun hmem => ha (mem_of_mem_order _ hmem)
          rw [order_cons_of_once (n + 1) ha hdue hstays, List.nodup_cons]
          constructor
          · rw [and_iff_right hout, hiff]
            show _ ↔ ∀ b ∈ (a :: l.filter (dueAt now D)).take (n + 1), _
            rw [List.take_succ_cons, List.forall_mem_cons, and_iff_right hstays]
            rfl
          · rintro ⟨-, hnodup⟩
            rw [heq hnodup]
            rfl

end

/-! ## The rounds of a pass -/

/-- Rounds of the innermost pass while its callbacks make no calls and the clock stays
    at `now`, up to the end of the pass. -/
def rounds (now : UInt64) : Nat → State → Except Fault State
  | 0, s => .ok s
  | n + 1, s =>
    match step s (.iterate now) with
    | .error e => .error e
    | .ok s₁ =>
      if s₁.frames.length < s.frames.length then .ok s₁
      else
        match step s₁ .callbackReturns with
        | .error e => .error e
        | .ok s₂ => rounds now n s₂

/-- A whole pass: 64 callbacks at most, and the round that ends it. -/
def quietPass (now : UInt64) (s : State) : Except Fault State :=
  match step s .tick with
  | .error e => .error e
  | .ok s₁ => rounds now 65 s₁

/-- The timer whose callback is called. -/
def Obs.timer? : Obs → Option Nat
  | .called a _ _ => some a
  | _ => none

section

variable {s : State} {now : UInt64}

/-- One round: the pass ends, or the first timer due is dispatched. -/
private theorem iterate_first (hinv : Inv s) (frame : Frame) (frames : List Frame) :
    iterate now frame frames s =
      match (live s.trace).find? (dueAt now (dataOf s)) with
      | none => .ok ({ s with frames := frames }.log (.passed frame.callbacks now))
      | some timer =>
        if frame.callbacks = 64 then
          .ok ({ s with frames := frames }.log (.passed frame.callbacks now))
        else
          match s.store.heap timer with
          | none => .error .dangling
          | some node =>
            .ok ({ s.setData timer node (rearm now node.val) with
              frames := ⟨frame.callbacks + 1, true⟩ :: frames }.log
              (.called timer node.val.callback node.val.arg)) := by
  -- the scan takes the first due timer of the list
  obtain ⟨visited, hfind⟩ := find_first (due now) hinv.chain hinv.fuel
  have hscan : scan now s = .ok (visited, (live s.trace).find? (dueAt now (dataOf s))) := hfind
  simp only [iterate, hscan]
  cases (live s.trace).find? (dueAt now (dataOf s)) <;> rfl

/-- The rounds left of a pass call back the timers of `order`. -/
theorem rounds_order (now : UInt64) {n : Nat} {frame : Frame} {frames : List Frame} (hinv : Inv s)
    (hframes : s.frames = frame :: frames) (hbudget : frame.callbacks + n = 64) :
    ∃ s' obs, rounds now (n + 1) s = .ok s' ∧ s'.frames = frames ∧ s'.trace = s.trace ++ obs ∧
      obs.filterMap Obs.timer? = order now (live s.trace) n (dataOf s) := by
  induction n generalizing s frame with
  -- the budget is used up, whatever is due
  | zero =>
    refine ⟨{ s with frames := frames }.log (.passed frame.callbacks now),
      [.passed frame.callbacks now], ?_, rfl, rfl, rfl⟩
    have hiterate : iterate now frame frames s =
        .ok ({ s with frames := frames }.log (.passed frame.callbacks now)) := by
      rw [iterate_first hinv]
      cases (live s.trace).find? (dueAt now (dataOf s)) with
      | none => rfl
      | some timer => exact if_pos (by omega)
    rw [rounds, step]
    simp only [hframes, hiterate, log_frames, List.length_cons, Nat.lt_succ_self, if_true]
  | succ n ih =>
    rw [rounds, step]
    simp only [hframes, order]
    rw [iterate_first hinv]
    cases hfind : (live s.trace).find? (dueAt now (dataOf s)) with
    -- nothing is due, and the pass ends early
    | none =>
      refine ⟨{ s with frames := frames }.log (.passed frame.callbacks now),
        [.passed frame.callbacks now], ?_, rfl, rfl, rfl⟩
      simp only [log_frames, List.length_cons, Nat.lt_succ_self, if_true]
    | some timer =>
      have hmem := List.mem_of_find?_eq_some hfind
      obtain ⟨-, node, hnode⟩ := hinv.lookup hmem
      obtain ⟨s₁, hiterate, hinv₁, -⟩ := iterate_cases hinv now frame frames
      rw [iterate_first hinv, hfind] at hiterate
      simp only [if_neg (show ¬ frame.callbacks = 64 by omega), hnode] at hiterate ⊢
      obtain rfl := Except.ok.inj hiterate
      simp only [log_frames, List.length_cons, Nat.lt_irrefl, if_false, step]
      -- the state after the callback, with one callback less to make
      have hinv₂ := hinv₁.frames (⟨frame.callbacks + 1, false⟩ :: frames)
      obtain ⟨s', obs, hrounds, hout, htrace, horder⟩ := ih hinv₂ rfl
        (show frame.callbacks + 1 + n = 64 by omega)
      refine ⟨s', .called timer node.val.callback node.val.arg :: obs, hrounds, hout, ?_, ?_⟩
      · rw [htrace]
        simp [State.log, State.setData]
      -- the rest of the order is that of the rearmed timers
      · have hdata : dataOf (s.setData timer node (rearm now node.val)) =
            Function.update (dataOf s) timer ((dataOf s timer).map (rearm now)) := by
          funext b
          by_cases hb : b = timer
          · rw [hb, dataOf_setData_self, Function.update_self, dataOf, hnode]
            rfl
          · rw [dataOf_setData_of_ne s hb, Function.update_of_ne hb]
        have hlive : live (s.trace ++ [.called timer node.val.callback node.val.arg]) = live s.trace :=
          live_concat _ _
        rw [List.filterMap_cons_some (show Obs.timer? (.called timer _ _) = some timer from rfl),
          horder, ← hdata, ← hlive]
        rfl

end

/-! ## The order of the alarms -/

/-- What a pass is expected to call back: timers that were due when it began, each once
    and in the order of the alarms they had then. -/
def InAlarmOrder (now : UInt64) (s : State) (called : List Nat) : Prop :=
  (∀ a ∈ called, a ∈ live s.trace ∧ dueAt now (dataOf s) a = true) ∧ called.Nodup ∧
    called.Pairwise fun a b => ∀ d ∈ dataOf s a, ∀ d' ∈ dataOf s b, d.alarmUs ≤ d'.alarmUs

/-- The timers due, in the order of the list. -/
def dueTimers (now : UInt64) (s : State) : List Nat := (live s.trace).filter (dueAt now (dataOf s))

/-- A pass calls back in the order of the alarms exactly when the list has the first 64
    timers that are due in that order, and none of the first 63 is due again after its
    dispatch. -/
theorem pass_order_iff {s : State} (h : Reachable s) (now : UInt64) :
    ∃ s' obs, quietPass now s = .ok s' ∧ s'.frames = s.frames ∧ s'.trace = s.trace ++ obs ∧
      (InAlarmOrder now s (obs.filterMap Obs.timer?) ↔
        ((dueTimers now s).take 64).Pairwise
            (fun a b => ∀ d ∈ dataOf s a, ∀ d' ∈ dataOf s b, d.alarmUs ≤ d'.alarmUs) ∧
          ∀ a ∈ (dueTimers now s).take 63, staysDue now (dataOf s) a = false) := by
  have hinv := h.inv.1
  obtain ⟨s', obs, hrounds, hframes, htrace, horder⟩ :=
    rounds_order now (n := 64) (hinv.frames (⟨0, false⟩ :: s.frames)) rfl rfl
  refine ⟨s', obs, hrounds, hframes, htrace, ?_⟩
  have horder' : obs.filterMap Obs.timer? = order now (live s.trace) 64 (dataOf s) := horder
  obtain ⟨hiff, heq⟩ := order_eq (D := dataOf s) 64 hinv.nodup
  rw [horder']
  constructor
  -- each timer once: the calls are the first 64 due timers, in their order
  · rintro ⟨-, hnodup, hpairwise⟩
    rw [heq hnodup] at hpairwise
    exact ⟨hpairwise, hiff.mp hnodup⟩
  · rintro ⟨hpairwise, hstays⟩
    have hnodup := hiff.mpr hstays
    rw [InAlarmOrder, heq hnodup]
    refine ⟨fun a ha => ?_, heq hnodup ▸ hnodup, hpairwise⟩
    exact List.mem_filter.mp (List.mem_of_mem_take ha)

/-- Two one-shot timers, the one at address 1 created first. -/
def twoTimers (first second : UInt64) (active : Bool) (trace : List Obs) : State where
  store := ⟨Function.update (oneTimer first true [] []).store.heap 2
    (some ⟨{ callback := 8, arg := 4, alarmUs := second, active := active }, 1⟩), 2⟩
  blocks := [2, 1]
  trace := trace

/-- Both timers started. -/
def twoStarted (first second : UInt64) : State :=
  twoTimers first second true [.created 1, .started 1 true, .created 2, .started 2 true]

/-- The state of the example is reached. -/
private theorem twoStarted_reachable {first second : UInt64} (hfirst : ¬ first ≤ 0)
    (hsecond : ¬ second ≤ 0) :
    Reachable (twoStarted first second) := by
  -- neither time is zero, which a start refuses
  have hne : first ≠ 0 := fun heq => hfirst (heq ▸ UInt64.le_refl 0)
  have hne' : second ≠ 0 := fun heq => hsecond (heq ▸ UInt64.le_refl 0)
  have hcreate : Reachable (oneTimer 0 false [] [.created 1]) :=
    .step (e := .api (.create (some ⟨some 7, 3⟩) true (some 1))) .start
      ⟨by simp [Idle], by simp [Op.OnLive]⟩ rfl
  have hstart : Reachable (oneTimer first true [] [.created 1, .started 1 true]) := by
    refine .step (e := .api (.startOnceAt 1 first 0)) hcreate ⟨by simp [Idle, oneTimer], .inr ?_⟩ ?_
    · decide
    · simp [step, perform, timerStartOnceAt, timerStart, oneTimer, State.setData, State.log,
        State.record, Op.observed, hfirst, hne]
  have hcreate' : Reachable
      (twoTimers first 0 false [.created 1, .started 1 true, .created 2]) :=
    .step (e := .api (.create (some ⟨some 8, 4⟩) true (some 2))) hstart
      ⟨by simp [Idle, oneTimer], by simp [Op.OnLive, oneTimer]⟩ rfl
  refine .step (e := .api (.startOnceAt 2 second 0)) hcreate' ⟨by simp [Idle, twoTimers], .inr ?_⟩ ?_
  · show 2 ∈ live [.created 1, .started 1 true, .created 2]
    decide
  · simp [step, perform, timerStartOnceAt, timerStart, twoTimers, twoStarted, State.setData,
      State.log, State.record, Op.observed, hsecond, hne']

/-- The timer created last has the earlier alarm: the pass at 20 keeps to the alarms. -/
theorem pass_order_ascending :
    ∃ s' obs, quietPass 20 (twoStarted 10 5) = .ok s' ∧
      s'.trace = (twoStarted 10 5).trace ++ obs ∧
      InAlarmOrder 20 (twoStarted 10 5) (obs.filterMap Obs.timer?) := by
  have hreach : Reachable (twoStarted 10 5) := twoStarted_reachable (by decide) (by decide)
  obtain ⟨s', obs, hpass, -, htrace, hiff⟩ := pass_order_iff hreach 20
  exact ⟨s', obs, hpass, htrace, hiff.mpr (by decide)⟩

/-- The timer created first has the earlier alarm: the pass at 20 calls it back last. -/
theorem pass_order_wrong :
    Reachable (twoStarted 5 10) ∧
      ∃ s' obs, quietPass 20 (twoStarted 5 10) = .ok s' ∧
        s'.trace = (twoStarted 5 10).trace ++ obs ∧ obs.filterMap Obs.timer? = [2, 1] ∧
        ¬ InAlarmOrder 20 (twoStarted 5 10) (obs.filterMap Obs.timer?) := by
  have hreach : Reachable (twoStarted 5 10) := twoStarted_reachable (by decide) (by decide)
  obtain ⟨s', obs, hrounds, -, htrace, horder⟩ :=
    rounds_order 20 (n := 64) (hreach.inv.1.frames (⟨0, false⟩ :: (twoStarted 5 10).frames)) rfl rfl
  have hcalled : obs.filterMap Obs.timer? = [2, 1] := horder.trans (by decide)
  refine ⟨hreach, s', obs, hrounds, htrace, hcalled, ?_⟩
  rw [hcalled]
  rintro ⟨-, -, hpairwise⟩
  have hle := (List.pairwise_cons.mp hpairwise).1 1 (List.mem_cons_self ..) _ rfl _ rfl
  exact absurd hle (by decide)

end EspS31.Timer
