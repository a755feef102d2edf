import EspS31.Spec.TimerDispatch
import Mathlib.Data.Nat.ModEq

/-!
# Periodic timers keep their phase

A timer that is dispatched late is set to the next alarm on its grid, and the periods it
missed are skipped.  Between two alarms there is at most one call, so over any run the
calls are no more than the alarms that have passed.

## Key results

- `rearm_alarm`: the alarm after a dispatch
- `iterate_timer`, `perform_timer`: what an event does to one timer
- `Undisturbed.onPhase`: the invariant of a run that leaves the timer alone
- `periodic_keeps_phase`: the alarms of a periodic timer and the number of its calls
-/

namespace EspS31.Timer

open LinkedList

/-- The fields of a timer. -/
def dataOf (s : State) (a : Nat) : Option TimerData := (s.store.heap a).map Node.val

/-- The timer that was written. -/
theorem dataOf_setData_self (s : State) (a : Nat) (node : Node TimerData) (data : TimerData) :
    dataOf (s.setData a node data) a = some data := by simp [dataOf, State.setData]

/-- The other timers are as they were. -/
theorem dataOf_setData_of_ne (s : State) {a b : Nat} (h : a ≠ b) (node : Node TimerData)
    (data : TimerData) : dataOf (s.setData b node data) a = dataOf s a := by
  simp [dataOf, State.setData, Function.update_of_ne h]

/-- The callbacks of a timer made so far. -/
def calls (a : Nat) (s : State) : Nat := s.trace.countP (Obs.isCall a)

/-! ## The next alarm -/

/-- The next alarm of a periodic timer is the first one after `now` on its grid. -/
theorem rearm_alarm {data : TimerData} {now : UInt64} (hperiod : data.periodUs ≠ 0)
    (hdue : data.alarmUs ≤ now) (hbound : now.toNat + data.periodUs.toNat < 2 ^ 64) :
    (rearm now data).alarmUs.toNat = data.alarmUs.toNat +
      ((now.toNat - data.alarmUs.toNat) / data.periodUs.toNat + 1) * data.periodUs.toNat := by
  rw [UInt64.le_iff_toNat_le] at hdue
  have hpos : 0 < data.periodUs.toNat := by
    rw [Nat.pos_iff_ne_zero]
    exact fun heq => hperiod (UInt64.toNat_inj.mp heq)
  -- nothing wraps, since the skipped periods end before `now`
  have hskip : (now.toNat - data.alarmUs.toNat) / data.periodUs.toNat * data.periodUs.toNat ≤
      now.toNat - data.alarmUs.toNat := Nat.div_mul_le_self _ _
  have hquot : (now.toNat - data.alarmUs.toNat) / data.periodUs.toNat ≤
      now.toNat - data.alarmUs.toNat := Nat.div_le_self _ _
  have hmul : ((now.toNat - data.alarmUs.toNat) / data.periodUs.toNat + 1) * data.periodUs.toNat =
      (now.toNat - data.alarmUs.toNat) / data.periodUs.toNat * data.periodUs.toNat +
        data.periodUs.toNat := Nat.succ_mul _ _
  have hone : (1 : UInt64).toNat = 1 := rfl
  have hlt := now.toNat_lt
  simp only [rearm, if_pos hperiod, UInt64.toNat_add, UInt64.toNat_mul, UInt64.toNat_div,
    UInt64.toNat_sub_of_le _ _ (UInt64.le_iff_toNat_le.mpr hdue), hone]
  rw [Nat.mod_eq_of_lt (a := (now.toNat - data.alarmUs.toNat) / data.periodUs.toNat + 1) (by omega),
    Nat.mod_eq_of_lt (a := (_ + 1) * _) (by omega), Nat.mod_eq_of_lt (by omega)]

/-- A call leaves the period. -/
private theorem rearm_periodUs (now : UInt64) (data : TimerData) :
    (rearm now data).periodUs = data.periodUs := by
  rw [rearm]
  split <;> rfl

/-- A call leaves a periodic timer active. -/
private theorem rearm_active {data : TimerData} (hperiod : data.periodUs ≠ 0) (now : UInt64) :
    (rearm now data).active = data.active := by rw [rearm, if_pos hperiod]

/-! ## What an event does to one timer -/

/-- The calls that leave a timer alone. -/
def Op.Leaves (a : Nat) : Op → Prop
  | .delete b | .stop b | .restart b _ _ => b ≠ a
  | _ => True

/-- A state after others have been at work: the timer is as it was and has not been called. -/
structure Untouched (a : Nat) (s s' : State) : Prop where
  data : dataOf s' a = dataOf s a
  live : a ∈ live s'.trace
  calls : calls a s' = calls a s

section

variable {s s' : State} {a : Nat}

/-- Nothing done leaves the timer alone. -/
theorem Untouched.refl (hlive : a ∈ Timer.live s.trace) : Untouched a s s := ⟨rfl, hlive, rfl⟩

/-- A plain observation. -/
theorem Untouched.log {o : Obs} (h : Untouched a s s') (hdelete : o ≠ .deleted a)
    (hcall : o.isCall a = false) : Untouched a s (s'.log o) := by
  refine ⟨h.data, ?_, ?_⟩
  · rw [log_trace, live_concat]
    cases o with
    | created b => exact List.mem_cons_of_mem _ h.live
    | deleted b =>
      have hne : a ≠ b := fun heq => hdelete (heq ▸ rfl)
      exact (List.mem_erase_of_ne hne).mpr h.live
    | started _ _ | stopped _ | called _ _ _ | passed _ _ => exact h.live
  · have hcount := h.calls
    rw [Timer.calls] at hcount ⊢
    rw [log_trace, List.countP_append, List.countP_singleton, hcall, hcount]
    rfl

/-- Writing the fields of another timer. -/
theorem Untouched.setData {b : Nat} {node : Node TimerData} {data : TimerData}
    (hlive : a ∈ Timer.live s.trace) (hne : b ≠ a) : Untouched a s (s.setData b node data) :=
  ⟨dataOf_setData_of_ne s (Ne.symm hne) node data, hlive, rfl⟩

/-- The loops under way do not matter to it. -/
theorem Untouched.frames (h : Untouched a s s') (frames : List Frame) :
    Untouched a s { s' with frames := frames } := ⟨h.data, h.live, h.calls⟩

/-- Starting a timer that is active changes nothing. -/
private theorem timerStart_untouched {b : Nat} {alarmUs periodUs : UInt64} {err : EspErr}
    {d : TimerData}
    (hlive : a ∈ live s.trace) (hd : dataOf s a = some d) (hactive : d.active = true)
    (h : timerStart b alarmUs periodUs s = .ok (err, s')) : Untouched a s s' := by
  unfold timerStart at h
  split at h
  · cases h
    exact .refl hlive
  · split at h
    · exact nomatch h
    · next node hnode =>
      split at h
      · cases h
        exact .refl hlive
      · next hinactive =>
        cases h
        -- an active timer is not started again
        have hne : b ≠ a := by
          rintro rfl
          rw [dataOf, hnode] at hd
          exact hinactive (Option.some.inj hd ▸ hactive)
        exact Untouched.setData hlive hne

/-- A call of the interface that leaves the timer alone. -/
private theorem perform_untouched {op : Op} {err : EspErr} {d : TimerData} (hinv : Inv s)
    (hlive : a ∈ live s.trace) (hd : dataOf s a = some d) (hactive : d.active = true)
    (hop : op.OnLive s) (hleaves : op.Leaves a) (h : perform op s = .ok (err, s')) :
    Untouched a s s' := by
  have hearly : ∀ {p : Prop} [Decidable p] {r : Except Fault (EspErr × State)},
      (if p then .ok (.invalidArg, s) else r) = .ok (err, s') → (r = .ok (err, s') → Untouched a s s') →
      Untouched a s s' := by
    intro p _ r h hr
    split at h
    · cases h
      exact .refl hlive
    · exact hr h
  cases op with
  | create args out block =>
    simp only [perform, timerCreate] at h
    split at h
    · cases h
      exact .refl hlive
    · split at h
      · cases h
        exact .refl hlive
      · split at h
        · cases h
          exact .refl hlive
        · split at h
          · cases h
            exact .refl hlive
          · next timer =>
            cases h
            -- the allocator does not give out the timer's own block
            have hne : a ≠ timer := by
              rintro rfl
              exact (hop a rfl).2 (hinv.blocks ▸ hlive)
            refine ⟨?_, hlive, rfl⟩
            rw [dataOf]
            simp only [Function.update_of_ne hne]
            rfl
  -- another timer is taken out of the list
  | delete b =>
    simp only [perform, timerDelete] at h
    split at h
    · cases h
    · split at h
      · cases h
      · split at h
        · cases h
          exact .refl hlive
        · split at h
          · cases h
          · cases h
            refine ⟨?_, hlive, rfl⟩
            exact map_val_unlinked s.store _ _ (Ne.symm hleaves)
  -- a start of this timer is refused while it is active
  | startOnce b timeoutUs now => exact timerStart_untouched hlive hd hactive h
  | startOnceAt b alarmUs now => exact hearly h (timerStart_untouched hlive hd hactive)
  | startPeriodic b periodUs now => exact timerStart_untouched hlive hd hactive h
  | startPeriodicAt b periodUs first now => exact hearly h (timerStart_untouched hlive hd hactive)
  | stop b =>
    simp only [perform, timerStop] at h
    refine hearly h fun h => ?_
    split at h
    · cases h
    · split at h
      · cases h
        exact .refl hlive
      · cases h
        exact Untouched.setData hlive hleaves
  -- a restart writes the fields of its own timer, which is another one
  | restart b timeoutUs now =>
    simp only [perform, timerRestart] at h
    refine hearly h fun h => ?_
    split at h
    · cases h
    · split at h
      · cases h
        exact .refl hlive
      · cases h
        exact Untouched.setData hlive hleaves

/-- What such a call tells its caller is not about this timer's end or a callback. -/
private theorem observed_leaves {op : Op} {err : EspErr} {o : Obs} (hleaves : op.Leaves a)
    (ho : op.observed err = some o) : o ≠ .deleted a ∧ o.isCall a = false := by
  cases err with
  | ok =>
    -- what a successful call observes is about its own timer
    cases op with
    | create args out block =>
      obtain ⟨timer, -, rfl⟩ := Option.map_eq_some_iff.mp ho
      exact ⟨nofun, rfl⟩
    | delete b =>
      obtain rfl := Option.some.inj ho
      exact ⟨fun heq => hleaves (Obs.deleted.inj heq), rfl⟩
    | restart b timeoutUs now => cases ho
    | _ =>
      obtain rfl := Option.some.inj ho
      exact ⟨nofun, rfl⟩
  | _ =>
    rw [observed_of_ne (by simp)] at ho
    cases ho

/-- A call that leaves the timer alone changes nothing of it. -/
theorem perform_timer {op : Op} {err : EspErr} {d : TimerData} (hinv : Inv s)
    (hlive : a ∈ live s.trace) (hd : dataOf s a = some d) (hactive : d.active = true)
    (hop : op.OnLive s) (hleaves : op.Leaves a) (h : perform op s = .ok (err, s')) :
    Untouched a s (s'.record (op.observed err)) := by
  have hcall := perform_untouched hinv hlive hd hactive hop hleaves h
  cases ho : op.observed err with
  | none => exact hcall
  | some o =>
    obtain ⟨hdelete, hquiet⟩ := observed_leaves hleaves ho
    exact hcall.log hdelete hquiet

/-- A timer that is due is called and set to its next alarm. -/
structure Dispatched (a : Nat) (now : UInt64) (s s' : State) : Prop where
  data : ∃ d, dataOf s a = some d ∧ due now d = true ∧ dataOf s' a = some (rearm now d)
  live : a ∈ live s'.trace
  calls : calls a s' = calls a s + 1

/-- A round of a pass dispatches the timer or leaves it alone. -/
theorem iterate_timer {now : UInt64} {frame : Frame} {frames : List Frame} (hinv : Inv s)
    (hlive : a ∈ live s.trace) (h : iterate now frame frames s = .ok s') :
    Untouched a s s' ∨ Dispatched a now s s' := by
  obtain ⟨reads, found, hscan, -, hfound, -⟩ := scan_eq hinv now
  have hends : Untouched a s ({ s with frames := frames }.log (.passed frame.callbacks now)) :=
    Untouched.log ⟨rfl, hlive, rfl⟩ (fun heq => by cases heq) rfl
  simp only [iterate, hscan] at h
  cases found with
  -- no timer is due
  | none =>
    cases h
    exact .inl hends
  | some timer =>
    obtain ⟨-, n, hn, hdue⟩ := hfound timer rfl
    simp only [hn] at h
    split at h
    · cases h
      exact .inl hends
    · cases h
      -- the pass calls this timer or another one
      by_cases hne : timer = a
      · subst hne
        refine .inr ⟨⟨n.val, ?_, hdue, ?_⟩, ?_, ?_⟩
        · rw [dataOf, hn]
          rfl
        · exact dataOf_setData_self s timer n (rearm now n.val)
        · rw [log_trace, live_concat]
          exact hlive
        · rw [Timer.calls, log_trace, List.countP_append, List.countP_singleton, Obs.isCall,
            decide_eq_true rfl]
          rfl
      · refine .inl ?_
        have hset : Untouched a s { s.setData timer n (rearm now n.val) with
            frames := ⟨frame.callbacks + 1, true⟩ :: frames } :=
          (Untouched.setData hlive hne).frames _
        exact hset.log (fun heq => by cases heq) (decide_eq_false hne)

end

/-! ## Runs -/

/-- The events of a run that leaves a timer alone. -/
def Event.Leaves (a : Nat) : Event → Prop
  | .api op => op.Leaves a
  | _ => True

/-- The last reading of the clock by a pass. -/
def Event.clock (t : UInt64) : Event → UInt64
  | .iterate now => now
  | _ => t

/-- Runs from `s₀` during which the timer is neither stopped, restarted nor deleted and the
    clock does not go back.  The time is the last reading; with the period it stays below
    `2 ^ 64`. -/
inductive Undisturbed (a : Nat) (period : UInt64) (s₀ : State) : State → UInt64 → Prop where
  | refl : Undisturbed a period s₀ s₀ 0
  | step {s s' t e} (h : Undisturbed a period s₀ s t) (he : Enabled s e) (hleaves : e.Leaves a)
    (hclock : t ≤ e.clock t) (hbound : (e.clock t).toNat + period.toNat < 2 ^ 64)
    (hs : step s e = .ok s') : Undisturbed a period s₀ s' (e.clock t)

/-- The alarm is `j` periods after the first one, there have been at most `j` calls, and the
    alarm before it has passed. -/
structure OnPhase (a : Nat) (d₀ : TimerData) (c₀ : Nat) (s : State) (t : UInt64) (d : TimerData)
    (j : Nat) : Prop where
  live : a ∈ live s.trace
  data : dataOf s a = some d
  active : d.active = true
  period : d.periodUs = d₀.periodUs
  alarm : d.alarmUs.toNat = d₀.alarmUs.toNat + j * d₀.periodUs.toNat
  since : c₀ ≤ calls a s
  calls : calls a s ≤ c₀ + j
  passed : j = 0 ∨ d₀.alarmUs.toNat + (j - 1) * d₀.periodUs.toNat ≤ t.toNat

section

variable {s₀ s s' : State} {a : Nat} {d₀ d : TimerData} {t : UInt64} {c₀ j : Nat}

/-- A timer left alone stays on its phase. -/
theorem OnPhase.untouched (h : OnPhase a d₀ c₀ s t d j) (h' : Untouched a s s') {t' : UInt64}
    (ht : t ≤ t') : OnPhase a d₀ c₀ s' t' d j where
  live := h'.live
  data := h'.data.trans h.data
  active := h.active
  period := h.period
  alarm := h.alarm
  since := h'.calls ▸ h.since
  calls := h'.calls ▸ h.calls
  passed := h.passed.imp_right fun hpassed => Nat.le_trans hpassed (UInt64.le_iff_toNat_le.mp ht)

/-- A dispatch moves the alarm on by the periods that have passed. -/
theorem OnPhase.dispatched (h : OnPhase a d₀ c₀ s t d j) {now : UInt64}
    (hperiod : d₀.periodUs ≠ 0) (hbound : now.toNat + d₀.periodUs.toNat < 2 ^ 64)
    (h' : Dispatched a now s s') :
    d.alarmUs ≤ now ∧ OnPhase a d₀ c₀ s' now (rearm now d)
      (j + ((now.toNat - d.alarmUs.toNat) / d₀.periodUs.toNat + 1)) := by
  obtain ⟨⟨d', hd', hdue, hdata⟩, hlive, hcalls⟩ := h'
  obtain rfl := Option.some.inj (h.data.symm.trans hd')
  have hle : d.alarmUs ≤ now := by
    rw [due, Bool.and_eq_true] at hdue
    exact of_decide_eq_true hdue.2
  have halarm := rearm_alarm (h.period ▸ hperiod) hle (h.period ▸ hbound)
  rw [h.period] at halarm
  -- the periods that are skipped lie before the dispatch
  have hskip : (now.toNat - d.alarmUs.toNat) / d₀.periodUs.toNat * d₀.periodUs.toNat ≤
      now.toNat - d.alarmUs.toNat := Nat.div_mul_le_self _ _
  have hnat := UInt64.le_iff_toNat_le.mp hle
  generalize (now.toNat - d.alarmUs.toNat) / d₀.periodUs.toNat = q at halarm hskip ⊢
  refine ⟨hle, hlive, hdata, ?_, ?_, ?_, ?_, ?_, .inr ?_⟩
  · rw [rearm_active (h.period ▸ hperiod), h.active]
  · rw [rearm_periodUs, h.period]
  -- the new alarm is a whole number of periods after the first
  · rw [halarm, h.alarm, Nat.add_mul j, Nat.add_assoc]
  · have := h.since
    omega
  · have := h.calls
    omega
  · rw [← Nat.add_assoc, Nat.add_sub_cancel, Nat.add_mul, ← Nat.add_assoc, ← h.alarm]
    omega

/-- One event of a run. -/
theorem OnPhase.step (h : OnPhase a d₀ c₀ s t d j) (hinv : Inv s) {e : Event}
    (hperiod : d₀.periodUs ≠ 0) (he : Enabled s e) (hleaves : e.Leaves a)
    (hclock : t ≤ e.clock t) (hbound : (e.clock t).toNat + d₀.periodUs.toNat < 2 ^ 64)
    (hs : Timer.step s e = .ok s') : ∃ d' j', OnPhase a d₀ c₀ s' (e.clock t) d' j' := by
  cases e with
  | api op =>
    simp only [Timer.step] at hs
    split at hs
    · cases hs
    · next hperform =>
      cases hs
      exact ⟨d, j, h.untouched (perform_timer hinv h.live h.data h.active he.2 hleaves hperform)
        hclock⟩
  | tick =>
    cases hs
    exact ⟨d, j, h.untouched ((Untouched.refl h.live).frames _) hclock⟩
  | iterate now =>
    obtain ⟨frame, hhead, -⟩ := he
    obtain ⟨frames, hsplit⟩ := List.head?_eq_some_iff.mp hhead
    simp only [Timer.step, hsplit] at hs
    -- the iteration is about another timer, or dispatches this one a period later
    obtain h' | h' := iterate_timer hinv h.live hs
    · exact ⟨d, j, h.untouched h' hclock⟩
    · exact ⟨_, _, (h.dispatched hperiod hbound h').2⟩
  | callbackReturns =>
    simp only [Timer.step] at hs
    split at hs
    · cases hs
      exact ⟨d, j, h.untouched (.refl h.live) hclock⟩
    · cases hs
      exact ⟨d, j, h.untouched ((Untouched.refl h.live).frames _) hclock⟩

/-- The states of such a run are reached. -/
theorem Undisturbed.reachable {period : UInt64} (h₀ : Reachable s₀)
    (h : Undisturbed a period s₀ s t) : Reachable s := by
  induction h with
  | refl => exact h₀
  | step _ he _ _ _ hs ih => exact .step ih he hs

/-- Along a run that leaves it alone a periodic timer stays on its grid. -/
theorem Undisturbed.onPhase (h₀ : Reachable s₀) (hlive : a ∈ live s₀.trace)
    (hd₀ : dataOf s₀ a = some d₀) (hactive : d₀.active = true) (hperiod : d₀.periodUs ≠ 0)
    (h : Undisturbed a d₀.periodUs s₀ s t) : ∃ d j, OnPhase a d₀ (calls a s₀) s t d j := by
  induction h with
  | refl => exact ⟨d₀, 0, hlive, hd₀, hactive, rfl, by rw [Nat.zero_mul]; rfl, le_rfl, le_rfl,
      .inl rfl⟩
  | step hrun he hleaves hclock hbound hs ih =>
    obtain ⟨d, j, hphase⟩ := ih
    exact hphase.step (hrun.reachable h₀).inv.1 hperiod he hleaves hclock hbound hs

/-- The calls are at most the alarms that have passed. -/
theorem OnPhase.calls_le (h : OnPhase a d₀ c₀ s t d j) (hperiod : d₀.periodUs ≠ 0) {T : Nat}
    (ht : t.toNat ≤ T) :
    (d₀.alarmUs.toNat ≤ T →
        Timer.calls a s ≤ c₀ + ((T - d₀.alarmUs.toNat) / d₀.periodUs.toNat + 1)) ∧
      (T < d₀.alarmUs.toNat → Timer.calls a s ≤ c₀) := by
  have hcalls := h.calls
  have hpos : 0 < d₀.periodUs.toNat := by
    rw [Nat.pos_iff_ne_zero]
    exact fun heq => hperiod (UInt64.toNat_inj.mp heq)
  obtain hzero | hpassed := h.passed
  -- it has not been called yet
  · have hle : Timer.calls a s ≤ c₀ := by omega
    exact ⟨fun _ => Nat.le_add_right_of_le hle, fun _ => hle⟩
  -- the alarm before the next one has passed, and each call has its own period
  · refine ⟨fun hle => ?_, fun hlt => ?_⟩
    · have hquot : j - 1 ≤ (T - d₀.alarmUs.toNat) / d₀.periodUs.toNat := by
        rw [Nat.le_div_iff_mul_le hpos]
        omega
      generalize (T - d₀.alarmUs.toNat) / d₀.periodUs.toNat = q at hquot ⊢
      omega
    · omega

end

/-- A periodic timer that is neither stopped, restarted nor deleted: each dispatch is at a
    time that has reached the alarm, and sets the alarm to the one behind that time which
    is congruent to the first alarm; up to a time `T` there are no more calls than alarms,
    and none before the first. -/
theorem periodic_keeps_phase {s₀ s : State} {a : Nat} {d₀ : TimerData} {t : UInt64}
    (h₀ : Reachable s₀) (hlive : a ∈ live s₀.trace) (hd₀ : dataOf s₀ a = some d₀)
    (hactive : d₀.active = true) (hperiod : d₀.periodUs ≠ 0)
    (hrun : Undisturbed a d₀.periodUs s₀ s t) :
    (∀ now s', Enabled s (.iterate now) → t ≤ now → now.toNat + d₀.periodUs.toNat < 2 ^ 64 →
      step s (.iterate now) = .ok s' → calls a s' ≠ calls a s →
      ∃ d d', dataOf s a = some d ∧ dataOf s' a = some d' ∧ d.alarmUs ≤ now ∧
        d'.alarmUs.toNat ≡ d₀.alarmUs.toNat [MOD d₀.periodUs.toNat] ∧ now < d'.alarmUs ∧
        d'.alarmUs.toNat ≤ now.toNat + d₀.periodUs.toNat) ∧
    ∀ T, t.toNat ≤ T →
      (d₀.alarmUs.toNat ≤ T →
        calls a s - calls a s₀ ≤ (T - d₀.alarmUs.toNat) / d₀.periodUs.toNat + 1) ∧
      (T < d₀.alarmUs.toNat → calls a s = calls a s₀) := by
  -- at the end of the run the alarm is `j` periods after the first one
  obtain ⟨d, j, hphase⟩ := hrun.onPhase h₀ hlive hd₀ hactive hperiod
  refine ⟨fun now s' he hclock hbound hs hcalls => ?_, fun T ht => ?_⟩
  · have hinv := (hrun.reachable h₀).inv.1
    obtain ⟨frame, hhead, -⟩ := he
    obtain ⟨frames, hsplit⟩ := List.head?_eq_some_iff.mp hhead
    simp only [step, hsplit] at hs
    obtain h' | h' := iterate_timer hinv hphase.live hs
    · exact absurd h'.calls hcalls
    -- the timer is called: it is set to the first alarm of its grid after `now`
    · obtain ⟨hle, hphase'⟩ := hphase.dispatched hperiod hbound h'
      have halarm := rearm_alarm (hphase.period ▸ hperiod) hle (hphase.period ▸ hbound)
      have hmod := Nat.div_add_mod' (now.toNat - d.alarmUs.toNat) d₀.periodUs.toNat
      have hlt : (now.toNat - d.alarmUs.toNat) % d₀.periodUs.toNat < d₀.periodUs.toNat := by
        apply Nat.mod_lt
        exact Nat.pos_of_ne_zero fun heq => hperiod (UInt64.toNat_inj.mp heq)
      have hnat := UInt64.le_iff_toNat_le.mp hle
      rw [hphase.period, Nat.succ_mul] at halarm
      refine ⟨d, rearm now d, hphase.data, hphase'.data, hle, ?_, ?_, ?_⟩
      · rw [hphase'.alarm, Nat.ModEq, Nat.add_mul_mod_self_right]
      · rw [UInt64.lt_iff_toNat_lt, halarm]
        omega
      · omega
  · obtain ⟨hsome, hnone⟩ := hphase.calls_le hperiod ht
    refine ⟨fun hle => ?_, fun hlt => Nat.le_antisymm (hnone hlt) hphase.since⟩
    exact Nat.sub_le_iff_le_add'.mpr (hsome hle)

/-- A timer with period 10 and its first alarm at 15. -/
def periodicTimer (frames : List Frame) (alarmUs : UInt64) (trace : List Obs) : State where
  store := ⟨Function.update (fun _ => none) 1
    (some ⟨{ callback := 7, arg := 3, alarmUs := alarmUs, periodUs := 10, active := true }, 0⟩), 1⟩
  blocks := [1]
  frames := frames
  trace := trace

/-- A pass at 37 calls the timer once and sets it to 45. -/
theorem periodicTimer_phase :
    Undisturbed 1 10 (periodicTimer [] 15 [.created 1, .started 1 false])
        (periodicTimer [⟨1, true⟩] 45 [.created 1, .started 1 false, .called 1 7 3]) 37 ∧
      calls 1 (periodicTimer [⟨1, true⟩] 45 [.created 1, .started 1 false, .called 1 7 3]) -
        calls 1 (periodicTimer [] 15 [.created 1, .started 1 false]) ≤ (37 - 15) / 10 + 1 := by
  -- created, started with period 10 at 5, and the tick begins a pass
  have hcreate : Reachable (oneTimer 0 false [] [.created 1]) :=
    .step (e := .api (.create (some ⟨some 7, 3⟩) true (some 1))) .start
      ⟨by simp [Idle], by simp [Op.OnLive]⟩ rfl
  have hstart : Reachable (periodicTimer [] 15 [.created 1, .started 1 false]) := by
    refine .step (e := .api (.startPeriodic 1 10 5)) hcreate ⟨by simp [Idle, oneTimer], .inr ?_⟩ ?_
    · decide
    · simp [step, perform, timerStartPeriodic, timerStart, oneTimer, periodicTimer, State.setData,
        State.log, State.record, Op.observed]
  have htick : Undisturbed 1 10 (periodicTimer [] 15 [.created 1, .started 1 false])
      (periodicTimer [⟨0, false⟩] 15 [.created 1, .started 1 false]) 0 :=
    .step (e := .tick) .refl (by simp [Enabled, Idle, periodicTimer]) trivial (by decide)
      (by decide) rfl
  -- dispatched at 37: the alarms at 25 and 35 are skipped and the next is at 45
  have hcall : Undisturbed 1 10 (periodicTimer [] 15 [.created 1, .started 1 false])
      (periodicTimer [⟨1, true⟩] 45 [.created 1, .started 1 false, .called 1 7 3]) 37 := by
    refine .step (e := .iterate 37) htick ⟨⟨0, false⟩, rfl, rfl⟩ trivial (by decide) (by decide) ?_
    simp [step, iterate, scan, find, due, rearm, periodicTimer, State.setData, State.log, State.fuel]
  have hdata : dataOf (periodicTimer [] 15 [.created 1, .started 1 false]) 1 =
      some { callback := 7, arg := 3, alarmUs := 15, periodUs := 10, active := true } := rfl
  obtain ⟨-, hcount⟩ := periodic_keeps_phase hstart (by decide) hdata rfl (by decide) hcall
  exact ⟨hcall, (hcount 37 le_rfl).1 (by decide)⟩

end EspS31.Timer
