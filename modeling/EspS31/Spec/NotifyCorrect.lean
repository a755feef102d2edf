import EspS31.Native.Rtos

/-!
# Accepted notifications

A notification is accepted by the locked section of `xTaskGenericNotify` that
returns `pdPASS`, and is consumed by the section of the target's
`xTaskGenericNotifyWait` that returns `pdPASS`.  In between the target should be
in state `received`.

A wait that gives up runs a second section which resets the state without
looking at it.  Whatever was accepted since its first section is dropped there,
and nowhere else.

## Key results

- `step_pending`: one step keeps `received` in line with the history, unless it
  is a closing section that finds `received`
- `notification_kept`: the same for whole runs, and which next steps break it
- `notification_dropped`: a run that drops an accepted notification
-/

namespace EspS31.Rtos

open SyncProtocol

/-- `ulTaskGenericNotifyTake` shares the notification fields but waits for the
    value, not for the state; it is kept apart from these calls. -/
def RtosOp.NoTake : RtosOp → Prop
  | .ulTaskGenericNotifyTake _ _ _ => False
  | _ => True

/-- The calls without those that take a notification's value. -/
abbrev NotifyOp := { op : RtosOp // op.NoTake }

/-- The functions on queues, groups and notifications for these calls. -/
def notifyCode : Entry Thread Ctx World Ret TickType NotifyOp := fun th op => rtosCode th op.1

/-- Threads that notify and wait. -/
abbrev NotifyConfig := Config Thread Ctx World Ret TickType NotifyOp

/-! ## Pending notifications -/

/-- Task `T` is the target of the notification. -/
def RtosOp.notifies (T : TaskHandle) : RtosOp → Bool
  | .xTaskGenericNotify task _ _ _ _ => task = T
  | _ => false

/-- Task `T`, running in `th`, waits for a notification. -/
def RtosOp.awaits (T : TaskHandle) (th : Thread) : RtosOp → Bool
  | .xTaskGenericNotifyWait _ _ _ _ _ => th.task = T
  | _ => false

/-- The notification of `T` is pending after a step if it was accepted there,
    or was pending before and not consumed there. -/
def pendingStep (T : TaskHandle) (p : Bool) : Thread × Event NotifyOp Ret → Bool
  | (th, .locked op (.done ret _)) =>
    if ret.rc = pdPASS then
      if op.1.notifies T then true else if op.1.awaits T th then false else p
    else p
  | _ => p

/-- Some notification of `T` has been accepted and not consumed. -/
def pending (T : TaskHandle) (log : List (Thread × Event NotifyOp Ret)) : Bool :=
  log.foldl (pendingStep T) false

/-- One event more, and whether a notification is pending. -/
private theorem pending_snoc (T : TaskHandle) (log : List (Thread × Event NotifyOp Ret))
    (x : Thread × Event NotifyOp Ret) :
    pending T (log ++ [x]) = pendingStep T (pending T log) x := by
  simp only [pending, List.foldl_append, List.foldl_cons, List.foldl_nil]

/-- Whether the task is marked as notified. -/
def World.received (w : World) (T : TaskHandle) : Bool := (w.tcbs T).notifyState = .received

/-- The thread is not about to reset the state of a notified task: the closing
    section of its `xTaskGenericNotifyWait`, if it is at one, finds nothing. -/
def SafeClose (cfg : NotifyConfig) (th : Thread) : Prop :=
  ∀ op c late, cfg.pc th = .closing op c late → op.1.awaits th.task th →
    cfg.shared.received th.task = false

/-! ## Sections -/

/-- The call of `xTaskGenericNotify` with index 0. -/
def notifyCall (task : TaskHandle) (value : UInt32) (action : Int) (previous : Bool) :
    SyncCall Ctx World Ret TickType :=
  (SyncCall.once (.notify task) (notifySection value action previous)).zoom
    (fun w => w.tcbs task) (World.setTcb task)

/-- What the code of a call can be: a notification, a wait, or a call that
    leaves all notification fields alone. -/
private theorem notifyCode_calls {th : Thread} {op : NotifyOp} {c : SyncCall Ctx World Ret TickType}
    (h : Calls notifyCode th op c) :
    (∃ task value action previous,
      (∀ T, op.1.notifies T = decide (task = T)) ∧ (∀ T, op.1.awaits T th = false) ∧
      c = notifyCall task value action previous) ∨
    (∃ clearEntry clearExit out,
      (∀ T, op.1.notifies T = false) ∧ (∀ T, op.1.awaits T th = decide (th.task = T)) ∧
      c.body = SyncCall.zoomSection (fun w => w.tcbs th.task) (World.setTcb th.task)
        (notifyWaitSection clearEntry clearExit out) ∧
      ∀ late f, c.closing late = some f →
        f = SyncCall.zoomSection (fun w => w.tcbs th.task) (World.setTcb th.task)
          (notifyWaitClose out)) ∨
    ((∀ T, op.1.notifies T = false) ∧ (∀ T, op.1.awaits T th = false) ∧
      (∀ w, (c.body w).1.tcbs = w.tcbs) ∧
      ∀ late f, c.closing late = some f → ∀ w, (f w).1.tcbs = w.tcbs) := by
  obtain ⟨op, hop⟩ := op
  obtain ⟨w, w', h⟩ := h
  -- calls on queues and event groups reach the world through `setQueue` and `setGroup`
  have hqueue : ∀ (i : Nat) (c₀ : SyncCall Ctx S31Queue Ret TickType),
      c = c₀.zoom (fun w => w.queues i) (World.setQueue i) →
      (∀ w, (c.body w).1.tcbs = w.tcbs) ∧
        ∀ late f, c.closing late = some f → ∀ w, (f w).1.tcbs = w.tcbs := by
    rintro i c₀ rfl
    refine ⟨fun _ => rfl, fun late f hf w => ?_⟩
    rw [SyncCall.closing_zoom] at hf
    obtain ⟨f₀, -, rfl⟩ := Option.map_eq_some_iff.mp hf
    rfl
  have hgroup : ∀ (i : Nat) (c₀ : SyncCall Ctx S31EventGroup Ret TickType),
      c = c₀.zoom (fun w => w.groups i) (World.setGroup i) →
      (∀ w, (c.body w).1.tcbs = w.tcbs) ∧
        ∀ late f, c.closing late = some f → ∀ w, (f w).1.tcbs = w.tcbs := by
    rintro i c₀ rfl
    refine ⟨fun _ => rfl, fun late f hf w => ?_⟩
    rw [SyncCall.closing_zoom] at hf
    obtain ⟨f₀, -, rfl⟩ := Option.map_eq_some_iff.mp hf
    rfl
  cases op with
  | xQueueGenericSend | xQueueGenericSendFromISR | xQueueReceive | xQueueReceiveFromISR
  | xQueueSemaphoreTake | xQueueGiveMutexRecursive | xQueueGenericReset =>
    obtain ⟨c₀, -, hc⟩ := onQueue_inr h
    exact .inr (.inr ⟨fun _ => rfl, fun _ => rfl, hqueue _ c₀ hc⟩)
  | xEventGroupSetBits | xEventGroupClearBits | xEventGroupWaitBits =>
    obtain ⟨c₀, -, hc⟩ := onGroup_inr h
    exact .inr (.inr ⟨fun _ => rfl, fun _ => rfl, hgroup _ c₀ hc⟩)
  | xTaskGenericNotify task index value action previous =>
    obtain ⟨c₀, hf, rfl⟩ := onTcb_inr h
    unfold xTaskGenericNotify at hf
    split at hf
    · exact nomatch hf
    · obtain rfl := Sum.inr.inj hf
      exact .inl ⟨task, value, action, previous, fun _ => rfl, fun _ => rfl, rfl⟩
  -- left out: it takes counts, not notifications
  | ulTaskGenericNotifyTake => exact hop.elim
  | xTaskGenericNotifyWait index clearEntry clearExit out timeout =>
    obtain ⟨c₀, hf, rfl⟩ := onTcb_inr h
    unfold xTaskGenericNotifyWait at hf
    split at hf
    · exact nomatch hf
    · obtain rfl := Sum.inr.inj hf
      refine .inr (.inl ⟨clearEntry, clearExit, out, fun _ => rfl, fun _ => rfl, rfl, ?_⟩)
      intro late f hf
      cases late <;> exact (Option.some.inj hf).symm

/-- Writing a task's block changes the mark of that task only. -/
private theorem received_setTcb (w : World) (i T : TaskHandle) (t : S31Tcb) :
    (w.setTcb i t).received T =
      if T = i then decide (t.notifyState = .received) else w.received T := by
  simp only [World.received, World.setTcb, Function.update_apply]
  split <;> rfl

/-- An accepted notification leaves the target in `received`, a refused one
    changes nothing. -/
private theorem notifySection_received (value : UInt32) (action : Int) (previous : Bool)
    (t : S31Tcb) :
    ((notifySection value action previous t).2.1.rc = pdPASS ∧
        (notifySection value action previous t).1.notifyState = .received) ∨
      ((notifySection value action previous t).2.1.rc ≠ pdPASS ∧
        (notifySection value action previous t).1 = t) := by
  simp only [notifySection]
  split
  · exact .inl ⟨rfl, rfl⟩
  · exact .inr ⟨by simp only [Ret.rc]; decide, rfl⟩

/-! ## One step -/

/-- The mark is in the task's block. -/
private theorem received_of_tcbs {w w' : World} (h : w'.tcbs = w.tcbs) (T : TaskHandle) :
    w'.received T = w.received T := by
  simp only [World.received, h]

/-- A section of a call that is not about notifications. -/
private theorem pendingStep_other {T : TaskHandle} {p : Bool} {th : Thread} {op : NotifyOp}
    {out : Outcome Ret} (hn : op.1.notifies T = false) (ha : op.1.awaits T th = false) :
    pendingStep T p (th, .locked op out) = p := by
  cases out with
  | done ret wake =>
    simp only [pendingStep, hn, ha, Bool.false_eq_true, ↓reduceIte, ite_self]
  | unmet ret => rfl

/-- A notification section sets `received` exactly when it returns `pdPASS`. -/
private theorem notify_pending {T task : TaskHandle} {w : World} {th : Thread} {op : NotifyOp}
    {value : UInt32} {action : Int} {previous : Bool}
    (hn : op.1.notifies T = decide (task = T)) (ha : op.1.awaits T th = false) :
    ((notifyCall task value action previous).body w).1.received T =
      pendingStep T (w.received T)
        (th, .locked op ((notifyCall task value action previous).body w).2) := by
  simp only [notifyCall, SyncCall.zoom, SyncCall.once, SyncCall.zoomSection, SyncCall.onceBody,
    received_setTcb, pendingStep, hn, ha]
  obtain ⟨hrc, hstate⟩ | ⟨hrc, hsame⟩ :=
    notifySection_received value action previous (w.tcbs task)
  -- it is accepted: pending for this task, as before for the others
  · rw [if_pos hrc, hstate]
    by_cases hT : T = task
    · rw [if_pos hT, if_pos (decide_eq_true hT.symm)]
      rfl
    · rw [if_neg hT, if_neg (by simpa using fun h => hT h.symm)]
      rfl
  -- it is refused and the task stays as it was
  · rw [if_neg hrc, hsame]
    split
    · next hT => rw [hT, World.received]
    · rfl

/-- A wait section that returns `pdPASS` consumes the notification, one that
    does not found none. -/
private theorem notifyWait_pending {T : TaskHandle} {w : World} {th : Thread} {op : NotifyOp}
    {clearEntry clearExit : UInt32} {out : Bool}
    (hn : op.1.notifies T = false) (ha : op.1.awaits T th = decide (th.task = T)) :
    (w.setTcb th.task
        (notifyWaitSection clearEntry clearExit out (w.tcbs th.task)).1).received T =
      pendingStep T (w.received T)
        (th, .locked op (notifyWaitSection clearEntry clearExit out (w.tcbs th.task)).2) := by
  rw [received_setTcb]
  by_cases hT : T = th.task
  -- the wait is this task's own: it takes what is there or waits
  · subst hT
    rw [if_pos rfl]
    by_cases hrec : (w.tcbs th.task).notifyState = .received
    · simp only [notifyWaitSection, if_pos hrec, pendingStep, hn, ha, Ret.rc]
      rfl
    · simp only [notifyWaitSection, if_neg hrec, pendingStep, World.received, decide_eq_false hrec]
      rfl
  -- another task waits
  · have ha' : op.1.awaits T th = false := ha.trans (decide_eq_false fun h => hT h.symm)
    rw [if_neg hT, pendingStep_other hn ha']

variable {cfg cfg' : NotifyConfig} {th : Thread} {e : Event NotifyOp Ret}

/-- A step keeps `received` in line with the history, if it is no closing
    section that finds `received`. -/
theorem step_pending (hs : cfg.Sound notifyCode) (h : Step notifyCode cfg th e cfg')
    (hclose : SafeClose cfg th) (T : TaskHandle) :
    cfg'.shared.received T = pendingStep T (cfg.shared.received T) (th, e) := by
  cases h with
  | refused _ hcode | entered _ _ hcode =>
    exact congrArg (fun w : World => w.received T) (rtosCode_world hcode)
  | expire _ _ _ | fail _ =>
    simp only [Pc.giveUp]
    split <;> rfl
  | sequence _ | sleep _ _ _ | resume _ | wake _ => rfl
  -- a notification, the entry of a wait, or a call that does not touch the mark
  | @locked op c start seq s out hpc hbody =>
    obtain ⟨task, value, action, previous, hn, ha, rfl⟩ |
      ⟨clearEntry, clearExit, out, hn, ha, hc, -⟩ | ⟨hn, ha, htcbs, -⟩ :=
      notifyCode_calls (hs th op c (by rw [hpc]; rfl))
    · have hpending : ((notifyCall task value action previous).body cfg.shared).1.received T = _ :=
        notify_pending (hn T) (ha T)
      rwa [hbody] at hpending
    · rw [hc] at hbody
      obtain ⟨rfl, rfl⟩ := Prod.mk.inj hbody
      exact notifyWait_pending (hn T) (ha T)
    · rw [pendingStep_other (hn T) (ha T)]
      have := htcbs cfg.shared
      rw [hbody] at this
      exact received_of_tcbs this T
  -- the closing sections that are allowed leave the mark as it is
  | @close op c late f s r hpc hf hr =>
    show s.received T = cfg.shared.received T
    obtain ⟨task, value, action, previous, hn, ha, rfl⟩ |
      ⟨clearEntry, clearExit, out, hn, ha, -, hc⟩ | ⟨hn, ha, -, htcbs⟩ :=
      notifyCode_calls (hs th op c (by rw [hpc]; rfl))
    · exact nomatch hf
    · -- the closing section of a wait: by hypothesis nothing was pending
      have hsafe := hclose op c late hpc ((ha th.task).trans (decide_eq_true rfl))
      obtain rfl := hc late f hf
      obtain ⟨rfl, -⟩ := Prod.mk.inj hr
      rw [received_setTcb]
      split
      · next hT => rw [hT, hsafe]; rfl
      · rfl
    · have := htcbs late f hf cfg.shared
      rw [hr] at this
      exact received_of_tcbs this T

/-- A closing section that finds `received` resets it and consumes nothing. -/
private theorem step_dropped (hs : cfg.Sound notifyCode) (h : Step notifyCode cfg th e cfg')
    (hbad : ¬ SafeClose cfg th) :
    cfg.shared.received th.task = true ∧ cfg'.shared.received th.task = false ∧
      pendingStep th.task true (th, e) = true := by
  -- only the closing section of a wait can fail the condition
  simp only [SafeClose, not_forall] at hbad
  obtain ⟨op, c, late, hpc, hawaits, hrec⟩ := hbad
  cases h with
  | @close op' c' late' f s r hpc' hf hr =>
    obtain ⟨rfl, rfl, rfl⟩ := Pc.closing.inj (hpc.symm.trans hpc')
    refine ⟨Bool.not_eq_false _ ▸ hrec, ?_, rfl⟩
    obtain ⟨task, value, action, previous, hn, ha, rfl⟩ |
      ⟨clearEntry, clearExit, out, hn, ha, -, hc⟩ | ⟨hn, ha, -, -⟩ :=
      notifyCode_calls (hs th op c (by rw [hpc]; rfl))
    · exact nomatch hf
    · obtain rfl := hc late f hf
      obtain ⟨rfl, -⟩ := Prod.mk.inj hr
      simp only [Config.put_shared, received_setTcb]
      rfl
    · rw [ha] at hawaits
      exact nomatch hawaits
  | refused hpc' _ | entered _ hpc' _ | sequence hpc' | locked hpc' _ | sleep _ hpc' _
  | expire _ hpc' _ | resume hpc' | fail hpc' | wake hpc' => exact nomatch hpc.symm.trans hpc'

/-! ## Runs -/

variable {cfg₀ : NotifyConfig} {log : List (Thread × Event NotifyOp Ret)}

/-- In a run without unsafe closing sections the state is `received` exactly
    while a notification is pending. -/
private theorem run_pending (hrun : Run notifyCode (fun cfg th _ => SafeClose cfg th) cfg₀ log cfg)
    (hidle : ∀ th, cfg₀.pc th = .idle)
    (hfresh : ∀ T, (cfg₀.shared.tcbs T).notifyState = .notWaiting) (T : TaskHandle) :
    cfg.shared.received T = pending T log := by
  induction hrun with
  | nil =>
    simp only [World.received, hfresh]
    rfl
  | snoc hrun hok hstep ih =>
    rw [pending_snoc, ← ih]
    exact step_pending (hrun.sound (Config.sound_of_idle hidle)) (Step.of_step hstep) hok T

/-- As long as no closing section of a wait finds `received`, every task with a
    pending notification is in state `received`; and the next step keeps that
    exactly when it is no such section either. -/
theorem notification_kept
    (hrun : Run notifyCode (fun cfg th _ => SafeClose cfg th) cfg₀ log cfg)
    (hidle : ∀ th, cfg₀.pc th = .idle)
    (hfresh : ∀ T, (cfg₀.shared.tcbs T).notifyState = .notWaiting) :
    (∀ T, pending T log = true → (cfg.shared.tcbs T).notifyState = .received) ∧
      ∀ th ch e cfg', step notifyCode cfg th ch = some (e, cfg') →
        ((∀ T, pending T (log ++ [(th, e)]) = true →
            (cfg'.shared.tcbs T).notifyState = .received) ↔ SafeClose cfg th) := by
  have hsound := hrun.sound (Config.sound_of_idle hidle)
  have hlog := run_pending hrun hidle hfresh
  refine ⟨fun T hp => of_decide_eq_true ((hlog T).trans hp), fun th ch e cfg' hstep => ?_⟩
  constructor
  -- a notification is given up by a step that fails the condition
  · intro hkept
    by_contra hbad
    obtain ⟨hrec, hdropped, hp⟩ := step_dropped hsound (Step.of_step hstep) hbad
    have hstill : pending th.task (log ++ [(th, e)]) = true := by
      rw [pending_snoc, ← hlog, hrec, hp]
    have := decide_eq_true (hkept th.task hstill)
    exact absurd (this.symm.trans hdropped) (by decide)
  -- a step that meets it keeps the state and the log in agreement
  · intro hsafe T hp
    have hstep' := step_pending hsound (Step.of_step hstep) hsafe T
    rw [hlog, ← pending_snoc, hp] at hstep'
    exact of_decide_eq_true hstep'

/-- Task 10, with nothing pending and nobody in a call. -/
def freshNotify : NotifyConfig where
  shared := ⟨fun _ => s31QueueInit 0 1 0 (fun _ => 0) none, fun _ => ⟨0, none⟩,
    fun _ => ⟨0, .notWaiting⟩⟩
  seq := fun _ => 0
  pc := fun _ => .idle

/-- Task 10 waits for a notification, gets the first that task 20 sends it, and the
    second is pending when task 20 has not yet woken it up. -/
theorem notification_kept_once :
    ∃ log cfg, Run notifyCode (fun cfg th _ => SafeClose cfg th) freshNotify log cfg ∧
      (⟨1, 10, false⟩, .locked ⟨.xTaskGenericNotifyWait 0 0 0 false 7, trivial⟩
        (.done (.notified pdPASS none) false)) ∈ log ∧ pending 10 log = true ∧
      (∀ T, pending T log = true → (cfg.shared.tcbs T).notifyState = .received) := by
  -- the wait, up to its sleep
  have hcall : Run notifyCode (fun cfg th _ => SafeClose cfg th) freshNotify _ _ :=
    .snoc .nil (fun _ _ _ hpc => nomatch hpc) (show step notifyCode freshNotify ⟨1, 10, false⟩
      (.call ⟨.xTaskGenericNotifyWait 0 0 0 false 7, trivial⟩ 0) = some (_, _) from rfl)
  have hsequence := hcall.snoc (t := ⟨1, 10, false⟩) (fun _ _ _ hpc => nomatch hpc)
    (show step notifyCode _ ⟨1, 10, false⟩ (.go 0) = some (_, _) from rfl)
  have hunmet := hsequence.snoc (t := ⟨1, 10, false⟩) (fun _ _ _ hpc => nomatch hpc)
    (show step notifyCode _ ⟨1, 10, false⟩ (.go 0) = some (_, _) from rfl)
  have hasleep := hunmet.snoc (t := ⟨1, 10, false⟩) (fun _ _ _ hpc => nomatch hpc)
    (show step notifyCode _ ⟨1, 10, false⟩ (.go 0) = some (_, _) from rfl)
  -- the first notification, with its wake-up
  have hnotify := hasleep.snoc (t := ⟨2, 20, false⟩) (fun _ _ _ hpc => nomatch hpc)
    (show step notifyCode _ ⟨2, 20, false⟩
      (.call ⟨.xTaskGenericNotify 10 0 5 3 false, trivial⟩ 0) = some (_, _) from rfl)
  have hgiven := hnotify.snoc (t := ⟨2, 20, false⟩) (fun _ _ _ hpc => nomatch hpc)
    (show step notifyCode _ ⟨2, 20, false⟩ (.go 0) = some (_, _) from rfl)
  have hwoke := hgiven.snoc (t := ⟨2, 20, false⟩) (fun _ _ _ hpc => nomatch hpc)
    (show step notifyCode _ ⟨2, 20, false⟩ (.go 0) = some (_, _) from rfl)
  -- the wait returns it
  have hawake := hwoke.snoc (t := ⟨1, 10, false⟩) (fun _ _ _ hpc => nomatch hpc)
    (show step notifyCode _ ⟨1, 10, false⟩ (.awake true) = some (_, _) from rfl)
  have hsequence' := hawake.snoc (t := ⟨1, 10, false⟩) (fun _ _ _ hpc => nomatch hpc)
    (show step notifyCode _ ⟨1, 10, false⟩ (.go 0) = some (_, _) from rfl)
  have hgot := hsequence'.snoc (t := ⟨1, 10, false⟩) (fun _ _ _ hpc => nomatch hpc)
    (show step notifyCode _ ⟨1, 10, false⟩ (.go 0) = some (_, _) from rfl)
  -- and the second one
  have hnotify' := hgot.snoc (t := ⟨2, 20, false⟩) (fun _ _ _ hpc => nomatch hpc)
    (show step notifyCode _ ⟨2, 20, false⟩
      (.call ⟨.xTaskGenericNotify 10 0 6 3 false, trivial⟩ 0) = some (_, _) from rfl)
  have hrun := hnotify'.snoc (t := ⟨2, 20, false⟩) (fun _ _ _ hpc => nomatch hpc)
    (show step notifyCode _ ⟨2, 20, false⟩ (.go 0) = some (_, _) from rfl)
  exact ⟨_, _, hrun, by decide, rfl, (notification_kept hrun (fun _ => rfl) fun _ => rfl).1⟩

/-- Task 10 waits with timeout 0 and finds nothing; before its second section
    task 20 notifies it and returns `pdPASS`.  The second section then resets
    the state and the wait returns `pdFAIL`: the notification is lost. -/
theorem notification_dropped :
    ∃ log cfg, Run notifyCode (fun _ _ _ => True) freshNotify log cfg ∧
      (⟨2, 20, false⟩, .woke ⟨.xTaskGenericNotify 10 0 5 3 false, trivial⟩
        (.notified pdPASS none)) ∈ log ∧
      log.getLast? = some (⟨1, 10, false⟩,
        .closed ⟨.xTaskGenericNotifyWait 0 0 0 false 0, trivial⟩ (.notified pdFAIL none)) ∧
      pending 10 log = true ∧ (cfg.shared.tcbs 10).notifyState = .notWaiting := by
  have hrun : Run notifyCode (fun _ _ _ => True) freshNotify _ _ :=
    Run.of_exec (fun _ _ _ => trivial) (show exec notifyCode freshNotify
    [(⟨1, 10, false⟩, .call ⟨.xTaskGenericNotifyWait 0 0 0 false 0, trivial⟩ 0),
      (⟨1, 10, false⟩, .go 0), (⟨1, 10, false⟩, .go 0), (⟨1, 10, false⟩, .go 0),
      (⟨2, 20, false⟩, .call ⟨.xTaskGenericNotify 10 0 5 3 false, trivial⟩ 0),
      (⟨2, 20, false⟩, .go 0), (⟨2, 20, false⟩, .go 0),
      (⟨1, 10, false⟩, .go 0)] = some _ from rfl)
  exact ⟨_, _, hrun, by decide, rfl, rfl, rfl⟩

end EspS31.Rtos
