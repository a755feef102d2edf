import EspS31.Spec.TaskLife

/-!
# Critical sections over a run

`vPortEnterCritical` and `vPortExitCritical` count in the block of the task and call
the bridge for the outermost section only.  For each task the calls of the bridge
alternate, each exit gets the flags of the entry before it, and one is open as long as
the task has entered more often than it has left; an exit that is too much does nothing.
The counter has 32 bits, so fewer than 2 ^ 32 sections are open at once.

## Key results

- `Nested.step`: one event
- `critical_sections`: over a run
-/

namespace EspS31.Tasks

/-- An entry of the bridge with the flags that it returned, or an exit with those that
    it got. -/
inductive BridgeCall where
  | enter (flags : UInt32)
  | exit (flags : UInt32)
deriving DecidableEq, Repr

/-- The calls of the bridge for a task. -/
def bridgeCall (id : Nat) : Obs → Option BridgeCall
  | .criticalEnter id' flags => if id' = id then some (.enter flags) else none
  | .criticalExit id' flags => if id' = id then some (.exit flags) else none
  | _ => none

/-- The calls of the bridge for the task `id`. -/
def bridge (id : Nat) (trace : List Obs) : List BridgeCall := trace.filterMap (bridgeCall id)

/-- What an observation changes in the nesting of a task. -/
def nestingStep (id : Nat) (n : Nat) : Obs → Nat
  | .enterCall id' => if id' = id then n + 1 else n
  | .exitCall id' => if id' = id then n - 1 else n
  | _ => n

/-- How many sections the task `id` is in. -/
def nesting (id : Nat) (trace : List Obs) : Nat := trace.foldl (nestingStep id) 0

/-- Entries and exits in turn, an exit with the flags of its entry; the entry that is
    open. -/
inductive Paired : List BridgeCall → Option UInt32 → Prop where
  | nil : Paired [] none
  | enter {calls : List BridgeCall} (flags : UInt32) (h : Paired calls none) :
    Paired (calls ++ [.enter flags]) (some flags)
  | exit {calls : List BridgeCall} {flags : UInt32} (h : Paired calls (some flags)) :
    Paired (calls ++ [.exit flags]) none

/-- The entry that a task has open. -/
def Tcb.openFlags (tcb : Tcb) : Option UInt32 :=
  if tcb.criticalDepth = 0 then none else some tcb.criticalFlags

/-- What the counter and the flags of each task say about its calls so far. -/
structure Nested (s : State) : Prop where
  depth : ∀ t tcb, s.tcbs t = some tcb → tcb.criticalDepth.toNat = nesting tcb.id s.trace
  paired : ∀ t tcb, s.tcbs t = some tcb → Paired (bridge tcb.id s.trace) tcb.openFlags
  past : ∀ id, ∃ flags, Paired (bridge id s.trace) flags ∧ (flags.isSome ↔ 0 < nesting id s.trace)
  future : ∀ id, s.ids ≤ id → nesting id s.trace = 0 ∧ bridge id s.trace = []

/-! ## What leaves the sections alone -/

/-- What a task block says about sections. -/
def Tcb.critical (tcb : Tcb) : Nat × UInt32 × UInt32 :=
  (tcb.id, tcb.criticalDepth, tcb.criticalFlags)

/-- The tasks with their sections stay and no section is entered or left. -/
structure Calm (s s' : State) : Prop where
  tcbs : ∀ t, (s'.tcbs t).map Tcb.critical = (s.tcbs t).map Tcb.critical
  ids : s'.ids = s.ids
  bridge : ∀ id, Tasks.bridge id s'.trace = Tasks.bridge id s.trace
  nesting : ∀ id, Tasks.nesting id s'.trace = Tasks.nesting id s.trace

section

variable {s s' s'' : State} {t cur : Nat} {tcb tcb' : Tcb} {o : Obs}

/-- One observation more, and the calls of the bridge. -/
private theorem bridge_append (id : Nat) (trace : List Obs) (o : Obs) :
    bridge id (trace ++ [o]) = bridge id trace ++ (bridgeCall id o).toList := by
  rw [bridge, bridge, List.filterMap_append]
  cases hcall : bridgeCall id o with
  | none => simp [hcall]
  | some call => simp [hcall]

/-- One observation more, and the nesting. -/
private theorem nesting_append (id : Nat) (trace : List Obs) (o : Obs) :
    nesting id (trace ++ [o]) = nestingStep id (nesting id trace) o := by
  rw [nesting, nesting, List.foldl_append]
  rfl

/-- Nothing done leaves the sections. -/
theorem Calm.refl (s : State) : Calm s s := ⟨fun _ => rfl, rfl, fun _ => rfl, fun _ => rfl⟩

/-- Two steps that leave the sections leave them together. -/
theorem Calm.trans (h : Calm s s') (h' : Calm s' s'') : Calm s s'' where
  tcbs t := (h'.tcbs t).trans (h.tcbs t)
  ids := h'.ids.trans h.ids
  bridge id := (h'.bridge id).trans (h.bridge id)
  nesting id := (h'.nesting id).trans (h.nesting id)

/-- Writing a block with the same section leaves it. -/
private theorem calm_setTcb (tcb' : Tcb) (htcb : s.tcbs t = some tcb)
    (hcritical : tcb'.critical = tcb.critical) : Calm s (s.setTcb t tcb') where
  tcbs t' := by
    by_cases heq : t' = t
    · rw [heq, htcb, setTcb_self, Option.map_some, Option.map_some, hcritical]
    · rw [setTcb_of_ne _ heq]
  ids := rfl
  bridge _ := rfl
  nesting _ := rfl

/-- The loops under way do not matter to the sections. -/
private theorem calm_frames (s : State) (frames : List Frame) :
    Calm s { s with frames := frames } :=
  ⟨fun _ => rfl, rfl, fun _ => rfl, fun _ => rfl⟩

/-- An observation of another kind leaves the sections. -/
private theorem calm_log (s : State) (hbridge : ∀ id, bridgeCall id o = none)
    (hnesting : ∀ id n, nestingStep id n o = n) : Calm s (s.log o) where
  tcbs _ := rfl
  ids := rfl
  bridge id := by
    rw [State.log, bridge_append, hbridge, Option.toList_none, List.append_nil]
  nesting id := by rw [State.log, nesting_append, hnesting]

/-- The end of a delete leaves the sections. -/
private theorem calm_finishDelete (s : State) (cur t : Nat) (tcb : Tcb) :
    Calm s (finishDelete cur t tcb s) := by
  rw [finishDelete]
  split
  · exact (calm_frames s _).trans (calm_log _ (fun _ => rfl) fun _ _ => rfl)
  · exact calm_log s (fun _ => rfl) fun _ _ => rfl

/-- Starting the destructors leaves the sections. -/
private theorem calm_startCleaning (htcb : s.tcbs t = some tcb) (deleting : Bool) :
    Calm s (startCleaning cur t tcb deleting s) :=
  (calm_setTcb { tcb with tlsCleaned := true } htcb rfl).trans (calm_frames _ _)

/-- A round of the destructors leaves the sections. -/
private theorem calm_clean (h : clean cur s = .ok s') : Calm s s' := by
  unfold clean at h
  split at h
  · cases h
    exact .refl s
  · obtain ⟨tcb, -, rfl⟩ := withTask_ok.mp h
    split
    · dsimp only
      split
      · exact calm_frames s _
      · exact (calm_frames s _).trans (calm_log _ (fun _ => rfl) fun _ _ => rfl)
    · dsimp only
      split
      · exact (calm_frames s _).trans (calm_finishDelete ..)
      · exact calm_frames s _

/-- What a task had before a calm step. -/
theorem Calm.task (hc : Calm s s') (htcb : s'.tcbs t = some tcb) :
    ∃ old, s.tcbs t = some old ∧ old.critical = tcb.critical := by
  have hcritical := hc.tcbs t
  rw [htcb, Option.map_some] at hcritical
  exact Option.map_eq_some_iff.mp hcritical.symm

/-- What leaves the sections keeps the invariant. -/
theorem Calm.nested (hc : Calm s s') (h : Nested s) : Nested s' where
  depth t tcb htcb := by
    obtain ⟨old, hold, hcritical⟩ := hc.task htcb
    have hid : old.id = tcb.id := congrArg (·.1) hcritical
    have hdepth : old.criticalDepth = tcb.criticalDepth := congrArg (·.2.1) hcritical
    rw [← hdepth, hc.nesting, ← hid]
    exact h.depth t old hold
  paired t tcb htcb := by
    obtain ⟨old, hold, hcritical⟩ := hc.task htcb
    have hid : old.id = tcb.id := congrArg (·.1) hcritical
    have hdepth : old.criticalDepth = tcb.criticalDepth := congrArg (·.2.1) hcritical
    have hflags : old.criticalFlags = tcb.criticalFlags := congrArg (·.2.2) hcritical
    -- which entry is open follows from the counter and the flags
    have hopen : tcb.openFlags = old.openFlags := by
      rw [Tcb.openFlags, Tcb.openFlags, hdepth, hflags]
    rw [hc.bridge, hopen, ← hid]
    exact h.paired t old hold
  past id := by
    rw [hc.bridge, hc.nesting]
    exact h.past id
  future id hid := by
    rw [hc.bridge, hc.nesting]
    exact h.future id (hc.ids ▸ hid)

end

/-! ## One event -/

section

variable {s s' : State} {t cur : Nat} {tcb : Tcb}

/-- A call of the task at `t` that changes its counter, its flags and its history. -/
theorem Nested.call {tcb' : Tcb} (h : Nested s) (hn : Numbered s) (trace : List Obs)
    (htcb : s.tcbs t = some tcb) (htcbs : s'.tcbs = Function.update s.tcbs t (some tcb'))
    (hids : s'.ids = s.ids) (htrace : s'.trace = trace) (hid : tcb'.id = tcb.id)
    (hdepth : tcb'.criticalDepth.toNat = nesting tcb.id trace)
    (hpaired : Paired (bridge tcb.id trace) tcb'.openFlags)
    (hother : ∀ id, id ≠ tcb.id → nesting id trace = nesting id s.trace ∧
      bridge id trace = bridge id s.trace) :
    Nested s' := by
  subst htrace
  have hback : ∀ {t' new}, s'.tcbs t' = some new →
      (t' = t ∧ tcb' = new) ∨ (t' ≠ t ∧ s.tcbs t' = some new) := by
    intro t' new hnew
    rw [htcbs] at hnew
    obtain ⟨ht, heq⟩ | hold := update_some_cases hnew
    · exact .inl ⟨ht, Option.some.inj heq⟩
    · exact .inr hold
  -- other tasks have other numbers
  have hdiffer : ∀ t' new, t' ≠ t → s.tcbs t' = some new → new.id ≠ tcb.id :=
    fun t' new hne hnew heq => hne (hn.inj t' t new tcb hnew htcb heq)
  constructor
  · intro t' new hnew
    obtain ⟨-, rfl⟩ | ⟨hne, hold⟩ := hback hnew
    · rw [hid]
      exact hdepth
    · rw [(hother new.id (hdiffer t' new hne hold)).1]
      exact h.depth t' new hold
  · intro t' new hnew
    obtain ⟨-, rfl⟩ | ⟨hne, hold⟩ := hback hnew
    · rw [hid]
      exact hpaired
    · rw [(hother new.id (hdiffer t' new hne hold)).2]
      exact h.paired t' new hold
  · intro id
    by_cases heq : id = tcb.id
    · subst heq
      refine ⟨tcb'.openFlags, hpaired, ?_⟩
      -- an entry is open while the counter is not zero
      rw [← hdepth, Tcb.openFlags]
      by_cases hzero : tcb'.criticalDepth = 0
      · simp [hzero]
      · have hpos : tcb'.criticalDepth.toNat ≠ 0 := fun heq => hzero (UInt32.toNat.inj heq)
        rw [if_neg hzero]
        simp only [Option.isSome_some, true_iff]
        omega
    · rw [(hother id heq).1, (hother id heq).2]
      exact h.past id
  · intro id hge
    rw [hids] at hge
    have hlt := hn.ids t tcb htcb
    have hne : id ≠ tcb.id := by omega
    rw [(hother id hne).1, (hother id hne).2]
    exact h.future id hge

/-- An entry keeps the invariant; the first one locks. -/
theorem Nested.enterCritical (h : Nested s) (hn : Numbered s) (flags : UInt32)
    (hbound : ∀ tcb, s.tcbs cur = some tcb → tcb.criticalDepth ≠ 0xffffffff)
    (hs : step s (.enterCritical cur flags) = .ok s') : Nested s' := by
  obtain ⟨s₁, hp, rfl⟩ := step_ok.mp hs
  obtain ⟨tcb, htcb, rfl⟩ := withTask_ok.mp hp
  have hobs : (Event.enterCritical cur flags).observed s = some (.enterCall tcb.id) := by
    rw [Event.observed, htcb, Option.map_some]
  have hdepth := h.depth cur tcb htcb
  have hpaired := h.paired cur tcb htcb
  -- the counter does not wrap around
  have hlt : tcb.criticalDepth.toNat + 1 < 2 ^ 32 := by
    have hne : tcb.criticalDepth.toNat ≠ 0xffffffff :=
      fun heq => hbound tcb htcb (UInt32.toNat.inj heq)
    have hle := tcb.criticalDepth.toNat_lt
    omega
  have hnext : (tcb.criticalDepth + 1).toNat = tcb.criticalDepth.toNat + 1 := by
    rw [UInt32.toNat_add]
    exact Nat.mod_eq_of_lt hlt
  have hpos : tcb.criticalDepth + 1 ≠ 0 := by
    intro heq
    rw [heq] at hnext
    exact absurd hnext (by simp)
  rw [hobs]
  split
  · next hzero =>
    -- the outermost section
    have hnone : tcb.openFlags = none := if_pos hzero
    rw [hnone] at hpaired
    refine h.call hn (s.trace ++ [.criticalEnter tcb.id flags] ++ [.enterCall tcb.id]) htcb
      rfl rfl rfl rfl ?_ ?_ ?_
    · rw [nesting_append, nesting_append, ← hdepth]
      simp [nestingStep, hnext]
    · rw [bridge_append, bridge_append]
      have hopen : Tcb.openFlags { tcb with
          criticalDepth := tcb.criticalDepth + 1, criticalFlags := flags } = some flags :=
        if_neg hpos
      rw [hopen]
      simpa [bridgeCall] using hpaired.enter flags
    · intro id hne
      rw [nesting_append, nesting_append, bridge_append, bridge_append]
      simp [nestingStep, bridgeCall, Ne.symm hne]
  -- an inner section: the bridge is not called and the flags stay
  · next hdeep =>
    refine h.call hn (s.trace ++ [.enterCall tcb.id]) htcb rfl rfl rfl rfl ?_ ?_ ?_
    · rw [nesting_append, ← hdepth]
      simp [nestingStep, hnext]
    · rw [bridge_append]
      have hopen : Tcb.openFlags { tcb with criticalDepth := tcb.criticalDepth + 1 } =
          tcb.openFlags := (if_neg hpos).trans (if_neg hdeep).symm
      rw [hopen]
      simpa [bridgeCall] using hpaired
    · intro id hne
      rw [nesting_append, bridge_append]
      simp [nestingStep, bridgeCall, Ne.symm hne]

/-- An exit keeps the invariant; the last one unlocks with the flags of the lock. -/
theorem Nested.exitCritical (h : Nested s) (hn : Numbered s)
    (hs : step s (.exitCritical cur) = .ok s') : Nested s' := by
  obtain ⟨s₁, hp, rfl⟩ := step_ok.mp hs
  obtain ⟨tcb, htcb, rfl⟩ := withTask_ok.mp hp
  have hobs : (Event.exitCritical cur).observed s = some (.exitCall tcb.id) := by
    rw [Event.observed, htcb, Option.map_some]
  have hdepth := h.depth cur tcb htcb
  have hpaired := h.paired cur tcb htcb
  rw [hobs]
  split
  · next hzero =>
    -- an exit that is too much
    have hcalm : Calm s (s.log (.exitCall tcb.id)) := by
      constructor
      · exact fun _ => rfl
      · rfl
      · intro id
        rw [State.log, bridge_append]
        simp [bridgeCall]
      · intro id
        rw [State.log, nesting_append]
        by_cases hid : tcb.id = id
        · subst hid
          rw [← hdepth, hzero]
          simp [nestingStep]
        · simp [nestingStep, hid]
    exact hcalm.nested h
  · next hdeep =>
    have hsome : tcb.openFlags = some tcb.criticalFlags := if_neg hdeep
    have hpos : tcb.criticalDepth.toNat ≠ 0 := fun heq => hdeep (UInt32.toNat.inj heq)
    -- the counter is not zero here
    have hprev : (tcb.criticalDepth - 1).toNat = tcb.criticalDepth.toNat - 1 := by
      rw [UInt32.toNat_sub_of_le]
      · rfl
      · rw [UInt32.le_iff_toNat_le]
        show 1 ≤ _
        omega
    rw [hsome] at hpaired
    dsimp only
    split
    · next hlast =>
      refine h.call hn
        (s.trace ++ [.criticalExit tcb.id tcb.criticalFlags] ++ [.exitCall tcb.id]) htcb
        rfl rfl rfl rfl ?_ ?_ ?_
      · rw [nesting_append, nesting_append, ← hdepth]
        simp [nestingStep, hprev]
      · rw [bridge_append, bridge_append]
        -- the outermost section ends with the flags that were kept
        have hopen : Tcb.openFlags { tcb with criticalDepth := tcb.criticalDepth - 1 } = none :=
          if_pos hlast
        rw [hopen]
        simpa [bridgeCall] using hpaired.exit
      · intro id hne
        rw [nesting_append, nesting_append, bridge_append, bridge_append]
        simp [nestingStep, bridgeCall, Ne.symm hne]
    · next hmore =>
      refine h.call hn (s.trace ++ [.exitCall tcb.id]) htcb rfl rfl rfl rfl ?_ ?_ ?_
      · rw [nesting_append, ← hdepth]
        simp [nestingStep, hprev]
      · rw [bridge_append]
        have hopen : Tcb.openFlags { tcb with criticalDepth := tcb.criticalDepth - 1 } =
            some tcb.criticalFlags := if_neg hmore
        rw [hopen]
        simpa [bridgeCall] using hpaired
      · intro id hne
        rw [nesting_append, bridge_append]
        simp [nestingStep, bridgeCall, Ne.symm hne]

/-- A new task has made no call. -/
theorem Created.nested {a : CreateAnswers} (hc : Created a s s') (h : Nested s) : Nested s' := by
  obtain ⟨t, n, p, stack, tcb, -, -, -, -, hid, -, -, -, -, hdepth, rfl⟩ := hc.made
  -- under its number nothing has been called so far
  obtain ⟨hnesting, hbridge⟩ := h.future s.ids (Nat.le_refl _)
  constructor
  · intro t' new hnew
    obtain ⟨-, heq⟩ | ⟨-, hold⟩ := update_some_cases hnew
    · obtain rfl := Option.some.inj heq
      rw [hid, hdepth]
      exact hnesting.symm
    · exact h.depth t' new hold
  · intro t' new hnew
    obtain ⟨-, heq⟩ | ⟨-, hold⟩ := update_some_cases hnew
    · obtain rfl := Option.some.inj heq
      have hopen : tcb.openFlags = none := if_pos hdepth
      have hempty : bridge tcb.id s.trace = [] := hid ▸ hbridge
      show Paired (bridge tcb.id s.trace) _
      rw [hopen, hempty]
      exact .nil
    · exact h.paired t' new hold
  · exact h.past
  · exact fun id hge => h.future id (Nat.le_of_succ_le hge)

/-- A release keeps the invariant for the other tasks. -/
theorem Nested.release (h : Nested s) (t : Nat) (blocks contexts : List Nat) :
    Nested { s with
      tcbs := Function.update s.tcbs t none, blocks := blocks, contexts := contexts } := by
  -- every task that is left was there before
  have hback : ∀ {t' new}, Function.update s.tcbs t none t' = some new → s.tcbs t' = some new := by
    intro t' new hnew
    obtain ⟨-, heq⟩ | ⟨-, hold⟩ := update_some_cases hnew
    · cases heq
    · exact hold
  exact ⟨fun t' new hnew => h.depth t' new (hback hnew),
    fun t' new hnew => h.paired t' new (hback hnew), h.past, h.future⟩

/-- At the start nobody is in a section. -/
private theorem nested_init : Nested s31RtosInit where
  depth t tcb htcb := by
    obtain ⟨-, rfl⟩ := init_tcbs htcb
    rfl
  paired t tcb htcb := by
    obtain ⟨-, rfl⟩ := init_tcbs htcb
    exact .nil
  past id := ⟨none, .nil, by simp [nesting, s31RtosInit]⟩
  future id _ := ⟨rfl, rfl⟩

/-- The events that have nothing to do with sections are calm. -/
private theorem calm_perform {e : Event} (hcreate : ∀ args a, e ≠ .create args a)
    (hrelease : ∀ t, e ≠ .release t) (henter : ∀ cur flags, e ≠ .enterCritical cur flags)
    (hexit : ∀ cur, e ≠ .exitCritical cur) (hp : perform s e = .ok s') : Calm s s' := by
  cases e with
  | create args a => exact absurd rfl (hcreate args a)
  | release t => exact absurd rfl (hrelease t)
  | enterCritical cur flags => exact absurd rfl (henter cur flags)
  | exitCritical cur => exact absurd rfl (hexit cur)
  -- what is left writes other fields of a task, or its loop
  | setTls cur task index value dtor =>
    obtain ⟨tcb, htcb, rfl⟩ := withTask_ok.mp hp
    split
    · exact .refl s
    · exact calm_setTcb _ htcb rfl
  | delete cur task =>
    obtain ⟨tcb, htcb, rfl⟩ := withTask_ok.mp hp
    split
    · exact calm_startCleaning htcb true
    · exact calm_finishDelete ..
  | entryReturns cur =>
    obtain ⟨tcb, htcb, rfl⟩ := withTask_ok.mp hp
    split
    · exact calm_startCleaning htcb false
    · exact .refl s
  | clean cur => exact calm_clean hp
  | setPriority cur task priority =>
    obtain ⟨tcb, htcb, rfl⟩ := withTask_ok.mp hp
    have hcalm := calm_setTcb { tcb with priority := priority } htcb rfl
    exact hcalm.trans (calm_log _ (fun _ => rfl) fun _ _ => rfl)

/-- Every step keeps the invariant. -/
theorem Nested.step {e : Event} (haccounted : Accounted s) (hn : Numbered s) (h : Nested s)
    (he : e.Allowed s) (hs : Tasks.step s e = .ok s') : Nested s' := by
  cases e with
  | enterCritical cur flags => exact h.enterCritical hn flags he hs
  | exitCritical cur => exact h.exitCritical hn hs
  | create args a =>
    obtain ⟨s₁, hp, rfl⟩ := step_ok.mp hs
    -- a new task is in no section, and its number is new
    obtain hfails | ⟨s₂, hsucceeds, hcreated⟩ := create_cases args he
    · rw [perform, hfails] at hp
      cases hp
      exact h
    · rw [perform, hsucceeds] at hp
      cases hp
      exact hcreated.nested h
  | release t =>
    obtain ⟨s₁, hp, rfl⟩ := step_ok.mp hs
    obtain ⟨tcb, htcb⟩ := Option.isSome_iff_exists.mp he.2.1
    obtain ⟨notify, suspend, -, -, heq⟩ := bridgeRelease_eq haccounted he.1 htcb
    obtain rfl := Except.ok.inj (hp.symm.trans heq)
    exact h.release ..
  | _ =>
    obtain ⟨s₁, hp, rfl⟩ := step_ok.mp hs
    exact (calm_perform (by simp) (by simp) (by simp) (by simp) hp).nested h

end

/-- Over any run: the bridge sees, for each task, entries and exits in turn, an exit
    with the flags of its entry, and one is open just as long as the task is in a
    section.  `s31_rtos_can_yield` says no in a section and in an interrupt and nowhere
    else. -/
theorem critical_sections {s : State} (h : Reach (fun _ _ => True) s) (id : Nat) :
    (∃ flags, Paired (bridge id s.trace) flags ∧ (flags.isSome ↔ 0 < nesting id s.trace)) ∧
      ∀ t tcb inIsr, s.tcbs t = some tcb → tcb.id = id →
        s31RtosCanYield t inIsr s = .ok (decide (inIsr = false ∧ nesting id s.trace = 0)) := by
  -- that numbers differ is part of the run
  have hall : (Accounted s ∧ Numbered s) ∧ Nested s := by
    apply h.invariant (I := fun s => (Accounted s ∧ Numbered s) ∧ Nested s)
    · exact ⟨⟨accounted_init, numbered_init⟩, nested_init⟩
    · intro s s' e hs he _ hstep
      exact ⟨⟨hs.1.1.step he hstep, hs.1.2.step hs.1.1 he hstep⟩,
        hs.2.step hs.1.1 hs.1.2 he hstep⟩
  obtain ⟨-, hnested⟩ := hall
  constructor
  · exact hnested.past id
  · intro t tcb inIsr htcb hid
    have hdepth := hnested.depth t tcb htcb
    rw [hid] at hdepth
    -- `s31_rtos_can_yield` looks at the counter of the task
    have hzero : tcb.criticalDepth = 0 ↔ nesting id s.trace = 0 := by
      rw [← hdepth]
      constructor
      · intro heq
        rw [heq]
        rfl
      · exact fun heq => UInt32.toNat.inj heq
    cases inIsr with
    | true => simp [s31RtosCanYield]
    | false => simp [s31RtosCanYield, htcb, hzero]

/-- The radio worker enters twice and leaves once, and a second task enters and leaves in
    between; then each has left as often as it has entered. -/
theorem critical_sections_twoTasks :
    ∃ s s', Reach (fun _ _ => True) s ∧ Reach (fun _ _ => True) s' ∧
      nesting 0 s.trace = 1 ∧ nesting 1 s.trace = 0 ∧ nesting 0 s'.trace = 0 ∧
      (∃ flags, Paired [.enter 8] flags ∧ (flags.isSome ↔ 0 < 1)) ∧
      (∃ flags, Paired [.enter 0, .exit 0] flags ∧ (flags.isSome ↔ 0 < 0)) ∧
      (∃ flags, Paired [.enter 8, .exit 8] flags ∧ (flags.isSome ↔ 0 < 0)) ∧
      s31RtosCanYield foreignTcb false s = .ok false ∧
      s31RtosCanYield foreignTcb false s' = .ok true := by
  have hcreated := Reach.step (P := fun _ _ => True) .init createWifi
    (createWifi_allowed rfl rfl) trivial rfl
  -- the counters are far from their bound
  have hfirst := hcreated.step (.enterCritical foreignTcb 8)
    (fun tcb htcb => by obtain rfl := Option.some.inj htcb; decide) trivial rfl
  have hsecond := hfirst.step (.enterCritical 100 0)
    (fun tcb htcb => by obtain rfl := Option.some.inj htcb; decide) trivial rfl
  have hagain := hsecond.step (.enterCritical foreignTcb 1)
    (fun tcb htcb => by obtain rfl := Option.some.inj htcb; decide) trivial rfl
  have hleft := (hagain.step (.exitCritical 100) trivial trivial rfl).step
    (.exitCritical foreignTcb) trivial trivial rfl
  have hout := hleft.step (.exitCritical foreignTcb) trivial trivial rfl
  obtain ⟨hopen, hyield⟩ := critical_sections hleft 0
  obtain ⟨hclosed, hyield'⟩ := critical_sections hout 0
  exact ⟨_, _, hleft, hout, rfl, rfl, rfl, hopen, (critical_sections hleft 1).1, hclosed,
    hyield foreignTcb _ false rfl rfl, hyield' foreignTcb _ false rfl rfl⟩

end EspS31.Tasks
