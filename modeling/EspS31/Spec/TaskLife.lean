import EspS31.ForStd.Ownership
import EspS31.Native.Tasks

/-!
# The life of tasks

What a run of the task functions keeps, whatever the allocator and the bridge answer
and however the threads take turns: memory and synchronisation objects are those of
the tasks that exist, a creation that fails leaves everything as it was, a release
gives back all that the task had, and nothing is freed twice.  The destructors of a
task's local storage are called at most once each, in their order, also when a
destructor deletes its task again or another thread does; for this no task may be
released while a thread still goes through its destructors.

## Key results

- `create_cases`, `bridgeRelease_eq`: a creation and a release
- `keeps_perform`: what the other events leave as it is
- `Accounted.step`, `resources_exact`: memory and objects over a run
- `Cleaning.step`, `destructors_once`: destructors over a run
- `destroyed_twice`: a task that is released too early
-/

namespace EspS31.Tasks

/-! ## Runs -/

/-- New blocks and objects are none of those in use. -/
structure CreateAnswers.Fresh (a : CreateAnswers) (s : State) : Prop where
  tcb : ∀ t, a.tcb = some t → t ∉ s.blocks ∧ t ≠ foreignTcb
  stack : ∀ b, a.stack = some b → b ∉ s.blocks ∧ a.tcb ≠ some b
  notify : ∀ h, a.notify = some h → h ∉ s.contexts
  suspend : ∀ h, a.suspend = some h → h ∉ s.contexts ∧ a.notify ≠ some h

/-- What the code relies on: the allocator and the bridge answer with what is not in
    use, the bridge releases a task once and only when its payload has returned, so that
    its thread is in no loop, and a critical section is not entered 2 ^ 32 times at
    once. -/
def Event.Allowed (s : State) : Event → Prop
  | .create _ a => a.Fresh s
  | .release t => t ≠ foreignTcb ∧ (s.tcbs t).isSome = true ∧ ∀ f ∈ s.frames, f.thread ≠ t
  | .enterCritical cur _ => ∀ tcb, s.tcbs cur = some tcb → tcb.criticalDepth ≠ 0xffffffff
  | _ => True

/-- No task is released while another thread goes through its destructors. -/
def Event.Spares (s : State) : Event → Prop
  | .release t => ∀ f ∈ s.frames, f.target ≠ t
  | _ => True

/-- The states that runs without a fault lead to; all their events satisfy `P`. -/
inductive Reach (P : State → Event → Prop) : State → Prop where
  | init : Reach P s31RtosInit
  | step {s s' : State} (h : Reach P s) (e : Event) (he : e.Allowed s) (hp : P s e)
    (hs : Tasks.step s e = .ok s') : Reach P s'

/-- An invariant holds in all of them. -/
theorem Reach.invariant {P : State → Event → Prop} {I : State → Prop} (hinit : I s31RtosInit)
    (hstep : ∀ s s' e, I s → e.Allowed s → P s e → Tasks.step s e = .ok s' → I s') {s : State}
    (h : Reach P s) : I s := by
  induction h with
  | init => exact hinit
  | step _ e he hp hs ih => exact hstep _ _ e ih he hp hs

section

variable {s s' : State} {t : Nat} {f : Tcb → State}

/-- An operation on a task succeeds when its block is there. -/
theorem withTask_ok : s.withTask t f = .ok s' ↔ ∃ tcb, s.tcbs t = some tcb ∧ f tcb = s' := by
  rw [State.withTask]
  cases s.tcbs t with
  | none => simp
  | some tcb => simp

/-- An operation on a task frees nothing. -/
private theorem withTask_ne_badFree : s.withTask t f ≠ .error .badFree := by
  rw [State.withTask]
  cases s.tcbs t with
  | none => simp
  | some tcb => simp

/-- A step that succeeds is its event with what is observed. -/
theorem step_ok {e : Event} :
    step s e = .ok s' ↔ ∃ s₁, perform s e = .ok s₁ ∧ s₁.record (e.observed s) = s' := by
  rw [step]
  cases perform s e with
  | error fault => simp [Except.map]
  | ok s₁ => simp [Except.map]

end

/-! ## Creation -/

/-- What `xTaskCreatePinnedToCore` does when it succeeds. -/
structure Created (a : CreateAnswers) (s s' : State) : Prop where
  made : ∃ t notify suspend stack tcb, a.tcb = some t ∧ a.notify = some notify ∧
    a.suspend = some suspend ∧ a.stack = some stack ∧ tcb.id = s.ids ∧
    tcb.notifyContext = some notify ∧ tcb.suspendContext = some suspend ∧
    tcb.stackBase = stack ∧ tcb.tlsCleaned = false ∧ tcb.criticalDepth = 0 ∧
    s' = { s with
      tcbs := Function.update s.tcbs t (some tcb)
      blocks := stack :: t :: s.blocks
      contexts := suspend :: notify :: s.contexts
      ids := s.ids + 1
      schedulerStarted := true }

/-- A new block can be freed, and that undoes it. -/
private theorem free_malloc (s : State) (b : Nat) : (s.malloc b).free b = .ok s := by
  simp [State.malloc, State.free]

/-- The two objects, of which each may be missing, and the block are given back. -/
private theorem giveBack_eq {a : CreateAnswers}
    (hdiffer : ∀ h, a.suspend = some h → a.notify ≠ some h)
    (s : State) (t : Nat) :
    giveBack a t (((s.malloc t).syncCreate a.notify).syncCreate a.suspend) = .ok (false, s) := by
  obtain ⟨tcb, notify, suspend, stack, linuxTask⟩ := a
  simp only [giveBack]
  cases notify with
  | none =>
    cases suspend with
    | none => simp [State.syncCreate, State.syncDestroy, State.malloc, State.free, bind, Except.bind,
        pure, Except.pure]
    | some p => simp [State.syncCreate, State.syncDestroy, State.malloc, State.free, bind,
        Except.bind, pure, Except.pure]
  | some n =>
    cases suspend with
    | none => simp [State.syncCreate, State.syncDestroy, State.malloc, State.free, bind, Except.bind,
        pure, Except.pure]
    | some p =>
      -- the first object is not taken for the second
      have hne : p ≠ n := fun heq => hdiffer p rfl (by rw [heq])
      simp [State.syncCreate, State.syncDestroy, State.malloc, State.free, List.erase_cons_tail, hne,
        bind, Except.bind, pure, Except.pure]

/-- A creation that fails gives back all that it has got, and one that succeeds has a
    block, a stack and two objects of its own. -/
theorem create_cases (args : CreateArgs) {a : CreateAnswers} {s : State} (hfresh : a.Fresh s) :
    xTaskCreatePinnedToCore args a s = .ok (false, s) ∨
      ∃ s', xTaskCreatePinnedToCore args a s = .ok (true, s') ∧ Created a s s' := by
  have hdiffer : ∀ h, a.suspend = some h → a.notify ≠ some h := fun h hs =>
    (hfresh.suspend h hs).2
  -- each exit of the source undoes what was obtained before it
  unfold xTaskCreatePinnedToCore
  cases hfunc : args.taskFunc with
  | none => exact .inl rfl
  | some taskFunc =>
    by_cases hdepth : args.stackDepth = 0
    · exact .inl (by simp only [hdepth, if_true])
    · simp only [hdepth, if_false]
      cases htcb : a.tcb with
      | none => exact .inl rfl
      | some t =>
        have hback := giveBack_eq hdiffer s t
        by_cases hctx : a.notify.isNone ∨ a.suspend.isNone
        · simp only [hctx, if_true]
          exact .inl hback
        · simp only [hctx, if_false]
          cases hstack : a.stack with
          | none => exact .inl hback
          | some stack =>
            cases htask : a.linuxTask with
            | none =>
              simp only [free_malloc, Except.bind]
              exact .inl hback
            | some linuxTask =>
              -- the only way through: every answer was there
              cases hnotify : a.notify with
              | none => exact absurd (.inl (by rw [hnotify]; rfl)) hctx
              | some notify =>
                cases hsuspend : a.suspend with
                | none => exact absurd (.inr (by rw [hsuspend]; rfl)) hctx
                | some suspend =>
                  exact .inr ⟨_, rfl, t, notify, suspend, stack,
                    newTcb args a taskFunc stack linuxTask s.ids, htcb, hnotify, hsuspend, hstack, rfl,
                    hnotify, hsuspend, rfl, rfl, rfl, rfl⟩

/-! ## What the other events leave alone -/

/-- What a task block keeps as long as the task exists. -/
def Tcb.key (tcb : Tcb) : Nat × Option Nat × Option Nat × Nat :=
  (tcb.id, tcb.notifyContext, tcb.suspendContext, tcb.stackBase)

/-- The tasks, the memory and the objects stay. -/
structure Keeps (s s' : State) : Prop where
  keys : ∀ t, (s'.tcbs t).map Tcb.key = (s.tcbs t).map Tcb.key
  blocks : s'.blocks = s.blocks
  contexts : s'.contexts = s.contexts
  ids : s'.ids = s.ids

section

variable {s s' s'' : State} {t cur : Nat} {tcb tcb' : Tcb}

/-- Nothing done keeps everything. -/
theorem Keeps.refl (s : State) : Keeps s s := ⟨fun _ => rfl, rfl, rfl, rfl⟩

/-- Two steps that keep the resources keep them together. -/
theorem Keeps.trans (h : Keeps s s') (h' : Keeps s' s'') : Keeps s s'' where
  keys t := (h'.keys t).trans (h.keys t)
  blocks := h'.blocks.trans h.blocks
  contexts := h'.contexts.trans h.contexts
  ids := h'.ids.trans h.ids

/-- What a task had before. -/
theorem Keeps.task (hk : Keeps s s') (htcb : s'.tcbs t = some tcb) :
    ∃ old, s.tcbs t = some old ∧ old.key = tcb.key := by
  have hkey := hk.keys t
  rw [htcb, Option.map_some] at hkey
  exact Option.map_eq_some_iff.mp hkey.symm

/-- The block that was written. -/
theorem setTcb_self (s : State) (t : Nat) (tcb : Tcb) : (s.setTcb t tcb).tcbs t = some tcb :=
  Function.update_self ..

/-- The other blocks are as they were. -/
theorem setTcb_of_ne (tcb : Tcb) {t' : Nat} (hne : t' ≠ t) :
    (s.setTcb t tcb).tcbs t' = s.tcbs t' := Function.update_of_ne hne ..

/-- Writing a block with the same resources keeps them. -/
private theorem keeps_setTcb (tcb' : Tcb) (htcb : s.tcbs t = some tcb) (hkey : tcb'.key = tcb.key) :
    Keeps s (s.setTcb t tcb') where
  keys t' := by
    by_cases heq : t' = t
    · rw [heq, htcb, setTcb_self, Option.map_some, Option.map_some, hkey]
    · rw [setTcb_of_ne _ heq]
  blocks := rfl
  contexts := rfl
  ids := rfl

/-- An observation keeps the resources. -/
private theorem keeps_log (s : State) (o : Obs) : Keeps s (s.log o) := ⟨fun _ => rfl, rfl, rfl, rfl⟩

/-- Recording keeps the resources. -/
theorem keeps_record (s : State) (o : Option Obs) : Keeps s (s.record o) := by
  cases o with
  | none => exact .refl s
  | some o => exact keeps_log s o

/-- The loops under way are no resource. -/
private theorem keeps_frames (s : State) (frames : List Frame) :
    Keeps s { s with frames := frames } :=
  ⟨fun _ => rfl, rfl, rfl, rfl⟩

/-- Starting the destructors keeps the resources. -/
private theorem keeps_startCleaning (htcb : s.tcbs t = some tcb) (deleting : Bool) :
    Keeps s (startCleaning cur t tcb deleting s) :=
  (keeps_setTcb { tcb with tlsCleaned := true } htcb rfl).trans (keeps_frames _ _)

/-- The end of a delete keeps the resources. -/
private theorem keeps_finishDelete (s : State) (cur t : Nat) (tcb : Tcb) :
    Keeps s (finishDelete cur t tcb s) := by
  rw [finishDelete]
  split
  · exact (keeps_frames s _).trans (keeps_log _ _)
  · exact keeps_log _ _

/-- A round of the destructors keeps the resources. -/
private theorem keeps_clean (h : clean cur s = .ok s') : Keeps s s' := by
  unfold clean at h
  split at h
  · cases h
    exact .refl s
  · obtain ⟨tcb, -, rfl⟩ := withTask_ok.mp h
    split
    · dsimp only
      split
      · exact keeps_frames s _
      · exact (keeps_frames s _).trans (keeps_log _ _)
    · dsimp only
      split
      · exact (keeps_frames s _).trans (keeps_finishDelete ..)
      · exact keeps_frames s _

/-- All events but the creation and the release of a task. -/
theorem keeps_perform {e : Event} (hcreate : ∀ args a, e ≠ .create args a)
    (hrelease : ∀ t, e ≠ .release t) (h : perform s e = .ok s') : Keeps s s' := by
  cases e with
  | create args a => exact absurd rfl (hcreate args a)
  | release t => exact absurd rfl (hrelease t)
  | setTls cur task index value dtor =>
    obtain ⟨tcb, htcb, rfl⟩ := withTask_ok.mp h
    split
    · exact .refl s
    · exact keeps_setTcb _ htcb rfl
  -- deleting a task only starts its end: the bridge releases it later
  | delete cur task =>
    obtain ⟨tcb, htcb, rfl⟩ := withTask_ok.mp h
    split
    · exact keeps_startCleaning htcb true
    · exact keeps_finishDelete ..
  | entryReturns cur =>
    obtain ⟨tcb, htcb, rfl⟩ := withTask_ok.mp h
    split
    · exact keeps_startCleaning htcb false
    · exact .refl s
  | clean cur => exact keeps_clean h
  -- the priority is handed on to the bridge as well
  | setPriority cur task priority =>
    obtain ⟨tcb, htcb, rfl⟩ := withTask_ok.mp h
    exact (keeps_setTcb { tcb with priority := priority } htcb rfl).trans (keeps_log _ _)
  | enterCritical cur flags =>
    obtain ⟨tcb, htcb, rfl⟩ := withTask_ok.mp h
    split
    · exact (keeps_setTcb { tcb with
        criticalDepth := tcb.criticalDepth + 1, criticalFlags := flags } htcb rfl).trans
          (keeps_log _ _)
    · exact keeps_setTcb _ htcb rfl
  -- only the outermost exit calls the bridge
  | exitCritical cur =>
    obtain ⟨tcb, htcb, rfl⟩ := withTask_ok.mp h
    split
    · exact .refl s
    · have hkeeps := keeps_setTcb { tcb with criticalDepth := tcb.criticalDepth - 1 } htcb rfl
      dsimp only
      split
      · exact hkeeps.trans (keeps_log _ _)
      · exact hkeeps

/-- None of them frees anything. -/
private theorem perform_ne_badFree {e : Event} (hcreate : ∀ args a, e ≠ .create args a)
    (hrelease : ∀ t, e ≠ .release t) : perform s e ≠ .error .badFree := by
  cases e with
  | create args a => exact absurd rfl (hcreate args a)
  | release t => exact absurd rfl (hrelease t)
  | clean cur =>
    rw [perform, clean]
    split
    · simp
    · exact withTask_ne_badFree
  | _ => exact withTask_ne_badFree

end

/-! ## Memory and objects -/

/-- The memory of each task: its block, and with `true` its stack.  The block of the
    radio worker's task is static. -/
def heldBlock (s : State) (i : Nat × Bool) : Option Nat :=
  if i.1 = foreignTcb then none
  else (s.tcbs i.1).map fun tcb => if i.2 then tcb.stackBase else i.1

/-- The two objects of each task. -/
def heldContext (s : State) (i : Nat × Bool) : Option Nat :=
  (s.tcbs i.1).bind fun tcb => if i.2 then tcb.suspendContext else tcb.notifyContext

/-- All memory and all objects in use are those of the tasks, each of one task, and each
    task has its own. -/
structure Accounted (s : State) : Prop where
  contexts : Exact (heldContext s) s.contexts
  blocks : Exact (heldBlock s) s.blocks
  own : ∀ t tcb, t ≠ foreignTcb → s.tcbs t = some tcb →
    ∃ notify suspend, tcb.notifyContext = some notify ∧ tcb.suspendContext = some suspend

section

variable {s s' : State} {t : Nat}

/-- The context of a slot is read from the resources of its task. -/
private theorem heldContext_key (s : State) (i : Nat × Bool) :
    heldContext s i =
      ((s.tcbs i.1).map Tcb.key).bind fun k => if i.2 then k.2.2.1 else k.2.1 := by
  rw [heldContext]
  cases s.tcbs i.1 with
  | none => rfl
  | some tcb => rfl

/-- The block of a slot is read from the resources of its task. -/
private theorem heldBlock_key (s : State) (i : Nat × Bool) :
    heldBlock s i = if i.1 = foreignTcb then none
      else ((s.tcbs i.1).map Tcb.key).map fun k => if i.2 then k.2.2.2 else i.1 := by
  rw [heldBlock]
  cases s.tcbs i.1 with
  | none => rfl
  | some tcb => rfl

/-- What keeps the resources keeps the account. -/
theorem Keeps.accounted (hk : Keeps s s') (h : Accounted s) : Accounted s' := by
  have hcontext : heldContext s' = heldContext s := by
    funext i
    rw [heldContext_key, heldContext_key, hk.keys]
  have hblock : heldBlock s' = heldBlock s := by
    funext i
    rw [heldBlock_key, heldBlock_key, hk.keys]
  constructor
  · rw [hcontext, hk.contexts]
    exact h.contexts
  · rw [hblock, hk.blocks]
    exact h.blocks
  -- the contexts of a task are those it had before
  · intro t tcb hne htcb
    obtain ⟨old, hold, hkey⟩ := hk.task htcb
    obtain ⟨notify, suspend, hnotify, hsuspend⟩ := h.own t old hne hold
    have hn : old.notifyContext = tcb.notifyContext := congrArg (·.2.1) hkey
    have hp : old.suspendContext = tcb.suspendContext := congrArg (·.2.2.1) hkey
    exact ⟨notify, suspend, hn ▸ hnotify, hp ▸ hsuspend⟩

/-- The only task at first. -/
def foreignTask : Tcb := { id := 0, name := nameField radioWorker, priority := 24 }

/-- At the start there is the foreign task only. -/
theorem init_tcbs {tcb : Tcb} (h : s31RtosInit.tcbs t = some tcb) :
    t = foreignTcb ∧ tcb = foreignTask := by
  have hupdate : Function.update (fun _ => none) foreignTcb (some foreignTask) t = some tcb := h
  obtain ⟨rfl, hnew⟩ | ⟨-, hold⟩ := update_some_cases hupdate
  · exact ⟨rfl, (Option.some.inj hnew).symm⟩
  · cases hold

/-- The account holds at the start. -/
theorem accounted_init : Accounted s31RtosInit := by
  have hcontext : heldContext s31RtosInit = fun _ => none := by
    funext i
    rw [heldContext]
    cases htcb : s31RtosInit.tcbs i.1 with
    | none => rfl
    | some tcb =>
      obtain ⟨-, rfl⟩ := init_tcbs htcb
      exact ite_self _
  have hblock : heldBlock s31RtosInit = fun _ => none := by
    funext i
    rw [heldBlock]
    split
    · rfl
    · next hne =>
      cases htcb : s31RtosInit.tcbs i.1 with
      | none => rfl
      | some tcb => exact absurd (init_tcbs htcb).1 hne
  constructor
  -- nothing is held and nothing is in use
  · rw [hcontext]
    exact .empty
  · rw [hblock]
    exact .empty
  · intro t tcb hne htcb
    exact absurd (init_tcbs htcb).1 hne

/-- A new block is that of no task. -/
theorem Accounted.no_task (h : Accounted s) (hfresh : t ∉ s.blocks) (hne : t ≠ foreignTcb) :
    s.tcbs t = none := by
  cases htcb : s.tcbs t with
  | none => rfl
  | some tcb =>
    have hheld : heldBlock s (t, false) = some t := by simp [heldBlock, hne, htcb]
    exact absurd (h.blocks.mem _ _ hheld) hfresh

/-- A new task fills its own slots, and the others stay. -/
theorem Created.held {a : CreateAnswers} (hc : Created a s s') (hfresh : a.Fresh s)
    (h : Accounted s) : ∃ t, s.tcbs t = none ∧ a.tcb = some t ∧
      heldBlock s' = setPair (heldBlock s) t a.tcb a.stack ∧
      heldContext s' = setPair (heldContext s) t a.notify a.suspend := by
  obtain ⟨t, n, p, stack, tcb, ht, hn, hp, hstack, -, hnotify, hsuspend, hbase, -, -, rfl⟩ := hc.made
  obtain ⟨htcbFresh, htcbNe⟩ := hfresh.tcb t ht
  refine ⟨t, h.no_task htcbFresh htcbNe, ht, eq_setPair ?_ ?_ ?_, eq_setPair ?_ ?_ ?_⟩
  · simp [heldBlock, htcbNe, ht]
  · simp [heldBlock, htcbNe, hbase, hstack]
  · intro t' b hne
    simp [heldBlock, hne]
  · simp [heldContext, hnotify, hn]
  · simp [heldContext, hsuspend, hp]
  · intro t' b hne
    simp [heldContext, hne]

/-- A creation adds its resources to the account. -/
theorem Created.accounted {a : CreateAnswers} (hc : Created a s s') (hfresh : a.Fresh s)
    (h : Accounted s) : Accounted s' := by
  obtain ⟨t, hnone, ht, hblock, hcontext⟩ := hc.held hfresh h
  obtain ⟨t', n, p, stack, tcb, ht', hn, hp, hstack, -, hnotify, hsuspend, -, -, -, rfl⟩ := hc.made
  obtain rfl : t = t' := Option.some.inj (ht.symm.trans ht')
  obtain ⟨hstackFresh, hstackNe⟩ := hfresh.stack stack hstack
  obtain ⟨hpFresh, hpNe⟩ := hfresh.suspend p hp
  -- the second of each kind also differs from the first
  have hpDiffers : p ∉ n :: s.contexts := by
    intro hmem
    obtain rfl | hold := List.mem_cons.mp hmem
    · exact hpNe hn
    · exact hpFresh hold
  have hstackDiffers : stack ∉ t :: s.blocks := by
    intro hmem
    obtain rfl | hold := List.mem_cons.mp hmem
    · exact hstackNe ht
    · exact hstackFresh hold
  constructor
  · rw [hcontext, hn, hp]
    refine h.contexts.fillPair (fun b => ?_) (hfresh.notify n hn) hpDiffers
    rw [heldContext, hnone, Option.bind_none]
  · rw [hblock, ht, hstack]
    refine h.blocks.fillPair (fun b => ?_) (hfresh.tcb t ht).1 hstackDiffers
    simp [heldBlock, hnone]
  -- the new task holds the contexts that were made for it
  · intro t' new hne hnew
    obtain ⟨-, heq⟩ | ⟨-, hold⟩ := update_some_cases hnew
    · obtain rfl := Option.some.inj heq
      exact ⟨n, p, hnotify, hsuspend⟩
    · exact h.own t' new hne hold

/-- What a release does to a task: all that it had is given back. -/
theorem bridgeRelease_eq {tcb : Tcb} (h : Accounted s) (hne : t ≠ foreignTcb)
    (htcb : s.tcbs t = some tcb) : ∃ notify suspend, tcb.notifyContext = some notify ∧
      tcb.suspendContext = some suspend ∧
      bridgeRelease t s = .ok { s with
        tcbs := Function.update s.tcbs t none
        blocks := (s.blocks.erase t).erase tcb.stackBase
        contexts := (s.contexts.erase notify).erase suspend } := by
  obtain ⟨notify, suspend, hnotify, hsuspend⟩ := h.own t tcb hne htcb
  -- each is still in use when its turn comes
  obtain ⟨hn, hp, -⟩ := h.contexts.releasePair (i := t) (x := notify) (y := suspend)
    (by simp [heldContext, htcb, hnotify]) (by simp [heldContext, htcb, hsuspend])
  obtain ⟨ht, hb, -⟩ := h.blocks.releasePair (i := t) (x := t) (y := tcb.stackBase)
    (by simp [heldBlock, hne, htcb]) (by simp [heldBlock, hne, htcb])
  refine ⟨notify, suspend, hnotify, hsuspend, ?_⟩
  simp only [bridgeRelease, s31RtosTaskRelease, htcb, hnotify, hsuspend, State.syncDestroy, hn, hp,
    if_true, bind, Except.bind, State.free, ht, hb]

/-- A task that is released empties its slots, and the others stay. -/
private theorem held_release (t : Nat) (s : State) :
    heldBlock { s with tcbs := Function.update s.tcbs t none } =
        setPair (heldBlock s) t none none ∧
      heldContext { s with tcbs := Function.update s.tcbs t none } =
        setPair (heldContext s) t none none := by
  constructor
  · refine eq_setPair (by simp [heldBlock]) (by simp [heldBlock]) fun t' b hne => ?_
    simp [heldBlock, hne]
  · refine eq_setPair (by simp [heldContext]) (by simp [heldContext]) fun t' b hne => ?_
    simp [heldContext, hne]

/-- A release takes those of its task out of the account. -/
private theorem accounted_release (h : Accounted s) (hne : t ≠ foreignTcb)
    (hs : bridgeRelease t s = .ok s') : Accounted s' := by
  cases htcb : s.tcbs t with
  | none =>
    rw [bridgeRelease, htcb] at hs
    cases hs
  | some tcb =>
    -- both contexts and both blocks are in use, so none of the four steps fails
    obtain ⟨notify, suspend, hnotify, hsuspend, heq⟩ := bridgeRelease_eq h hne htcb
    obtain rfl := Except.ok.inj (hs.symm.trans heq)
    obtain ⟨hblock, hcontext⟩ := held_release t s
    constructor
    · have hreleased := (h.contexts.releasePair (i := t) (x := notify) (y := suspend)
        (by simp [heldContext, htcb, hnotify]) (by simp [heldContext, htcb, hsuspend])).2.2
      rw [← hcontext] at hreleased
      exact hreleased
    · have hreleased := (h.blocks.releasePair (i := t) (x := t) (y := tcb.stackBase)
        (by simp [heldBlock, hne, htcb]) (by simp [heldBlock, hne, htcb])).2.2
      rw [← hblock] at hreleased
      exact hreleased
    · intro t' new hne' hnew
      obtain ⟨-, hgone⟩ | ⟨-, hold⟩ := update_some_cases hnew
      · cases hgone
      · exact h.own t' new hne' hold

/-- Every step keeps the account. -/
theorem Accounted.step {e : Event} (h : Accounted s) (he : e.Allowed s)
    (hs : Tasks.step s e = .ok s') : Accounted s' := by
  obtain ⟨s₁, hp, rfl⟩ := step_ok.mp hs
  refine (keeps_record _ _).accounted ?_
  cases e with
  | create args a =>
    obtain hfails | ⟨s₂, hsucceeds, hcreated⟩ := create_cases args he
    · rw [perform, hfails] at hp
      cases hp
      exact h
    · rw [perform, hsucceeds] at hp
      cases hp
      exact hcreated.accounted he h
  | release t => exact accounted_release h he.1 hp
  -- no other event touches memory or objects
  | _ => exact (keeps_perform (by simp) (by simp) hp).accounted h

/-- Nothing is freed that is not in use. -/
theorem Accounted.no_badFree {e : Event} (h : Accounted s) (he : e.Allowed s) :
    Tasks.step s e ≠ .error .badFree := by
  -- only a creation and a release free anything
  have hperform : perform s e ≠ .error .badFree := by
    cases e with
    | create args a =>
      obtain hfails | ⟨s₂, hsucceeds, -⟩ := create_cases args he
      · simp [perform, hfails, Except.map]
      · simp [perform, hsucceeds, Except.map]
    | release t =>
      obtain ⟨tcb, htcb⟩ := Option.isSome_iff_exists.mp he.2.1
      obtain ⟨_, _, -, -, heq⟩ := bridgeRelease_eq h he.1 htcb
      simp [perform, heq]
    | _ => exact perform_ne_badFree (by simp) (by simp)
  rw [Tasks.step]
  cases hp : perform s e with
  | ok s₁ => simp [Except.map]
  | error fault =>
    intro heq
    have hfault : fault = .badFree := by simpa [Except.map] using heq
    exact hperform (hfault ▸ hp)

end

/-- Over any run: each block and each object in use belongs to one task, a task has a
    block, a stack and two objects of its own, nothing is lost and nothing freed twice.  A
    creation that fails at any point leaves the whole state as it was, one that succeeds
    fills the slots of a new task with what it has got, and a release empties those of
    its task and no others. -/
theorem resources_exact {s : State} (h : Reach (fun _ _ => True) s) :
    Exact (heldContext s) s.contexts ∧ Exact (heldBlock s) s.blocks ∧
      (∀ t tcb, t ≠ foreignTcb → s.tcbs t = some tcb → ∀ second,
        (heldBlock s (t, second)).isSome = true ∧ (heldContext s (t, second)).isSome = true) ∧
      (∀ e : Event, e.Allowed s → step s e ≠ .error .badFree) ∧
      (∀ args a, a.Fresh s →
        xTaskCreatePinnedToCore args a s = .ok (false, s) ∨
          ∃ s' t, xTaskCreatePinnedToCore args a s = .ok (true, s') ∧ s.tcbs t = none ∧
            a.tcb = some t ∧ heldBlock s' = setPair (heldBlock s) t a.tcb a.stack ∧
            heldContext s' = setPair (heldContext s) t a.notify a.suspend) ∧
      ∀ t, (Event.release t).Allowed s → ∃ s', step s (.release t) = .ok s' ∧ s'.tcbs t = none ∧
        heldBlock s' = setPair (heldBlock s) t none none ∧
        heldContext s' = setPair (heldContext s) t none none := by
  have haccounted : Accounted s :=
    h.invariant accounted_init fun s s' e hs he _ hstep => hs.step he hstep
  refine ⟨haccounted.contexts, haccounted.blocks, fun t tcb hne htcb second => ?_,
    fun e he => haccounted.no_badFree he, fun args a hfresh => ?_, fun t ht => ?_⟩
  -- a task other than the foreign one has all four
  · obtain ⟨notify, suspend, hnotify, hsuspend⟩ := haccounted.own t tcb hne htcb
    cases second with
    | false => simp [heldBlock, heldContext, hne, htcb, hnotify]
    | true => simp [heldBlock, heldContext, hne, htcb, hsuspend]
  -- a creation takes four or none
  · obtain hfails | ⟨s', hsucceeds, hcreated⟩ := create_cases args hfresh
    · exact .inl hfails
    · obtain ⟨t, hnone, htcb, hblock, hcontext⟩ := hcreated.held hfresh haccounted
      exact .inr ⟨s', t, hsucceeds, hnone, htcb, hblock, hcontext⟩
  -- a release gives back all four
  · obtain ⟨tcb, htcb⟩ := Option.isSome_iff_exists.mp ht.2.1
    obtain ⟨notify, suspend, -, -, heq⟩ := bridgeRelease_eq haccounted ht.1 htcb
    obtain ⟨hblock, hcontext⟩ := held_release t s
    refine ⟨_, step_ok.mpr ⟨_, heq, rfl⟩, Function.update_self .., ?_, ?_⟩
    · exact hblock
    · exact hcontext

/-- A task with the block 100, the stack 200 and the objects 7 and 8. -/
def createWifi : Event :=
  .create { taskFunc := some 5, name := none, stackDepth := 3584, param := 0, prio := 23 }
    { tcb := some 100, notify := some 7, suspend := some 8, stack := some 200, linuxTask := some 9 }

/-- The creation of the example is one the environment allows. -/
theorem createWifi_allowed {s : State} (hblocks : s.blocks = []) (hcontexts : s.contexts = []) :
    createWifi.Allowed s where
  tcb t ht := by
    obtain rfl := Option.some.inj ht
    exact ⟨hblocks ▸ List.not_mem_nil, by decide⟩
  stack b hb := by
    obtain rfl := Option.some.inj hb
    exact ⟨hblocks ▸ List.not_mem_nil, by simp⟩
  notify h _ := hcontexts ▸ List.not_mem_nil
  suspend h hp := by
    obtain rfl := Option.some.inj hp
    exact ⟨hcontexts ▸ List.not_mem_nil, by simp⟩

/-- The task is released, and another one gets all that it had. -/
theorem resources_exact_createdAgain :
    ∃ s, Reach (fun _ _ => True) s ∧ s.blocks = [200, 100] ∧ s.contexts = [8, 7] ∧ s.ids = 3 ∧
      Exact (heldContext s) [8, 7] ∧ Exact (heldBlock s) [200, 100] := by
  have hcreated := Reach.step (P := fun _ _ => True) .init createWifi
    (createWifi_allowed rfl rfl) trivial rfl
  have hreleased := hcreated.step (.release 100) ⟨by decide, rfl, by decide⟩ trivial rfl
  have hagain := hreleased.step createWifi (createWifi_allowed rfl rfl) trivial rfl
  obtain ⟨hcontexts, hblocks, -⟩ := resources_exact hagain
  exact ⟨_, hagain, rfl, rfl, rfl, hcontexts, hblocks⟩

/-! ## Local storage -/

/-- A value that is set can be read, and the other tasks and indices keep theirs. -/
theorem getTls_setTls {s s' : State} {cur : Nat} {task : Option Nat} {index : Int} {value : Nat}
    {dtor : Option Nat} (hlow : 0 ≤ index) (hhigh : index < 4)
    (h : vTaskSetThreadLocalStoragePointerAndDelCallback cur task index value dtor s = .ok s') :
    pvTaskGetThreadLocalStoragePointer cur task index s' = .ok value ∧
      ∀ cur' task' index', task'.getD cur' ≠ task.getD cur ∨ index' ≠ index →
        pvTaskGetThreadLocalStoragePointer cur' task' index' s' =
          pvTaskGetThreadLocalStoragePointer cur' task' index' s := by
  have hin : ¬ (index < 0 ∨ index ≥ 4) := by omega
  obtain ⟨tcb, htcb, rfl⟩ := withTask_ok.mp h
  rw [if_neg hin]
  constructor
  · simp [pvTaskGetThreadLocalStoragePointer, setTcb_self, hin]
  · intro cur' task' index' hother
    rw [pvTaskGetThreadLocalStoragePointer, pvTaskGetThreadLocalStoragePointer]
    by_cases heq : task'.getD cur' = task.getD cur
    -- the same task, so it is another index
    · rw [heq, setTcb_self, htcb]
      by_cases hin' : index' < 0 ∨ index' ≥ 4
      · simp [hin']
      · have hne : index'.toNat ≠ index.toNat := by
          have hindex := hother.resolve_left (not_not.mpr heq)
          omega
        simp [hin', hne]
    · rw [setTcb_of_ne _ heq]

/-! ## Destructors -/

/-- The index of a call of a destructor for the task `id`. -/
def destructorIndex (id : Nat) : Obs → Option Nat
  | .destructor id' index _ _ => if id' = id then some index else none
  | _ => none

/-- The calls of destructors for the task `id`, in their order. -/
def destroyed (id : Nat) (trace : List Obs) : List Nat := trace.filterMap (destructorIndex id)

/-- The tasks have numbers of their own, and the next one is free. -/
structure Numbered (s : State) : Prop where
  ids : ∀ t tcb, s.tcbs t = some tcb → tcb.id < s.ids
  inj : ∀ t t' tcb tcb', s.tcbs t = some tcb → s.tcbs t' = some tcb' → tcb.id = tcb'.id → t = t'

/-- The loops under way: at most one for each task, the mark is set, and the calls so
    far were for the indices before the one of the loop. -/
structure Cleaning (s : State) : Prop where
  unique : (s.frames.map Frame.target).Nodup
  marked : ∀ f ∈ s.frames, ∃ tcb, s.tcbs f.target = some tcb ∧ tcb.tlsCleaned = true ∧
    ∀ i ∈ destroyed tcb.id s.trace, i < f.next
  idle : ∀ t tcb, s.tcbs t = some tcb → tcb.tlsCleaned = false → destroyed tcb.id s.trace = []
  future : ∀ id, s.ids ≤ id → destroyed id s.trace = []
  sorted : ∀ id, (destroyed id s.trace).Pairwise (· < ·)
  bounded : ∀ id, ∀ i ∈ destroyed id s.trace, i < 4

section

variable {s s' : State} {t cur : Nat} {tcb tcb' : Tcb} {o : Obs}

/-! ### Numbers -/

/-- What keeps the resources keeps the numbers of the tasks. -/
theorem Keeps.numbered (hk : Keeps s s') (h : Numbered s) : Numbered s' where
  ids t tcb htcb := by
    obtain ⟨old, hold, hkey⟩ := hk.task htcb
    have hid : old.id = tcb.id := congrArg (·.1) hkey
    rw [hk.ids, ← hid]
    exact h.ids t old hold
  inj t t' tcb tcb' htcb htcb' heq := by
    obtain ⟨old, hold, hkey⟩ := hk.task htcb
    obtain ⟨old', hold', hkey'⟩ := hk.task htcb'
    have hid : old.id = tcb.id := congrArg (·.1) hkey
    have hid' : old'.id = tcb'.id := congrArg (·.1) hkey'
    exact h.inj t t' old old' hold hold' (by rw [hid, hid', heq])

/-- The number of a new task has not been used. -/
theorem Created.numbered {a : CreateAnswers} (hc : Created a s s') (h : Numbered s) :
    Numbered s' := by
  obtain ⟨t, n, p, stack, tcb, -, -, -, -, hid, -, -, -, -, -, rfl⟩ := hc.made
  constructor
  · intro t' new hnew
    show new.id < s.ids + 1
    obtain ⟨-, heq⟩ | ⟨-, hold⟩ := update_some_cases hnew
    · obtain rfl := Option.some.inj heq
      omega
    · exact Nat.lt_succ_of_lt (h.ids t' new hold)
  · intro t₁ t₂ new₁ new₂ hnew₁ hnew₂ heq
    -- two tasks with one number are both old or both new
    obtain ⟨ht₁, heq₁⟩ | ⟨-, hold₁⟩ := update_some_cases hnew₁ <;>
      obtain ⟨ht₂, heq₂⟩ | ⟨-, hold₂⟩ := update_some_cases hnew₂
    · rw [ht₁, ht₂]
    · obtain rfl := Option.some.inj heq₁
      have hlt := h.ids t₂ new₂ hold₂
      omega
    · obtain rfl := Option.some.inj heq₂
      have hlt := h.ids t₁ new₁ hold₁
      omega
    · exact h.inj t₁ t₂ new₁ new₂ hold₁ hold₂ heq

/-- A release keeps the numbers of the other tasks. -/
theorem Numbered.release (h : Numbered s) (t : Nat) (blocks contexts : List Nat) :
    Numbered { s with
      tcbs := Function.update s.tcbs t none, blocks := blocks, contexts := contexts } := by
  -- every task that is left was there before
  have hback : ∀ {t' new}, Function.update s.tcbs t none t' = some new → s.tcbs t' = some new := by
    intro t' new hnew
    obtain ⟨-, heq⟩ | ⟨-, hold⟩ := update_some_cases hnew
    · cases heq
    · exact hold
  exact ⟨fun t' new hnew => h.ids t' new (hback hnew),
    fun t₁ t₂ new₁ new₂ hnew₁ hnew₂ => h.inj t₁ t₂ new₁ new₂ (hback hnew₁) (hback hnew₂)⟩

/-- Every step keeps the tasks numbered. -/
theorem Numbered.step {e : Event} (haccounted : Accounted s) (h : Numbered s) (he : e.Allowed s)
    (hs : Tasks.step s e = .ok s') : Numbered s' := by
  obtain ⟨s₁, hp, rfl⟩ := step_ok.mp hs
  refine (keeps_record _ _).numbered ?_
  cases e with
  -- a creation that fails gives back what it took
  | create args a =>
    obtain hfails | ⟨s₂, hsucceeds, hcreated⟩ := create_cases args he
    · rw [perform, hfails] at hp
      cases hp
      exact h
    · rw [perform, hsucceeds] at hp
      cases hp
      exact hcreated.numbered h
  | release t =>
    obtain ⟨tcb, htcb⟩ := Option.isSome_iff_exists.mp he.2.1
    obtain ⟨notify, suspend, -, -, heq⟩ := bridgeRelease_eq haccounted he.1 htcb
    obtain rfl := Except.ok.inj (hp.symm.trans heq)
    exact h.release ..
  | _ => exact (keeps_perform (by simp) (by simp) hp).numbered h

/-- The tasks are numbered at the start. -/
theorem numbered_init : Numbered s31RtosInit where
  ids t tcb htcb := by
    obtain ⟨-, rfl⟩ := init_tcbs htcb
    exact Nat.zero_lt_one
  inj t t' tcb tcb' htcb htcb' _ := by rw [(init_tcbs htcb).1, (init_tcbs htcb').1]

/-! ### Loops -/

/-- The destructors called in two parts of a trace. -/
private theorem destroyed_append (id : Nat) (trace more : List Obs) :
    destroyed id (trace ++ more) = destroyed id trace ++ destroyed id more := by
  simp [destroyed, List.filterMap_append]

/-- What is no call of a destructor. -/
def Quiet (o : Obs) : Prop := ∀ id, destructorIndex id o = none

/-- An observation of another kind is no destructor. -/
private theorem destroyed_quiet (ho : Quiet o) (id : Nat) (trace : List Obs) :
    destroyed id (trace ++ [o]) = destroyed id trace := by
  rw [destroyed_append, destroyed, destroyed, List.filterMap_cons, ho id]
  simp

/-- An observation of another kind keeps the invariant. -/
theorem Cleaning.log (h : Cleaning s) (ho : Quiet o) : Cleaning (s.log o) := by
  obtain ⟨hunique, hmarked, hidle, hfuture, hsorted, hbounded⟩ := h
  constructor
  · exact hunique
  · simpa only [State.log, destroyed_quiet ho] using hmarked
  · simpa only [State.log, destroyed_quiet ho] using hidle
  · simpa only [State.log, destroyed_quiet ho] using hfuture
  · simpa only [State.log, destroyed_quiet ho] using hsorted
  · simpa only [State.log, destroyed_quiet ho] using hbounded

/-- What a step records keeps the invariant. -/
theorem Cleaning.record {s₁ : State} (h : Cleaning s₁) (s : State) (e : Event) :
    Cleaning (s₁.record (e.observed s)) := by
  cases ho : e.observed s with
  | none => exact h
  | some o =>
    -- what is observed is the call of a function for critical sections
    have hquiet : Quiet o := by
      cases e with
      | enterCritical cur flags | exitCritical cur =>
        obtain ⟨tcb, -, rfl⟩ := Option.map_eq_some_iff.mp ho
        exact fun id => rfl
      | _ => cases ho
    exact h.log hquiet

/-- Fewer loops. -/
theorem Cleaning.sublist (h : Cleaning s) {frames : List Frame} (hsub : frames.Sublist s.frames) :
    Cleaning { s with frames := frames } where
  unique := h.unique.sublist (hsub.map _)
  marked f hf := h.marked f (hsub.subset hf)
  idle := h.idle
  future := h.future
  sorted := h.sorted
  bounded := h.bounded

/-- A block that is written, with its number and its mark. -/
theorem Cleaning.setTcb (h : Cleaning s) (htcb : s.tcbs t = some tcb) (hid : tcb'.id = tcb.id)
    (hmark : tcb'.tlsCleaned = tcb.tlsCleaned) : Cleaning (s.setTcb t tcb') := by
  constructor
  · exact h.unique
  · intro f hf
    obtain ⟨old, hold, hcleaned, hbefore⟩ := h.marked f hf
    by_cases heq : f.target = t
    -- the loop works on the block that was written
    · have hsame : old = tcb := Option.some.inj (hold.symm.trans (heq ▸ htcb))
      subst hsame
      refine ⟨tcb', heq ▸ setTcb_self s t tcb', hmark.trans hcleaned, ?_⟩
      rw [hid]
      exact hbefore
    · exact ⟨old, by rw [setTcb_of_ne _ heq, hold], hcleaned, hbefore⟩
  · intro t' new hnew hclear
    by_cases heq : t' = t
    · subst heq
      rw [setTcb_self] at hnew
      obtain rfl := Option.some.inj hnew
      rw [hid]
      exact h.idle t' tcb htcb (hmark ▸ hclear)
    · rw [setTcb_of_ne _ heq] at hnew
      exact h.idle t' new hnew hclear
  · exact h.future
  · exact h.sorted
  · exact h.bounded

/-- No loop works on a task without the mark. -/
theorem Cleaning.no_frame (h : Cleaning s) (htcb : s.tcbs t = some tcb)
    (hclear : tcb.tlsCleaned = false) : ∀ f ∈ s.frames, f.target ≠ t := by
  intro f hf heq
  obtain ⟨tcb', htcb', hcleaned, -⟩ := h.marked f hf
  rw [heq, htcb] at htcb'
  obtain rfl := Option.some.inj htcb'
  rw [hclear] at hcleaned
  cases hcleaned

/-- A loop starts: no destructor of the task has been called. -/
theorem Cleaning.start (h : Cleaning s) (htcb : s.tcbs t = some tcb)
    (hclear : tcb.tlsCleaned = false) (deleting : Bool) :
    Cleaning (startCleaning cur t tcb deleting s) := by
  -- the mark was not set, so this is the only loop over the task
  have hfree := h.no_frame htcb hclear
  have htcbs : ∀ t', (startCleaning cur t tcb deleting s).tcbs t' =
      if t' = t then some { tcb with tlsCleaned := true } else s.tcbs t' :=
    fun t' => Function.update_apply ..
  constructor
  · show (t :: s.frames.map Frame.target).Nodup
    rw [List.nodup_cons]
    constructor
    · intro hmem
      obtain ⟨f, hf, heq⟩ := List.mem_map.mp hmem
      exact hfree f hf heq
    · exact h.unique
  · intro f hf
    obtain rfl | hold := List.mem_cons.mp hf
    · refine ⟨_, (htcbs t).trans (if_pos rfl), rfl, ?_⟩
      intro i hi
      -- without the mark no destructor of the task has been called yet
      have hnone : destroyed tcb.id s.trace = [] := h.idle t tcb htcb hclear
      have hmem : i ∈ destroyed tcb.id s.trace := hi
      rw [hnone] at hmem
      cases hmem
    · obtain ⟨tcb', htcb', hcleaned, hbefore⟩ := h.marked f hold
      exact ⟨tcb', by rw [htcbs, if_neg (hfree f hold), htcb'], hcleaned, hbefore⟩
  · intro t' new hnew hnot
    rw [htcbs] at hnew
    split at hnew
    · obtain rfl := Option.some.inj hnew
      cases hnot
    · exact h.idle t' new hnew hnot
  · exact h.future
  · exact h.sorted
  · exact h.bounded

/-- A loop goes on by one index and calls the destructor there or does not. -/
theorem Cleaning.advance {f : Frame} (more : List Obs) (hn : Numbered s) (h : Cleaning s)
    (hf : f ∈ s.frames) (htcb : s.tcbs f.target = some tcb) (hnext : f.next < 4)
    (hmore : ∀ id, destroyed id more = [] ∨ (id = tcb.id ∧ destroyed id more = [f.next])) :
    Cleaning { s with
      frames := { f with next := f.next + 1 } :: s.frames.erase f
      trace := s.trace ++ more } := by
  -- only the calls for this task grow, by the index of the loop
  have hcalls : ∀ id, destroyed id (s.trace ++ more) = destroyed id s.trace ∨
      (id = tcb.id ∧ destroyed id (s.trace ++ more) = destroyed id s.trace ++ [f.next]) := by
    intro id
    rw [destroyed_append]
    obtain hnone | ⟨hid, hone⟩ := hmore id
    · left
      rw [hnone, List.append_nil]
    · right
      exact ⟨hid, by rw [hone]⟩
  obtain ⟨tcb', htcb', hcleaned, hbefore⟩ := h.marked f hf
  obtain rfl : tcb = tcb' := Option.some.inj (htcb.symm.trans htcb')
  have hperm := (List.perm_cons_erase hf).map Frame.target
  have hnodup : (f.target :: (s.frames.erase f).map Frame.target).Nodup :=
    hperm.nodup_iff.mp h.unique
  constructor
  · exact hnodup
  · intro g hg
    obtain rfl | hold := List.mem_cons.mp hg
    · refine ⟨tcb, htcb, hcleaned, ?_⟩
      intro i hi
      show i < f.next + 1
      obtain hsame | ⟨-, hone⟩ := hcalls tcb.id
      · rw [hsame] at hi
        exact Nat.lt_succ_of_lt (hbefore i hi)
      · rw [hone] at hi
        obtain hi | hi := List.mem_append.mp hi
        · exact Nat.lt_succ_of_lt (hbefore i hi)
        · rw [List.mem_singleton.mp hi]
          exact Nat.lt_succ_self _
    · -- another loop works on another task
      obtain ⟨other, hother, hcleaned', hbefore'⟩ := h.marked g (List.mem_of_mem_erase hold)
      refine ⟨other, hother, hcleaned', ?_⟩
      obtain hsame | ⟨hid, -⟩ := hcalls other.id
      · rw [hsame]
        exact hbefore'
      -- the same number would mean the same task, of which there is one loop
      · have htarget := hn.inj _ _ other tcb hother htcb hid
        exact absurd (List.mem_map.mpr ⟨g, hold, htarget⟩) (List.nodup_cons.mp hnodup).1
  · intro t' new hnew hnot
    obtain hsame | ⟨hid, -⟩ := hcalls new.id
    · rw [hsame]
      exact h.idle t' new hnew hnot
    · obtain rfl := hn.inj _ _ new tcb hnew htcb hid
      rw [htcb] at hnew
      obtain rfl := Option.some.inj hnew
      rw [hcleaned] at hnot
      cases hnot
  · intro id hid
    obtain hsame | ⟨heq, -⟩ := hcalls id
    · rw [hsame]
      exact h.future id hid
    · have hlt := hn.ids _ tcb htcb
      exact absurd (heq ▸ hlt) (Nat.not_lt.mpr hid)
  · intro id
    obtain hsame | ⟨rfl, hone⟩ := hcalls id
    · rw [hsame]
      exact h.sorted id
    -- the new index is greater than all before it
    · rw [hone, List.pairwise_append]
      refine ⟨h.sorted tcb.id, List.pairwise_singleton _ _, ?_⟩
      intro i hi j hj
      rw [List.mem_singleton.mp hj]
      exact hbefore i hi
  · intro id i hi
    obtain hsame | ⟨rfl, hone⟩ := hcalls id
    · rw [hsame] at hi
      exact h.bounded id i hi
    · rw [hone] at hi
      obtain hi | hi := List.mem_append.mp hi
      · exact h.bounded tcb.id i hi
      · rw [List.mem_singleton.mp hi]
        exact hnext

/-- The end of a delete keeps the invariant. -/
theorem Cleaning.finish (h : Cleaning s) : Cleaning (finishDelete cur t tcb s) := by
  rw [finishDelete]
  split
  · apply Cleaning.log
    · exact h.sublist (List.filter_sublist ..)
    · intro id
      rfl
  · apply h.log
    intro id
    rfl

/-- A round of the destructors keeps the invariant. -/
theorem Cleaning.clean (hn : Numbered s) (h : Cleaning s) (hs : Tasks.clean cur s = .ok s') :
    Cleaning s' := by
  unfold Tasks.clean at hs
  split at hs
  · cases hs
    exact h
  · next f hfind =>
    have hf : f ∈ s.frames := List.mem_of_find?_eq_some hfind
    obtain ⟨tcb, htcb, rfl⟩ := withTask_ok.mp hs
    by_cases hnext : f.next < 4
    · rw [if_pos hnext]
      cases hdtor : tcb.tlsDtor f.next with
      | none =>
        -- no destructor is registered for this index
        have hquiet := Cleaning.advance [] hn h hf htcb hnext fun id => .inl rfl
        rw [List.append_nil] at hquiet
        exact hquiet
      | some dtor =>
        apply Cleaning.advance _ hn h hf htcb hnext
        intro id
        by_cases hid : tcb.id = id
        · right
          simp [destroyed, destructorIndex, hid]
        · left
          simp [destroyed, destructorIndex, hid]
    · rw [if_neg hnext]
      -- all four indices are done
      have hrest : Cleaning { s with frames := s.frames.erase f } :=
        h.sublist List.erase_sublist
      dsimp only
      split
      · exact hrest.finish
      · exact hrest

/-- For a new task no destructor has been called, and no loop works on its block. -/
theorem Created.cleaning {a : CreateAnswers} (hc : Created a s s') (hfresh : a.Fresh s)
    (haccounted : Accounted s) (h : Cleaning s) : Cleaning s' := by
  obtain ⟨t, n, p, stack, tcb, ht, -, -, -, hid, -, -, -, -, -, rfl⟩ := hc.made
  obtain ⟨htcbFresh, htcbNe⟩ := hfresh.tcb t ht
  have hnone := haccounted.no_task htcbFresh htcbNe
  -- the block is new, so no loop works on it and the other tasks are as they were
  constructor
  · exact h.unique
  · intro f hf
    obtain ⟨old, hold, hcleaned, hbefore⟩ := h.marked f hf
    refine ⟨old, ?_, hcleaned, hbefore⟩
    show Function.update s.tcbs t (some tcb) f.target = some old
    rw [Function.update_of_ne]
    · exact hold
    · intro heq
      rw [heq, hnone] at hold
      cases hold
  · intro t' new hnew hnot
    obtain ⟨-, heq⟩ | ⟨-, hold⟩ := update_some_cases hnew
    · obtain rfl := Option.some.inj heq
      rw [hid]
      exact h.future s.ids (Nat.le_refl _)
    · exact h.idle t' new hold hnot
  · intro id hge
    exact h.future id (Nat.le_of_succ_le hge)
  · exact h.sorted
  · exact h.bounded

/-- A task is released that no loop works on. -/
theorem Cleaning.release (hfree : ∀ f ∈ s.frames, f.target ≠ t) (h : Cleaning s)
    (blocks contexts : List Nat) :
    Cleaning { s with
      tcbs := Function.update s.tcbs t none, blocks := blocks, contexts := contexts } := by
  -- no loop works on the task that goes
  constructor
  · exact h.unique
  · intro f hf
    obtain ⟨old, hold, hcleaned, hbefore⟩ := h.marked f hf
    refine ⟨old, ?_, hcleaned, hbefore⟩
    show Function.update s.tcbs t none f.target = some old
    rw [Function.update_of_ne (hfree f hf)]
    exact hold
  · intro t' new hnew hnot
    obtain ⟨-, heq⟩ | ⟨-, hold⟩ := update_some_cases hnew
    · cases heq
    · exact h.idle t' new hold hnot
  · exact h.future
  · exact h.sorted
  · exact h.bounded

/-- The invariant holds at the start. -/
private theorem cleaning_init : Cleaning s31RtosInit where
  unique := List.nodup_nil
  marked f hf := by cases hf
  idle t tcb _ _ := rfl
  future id _ := rfl
  sorted id := List.Pairwise.nil
  bounded id i hi := by cases hi

/-- Every step that spares the tasks under way keeps the invariant. -/
theorem Cleaning.step {e : Event} (haccounted : Accounted s) (hn : Numbered s) (h : Cleaning s)
    (he : e.Allowed s) (hspares : e.Spares s) (hs : Tasks.step s e = .ok s') : Cleaning s' := by
  obtain ⟨s₁, hp, rfl⟩ := step_ok.mp hs
  refine Cleaning.record ?_ s e
  cases e with
  -- a creation that fails changes nothing, and one that succeeds brings a new number
  | create args a =>
    obtain hfails | ⟨s₂, hsucceeds, hcreated⟩ := create_cases args he
    · rw [perform, hfails] at hp
      cases hp
      exact h
    · rw [perform, hsucceeds] at hp
      cases hp
      exact hcreated.cleaning he haccounted h
  | release t =>
    obtain ⟨tcb, htcb⟩ := Option.isSome_iff_exists.mp he.2.1
    obtain ⟨notify, suspend, -, -, heq⟩ := bridgeRelease_eq haccounted he.1 htcb
    obtain rfl := Except.ok.inj (hp.symm.trans heq)
    exact Cleaning.release hspares h ..
  | setTls cur task index value dtor =>
    obtain ⟨tcb, htcb, rfl⟩ := withTask_ok.mp hp
    split
    · exact h
    · exact h.setTcb htcb rfl rfl
  | delete cur task =>
    obtain ⟨tcb, htcb, rfl⟩ := withTask_ok.mp hp
    split
    -- the mark decides whether a loop starts
    · next hclear => exact h.start htcb (Bool.not_eq_true _ ▸ hclear) true
    · exact h.finish
  | entryReturns cur =>
    obtain ⟨tcb, htcb, rfl⟩ := withTask_ok.mp hp
    split
    · next hclear => exact h.start htcb (Bool.not_eq_true _ ▸ hclear) false
    · exact h
  | clean cur => exact h.clean hn hp
  | setPriority cur task priority =>
    obtain ⟨tcb, htcb, rfl⟩ := withTask_ok.mp hp
    apply Cleaning.log
    · exact h.setTcb htcb rfl rfl
    · exact fun id => rfl
  -- entering and leaving write the block of the task, but neither its number nor the mark
  | enterCritical cur flags =>
    obtain ⟨tcb, htcb, rfl⟩ := withTask_ok.mp hp
    split
    · apply Cleaning.log
      · exact h.setTcb htcb rfl rfl
      · exact fun id => rfl
    · exact h.setTcb htcb rfl rfl
  | exitCritical cur =>
    obtain ⟨tcb, htcb, rfl⟩ := withTask_ok.mp hp
    split
    · exact h
    · dsimp only
      split
      · apply Cleaning.log
        · exact h.setTcb htcb rfl rfl
        · exact fun id => rfl
      · exact h.setTcb htcb rfl rfl

end

/-- Over any run in which no task is released while a loop over its destructors is under
    way, with destructors that delete tasks, their own or others, and threads that delete
    the same task: for each task each destructor is called at most once, in the order of
    the indices, of which there are four. -/
theorem destructors_once {s : State} (h : Reach (fun s e => e.Spares s) s) (id : Nat) :
    (destroyed id s.trace).Pairwise (· < ·) ∧ ∀ i ∈ destroyed id s.trace, i < 4 := by
  -- that new blocks are free needs the accounts, so all go through the run together
  have hall : (Accounted s ∧ Numbered s) ∧ Cleaning s := by
    apply h.invariant (I := fun s => (Accounted s ∧ Numbered s) ∧ Cleaning s)
    · exact ⟨⟨accounted_init, numbered_init⟩, cleaning_init⟩
    · intro s s' e hs he hspares hstep
      exact ⟨⟨hs.1.1.step he hstep, hs.1.2.step hs.1.1 he hstep⟩,
        hs.2.step hs.1.1 hs.1.2 he hspares hstep⟩
  exact ⟨hall.2.sorted id, hall.2.bounded id⟩

/-- The radio worker deletes a task, and while it is in the destructor of index 2 the task
    deletes itself. -/
theorem destructors_once_deletedTwice :
    ∃ s, Reach (fun s e => e.Spares s) s ∧ destroyed 1 s.trace = [2] ∧
      (destroyed 1 s.trace).Pairwise (· < ·) := by
  have hcreated := Reach.step (P := fun s e => e.Spares s) .init createWifi
    (createWifi_allowed rfl rfl) trivial rfl
  have hset := hcreated.step (.setTls 100 none 2 77 (some 900)) trivial trivial rfl
  have hdeleting := hset.step (.delete foreignTcb (some 100)) trivial trivial rfl
  have hfirst := hdeleting.step (.clean foreignTcb) trivial trivial rfl
  have hsecond := hfirst.step (.clean foreignTcb) trivial trivial rfl
  have hthird := hsecond.step (.clean foreignTcb) trivial trivial rfl
  have htwice := hthird.step (.delete 100 none) trivial trivial rfl
  exact ⟨_, htwice, by decide, (destructors_once htwice 1).1⟩

/-- Without that condition it fails.  The radio worker deletes a task and waits in the
    destructor of index 0; the task returns and is released, its block is used for a new
    task, which returns as well, and both loops call the destructor of index 2 of the new
    task. -/
theorem destroyed_twice : ∃ s, Reach (fun _ _ => True) s ∧ destroyed 2 s.trace = [2, 2] := by
  have hcreated := Reach.step (P := fun _ _ => True) .init createWifi
    (createWifi_allowed rfl rfl) trivial rfl
  have hset := hcreated.step (.setTls 100 none 0 77 (some 900)) trivial trivial rfl
  have hdeleting := hset.step (.delete foreignTcb (some 100)) trivial trivial rfl
  have hwaiting := hdeleting.step (.clean foreignTcb) trivial trivial rfl
  -- the task has the mark, so it has no loop of its own
  have hreturned := hwaiting.step (.entryReturns 100) trivial trivial rfl
  have hreleased := hreturned.step (.release 100) ⟨by decide, rfl, by decide⟩ trivial rfl
  have hagain := hreleased.step createWifi (createWifi_allowed rfl rfl) trivial rfl
  have hset' := hagain.step (.setTls 100 none 2 78 (some 901)) trivial trivial rfl
  have hown := hset'.step (.entryReturns 100) trivial trivial rfl
  have hown := ((hown.step (.clean 100) trivial trivial rfl).step (.clean 100) trivial trivial rfl).step
    (.clean 100) trivial trivial rfl
  have hother := (hown.step (.clean foreignTcb) trivial trivial rfl).step (.clean foreignTcb) trivial
    trivial rfl
  exact ⟨_, hother, by decide⟩

end EspS31.Tasks
