import EspS31.Native.Shim
import EspS31.Spec.TaskLife

/-!
# The tasks of the two models of the shim

`Native.Shim` has the contexts of all objects and runs each entry point to its end;
`Native.Tasks` has the whole block of a task and takes the loop over its destructors
apart.  The functions that both contain create and release the same tasks and destroy
the same contexts.

## Key results

- `SameTasks.create`, `SameTasks.release`: the two functions in both models
- `finishDelete_uses`: how `vTaskDelete` ends
- `runs_same_init`: over any run both models have the same tasks
-/

namespace EspS31.Tasks

open Rtos (Shim ShimCall Use CallEnv Thread)

/-- Both have the same tasks, and the contexts of the one are among those of the other,
    which has contexts of queues and event groups too. -/
structure SameTasks (s : State) (sh : Shim) : Prop where
  tasks : ∀ t, (sh.tasks t).map (fun task => (task.notifyContext, task.suspendContext)) =
    (s.tcbs t).map fun tcb => (tcb.notifyContext, tcb.suspendContext)
  contexts : ∃ others, sh.contexts.Perm (s.contexts ++ others)

/-- At first both have the foreign task, without contexts. -/
private theorem sameTasks_init : SameTasks s31RtosInit Rtos.s31RtosInit where
  tasks t := by
    by_cases ht : t = foreignTcb
    · subst ht
      rfl
    · have htasks : Rtos.s31RtosInit.tasks t = none :=
        (Function.update_of_ne (f := fun _ => none) ht _).trans rfl
      have htcbs : s31RtosInit.tcbs t = none :=
        (Function.update_of_ne (f := fun _ => none) ht _).trans rfl
      rw [htasks, htcbs, Option.map_none, Option.map_none]
  contexts := ⟨[], .refl _⟩

/-- Both parts of a computation succeed. -/
private theorem bind_ok {α β : Type} {x : Except Fault α} {f : α → Except Fault β} {b : β} :
    (x >>= f) = .ok b ↔ ∃ a, x = .ok a ∧ f a = .ok b := by
  cases x with
  | error fault => simp [bind, Except.bind]
  | ok a => simp [bind, Except.bind]

section

variable {s s' : State} {sh : Shim} {ctx : Option Nat} {t : Nat}

/-! ## The allocator and the bridge -/

/-- A context created. -/
theorem SameTasks.syncCreate (h : SameTasks s sh) (ctx : Option Nat) :
    SameTasks (s.syncCreate ctx) (sh.create ctx) where
  tasks := h.tasks
  contexts := by
    obtain ⟨others, hperm⟩ := h.contexts
    exact ⟨others, by
      rw [State.syncCreate, Shim.create, List.append_assoc]
      exact hperm.append_left _⟩

/-- A context destroyed, which was one of a task. -/
theorem SameTasks.syncDestroy (h : SameTasks s sh) (hok : s.syncDestroy ctx = .ok s') :
    SameTasks s' (sh.destroyIf ctx).1 ∧ s'.tcbs = s.tcbs ∧
      (sh.destroyIf ctx).1.tasks = sh.tasks := by
  cases ctx with
  | none =>
    obtain rfl := Except.ok.inj hok
    exact ⟨h, rfl, rfl⟩
  | some x =>
    rw [State.syncDestroy] at hok
    split at hok
    -- the context is a task's, so it is not one of the others that is taken away
    · next hmem =>
      obtain rfl := Except.ok.inj hok
      refine ⟨⟨h.tasks, ?_⟩, rfl, rfl⟩
      obtain ⟨others, hperm⟩ := h.contexts
      refine ⟨others, (hperm.erase x).trans ?_⟩
      rw [List.erase_append_left _ hmem]
    · cases hok

/-- Freeing a block leaves the tasks the same. -/
theorem SameTasks.free {b : Nat} (h : SameTasks s sh) (hok : s.free b = .ok s') :
    SameTasks s' sh := by
  rw [State.free] at hok
  split at hok
  · obtain rfl := Except.ok.inj hok
    exact ⟨h.tasks, h.contexts⟩
  · cases hok

/-- A task at an address, or none. -/
theorem SameTasks.put (h : SameTasks s sh) {tcb : Option Tcb} {task : Option Rtos.Task}
    (hsame : task.map (fun task => (task.notifyContext, task.suspendContext)) =
      tcb.map fun tcb => (tcb.notifyContext, tcb.suspendContext)) :
    SameTasks { s with tcbs := Function.update s.tcbs t tcb }
      { sh with tasks := Function.update sh.tasks t task } where
  tasks t' := by
    by_cases ht : t' = t
    · simp only [ht, Function.update_self, hsame]
    · simp only [Function.update_of_ne ht, h.tasks]
  contexts := h.contexts

/-- The task at an address is taken away. -/
theorem SameTasks.remove (h : SameTasks s sh) (t : Nat) :
    SameTasks { s with tcbs := Function.update s.tcbs t none }
      { sh with tasks := Function.update sh.tasks t none } := h.put rfl

/-- What leaves tasks and contexts as they are. -/
theorem SameTasks.keeps (h : SameTasks s sh) (hk : Keeps s s') : SameTasks s' sh where
  tasks t := by
    rw [h.tasks t]
    have hkey := congrArg (Option.map fun key => (key.2.1, key.2.2.1)) (hk.keys t)
    rw [Option.map_map, Option.map_map] at hkey
    exact hkey.symm
  contexts := hk.contexts ▸ h.contexts

/-! ## Creation and release -/

/-- The end of a creation that fails. -/
theorem SameTasks.giveBack {a : CreateAnswers} {made : Bool} (h : SameTasks s sh)
    (hok : giveBack a t s = .ok (made, s')) :
    SameTasks s' ((sh.destroyIf a.notify).1.destroyIf a.suspend).1 := by
  obtain ⟨s₁, hnotify, hok⟩ := bind_ok.mp hok
  obtain ⟨s₂, hsuspend, hok⟩ := bind_ok.mp hok
  obtain ⟨s₃, hfree, hok⟩ := bind_ok.mp hok
  obtain ⟨-, rfl⟩ := Prod.mk.inj (Except.ok.inj hok)
  exact (((h.syncDestroy hnotify).1.syncDestroy hsuspend).1).free hfree

/-- The arguments and the answers in the words of the other model. -/
def createCall (args : CreateArgs) (a : CreateAnswers) : ShimCall :=
  .xTaskCreatePinnedToCore (args.taskFunc.isSome && args.stackDepth ≠ 0) a.tcb a.notify a.suspend
    a.stack.isSome a.linuxTask.isSome

/-- A new block leaves the tasks the same. -/
theorem SameTasks.malloc (h : SameTasks s sh) (block : Nat) : SameTasks (s.malloc block) sh :=
  ⟨h.tasks, h.contexts⟩

/-- The other model without a function or a stack depth, or without a block. -/
private theorem shim_create_refused {valid stack linuxTask : Bool}
    {block notify suspend : Option Nat}
    (h : valid = false ∨ block = none) :
    (Rtos.xTaskCreatePinnedToCore valid block notify suspend stack linuxTask sh).1 = sh := by
  obtain rfl | rfl := h
  · cases block <;> rfl
  · rfl

/-- The other model when one of the answers is missing. -/
private theorem shim_create_failed {stack linuxTask : Bool} {notify suspend : Option Nat}
    (h : notify.isNone ∨ suspend.isNone ∨ ¬ stack ∨ ¬ linuxTask) :
    (Rtos.xTaskCreatePinnedToCore true (some t) notify suspend stack linuxTask sh).1 =
      ((((sh.create notify).create suspend).destroyIf notify).1.destroyIf suspend).1 := by
  simp only [Rtos.xTaskCreatePinnedToCore, not_true, if_false, if_pos h]

/-- A creation.  Each exit of the source has destroyed the same contexts in both. -/
theorem SameTasks.create (h : SameTasks s sh) {args : CreateArgs} {a : CreateAnswers} {made : Bool}
    (hok : xTaskCreatePinnedToCore args a s = .ok (made, s')) (th : Thread) (env : CallEnv) :
    SameTasks s' (Rtos.perform th env sh (createCall args a)).1 := by
  obtain ⟨taskFunc, name, stackDepth, param, prio⟩ := args
  obtain ⟨tcb, notify, suspend, stack, linuxTask⟩ := a
  show SameTasks s' (Rtos.xTaskCreatePinnedToCore (taskFunc.isSome && stackDepth ≠ 0) tcb notify
    suspend stack.isSome linuxTask.isSome sh).1
  unfold xTaskCreatePinnedToCore at hok
  cases taskFunc with
  -- without a function, and then without a depth, both refuse before they obtain anything
  | none =>
    obtain ⟨-, rfl⟩ := Prod.mk.inj (Except.ok.inj hok)
    have hvalid : ((none : Option Nat).isSome && decide (stackDepth ≠ 0)) = false := rfl
    rwa [shim_create_refused (.inl hvalid)]
  | some taskFunc =>
    by_cases hdepth : stackDepth = 0
    · simp only [hdepth, if_true] at hok
      obtain ⟨-, rfl⟩ := Prod.mk.inj (Except.ok.inj hok)
      have hvalid : ((some taskFunc).isSome && decide (stackDepth ≠ 0)) = false := by simp [hdepth]
      rwa [shim_create_refused (.inl hvalid)]
    have hvalid : ((some taskFunc).isSome && decide (stackDepth ≠ 0)) = true := by simp [hdepth]
    simp only [hdepth, if_false] at hok
    rw [hvalid]
    cases tcb with
    | none =>
      obtain ⟨-, rfl⟩ := Prod.mk.inj (Except.ok.inj hok)
      rwa [shim_create_refused (.inr rfl)]
    | some t =>
      -- the block and the two contexts are asked for in the same order
      have hobtained := ((h.malloc t).syncCreate notify).syncCreate suspend
      dsimp only at hok
      split at hok
      · next hnone =>
        rw [shim_create_failed (hnone.imp_right .inl)]
        exact hobtained.giveBack hok
      · next hsome =>
        cases stack with
        | none =>
          rw [shim_create_failed (.inr (.inr (.inl (by decide))))]
          exact hobtained.giveBack hok
        | some stack =>
          cases linuxTask with
          | none =>
            rw [shim_create_failed (.inr (.inr (.inr (by decide))))]
            -- the stack is freed before the rest is given back
            obtain ⟨s₁, hfree, hok⟩ := bind_ok.mp hok
            exact ((hobtained.malloc stack).free hfree).giveBack hok
          | some linuxTask =>
            obtain ⟨-, rfl⟩ := Prod.mk.inj (Except.ok.inj hok)
            have hcreated : ¬(notify.isNone ∨ suspend.isNone ∨ ¬(some stack).isSome ∨
                ¬(some linuxTask).isSome) := by
              simpa using hsome
            simp only [Rtos.xTaskCreatePinnedToCore, not_true, if_false, if_neg hcreated]
            exact ⟨(hobtained.put (t := t) rfl).tasks, hobtained.contexts⟩

/-- A release. -/
theorem SameTasks.release (h : SameTasks s sh) (hok : bridgeRelease t s = .ok s') (th : Thread)
    (env : CallEnv) :
    SameTasks s' (Rtos.perform th env sh (.s31RtosTaskRelease (some t))).1 := by
  show SameTasks s' (Rtos.s31RtosTaskRelease (some t) sh).1
  unfold bridgeRelease s31RtosTaskRelease at hok
  cases htcb : s.tcbs t with
  | none =>
    rw [htcb] at hok
    exact nomatch hok
  | some tcb =>
    rw [htcb] at hok
    obtain ⟨s₁, hrelease, hstack⟩ := bind_ok.mp hok
    obtain ⟨s₂, hnotify, hrelease⟩ := bind_ok.mp hrelease
    obtain ⟨s₃, hsuspend, hblock⟩ := bind_ok.mp hrelease
    -- the task of the other model holds the same two contexts
    have htask := h.tasks t
    rw [htcb, Option.map_some] at htask
    obtain ⟨task, htask, hcontexts⟩ := Option.map_eq_some_iff.mp htask
    obtain ⟨hn, hs⟩ := Prod.mk.inj hcontexts
    rw [← hn] at hnotify
    rw [← hs] at hsuspend
    obtain ⟨h₂, htcbs₂, htasks₂⟩ := h.syncDestroy hnotify
    obtain ⟨h₃, htcbs₃, htasks₃⟩ := h₂.syncDestroy hsuspend
    have hput := h₃.remove t
    rw [htcbs₃, htcbs₂, htasks₃, htasks₂] at hput
    rw [htcbs₃, htcbs₂] at hblock
    -- the block and the stack are not part of what the models share
    have hrest := (hput.free hblock).free hstack
    simp only [Rtos.s31RtosTaskRelease, Option.bind_some, htask, Option.map_some]
    exact hrest

/-! ## Runs -/

/-- The call of the bridge at the end of `vTaskDelete`. -/
def Obs.use : Obs → Option Use
  | .exitCurrent _ => some .taskExitCurrent
  | .taskStop _ => some .taskStop
  | _ => none

/-- `vTaskDelete` ends with the same call of the bridge. -/
theorem finishDelete_uses (th : Thread) (tcb : Tcb) :
    (finishDelete th.task t tcb s).trace.filterMap Obs.use =
      s.trace.filterMap Obs.use ++ (Rtos.vTaskDelete th (some t) sh).2 := by
  unfold finishDelete Rtos.vTaskDelete
  by_cases ht : t = th.task
  · simp [State.log, Obs.use, ht]
  · simp [State.log, Obs.use, ht]

/-- The events that are calls of the other model. -/
def Event.call : Event → Option ShimCall
  | .create args a => some (createCall args a)
  | .release t => some (.s31RtosTaskRelease (some t))
  | .delete _ task => some (.vTaskDelete task)
  | _ => none

/-- The other model at an event. -/
def follow (th : Thread) (env : CallEnv) (sh : Shim) (e : Event) : Shim :=
  match e.call with
  | none => sh
  | some c => (Rtos.perform th env sh c).1

/-- One event. -/
theorem SameTasks.step (h : SameTasks s sh) {e : Event} (hstep : step s e = .ok s') (th : Thread)
    (env : CallEnv) : SameTasks s' (follow th env sh e) := by
  obtain ⟨s₁, hperform, rfl⟩ := step_ok.mp hstep
  suffices hsame : SameTasks s₁ (follow th env sh e) from hsame.keeps (keeps_record _ _)
  have hother (hcreate : ∀ args a, e ≠ .create args a) (hrelease : ∀ t, e ≠ .release t) :
      SameTasks s₁ sh := h.keeps (keeps_perform hcreate hrelease hperform)
  cases e with
  -- only a creation and a release touch what the models share
  | create args a =>
    rw [perform] at hperform
    cases hcreate : xTaskCreatePinnedToCore args a s with
    | error fault =>
      rw [hcreate] at hperform
      cases hperform
    | ok made =>
      rw [hcreate] at hperform
      obtain rfl := Except.ok.inj hperform
      exact h.create hcreate th env
  | release t => exact h.release hperform th env
  | delete cur task =>
    -- the end of a task leaves the contexts to the release
    have hsame := hother (by simp) (by simp)
    have hcall : follow th env sh (.delete cur task) = sh := by
      show (Rtos.vTaskDelete th task sh).1 = sh
      rw [Rtos.vTaskDelete]
      split <;> rfl
    rwa [hcall]
  | _ => exact hother (by simp) (by simp)

/-- Over any run the tasks are the same, and no context of theirs is lost in the other
    model. -/
private theorem runs_same (th : Thread) (env : CallEnv) {events : List Event}
    (hrun : events.foldlM Tasks.step s = .ok s') (h : SameTasks s sh) :
    SameTasks s' (events.foldl (follow th env) sh) := by
  induction events generalizing s sh with
  | nil =>
    obtain rfl := Except.ok.inj hrun
    exact h
  | cons e events ih =>
    obtain ⟨s₁, hstep, hrest⟩ := bind_ok.mp hrun
    exact ih hrest (h.step hstep th env)

/-- So over any run from the start. -/
theorem runs_same_init (th : Thread) (env : CallEnv) {events : List Event}
    (hrun : events.foldlM Tasks.step s31RtosInit = .ok s') :
    SameTasks s' (events.foldl (follow th env) Rtos.s31RtosInit) :=
  runs_same th env hrun sameTasks_init

end

end EspS31.Tasks
