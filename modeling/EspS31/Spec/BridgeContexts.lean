import EspS31.ForStd.Ownership
import EspS31.Native.Shim
import EspS31.Spec.SectionFrames

/-!
# The contexts the bridge is given

Queues and event groups get their context from their creator, tasks get two from
`xTaskCreatePinnedToCore`.  The task of the radio worker is filled by no creator, and
a static queue outlives its context.

## Key results

- `perform_keeps`: contexts held by objects stay live and are held once
- `contexts_live_iff`: the runs in which the bridge is given live contexts only
-/

namespace EspS31.Rtos

open SyncProtocol

/-- The bridge function is given a context that was created and not destroyed. -/
def Use.Valid : Use → Prop
  | .sync _ ctx live => ctx.isSome ∧ live = true
  | _ => True

/-! ## Locked sections keep the context of their object -/

/-- The sections of a call leave the context of the queue alone. -/
structure KeepsQueue (c : SyncCall (Option BridgeHandle) S31Queue Ret TickType) : Prop where
  body : ∀ q, (c.body q).1.waitContext = q.waitContext
  closing : ∀ late f q, c.closing late = some f → (f q).1.waitContext = q.waitContext

/-- A call of one section keeps the context when its section does. -/
private theorem keepsQueue_once {ctx : Option BridgeHandle}
    {body : S31Queue → S31Queue × Ret × Bool}
    (hbody : ∀ q, (body q).1.waitContext = q.waitContext) : KeepsQueue (.once ctx body) :=
  ⟨hbody, nofun⟩

/-- A call that waits keeps the context when its section does. -/
private theorem keepsQueue_loop {ctx : Option BridgeHandle} {timeout : TickType}
    {body : S31Queue → S31Queue × Outcome Ret}
    (hbody : ∀ q, (body q).1.waitContext = q.waitContext) :
    KeepsQueue (queueLoop ctx timeout body) :=
  ⟨hbody, fun late _ _ h => by cases late <;> exact nomatch h⟩

/-- A queue entry point that uses the context of its queue, which it has found to be
    there, and keeps it. -/
def QueueSafe
    (f : S31Queue → Ret ⊕ SyncCall (Option BridgeHandle) S31Queue Ret TickType) : Prop :=
  ∀ q c, f q = .inr c → q.waitContext.isSome ∧ c.ctx = q.waitContext ∧ KeepsQueue c

section

variable (th : Thread)

/-- A send in an interrupt uses the queue's own context. -/
private theorem queueSafe_sendFromISR (item : Option (List UInt8)) (woken : Option BaseType)
    (copy : BaseType) :
    QueueSafe fun q => xQueueGenericSendFromISR th q.waitContext item woken copy q := by
  intro q c hc
  dsimp only at hc
  unfold xQueueGenericSendFromISR at hc
  split at hc
  · next hvalid =>
    obtain rfl := Sum.inr.inj hc
    exact ⟨hvalid, rfl, keepsQueue_once fun q => (sendFromISRSection_same _ _ _ _ q).context⟩
  · exact nomatch hc

/-- A receive in an interrupt uses the queue's own context. -/
private theorem queueSafe_receiveFromISR (item : Bool) (woken : Option BaseType) :
    QueueSafe fun q => xQueueReceiveFromISR q.waitContext item woken q := by
  intro q c hc
  dsimp only at hc
  unfold xQueueReceiveFromISR at hc
  split at hc
  · next hvalid =>
    obtain rfl := Sum.inr.inj hc
    exact ⟨hvalid, rfl, keepsQueue_once fun q => (receiveFromISRSection_same _ _ q).context⟩
  · exact nomatch hc

/-- A send uses the queue's own context. -/
private theorem queueSafe_send (item : Option (List UInt8)) (timeout : TickType) (copy : BaseType) :
    QueueSafe fun q => xQueueGenericSend th q.waitContext item timeout copy q := by
  intro q c hc
  dsimp only at hc
  unfold xQueueGenericSend at hc
  split at hc
  · next hvalid =>
    split at hc
    · exact queueSafe_sendFromISR th item none copy q c hc
    · obtain rfl := Sum.inr.inj hc
      exact ⟨hvalid, rfl, keepsQueue_loop fun q => (sendSection_same _ _ _ q).context⟩
  · exact nomatch hc

/-- A receive uses the queue's own context. -/
private theorem queueSafe_receive (item : Bool) (timeout : TickType) :
    QueueSafe fun q => xQueueReceive th q.waitContext item timeout q := by
  intro q c hc
  dsimp only at hc
  unfold xQueueReceive at hc
  split at hc
  · next hvalid =>
    split at hc
    · exact queueSafe_receiveFromISR item none q c hc
    · obtain rfl := Sum.inr.inj hc
      exact ⟨hvalid, rfl, keepsQueue_loop fun q => (receiveSection_same _ q).context⟩
  · exact nomatch hc

/-- A take uses the queue's own context. -/
private theorem queueSafe_semaphoreTake (timeout : TickType) :
    QueueSafe fun q => xQueueSemaphoreTake th q.waitContext timeout q := by
  intro q c hc
  dsimp only at hc
  unfold xQueueSemaphoreTake at hc
  split at hc
  · next hvalid =>
    obtain rfl := Sum.inr.inj hc
    exact ⟨hvalid, rfl, keepsQueue_loop fun q => (semaphoreTakeSection_same _ q).context⟩
  · exact nomatch hc

/-- A function of one section behind the validity test and perhaps another. -/
private theorem queueSafe_guarded {p : S31Queue → Prop} [DecidablePred p] {ret : Ret}
    {body : S31Queue → S31Queue × Ret × Bool} (hp : ∀ q, p q → s31QueueValid q)
    (hbody : ∀ q, (body q).1.waitContext = q.waitContext) :
    QueueSafe fun q => if p q then .inr (.once q.waitContext body) else .inl ret := by
  intro q c hc
  dsimp only at hc
  split at hc
  · next hpq =>
    obtain rfl := Sum.inr.inj hc
    exact ⟨hp q hpq, rfl, keepsQueue_once hbody⟩
  · exact nomatch hc

end

/-- The same for event groups. -/
def GroupSafe
    (f : S31EventGroup → Ret ⊕ SyncCall (Option BridgeHandle) S31EventGroup Ret TickType) :
    Prop :=
  ∀ g c, f g = .inr c → c.ctx = g.waitContext ∧
    (∀ g, (c.body g).1.waitContext = g.waitContext) ∧
    ∀ late f g, c.closing late = some f → (f g).1.waitContext = g.waitContext

/-- A call of one section on a group with a context uses that context. -/
private theorem groupSafe_guarded {ret : Ret} {body : S31EventGroup → S31EventGroup × Ret × Bool}
    (hbody : ∀ g, (body g).1.waitContext = g.waitContext) :
    GroupSafe fun g =>
      if g.waitContext.isSome then .inr (.once g.waitContext body) else .inl ret := by
  intro g c hc
  dsimp only at hc
  split at hc
  · obtain rfl := Sum.inr.inj hc
    exact ⟨rfl, hbody, nofun⟩
  · exact nomatch hc

/-- A wait for bits uses the group's own context. -/
private theorem groupSafe_waitBits (th : Thread) (bits : UInt32) (clearOnExit waitAllBits : Bool)
    (timeout : TickType) :
    GroupSafe fun g =>
      xEventGroupWaitBits th g.waitContext bits clearOnExit waitAllBits timeout g := by
  intro g c hc
  dsimp only at hc
  unfold xEventGroupWaitBits at hc
  split at hc
  · obtain rfl := Sum.inr.inj hc
    refine ⟨rfl, waitBitsSection_waitContext _ _ _, fun late f g hf => ?_⟩
    -- only after a timeout is there a closing section
    cases late with
    | false => exact nomatch hf
    | true =>
      obtain rfl := Option.some.inj hf
      exact consume_waitContext ..
  · exact nomatch hc

/-! ## The invariant -/

/-- The fields that hold a context. -/
inductive Slot where
  | queue (a : Nat)
  | group (a : Nat)
  | notify (t : TaskHandle)
  | suspend (t : TaskHandle)
deriving DecidableEq, Repr

/-- The context a field holds. -/
def Shim.context (s : Shim) : Slot → Option BridgeHandle
  | .queue a => (s.queues a).bind fun q => q.waitContext
  | .group a => (s.groups a).bind fun g => g.waitContext
  | .notify t => (s.tasks t).bind fun t => t.notifyContext
  | .suspend t => (s.tasks t).bind fun t => t.suspendContext

/-- Contexts are held once; groups and created tasks have theirs, and the foreign
    task has none. -/
structure Shim.Inv (s : Shim) : Prop where
  owned : Owned s.context s.contexts
  groups : ∀ a g, s.groups a = some g → g.waitContext.isSome
  tasks : ∀ t task, s.tasks t = some task → t ≠ foreignTcb →
    task.notifyContext.isSome ∧ task.suspendContext.isSome
  foreign : ∃ task, s.tasks foreignTcb = some task ∧ task.notifyContext = none ∧
    task.suspendContext = none

/-- At the start there is the foreign task only. -/
private theorem s31RtosInit_tasks {t : TaskHandle} {task : Task}
    (h : s31RtosInit.tasks t = some task) :
    t = foreignTcb ∧ task = {} := by
  have hupdate : Function.update (fun _ => none) foreignTcb (some ({} : Task)) t = some task := h
  obtain ⟨ht, htask⟩ | ⟨-, hnone⟩ := update_some_cases hupdate
  · exact ⟨ht, (Option.some.inj htask).symm⟩
  · exact nomatch hnone

/-- At the start nobody owns a context. -/
private theorem s31RtosInit_context (x : Slot) : s31RtosInit.context x = none := by
  cases x with
  | queue a => rfl
  | group a => rfl
  | notify t | suspend t =>
    cases h : s31RtosInit.tasks t with
    | none => simp only [Shim.context, h, Option.bind_none]
    | some task =>
      obtain ⟨-, rfl⟩ := s31RtosInit_tasks h
      simp only [Shim.context, h, Option.bind_some]

/-- The invariant holds at the start. -/
private theorem s31RtosInit_inv : s31RtosInit.Inv where
  owned :=
    { mem := fun x _ hx => nomatch (s31RtosInit_context x).symm.trans hx
      inj := fun x _ _ hx _ => nomatch (s31RtosInit_context x).symm.trans hx
      nodup := List.nodup_nil }
  groups := nofun
  tasks _ _ h hne := absurd (s31RtosInit_tasks h).1 hne
  foreign := ⟨{}, rfl, rfl, rfl⟩

/-- A context that an object holds may be used. -/
theorem Shim.Inv.valid {s : Shim} (hinv : s.Inv) {x : Slot} {ctx : Option BridgeHandle}
    (hx : s.context x = ctx) (hsome : ctx.isSome) (fn : SyncFn) : (s.use fn ctx).Valid := by
  obtain ⟨h, rfl⟩ := Option.isSome_iff_exists.mp hsome
  refine ⟨rfl, ?_⟩
  simpa using hinv.owned.mem x h hx

/-- NULL may not. -/
private theorem not_valid_none (s : Shim) (fn : SyncFn) : ¬ (s.use fn none).Valid :=
  fun h => nomatch h.1

/-! ## Calls on objects -/

section

variable {env : CallEnv} {s : Shim}

/-- A call on a queue does nothing, or runs its section on a queue that is there. -/
private theorem queueCall_cases (env : CallEnv) (s : Shim) (q : Option Nat)
    (f : S31Queue → Ret ⊕ SyncCall (Option BridgeHandle) S31Queue Ret TickType) :
    queueCall env q f s = (s, []) ∨
      ∃ a queue c, s.queues a = some queue ∧ f queue = .inr c ∧
        queueCall env q f s = ({ s with
          queues := Function.update s.queues a (some (s.runCall env c queue).1) },
          (s.runCall env c queue).2) := by
  unfold queueCall
  cases q with
  | none => exact .inl rfl
  | some a =>
    cases hq : s.queues a with
    | none => simp [hq]
    | some queue =>
      cases hf : f queue with
      | inl ret => simp [hq, hf]
      | inr c => exact .inr ⟨a, queue, c, hq, hf, by simp [hq, hf]⟩

/-- A call on an event group does nothing, or runs its section on a group that is there. -/
private theorem groupCall_cases (env : CallEnv) (s : Shim) (g : Option Nat)
    (f : S31EventGroup → Ret ⊕ SyncCall (Option BridgeHandle) S31EventGroup Ret TickType) :
    groupCall env g f s = (s, []) ∨
      ∃ a group c, s.groups a = some group ∧ f group = .inr c ∧
        groupCall env g f s = ({ s with
          groups := Function.update s.groups a (some (s.runCall env c group).1) },
          (s.runCall env c group).2) := by
  unfold groupCall
  cases g with
  | none => exact .inl rfl
  | some a =>
    cases hg : s.groups a with
    | none => simp [hg]
    | some group =>
      cases hf : f group with
      | inl ret => simp [hg, hf]
      | inr c => exact .inr ⟨a, group, c, hg, hf, by simp [hg, hf]⟩

/-- A call on a task does nothing, or runs its section on a task that is there. -/
private theorem taskCall_cases (env : CallEnv) (s : Shim) (t : Option TaskHandle)
    (f : Option BridgeHandle → S31Tcb → Ret ⊕ SyncCall (Option BridgeHandle) S31Tcb Ret TickType) :
    taskCall env t f s = (s, []) ∨
      ∃ a task c, s.tasks a = some task ∧
        taskCall env t f s = ({ s with
          tasks := Function.update s.tasks a
            (some { task with tcb := (s.runCall env c task.tcb).1 }) },
          (s.runCall env c task.tcb).2) := by
  unfold taskCall
  cases t with
  | none => exact .inl rfl
  | some a =>
    cases ht : s.tasks a with
    | none => simp [ht]
    | some task =>
      cases hf : f task.notifyContext task.tcb with
      | inl ret => simp [ht, hf]
      | inr c => exact .inr ⟨a, task, c, ht, by simp [ht, hf]⟩

/-! ## Replacing one object -/

/-- Replacing a queue changes the context of its slot only. -/
private theorem context_queue (a : Nat) (queue : Option S31Queue) (live : List BridgeHandle) :
    ({ s with queues := Function.update s.queues a queue, contexts := live } : Shim).context =
      Function.update s.context (.queue a) (queue.bind fun q => q.waitContext) := by
  funext x
  cases x with
  | queue b => by_cases hb : b = a <;> simp [Shim.context, Function.update, hb]
  | _ => simp [Shim.context]

/-- Replacing an event group changes the context of its slot only. -/
private theorem context_group (a : Nat) (group : Option S31EventGroup) (live : List BridgeHandle) :
    ({ s with groups := Function.update s.groups a group, contexts := live } : Shim).context =
      Function.update s.context (.group a) (group.bind fun g => g.waitContext) := by
  funext x
  cases x with
  | group b => by_cases hb : b = a <;> simp [Shim.context, Function.update, hb]
  | _ => simp [Shim.context]

/-- Replacing a task changes the contexts of its two slots only. -/
private theorem context_task (t : TaskHandle) (task : Option Task) (live : List BridgeHandle) :
    ({ s with tasks := Function.update s.tasks t task, contexts := live } : Shim).context =
      Function.update (Function.update s.context (.notify t) (task.bind fun t => t.notifyContext))
        (.suspend t) (task.bind fun t => t.suspendContext) := by
  funext x
  cases x with
  | notify b | suspend b => by_cases hb : b = t <;> simp [Shim.context, Function.update, hb]
  | _ => simp [Shim.context]

/-- A queue is replaced: it is the contexts that count. -/
theorem Shim.Inv.withQueue (hinv : s.Inv) (live : List BridgeHandle) {a : Nat}
    {queue : Option S31Queue}
    (ho : Owned (Function.update s.context (.queue a) (queue.bind fun q => q.waitContext)) live) :
    Shim.Inv { s with queues := Function.update s.queues a queue, contexts := live } where
  owned := by
    rw [context_queue]
    exact ho
  groups := hinv.groups
  tasks := hinv.tasks
  foreign := hinv.foreign

/-- An event group can be replaced when its slot owns what it has. -/
theorem Shim.Inv.withGroup (hinv : s.Inv) (live : List BridgeHandle) {a : Nat}
    {group : Option S31EventGroup}
    (ho : Owned (Function.update s.context (.group a) (group.bind fun g => g.waitContext)) live)
    (hgroup : ∀ g, group = some g → g.waitContext.isSome) :
    Shim.Inv { s with groups := Function.update s.groups a group, contexts := live } where
  owned := by
    rw [context_group]
    exact ho
  groups b g hb := by
    obtain ⟨-, hnew⟩ | ⟨-, hold⟩ := update_some_cases hb
    · exact hgroup g hnew
    · exact hinv.groups b g hold
  tasks := hinv.tasks
  foreign := hinv.foreign

/-- A task other than the foreign one is replaced. -/
theorem Shim.Inv.withTask (hinv : s.Inv) {t : TaskHandle} (hne : t ≠ foreignTcb)
    {task : Option Task} {live : List BridgeHandle}
    (ho : Owned (Function.update
      (Function.update s.context (.notify t) (task.bind fun t => t.notifyContext))
      (.suspend t) (task.bind fun t => t.suspendContext)) live)
    (htask : ∀ u, task = some u → u.notifyContext.isSome ∧ u.suspendContext.isSome) :
    Shim.Inv { s with tasks := Function.update s.tasks t task, contexts := live } where
  owned := by
    rw [context_task]
    exact ho
  groups := hinv.groups
  tasks u task' hu hforeign := by
    obtain ⟨-, hnew⟩ | ⟨-, hold⟩ := update_some_cases hu
    · exact htask task' hnew
    · exact hinv.tasks u task' hold hforeign
  foreign := by
    obtain ⟨foreign, hforeign, hnone⟩ := hinv.foreign
    exact ⟨foreign, (Function.update_of_ne hne.symm ..).trans hforeign, hnone⟩

/-- The notification of a task changes and its contexts stay. -/
theorem Shim.Inv.setTcb (hinv : s.Inv) {t : TaskHandle} {task : Task} (ht : s.tasks t = some task)
    (tcb : S31Tcb) :
    Shim.Inv { s with tasks := Function.update s.tasks t (some { task with tcb := tcb }) } := by
  -- the contexts of a task are not in its control block
  have hcontext : Shim.context { s with
      tasks := Function.update s.tasks t (some { task with tcb := tcb }) } = s.context := by
    funext x
    cases x with
    | notify b | suspend b =>
      by_cases hb : b = t
      · subst hb
        simp [Shim.context, ht]
      · simp [Shim.context, Function.update, hb]
    | _ => rfl
  refine ⟨?_, hinv.groups, fun u task' hu hne => ?_, ?_⟩
  · rw [hcontext]
    exact hinv.owned
  · obtain ⟨rfl, hnew⟩ | ⟨-, hold⟩ := update_some_cases hu
    · obtain rfl := Option.some.inj hnew
      exact hinv.tasks u task ht hne
    · exact hinv.tasks u task' hold hne
  -- the foreign task, which may be this one, still has no contexts
  · obtain ⟨foreign, hforeign, hnotify, hsuspend⟩ := hinv.foreign
    by_cases htf : foreignTcb = t
    · subst htf
      obtain rfl := Option.some.inj (hforeign.symm.trans ht)
      exact ⟨{ foreign with tcb := tcb }, by simp, hnotify, hsuspend⟩
    · exact ⟨foreign, (Function.update_of_ne htf ..).trans hforeign, hnotify, hsuspend⟩

/-! ## Entry points on objects -/

/-- The uses of a call are of its context. -/
private theorem valid_runCall {σ : Type} {c : SyncCall (Option BridgeHandle) σ Ret TickType}
    {obj : σ}
    (hvalid : ∀ fn, (s.use fn c.ctx).Valid) : ∀ u ∈ (s.runCall env c obj).2, u.Valid := by
  intro u hu
  obtain ⟨fn, -, rfl⟩ := List.mem_map.mp hu
  exact hvalid fn

/-- A call on a queue keeps the invariant and uses contexts that live. -/
private theorem queueCall_keeps (hinv : s.Inv) (q : Option Nat)
    {f : S31Queue → Ret ⊕ SyncCall (Option BridgeHandle) S31Queue Ret TickType}
    (hf : QueueSafe f) :
    (queueCall env q f s).1.Inv ∧ ∀ u ∈ (queueCall env q f s).2, u.Valid := by
  obtain heq | ⟨a, queue, c, hq, hc, heq⟩ := queueCall_cases env s q f
  · rw [heq]
    exact ⟨hinv, nofun⟩
  · rw [heq]
    obtain ⟨hsome, hctx, hkeeps⟩ := hf queue c hc
    have hslot : s.context (.queue a) = queue.waitContext := by
      rw [Shim.context, hq]
      rfl
    -- however often the section runs, the queue keeps its context
    have hsame : (s.runCall env c queue).1.waitContext = queue.waitContext :=
      SyncCall.alone_keeps (P := fun q => q.waitContext = queue.waitContext)
        (fun q h => (hkeeps.body q).trans h) (fun late f q hf h => (hkeeps.closing late f q hf).trans h)
        env.woken rfl
    refine ⟨hinv.withQueue _ ?_, valid_runCall fun fn => hinv.valid (x := .queue a) ?_ ?_ fn⟩
    · rw [Option.bind_some, hsame, ← hslot, Function.update_eq_self]
      exact hinv.owned
    · rw [hslot, hctx]
    · rw [hctx]
      exact hsome

/-- A call on an event group keeps the invariant and uses contexts that live. -/
private theorem groupCall_keeps (hinv : s.Inv) (g : Option Nat)
    {f : S31EventGroup → Ret ⊕ SyncCall (Option BridgeHandle) S31EventGroup Ret TickType}
    (hf : GroupSafe f) :
    (groupCall env g f s).1.Inv ∧ ∀ u ∈ (groupCall env g f s).2, u.Valid := by
  obtain heq | ⟨a, group, c, hg, hc, heq⟩ := groupCall_cases env s g f
  -- no section is run, and nothing is used
  · rw [heq]
    exact ⟨hinv, nofun⟩
  · rw [heq]
    obtain ⟨hctx, hbody, hclosing⟩ := hf group c hc
    have hsome := hinv.groups a group hg
    have hslot : s.context (.group a) = group.waitContext := by
      rw [Shim.context, hg]
      rfl
    -- however often the section runs, the group keeps its context
    have hsame : (s.runCall env c group).1.waitContext = group.waitContext :=
      SyncCall.alone_keeps (P := fun g => g.waitContext = group.waitContext)
        (fun g h => (hbody g).trans h) (fun late f g hf h => (hclosing late f g hf).trans h)
        env.woken rfl
    refine ⟨hinv.withGroup _ ?_ fun g hg => ?_,
      valid_runCall fun fn => hinv.valid (x := .group a) ?_ ?_ fn⟩
    · rw [Option.bind_some, hsame, ← hslot, Function.update_eq_self]
      exact hinv.owned
    · obtain rfl := Option.some.inj hg
      rw [hsame]
      exact hsome
    · rw [hslot, hctx]
    · rw [hctx]
      exact hsome

/-- A call on a task keeps the invariant. -/
private theorem taskCall_inv (hinv : s.Inv) (t : Option TaskHandle)
    (f : Option BridgeHandle → S31Tcb → Ret ⊕ SyncCall (Option BridgeHandle) S31Tcb Ret TickType) :
    (taskCall env t f s).1.Inv := by
  obtain heq | ⟨a, task, c, ht, heq⟩ := taskCall_cases env s t f
  · rw [heq]
    exact hinv
  · rw [heq]
    exact hinv.setTcb ht _

/-- The notification of a task may be used unless it is the foreign task. -/
private theorem taskCall_valid_iff (hinv : s.Inv) {t : TaskHandle} (hlive : (s.tasks t).isSome)
    (index : UInt32)
    {f : Option BridgeHandle → S31Tcb → Ret ⊕ SyncCall (Option BridgeHandle) S31Tcb Ret TickType}
    (hout : index ≠ 0 → ∀ ctx tcb, ∃ ret, f ctx tcb = .inl ret)
    (hin : index = 0 → ∀ ctx tcb, ∃ c, f ctx tcb = .inr c ∧ c.ctx = ctx) :
    (∀ u ∈ (taskCall env (some t) f s).2, u.Valid) ↔ (index = 0 → t ≠ foreignTcb) := by
  obtain ⟨task, ht⟩ := Option.isSome_iff_exists.mp hlive
  by_cases hindex : index = 0
  · obtain ⟨c, hc, hctx⟩ := hin hindex task.notifyContext task.tcb
    have huses : (taskCall env (some t) f s).2 = (s.runCall env c task.tcb).2 := by
      simp [taskCall, ht, hc]
    rw [huses]
    constructor
    · intro hvalid _ hforeign
      obtain ⟨task', ht', hnone, -⟩ := hinv.foreign
      obtain rfl := Option.some.inj (ht.symm.trans (hforeign ▸ ht'))
      -- every call locks, and the foreign task has nothing to lock
      have hlock := hvalid _ (List.mem_map_of_mem (SyncCall.lock_mem_alone env.woken task.tcb))
      rw [hctx, hnone] at hlock
      exact not_valid_none s _ hlock
    · intro hne
      refine valid_runCall fun fn => hinv.valid (x := .notify t) ?_ ?_ fn
      · rw [Shim.context, ht, hctx]
        rfl
      · rw [hctx]
        exact (hinv.tasks t task ht (hne hindex)).1
  -- another index is refused before anything is used
  · obtain ⟨ret, hret⟩ := hout hindex task.notifyContext task.tcb
    simp [taskCall, ht, hret, hindex]

/-! ## Creators and deleters -/

/-- What `s31_linux_sync_create` answers is none of the live contexts. -/
def Shim.Fresh (s : Shim) (ctx : Option BridgeHandle) : Prop :=
  ∀ h, ctx = some h → h ∉ s.contexts

/-- A queue that is made owns its new context. -/
private theorem putQueue_inv (hinv : s.Inv) {ctx : Option BridgeHandle} (hfresh : s.Fresh ctx)
    (block : Option Nat) {made : Option S31Queue}
    (hmade : ∀ q, made = some q → q.waitContext = ctx) : (s.putQueue block ctx made).Inv := by
  unfold Shim.putQueue
  split
  · next a queue =>
    refine hinv.withQueue (ctx.toList ++ s.contexts) ?_
    rw [Option.bind_some, hmade queue rfl]
    exact hinv.owned.put hfresh
  · exact hinv

/-- A queue made in the caller's memory owns its new context. -/
private theorem putStaticQueue_inv (hinv : s.Inv) {ctx : Option BridgeHandle} (hfresh : s.Fresh ctx)
    (queue : Option Nat) (len itemSize : UInt32) (storage : Bool) (type : UInt8) :
    (s.putStaticQueue queue ctx len itemSize storage type).Inv := by
  unfold Shim.putStaticQueue
  split
  · exact hinv
  · split
    · exact hinv
    · exact hinv.withQueue (ctx.toList ++ s.contexts) (hinv.owned.put hfresh)

/-- A queue has the context it was made with. -/
private theorem genericCreate_waitContext {malloc : UInt32 → Option Buf} {ctx : Option BridgeHandle}
    {len itemSize : UInt32} {type : UInt8} (q : S31Queue)
    (h : xQueueGenericCreate malloc ctx len itemSize type = some q) : q.waitContext = ctx := by
  unfold xQueueGenericCreate at h
  split at h
  · exact nomatch h
  · obtain ⟨storage, -, h⟩ := Option.bind_eq_some_iff.mp h
    dsimp only at h
    split at h
    · obtain rfl := Option.some.inj h
      rfl
    · exact nomatch h

/-- A mutex has the context it was made with. -/
private theorem createMutex_waitContext {malloc : UInt32 → Option Buf} {ctx : Option BridgeHandle}
    {type : UInt8} (q : S31Queue) (h : xQueueCreateMutex malloc ctx type = some q) :
    q.waitContext = ctx := by
  obtain ⟨storage, -, h⟩ := Option.bind_eq_some_iff.mp h
  dsimp only at h
  split at h
  · obtain rfl := Option.some.inj h
    rfl
  · exact nomatch h

/-- A semaphore has the context it was made with. -/
private theorem createCountingSemaphore_waitContext {malloc : UInt32 → Option Buf}
    {ctx : Option BridgeHandle} {max initial : UInt32} (q : S31Queue)
    (h : xQueueCreateCountingSemaphore malloc ctx max initial = some q) : q.waitContext = ctx := by
  unfold xQueueCreateCountingSemaphore at h
  split at h
  · exact nomatch h
  · obtain ⟨storage, -, h⟩ := Option.bind_eq_some_iff.mp h
    dsimp only at h
    split at h
    · obtain rfl := Option.some.inj h
      rfl
    · exact nomatch h

/-- An event group that is made owns its new context. -/
private theorem putGroup_inv (hinv : s.Inv) {ctx : Option BridgeHandle} (hfresh : s.Fresh ctx)
    (a : Nat)
    {group : S31EventGroup} (hmade : xEventGroupCreate true ctx = some group) :
    Shim.Inv { s.create ctx with groups := Function.update s.groups a (some group) } := by
  unfold xEventGroupCreate at hmade
  split at hmade
  · next hsome =>
    obtain rfl := Option.some.inj hmade
    refine hinv.withGroup (ctx.toList ++ s.contexts) (hinv.owned.put hfresh) fun g hg => ?_
    obtain rfl := Option.some.inj hg
    exact hsome.2
  · exact nomatch hmade

/-- Deleting a queue keeps the invariant. -/
private theorem vQueueDelete_inv (hinv : s.Inv) (q : Option Nat) : (vQueueDelete q s).1.Inv := by
  unfold vQueueDelete
  split
  · exact hinv
  · next a queue heq =>
    obtain ⟨b, hb, hq⟩ := Option.bind_eq_some_iff.mp heq
    obtain ⟨queue', hqueue, hpair⟩ := Option.map_eq_some_iff.mp hq
    obtain ⟨rfl, rfl⟩ := Prod.mk.inj hpair
    have hslot : s.context (.queue b) = queue'.waitContext := by
      rw [Shim.context, hqueue]
      rfl
    -- a queue in the caller's memory stays there, without a context
    have hleft : ((if queue'.isStatic then some { queue' with waitContext := none } else none).bind
        fun q => q.waitContext) = none := by
      split <;> rfl
    refine hinv.withQueue _ ?_
    rw [hleft]
    cases hctx : queue'.waitContext with
    | none =>
      have hsame : Function.update s.context (.queue b) none = s.context := by
        rw [← hctx, ← hslot, Function.update_eq_self]
      rw [hsame]
      exact hinv.owned
    | some h => exact hinv.owned.release (hslot.trans hctx)

/-- It destroys the context it finds, if it finds one. -/
private theorem vQueueDelete_valid_iff (hinv : s.Inv) (q : Option Nat) :
    (∀ u ∈ (vQueueDelete q s).2, u.Valid) ↔
      ∀ a queue, q = some a → s.queues a = some queue → queue.waitContext.isSome := by
  cases q with
  | none => simp [vQueueDelete]
  | some a =>
    cases hq : s.queues a with
    -- nothing is there, so nothing is destroyed
    | none =>
      have huses : (vQueueDelete (some a) s).2 = [] := by simp [vQueueDelete, hq]
      rw [huses]
      refine iff_of_true nofun fun b queue hb hqueue => ?_
      obtain rfl := Option.some.inj hb
      exact nomatch hq.symm.trans hqueue
    | some queue =>
      -- a queue that is deleted twice destroys a null context
      have huses : (vQueueDelete (some a) s).2 = [s.use .destroy queue.waitContext] := by
        simp [vQueueDelete, hq, Shim.destroy]
      rw [huses]
      constructor
      · intro hvalid b queue' hb hqueue
        obtain rfl := Option.some.inj hb
        obtain rfl := Option.some.inj (hq.symm.trans hqueue)
        exact (hvalid _ (List.mem_singleton.mpr rfl)).1
      · intro hsome u hu
        obtain rfl := List.mem_singleton.mp hu
        refine hinv.valid (x := .queue a) ?_ (hsome a queue rfl hq) _
        rw [Shim.context, hq]
        rfl

/-- Deleting an event group keeps the invariant and destroys a context that lives. -/
private theorem vEventGroupDelete_keeps (hinv : s.Inv) (g : Option Nat) :
    (vEventGroupDelete g s).1.Inv ∧ ∀ u ∈ (vEventGroupDelete g s).2, u.Valid := by
  cases g with
  | none => exact ⟨hinv, nofun⟩
  | some a =>
    cases hg : s.groups a with
    | none =>
      have heq : vEventGroupDelete (some a) s = (s, []) := by simp [vEventGroupDelete, hg]
      rw [heq]
      exact ⟨hinv, nofun⟩
    | some group =>
      obtain ⟨h, hctx⟩ := Option.isSome_iff_exists.mp (hinv.groups a group hg)
      have hslot : s.context (.group a) = some h := by
        rw [Shim.context, hg]
        exact hctx
      have heq : vEventGroupDelete (some a) s =
          ({ s with groups := Function.update s.groups a none, contexts := s.contexts.erase h },
            [s.use .destroy (some h)]) := by
        simp [vEventGroupDelete, hg, Shim.destroy, hctx]
      rw [heq]
      refine ⟨hinv.withGroup _ (hinv.owned.release hslot) nofun, fun u hu => ?_⟩
      obtain rfl := List.mem_singleton.mp hu
      exact hinv.valid hslot rfl _

/-- The contexts of a task that could not be made are destroyed again. -/
private theorem destroyIf_destroyIf {notify suspend : Option BridgeHandle} (hn : s.Fresh notify)
    (hs : s.Fresh suspend) (hne : ∀ h, notify = some h → suspend ≠ some h) :
    let s' := (s.create notify).create suspend
    let r := s'.destroyIf notify
    (r.1.destroyIf suspend).1 = s ∧ ∀ u ∈ r.2 ++ (r.1.destroyIf suspend).2, u.Valid := by
  cases notify with
  | none =>
    cases suspend with
    | none => exact ⟨rfl, nofun⟩
    | some k => simp [Shim.create, Shim.destroyIf, Shim.destroy, Shim.use, Use.Valid]
  | some h =>
    cases suspend with
    | none => simp [Shim.create, Shim.destroyIf, Shim.destroy, Shim.use, Use.Valid]
    | some k =>
      -- the two contexts are different, so both live until they are destroyed
      have hkh : k ≠ h := fun heq => hne h rfl (heq ▸ rfl)
      simp [Shim.create, Shim.destroyIf, Shim.destroy, Shim.use, Use.Valid, hkh]

/-- Creating a task keeps the invariant, also when it fails halfway. -/
private theorem xTaskCreatePinnedToCore_keeps (hinv : s.Inv) (valid : Bool)
    (block : Option TaskHandle)
    (hblock : ∀ t, block = some t → s.tasks t = none) {notify suspend : Option BridgeHandle}
    (hn : s.Fresh notify) (hs : s.Fresh suspend) (hne : ∀ h, notify = some h → suspend ≠ some h)
    (stack linuxTask : Bool) :
    let r := xTaskCreatePinnedToCore valid block notify suspend stack linuxTask s
    r.1.Inv ∧ ∀ u ∈ r.2, u.Valid := by
  unfold xTaskCreatePinnedToCore
  split
  · exact ⟨hinv, nofun⟩
  · next t =>
    split
    · exact ⟨hinv, nofun⟩
    · dsimp only
      split
      -- what was created is destroyed again
      · obtain ⟨hstate, huses⟩ := destroyIf_destroyIf hn hs hne
        rw [hstate]
        exact ⟨hinv, huses⟩
      · next hmade =>
        have hn' : notify.isSome := by
          cases notify with
          | none => exact absurd (.inl rfl) hmade
          | some h => rfl
        have hs' : suspend.isSome := by
          cases suspend with
          | none => exact absurd (.inr (.inl rfl)) hmade
          | some h => rfl
        -- the block of foreign threads is never given out again
        have hforeign : t ≠ foreignTcb := by
          rintro rfl
          obtain ⟨task, htask, -⟩ := hinv.foreign
          exact nomatch (hblock _ rfl).symm.trans htask
        refine ⟨hinv.withTask hforeign ?_ fun u hu => ?_, nofun⟩
        · refine (hinv.owned.put hn).put fun h hh hmem => ?_
          obtain hmem | hmem := List.mem_append.mp hmem
          · exact hne h (Option.mem_toList.mp hmem) hh
          · exact hs h hh hmem
        · obtain rfl := Option.some.inj hu
          exact ⟨hn', hs'⟩

/-- A released task destroys both of its contexts. -/
private theorem s31RtosTaskRelease_keeps (hinv : s.Inv) {t : TaskHandle} (hne : t ≠ foreignTcb) :
    (s31RtosTaskRelease (some t) s).1.Inv ∧
      ∀ u ∈ (s31RtosTaskRelease (some t) s).2, u.Valid := by
  cases ht : s.tasks t with
  | none =>
    have heq : s31RtosTaskRelease (some t) s = (s, []) := by simp [s31RtosTaskRelease, ht]
    rw [heq]
    exact ⟨hinv, nofun⟩
  | some task =>
    obtain ⟨hnotify, hsuspend⟩ := hinv.tasks t task ht hne
    obtain ⟨n, hn⟩ := Option.isSome_iff_exists.mp hnotify
    obtain ⟨k, hk⟩ := Option.isSome_iff_exists.mp hsuspend
    have hslotn : s.context (.notify t) = some n := by
      rw [Shim.context, ht]
      exact hn
    have hslotk : s.context (.suspend t) = some k := by
      rw [Shim.context, ht]
      exact hk
    -- the two contexts of a task differ, so each is destroyed once
    have hkn : k ≠ n := by
      intro heq
      have hslots : Slot.notify t = .suspend t := hinv.owned.inj _ _ n hslotn (heq ▸ hslotk)
      exact nomatch hslots
    have heq : s31RtosTaskRelease (some t) s =
        ({ s with tasks := Function.update s.tasks t none,
                  contexts := (s.contexts.erase n).erase k },
          [s.use .destroy (some n),
            Shim.use { s with contexts := s.contexts.erase n } .destroy (some k)]) := by
      simp [s31RtosTaskRelease, ht, Shim.destroyIf, Shim.destroy, hn, hk]
    rw [heq]
    -- the second context is still owned when the first is gone
    have hreleased := hinv.owned.release hslotn
    have hslotk' : Function.update s.context (.notify t) none (.suspend t) = some k := hslotk
    refine ⟨hinv.withTask hne (hreleased.release hslotk') nofun, fun u hu => ?_⟩
    obtain rfl | hu := List.mem_cons.mp hu
    · exact hinv.valid hslotn rfl _
    · obtain rfl := List.mem_singleton.mp hu
      refine ⟨rfl, ?_⟩
      simpa using hreleased.mem _ _ hslotk'

/-- Suspending changes nothing of the state. -/
private theorem vTaskSuspend_state (th : Thread) (task : Option TaskHandle) :
    (vTaskSuspend th task s).1 = s := by
  unfold vTaskSuspend
  dsimp only
  split
  · rfl
  · split <;> rfl

/-- Suspending uses a context that lives, except for the foreign task. -/
private theorem vTaskSuspend_valid_iff (hinv : s.Inv) {th : Thread}
    (hlive : (s.tasks th.task).isSome)
    (task : Option TaskHandle) :
    (∀ u ∈ (vTaskSuspend th task s).2, u.Valid) ↔
      (task.getD th.task = th.task → th.task ≠ foreignTcb) := by
  by_cases hcur : task.getD th.task = th.task
  · obtain ⟨t, ht⟩ := Option.isSome_iff_exists.mp hlive
    have huses : (vTaskSuspend th task s).2 =
        [s.use .sequence t.suspendContext, s.use .wait t.suspendContext] := by
      simp [vTaskSuspend, hcur, ht]
    rw [huses]
    constructor
    · intro hvalid _ hforeign
      obtain ⟨t', ht', -, hnone⟩ := hinv.foreign
      obtain rfl := Option.some.inj (ht.symm.trans (hforeign ▸ ht'))
      -- the foreign task has no context to wait on
      have hwait := hvalid _ (List.mem_cons_self ..)
      rw [hnone] at hwait
      exact not_valid_none s _ hwait
    · intro hne u hu
      have hsome := (hinv.tasks th.task t ht (hne hcur)).2
      have hslot : s.context (.suspend th.task) = t.suspendContext := by
        rw [Shim.context, ht]
        rfl
      simp only [List.mem_cons, List.not_mem_nil, or_false] at hu
      obtain rfl | rfl := hu
      · exact hinv.valid hslot hsome _
      · exact hinv.valid hslot hsome _
  -- another task is only marked
  · simp [vTaskSuspend, hcur]

end

/-! ## Runs -/

/-- A queue argument is null or a queue that is there. -/
def Shim.QueueArg (s : Shim) (q : Option Nat) : Prop := ∀ a, q = some a → (s.queues a).isSome

/-- A group argument is null or a group that is there. -/
def Shim.GroupArg (s : Shim) (g : Option Nat) : Prop := ∀ a, g = some a → (s.groups a).isSome

/-- A task argument is null or a task that is there. -/
def Shim.TaskArg (s : Shim) (t : Option TaskHandle) : Prop := ∀ a, t = some a → (s.tasks a).isSome

/-- The calls that can be made: a pointer is NULL or to an object, static queues that
    were deleted included; a new block is none of the objects and a new context none of
    the live ones; only created tasks end. -/
def ShimCall.Admissible (s : Shim) : ShimCall → Prop
  | .xQueueGenericCreate block ctx _ _ _ => (∀ a, block = some a → s.queues a = none) ∧ s.Fresh ctx
  | .xQueueGenericCreateStatic _ ctx _ _ _ _ => s.Fresh ctx
  | .xQueueCreateMutex block ctx _ => (∀ a, block = some a → s.queues a = none) ∧ s.Fresh ctx
  | .xQueueCreateCountingSemaphore block ctx _ _ =>
    (∀ a, block = some a → s.queues a = none) ∧ s.Fresh ctx
  | .vQueueDelete q | .xQueueGenericSend q _ _ _ | .xQueueGenericSendFromISR q _ _ _
  | .xQueueGiveFromISR q _ | .xQueueReceive q _ _ | .xQueueReceiveFromISR q _ _
  | .xQueueSemaphoreTake q _ | .xQueueTakeMutexRecursive q _ | .xQueueGiveMutexRecursive q
  | .xQueueGetMutexHolder q | .uxQueueMessagesWaiting q | .xQueueGenericReset q _ => s.QueueArg q
  | .xEventGroupCreate block ctx => (∀ a, block = some a → s.groups a = none) ∧ s.Fresh ctx
  | .vEventGroupDelete g | .xEventGroupSetBits g _ | .xEventGroupClearBits g _
  | .xEventGroupWaitBits g _ _ _ _ => s.GroupArg g
  -- the bridge hands out contexts that nobody has
  | .xTaskCreatePinnedToCore _ block notify suspend _ _ =>
    (∀ t, block = some t → s.tasks t = none) ∧ s.Fresh notify ∧ s.Fresh suspend ∧
      ∀ h, notify = some h → suspend ≠ some h
  | .s31RtosTaskRelease t => s.TaskArg t ∧ t ≠ some foreignTcb
  | .vTaskDelete t | .xTaskGenericNotify t _ _ _ _ | .vTaskGenericNotifyGiveFromISR t _
  | .vTaskSuspend t => s.TaskArg t
  | .ulTaskGenericNotifyTake _ _ _ | .xTaskGenericNotifyWait _ _ _ _ _ | .vTaskDelay _ => True

/-- The calls that use a context which is there: the deleted queue still has its own,
    and no notification or suspension is of the foreign task. -/
def ShimCall.HasContext (th : Thread) (s : Shim) : ShimCall → Prop
  | .vQueueDelete q => ∀ a queue, q = some a → s.queues a = some queue → queue.waitContext.isSome
  | .xTaskGenericNotify t index _ _ _ | .vTaskGenericNotifyGiveFromISR t index =>
    index = 0 → t ≠ some foreignTcb
  | .ulTaskGenericNotifyTake index _ _ | .xTaskGenericNotifyWait index _ _ _ _ =>
    index = 0 → th.task ≠ foreignTcb
  | .vTaskSuspend task => task.getD th.task = th.task → th.task ≠ foreignTcb
  | _ => True

section

variable {th : Thread} {env : CallEnv} {s : Shim}

/-- Notifying uses a context that lives, except for the foreign task. -/
private theorem notify_valid_iff (hinv : s.Inv) {t : Option TaskHandle} (hlive : s.TaskArg t)
    (index value : UInt32) (action : Int) (previous : Bool) :
    (∀ u ∈ (taskCall env t (fun ctx =>
      xTaskGenericNotify ctx index value action previous) s).2, u.Valid) ↔
        (index = 0 → t ≠ some foreignTcb) := by
  cases t with
  | none => simp [taskCall]
  | some a =>
    rw [taskCall_valid_iff hinv (hlive a rfl) index]
    · simp
    · intro hindex ctx tcb
      exact ⟨_, if_pos hindex⟩
    · intro hindex ctx tcb
      exact ⟨_, if_neg (not_not.mpr hindex), rfl⟩

/-- One call keeps the invariant, and the bridge gets live contexts from it exactly
    when it has them. -/
theorem perform_keeps (env : CallEnv) (hinv : s.Inv) (hcur : (s.tasks th.task).isSome)
    (c : ShimCall) (hadm : c.Admissible s) :
    (perform th env s c).1.Inv ∧
      ((∀ u ∈ (perform th env s c).2, u.Valid) ↔ c.HasContext th s) := by
  -- calls that are safe in every state
  have safe : ∀ {r : Shim × List Use}, (r.1.Inv ∧ ∀ u ∈ r.2, u.Valid) →
      r.1.Inv ∧ ((∀ u ∈ r.2, u.Valid) ↔ True) := fun h => ⟨h.1, iff_true_intro h.2⟩
  cases c with
  | xQueueGenericCreate block ctx len itemSize type =>
    exact safe ⟨putQueue_inv hinv hadm.2 block genericCreate_waitContext, nofun⟩
  | xQueueGenericCreateStatic queue ctx len itemSize storage type =>
    exact safe ⟨putStaticQueue_inv hinv hadm queue len itemSize storage type, nofun⟩
  | xQueueCreateMutex block ctx type =>
    exact safe ⟨putQueue_inv hinv hadm.2 block createMutex_waitContext, nofun⟩
  | xQueueCreateCountingSemaphore block ctx max initial =>
    exact safe ⟨putQueue_inv hinv hadm.2 block createCountingSemaphore_waitContext, nofun⟩
  -- the caller must not delete a queue twice
  | vQueueDelete q => exact ⟨vQueueDelete_inv hinv q, vQueueDelete_valid_iff hinv q⟩
  | xQueueGenericSend q item timeout copy =>
    exact safe (queueCall_keeps hinv q (queueSafe_send th item timeout copy))
  | xQueueGenericSendFromISR q item woken copy =>
    exact safe (queueCall_keeps hinv q (queueSafe_sendFromISR th item woken copy))
  | xQueueGiveFromISR q woken =>
    exact safe (queueCall_keeps hinv q (queueSafe_sendFromISR th none woken s31QueueSendToBack))
  | xQueueReceive q item timeout =>
    exact safe (queueCall_keeps hinv q (queueSafe_receive th item timeout))
  | xQueueReceiveFromISR q item woken =>
    exact safe (queueCall_keeps hinv q (queueSafe_receiveFromISR item woken))
  | xQueueSemaphoreTake q timeout =>
    exact safe (queueCall_keeps hinv q (queueSafe_semaphoreTake th timeout))
  | xQueueTakeMutexRecursive q timeout =>
    exact safe (queueCall_keeps hinv q (queueSafe_semaphoreTake th timeout))
  | xQueueGiveMutexRecursive q =>
    exact safe (queueCall_keeps hinv q (queueSafe_guarded (fun _ h => h.1)
      fun q => (giveMutexRecursiveSection_same th.task q).context))
  | xQueueGetMutexHolder q =>
    exact safe (queueCall_keeps hinv q (queueSafe_guarded (fun _ h => h.1) fun _ => rfl))
  | uxQueueMessagesWaiting q =>
    exact safe (queueCall_keeps hinv q (queueSafe_guarded (fun _ h => h) fun _ => rfl))
  | xQueueGenericReset q newQueue =>
    exact safe (queueCall_keeps hinv q (queueSafe_guarded (fun _ h => h) fun _ => rfl))
  | xEventGroupCreate block ctx =>
    refine safe (r := perform th env s (.xEventGroupCreate block ctx)) ?_
    unfold perform
    dsimp only
    split
    · next a group hmade => exact ⟨putGroup_inv hinv hadm.2 a hmade, nofun⟩
    · exact ⟨hinv, nofun⟩
  | vEventGroupDelete g => exact safe (vEventGroupDelete_keeps hinv g)
  | xEventGroupSetBits g bits =>
    exact safe (groupCall_keeps hinv g (groupSafe_guarded fun _ => rfl))
  | xEventGroupClearBits g bits =>
    exact safe (groupCall_keeps hinv g (groupSafe_guarded fun _ => rfl))
  | xEventGroupWaitBits g bits clearOnExit waitAllBits timeout =>
    exact safe (groupCall_keeps hinv g
      (groupSafe_waitBits th bits clearOnExit waitAllBits timeout))
  | xTaskCreatePinnedToCore valid block notify suspend stack linuxTask =>
    obtain ⟨hblock, hn, hs, hne⟩ := hadm
    exact safe (xTaskCreatePinnedToCore_keeps hinv valid block hblock hn hs hne stack linuxTask)
  | s31RtosTaskRelease t =>
    cases t with
    | none => exact safe ⟨hinv, nofun⟩
    | some a => exact safe (s31RtosTaskRelease_keeps hinv fun h => hadm.2 (h ▸ rfl))
  | vTaskDelete t =>
    refine safe (r := vTaskDelete th t s) ?_
    unfold vTaskDelete
    split <;> simp [hinv, Use.Valid]
  -- a notification needs a task that has a context
  | xTaskGenericNotify t index value action previous =>
    exact ⟨taskCall_inv hinv t _, notify_valid_iff hinv hadm index value action previous⟩
  | vTaskGenericNotifyGiveFromISR t index =>
    exact ⟨taskCall_inv hinv t _, notify_valid_iff hinv hadm index 0 2 false⟩
  | ulTaskGenericNotifyTake index clear timeout =>
    refine ⟨taskCall_inv hinv _ _, taskCall_valid_iff hinv hcur _ ?_ ?_⟩
    · exact fun hindex _ _ => ⟨_, if_pos hindex⟩
    · exact fun hindex _ _ => ⟨_, if_neg (not_not.mpr hindex), rfl⟩
  | xTaskGenericNotifyWait index clearEntry clearExit out timeout =>
    refine ⟨taskCall_inv hinv _ _, taskCall_valid_iff hinv hcur _ ?_ ?_⟩
    · exact fun hindex _ _ => ⟨_, if_pos hindex⟩
    · exact fun hindex _ _ => ⟨_, if_neg (not_not.mpr hindex), rfl⟩
  | vTaskDelay ticks =>
    refine safe (r := vTaskDelay th ticks s) ?_
    unfold vTaskDelay
    split
    · exact ⟨hinv, nofun⟩
    · split <;> simp [hinv, Use.Valid]
  | vTaskSuspend task =>
    refine ⟨?_, vTaskSuspend_valid_iff hinv hcur task⟩
    change (vTaskSuspend th task s).1.Inv
    rw [vTaskSuspend_state]
    exact hinv

end

/-- Calls made one after the other, each run to its end. -/
def performAll (s : Shim) : List (Thread × CallEnv × ShimCall) → Shim × List Use
  | [] => (s, [])
  | (th, env, c) :: rest =>
    let r := perform th env s c
    let r' := performAll r.1 rest
    (r'.1, r.2 ++ r'.2)

/-- Every call satisfies `P` in the state it is made in. -/
def Along (P : Thread → Shim → ShimCall → Prop) (s : Shim) :
    List (Thread × CallEnv × ShimCall) → Prop
  | [] => True
  | (th, env, c) :: rest => P th s c ∧ Along P (perform th env s c).1 rest

/-- The caller runs in a task that is there, and may make the call. -/
def CanCall (th : Thread) (s : Shim) (c : ShimCall) : Prop :=
  (s.tasks th.task).isSome ∧ c.Admissible s

/-- The bridge gets live contexts only, from any state of the invariant. -/
private theorem performAll_valid_iff {s : Shim} (hinv : s.Inv)
    (calls : List (Thread × CallEnv × ShimCall)) (hcalls : Along CanCall s calls) :
    (∀ u ∈ (performAll s calls).2, u.Valid) ↔
      Along (fun th s c => c.HasContext th s) s calls := by
  induction calls generalizing s with
  | nil => exact iff_of_true nofun trivial
  | cons call rest ih =>
    obtain ⟨th, env, c⟩ := call
    obtain ⟨⟨hcur, hadm⟩, hrest⟩ := hcalls
    obtain ⟨hnext, hvalid⟩ := perform_keeps env hinv hcur c hadm
    simp only [performAll, Along, List.mem_append, or_imp, forall_and]
    exact and_congr hvalid (ih hnext hrest)

/-- From `s31_rtos_init` on, the bridge is given live contexts only, if and only if no
    call deletes a queue that was deleted before, notifies or waits for the foreign
    task, or suspends it. -/
theorem contexts_live_iff (calls : List (Thread × CallEnv × ShimCall))
    (hcalls : Along CanCall s31RtosInit calls) :
    (∀ u ∈ (performAll s31RtosInit calls).2, u.Valid) ↔
      Along (fun th s c => c.HasContext th s) s31RtosInit calls :=
  performAll_valid_iff s31RtosInit_inv calls hcalls

/-- The radio worker. -/
def radioWorker : Thread := ⟨0, foreignTcb, false⟩

/-- Time stands still and no wait succeeds. -/
def stillEnv : CallEnv where
  start := 0
  clock := fun _ => 0
  woken := 0

/-- A static queue at address 8 with context 5, used and deleted by the worker. -/
def staticQueueCalls : List (Thread × CallEnv × ShimCall) :=
  [(radioWorker, stillEnv, .xQueueGenericCreateStatic (some 8) (some 5) 1 0 false 0),
   (radioWorker, stillEnv, .xQueueGenericSend (some 8) none 1 s31QueueSendToBack),
   (radioWorker, stillEnv, .vQueueDelete (some 8)),
   (radioWorker, stillEnv, .xQueueReceive (some 8) false 1)]

/-- The bridge gets live contexts from it. -/
theorem staticQueueCalls_live :
    Along CanCall s31RtosInit staticQueueCalls ∧
      ∀ u ∈ (performAll s31RtosInit staticQueueCalls).2, u.Valid := by
  have hcan : Along CanCall s31RtosInit staticQueueCalls := by
    refine ⟨⟨rfl, nofun⟩, ⟨rfl, ?_⟩, ⟨rfl, ?_⟩, ⟨rfl, ?_⟩, trivial⟩
    all_goals
      rintro a ⟨⟩
      rfl
  refine ⟨hcan, (contexts_live_iff staticQueueCalls hcan).mpr ?_⟩
  refine ⟨trivial, trivial, ?_, trivial, trivial⟩
  rintro a queue ⟨⟩ hqueue
  rw [← Option.some.inj hqueue]
  rfl

/-- The worker waits for a notification: the bridge gets NULL. -/
theorem foreign_notify_null :
    Along CanCall s31RtosInit [(radioWorker, stillEnv, .ulTaskGenericNotifyTake 0 true 1)] ∧
      ¬ ∀ u ∈ (performAll s31RtosInit
        [(radioWorker, stillEnv, .ulTaskGenericNotifyTake 0 true 1)]).2, u.Valid := by
  refine ⟨⟨⟨rfl, trivial⟩, trivial⟩, fun h => ?_⟩
  have hlock : Use.sync .lock none false ∈ (performAll s31RtosInit
      [(radioWorker, stillEnv, .ulTaskGenericNotifyTake 0 true 1)]).2 := by decide
  exact nomatch (h _ hlock).1

end EspS31.Rtos
