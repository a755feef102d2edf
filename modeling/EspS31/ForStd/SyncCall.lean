import Mathlib.Algebra.Ring.Nat
import Mathlib.Logic.Function.Basic

/-!
# Calls that block on a sequence counter

A *context* owns a lock, a wait queue and a sequence counter that every
wake-up increments.  A call on a context runs one of two shapes of code:

* `once`: one locked section, then a wake-up if the section asks for it;
* `loop`: read the sequence, run a locked section, and when the section finds
  its condition unmet, sleep until the sequence has moved on; a sleep that
  fails (time-out or error) may be followed by a closing locked section.

Locked sections, sequence reads and wake-ups are the atomic steps.  The shared
state `σ`, the contexts `κ`, the return values `ρ`, the clock `τ`, the call
names `ι` and the threads `θ` are arbitrary.

## Key results

- `Step.atomicOf`: a step changes the shared state only by one of the sections
  listed in `AtomicOf`
- `Run.call_rule`: the invariant rule for shared state, history and the calls
  under way
- `Run.shared_rule`: its special case for shared state and history
- `SyncCall.wait_mem_alone_iff`: when a call that runs alone has to wait
- `SyncCall.alone_zoom`: a call on a part of a larger state
-/

namespace SyncProtocol

/-- What a locked section decides: the call returns, with or without waking
    the context, or its condition does not hold yet.  The value of `unmet` is
    what the call returns if it gives up without another section. -/
inductive Outcome (ρ : Type) where
  | done (ret : ρ) (wake : Bool)
  | unmet (ret : ρ)
deriving DecidableEq, Repr

/-- How a looping call waits.  `patience start now` is the time it still wants
    to sleep, `none` when it gives up; `early` and `late` are the closing
    sections for giving up before and after a sleep. -/
structure WaitPart (σ ρ τ : Type) where
  patience : τ → τ → Option τ
  early : Option (σ → σ × ρ)
  late : Option (σ → σ × ρ)

/-- The code of one call, once its arguments are resolved: the context, the
    locked section and, for a loop, how it waits. -/
structure SyncCall (κ σ ρ τ : Type) where
  ctx : κ
  body : σ → σ × Outcome ρ
  wait : Option (WaitPart σ ρ τ)

namespace SyncCall

variable {κ σ ρ τ : Type}

/-- A locked section that always decides its call. -/
def onceBody (body : σ → σ × ρ × Bool) (s : σ) : σ × Outcome ρ :=
  ((body s).1, .done (body s).2.1 (body s).2.2)

/-- A call of one locked section. -/
def once (ctx : κ) (body : σ → σ × ρ × Bool) : SyncCall κ σ ρ τ where
  ctx := ctx
  body := onceBody body
  wait := none

/-- Run a section on the part of a larger state that `get` and `set` select. -/
def zoomSection {σ' α : Type} (get : σ' → σ) (set : σ' → σ → σ') (f : σ → σ × α) (s : σ') :
    σ' × α :=
  (set s (f (get s)).1, (f (get s)).2)

/-- The call on a larger state that works on the part `get` and `set` select. -/
def zoom {σ' : Type} (get : σ' → σ) (set : σ' → σ → σ') (c : SyncCall κ σ ρ τ) :
    SyncCall κ σ' ρ τ where
  ctx := c.ctx
  body := zoomSection get set c.body
  wait := c.wait.map fun w =>
    { patience := w.patience
      early := w.early.map (zoomSection get set)
      late := w.late.map (zoomSection get set) }

/-- The closing section of a call that gave up, after a sleep if `late`. -/
def closing (c : SyncCall κ σ ρ τ) (late : Bool) : Option (σ → σ × ρ) :=
  c.wait.bind fun w => if late then w.late else w.early

/-- A zoomed call closes with the zoomed closing section. -/
theorem closing_zoom {σ' : Type} (get : σ' → σ) (set : σ' → σ → σ') (c : SyncCall κ σ ρ τ)
    (late : Bool) :
    (c.zoom get set).closing late = (c.closing late).map (zoomSection get set) := by
  cases hw : c.wait with
  | none => simp only [closing, zoom, hw, Option.map_none, Option.bind_none]
  | some w => cases late <;> simp only [closing, zoom, hw, Option.map_some, Option.bind_some] <;> rfl

end SyncCall

/-- The outcome with its value transformed. -/
def Outcome.map {ρ ρ' : Type} (f : ρ → ρ') : Outcome ρ → Outcome ρ'
  | .done ret wake => .done (f ret) wake
  | .unmet ret => .unmet (f ret)

/-- The call with its returned values transformed. -/
def SyncCall.mapRet {κ σ ρ ρ' τ : Type} (f : ρ → ρ') (c : SyncCall κ σ ρ τ) :
    SyncCall κ σ ρ' τ where
  ctx := c.ctx
  body s := ((c.body s).1, (c.body s).2.map f)
  wait := c.wait.map fun w =>
    { patience := w.patience
      early := w.early.map fun g s => ((g s).1, f (g s).2)
      late := w.late.map fun g s => ((g s).1, f (g s).2) }

/-! ## Threads and their steps -/

/-- Where a thread is: between calls, or at the next atomic step of the call
    `op` whose code is `c`.  `start` is the time of entry, `seq` the sequence
    the thread has read, `ret` the value it returns if it gives up. -/
inductive Pc (κ σ ρ τ ι : Type) where
  | idle
  | sequence (op : ι) (c : SyncCall κ σ ρ τ) (start : τ)
  | locked (op : ι) (c : SyncCall κ σ ρ τ) (start : τ) (seq : Option Nat)
  | unmet (op : ι) (c : SyncCall κ σ ρ τ) (start : τ) (seq : Nat) (ret : ρ)
  | asleep (op : ι) (c : SyncCall κ σ ρ τ) (start : τ) (seq : Nat) (left : τ) (ret : ρ)
  | closing (op : ι) (c : SyncCall κ σ ρ τ) (late : Bool)
  | wake (op : ι) (c : SyncCall κ σ ρ τ) (ret : ρ)

/-- What one step did, as far as its caller or the shared state can tell. -/
inductive Event (ι ρ : Type) where
  | enter (op : ι) (ret : Option ρ)
  | locked (op : ι) (out : Outcome ρ)
  | closed (op : ι) (ret : ρ)
  | gaveUp (op : ι) (ret : ρ)
  | woke (op : ι) (ret : ρ)
  | silent
deriving DecidableEq, Repr

/-- The value a call returns, if this step decides it. -/
def Event.decided {ι ρ : Type} : Event ι ρ → Option (ι × ρ)
  | .enter op ret => ret.map fun r => (op, r)
  | .locked op (.done ret _) => some (op, ret)
  | .closed op ret | .gaveUp op ret => some (op, ret)
  | .locked _ (.unmet _) | .woke _ _ | .silent => none

/-- What the scheduler, the clock and the bridge choose: which call an idle
    thread makes, the time it reads, and how a sleep ends. -/
inductive Choice (ι τ : Type) where
  | call (op : ι) (now : τ)
  | go (now : τ)
  | awake (woken : Bool)
deriving DecidableEq, Repr

/-- The shared state, the sequence of every context and every thread. -/
structure Config (θ κ σ ρ τ ι : Type) where
  shared : σ
  seq : κ → Nat
  pc : θ → Pc κ σ ρ τ ι

/-- The entry code of every call: it runs atomically and either returns at
    once or goes on with a `SyncCall`. -/
abbrev Entry (θ κ σ ρ τ ι : Type) := θ → ι → σ → σ × (ρ ⊕ SyncCall κ σ ρ τ)

section

variable {θ κ σ ρ τ ι : Type}

/-- Where a call continues after its entry code. -/
def Pc.first (op : ι) (c : SyncCall κ σ ρ τ) (now : τ) : Pc κ σ ρ τ ι :=
  if c.wait.isSome then .sequence op c now else .locked op c now none

/-- Where a call continues after its locked section. -/
def Pc.afterBody (op : ι) (c : SyncCall κ σ ρ τ) (start : τ) (seq : Option Nat) :
    Outcome ρ → Pc κ σ ρ τ ι
  | .done ret true => .wake op c ret
  | .done _ false => .idle
  | .unmet ret =>
    match seq with
    | some s => .unmet op c start s ret
    | none => .idle

/-- Where a call continues when it gives up, and what that step reports. -/
def Pc.giveUp (op : ι) (c : SyncCall κ σ ρ τ) (ret : ρ) (late : Bool) :
    Event ι ρ × Pc κ σ ρ τ ι :=
  if (c.closing late).isSome then (.silent, .closing op c late) else (.gaveUp op ret, .idle)

/-- Events of steps that leave the shared state alone. -/
def Event.Quiet : Event ι ρ → Prop
  | .gaveUp _ _ | .woke _ _ | .silent => True
  | _ => False

/-- The call and code a program point belongs to. -/
def Pc.call? : Pc κ σ ρ τ ι → Option (ι × SyncCall κ σ ρ τ)
  | .idle => none
  | .sequence op c _ => some (op, c)
  | .locked op c _ _ => some (op, c)
  | .unmet op c _ _ _ => some (op, c)
  | .asleep op c _ _ _ _ => some (op, c)
  | .closing op c _ => some (op, c)
  | .wake op c _ => some (op, c)

/-- The call a thread has not completed yet, and the value it returns if it
    gives up: one its section reported with `unmet`. -/
def Pc.refusal : Pc κ σ ρ τ ι → Option (ι × SyncCall κ σ ρ τ × ρ)
  | .unmet op c _ _ ret => some (op, c, ret)
  | .asleep op c _ _ _ ret => some (op, c, ret)
  | _ => none

/-- A thread about to refuse is in the call that it refuses. -/
theorem Pc.call?_of_refusal {p : Pc κ σ ρ τ ι} {op : ι} {c : SyncCall κ σ ρ τ} {ret : ρ}
    (h : p.refusal = some (op, c, ret)) : p.call? = some (op, c) := by
  cases p with
  | unmet | asleep =>
    simp only [Pc.refusal, Option.some.injEq, Prod.mk.injEq] at h
    obtain ⟨rfl, rfl, -⟩ := h
    rfl
  | _ => exact nomatch h

/-- A call that has just started is not refusing. -/
theorem Pc.first_refusal (op : ι) (c : SyncCall κ σ ρ τ) (now : τ) :
    (Pc.first op c now).refusal = none := by
  unfold Pc.first
  split <;> rfl

/-- Once it has given up, a call has refused already. -/
theorem Pc.giveUp_refusal (op : ι) (c : SyncCall κ σ ρ τ) (ret : ρ) (late : Bool) :
    (Pc.giveUp op c ret late).2.refusal = none := by
  unfold Pc.giveUp
  split <;> rfl

/-- A section that is followed by a refusal ended unmet, with that result. -/
theorem Pc.afterBody_refusal {op op' : ι} {c c' : SyncCall κ σ ρ τ} {start : τ}
    {seq : Option Nat} {out : Outcome ρ} {ret : ρ}
    (h : (Pc.afterBody op c start seq out).refusal = some (op', c', ret)) :
    out = .unmet ret ∧ c' = c := by
  unfold Pc.afterBody at h
  split at h
  · exact nomatch h
  · exact nomatch h
  · split at h
    · simp only [Pc.refusal, Option.some.injEq, Prod.mk.injEq] at h
      obtain ⟨-, rfl, rfl⟩ := h
      exact ⟨rfl, rfl⟩
    · exact nomatch h

/-- Giving up lets nobody through. -/
theorem Pc.giveUp_quiet (op : ι) (c : SyncCall κ σ ρ τ) (ret : ρ) (late : Bool) :
    (Pc.giveUp op c ret late).1.Quiet := by
  unfold Pc.giveUp
  split <;> trivial

/-- An event of giving up is quiet. -/
theorem Pc.quiet_of_giveUp {e : Event ι ρ} {op : ι} {c : SyncCall κ σ ρ τ} {ret : ρ} {late : Bool}
    (h : e = (Pc.giveUp op c ret late).1) : e.Quiet :=
  h ▸ Pc.giveUp_quiet op c ret late

/-- Giving up moves to the closing section of the same call, or leaves it. -/
theorem Pc.giveUp_call? {op op' : ι} {c c' : SyncCall κ σ ρ τ} {ret : ρ} {late : Bool}
    (h : (Pc.giveUp op c ret late).2.call? = some (op', c')) : op' = op ∧ c' = c := by
  unfold Pc.giveUp at h
  split at h
  · exact Prod.mk.inj (Option.some.inj h.symm)
  · exact nomatch h

/-- A call that starts is the thread's current one. -/
theorem Pc.first_call? (op : ι) (c : SyncCall κ σ ρ τ) (now : τ) :
    (Pc.first op c now).call? = some (op, c) := by
  unfold Pc.first
  split <;> rfl

/-- After its section a thread is in the same call or in none. -/
theorem Pc.afterBody_call? {op op' : ι} {c c' : SyncCall κ σ ρ τ} {start : τ} {seq : Option Nat}
    {out : Outcome ρ} (h : (Pc.afterBody op c start seq out).call? = some (op', c')) :
    op' = op ∧ c' = c := by
  unfold Pc.afterBody at h
  split at h
  · exact Prod.mk.inj (Option.some.inj h.symm)
  · exact nomatch h
  · split at h
    · exact Prod.mk.inj (Option.some.inj h.symm)
    · exact nomatch h

/-- `c` is code that some entry of call `op` by thread `t` continues with. -/
def Calls (code : Entry θ κ σ ρ τ ι) (t : θ) (op : ι) (c : SyncCall κ σ ρ τ) : Prop :=
  ∃ s s', code t op s = (s', .inr c)

/-- Every thread runs code its entry handed out. -/
def Config.Sound (code : Entry θ κ σ ρ τ ι) (cfg : Config θ κ σ ρ τ ι) : Prop :=
  ∀ t op c, (cfg.pc t).call? = some (op, c) → Calls code t op c

/-- A configuration in which no call is under way is sound. -/
theorem Config.sound_of_idle {code : Entry θ κ σ ρ τ ι} {cfg : Config θ κ σ ρ τ ι}
    (h : ∀ t, cfg.pc t = .idle) : cfg.Sound code := by
  intro t op c hc
  rw [h t] at hc
  exact nomatch hc

variable [DecidableEq θ]

/-- Move thread `t` to `p` and the shared state to `s`. -/
def Config.put (c : Config θ κ σ ρ τ ι) (t : θ) (s : σ) (p : Pc κ σ ρ τ ι) :
    Config θ κ σ ρ τ ι :=
  { c with shared := s, pc := Function.update c.pc t p }

/-- A step puts the shared state it says. -/
@[simp] theorem Config.put_shared (cfg : Config θ κ σ ρ τ ι) (t : θ) (s : σ) (p : Pc κ σ ρ τ ι) :
    (cfg.put t s p).shared = s := rfl

/-- Putting a thread's place leaves the sequence counters. -/
@[simp] theorem Config.put_seq (cfg : Config θ κ σ ρ τ ι) (t : θ) (s : σ) (p : Pc κ σ ρ τ ι) :
    (cfg.put t s p).seq = cfg.seq := rfl

/-- The thread that steps is at the place it was put. -/
@[simp] theorem Config.put_pc_self (cfg : Config θ κ σ ρ τ ι) (t : θ) (s : σ)
    (p : Pc κ σ ρ τ ι) : (cfg.put t s p).pc t = p := Function.update_self ..

variable [DecidableEq κ]

/-- One atomic step of thread `t`. -/
def step (code : Entry θ κ σ ρ τ ι) (cfg : Config θ κ σ ρ τ ι) (t : θ) (ch : Choice ι τ) :
    Option (Event ι ρ × Config θ κ σ ρ τ ι) :=
  match cfg.pc t, ch with
  -- an argument that is refused ends the call at its entry
  | .idle, .call op now =>
    match code t op cfg.shared with
    | (s, .inl r) => some (.enter op (some r), cfg.put t s .idle)
    | (s, .inr c) => some (.enter op none, cfg.put t s (.first op c now))
  | .sequence op c start, .go _ =>
    some (.silent, cfg.put t cfg.shared (.locked op c start (some (cfg.seq c.ctx))))
  | .locked op c start seq, .go _ =>
    some (.locked op (c.body cfg.shared).2,
      cfg.put t (c.body cfg.shared).1 (.afterBody op c start seq (c.body cfg.shared).2))
  -- the time left is looked at after the lock was left
  | .unmet op c start seq ret, .go now =>
    match c.wait.bind fun w => w.patience start now with
    | some left => some (.silent, cfg.put t cfg.shared (.asleep op c start seq left ret))
    | none => some ((Pc.giveUp op c ret false).1, cfg.put t cfg.shared (Pc.giveUp op c ret false).2)
  -- awake: the counter is read again before the next try
  | .asleep op c start _ _ _, .awake true =>
    some (.silent, cfg.put t cfg.shared (.sequence op c start))
  -- the bridge's wait ended by its timeout
  | .asleep op c _ _ _ ret, .awake false =>
    some ((Pc.giveUp op c ret true).1, cfg.put t cfg.shared (Pc.giveUp op c ret true).2)
  | .closing op c late, .go _ =>
    match c.closing late with
    | some f => some (.closed op (f cfg.shared).2, cfg.put t (f cfg.shared).1 .idle)
    | none => none
  | .wake op c ret, .go _ =>
    some (.woke op ret,
      { cfg.put t cfg.shared .idle with
        seq := Function.update cfg.seq c.ctx (cfg.seq c.ctx + 1) })
  | _, _ => none

/-! ## What a step can do -/

/-- The steps of thread `t`, one constructor for each program point and exit. -/
inductive Step (code : Entry θ κ σ ρ τ ι) (cfg : Config θ κ σ ρ τ ι) (t : θ) :
    Event ι ρ → Config θ κ σ ρ τ ι → Prop where
  | refused {op s r} (hpc : cfg.pc t = .idle) (hcode : code t op cfg.shared = (s, .inl r)) :
    Step code cfg t (.enter op (some r)) (cfg.put t s .idle)
  | entered {op s c} (now : τ) (hpc : cfg.pc t = .idle)
    (hcode : code t op cfg.shared = (s, .inr c)) :
    Step code cfg t (.enter op none) (cfg.put t s (.first op c now))
  | sequence {op c start} (hpc : cfg.pc t = .sequence op c start) :
    Step code cfg t .silent (cfg.put t cfg.shared (.locked op c start (some (cfg.seq c.ctx))))
  | locked {op c start seq s out} (hpc : cfg.pc t = .locked op c start seq)
    (hbody : c.body cfg.shared = (s, out)) :
    Step code cfg t (.locked op out) (cfg.put t s (.afterBody op c start seq out))
  | sleep {op c start seq ret left} (now : τ) (hpc : cfg.pc t = .unmet op c start seq ret)
    (hleft : (c.wait.bind fun w => w.patience start now) = some left) :
    Step code cfg t .silent (cfg.put t cfg.shared (.asleep op c start seq left ret))
  | expire {op c start seq ret} (now : τ) (hpc : cfg.pc t = .unmet op c start seq ret)
    (hleft : (c.wait.bind fun w => w.patience start now) = none) :
    Step code cfg t (Pc.giveUp op c ret false).1 (cfg.put t cfg.shared (Pc.giveUp op c ret false).2)
  | resume {op c start seq left ret} (hpc : cfg.pc t = .asleep op c start seq left ret) :
    Step code cfg t .silent (cfg.put t cfg.shared (.sequence op c start))
  | fail {op c start seq left ret} (hpc : cfg.pc t = .asleep op c start seq left ret) :
    Step code cfg t (Pc.giveUp op c ret true).1 (cfg.put t cfg.shared (Pc.giveUp op c ret true).2)
  | close {op c late f s r} (hpc : cfg.pc t = .closing op c late) (hf : c.closing late = some f)
    (hs : f cfg.shared = (s, r)) :
    Step code cfg t (.closed op r) (cfg.put t s .idle)
  | wake {op c ret} (hpc : cfg.pc t = .wake op c ret) :
    Step code cfg t (.woke op ret)
      { cfg.put t cfg.shared .idle with
        seq := Function.update cfg.seq c.ctx (cfg.seq c.ctx + 1) }

/-- Every executable step is one of the listed ones. -/
theorem Step.of_step {code : Entry θ κ σ ρ τ ι} {cfg cfg' : Config θ κ σ ρ τ ι} {t : θ}
    {ch : Choice ι τ} {e : Event ι ρ} (h : step code cfg t ch = some (e, cfg')) :
    Step code cfg t e cfg' := by
  -- the branches of `step` are the constructors of `Step`
  unfold step at h
  split at h
  next op now hpc =>
    split at h <;> obtain ⟨rfl, rfl⟩ := Prod.mk.inj (Option.some.inj h)
    next hcode => exact .refused hpc hcode
    next hcode => exact .entered now hpc hcode
  next hpc =>
    obtain ⟨rfl, rfl⟩ := Prod.mk.inj (Option.some.inj h)
    exact .sequence hpc
  next hpc =>
    obtain ⟨rfl, rfl⟩ := Prod.mk.inj (Option.some.inj h)
    exact .locked hpc rfl
  next hpc =>
    split at h <;> obtain ⟨rfl, rfl⟩ := Prod.mk.inj (Option.some.inj h)
    next hleft => exact .sleep _ hpc hleft
    next hleft => exact .expire _ hpc hleft
  next hpc =>
    obtain ⟨rfl, rfl⟩ := Prod.mk.inj (Option.some.inj h)
    exact .resume hpc
  next hpc =>
    obtain ⟨rfl, rfl⟩ := Prod.mk.inj (Option.some.inj h)
    exact .fail hpc
  next hpc =>
    split at h
    next hf =>
      obtain ⟨rfl, rfl⟩ := Prod.mk.inj (Option.some.inj h)
      exact .close hpc hf rfl
    next => exact nomatch h
  next hpc =>
    obtain ⟨rfl, rfl⟩ := Prod.mk.inj (Option.some.inj h)
    exact .wake hpc
  next => exact nomatch h

/-- The changes of the shared state a call can make, each with its event, when
    the code `c` of a call under way satisfies `R` in the current state. -/
inductive AtomicOf (code : Entry θ κ σ ρ τ ι) (R : θ → ι → SyncCall κ σ ρ τ → σ → Prop) (t : θ)
    (op : ι) : σ → Event ι ρ → σ → Prop where
  | refused {s s' r} (h : code t op s = (s', .inl r)) :
    AtomicOf code R t op s (.enter op (some r)) s'
  | entered {s s' c} (h : code t op s = (s', .inr c)) : AtomicOf code R t op s (.enter op none) s'
  | locked {s s' c out} (hc : R t op c s) (h : c.body s = (s', out)) :
    AtomicOf code R t op s (.locked op out) s'
  | closed {s s' c late f r} (hc : R t op c s) (hf : c.closing late = some f)
    (h : f s = (s', r)) : AtomicOf code R t op s (.closed op r) s'

/-- The changes of the shared state, for the code entries hand out. -/
abbrev Atomic (code : Entry θ κ σ ρ τ ι) (t : θ) (op : ι) : σ → Event ι ρ → σ → Prop :=
  AtomicOf code (fun t op c _ => Calls code t op c) t op

/-- A step of `t` moves no other thread. -/
theorem Step.pc_of_ne {code : Entry θ κ σ ρ τ ι} {cfg cfg' : Config θ κ σ ρ τ ι} {t t' : θ}
    {e : Event ι ρ} (h : Step code cfg t e cfg') (hne : t' ≠ t) : cfg'.pc t' = cfg.pc t' := by
  cases h <;> exact Function.update_of_ne hne ..

/-- After its own step a thread is in the call it was in, or has just entered
    the one it is in. -/
theorem Step.call?_cases {code : Entry θ κ σ ρ τ ι} {cfg cfg' : Config θ κ σ ρ τ ι} {t : θ}
    {e : Event ι ρ} (h : Step code cfg t e cfg') {op : ι} {c : SyncCall κ σ ρ τ}
    (hc : (cfg'.pc t).call? = some (op, c)) :
    (cfg.pc t).call? = some (op, c) ∨ code t op cfg.shared = (cfg'.shared, .inr c) := by
  cases h with
  | refused _ _ => rw [Config.put_pc_self] at hc; exact nomatch hc
  -- the call is new
  | entered now hpc hcode =>
    rw [Config.put_pc_self, Pc.first_call?] at hc
    obtain ⟨rfl, rfl⟩ := Prod.mk.inj (Option.some.inj hc)
    exact .inr hcode
  | sequence hpc | sleep _ hpc _ | resume hpc =>
    rw [Config.put_pc_self] at hc
    exact .inl (by rw [hpc]; exact hc)
  | locked hpc hbody =>
    rw [Config.put_pc_self] at hc
    obtain ⟨rfl, rfl⟩ := Pc.afterBody_call? hc
    exact .inl (by rw [hpc]; rfl)
  | expire _ hpc _ | fail hpc =>
    rw [Config.put_pc_self] at hc
    obtain ⟨rfl, rfl⟩ := Pc.giveUp_call? hc
    exact .inl (by rw [hpc]; rfl)
  | close _ _ _ => rw [Config.put_pc_self] at hc; exact nomatch hc
  | wake _ => simp only [Config.put_pc_self] at hc; exact nomatch hc

/-- A step changes the shared state by one of the listed sections, or not at all. -/
theorem Step.atomicOf {code : Entry θ κ σ ρ τ ι} {R : θ → ι → SyncCall κ σ ρ τ → σ → Prop}
    {cfg cfg' : Config θ κ σ ρ τ ι} {t : θ} {e : Event ι ρ} (h : Step code cfg t e cfg')
    (hR : ∀ op c, (cfg.pc t).call? = some (op, c) → R t op c cfg.shared) :
    (∃ op, AtomicOf code R t op cfg.shared e cfg'.shared) ∨
      (e.Quiet ∧ cfg'.shared = cfg.shared) := by
  cases h with
  | refused _ hcode => exact .inl ⟨_, .refused hcode⟩
  | entered _ _ hcode => exact .inl ⟨_, .entered hcode⟩
  | locked hpc hbody => exact .inl ⟨_, .locked (hR _ _ (by rw [hpc]; rfl)) hbody⟩
  | close hpc hf hr => exact .inl ⟨_, .closed (hR _ _ (by rw [hpc]; rfl)) hf hr⟩
  | expire _ _ _ | fail _ => exact .inr ⟨Pc.giveUp_quiet .., rfl⟩
  | sequence _ | sleep _ _ _ | resume _ | wake _ => exact .inr ⟨trivial, rfl⟩

/-- A quiet step leaves the shared state alone. -/
theorem Step.quiet_shared {code : Entry θ κ σ ρ τ ι} {cfg cfg' : Config θ κ σ ρ τ ι} {t : θ}
    {e : Event ι ρ} (h : Step code cfg t e cfg') (hquiet : e.Quiet) : cfg'.shared = cfg.shared := by
  cases h with
  | refused | entered | locked | close => exact hquiet.elim
  | _ => rfl

/-- A step reported as the entry of a call runs its entry code. -/
theorem Step.entered_inv {code : Entry θ κ σ ρ τ ι} {cfg cfg' : Config θ κ σ ρ τ ι} {t : θ} {op : ι}
    (h : Step code cfg t (.enter op none) cfg') :
    ∃ c, code t op cfg.shared = (cfg'.shared, .inr c) := by
  generalize he : Event.enter op none = e at h
  cases h with
  | entered _ _ hcode =>
    obtain ⟨rfl, -⟩ := Event.enter.inj he
    exact ⟨_, hcode⟩
  | expire _ _ _ | fail _ => exact (Pc.quiet_of_giveUp he).elim
  | _ => exact nomatch he

/-- A step reported as a refused entry is one. -/
theorem Step.refused_inv {code : Entry θ κ σ ρ τ ι} {cfg cfg' : Config θ κ σ ρ τ ι} {t : θ} {op : ι}
    {ret : ρ} (h : Step code cfg t (.enter op (some ret)) cfg') :
    code t op cfg.shared = (cfg'.shared, .inl ret) := by
  generalize he : Event.enter op (some ret) = e at h
  cases h with
  | refused _ hcode =>
    obtain ⟨rfl, heq⟩ := Event.enter.inj he
    obtain rfl := Option.some.inj heq
    exact hcode
  | expire _ _ _ | fail _ => exact (Pc.quiet_of_giveUp he).elim
  | _ => exact nomatch he

/-- A step reported as a locked section runs one. -/
theorem Step.locked_inv {code : Entry θ κ σ ρ τ ι} {cfg cfg' : Config θ κ σ ρ τ ι} {t : θ} {op : ι}
    {out : Outcome ρ} (h : Step code cfg t (.locked op out) cfg') :
    ∃ c start seq, cfg.pc t = .locked op c start seq ∧
      c.body cfg.shared = (cfg'.shared, out) := by
  generalize he : Event.locked op out = e at h
  cases h with
  -- no other step makes this event
  | locked hpc hbody =>
    obtain ⟨rfl, rfl⟩ := Event.locked.inj he
    exact ⟨_, _, _, hpc, hbody⟩
  | expire _ _ _ | fail _ => exact (Pc.quiet_of_giveUp he).elim
  | _ => exact nomatch he

/-- A step reported as a closing section runs one. -/
theorem Step.closed_inv {code : Entry θ κ σ ρ τ ι} {cfg cfg' : Config θ κ σ ρ τ ι} {t : θ} {op : ι}
    {ret : ρ} (h : Step code cfg t (.closed op ret) cfg') :
    ∃ c late f, cfg.pc t = .closing op c late ∧ c.closing late = some f ∧
      f cfg.shared = (cfg'.shared, ret) := by
  generalize he : Event.closed op ret = e at h
  cases h with
  | close hpc hf hs =>
    obtain ⟨rfl, rfl⟩ := Event.closed.inj he
    exact ⟨_, _, _, hpc, hf, hs⟩
  | expire _ _ _ | fail _ => exact (Pc.quiet_of_giveUp he).elim
  | _ => exact nomatch he

/-- A thread gives up when its patience has ended or its sleep has failed. -/
theorem step_gaveUp {code : Entry θ κ σ ρ τ ι} {cfg cfg' : Config θ κ σ ρ τ ι} {t : θ}
    {ch : Choice ι τ} {op : ι} {ret : ρ} (h : step code cfg t ch = some (.gaveUp op ret, cfg')) :
    ∃ c, (cfg.pc t).refusal = some (op, c, ret) ∧
      ((∃ start now, (c.wait.bind fun w => w.patience start now) = none) ∨
        (ch = .awake false ∧ ∃ start seq left, cfg.pc t = .asleep op c start seq left ret)) := by
  -- only a wait that runs out of time and one that fails give up a call
  unfold step at h
  split at h
  next op' now hpc =>
    split at h <;> exact nomatch (Prod.mk.inj (Option.some.inj h)).1
  next hpc => exact nomatch (Prod.mk.inj (Option.some.inj h)).1
  next hpc => exact nomatch (Prod.mk.inj (Option.some.inj h)).1
  next op' c start seq ret' now hpc =>
    split at h
    next => exact nomatch (Prod.mk.inj (Option.some.inj h)).1
    next hleft =>
      have he := (Prod.mk.inj (Option.some.inj h)).1
      unfold Pc.giveUp at he
      split at he
      · exact nomatch he
      · obtain ⟨rfl, rfl⟩ := Event.gaveUp.inj he
        exact ⟨c, by rw [hpc]; rfl, .inl ⟨start, now, hleft⟩⟩
  next => exact nomatch (Prod.mk.inj (Option.some.inj h)).1
  next op' c start seq left ret' hpc =>
    have he := (Prod.mk.inj (Option.some.inj h)).1
    unfold Pc.giveUp at he
    split at he
    · exact nomatch he
    · obtain ⟨rfl, rfl⟩ := Event.gaveUp.inj he
      exact ⟨c, by rw [hpc]; rfl, .inr ⟨rfl, start, seq, left, hpc⟩⟩
  next =>
    split at h
    next => exact nomatch (Prod.mk.inj (Option.some.inj h)).1
    next => exact nomatch h
  next => exact nomatch (Prod.mk.inj (Option.some.inj h)).1
  next => exact nomatch h

/-- A thread that gives up returns the value its section has left it with. -/
theorem Step.gaveUp {code : Entry θ κ σ ρ τ ι} {cfg cfg' : Config θ κ σ ρ τ ι} {t : θ} {op : ι}
    {ret : ρ} (h : Step code cfg t (.gaveUp op ret) cfg') :
    ∃ c, (cfg.pc t).refusal = some (op, c, ret) := by
  generalize he : Event.gaveUp op ret = e at h
  cases h with
  -- no time is left, or the wait was cut short
  | @expire op' c start seq ret' now hpc hleft =>
    unfold Pc.giveUp at he
    split at he
    · exact nomatch he
    · obtain ⟨rfl, rfl⟩ := Event.gaveUp.inj he
      exact ⟨c, by rw [hpc]; rfl⟩
  | @fail op' c start seq left ret' hpc =>
    unfold Pc.giveUp at he
    split at he
    · exact nomatch he
    · obtain ⟨rfl, rfl⟩ := Event.gaveUp.inj he
      exact ⟨c, by rw [hpc]; rfl⟩
  | _ => exact nomatch he

/-- What a thread will return if it gives up is what it had before its step, or
    what its section has just reported. -/
theorem Step.refusal {code : Entry θ κ σ ρ τ ι} {cfg cfg' : Config θ κ σ ρ τ ι} {t : θ}
    {e : Event ι ρ} (h : Step code cfg t e cfg') {op : ι} {c : SyncCall κ σ ρ τ} {ret : ρ}
    (hr : (cfg'.pc t).refusal = some (op, c, ret)) :
    (cfg.pc t).refusal = some (op, c, ret) ∨ ∃ s s', c.body s = (s', .unmet ret) := by
  cases h with
  | refused _ _ | close _ _ _ | sequence _ | resume _ =>
    rw [Config.put_pc_self] at hr; exact nomatch hr
  | entered _ _ _ => rw [Config.put_pc_self, Pc.first_refusal] at hr; exact nomatch hr
  | expire _ _ _ | fail _ => rw [Config.put_pc_self, Pc.giveUp_refusal] at hr; exact nomatch hr
  | sleep _ hpc _ =>
    rw [Config.put_pc_self] at hr
    rw [hpc]
    exact .inl hr
  -- only a section that ends unmet leads to a refusal
  | locked hpc hbody =>
    rw [Config.put_pc_self] at hr
    obtain ⟨rfl, rfl⟩ := Pc.afterBody_refusal hr
    exact .inr ⟨_, _, hbody⟩
  | wake _ => simp only [Config.put_pc_self] at hr; exact nomatch hr

/-! ## Runs -/

/-- Runs from `cfg₀` whose steps all satisfy `ok`, with the events they log. -/
inductive Run (code : Entry θ κ σ ρ τ ι) (ok : Config θ κ σ ρ τ ι → θ → Choice ι τ → Prop)
    (cfg₀ : Config θ κ σ ρ τ ι) : List (θ × Event ι ρ) → Config θ κ σ ρ τ ι → Prop where
  | nil : Run code ok cfg₀ [] cfg₀
  | snoc {log cfg t ch e cfg'} (hrun : Run code ok cfg₀ log cfg) (hok : ok cfg t ch)
    (hstep : step code cfg t ch = some (e, cfg')) : Run code ok cfg₀ (log ++ [(t, e)]) cfg'

variable {code : Entry θ κ σ ρ τ ι} {ok : Config θ κ σ ρ τ ι → θ → Choice ι τ → Prop}
  {cfg₀ cfg : Config θ κ σ ρ τ ι} {log : List (θ × Event ι ρ)}

/-- Runs a schedule, step by step. -/
def exec (code : Entry θ κ σ ρ τ ι) :
    Config θ κ σ ρ τ ι → List (θ × Choice ι τ) → Option (List (θ × Event ι ρ) × Config θ κ σ ρ τ ι)
  | cfg, [] => some ([], cfg)
  | cfg, (t, ch) :: sched =>
    match step code cfg t ch with
    | some (e, cfg') => (exec code cfg' sched).map fun x => ((t, e) :: x.1, x.2)
    | none => none

/-- A schedule that executes extends a run. -/
theorem Run.exec (h : Run code ok cfg₀ log cfg) {sched : List (θ × Choice ι τ)}
    {log' : List (θ × Event ι ρ)} {cfg' : Config θ κ σ ρ τ ι}
    (hok : ∀ x ∈ sched, ∀ cfg, ok cfg x.1 x.2)
    (hex : SyncProtocol.exec code cfg sched = some (log', cfg')) :
    Run code ok cfg₀ (log ++ log') cfg' := by
  -- induction on the schedule, one step appended at a time
  induction sched generalizing log cfg log' with
  | nil =>
    obtain ⟨rfl, rfl⟩ := Prod.mk.inj (Option.some.inj hex)
    rwa [List.append_nil]
  | cons a sched ih =>
    obtain ⟨t, ch⟩ := a
    rw [SyncProtocol.exec] at hex
    split at hex
    · next e cfg₁ hstep =>
      obtain ⟨⟨log₁, cfg₂⟩, hrest, heq⟩ := Option.map_eq_some_iff.mp hex
      obtain ⟨rfl, rfl⟩ := Prod.mk.inj heq
      have hnext := h.snoc (hok _ (List.mem_cons_self ..) _) hstep
      have := ih hnext (fun x hx => hok x (List.mem_cons_of_mem _ hx)) hrest
      rwa [List.append_assoc] at this
    · exact nomatch hex

/-- A schedule that executes is a run. -/
theorem Run.of_exec {sched : List (θ × Choice ι τ)} (hok : ∀ x ∈ sched, ∀ cfg, ok cfg x.1 x.2)
    (hex : SyncProtocol.exec code cfg₀ sched = some (log, cfg)) : Run code ok cfg₀ log cfg :=
  Run.nil.exec hok hex

/-- The invariant rule for the history, the shared state and the calls under
    way.  `R` is established by entering a call and kept by the sections of
    all threads; `I` is kept by sections whose call satisfies `R`, and by the
    events of the other steps. -/
theorem Run.call_rule {I : List (θ × Event ι ρ) → σ → Prop}
    {R : θ → ι → SyncCall κ σ ρ τ → σ → Prop} (h : Run code ok cfg₀ log cfg)
    (hR₀ : ∀ t op c, (cfg₀.pc t).call? = some (op, c) → R t op c cfg₀.shared)
    (hI₀ : I [] cfg₀.shared)
    (hentered : ∀ t op s s' c, code t op s = (s', .inr c) → R t op c s')
    (hkeeps : ∀ t op e s s', AtomicOf code R t op s e s' → ∀ t' op' c', R t' op' c' s → R t' op' c' s')
    (hatomic : ∀ log t op e s s', I log s → AtomicOf code R t op s e s' → I (log ++ [(t, e)]) s')
    (hquiet : ∀ log t e s, I log s → e.Quiet → I (log ++ [(t, e)]) s) :
    I log cfg.shared ∧ ∀ t op c, (cfg.pc t).call? = some (op, c) → R t op c cfg.shared := by
  induction h with
  | nil => exact ⟨hI₀, hR₀⟩
  | @snoc log cfg t ch e cfg' _ _ hstep ih =>
    obtain ⟨hI, hR⟩ := ih
    have h := Step.of_step hstep
    -- the step runs a section, or the shared state stays as it is
    obtain ⟨op, hat⟩ | ⟨hq, heq⟩ := h.atomicOf (hR t)
    · refine ⟨hatomic _ _ _ _ _ _ hI hat, fun t' op' c' hc' => ?_⟩
      -- the call of the thread that moved is an old one or just entered
      by_cases hne : t' = t
      · subst hne
        obtain hold | hnew := h.call?_cases hc'
        · exact hkeeps _ _ _ _ _ hat _ _ _ (hR _ _ _ hold)
        · exact hentered _ _ _ _ _ hnew
      · rw [h.pc_of_ne hne] at hc'
        exact hkeeps _ _ _ _ _ hat _ _ _ (hR _ _ _ hc')
    · rw [heq]
      refine ⟨hquiet _ _ _ _ hI hq, fun t' op' c' hc' => ?_⟩
      by_cases hne : t' = t
      · subst hne
        obtain hold | hnew := h.call?_cases hc'
        · exact hR _ _ _ hold
        · exact heq ▸ hentered _ _ _ _ _ hnew
      · rw [h.pc_of_ne hne] at hc'
        exact hR _ _ _ hc'

/-- Every thread runs code its entry handed out. -/
theorem Run.sound (h : Run code ok cfg₀ log cfg) (h₀ : cfg₀.Sound code) : cfg.Sound code :=
  (h.call_rule (I := fun _ _ => True) (R := fun t op c _ => Calls code t op c) h₀ trivial
    (fun _ _ _ _ _ hcode => ⟨_, _, hcode⟩) (fun _ _ _ _ _ _ _ _ _ hc => hc)
    (fun _ _ _ _ _ _ _ _ => trivial) (fun _ _ _ _ _ _ => trivial)).2

/-- The invariant rule for a property of the history and the shared state alone. -/
theorem Run.shared_rule {P : List (θ × Event ι ρ) → σ → Prop} (h : Run code ok cfg₀ log cfg)
    (h₀ : cfg₀.Sound code) (hinit : P [] cfg₀.shared)
    (hatomic : ∀ log s t op e s', P log s → Atomic code t op s e s' → P (log ++ [(t, e)]) s')
    (hquiet : ∀ log s t e, P log s → e.Quiet → P (log ++ [(t, e)]) s) : P log cfg.shared :=
  (h.call_rule (R := fun t op c _ => Calls code t op c) h₀ hinit
    (fun _ _ _ _ _ hcode => ⟨_, _, hcode⟩) (fun _ _ _ _ _ _ _ _ _ hc => hc)
    (fun _ _ _ _ _ _ hP hat => hatomic _ _ _ _ _ _ hP hat)
    (fun _ _ _ _ hP hq => hquiet _ _ _ _ hP hq)).1

/-- What a thread will return if it gives up is what a section of its call has
    reported with `unmet`. -/
theorem Run.refusal (h : Run code ok cfg₀ log cfg) (hidle : ∀ t, cfg₀.pc t = .idle) {t : θ}
    {op : ι} {c : SyncCall κ σ ρ τ} {ret : ρ} (hr : (cfg.pc t).refusal = some (op, c, ret)) :
    ∃ s s', c.body s = (s', .unmet ret) := by
  induction h with
  | nil =>
    rw [hidle] at hr
    exact nomatch hr
  | @snoc _ _ t' _ _ _ _ _ hstep ih =>
    by_cases hne : t = t'
    · subst hne
      exact ((Step.of_step hstep).refusal hr).elim ih id
    · rw [(Step.of_step hstep).pc_of_ne hne] at hr
      exact ih hr

end

/-! ## A call that runs alone -/

/-- The functions a call uses on its context. -/
inductive SyncFn where
  | lock | unlock | sequence | wait | wake | destroy
deriving DecidableEq, Repr

namespace SyncCall

variable {κ σ ρ τ : Type}

/-- The functions before the outcome of a section is known. -/
def attempt (c : SyncCall κ σ ρ τ) : List SyncFn :=
  (if c.wait.isSome then [.sequence] else []) ++ [.lock, .unlock]

/-- The end of a call that gives up. -/
def finish (c : SyncCall κ σ ρ τ) (late : Bool) (ret : ρ) (s : σ) : List SyncFn × σ × ρ :=
  match c.closing late with
  | none => ([], s, ret)
  | some f => ([.lock, .unlock], f s)

/-- A call from `start` on with nothing else running: the functions it uses, the
    state it leaves and what it returns.  Its first `woken` waits succeed, and
    `clock` is the time it reads before the last but `n`-th wait. -/
def alone (c : SyncCall κ σ ρ τ) (start : τ) (clock : Nat → τ) : Nat → σ → List SyncFn × σ × ρ
  | woken, s =>
    match c.body s with
    | (s', .done ret wake) => (c.attempt ++ if wake then [.wake] else [], s', ret)
    | (s', .unmet ret) =>
      match c.wait.bind fun w => w.patience start (clock woken) with
      | none => (c.attempt ++ (c.finish false ret s').1, (c.finish false ret s').2)
      | some _ =>
        match woken with
        | 0 => (c.attempt ++ .wait :: (c.finish true ret s').1, (c.finish true ret s').2)
        | n + 1 =>
          (c.attempt ++ .wait :: (alone c start clock n s').1, (alone c start clock n s').2)

variable {c : SyncCall κ σ ρ τ} {start : τ} {clock : Nat → τ}

/-- The section that tries does not wait. -/
theorem wait_not_mem_attempt : .wait ∉ c.attempt := by
  unfold attempt
  split <;> simp

/-- The section that ends a call does not wait. -/
theorem wait_not_mem_finish (late : Bool) (ret : ρ) (s : σ) : .wait ∉ (c.finish late ret s).1 := by
  unfold finish
  split <;> simp

/-- A call waits when its first section finds the condition unmet and it has the
    patience to. -/
theorem wait_mem_alone_iff (woken : Nat) (s : σ) :
    .wait ∈ (c.alone start clock woken s).1 ↔
      (∃ ret, (c.body s).2 = .unmet ret) ∧
        (c.wait.bind fun w => w.patience start (clock woken)).isSome := by
  unfold alone
  split
  · next s' ret wake hbody =>
    rw [hbody]
    cases wake <;> simp [wait_not_mem_attempt]
  · next s' ret hbody =>
    rw [hbody]
    cases hleft : c.wait.bind fun w => w.patience start (clock woken) with
    | none => simp [wait_not_mem_attempt, wait_not_mem_finish]
    | some left => cases woken <;> simp

/-- A call always takes its lock. -/
theorem lock_mem_alone (woken : Nat) (s : σ) : .lock ∈ (c.alone start clock woken s).1 := by
  have hattempt : .lock ∈ c.attempt := by
    unfold attempt
    split <;> simp
  unfold alone
  split
  · exact List.mem_append_left _ hattempt
  · split
    · exact List.mem_append_left _ hattempt
    · cases woken <;> exact List.mem_append_left _ hattempt

/-- What the sections keep, the call keeps. -/
theorem alone_keeps {P : σ → Prop} (hbody : ∀ s, P s → P (c.body s).1)
    (hclosing : ∀ late f s, c.closing late = some f → P s → P (f s).1) (woken : Nat) {s : σ}
    (h : P s) : P (c.alone start clock woken s).2.1 := by
  -- the end of a call is its closing section, if it has one
  have hfinish : ∀ late ret s, P s → P (c.finish late ret s).2.1 := by
    intro late ret s hs
    unfold finish
    split
    · exact hs
    · next f hf => exact hclosing late f s hf hs
  -- induction on how often the call is woken up
  induction woken generalizing s with
  | zero =>
    have hs := hbody s h
    unfold alone
    split
    · next heq =>
      rw [heq] at hs
      exact hs
    · next s' ret heq =>
      rw [heq] at hs
      split
      · exact hfinish _ _ _ hs
      · exact hfinish _ _ _ hs
  | succ n ih =>
    have hs := hbody s h
    unfold alone
    split
    · next heq =>
      rw [heq] at hs
      exact hs
    · next s' ret heq =>
      rw [heq] at hs
      split
      · exact hfinish _ _ _ hs
      · exact ih hs

/-- The same call on another context. -/
def withCtx {κ' : Type} (ctx : κ') (c : SyncCall κ σ ρ τ) : SyncCall κ' σ ρ τ where
  ctx := ctx
  body := c.body
  wait := c.wait

/-- The context is of no matter to what the call does. -/
theorem alone_withCtx {κ' : Type} (ctx : κ') (woken : Nat) (s : σ) :
    (c.withCtx ctx).alone start clock woken s = c.alone start clock woken s := by
  have hbody : (c.withCtx ctx).body s = c.body s := rfl
  induction woken generalizing s with
  | zero =>
    rw [alone, alone, hbody]
    rfl
  | succ n ih =>
    rw [alone, alone, hbody]
    simp only [ih _ rfl]
    rfl

/-- Mapping the result leaves the signals of an attempt. -/
theorem attempt_mapRet {ρ' : Type} (f : ρ → ρ') : (c.mapRet f).attempt = c.attempt := by
  simp only [attempt, mapRet, Option.isSome_map]

/-- Mapping the result maps what the last section returns, and nothing else. -/
theorem finish_mapRet {ρ' : Type} (f : ρ → ρ') (late : Bool) (ret : ρ) (s : σ) :
    (c.mapRet f).finish late (f ret) s =
      ((c.finish late ret s).1, (c.finish late ret s).2.1, f (c.finish late ret s).2.2) := by
  unfold finish closing mapRet
  cases c.wait with
  | none => rfl
  | some w =>
    cases late with
    | true => cases hlate : w.late <;> simp [hlate]
    | false => cases hearly : w.early <;> simp [hearly]

/-- Only the value that is returned is another one. -/
theorem alone_mapRet {ρ' : Type} (f : ρ → ρ') (woken : Nat) (s : σ) :
    (c.mapRet f).alone start clock woken s =
      ((c.alone start clock woken s).1, (c.alone start clock woken s).2.1,
        f (c.alone start clock woken s).2.2) := by
  have hpatience : ∀ n, ((c.mapRet f).wait.bind fun w => w.patience start (clock n)) =
      c.wait.bind fun w => w.patience start (clock n) := by
    intro n
    simp only [mapRet, Option.bind_map]
    rfl
  have hbody : ∀ s, (c.mapRet f).body s = ((c.body s).1, (c.body s).2.map f) := fun _ => rfl
  -- induction on how often the call is woken up
  induction woken generalizing s with
  | zero =>
    rw [alone, alone, hbody, hpatience, attempt_mapRet]
    obtain ⟨s', out⟩ := c.body s
    cases out with
    | done ret wake => rfl
    | unmet ret =>
      simp only [Outcome.map, finish_mapRet]
      split <;> rfl
  -- woken once more, the loop goes round
  | succ n ih =>
    rw [alone, alone, hbody, hpatience, attempt_mapRet]
    obtain ⟨s', out⟩ := c.body s
    cases out with
    | done ret wake => rfl
    | unmet ret =>
      simp only [Outcome.map, finish_mapRet, ih]
      split <;> rfl

section

variable {σ' : Type} {get : σ' → σ} {set : σ' → σ → σ'}

/-- A call on a part of the state makes the signals that it makes on the part. -/
theorem attempt_zoom : (c.zoom get set).attempt = c.attempt := by
  simp only [attempt, zoom, Option.isSome_map]

/-- On a part of the state, the last section changes that part as it does alone. -/
theorem finish_zoom (late : Bool) (ret : ρ) (hset : ∀ s x y, set (set s x) y = set s y)
    (hget : ∀ s x, get (set s x) = x) (s : σ') (x : σ) :
    (c.zoom get set).finish late ret (set s x) =
      ((c.finish late ret x).1, set s (c.finish late ret x).2.1, (c.finish late ret x).2.2) := by
  unfold finish
  rw [closing_zoom]
  cases c.closing late with
  | none => rfl
  | some f => simp only [Option.map_some, zoomSection, hget, hset]

/-- A call on a part of the state does there what it does by itself. -/
theorem alone_zoom (hset : ∀ s x y, set (set s x) y = set s y) (hget : ∀ s x, get (set s x) = x)
    (woken : Nat) (s : σ') :
    (c.zoom get set).alone start clock woken s =
      ((c.alone start clock woken (get s)).1, set s (c.alone start clock woken (get s)).2.1,
        (c.alone start clock woken (get s)).2.2) := by
  have hpatience : ∀ n, ((c.zoom get set).wait.bind fun w => w.patience start (clock n)) =
      c.wait.bind fun w => w.patience start (clock n) := by
    intro n
    simp only [zoom, Option.bind_map]
    rfl
  have hbody : ∀ s, (c.zoom get set).body s = (set s (c.body (get s)).1, (c.body (get s)).2) :=
    fun _ => rfl
  -- induction on the rounds of the loop
  induction woken generalizing s with
  | zero =>
    rw [alone, alone, hbody, hpatience, attempt_zoom]
    obtain ⟨x, out⟩ := c.body (get s)
    cases out with
    | done ret wake => rfl
    | unmet ret =>
      simp only [finish_zoom _ _ hset hget]
      split <;> rfl
  -- woken once more, the loop goes round
  | succ n ih =>
    rw [alone, alone, hbody, hpatience, attempt_zoom]
    obtain ⟨x, out⟩ := c.body (get s)
    cases out with
    | done ret wake => rfl
    | unmet ret =>
      simp only [finish_zoom _ _ hset hget, ih, hget, hset]
      split <;> rfl

end

end SyncCall

end SyncProtocol
