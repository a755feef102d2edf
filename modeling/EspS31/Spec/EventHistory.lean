import EspS31.ForStd.CallHistory
import EspS31.Native.Event

/-!
# Event bits over a run

One event group and any number of threads that set, clear and wait for its bits.

## Key results

- `run_bits`: the bits of the group are what its history makes them
- `event_history`: a wait with clear-on-exit consumes the bits it returns, other waits
  leave the group alone, and every wait returns the bits of its last section
-/

namespace EspS31.Rtos

open SyncProtocol

/-! ## The calls on one group -/

/-- The calls on an event group. -/
inductive EventOp where
  | xEventGroupSetBits (bits : UInt32)
  | xEventGroupClearBits (bits : UInt32)
  | xEventGroupWaitBits (bits : UInt32) (clearOnExit waitAllBits : Bool) (timeout : TickType)
deriving DecidableEq, Repr

/-- Threads that work on one event group. -/
abbrev EventConfig := Config Thread Unit S31EventGroup Ret TickType EventOp

/-- The functions on an event group. -/
def eventCode : Entry Thread Unit S31EventGroup Ret TickType EventOp
  | _, .xEventGroupSetBits bits, g => (g, xEventGroupSetBits () bits g)
  | _, .xEventGroupClearBits bits, g => (g, xEventGroupClearBits () bits g)
  | th, .xEventGroupWaitBits bits clearOnExit waitAllBits timeout, g =>
    (g, xEventGroupWaitBits th () bits clearOnExit waitAllBits timeout g)

/-- The section of a call and the one it may close with. -/
inductive EventCall : EventOp → SyncCall Unit S31EventGroup Ret TickType → Prop where
  | set {bits c}
    (body : ∀ g, c.body g = ({ g with bits := g.bits ||| bits }, .done (.value (g.bits ||| bits)) true))
    (closing : ∀ late, c.closing late = none) : EventCall (.xEventGroupSetBits bits) c
  | clear {bits c}
    (body : ∀ g, c.body g = ({ g with bits := g.bits &&& ~~~bits }, .done (.value g.bits) false))
    (closing : ∀ late, c.closing late = none) : EventCall (.xEventGroupClearBits bits) c
  | wait {bits clearOnExit waitAllBits timeout c}
    (body : c.body = waitBitsSection bits clearOnExit waitAllBits)
    (early : c.closing false = none)
    (late : c.closing true = some (waitBitsRecheck bits clearOnExit waitAllBits)) :
    EventCall (.xEventGroupWaitBits bits clearOnExit waitAllBits timeout) c

/-- Each call is one of the three kinds. -/
theorem eventCall_of_calls {th : Thread} {op : EventOp}
    {c : SyncCall Unit S31EventGroup Ret TickType} (h : Calls eventCode th op c) :
    EventCall op c := by
  obtain ⟨g, g', h⟩ := h
  -- each function has one way to a section, behind its test of the group
  cases op with
  | xEventGroupSetBits bits =>
    simp only [eventCode, xEventGroupSetBits, Prod.mk.injEq] at h
    obtain ⟨-, h⟩ := h
    split at h
    · obtain rfl := Sum.inr.inj h
      exact .set (fun _ => rfl) fun _ => rfl
    · exact nomatch h
  | xEventGroupClearBits bits =>
    simp only [eventCode, xEventGroupClearBits, Prod.mk.injEq] at h
    obtain ⟨-, h⟩ := h
    split at h
    · obtain rfl := Sum.inr.inj h
      exact .clear (fun _ => rfl) fun _ => rfl
    · exact nomatch h
  | xEventGroupWaitBits bits clearOnExit waitAllBits timeout =>
    obtain ⟨-, h⟩ := Prod.mk.inj h
    unfold xEventGroupWaitBits at h
    split at h
    · obtain rfl := Sum.inr.inj h
      exact .wait rfl rfl rfl
    · exact nomatch h

/-- A call on a group with its context goes on to its section. -/
private theorem eventCode_live {th : Thread} {op : EventOp} {g g' : S31EventGroup} {r : Ret}
    (hlive : g.waitContext.isSome) : eventCode th op g ≠ (g', .inl r) := by
  intro h
  cases op <;>
    simp only [eventCode, xEventGroupSetBits, xEventGroupClearBits, xEventGroupWaitBits,
      if_pos hlive] at h <;> exact nomatch h

/-- Entering a call leaves the group. -/
private theorem eventCode_group {th : Thread} {op : EventOp} {g g' : S31EventGroup}
    {x : Ret ⊕ SyncCall Unit S31EventGroup Ret TickType} (h : eventCode th op g = (g', x)) :
    g' = g := by
  cases op <;> exact (Prod.mk.inj h).1.symm

/-! ## What a step does to the bits -/

/-- The bits after an event. -/
def eventBits (bits : UInt32) : Event EventOp Ret → UInt32
  | .locked (.xEventGroupSetBits new) _ => bits ||| new
  | .locked (.xEventGroupClearBits old) _ => bits &&& ~~~old
  | .locked (.xEventGroupWaitBits mask true _ _) (.done _ _) => bits &&& ~~~mask
  | .closed (.xEventGroupWaitBits mask true all _) (.value v) =>
    if s31EgMatch v mask all then bits &&& ~~~mask else bits
  | _ => bits

/-- The bits after a history. -/
def bitsAfter (bits : UInt32) (log : List (Thread × Event EventOp Ret)) : UInt32 :=
  log.foldl (fun bits x => eventBits bits x.2) bits

/-- The bits after two histories in a row. -/
private theorem bitsAfter_append (bits : UInt32) (log log' : List (Thread × Event EventOp Ret)) :
    bitsAfter bits (log ++ log') = bitsAfter (bitsAfter bits log) log' :=
  List.foldl_append

/-- An event that decides nothing leaves the bits. -/
private theorem eventBits_quiet {bits : UInt32} {e : Event EventOp Ret} (h : e.Quiet) :
    eventBits bits e = bits := by
  cases e with
  | gaveUp | woke | silent => rfl
  | _ => exact h.elim

/-- What a section of a wait finds and leaves. -/
theorem waitBitsSection_cases (bits : UInt32) (clear all : Bool) (g : S31EventGroup) :
    (s31EgMatch g.bits bits all = true ∧
      waitBitsSection bits clear all g =
        ({ g with bits := if clear then g.bits &&& ~~~bits else g.bits },
          .done (.value g.bits) false)) ∨
    (s31EgMatch g.bits bits all = false ∧
      waitBitsSection bits clear all g = (g, .unmet (.value g.bits))) := by
  unfold waitBitsSection S31EventGroup.consume
  cases hmatch : s31EgMatch g.bits bits all with
  | false => exact .inr ⟨rfl, rfl⟩
  | true => cases clear <;> exact .inl ⟨rfl, rfl⟩

/-- The section of any call, by its outcome. -/
private theorem eventBits_locked {op : EventOp} {c : SyncCall Unit S31EventGroup Ret TickType}
    (hc : EventCall op c) {g g' : S31EventGroup} {out : Outcome Ret} (h : c.body g = (g', out)) :
    g'.waitContext = g.waitContext ∧ g'.bits = eventBits g.bits (.locked op out) := by
  cases hc with
  | set hbody _ | clear hbody _ =>
    rw [hbody] at h
    obtain ⟨rfl, rfl⟩ := Prod.mk.inj h
    exact ⟨rfl, rfl⟩
  | @wait bits clear all timeout _ hbody _ _ =>
    rw [hbody] at h
    -- the bits are found, and cleared when that was asked for, or nothing is done
    obtain ⟨hmatch, heq⟩ | ⟨hmatch, heq⟩ := waitBitsSection_cases bits clear all g
    · rw [heq] at h
      obtain ⟨rfl, rfl⟩ := Prod.mk.inj h
      cases clear <;> exact ⟨rfl, rfl⟩
    · rw [heq] at h
      obtain ⟨rfl, rfl⟩ := Prod.mk.inj h
      cases clear <;> exact ⟨rfl, rfl⟩

/-- A wait that ends clears its bits when it asked for that. -/
private theorem eventBits_closed {op : EventOp} {c : SyncCall Unit S31EventGroup Ret TickType}
    (hc : EventCall op c) {late : Bool} {f : S31EventGroup → S31EventGroup × Ret}
    (hf : c.closing late = some f) {g g' : S31EventGroup} {r : Ret} (h : f g = (g', r)) :
    g'.waitContext = g.waitContext ∧ g'.bits = eventBits g.bits (.closed op r) ∧
      r = .value g.bits := by
  cases hc with
  | set _ hclosing | clear _ hclosing => exact nomatch (hclosing late).symm.trans hf
  | @wait bits clear all timeout _ _ hearly hlate =>
    -- only a wait that timed out has a closing section
    have hrecheck : f = waitBitsRecheck bits clear all := by
      cases late with
      | false => exact nomatch hearly.symm.trans hf
      | true => exact (Option.some.inj (hlate.symm.trans hf)).symm
    subst hrecheck
    obtain ⟨rfl, rfl⟩ := Prod.mk.inj h
    unfold S31EventGroup.consume
    cases hmatch : s31EgMatch g.bits bits all <;> cases clear <;> simp [eventBits, hmatch]

section

variable {ok : EventConfig → Thread → Choice EventOp TickType → Prop} {cfg₀ cfg cfg' : EventConfig}
  {log : List (Thread × Event EventOp Ret)} {t : Thread} {e : Event EventOp Ret}

/-- Every event changes the bits as the history says. -/
private theorem atomic_bits {op : EventOp} {g g' : S31EventGroup}
    (h : Atomic eventCode t op g e g') :
    g'.waitContext = g.waitContext ∧ g'.bits = eventBits g.bits e := by
  cases h with
  | refused h | entered h =>
    obtain rfl := eventCode_group h
    exact ⟨rfl, rfl⟩
  | locked hc h => exact eventBits_locked (eventCall_of_calls hc) h
  | closed hc hf h =>
    obtain ⟨hsame, hnew, -⟩ := eventBits_closed (eventCall_of_calls hc) hf h
    exact ⟨hsame, hnew⟩

/-- Every step changes the bits as the history says. -/
theorem step_bits (hsound : cfg.Sound eventCode) (h : Step eventCode cfg t e cfg') :
    cfg'.shared.bits = eventBits cfg.shared.bits e := by
  obtain ⟨op, hat⟩ | ⟨hquiet, hsame⟩ := h.atomicOf (R := fun t op c _ => Calls eventCode t op c) (hsound t)
  · exact (atomic_bits hat).2
  · rw [hsame, eventBits_quiet hquiet]

/-- The bits are those of the history and the context stays. -/
theorem run_bits (hrun : Run eventCode ok cfg₀ log cfg) (hidle : ∀ t, cfg₀.pc t = .idle) :
    cfg.shared.bits = bitsAfter cfg₀.shared.bits log ∧
      cfg.shared.waitContext = cfg₀.shared.waitContext := by
  refine hrun.shared_rule (P := fun log g => g.bits = bitsAfter cfg₀.shared.bits log ∧
    g.waitContext = cfg₀.shared.waitContext) (Config.sound_of_idle hidle) ⟨rfl, rfl⟩ ?_ ?_
  · rintro log g t op e g' ⟨hbits, hctx⟩ hat
    obtain ⟨hsame, hnew⟩ := atomic_bits hat
    rw [bitsAfter_append, ← hbits]
    exact ⟨hnew, hsame.trans hctx⟩
  · rintro log g t e ⟨hbits, hctx⟩ hquiet
    rw [bitsAfter_append, ← hbits]
    exact ⟨(eventBits_quiet hquiet).symm, hctx⟩

/-! ## What a wait returns -/

/-- A section that decides a wait returns the bits it has found. -/
private theorem wait_value (hsound : cfg.Sound eventCode) (h : Step eventCode cfg t e cfg')
    (hsec : e.IsSection) {mask : UInt32} {clear all : Bool} {timeout : TickType} {ret : Ret}
    (hdec : e.decided = some (.xEventGroupWaitBits mask clear all timeout, ret)) :
    ret = .value cfg.shared.bits := by
  cases e with
  | locked op out =>
    obtain ⟨c, start, seq, hpc, hbody⟩ := h.locked_inv
    cases out with
    | unmet r => exact nomatch hdec
    | done r wake =>
      obtain ⟨rfl, rfl⟩ := Prod.mk.inj (Option.some.inj hdec)
      cases eventCall_of_calls (hsound t _ c (by rw [hpc]; rfl)) with
      | wait hwait _ _ =>
        rw [hwait] at hbody
        obtain ⟨-, heq⟩ | ⟨-, heq⟩ := waitBitsSection_cases mask clear all cfg.shared
        · rw [heq] at hbody
          exact (Outcome.done.inj (Prod.mk.inj hbody).2).1.symm
        · rw [heq] at hbody
          exact nomatch (Prod.mk.inj hbody).2
  -- the wait timed out and looked once more
  | closed op r =>
    obtain ⟨rfl, rfl⟩ := Prod.mk.inj (Option.some.inj hdec)
    obtain ⟨c, late, f, hpc, hf, hs⟩ := h.closed_inv
    exact (eventBits_closed (eventCall_of_calls (hsound t _ c (by rw [hpc]; rfl))) hf hs).2.2
  | _ => exact hsec.elim

/-- A section that finds the condition unmet reports the bits, which do not match. -/
private theorem wait_unmet (hsound : cfg.Sound eventCode) {mask : UInt32} {clear all : Bool}
    {timeout : TickType} {ret : Ret}
    (h : Step eventCode cfg t
      (.locked (.xEventGroupWaitBits mask clear all timeout) (.unmet ret)) cfg') :
    ret = .value cfg.shared.bits ∧ s31EgMatch cfg.shared.bits mask all = false := by
  obtain ⟨c, start, seq, hpc, hbody⟩ := h.locked_inv
  have hc := eventCall_of_calls (hsound t _ c (by rw [hpc]; rfl))
  cases hc with
  | wait hwait _ _ =>
    rw [hwait] at hbody
    obtain ⟨-, heq⟩ | ⟨hmatch, heq⟩ := waitBitsSection_cases mask clear all cfg.shared
    · rw [heq] at hbody
      exact nomatch (Prod.mk.inj hbody).2
    · rw [heq] at hbody
      exact ⟨(Outcome.unmet.inj (Prod.mk.inj hbody).2).symm, hmatch⟩

end

/-! ## Bits -/

/-- Bit `b` of a word. -/
def hasBit (v : UInt32) (b : Nat) : Bool := v.toBitVec.getLsbD b

/-- The bits of an `or`. -/
private theorem hasBit_or (v w : UInt32) (b : Nat) :
    hasBit (v ||| w) b = (hasBit v b || hasBit w b) := by
  simp [hasBit]

/-- The bits that are left. -/
private theorem hasBit_clear (v w : UInt32) (b : Nat) :
    hasBit (v &&& ~~~w) b = (hasBit v b && !hasBit w b) := by
  unfold hasBit
  by_cases hb : b < 32
  · simp [hb]
  · simp [BitVec.getLsbD_of_ge _ _ (Nat.not_lt.mp hb)]

/-- The event is a `SetBits` of `b` taking effect. -/
def SetsBit (b : Nat) (e : Event EventOp Ret) : Prop :=
  ∃ new out, e = .locked (.xEventGroupSetBits new) out ∧ hasBit new b

/-- The event decides a wait with clear-on-exit that returns `b` and waited for it. -/
def ConsumesBit (b : Nat) (e : Event EventOp Ret) : Prop :=
  ∃ mask all timeout v, e.decided = some (.xEventGroupWaitBits mask true all timeout, .value v) ∧
    s31EgMatch v mask all ∧ hasBit mask b ∧ hasBit v b

/-- A bit that is clear stays so, unless the event sets it. -/
private theorem hasBit_eventBits {bits : UInt32} {b : Nat} {e : Event EventOp Ret}
    (hset : ¬ SetsBit b e)
    (hbit : hasBit bits b = false) : hasBit (eventBits bits e) b = false := by
  unfold eventBits
  split
  · next new out =>
    -- the event sets other bits only
    have hnew : hasBit new b = false := by
      cases h : hasBit new b with
      | false => rfl
      | true => exact absurd ⟨new, out, rfl, h⟩ hset
    rw [hasBit_or, hbit, hnew]
    rfl
  · rw [hasBit_clear, hbit]
    rfl
  · rw [hasBit_clear, hbit]
    rfl
  · split
    · rw [hasBit_clear, hbit]
      rfl
    · exact hbit
  · exact hbit

/-- A bit that is clear stays so until it is set. -/
private theorem hasBit_bitsAfter {bits : UInt32} {b : Nat} {log : List (Thread × Event EventOp Ret)}
    (hset : ∀ x ∈ log, ¬ SetsBit b x.2) (hbit : hasBit bits b = false) :
    hasBit (bitsAfter bits log) b = false := by
  induction log generalizing bits with
  | nil => exact hbit
  | cons x log ih =>
    exact ih (fun y hy => hset y (List.mem_cons_of_mem _ hy))
      (hasBit_eventBits (hset x (List.mem_cons_self ..)) hbit)

/-- A section that consumes a bit clears it. -/
private theorem hasBit_consumed (bits : UInt32) {b : Nat} {e : Event EventOp Ret}
    (hsec : e.IsSection)
    (h : ConsumesBit b e) : hasBit (eventBits bits e) b = false := by
  obtain ⟨mask, all, timeout, v, hdec, hmatch, hmask, -⟩ := h
  cases e with
  | locked op out =>
    cases out with
    | unmet r => exact nomatch hdec
    | done r wake =>
      obtain ⟨rfl, rfl⟩ := Prod.mk.inj (Option.some.inj hdec)
      rw [eventBits, hasBit_clear, hmask, Bool.not_true, Bool.and_false]
  | closed op r =>
    obtain ⟨rfl, rfl⟩ := Prod.mk.inj (Option.some.inj hdec)
    rw [eventBits, if_pos hmatch, hasBit_clear, hmask, Bool.not_true, Bool.and_false]
  | _ => exact hsec.elim

/-! ## Histories -/

/-- What the history of a run says about its waits. -/
structure EventHistory (ok : EventConfig → Thread → Choice EventOp TickType → Prop)
    (cfg₀ : EventConfig) (log : List (Thread × Event EventOp Ret)) : Prop where
  /-- Two waits that consume a bit have a `SetBits` of it between them. -/
  once : ∀ pre mid post t e t' e' b, log = pre ++ (t, e) :: mid ++ (t', e') :: post →
    ConsumesBit b e → ConsumesBit b e' → ∃ x ∈ mid, SetsBit b x.2
  /-- No event of a wait that failed or does not clear, from its entry to the event
      that decides it, changes the bits. -/
  untouched : ∀ pre post t e mask clear all timeout v, log = pre ++ (t, e) :: post →
    e.decided = some (.xEventGroupWaitBits mask clear all timeout, .value v) →
    s31EgMatch v mask all = false ∨ clear = false →
    ∀ pre₁ e₁ mid, pre ++ [(t, e)] = pre₁ ++ (t, e₁) :: mid →
      (∀ x ∈ mid, x.1 = t → ¬ x.2.IsEnter) →
      ∀ ch cfg₁ cfg₂, Run eventCode ok cfg₀ pre₁ cfg₁ →
        step eventCode cfg₁ t ch = some (e₁, cfg₂) → cfg₂.shared.bits = cfg₁.shared.bits
  /-- A wait returns the bits the group had at its last section. -/
  exact : ∀ pre post t e mask clear all timeout ret, log = pre ++ (t, e) :: post →
    e.decided = some (.xEventGroupWaitBits mask clear all timeout, ret) →
    ∃ pre₁ e₁ mid, pre ++ [(t, e)] = pre₁ ++ (t, e₁) :: mid ∧ e₁.IsSection ∧
      (∀ x ∈ mid, x.1 = t → ¬ x.2.IsSection ∧ ¬ x.2.IsEnter) ∧
      ∀ cfg₁, Run eventCode ok cfg₀ pre₁ cfg₁ → ret = .value cfg₁.shared.bits

section

variable {ok : EventConfig → Thread → Choice EventOp TickType → Prop} {cfg₀ cfg : EventConfig}
  {log pre post : List (Thread × Event EventOp Ret)} {t : Thread} {e : Event EventOp Ret}

/-- A group that has its context decides no call at its entry. -/
theorem run_decided_not_enter (hrun : Run eventCode ok cfg₀ (pre ++ (t, e) :: post) cfg)
    (hidle : ∀ t, cfg₀.pc t = .idle) (hlive : cfg₀.shared.waitContext.isSome) {op : EventOp}
    {ret : Ret} (hdec : e.decided = some (op, ret)) : ¬ e.IsEnter := by
  intro henter
  obtain ⟨ch, cfg₁, cfg₂, hpre, -, hstep, -⟩ := hrun.split
  have hlive₁ : cfg₁.shared.waitContext.isSome := (run_bits hpre hidle).2 ▸ hlive
  cases e with
  | enter op r =>
    cases r with
    | none => exact nomatch hdec
    | some r => exact eventCode_live hlive₁ (Step.of_step hstep).refused_inv
  | _ => exact henter

/-- The last section of a wait and the bits it has found. -/
private theorem run_wait_section (hrun : Run eventCode ok cfg₀ (pre ++ (t, e) :: post) cfg)
    (hidle : ∀ t, cfg₀.pc t = .idle) (hlive : cfg₀.shared.waitContext.isSome) {mask : UInt32}
    {clear all : Bool} {timeout : TickType} {ret : Ret}
    (hdec : e.decided = some (.xEventGroupWaitBits mask clear all timeout, ret)) :
    ∃ pre₁ e₁ mid, pre ++ [(t, e)] = pre₁ ++ (t, e₁) :: mid ∧ e₁.IsSection ∧
      (∀ x ∈ mid, x.1 = t → ¬ x.2.IsSection ∧ ¬ x.2.IsEnter) ∧
      ret = .value (bitsAfter cfg₀.shared.bits pre₁) ∧
      (e.IsSection ∨ s31EgMatch (bitsAfter cfg₀.shared.bits pre₁) mask all = false) := by
  obtain ⟨pre₁, e₁, mid, hsplit, he₁, hmid⟩ :=
    hrun.last_section hidle hdec (run_decided_not_enter hrun hidle hlive hdec)
  have hlog : pre ++ (t, e) :: post = pre₁ ++ (t, e₁) :: (mid ++ post) := by
    rw [← List.singleton_append, ← List.append_assoc, hsplit]
    simp
  obtain ⟨ch, cfg₁, cfg₂, hpre₁, -, hstep, -⟩ := (hlog ▸ hrun).split
  have hsound := hpre₁.sound (Config.sound_of_idle hidle)
  have hbits := (run_bits hpre₁ hidle).1
  refine ⟨pre₁, e₁, mid, hsplit, ?_⟩
  -- the last section decided, or it found nothing and the wait gave up
  obtain ⟨rfl, hsec⟩ | rfl := he₁
  · exact ⟨hsec, hmid, by rw [wait_value hsound (Step.of_step hstep) hsec hdec, hbits], .inl hsec⟩
  · obtain ⟨hret, hno⟩ := wait_unmet hsound (Step.of_step hstep)
    exact ⟨trivial, hmid, by rw [hret, hbits], .inr (hbits ▸ hno)⟩

/-- A wait that consumes a bit does so in a section that finds it. -/
private theorem run_consumes (hrun : Run eventCode ok cfg₀ (pre ++ (t, e) :: post) cfg)
    (hidle : ∀ t, cfg₀.pc t = .idle) (hlive : cfg₀.shared.waitContext.isSome) {b : Nat}
    (h : ConsumesBit b e) : e.IsSection ∧ hasBit (bitsAfter cfg₀.shared.bits pre) b = true := by
  obtain ⟨mask, all, timeout, v, hdec, hmatch, -, hbit⟩ := h
  obtain ⟨pre₁, -, -, -, -, -, hret, hsec⟩ := run_wait_section hrun hidle hlive hdec
  obtain hsec | hno := hsec
  · obtain ⟨ch, cfg₁, cfg₂, hpre, -, hstep, -⟩ := hrun.split
    have hvalue := wait_value (hpre.sound (Config.sound_of_idle hidle)) (Step.of_step hstep) hsec hdec
    rw [(run_bits hpre hidle).1] at hvalue
    obtain rfl := Ret.value.inj hvalue
    exact ⟨hsec, hbit⟩
  · obtain rfl := Ret.value.inj hret
    exact nomatch hmatch.symm.trans hno

/-- The event that decides a wait which failed or does not clear leaves the bits alone. -/
private theorem step_untouched {cfg' : EventConfig} (hsound : cfg.Sound eventCode)
    (h : Step eventCode cfg t e cfg') {mask v : UInt32} {clear all : Bool} {timeout : TickType}
    (hdec : e.decided = some (.xEventGroupWaitBits mask clear all timeout, .value v))
    (hno : s31EgMatch v mask all = false ∨ clear = false) :
    cfg'.shared.bits = cfg.shared.bits := by
  rw [step_bits hsound h]
  cases e with
  | locked op out =>
    obtain ⟨c, start, seq, hpc, hbody⟩ := h.locked_inv
    cases out with
    | unmet r => exact nomatch hdec
    | done r wake =>
      obtain ⟨rfl, rfl⟩ := Prod.mk.inj (Option.some.inj hdec)
      cases eventCall_of_calls (hsound t _ c (by rw [hpc]; rfl)) with
      | wait hwait _ _ =>
        rw [hwait] at hbody
        obtain ⟨hmatch, heq⟩ | ⟨-, heq⟩ := waitBitsSection_cases mask clear all cfg.shared
        -- the wait has matched, so it was not asked to clear
        · rw [heq] at hbody
          obtain rfl := Ret.value.inj (Outcome.done.inj (Prod.mk.inj hbody).2).1
          obtain hno | rfl := hno
          · exact nomatch hmatch.symm.trans hno
          · rfl
        · rw [heq] at hbody
          exact nomatch (Prod.mk.inj hbody).2
  | closed op r =>
    obtain ⟨rfl, rfl⟩ := Prod.mk.inj (Option.some.inj hdec)
    obtain hno | rfl := hno
    -- a wait that does not match clears nothing, nor does one that was not asked to
    · cases clear <;> simp [eventBits, hno]
    · rfl
  | _ => rfl

/-- For every run of any number of threads on one group. -/
theorem event_history (hrun : Run eventCode ok cfg₀ log cfg) (hidle : ∀ t, cfg₀.pc t = .idle)
    (hlive : cfg₀.shared.waitContext.isSome) : EventHistory ok cfg₀ log where
  once pre mid post t e t' e' b hlog hfirst hsecond := by
    by_contra hnone
    have hset : ∀ x ∈ mid, ¬ SetsBit b x.2 := fun x hx hsets => hnone ⟨x, hx, hsets⟩
    subst hlog
    have hsplit : pre ++ (t, e) :: mid ++ (t', e') :: post =
        pre ++ (t, e) :: (mid ++ (t', e') :: post) := by simp
    obtain ⟨hsec, -⟩ := run_consumes (hsplit ▸ hrun) hidle hlive hfirst
    obtain ⟨-, hbit⟩ := run_consumes hrun hidle hlive hsecond
    -- the first wait has cleared the bit and nothing has set it since
    have hclear := hasBit_bitsAfter hset
      (hasBit_consumed (bitsAfter cfg₀.shared.bits pre) hsec hfirst)
    have hafter : bitsAfter cfg₀.shared.bits (pre ++ (t, e) :: mid) =
        bitsAfter (eventBits (bitsAfter cfg₀.shared.bits pre) e) mid := bitsAfter_append _ _ _
    rw [hafter, hclear] at hbit
    exact nomatch hbit
  untouched pre post t e mask clear all timeout v hlog hdec hno := by
    intro pre₁ e₁ mid hsplit hmid ch cfg₁ cfg₂ hpre₁ hstep
    subst hlog
    have hsound := hpre₁.sound (Config.sound_of_idle hidle)
    -- the last step of the call decides; those before it change no bits
    obtain ⟨-, rfl⟩ | hopen := hrun.call_event_cases hdec hsplit hmid
    · exact step_untouched hsound (Step.of_step hstep) hdec hno
    · rw [step_bits hsound (Step.of_step hstep)]
      obtain rfl | rfl | ⟨ret, rfl⟩ := hopen
      · rfl
      · rfl
      · cases clear <;> rfl
  exact pre post t e mask clear all timeout ret hlog hdec := by
    subst hlog
    obtain ⟨pre₁, e₁, mid, hsplit, hsec, hmid, hret, -⟩ := run_wait_section hrun hidle hlive hdec
    refine ⟨pre₁, e₁, mid, hsplit, hsec, hmid, fun cfg₁ hpre₁ => ?_⟩
    rw [hret, (run_bits hpre₁ hidle).1]

end

/-- A group with no bits set, and nobody in a call. -/
def freshGroup : EventConfig where
  shared := ⟨0, some 3⟩
  seq := fun _ => 0
  pc := fun _ => .idle

/-- Two waits of tasks 10 and 20 that both return bit 0, each after a set of it. -/
theorem event_history_twice :
    ∃ log cfg, Run eventCode (fun _ _ _ => True) freshGroup log cfg ∧
      EventHistory (fun _ _ _ => True) freshGroup log ∧
      log.countP (fun x => x.2.decided.isSome) = 4 := by
  have hrun : Run eventCode (fun _ _ _ => True) freshGroup _ _ :=
    Run.of_exec (fun _ _ _ => trivial) (show exec eventCode freshGroup
    [(⟨3, 30, false⟩, .call (.xEventGroupSetBits 1) 0), (⟨3, 30, false⟩, .go 0),
      (⟨3, 30, false⟩, .go 0),
      (⟨1, 10, false⟩, .call (.xEventGroupWaitBits 1 true true 5) 0), (⟨1, 10, false⟩, .go 0),
      (⟨1, 10, false⟩, .go 0),
      (⟨3, 30, false⟩, .call (.xEventGroupSetBits 1) 0), (⟨3, 30, false⟩, .go 0),
      (⟨2, 20, false⟩, .call (.xEventGroupWaitBits 1 true true 5) 0), (⟨2, 20, false⟩, .go 0),
      (⟨2, 20, false⟩, .go 0)] = some _ from rfl)
  exact ⟨_, _, hrun, event_history hrun (fun _ => rfl) rfl, by decide⟩

end EspS31.Rtos
