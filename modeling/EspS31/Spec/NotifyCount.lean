import EspS31.Native.Notify

/-!
# Counting notifications

A task that is notified by increments only and consumes its notifications with
`ulTaskGenericNotifyTake` only.  Any number of tasks and ISRs give; the takes may
clear the value or count it down, with any timeouts.

Every give is one locked section, and so is every successful take.  The section
that ends a take which got nothing resets the state but leaves the value alone,
so a give that lands just before it is still there for the next take.

## Key results

- `step_balance`: one step moves the value as it moves the two totals
- `gives_conserved`: value and consumption together are the gives, modulo `2 ^ 32`
-/

namespace EspS31.Rtos.Counting

open SyncProtocol

/-! ## The calls on one task -/

/-- The calls that give and take values. -/
inductive CountOp where
  | xTaskGenericNotify (value : UInt32) (previous : Bool)
  | vTaskGenericNotifyGiveFromISR
  | ulTaskGenericNotifyTake (clear : Bool) (timeout : TickType)
deriving DecidableEq, Repr

/-- The notifications carry action 2, and all calls index 0. -/
def countCode : Entry Thread Unit S31Tcb Ret TickType CountOp
  | _, .xTaskGenericNotify value previous, t => (t, xTaskGenericNotify () 0 value 2 previous t)
  | _, .vTaskGenericNotifyGiveFromISR, t => (t, vTaskGenericNotifyGiveFromISR () 0 t)
  | _, .ulTaskGenericNotifyTake clear timeout, t =>
    (t, ulTaskGenericNotifyTake () 0 clear timeout t)

/-- Threads that work on one task's value. -/
abbrev CountConfig := Config Thread Unit S31Tcb Ret TickType CountOp

/-! ## The two totals -/

/-- How many gives a decided call counts for. -/
def CountOp.given : CountOp × Ret → Nat
  | (.xTaskGenericNotify _ _, _) | (.vTaskGenericNotifyGiveFromISR, _) => 1
  | (.ulTaskGenericNotifyTake _ _, _) => 0

/-- What a decided call consumes: a clearing take the value it returns, any
    other take one, if it returns a value at all. -/
def CountOp.taken : CountOp × Ret → Nat
  | (.ulTaskGenericNotifyTake clear _, .value v) =>
    if clear then v.toNat else if v = 0 then 0 else 1
  | _ => 0

/-- The number of gives in a history. -/
def gives (log : List (Thread × Event CountOp Ret)) : Nat :=
  (log.map fun x => (x.2.decided.map CountOp.given).getD 0).sum

/-- What the takes of a history have consumed together. -/
def consumed (log : List (Thread × Event CountOp Ret)) : Nat :=
  (log.map fun x => (x.2.decided.map CountOp.taken).getD 0).sum

section

variable (log : List (Thread × Event CountOp Ret)) (th : Thread) (e : Event CountOp Ret)

/-- One event more, and what it gives. -/
theorem gives_snoc :
    gives (log ++ [(th, e)]) = gives log + (e.decided.map CountOp.given).getD 0 := by
  simp only [gives, List.map_append, List.sum_append, List.map_cons, List.map_nil,
    List.sum_singleton]

/-- One event more, and what it takes. -/
private theorem consumed_snoc :
    consumed (log ++ [(th, e)]) = consumed log + (e.decided.map CountOp.taken).getD 0 := by
  simp only [consumed, List.map_append, List.sum_append, List.map_cons, List.map_nil,
    List.sum_singleton]

end

/-! ## Sections -/

/-- The value after a step and what the step consumed are the value before it
    and what the step gave. -/
def Balanced (t : S31Tcb) (e : Event CountOp Ret) (t' : S31Tcb) : Prop :=
  (t'.notifyValue.toNat + (e.decided.map CountOp.taken).getD 0) % 2 ^ 32 =
    (t.notifyValue.toNat + (e.decided.map CountOp.given).getD 0) % 2 ^ 32

/-- A step that decides nothing and keeps the value. -/
private theorem balanced_of_undecided {t t' : S31Tcb} {e : Event CountOp Ret}
    (he : e.decided = none)
    (hvalue : t'.notifyValue = t.notifyValue) : Balanced t e t' := by
  simp only [Balanced, he, hvalue, Option.map_none]

/-- A give adds one to the value, also when that wraps. -/
private theorem give_balanced {op : CountOp} (hgive : ∀ ret, CountOp.given (op, ret) = 1)
    (htake : ∀ ret, CountOp.taken (op, ret) = 0) (value : UInt32) (previous : Bool) (t : S31Tcb) :
    Balanced t (.locked op (SyncCall.onceBody (notifySection value 2 previous) t).2)
      (SyncCall.onceBody (notifySection value 2 previous) t).1 := by
  simp only [Balanced, SyncCall.onceBody, notifySection, notifyAction, Event.decided,
    Option.map_some, Option.getD_some, hgive, htake, UInt32.toNat_add]
  rw [Nat.add_zero, Nat.mod_mod, UInt32.toNat_one]

/-- A take section takes what its return value says, or finds nothing. -/
private theorem take_balanced (clear : Bool) (timeout : TickType) (t : S31Tcb) :
    Balanced t (.locked (.ulTaskGenericNotifyTake clear timeout) (notifyTakeSection clear t).2)
      (notifyTakeSection clear t).1 := by
  -- with nothing given the call goes on to wait
  by_cases hzero : t.notifyValue = 0
  · rw [notifyTakeSection, if_neg (not_not.mpr hzero)]
    exact balanced_of_undecided rfl rfl
  · rw [notifyTakeSection, if_pos hzero]
    simp only [Balanced, Event.decided, Option.map_some, Option.getD_some, CountOp.given,
      CountOp.taken, Nat.add_zero]
    -- it takes all of the value, or one of it
    cases clear with
    | true =>
      simp only [if_true, UInt32.toNat_zero, Nat.zero_add]
    | false =>
      have hpos : 1 ≤ t.notifyValue.toNat := by
        have := mt UInt32.toNat_inj.mp hzero
        rw [UInt32.toNat_zero] at this
        omega
      have hsub : (t.notifyValue - 1).toNat = t.notifyValue.toNat - 1 :=
        UInt32.toNat_sub_of_le _ _ (UInt32.le_iff_toNat_le.mpr hpos)
      simp only [Bool.false_eq_true, if_false, hzero, hsub]
      rw [Nat.sub_add_cancel hpos]

/-! ## One step -/

/-- What the code of a call can be. -/
private theorem countCode_calls {th : Thread} {op : CountOp} {c : SyncCall Unit S31Tcb Ret TickType}
    (h : Calls countCode th op c) :
    ((∀ ret, CountOp.given (op, ret) = 1) ∧ (∀ ret, CountOp.taken (op, ret) = 0) ∧
      ∃ value previous, c = .once () (notifySection value 2 previous)) ∨
    ∃ clear timeout, op = .ulTaskGenericNotifyTake clear timeout ∧
      c.body = notifyTakeSection clear ∧ ∀ late, c.closing late = some notifyTakeClose := by
  obtain ⟨t, t', h⟩ := h
  cases op with
  | xTaskGenericNotify value previous =>
    obtain rfl := Sum.inr.inj (Prod.mk.inj h).2
    exact .inl ⟨fun _ => rfl, fun _ => rfl, value, previous, rfl⟩
  | vTaskGenericNotifyGiveFromISR =>
    obtain rfl := Sum.inr.inj (Prod.mk.inj h).2
    exact .inl ⟨fun _ => rfl, fun _ => rfl, 0, false, rfl⟩
  | ulTaskGenericNotifyTake clear timeout =>
    obtain rfl := Sum.inr.inj (Prod.mk.inj h).2
    exact .inr ⟨clear, timeout, rfl, rfl, fun late => by cases late <;> rfl⟩

/-- With index 0 no call is turned away. -/
private theorem countCode_not_refused {th : Thread} {op : CountOp} {t t' : S31Tcb} {ret : Ret} :
    countCode th op t ≠ (t', .inl ret) := by
  intro h
  cases op <;> exact nomatch (Prod.mk.inj h).2

/-- Entering a call leaves the value. -/
private theorem countCode_tcb {th : Thread} {op : CountOp} {t t' : S31Tcb}
    {x : Ret ⊕ SyncCall Unit S31Tcb Ret TickType} (h : countCode th op t = (t', x)) : t' = t := by
  cases op <;> exact (Prod.mk.inj h).1.symm

/-- A call whose section reports `unmet` is a take, which closes with a section
    of its own when it gives up. -/
private theorem giveUp_undecided {th : Thread} {op : CountOp}
    {c : SyncCall Unit S31Tcb Ret TickType}
    {ret : Ret} (h : Calls countCode th op c) (hunmet : ∃ t t', c.body t = (t', .unmet ret))
    (late : Bool) : (Pc.giveUp op c ret late).1.decided = none := by
  obtain ⟨-, -, value, previous, rfl⟩ | ⟨clear, timeout, -, -, hclosing⟩ := countCode_calls h
  · obtain ⟨t, t', hbody⟩ := hunmet
    exact nomatch (Prod.mk.inj hbody).2
  · simp only [Pc.giveUp, hclosing, Option.isSome_some, if_true, Event.decided]

section

variable {cfg cfg' : CountConfig} {th : Thread} {e : Event CountOp Ret}

/-- Every step is balanced, if the calls under way that were refused reported so. -/
theorem step_balance (hs : cfg.Sound countCode)
    (hrefusal : ∀ op c ret, (cfg.pc th).refusal = some (op, c, ret) →
      ∃ t t', c.body t = (t', .unmet ret))
    (h : Step countCode cfg th e cfg') : Balanced cfg.shared e cfg'.shared := by
  cases h with
  | refused _ hcode => exact absurd hcode countCode_not_refused
  | entered _ _ hcode =>
    rw [Config.put_shared, countCode_tcb hcode]
    exact balanced_of_undecided rfl rfl
  | sequence _ | sleep _ _ _ | resume _ | wake _ => exact balanced_of_undecided rfl rfl
  -- a call that gives up has taken nothing
  | @expire op c start seq ret now hpc hleft =>
    have hunmet := hrefusal op c ret (by rw [hpc]; rfl)
    exact balanced_of_undecided (giveUp_undecided (hs th op c (by rw [hpc]; rfl)) hunmet _) rfl
  | @fail op c start seq left ret hpc =>
    have hunmet := hrefusal op c ret (by rw [hpc]; rfl)
    exact balanced_of_undecided (giveUp_undecided (hs th op c (by rw [hpc]; rfl)) hunmet _) rfl
  -- the section of a notification or that of a take
  | @locked op c start seq t out hpc hbody =>
    obtain ⟨hgive, htake, value, previous, rfl⟩ | ⟨clear, timeout, rfl, hc, -⟩ :=
      countCode_calls (hs th op c (by rw [hpc]; rfl))
    · obtain ⟨rfl, rfl⟩ := Prod.mk.inj hbody
      exact give_balanced hgive htake value previous cfg.shared
    · rw [hc] at hbody
      have hbalanced := take_balanced clear timeout cfg.shared
      rwa [hbody] at hbalanced
  | @close op c late f t ret hpc hf hr =>
    obtain ⟨-, -, value, previous, rfl⟩ | ⟨clear, timeout, rfl, -, hclosing⟩ :=
      countCode_calls (hs th op c (by rw [hpc]; rfl))
    · exact nomatch hf
    · -- the section that ends a take reports zero and writes only the state
      rw [hclosing] at hf
      obtain rfl := Option.some.inj hf
      obtain ⟨rfl, rfl⟩ := Prod.mk.inj hr
      cases clear <;> rfl

end

/-! ## Runs -/

/-- In every reachable state the value and what the takes have consumed make up
    the number of gives, modulo the width of the value. -/
theorem gives_conserved {ok : CountConfig → Thread → Choice CountOp TickType → Prop}
    {cfg₀ cfg : CountConfig} {log : List (Thread × Event CountOp Ret)}
    (hrun : Run countCode ok cfg₀ log cfg) (hidle : ∀ th, cfg₀.pc th = .idle)
    (hfresh : cfg₀.shared.notifyValue = 0) :
    (cfg.shared.notifyValue.toNat + consumed log) % 2 ^ 32 = gives log % 2 ^ 32 := by
  induction hrun with
  | nil => rw [hfresh]; rfl
  | @snoc log cfg th ch e cfg' hrun hok hstep ih =>
    have hsound := hrun.sound (Config.sound_of_idle hidle)
    have hbalanced := step_balance hsound (fun _ _ _ hr => hrun.refusal hidle hr)
      (Step.of_step hstep)
    rw [gives_snoc, consumed_snoc]
    unfold Balanced at hbalanced
    omega

/-- A task waits and two gives arrive; it takes one, then a take that clears finds
    the other, and a third give follows. -/
theorem gives_conserved_two :
    ∃ (cfg₀ : CountConfig) (log : List (Thread × Event CountOp Ret)) (cfg : CountConfig),
      Run countCode (fun _ _ _ => True) cfg₀ log cfg ∧ gives log = 3 ∧ consumed log = 2 ∧
      (cfg.shared.notifyValue.toNat + consumed log) % 2 ^ 32 = gives log % 2 ^ 32 := by
  -- thread 2 waits, two gives wake it, and it takes one and then the other; a third give is left
  let cfg₀ : CountConfig :=
    { shared := ⟨0, .notWaiting⟩
      seq := fun _ => 0
      pc := fun _ => .idle }
  have hrun : Run countCode (fun _ _ _ => True) cfg₀ _ _ := Run.of_exec (fun _ _ _ => trivial)
    (show exec countCode cfg₀
    [(⟨2, 20, false⟩, .call (.ulTaskGenericNotifyTake false 5) 0), (⟨2, 20, false⟩, .go 0),
      (⟨2, 20, false⟩, .go 0), (⟨2, 20, false⟩, .go 0),
      (⟨1, 10, true⟩, .call .vTaskGenericNotifyGiveFromISR 0), (⟨1, 10, true⟩, .go 0),
      (⟨1, 10, true⟩, .go 0), (⟨1, 10, true⟩, .call (.xTaskGenericNotify 7 true) 0),
      (⟨1, 10, true⟩, .go 0), (⟨1, 10, true⟩, .go 0), (⟨2, 20, false⟩, .awake true),
      (⟨2, 20, false⟩, .go 0), (⟨2, 20, false⟩, .go 0),
      (⟨2, 20, false⟩, .call (.ulTaskGenericNotifyTake true 0) 3), (⟨2, 20, false⟩, .go 0),
      (⟨2, 20, false⟩, .go 0), (⟨1, 10, true⟩, .call .vTaskGenericNotifyGiveFromISR 0),
      (⟨1, 10, true⟩, .go 0)] = some _ from rfl)
  exact ⟨cfg₀, _, _, hrun, by decide, by decide, gives_conserved hrun (fun _ => rfl) rfl⟩

end EspS31.Rtos.Counting
