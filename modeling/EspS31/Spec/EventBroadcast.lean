import EspS31.Spec.EventHistory

/-!
# Waits released by a set

`xEventGroupSetBits` wakes every task that waits on the group, and each of them looks
at the bits again when it resumes.  A wait that the set has satisfied returns, unless
another task has cleared the bits in the meantime.

## Key results

- `released_broadcast`: what a set has satisfied returns, if no clear comes between
-/

namespace EspS31.Rtos

open SyncProtocol

/-! ## The condition of a wait -/

/-- More bits keep the condition of a wait. -/
private theorem s31EgMatch_or {held want : UInt32} {all : Bool} (new : UInt32)
    (h : s31EgMatch held want all = true) : s31EgMatch (held ||| new) want all = true := by
  unfold s31EgMatch at h ⊢
  -- more bits are held than before
  have hor : (held ||| new) &&& want = (held &&& want) ||| (new &&& want) := by
    apply UInt32.toBitVec_inj.mp
    ext i
    simp [Bool.and_or_distrib_right]
  cases all with
  | true =>
    simp only [↓reduceIte, beq_iff_eq] at h ⊢
    rw [hor, h]
    apply UInt32.toBitVec_inj.mp
    ext i
    simp only [UInt32.toBitVec_or, UInt32.toBitVec_and, BitVec.getElem_or, BitVec.getElem_and]
    cases want.toBitVec[i] <;> simp
  | false =>
    simp only [Bool.false_eq_true, ↓reduceIte, bne_iff_ne, ne_eq] at h ⊢
    rw [hor]
    exact fun h0 => h (UInt32.or_eq_zero_iff.mp h0).1

/-- The sections that may clear bits: of a `ClearBits`, and of a wait with
    clear-on-exit. -/
def ClearsBits : Event EventOp Ret → Prop
  | .locked (.xEventGroupClearBits _) _ | .locked (.xEventGroupWaitBits _ true _ _) _
  | .closed (.xEventGroupWaitBits _ true _ _) _ => True
  | _ => False

/-- Other events keep the condition of a wait. -/
private theorem s31EgMatch_eventBits {bits want : UInt32} {all : Bool} {e : Event EventOp Ret}
    (hclear : ¬ ClearsBits e) (h : s31EgMatch bits want all = true) :
    s31EgMatch (eventBits bits e) want all = true := by
  unfold eventBits
  split
  · exact s31EgMatch_or _ h
  · exact absurd trivial hclear
  · exact absurd trivial hclear
  · exact absurd trivial hclear
  · exact h

/-! ## Released waits -/

/-- The wait of thread `t` for `mask` has been satisfied while it slept.  From there
    on, in every run whose steps satisfy `ok`, each step of `t` up to the end of its
    call is a silent one that does not take it back to sleep, or returns bits that
    satisfy its condition. -/
def Broadcast (ok : Thread → UInt32 → Bool → EventConfig → Thread → Choice EventOp TickType → Prop) :
    Prop :=
  ∀ cfg₀ log cfg t mask clear all timeout c start seq left ret,
    (∀ t, cfg₀.pc t = .idle) → Run eventCode (fun _ _ _ => True) cfg₀ log cfg →
    cfg.pc t = .asleep (.xEventGroupWaitBits mask clear all timeout) c start seq left ret →
    ∀ t' ch new out cfg₁,
      step eventCode cfg t' ch = some (.locked (.xEventGroupSetBits new) out, cfg₁) →
      s31EgMatch cfg₁.shared.bits mask all = true →
      ∀ log' cfg₂, Run eventCode (ok t mask all) cfg₁ log' cfg₂ →
        (∀ x ∈ log', x.1 = t → x.2 = .silent) →
        ∀ ch' e cfg₃, step eventCode cfg₂ t ch' = some (e, cfg₃) →
          (e = .silent ∧ (cfg₃.pc t).refusal = none) ∨
            ∃ v, e.decided = some (.xEventGroupWaitBits mask clear all timeout, .value v) ∧
              s31EgMatch v mask all = true

/-- Clears by other threads leave the condition of `t` satisfied. -/
def Undisturbed (t : Thread) (mask : UInt32) (all : Bool) (cfg : EventConfig) (t' : Thread)
    (ch : Choice EventOp TickType) : Prop :=
  t' ≠ t → ∀ e cfg', step eventCode cfg t' ch = some (e, cfg') → ClearsBits e →
    s31EgMatch cfg'.shared.bits mask all = true

/-- Where a released wait can be: still asleep, or on its way to a section. -/
def Resuming (op : EventOp) (c : SyncCall Unit S31EventGroup Ret TickType) :
    Pc Unit S31EventGroup Ret TickType EventOp → Prop
  | .asleep op' c' _ _ _ _ | .sequence op' c' _ | .locked op' c' _ (some _) | .closing op' c' true =>
    op' = op ∧ c' = c
  | _ => False

section

variable {cfg cfg' : EventConfig} {t : Thread} {e : Event EventOp Ret} {mask : UInt32}
  {clear all : Bool} {timeout : TickType} {c : SyncCall Unit S31EventGroup Ret TickType}

/-- A released wait takes silent steps until its section, which returns the bits. -/
private theorem resuming_step
    (hc : EventCall (.xEventGroupWaitBits mask clear all timeout) c)
    (hpc : Resuming (.xEventGroupWaitBits mask clear all timeout) c (cfg.pc t))
    (hsat : s31EgMatch cfg.shared.bits mask all = true) (h : Step eventCode cfg t e cfg') :
    (e = .silent ∧ (cfg'.pc t).refusal = none ∧
      Resuming (.xEventGroupWaitBits mask clear all timeout) c (cfg'.pc t) ∧
      cfg'.shared = cfg.shared) ∨
    e.decided = some (.xEventGroupWaitBits mask clear all timeout, .value cfg.shared.bits) := by
  -- by the step: those of other states are excluded, the section decides the call
  cases hc with
  | wait hbody hearly hlate =>
    cases h with
    | refused hidle _ | entered _ hidle _ =>
      rw [hidle] at hpc
      exact hpc.elim
    | sequence hseq =>
      rw [hseq] at hpc
      rw [Config.put_pc_self]
      exact .inl ⟨rfl, rfl, hpc, rfl⟩
    -- the bits are there when the section looks, so it does not wait again
    | @locked op c' start seq s out hlocked hout =>
      rw [hlocked] at hpc
      cases seq with
      | none => exact hpc.elim
      | some n =>
        obtain ⟨rfl, rfl⟩ := hpc
        rw [hbody] at hout
        obtain ⟨-, heq⟩ | ⟨hno, -⟩ := waitBitsSection_cases mask clear all cfg.shared
        · rw [heq] at hout
          obtain ⟨-, rfl⟩ := Prod.mk.inj hout
          exact .inr rfl
        · exact nomatch hsat.symm.trans hno
    | sleep _ hunmet _ | expire _ hunmet _ =>
      rw [hunmet] at hpc
      exact hpc.elim
    | resume hasleep =>
      rw [hasleep] at hpc
      rw [Config.put_pc_self]
      exact .inl ⟨rfl, rfl, hpc, rfl⟩
    | fail hasleep =>
      rw [hasleep] at hpc
      obtain ⟨rfl, rfl⟩ := hpc
      rw [Config.put_pc_self]
      simp only [Pc.giveUp, hlate, Option.isSome_some, ↓reduceIte]
      exact .inl ⟨trivial, rfl, ⟨rfl, rfl⟩, rfl⟩
    -- also after a timeout the bits are looked at once more
    | @close op c' late f s r hclosing hf hs =>
      rw [hclosing] at hpc
      cases late with
      | false => exact hpc.elim
      | true =>
        obtain ⟨rfl, rfl⟩ := hpc
        obtain rfl := Option.some.inj (hlate.symm.trans hf)
        obtain ⟨-, rfl⟩ := Prod.mk.inj hs
        exact .inr rfl
    | wake hwake =>
      rw [hwake] at hpc
      exact hpc.elim

/-- From the set to the section of a released wait its condition stays satisfied. -/
private theorem run_resuming {cfg₁ : EventConfig} {log : List (Thread × Event EventOp Ret)}
    (hsound : cfg₁.Sound eventCode)
    (hc : EventCall (.xEventGroupWaitBits mask clear all timeout) c)
    (hpc : Resuming (.xEventGroupWaitBits mask clear all timeout) c (cfg₁.pc t))
    (hsat : s31EgMatch cfg₁.shared.bits mask all = true)
    (hrun : Run eventCode (Undisturbed t mask all) cfg₁ log cfg)
    (hsilent : ∀ x ∈ log, x.1 = t → x.2 = .silent) :
    Resuming (.xEventGroupWaitBits mask clear all timeout) c (cfg.pc t) ∧
      s31EgMatch cfg.shared.bits mask all = true := by
  induction hrun with
  | nil => exact ⟨hpc, hsat⟩
  | @snoc log cfg t' ch e cfg' hrun hok hstep ih =>
    obtain ⟨hpc, hsat⟩ := ih fun x hx => hsilent x (List.mem_append_left _ hx)
    have h := Step.of_step hstep
    by_cases hne : t' = t
    -- its own steps are silent, so it is still on its way
    · subst hne
      have he : e = .silent := hsilent _ (List.mem_append_right _ (List.mem_singleton.mpr rfl)) rfl
      subst he
      obtain ⟨-, -, hpc', hsame⟩ | hdec := resuming_step hc hpc hsat h
      · exact ⟨hpc', hsame ▸ hsat⟩
      · exact nomatch hdec
    · refine ⟨by rwa [h.pc_of_ne (Ne.symm hne)], ?_⟩
      -- a step of another thread that clears bits leaves these, by the condition on the run
      by_cases hclears : ClearsBits e
      · exact hok hne e cfg' hstep hclears
      · rw [step_bits (hrun.sound hsound) h]
        exact s31EgMatch_eventBits hclears hsat

end

/-- A wait that a set has satisfied returns bits that satisfy it, if no clear of
    another task has made the bits fail its condition before it resumes. -/
theorem released_broadcast : Broadcast Undisturbed := by
  intro cfg₀ log cfg t mask clear all timeout c start seq left ret hidle hrun hasleep t' ch new out
    cfg₁ hset hsat log' cfg₂ hrest hsilent ch' e cfg₃ hstep
  have hsound := hrun.sound (Config.sound_of_idle hidle)
  have hc := eventCall_of_calls (hsound t _ c (by rw [hasleep]; rfl))
  have hsound₁ := (hrun.snoc trivial hset).sound (Config.sound_of_idle hidle)
  -- the thread that sets is in a section, so it is not the one that sleeps
  have hne : t ≠ t' := by
    rintro rfl
    obtain ⟨c', start', seq', hlocked, -⟩ := (Step.of_step hset).locked_inv
    exact nomatch hasleep.symm.trans hlocked
  have hpc : Resuming (.xEventGroupWaitBits mask clear all timeout) c (cfg₁.pc t) := by
    rw [(Step.of_step hset).pc_of_ne hne, hasleep]
    exact ⟨rfl, rfl⟩
  obtain ⟨hpc₂, hsat₂⟩ := run_resuming hsound₁ hc hpc hsat hrest hsilent
  obtain ⟨he, hrefusal, -⟩ | hdec := resuming_step hc hpc₂ hsat₂ (Step.of_step hstep)
  · exact .inl ⟨he, hrefusal⟩
  · exact .inr ⟨_, hdec, hsat₂⟩

/-- Tasks 10 and 20 sleep, waiting for bit 0 with clear-on-exit, and task 30 is about
    to set it. -/
def twoWaiters : List (Thread × Choice EventOp TickType) :=
  [(⟨1, 10, false⟩, .call (.xEventGroupWaitBits 1 true true 5) 0), (⟨1, 10, false⟩, .go 0),
    (⟨1, 10, false⟩, .go 0), (⟨1, 10, false⟩, .go 0),
    (⟨2, 20, false⟩, .call (.xEventGroupWaitBits 1 true true 5) 0), (⟨2, 20, false⟩, .go 0),
    (⟨2, 20, false⟩, .go 0), (⟨2, 20, false⟩, .go 0),
    (⟨3, 30, false⟩, .call (.xEventGroupSetBits 1) 0)]

/-- The configuration that a schedule leads to from `freshGroup`. -/
def groupAfter (sched : List (Thread × Choice EventOp TickType)) : EventConfig :=
  ((exec eventCode freshGroup sched).getD ([], freshGroup)).2

/-- Task 20 comes first after the set and returns the bit. -/
theorem released_broadcast_first :
    ∃ e cfg', step eventCode (groupAfter (twoWaiters ++ [(⟨3, 30, false⟩, .go 0),
        (⟨2, 20, false⟩, .awake true), (⟨2, 20, false⟩, .go 0)])) ⟨2, 20, false⟩ (.go 0) =
        some (e, cfg') ∧
      ∃ v, e.decided = some (.xEventGroupWaitBits 1 true true 5, .value v) ∧
        s31EgMatch v 1 true = true := by
  have hrun : Run eventCode (fun _ _ _ => True) freshGroup _ _ :=
    Run.of_exec (fun _ _ _ => trivial) (show exec eventCode freshGroup twoWaiters = some _ from rfl)
  -- only the waiter itself takes steps here, so nobody clears its bits
  have hown : ∀ x ∈ [((⟨2, 20, false⟩ : Thread), (.awake true : Choice EventOp TickType)),
      (⟨2, 20, false⟩, .go 0)], ∀ cfg, Undisturbed ⟨2, 20, false⟩ 1 true cfg x.1 x.2 := by
    intro x hx cfg hne
    simp only [List.mem_cons, List.not_mem_nil, or_false] at hx
    obtain rfl | rfl := hx <;> exact absurd rfl hne
  have hrest : Run eventCode (Undisturbed ⟨2, 20, false⟩ 1 true) _ _ _ :=
    Run.of_exec hown (show exec eventCode
      (groupAfter (twoWaiters ++ [(⟨3, 30, false⟩, .go 0)]))
      [(⟨2, 20, false⟩, .awake true), (⟨2, 20, false⟩, .go 0)] = some _ from rfl)
  obtain ⟨hsilent, -⟩ | hdec := released_broadcast freshGroup _ _ ⟨2, 20, false⟩ 1 true true 5
    _ _ _ _ _ (fun _ => rfl) hrun rfl ⟨3, 30, false⟩ (.go 0) 1 _ _ rfl rfl _ _ hrest (by decide)
    (.go 0) _ _ rfl
  · exact nomatch hsilent
  · exact ⟨_, _, rfl, hdec⟩

/-- Both are released and task 10 comes first: it takes the bit, and task 20 finds its
    condition unmet and goes back to waiting. -/
theorem released_wait_unmet : ¬ Broadcast fun _ _ _ _ _ _ => True := by
  intro h
  have hrun : Run eventCode (fun _ _ _ => True) freshGroup _ _ :=
    Run.of_exec (fun _ _ _ => trivial) (show exec eventCode freshGroup twoWaiters = some _ from rfl)
  have hrest : Run eventCode (fun _ _ _ => True) _ _ _ :=
    Run.of_exec (fun _ _ _ => trivial) (show exec eventCode
      (groupAfter (twoWaiters ++ [(⟨3, 30, false⟩, .go 0)]))
      [(⟨3, 30, false⟩, .go 0), (⟨1, 10, false⟩, .awake true), (⟨1, 10, false⟩, .go 0),
        (⟨1, 10, false⟩, .go 0), (⟨2, 20, false⟩, .awake true), (⟨2, 20, false⟩, .go 0)] =
      some _ from rfl)
  obtain ⟨hsilent, -⟩ | ⟨v, hdec, -⟩ := h freshGroup _ _ ⟨2, 20, false⟩ 1 true true 5 _ _ _ _ _
    (fun _ => rfl) hrun rfl ⟨3, 30, false⟩ (.go 0) 1 _ _ rfl rfl _ _ hrest (by decide) (.go 0) _ _ rfl
  · exact nomatch hsilent
  · exact nomatch hdec

end EspS31.Rtos
