import EspS31.ForStd.SyncCall

/-!
# The sequence protocol loses no wake-up

A thread that sleeps in a `SyncCall` loop has read the context's sequence
before it tested its condition.  When every section that makes some waited-for
condition true asks for a wake-up of the same context (`WakeSpec`), a sleeper
whose condition holds either sees a sequence different from the one it read,
or the wake-up that will change it is still to come (`Run.wakeup`).
-/

namespace SyncProtocol

variable {θ κ σ ρ τ ι : Type}

/-- What code must do for the conditions `ready` its loops wait for, in the
    shared states of the invariant `I`. -/
structure WakeSpec (code : Entry θ κ σ ρ τ ι) (ready : θ → ι → σ → Prop) (I : σ → Prop) :
    Prop where
  /-- every section keeps the invariant -/
  inv : ∀ {t op s e s'}, Atomic code t op s e s' → I s → I s'
  /-- a section reports `unmet` only when the condition does not hold -/
  unmet : ∀ {t op c s s' ret}, Calls code t op c → I s → c.body s = (s', .unmet ret) →
    ¬ ready t op s'
  /-- entry code makes no condition true -/
  enter : ∀ {t op s s' x t' op'}, code t op s = (s', x) → I s → ready t' op' s' → ready t' op' s
  /-- a locked section that makes a condition true wakes the context waited on -/
  body : ∀ {t op c s s' out t' op' c'}, Calls code t op c → I s → c.body s = (s', out) →
    Calls code t' op' c' → ready t' op' s' →
    ready t' op' s ∨ (c.ctx = c'.ctx ∧ ∃ ret, out = .done ret true)
  /-- closing sections make no condition true -/
  close : ∀ {t op c late f s s' ret t' op'}, Calls code t op c → c.closing late = some f → I s →
    f s = (s', ret) → ready t' op' s' → ready t' op' s

/-- The context and sequence a thread has read and may still sleep on. -/
def Pc.observed : Pc κ σ ρ τ ι → Option (κ × Nat)
  | .locked _ c _ (some seq) => some (c.ctx, seq)
  | .unmet _ c _ seq _ => some (c.ctx, seq)
  | .asleep _ c _ seq _ _ => some (c.ctx, seq)
  | _ => none

/-- The call, code and sequence of a thread that found its condition unmet. -/
def Pc.waiting : Pc κ σ ρ τ ι → Option (ι × SyncCall κ σ ρ τ × Nat)
  | .unmet op c _ seq _ => some (op, c, seq)
  | .asleep op c _ seq _ _ => some (op, c, seq)
  | _ => none

/-- Some thread has left a locked section of `k` and has its wake-up to come. -/
def Config.Pending (cfg : Config θ κ σ ρ τ ι) (k : κ) : Prop :=
  ∃ t op c ret, cfg.pc t = .wake op c ret ∧ c.ctx = k

/-- The invariant of the sequence protocol. -/
structure WakeInv (ready : θ → ι → σ → Prop) (cfg : Config θ κ σ ρ τ ι) : Prop where
  le_seq : ∀ {t k seq}, (cfg.pc t).observed = some (k, seq) → seq ≤ cfg.seq k
  wake : ∀ {t op c seq}, (cfg.pc t).waiting = some (op, c, seq) → ready t op cfg.shared →
    seq < cfg.seq c.ctx ∨ cfg.Pending c.ctx

/-- A waiting thread has observed the counter it sleeps on. -/
theorem Pc.observed_of_waiting {p : Pc κ σ ρ τ ι} {op : ι} {c : SyncCall κ σ ρ τ} {seq : Nat}
    (h : p.waiting = some (op, c, seq)) : p.observed = some (c.ctx, seq) := by
  cases p with
  | unmet | asleep =>
    simp only [Pc.waiting, Option.some.injEq, Prod.mk.injEq] at h
    obtain ⟨rfl, rfl, rfl⟩ := h
    rfl
  | _ => exact nomatch h

/-- A waiting thread is in the call it waits for. -/
theorem Pc.call?_of_waiting {p : Pc κ σ ρ τ ι} {op : ι} {c : SyncCall κ σ ρ τ} {seq : Nat}
    (h : p.waiting = some (op, c, seq)) : p.call? = some (op, c) := by
  cases p with
  | unmet | asleep =>
    simp only [Pc.waiting, Option.some.injEq, Prod.mk.injEq] at h
    obtain ⟨rfl, rfl, rfl⟩ := h
    rfl
  | _ => exact nomatch h

/-- A call that has just started has observed no counter. -/
theorem Pc.first_observed (op : ι) (c : SyncCall κ σ ρ τ) (now : τ) :
    (Pc.first op c now).observed = none := by
  unfold Pc.first
  split <;> rfl

/-- A call that has given up observes no counter. -/
theorem Pc.giveUp_observed (op : ι) (c : SyncCall κ σ ρ τ) (ret : ρ) (late : Bool) :
    (Pc.giveUp op c ret late).2.observed = none := by
  unfold Pc.giveUp
  split <;> rfl

/-- A thread is on the way to sleep after a section only if the section
    reported `unmet`, and then with the sequence it had read before. -/
theorem Pc.afterBody_observed {op : ι} {c : SyncCall κ σ ρ τ} {start : τ} {seq : Option Nat}
    {out : Outcome ρ} {x : κ × Nat} (h : (Pc.afterBody op c start seq out).observed = some x) :
    (∃ ret, out = .unmet ret) ∧ ∃ s, seq = some s ∧ x = (c.ctx, s) := by
  unfold Pc.afterBody at h
  split at h
  · exact nomatch h
  · exact nomatch h
  · next ret =>
    split at h
    · next s => exact ⟨⟨ret, rfl⟩, s, rfl, (Option.some.inj h).symm⟩
    · exact nomatch h

section

variable [DecidableEq θ] [DecidableEq κ] {code : Entry θ κ σ ρ τ ι}
  {ready : θ → ι → σ → Prop} {I : σ → Prop} {cfg cfg' : Config θ κ σ ρ τ ι} {t : θ}
  {e : Event ι ρ}

/-- Sequences only grow, and a wake-up makes its own context's grow. -/
theorem Step.seq_le (h : Step code cfg t e cfg') (k : κ) : cfg.seq k ≤ cfg'.seq k := by
  cases h with
  | @wake op c ret hpc =>
    simp only [Function.update_apply]
    split
    · next heq => subst heq; omega
    · exact Nat.le_refl _
  | _ => exact Nat.le_refl _

/-- A pending wake-up stays pending until it has made the sequence grow. -/
theorem Step.pending (h : Step code cfg t e cfg') {k : κ} (hp : cfg.Pending k) :
    cfg'.Pending k ∨ cfg.seq k < cfg'.seq k := by
  obtain ⟨t', op, c, ret, hpc', hk⟩ := hp
  by_cases hne : t' = t
  · subst hne
    cases h with
    | wake hpc =>
      rw [hpc'] at hpc
      obtain ⟨-, rfl, -⟩ := Pc.wake.inj hpc
      subst hk
      right
      simp only [Function.update_self]
      omega
    | refused hpc _ | entered _ hpc _ | sequence hpc | locked hpc _ | sleep _ hpc _
    | expire _ hpc _ | resume hpc | fail hpc | close hpc _ _ =>
      rw [hpc'] at hpc
      exact nomatch hpc
  · exact .inl ⟨t', op, c, ret, by rw [h.pc_of_ne hne, hpc'], hk⟩

/-- What a thread has observed after its own step it had observed before, or
    has just read. -/
theorem Step.observed (h : Step code cfg t e cfg') {k : κ} {seq : Nat}
    (ho : (cfg'.pc t).observed = some (k, seq)) :
    (cfg.pc t).observed = some (k, seq) ∨ seq = cfg.seq k := by
  cases h with
  | refused _ _ | close _ _ _ => rw [Config.put_pc_self] at ho; exact nomatch ho
  | entered _ _ _ => rw [Config.put_pc_self, Pc.first_observed] at ho; exact nomatch ho
  -- only this step looks at a counter
  | sequence hpc =>
    rw [Config.put_pc_self] at ho
    obtain ⟨rfl, rfl⟩ := Prod.mk.inj (Option.some.inj ho)
    exact .inr rfl
  | locked hpc _ =>
    rw [Config.put_pc_self] at ho
    obtain ⟨-, s, rfl, hx⟩ := Pc.afterBody_observed ho
    rw [hpc, hx]
    exact .inl rfl
  | sleep _ hpc _ =>
    rw [Config.put_pc_self] at ho
    rw [hpc]
    exact .inl ho
  | expire _ _ _ | fail _ => rw [Config.put_pc_self, Pc.giveUp_observed] at ho; exact nomatch ho
  | resume _ => rw [Config.put_pc_self] at ho; exact nomatch ho
  | wake _ => simp only [Config.put_pc_self] at ho; exact nomatch ho

/-- A condition that a step makes true is one whose context is now to be woken. -/
theorem Step.ready_or_pending (spec : WakeSpec code ready I) (hs : cfg.Sound code) (hI : I cfg.shared)
    (h : Step code cfg t e cfg') {t' : θ} {op' : ι} {c' : SyncCall κ σ ρ τ}
    (hc' : Calls code t' op' c') (hr : ready t' op' cfg'.shared) :
    ready t' op' cfg.shared ∨ cfg'.Pending c'.ctx := by
  cases h with
  | refused _ hcode | entered _ _ hcode => exact .inl (spec.enter hcode hI hr)
  | close hpc hf hr' =>
    exact .inl (spec.close (hs t _ _ (by rw [hpc]; rfl)) hf hI hr' hr)
  | @locked op c start seq s out hpc hbody =>
    obtain hr | ⟨hk, ret, rfl⟩ := spec.body (hs t _ _ (by rw [hpc]; rfl)) hI hbody hc' hr
    · exact .inl hr
    · exact .inr ⟨t, op, c, ret, Config.put_pc_self .., hk⟩
  | _ => exact .inl hr

/-- A thread that is waiting after its own step was waiting before, or its
    section has just found the condition unmet. -/
theorem Step.waiting_or_unmet (spec : WakeSpec code ready I) (hs : cfg.Sound code) (hI : I cfg.shared)
    (h : Step code cfg t e cfg') {op : ι} {c : SyncCall κ σ ρ τ} {seq : Nat}
    (hw : (cfg'.pc t).waiting = some (op, c, seq)) :
    ((cfg.pc t).waiting = some (op, c, seq) ∧ cfg'.shared = cfg.shared) ∨
      ¬ ready t op cfg'.shared := by
  have ho := Pc.observed_of_waiting hw
  cases h with
  | refused _ _ | close _ _ _ | sequence _ | resume _ =>
    rw [Config.put_pc_self] at hw; exact nomatch hw
  | entered _ _ _ => rw [Config.put_pc_self, Pc.first_observed] at ho; exact nomatch ho
  -- the section ended unmet, so its condition does not hold now
  | locked hpc hbody =>
    rw [Config.put_pc_self] at ho hw
    obtain ⟨⟨ret, rfl⟩, -⟩ := Pc.afterBody_observed ho
    obtain ⟨rfl, rfl⟩ := Pc.afterBody_call? (Pc.call?_of_waiting hw)
    exact .inr (spec.unmet (hs t _ _ (by rw [hpc]; rfl)) hI hbody)
  | sleep _ hpc _ =>
    rw [Config.put_pc_self] at hw
    exact .inl ⟨by rw [hpc]; exact hw, rfl⟩
  | expire _ _ _ | fail _ => rw [Config.put_pc_self, Pc.giveUp_observed] at ho; exact nomatch ho
  | wake _ => simp only [Config.put_pc_self] at hw; exact nomatch hw

/-- One step keeps the protocol invariant. -/
theorem WakeInv.step (spec : WakeSpec code ready I) (hs : cfg.Sound code) (hI : I cfg.shared)
    (hinv : WakeInv ready cfg) (h : Step code cfg t e cfg') : WakeInv ready cfg' where
  -- a sequence number that was read is not above the current one
  le_seq {t' k seq} ho := by
    by_cases hne : t' = t
    · subst hne
      obtain ho | rfl := h.observed ho
      · exact Nat.le_trans (hinv.le_seq ho) (h.seq_le k)
      · exact h.seq_le k
    · rw [h.pc_of_ne hne] at ho
      exact Nat.le_trans (hinv.le_seq ho) (h.seq_le k)
  wake {t' op c seq} hw hr := by
    -- reduce to a thread that was already waiting for a condition that held or is now to be woken
    have key : (cfg.pc t').waiting = some (op, c, seq) →
        (ready t' op cfg.shared ∨ cfg'.Pending c.ctx) →
        seq < cfg'.seq c.ctx ∨ cfg'.Pending c.ctx := by
      intro hw₀ hr₀
      obtain hr₀ | hp := hr₀
      · obtain hlt | hp := hinv.wake hw₀ hr₀
        · exact .inl (Nat.lt_of_lt_of_le hlt (h.seq_le _))
        · obtain hp | hlt := h.pending hp
          · exact .inr hp
          · exact .inl (Nat.lt_of_le_of_lt (hinv.le_seq (Pc.observed_of_waiting hw₀)) hlt)
      · exact .inr hp
    by_cases hne : t' = t
    · subst hne
      obtain ⟨hw₀, heq⟩ | hnr := Step.waiting_or_unmet spec hs hI h hw
      · exact key hw₀ (.inl (heq ▸ hr))
      · exact absurd hr hnr
    · rw [h.pc_of_ne hne] at hw
      exact key hw (Step.ready_or_pending spec hs hI h (hs _ _ _ (Pc.call?_of_waiting hw)) hr)

variable {ok : Config θ κ σ ρ τ ι → θ → Choice ι τ → Prop} {cfg₀ : Config θ κ σ ρ τ ι}
  {log : List (θ × Event ι ρ)}

/-- The invariant of the shared state holds along every run. -/
theorem Run.inv (spec : WakeSpec code ready I) (h : Run code ok cfg₀ log cfg)
    (h₀ : cfg₀.Sound code) (hI : I cfg₀.shared) : I cfg.shared :=
  h.shared_rule (P := fun _ s => I s) h₀ hI (fun _ _ _ _ _ _ hI hat => spec.inv hat hI)
    (fun _ _ _ _ hI _ => hI)

/-- No wake-up is lost: from a start with no call under way, a thread that has
    found its condition unmet and whose condition holds sees a new sequence, or
    the wake-up of its context is still to come. -/
theorem Run.wakeup (spec : WakeSpec code ready I) (h : Run code ok cfg₀ log cfg)
    (hidle : ∀ t, cfg₀.pc t = .idle) (hI : I cfg₀.shared) : WakeInv ready cfg := by
  have h₀ : cfg₀.Sound code := Config.sound_of_idle hidle
  induction h with
  | nil =>
    refine ⟨fun {t k seq} ho => ?_, fun {t op c seq} hw _ => ?_⟩
    · rw [hidle] at ho
      exact nomatch ho
    · rw [hidle] at hw
      exact nomatch hw
  | snoc hrun _ hstep ih =>
    exact ih.step spec (hrun.sound h₀) (hrun.inv spec h₀ hI) (Step.of_step hstep)

end

end SyncProtocol
