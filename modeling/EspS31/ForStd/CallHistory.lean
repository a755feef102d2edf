import EspS31.ForStd.SyncCall

/-!
# What the history of a run says about a call

The log of a run has the events of all threads.  The events of a call are those of
its thread since it has entered; until the call is decided they are locked sections
that found their condition unmet, and silent steps.

## Key results

- `Run.split`: a run at one of its events
- `Run.refusal_section`: the section whose value a call returns when it gives up
- `Run.call_events`: what a call has done before it is decided
-/

namespace SyncProtocol

variable {θ κ σ ρ τ ι : Type}

/-- A locked section. -/
def Event.IsSection : Event ι ρ → Prop
  | .locked _ _ | .closed _ _ => True
  | _ => False

/-- The entry of a call. -/
def Event.IsEnter : Event ι ρ → Prop
  | .enter _ _ => True
  | _ => False

/-- The call a thread is in and that no step has decided yet. -/
def Pc.open? : Pc κ σ ρ τ ι → Option ι
  | .idle | .wake _ _ _ => none
  | .sequence op _ _ | .locked op _ _ _ | .unmet op _ _ _ _ | .asleep op _ _ _ _ _
  | .closing op _ _ => some op

/-- A call that has just started is open. -/
theorem Pc.first_open? (op : ι) (c : SyncCall κ σ ρ τ) (now : τ) :
    (Pc.first op c now).open? = some op := by
  unfold Pc.first
  split <;> rfl

/-- A section leaves its call open when it found the condition unmet. -/
theorem Pc.afterBody_open? {op op' : ι} {c : SyncCall κ σ ρ τ} {start : τ} {seq : Option Nat}
    {out : Outcome ρ} (h : (Pc.afterBody op c start seq out).open? = some op') :
    op' = op ∧ ∃ ret, out = .unmet ret := by
  unfold Pc.afterBody at h
  split at h
  · exact nomatch h
  · exact nomatch h
  · next ret =>
    split at h
    · exact ⟨(Option.some.inj h).symm, ret, rfl⟩
    · exact nomatch h

/-- Giving up leaves a call open when a closing section follows. -/
theorem Pc.giveUp_open? {op op' : ι} {c : SyncCall κ σ ρ τ} {ret : ρ} {late : Bool}
    (h : (Pc.giveUp op c ret late).2.open? = some op') :
    op' = op ∧ (Pc.giveUp op c ret late).1 = .silent := by
  unfold Pc.giveUp at h ⊢
  split at h
  · next hclosing => exact ⟨(Option.some.inj h).symm, by rw [if_pos hclosing]⟩
  · exact nomatch h

/-! ## Splitting logs -/

/-- An event of an extended log is the last one or an earlier one. -/
theorem snoc_split {α : Type} {log pre post : List α} {x y : α}
    (h : log ++ [x] = pre ++ y :: post) :
    (log = pre ∧ x = y ∧ post = []) ∨ ∃ mid, post = mid ++ [x] ∧ log = pre ++ y :: mid := by
  obtain rfl | ⟨mid, z, rfl⟩ := List.eq_nil_or_concat post
  · obtain ⟨hlog, hxy⟩ := List.append_inj' h rfl
    exact .inl ⟨hlog, (List.cons.inj hxy).1, rfl⟩
  · have h' : log ++ [x] = (pre ++ y :: mid) ++ [z] := by
      rw [h]
      simp
    obtain ⟨hlog, hxz⟩ := List.append_inj' h' rfl
    exact .inr ⟨mid, by rw [(List.cons.inj hxz).1]; simp, hlog⟩

section

variable [DecidableEq θ] [DecidableEq κ] {code : Entry θ κ σ ρ τ ι}
  {ok : Config θ κ σ ρ τ ι → θ → Choice ι τ → Prop} {cfg₀ cfg cfg' : Config θ κ σ ρ τ ι}
  {log pre post : List (θ × Event ι ρ)} {t : θ} {e : Event ι ρ}

/-- The step of a run that logged a given event. -/
theorem Run.split (h : Run code ok cfg₀ (pre ++ (t, e) :: post) cfg) :
    ∃ ch cfg₁ cfg₂, Run code ok cfg₀ pre cfg₁ ∧ ok cfg₁ t ch ∧
      step code cfg₁ t ch = some (e, cfg₂) ∧ Run code ok cfg₂ post cfg := by
  generalize hlog : pre ++ (t, e) :: post = log at h
  induction h generalizing post with
  | nil => simp at hlog
  | snoc hrun hok hstep ih =>
    obtain ⟨rfl, hx, rfl⟩ | ⟨mid, rfl, hmid⟩ := snoc_split hlog.symm
    · obtain ⟨rfl, rfl⟩ := Prod.mk.inj hx
      exact ⟨_, _, _, hrun, hok, hstep, .nil⟩
    · obtain ⟨ch, cfg₁, cfg₂, hpre, hok₁, hstep₁, hpost⟩ := ih hmid.symm
      exact ⟨ch, cfg₁, cfg₂, hpre, hok₁, hstep₁, hpost.snoc hok hstep⟩

/-! ## The events of a call -/

/-- A step that leaves a call open has entered it, or the call was open and the step
    was silent or a section that found the condition unmet. -/
theorem Step.open?_cases (h : Step code cfg t e cfg') {op : ι} (hopen : (cfg'.pc t).open? = some op) :
    e = .enter op none ∨
      ((cfg.pc t).open? = some op ∧ (e = .silent ∨ ∃ ret, e = .locked op (.unmet ret))) := by
  -- a step that ends the call leaves none open, and the others keep the one that was
  cases h with
  | refused _ _ | close _ _ _ =>
    rw [Config.put_pc_self] at hopen
    exact nomatch hopen
  | entered _ _ _ =>
    rw [Config.put_pc_self, Pc.first_open?] at hopen
    rw [Option.some.inj hopen]
    exact .inl rfl
  | sequence hpc | sleep _ hpc _ | resume hpc =>
    rw [Config.put_pc_self] at hopen
    rw [hpc]
    exact .inr ⟨hopen, .inl rfl⟩
  -- a section that is not met goes on to wait
  | locked hpc _ =>
    rw [Config.put_pc_self] at hopen
    obtain ⟨rfl, ret, rfl⟩ := Pc.afterBody_open? hopen
    rw [hpc]
    exact .inr ⟨rfl, .inr ⟨ret, rfl⟩⟩
  | expire _ hpc _ | fail hpc =>
    rw [Config.put_pc_self] at hopen
    obtain ⟨rfl, hsilent⟩ := Pc.giveUp_open? hopen
    rw [hpc]
    exact .inr ⟨rfl, .inl hsilent⟩
  | wake _ =>
    simp only [Config.put_pc_self] at hopen
    exact nomatch hopen

/-- A step that decides a call that was entered before finds it open. -/
theorem Step.open?_of_decided (h : Step code cfg t e cfg') {op : ι} {ret : ρ}
    (hdec : e.decided = some (op, ret)) (henter : ¬ e.IsEnter) : (cfg.pc t).open? = some op := by
  cases h with
  | refused _ _ | entered _ _ _ => exact absurd trivial henter
  | sequence _ | sleep _ _ _ | resume _ | wake _ => exact nomatch hdec
  | @locked _ _ _ _ _ out hpc _ =>
    rw [hpc]
    cases out with
    | done r wake => exact congrArg some (Prod.mk.inj (Option.some.inj hdec)).1
    | unmet r => exact nomatch hdec
  -- giving up decides the call unless a closing section follows
  | expire _ hpc _ | fail hpc =>
    rw [hpc]
    unfold Pc.giveUp at hdec
    split at hdec
    · exact nomatch hdec
    · exact congrArg some (Prod.mk.inj (Option.some.inj hdec)).1
  | close hpc _ _ =>
    rw [hpc]
    exact congrArg some (Prod.mk.inj (Option.some.inj hdec)).1

/-- The events of an open call: the entry, silent steps and unmet sections. -/
theorem Run.call_events (h : Run code ok cfg₀ log cfg) {op : ι}
    (hopen : (cfg.pc t).open? = some op) (hlog : log = pre ++ (t, e) :: post)
    (hpost : ∀ x ∈ post, x.1 = t → ¬ x.2.IsEnter) :
    e = .enter op none ∨ e = .silent ∨ ∃ ret, e = .locked op (.unmet ret) := by
  induction h generalizing post with
  | nil => simp at hlog
  | @snoc log cfg t' ch e' cfg' _ _ hstep ih =>
    have hstep := Step.of_step hstep
    obtain ⟨rfl, hx, rfl⟩ | ⟨mid, rfl, hmid⟩ := snoc_split hlog
    · obtain ⟨rfl, rfl⟩ := Prod.mk.inj hx
      exact (hstep.open?_cases hopen).imp id fun h => h.2
    -- the event came before the last step, which leaves the call open
    · have hmid' : ∀ x ∈ mid, x.1 = t → ¬ x.2.IsEnter := fun x hx =>
        hpost x (List.mem_append_left _ hx)
      by_cases hne : t = t'
      · subst hne
        obtain rfl | ⟨hopen', -⟩ := hstep.open?_cases hopen
        · exact absurd trivial (hpost _ (List.mem_append_right _ (List.mem_singleton.mpr rfl)) rfl)
        · exact ih hopen' hmid hmid'
      · rw [hstep.pc_of_ne hne] at hopen
        exact ih hopen hmid hmid'

/-- What a thread returns when it gives up is what its last section has reported. -/
theorem Run.refusal_section (h : Run code ok cfg₀ log cfg) (hidle : ∀ t, cfg₀.pc t = .idle)
    {op : ι} {c : SyncCall κ σ ρ τ} {ret : ρ} (hr : (cfg.pc t).refusal = some (op, c, ret)) :
    ∃ pre mid, log = pre ++ (t, .locked op (.unmet ret)) :: mid ∧
      ∀ x ∈ mid, x.1 = t → x.2 = .silent := by
  induction h with
  | nil =>
    rw [hidle] at hr
    exact nomatch hr
  | @snoc log cfg t' ch e' cfg' _ _ hstep ih =>
    -- an earlier section stays the last one if this step is silent or another thread's
    have later : (cfg.pc t).refusal = some (op, c, ret) → (t' = t → e' = .silent) →
        ∃ pre mid, log ++ [(t', e')] = pre ++ (t, .locked op (.unmet ret)) :: mid ∧
          ∀ x ∈ mid, x.1 = t → x.2 = .silent := by
      intro hold hsilent
      obtain ⟨pre, mid, rfl, hmid⟩ := ih hold
      refine ⟨pre, mid ++ [(t', e')], by simp, fun x hx hxt => ?_⟩
      obtain hx | hx := List.mem_append.mp hx
      · exact hmid x hx hxt
      · obtain rfl := List.mem_singleton.mp hx
        exact hsilent hxt
    have hstep := Step.of_step hstep
    by_cases hne : t = t'
    · subst hne
      cases hstep with
      | refused _ _ | close _ _ _ | sequence _ | resume _ =>
        rw [Config.put_pc_self] at hr
        exact nomatch hr
      | entered _ _ _ =>
        rw [Config.put_pc_self, Pc.first_refusal] at hr
        exact nomatch hr
      | expire _ _ _ | fail _ =>
        rw [Config.put_pc_self, Pc.giveUp_refusal] at hr
        exact nomatch hr
      | sleep _ hpc _ =>
        rw [Config.put_pc_self] at hr
        refine later ?_ fun _ => rfl
        rw [hpc]
        exact hr
      -- this is the section
      | locked hpc hbody =>
        rw [Config.put_pc_self] at hr
        have hop := Pc.call?_of_refusal hr
        obtain ⟨rfl, -⟩ := Pc.afterBody_call? hop
        obtain ⟨rfl, -⟩ := Pc.afterBody_refusal hr
        exact ⟨log, [], rfl, nofun⟩
      | wake _ =>
        simp only [Config.put_pc_self] at hr
        exact nomatch hr
    -- another thread's step leaves the program point alone
    · rw [hstep.pc_of_ne hne] at hr
      exact later hr fun heq => absurd heq.symm hne

/-- The events of a call up to the one that decides it. -/
theorem Run.call_event_cases (h : Run code ok cfg₀ (pre ++ (t, e) :: post) cfg) {op : ι} {ret : ρ}
    (hdec : e.decided = some (op, ret)) {pre₁ mid : List (θ × Event ι ρ)} {e₁ : Event ι ρ}
    (hsplit : pre ++ [(t, e)] = pre₁ ++ (t, e₁) :: mid)
    (hmid : ∀ x ∈ mid, x.1 = t → ¬ x.2.IsEnter) :
    (pre₁ = pre ∧ e₁ = e) ∨ e₁ = .enter op none ∨ e₁ = .silent ∨
      ∃ ret, e₁ = .locked op (.unmet ret) := by
  obtain ⟨hpre, hx, -⟩ | ⟨mid', rfl, hpre⟩ := snoc_split hsplit
  · exact .inl ⟨hpre.symm, (Prod.mk.inj hx).2.symm⟩
  · obtain ⟨ch, cfg₁, cfg₂, hrun, -, hstep, -⟩ := h.split
    have henter := hmid _ (List.mem_append_right _ (List.mem_singleton.mpr rfl)) rfl
    have hopen := (Step.of_step hstep).open?_of_decided hdec henter
    exact .inr (hrun.call_events hopen hpre fun x hx => hmid x (List.mem_append_left _ hx))

/-- The last section of a call: the one that decides it, or the one whose value it
    gives up with. -/
theorem Run.last_section (h : Run code ok cfg₀ (pre ++ (t, e) :: post) cfg)
    (hidle : ∀ t, cfg₀.pc t = .idle) {op : ι} {ret : ρ} (hdec : e.decided = some (op, ret))
    (henter : ¬ e.IsEnter) :
    ∃ pre₁ e₁ mid, pre ++ [(t, e)] = pre₁ ++ (t, e₁) :: mid ∧
      ((e₁ = e ∧ e.IsSection) ∨ e₁ = .locked op (.unmet ret)) ∧
      ∀ x ∈ mid, x.1 = t → ¬ x.2.IsSection ∧ ¬ x.2.IsEnter := by
  by_cases hsec : e.IsSection
  · exact ⟨pre, e, [], rfl, .inl ⟨rfl, hsec⟩, nofun⟩
  · cases e with
    -- it gave up, so its last section is the one that ended unmet
    | gaveUp op' ret' =>
      obtain ⟨rfl, rfl⟩ := Prod.mk.inj (Option.some.inj hdec)
      obtain ⟨ch, cfg₁, cfg₂, hrun, -, hstep, -⟩ := h.split
      obtain ⟨c, hrefusal⟩ := (Step.of_step hstep).gaveUp
      obtain ⟨pre₁, mid, rfl, hmid⟩ := hrun.refusal_section hidle hrefusal
      refine ⟨pre₁, _, mid ++ [(t, .gaveUp op' ret')], by simp, .inr rfl, fun x hx hxt => ?_⟩
      obtain hx | hx := List.mem_append.mp hx
      · rw [hmid x hx hxt]
        exact ⟨id, id⟩
      · obtain rfl := List.mem_singleton.mp hx
        exact ⟨id, id⟩
    | enter => exact absurd trivial henter
    | locked | closed => exact absurd trivial hsec
    | woke | silent => exact nomatch hdec

end

end SyncProtocol
