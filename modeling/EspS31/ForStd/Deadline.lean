import EspS31.ForStd.SyncCall

/-!
# Calls with a deadline

One call of one thread, with a clock: time passes only while the thread sleeps,
and no sleep is longer than it asked for.  Other threads run as they like.

A `Deadline` is a patience function that, asked after every wake-up, never asks
for more than is left of `T` ticks and ends only when all of them have passed.

## Key results

- `Timed.onTime`: the call is on time after every step, its own and those of the
  other threads
-/

namespace SyncProtocol

/-- `ticks` is how long a time span of type `τ` is, `later start k` what the clock
    shows `k` ticks after `start`. -/
structure Deadline {τ : Type} (ticks : τ → Nat) (later : τ → Nat → τ) (T : Nat)
    (patience : τ → τ → Option τ) : Prop where
  sleeps : ∀ start k left, k ≤ T → patience start (later start k) = some left →
    0 < ticks left ∧ ticks left + k ≤ T
  ends : ∀ start k, k ≤ T → patience start (later start k) = none → k = T

/-- What is observed of a call: the time passed since, whether one of its sleeps
    has failed, and the value it returns, once that is decided. -/
structure Timing (ρ : Type) where
  elapsed : Nat
  reported : Bool
  ret : Option ρ

section

variable {θ κ σ ρ τ ι : Type}

/-- The value returned after one more event. -/
def Timing.after (x : Timing ρ) (e : Event ι ρ) : Option ρ := x.ret.or (e.decided.map Prod.snd)

/-- A result that is there after an event was there before, or the event decided it. -/
theorem Timing.after_cases {x : Timing ρ} {e : Event ι ρ} {ret : ρ} (h : x.after e = some ret) :
    x.ret = some ret ∨ ∃ op, e.decided = some (op, ret) := by
  unfold Timing.after at h
  cases hr : x.ret with
  | some r =>
    rw [hr] at h
    exact .inl h
  | none =>
    rw [hr, Option.none_or] at h
    obtain ⟨⟨op, r⟩, hdec, rfl⟩ := Option.map_eq_some_iff.mp h
    exact .inr ⟨op, hdec⟩

/-- Either a sleep has failed or all the time has passed. -/
def Timing.Excused (x : Timing ρ) (T : Nat) : Prop := x.reported = true ∨ x.elapsed = T

/-! ## Program points of a call on time -/

/-- A sleep leaves time for what has passed; a closing section has an excuse. -/
def Pc.OnTime (ticks : τ → Nat) (op : ι) (start : τ) (T : Nat) (x : Timing ρ) :
    Pc κ σ ρ τ ι → Prop
  | .idle | .wake _ _ _ => True
  | .sequence op' _ s | .locked op' _ s _ | .unmet op' _ s _ _ => op' = op ∧ s = start
  | .asleep op' _ s _ left _ =>
    op' = op ∧ s = start ∧ 0 < ticks left ∧ ticks left + x.elapsed ≤ T
  | .closing _ _ _ => x.Excused T

section

variable {ticks : τ → Nat} {op : ι} {start : τ} {T : Nat} (c : SyncCall κ σ ρ τ)

/-- A call is on time at its start. -/
theorem Pc.first_onTime (x : Timing ρ) : (Pc.first op c start).OnTime ticks op start T x := by
  unfold Pc.first
  split <;> exact ⟨rfl, rfl⟩

/-- A call is on time after its section, with a wait that starts there. -/
theorem Pc.afterBody_onTime (seq : Option Nat) (out : Outcome ρ) (x : Timing ρ) :
    (Pc.afterBody op c start seq out).OnTime ticks op start T x := by
  unfold Pc.afterBody
  split
  · trivial
  · trivial
  · split
    · exact ⟨rfl, rfl⟩
    · trivial

/-- Whoever gives up with an excuse stays on time. -/
theorem Pc.giveUp_onTime {x : Timing ρ} (ret : ρ) (late : Bool) (hx : x.Excused T) :
    (Pc.giveUp op c ret late).2.OnTime ticks op start T x := by
  unfold Pc.giveUp
  split
  · exact hx
  · trivial

end

/-- A call on time: it has not taken more than `T` ticks, and if it has returned
    a value that is no `success`, it has an excuse. -/
structure OnTime (ticks : τ → Nat) (t : θ) (op : ι) (start : τ) (T : Nat) (success : ρ → Prop)
    (cfg : Config θ κ σ ρ τ ι) (x : Timing ρ) : Prop where
  elapsed : x.elapsed ≤ T
  pc : (cfg.pc t).OnTime ticks op start T x
  ret : ∀ ret, x.ret = some ret → success ret ∨ x.Excused T

/-- A step after which the call is at a point on time, and which decides it only
    with success or an excuse. -/
theorem OnTime.move {ticks : τ → Nat} {t : θ} {op : ι} {start : τ} {T : Nat} {success : ρ → Prop}
    {cfg cfg' : Config θ κ σ ρ τ ι} {x x' : Timing ρ} {e : Event ι ρ}
    (h : OnTime ticks t op start T success cfg x) (helapsed : x'.elapsed ≤ T)
    (hpc : (cfg'.pc t).OnTime ticks op start T x') (hret : x'.ret = x.after e)
    (hexcuse : x.Excused T → x'.Excused T)
    (hdec : ∀ op' ret, e.decided = some (op', ret) → success ret ∨ x'.Excused T) :
    OnTime ticks t op start T success cfg' x' where
  elapsed := helapsed
  pc := hpc
  ret ret hr := by
    obtain hold | ⟨op', hnew⟩ := Timing.after_cases (hret.symm.trans hr)
    · exact (h.ret ret hold).imp id hexcuse
    · exact hdec op' ret hnew

/-- What makes a call keep its time in states with `P`: its entry accepts it, its
    code waits with a deadline, and a section that decides it does so with
    success. -/
structure Punctual (code : Entry θ κ σ ρ τ ι) (ticks : τ → Nat) (later : τ → Nat → τ) (t : θ)
    (op : ι) (T : Nat) (P : σ → Prop) (success : ρ → Prop) : Prop where
  accepts : ∀ s s' ret, P s → code t op s ≠ (s', .inl ret)
  waits : ∀ c, Calls code t op c → ∃ w, c.wait = some w ∧ Deadline ticks later T w.patience
  decides : ∀ c s s' ret wake, Calls code t op c → P s → c.body s = (s', .done ret wake) →
    success ret

/-! ## Runs with a clock -/

variable [DecidableEq θ] [DecidableEq κ]

/-- The runs from `cfg₀` on in which `t` makes the call `op` at time `start`. -/
inductive Timed (code : Entry θ κ σ ρ τ ι) (ticks : τ → Nat) (later : τ → Nat → τ) (t : θ) (op : ι)
    (start : τ) (cfg₀ : Config θ κ σ ρ τ ι) : Config θ κ σ ρ τ ι → Timing ρ → Prop where
  | call {e cfg} (hstep : step code cfg₀ t (.call op start) = some (e, cfg)) :
    Timed code ticks later t op start cfg₀ cfg ⟨0, false, e.decided.map Prod.snd⟩
  | other {cfg x t' ch e cfg'} (h : Timed code ticks later t op start cfg₀ cfg x) (hne : t' ≠ t)
    (hstep : step code cfg t' ch = some (e, cfg')) : Timed code ticks later t op start cfg₀ cfg' x
  | go {cfg x e cfg'} (h : Timed code ticks later t op start cfg₀ cfg x)
    (hstep : step code cfg t (.go (later start x.elapsed)) = some (e, cfg')) :
    Timed code ticks later t op start cfg₀ cfg' { x with ret := x.after e }
  | awake {cfg x op' c s seq left ret e cfg'} (d : Nat) (woken : Bool)
    (h : Timed code ticks later t op start cfg₀ cfg x)
    (hpc : cfg.pc t = .asleep op' c s seq left ret) (hd : d ≤ ticks left)
    (hstep : step code cfg t (.awake woken) = some (e, cfg')) :
    Timed code ticks later t op start cfg₀ cfg' ⟨x.elapsed + d, x.reported || !woken, x.after e⟩

variable {code : Entry θ κ σ ρ τ ι} {ticks : τ → Nat} {later : τ → Nat → τ} {t : θ} {op : ι}
  {start : τ} {T : Nat} {P : σ → Prop} {success : ρ → Prop} {cfg₀ cfg cfg' : Config θ κ σ ρ τ ι}
  {x : Timing ρ} {e : Event ι ρ}

/-- A step of another thread moves nothing of the call. -/
theorem OnTime.other {t' : θ} (h : OnTime ticks t op start T success cfg x) (hne : t' ≠ t)
    (hstep : Step code cfg t' e cfg') : OnTime ticks t op start T success cfg' x where
  elapsed := h.elapsed
  pc := by
    rw [hstep.pc_of_ne hne.symm]
    exact h.pc
  ret := h.ret

/-- The call enters its loop. -/
theorem OnTime.call (hpunctual : Punctual code ticks later t op T P success) (hP : P cfg.shared)
    (hstep : step code cfg t (.call op start) = some (e, cfg')) :
    OnTime ticks t op start T success cfg' ⟨0, false, e.decided.map Prod.snd⟩ := by
  cases hp : cfg.pc t with
  | idle =>
    simp only [step, hp] at hstep
    split at hstep
    -- a call on a valid object is not refused at its entry
    next s ret hcode => exact absurd hcode (hpunctual.accepts _ _ _ hP)
    next s c hcode =>
      obtain ⟨rfl, rfl⟩ := Prod.mk.inj (Option.some.inj hstep)
      refine ⟨Nat.zero_le _, ?_, fun ret hret => nomatch hret⟩
      rw [Config.put_pc_self]
      exact Pc.first_onTime c _
  | _ =>
    simp only [step, hp] at hstep
    exact nomatch hstep

/-- A step of the call that is no sleep. -/
theorem OnTime.go (hpunctual : Punctual code ticks later t op T P success) (hP : P cfg.shared)
    (hsound : cfg.Sound code) (h : OnTime ticks t op start T success cfg x)
    (hstep : step code cfg t (.go (later start x.elapsed)) = some (e, cfg')) :
    OnTime ticks t op start T success cfg' { x with ret := x.after e } := by
  -- the cases are the program points of the thread
  have hpc := h.pc
  have hcalls : ∀ op' c, (cfg.pc t).call? = some (op', c) → op' = op → Calls code t op c :=
    fun op' c hc heq => heq ▸ hsound t op' c hc
  cases hp : cfg.pc t with
  | idle | asleep =>
    simp only [step, hp] at hstep
    exact nomatch hstep
  | sequence op' c s =>
    simp only [step, hp, Option.some.injEq, Prod.mk.injEq] at hstep
    obtain ⟨rfl, rfl⟩ := hstep
    rw [hp] at hpc
    exact h.move h.elapsed (by rw [Config.put_pc_self]; exact hpc) rfl id fun _ _ hd => nomatch hd
  | locked op' c s seq =>
    simp only [step, hp, Option.some.injEq, Prod.mk.injEq] at hstep
    obtain ⟨rfl, rfl⟩ := hstep
    rw [hp] at hpc
    obtain ⟨rfl, rfl⟩ := hpc
    refine h.move h.elapsed (by rw [Config.put_pc_self]; exact Pc.afterBody_onTime ..) rfl id ?_
    intro op₁ ret hd
    cases hbody : (c.body cfg.shared).2 with
    | done r wake =>
      rw [hbody] at hd
      obtain ⟨-, rfl⟩ := Prod.mk.inj (Option.some.inj hd)
      have hc := hcalls op' c (by rw [hp]; rfl) rfl
      exact .inl (hpunctual.decides c _ _ _ wake hc hP (Prod.ext rfl hbody))
    | unmet r =>
      rw [hbody] at hd
      exact nomatch hd
  | unmet op' c s seq ret =>
    rw [hp] at hpc
    obtain ⟨rfl, rfl⟩ := hpc
    obtain ⟨w, hw, hdeadline⟩ := hpunctual.waits c (hcalls op' c (by rw [hp]; rfl) rfl)
    simp only [step, hp, hw, Option.bind_some] at hstep
    cases hleft : w.patience s (later s x.elapsed) with
    -- it goes to sleep for what is left
    | some left =>
      simp only [hleft, Option.some.injEq, Prod.mk.injEq] at hstep
      obtain ⟨rfl, rfl⟩ := hstep
      have hsleep := hdeadline.sleeps s x.elapsed left h.elapsed hleft
      refine h.move h.elapsed ?_ rfl id fun _ _ hd => nomatch hd
      rw [Config.put_pc_self]
      exact ⟨rfl, rfl, hsleep⟩
    | none =>
      -- the patience ends: by the deadline all ticks have passed
      simp only [hleft, Option.some.injEq, Prod.mk.injEq] at hstep
      obtain ⟨rfl, rfl⟩ := hstep
      have hover : x.Excused T := .inr (hdeadline.ends s x.elapsed h.elapsed hleft)
      refine h.move h.elapsed ?_ rfl id fun _ _ _ => .inr hover
      rw [Config.put_pc_self]
      exact Pc.giveUp_onTime c ret false hover
  | closing op' c late =>
    rw [hp] at hpc
    simp only [step, hp] at hstep
    split at hstep
    · obtain ⟨rfl, rfl⟩ := Prod.mk.inj (Option.some.inj hstep)
      exact h.move h.elapsed (by rw [Config.put_pc_self]; trivial) rfl id fun _ _ _ => .inr hpc
    · exact nomatch hstep
  | wake op' c ret =>
    simp only [step, hp, Option.some.injEq, Prod.mk.injEq] at hstep
    obtain ⟨rfl, rfl⟩ := hstep
    refine h.move h.elapsed ?_ rfl id fun _ _ hd => nomatch hd
    simp only [Config.put_pc_self]
    trivial

/-- The end of a sleep of at most the ticks that were asked for. -/
theorem OnTime.awake {op' : ι} {c : SyncCall κ σ ρ τ} {s : τ} {seq d : Nat} {left : τ} {ret : ρ}
    {woken : Bool} (h : OnTime ticks t op start T success cfg x)
    (hpc : cfg.pc t = .asleep op' c s seq left ret) (hd : d ≤ ticks left)
    (hstep : step code cfg t (.awake woken) = some (e, cfg')) :
    OnTime ticks t op start T success cfg'
      ⟨x.elapsed + d, x.reported || !woken, x.after e⟩ := by
  obtain ⟨rfl, rfl, -, hleft⟩ : op' = op ∧ s = start ∧ 0 < ticks left ∧
      ticks left + x.elapsed ≤ T := by
    have hon := h.pc
    rwa [hpc] at hon
  have helapsed : x.elapsed + d ≤ T := by omega
  -- an excuse stays one: all ticks can only have passed if no more do
  have hexcuse : x.Excused T →
      Timing.Excused (ρ := ρ) ⟨x.elapsed + d, x.reported || !woken, x.after e⟩ T := by
    rintro (hrep | heq)
    · exact .inl (by simp only [hrep, Bool.true_or])
    · exact .inr (by show x.elapsed + d = T; omega)
  cases woken with
  -- woken: back to the loop
  | true =>
    simp only [step, hpc, Option.some.injEq, Prod.mk.injEq] at hstep
    obtain ⟨rfl, rfl⟩ := hstep
    refine h.move helapsed ?_ rfl hexcuse fun _ _ hdec => nomatch hdec
    rw [Config.put_pc_self]
    exact ⟨rfl, rfl⟩
  -- the wait has failed, which excuses the end
  | false =>
    simp only [step, hpc, Option.some.injEq, Prod.mk.injEq] at hstep
    obtain ⟨rfl, rfl⟩ := hstep
    have hfailed : ∀ r, Timing.Excused (ρ := ρ) ⟨x.elapsed + d, x.reported || !false, r⟩ T :=
      fun r => .inl (by simp only [Bool.not_false, Bool.or_true])
    refine h.move helapsed ?_ rfl hexcuse fun _ _ _ => .inr (hfailed _)
    rw [Config.put_pc_self]
    exact Pc.giveUp_onTime c ret true (hfailed _)

/-- Every step keeps the call on time, in states that all steps keep valid. -/
theorem Timed.onTime (hpunctual : Punctual code ticks later t op T P success)
    (hkeeps : ∀ t' op' s e s', Atomic code t' op' s e s' → P s → P s')
    (hsound : cfg₀.Sound code) (hP : P cfg₀.shared)
    (h : Timed code ticks later t op start cfg₀ cfg x) :
    cfg.Sound code ∧ P cfg.shared ∧ OnTime ticks t op start T success cfg x := by
  -- soundness and validity are kept by the steps of all threads
  have hkept : ∀ {t' ch e} {cfg cfg' : Config θ κ σ ρ τ ι}, cfg.Sound code → P cfg.shared →
      step code cfg t' ch = some (e, cfg') → cfg'.Sound code ∧ P cfg'.shared := by
    intro t' ch e cfg cfg' hs hp hstep
    have hrun : Run code (fun _ _ _ => True) cfg _ cfg' := .snoc .nil trivial hstep
    refine ⟨hrun.sound hs, ?_⟩
    obtain ⟨op', hat⟩ | ⟨-, heq⟩ := (Step.of_step hstep).atomicOf
      (R := fun t op c _ => Calls code t op c) (hs t')
    · exact hkeeps _ _ _ _ _ hat hp
    · rwa [heq]
  induction h with
  | call hstep =>
    obtain ⟨hs', hp'⟩ := hkept hsound hP hstep
    exact ⟨hs', hp', .call hpunctual hP hstep⟩
  | other h hne hstep ih =>
    obtain ⟨hs, hp, hon⟩ := ih
    obtain ⟨hs', hp'⟩ := hkept hs hp hstep
    exact ⟨hs', hp', hon.other hne (Step.of_step hstep)⟩
  | go h hstep ih =>
    obtain ⟨hs, hp, hon⟩ := ih
    obtain ⟨hs', hp'⟩ := hkept hs hp hstep
    exact ⟨hs', hp', hon.go hpunctual hp hs hstep⟩
  | awake d woken h hpc hd hstep ih =>
    obtain ⟨hs, hp, hon⟩ := ih
    obtain ⟨hs', hp'⟩ := hkept hs hp hstep
    exact ⟨hs', hp', hon.awake hpc hd hstep⟩

end

end SyncProtocol
