import EspS31.Native.Wifi

/-!
# The start of the Wi-Fi driver

What the functions of the start machine can do, and when an operation can reach the
driver before it has reported `STA_START`.  `s31_wifi_start_operation` returns the
negated error of `esp_wifi_start`; the negation of a negative error reads as "run now".

## Key results

- `staStart_eq`: the handler as one update of the machine
- `operate_cases`: the six ways a request can go on after its preparation
- `operation_before_start_iff`: operations come before `STA_START` exactly when
  `esp_wifi_start` has failed with a negative code
-/

namespace EspS31.Wifi

/-! ## Negated codes -/

/-- The negation of a result is its negative, but for the least number. -/
private theorem toInt_neg_of_ne {rc : Int32} (h : rc ≠ Int32.minValue) :
    (-rc).toInt = -rc.toInt := by
  have hmin : rc.toInt ≠ -2147483648 := fun heq => h (Int32.toInt_inj.mp heq)
  have hle := rc.le_toInt
  have hlt := rc.toInt_lt
  rw [Int32.toInt_neg, Int.bmod_eq_of_le (by omega) (by omega)]

/-- A code whose negation reads as "run now". -/
private theorem neg_pos_iff {rc : Int32} : -rc > 0 ↔ rc < 0 ∧ rc ≠ Int32.minValue := by
  by_cases hmin : rc = Int32.minValue
  · subst hmin
    decide
  · rw [gt_iff_lt, Int32.lt_iff_toInt_lt, toInt_neg_of_ne hmin, Int32.lt_iff_toInt_lt,
      Int32.toInt_zero]
    constructor
    · intro hpos
      exact ⟨by omega, hmin⟩
    · intro hneg
      omega

/-- Any other error stays one. -/
private theorem neg_lt_zero {rc : Int32} (hrc : rc ≠ 0) (hpos : ¬ -rc > 0) : -rc < 0 := by
  refine Int32.lt_of_le_of_ne (Int32.not_lt.mp hpos) fun hzero => hrc ?_
  rw [← Int32.neg_neg (a := rc), hzero]
  rfl

/-! ## The machine's fields -/

section

variable (m : Machine) (obs : List Obs)

/-- What is observed is in the trace. -/
@[simp] theorem log_trace : (m.log obs).trace = m.trace ++ obs := rfl
/-- Observations leave what is parked. -/
@[simp] theorem log_pending : (m.log obs).pending = m.pending := rfl
/-- Observations leave whether the start is complete. -/
@[simp] theorem log_startComplete : (m.log obs).startComplete = m.startComplete := rfl
/-- Observations leave whether the start was asked for. -/
@[simp] theorem log_startRequested : (m.log obs).startRequested = m.startRequested := rfl
/-- Observations leave whether the driver is prepared. -/
@[simp] theorem log_prepared : (m.log obs).prepared = m.prepared := rfl
/-- Observations leave the requests. -/
@[simp] theorem log_requests : (m.log obs).requests = m.requests := rfl
/-- Observations leave which request is parked. -/
@[simp] theorem log_parked : (m.log obs).parked = m.parked := rfl

end

/-! ## What the functions can do -/

/-- A call, its result and the report if it fails. -/
def attempt (id : Nat) (op : Pending) (c : Call) (rc : Int32) : List Obs :=
  [.called id c, .returned id c rc] ++ if rc = 0 then [] else [.report id op rc]

/-- What the handler does for the request that is parked. -/
def handled (pending : Pending) (id : Nat) (a : EventAnswers) : List Obs :=
  [.called id .regNetstackBufCb, .returned id .regNetstackBufCb a.regNetstackBufCb] ++
    match pending with
    | .none => []
    | .scan =>
      if a.regNetstackBufCb = 0 then attempt id .scan .scanStart a.scanStart
      else [.report id .scan a.regNetstackBufCb]
    | .connect =>
      if a.regNetstackBufCb = 0 then attempt id .connect .connect a.connect
      else [.report id .connect a.regNetstackBufCb]

/-- The handler completes the start and finishes what is parked. -/
theorem staStart_eq (m : Machine) (a : EventAnswers) :
    staStart m a = { m with
      pending := .none
      startComplete := true
      trace := m.trace ++ .staStart :: handled m.pending m.parked a } := by
  cases hpending : m.pending with
  | none => simp [staStart, invoke, Machine.log, handled, hpending]
  | scan =>
    -- what is parked runs if the callback could be registered
    by_cases hreg : a.regNetstackBufCb = 0
    · by_cases hscan : a.scanStart = 0
      · simp [staStart, invoke, Machine.log, handled, attempt, hpending, hreg, hscan]
      · simp [staStart, invoke, Machine.log, handled, attempt, hpending, hreg, hscan]
    · simp [staStart, invoke, Machine.log, handled, hpending, hreg]
  | connect =>
    by_cases hreg : a.regNetstackBufCb = 0
    · by_cases hconnect : a.connect = 0
      · simp [staStart, invoke, Machine.log, handled, attempt, hpending, hreg, hconnect]
      · simp [staStart, invoke, Machine.log, handled, attempt, hpending, hreg, hconnect]
    · simp [staStart, invoke, Machine.log, handled, hpending, hreg]

/-- A call returns what the driver answers. -/
@[simp] theorem call_fst (id : Nat) (c : Call) (a : Answer) (m : Machine) :
    (call id c a m).1 = a.rc := rfl

/-- A call, the events that come before it returns, and its return. -/
theorem call_snd (id : Nat) (c : Call) (a : Answer) (m : Machine) :
    (call id c a m).2 =
      (a.events.foldl staStart (m.log [.called id c])).log [.returned id c a.rc] := rfl

/-- What holds before the events of a call and survives each of them holds after. -/
theorem events_keep {P : Machine → Prop} (hevent : ∀ m a, P m → P (staStart m a))
    (events : List EventAnswers) {m : Machine} (h : P m) : P (events.foldl staStart m) := by
  induction events generalizing m with
  | nil => exact h
  | cons a events ih => exact ih (hevent m a h)

/-- Events go on with the trace. -/
private theorem events_extend (events : List EventAnswers) (m : Machine) :
    m.trace <+: (events.foldl staStart m).trace := by
  refine events_keep (P := fun m' => m.trace <+: m'.trace) (fun m' a h => ?_) events
    (List.prefix_refl _)
  rw [staStart_eq]
  exact h.trans (List.prefix_append ..)

/-- A call goes on with the trace. -/
private theorem call_extends (id : Nat) (c : Call) (a : Answer) (m : Machine) :
    m.trace ++ [.called id c] <+: (call id c a m).2.trace :=
  (events_extend a.events (m.log [.called id c])).trans (List.prefix_append ..)

/-- What every call keeps, calls in a row keep. -/
private theorem callAll_keeps {P : Machine → Prop} {id : Nat} {calls : List (Call × Answer)}
    (hcall : ∀ ca ∈ calls, ∀ m, P m → P (call id ca.1 ca.2 m).2) {m : Machine} (h : P m) :
    P (callAll id calls m).2 := by
  induction calls generalizing m with
  | nil => exact h
  | cons ca calls ih =>
    obtain ⟨c, a⟩ := ca
    have hfirst : P (call id c a m).2 := hcall (c, a) (List.mem_cons_self ..) m h
    rw [callAll]
    by_cases hrc : a.rc = 0
    · simp only [call_fst, hrc, ne_eq, not_true_eq_false, if_false]
      exact ih (fun ca hca => hcall ca (List.mem_cons_of_mem _ hca)) hfirst
    · simp only [call_fst, hrc, ne_eq, not_false_eq_true, if_true]
      exact hfirst

/-- The preparation keeps what its calls keep. -/
theorem prepare_keeps {P : Machine → Prop} {id : Nat} {a : Answers}
    (hcall : ∀ ca ∈ prepareCalls a, ∀ m, P m → P (call id ca.1 ca.2 m).2)
    (hprepared : ∀ m, P m → P { m with prepared := true }) {m : Machine} (h : P m) :
    P (prepare id a m).2 := by
  have hall := callAll_keeps hcall h
  rw [prepare]
  by_cases hprep : m.prepared
  · simp only [hprep, not_true_eq_false, if_false]
    exact h
  · rw [if_pos hprep]
    by_cases hrc : (callAll id (prepareCalls a) m).1 = 0
    · simp only [hrc, if_true]
      exact hprepared _ hall
    · simp only [hrc, if_false]
      exact hall

/-- A request after its preparation: it runs at once, is refused, waits for the start
    that is under way, or asks for the start.  Then it waits, runs because a negative
    error reads as "run now", or fails. -/
theorem operate_cases (id : Nat) (op : Pending) (c : Call) (start a : Answer) (m : Machine) :
    let parked := { m with pending := op, parked := id }
    let started := (call id .start start parked).2
    (m.startComplete = true ∧ operate id op c start a m = call id c a m) ∨
    (m.startComplete = false ∧ m.pending ≠ .none ∧ operate id op c start a m = (1, m)) ∨
    (m.startComplete = false ∧ m.pending = .none ∧ m.startRequested = true ∧
      operate id op c start a m = (0, parked)) ∨
    (m.startComplete = false ∧ m.pending = .none ∧ m.startRequested = false ∧ start.rc = 0 ∧
      operate id op c start a m = (0, { started with startRequested := true })) ∨
    (m.startComplete = false ∧ m.pending = .none ∧ m.startRequested = false ∧ start.rc < 0 ∧
      start.rc ≠ Int32.minValue ∧
      operate id op c start a m = call id c a { started with pending := .none }) ∨
    (m.startComplete = false ∧ m.pending = .none ∧ m.startRequested = false ∧ start.rc ≠ 0 ∧
      ¬ (start.rc < 0 ∧ start.rc ≠ Int32.minValue) ∧
      operate id op c start a m = (start.rc, { started with pending := .none })) := by
  intro parked started
  -- the tests of `s31_wifi_start_operation` in their order
  cases hcomplete : m.startComplete with
  | true => exact .inl ⟨rfl, by simp [operate, startOperation, hcomplete]⟩
  | false =>
    refine .inr ?_
    by_cases hpending : m.pending = .none
    · refine .inr ?_
      cases hrequested : m.startRequested with
      | true =>
        exact .inl ⟨rfl, hpending, rfl, by
          simp [operate, startOperation, hcomplete, hpending, hrequested, parked]⟩
      | false =>
        refine .inr ?_
        by_cases hrc : start.rc = 0
        · exact .inl ⟨rfl, hpending, rfl, hrc, by
            simp [operate, startOperation, hcomplete, hpending, hrequested, hrc, started, parked]⟩
        · have hstart : startOperation id op start m =
              (-start.rc, { started with pending := .none }) := by
            simp [startOperation, hcomplete, hpending, hrequested, hrc, started, parked]
          refine .inr ?_
          -- the source negates the result, which the least number does not survive
          by_cases hpos : -start.rc > 0
          · obtain ⟨hneg, hmin⟩ := neg_pos_iff.mp hpos
            refine .inl ⟨rfl, hpending, rfl, hneg, hmin, ?_⟩
            rw [operate, hstart]
            simp only [hpos, if_true]
          · refine .inr ⟨rfl, hpending, rfl, hrc, fun h => hpos (neg_pos_iff.mpr h), ?_⟩
            rw [operate, hstart]
            simp only [hpos, if_false, neg_lt_zero hrc hpos, if_true, Int32.neg_neg]
    · exact .inl ⟨rfl, hpending, by simp [operate, startOperation, hcomplete, hpending]⟩

/-! ## Operations before the start -/

/-- The trace before the first `STA_START`. -/
def beforeStart (t : List Obs) : List Obs := t.takeWhile (· ≠ .staStart)

/-- A call of `esp_wifi_scan_start` or `esp_wifi_connect`. -/
def Obs.isOperation : Obs → Bool
  | .called _ .scanStart | .called _ .connect => true
  | _ => false

/-- `esp_wifi_start` returns a code whose negation is positive. -/
def Obs.isNegativeStart : Obs → Bool
  | .returned _ .start rc => rc < 0 ∧ rc ≠ Int32.minValue
  | _ => false

/-- After the start the part before it stays. -/
private theorem beforeStart_append_of_mem {t : List Obs} (h : .staStart ∈ t) (u : List Obs) :
    beforeStart (t ++ u) = beforeStart t := by
  induction t with
  | nil => exact absurd h List.not_mem_nil
  | cons o t ih =>
    rw [List.cons_append, beforeStart, beforeStart]
    by_cases ho : o = .staStart
    · simp [ho]
    · have htail := ih ((List.mem_cons.mp h).resolve_left (Ne.symm ho))
      rw [List.takeWhile_cons_of_pos (by simpa using ho),
        List.takeWhile_cons_of_pos (by simpa using ho)]
      exact congrArg (o :: ·) htail

/-- Before the start the part before it goes on. -/
private theorem beforeStart_append_of_not_mem {t : List Obs} (h : .staStart ∉ t) (u : List Obs) :
    beforeStart (t ++ u) = t ++ beforeStart u := by
  refine List.takeWhile_append_of_pos fun o ho => ?_
  have hne : o ≠ .staStart := fun heq => h (heq ▸ ho)
  simpa using hne

/-- The start is complete only after `STA_START`, and before it operations and
    negative results of `esp_wifi_start` occur together. -/
structure Early (m : Machine) : Prop where
  complete : m.startComplete = true → .staStart ∈ m.trace
  together : (∃ o ∈ beforeStart m.trace, o.isOperation) ↔
    ∃ o ∈ beforeStart m.trace, o.isNegativeStart

section

variable {m m' : Machine}

/-- After `STA_START` nothing can go wrong. -/
theorem Early.extend (h : Early m) (hmem : .staStart ∈ m.trace) (hpre : m.trace <+: m'.trace) :
    Early m' := by
  obtain ⟨obs, htrace⟩ := hpre
  refine ⟨fun _ => htrace ▸ List.mem_append_left _ hmem, ?_⟩
  rw [← htrace, beforeStart_append_of_mem hmem]
  exact h.together

/-- Observations that are neither. -/
theorem Early.quiet (h : Early m) {obs : List Obs} (htrace : m'.trace = m.trace ++ obs)
    (hobs : ∀ o ∈ obs, o.isOperation = false ∧ o.isNegativeStart = false)
    (hcomplete : m'.startComplete = true → m.startComplete = true) : Early m' := by
  by_cases hmem : .staStart ∈ m.trace
  · exact h.extend hmem (htrace ▸ List.prefix_append ..)
  · have hbefore : ∀ p : Obs → Bool, (∀ o ∈ obs, p o = false) →
        ((∃ o ∈ beforeStart m'.trace, p o) ↔ ∃ o ∈ beforeStart m.trace, p o) := by
      intro p hp
      have hold : beforeStart m.trace = m.trace := by
        have happ := beforeStart_append_of_not_mem hmem []
        rw [List.append_nil] at happ
        exact happ.trans (List.append_nil _)
      rw [htrace, beforeStart_append_of_not_mem hmem, hold]
      constructor
      · rintro ⟨o, ho, hpo⟩
        obtain ho | ho := List.mem_append.mp ho
        · exact ⟨o, ho, hpo⟩
        · have hfalse := hp o ((List.takeWhile_prefix _).mem ho)
          exact absurd hpo (by simp [hfalse])
      · rintro ⟨o, ho, hpo⟩
        exact ⟨o, List.mem_append_left _ ho, hpo⟩
    refine ⟨fun hc => htrace ▸ List.mem_append_left _ (h.complete (hcomplete hc)), ?_⟩
    rw [hbefore _ fun o ho => (hobs o ho).1, hbefore _ fun o ho => (hobs o ho).2]
    exact h.together

/-- The start of the station keeps the invariant. -/
private theorem early_staStart (h : Early m) (a : EventAnswers) :
    Early (staStart m a) ∧ .staStart ∈ (staStart m a).trace := by
  rw [staStart_eq]
  have hmem : Obs.staStart ∈ m.trace ++ .staStart :: handled m.pending m.parked a :=
    List.mem_append_right _ (List.mem_cons_self ..)
  -- what comes with the start is no longer before it
  have hbefore : beforeStart (m.trace ++ .staStart :: handled m.pending m.parked a) =
      beforeStart m.trace := by
    by_cases hold : .staStart ∈ m.trace
    · exact beforeStart_append_of_mem hold _
    · rw [beforeStart_append_of_not_mem hold]
      have happ := beforeStart_append_of_not_mem hold []
      rw [List.append_nil] at happ
      rw [happ, beforeStart, beforeStart, List.takeWhile_cons_of_neg (by simp), List.takeWhile_nil]
  refine ⟨⟨fun _ => hmem, ?_⟩, hmem⟩
  simp only [hbefore]
  exact h.together

/-- The events of a call, if there are any, are `STA_START`s. -/
private theorem early_events (h : Early m) (events : List EventAnswers) :
    Early (events.foldl staStart m) ∧
      (events ≠ [] → .staStart ∈ (events.foldl staStart m).trace) := by
  induction events generalizing m with
  | nil => exact ⟨h, fun hne => absurd rfl hne⟩
  | cons a events ih =>
    obtain ⟨hfirst, hmem⟩ := early_staStart h a
    refine ⟨(ih hfirst).1, fun _ => ?_⟩
    exact (events_extend events _).subset hmem

/-- A call completes the start only by an event. -/
private theorem call_complete (h : m.startComplete = true → .staStart ∈ m.trace) (id : Nat)
    (c : Call)
    (a : Answer) (hcomplete : (call id c a m).2.startComplete = true) :
    .staStart ∈ (call id c a m).2.trace := by
  have hevents := events_keep (P := fun m => m.startComplete = true → .staStart ∈ m.trace)
    (fun m a _ _ => by rw [staStart_eq]; exact List.mem_append_right _ (List.mem_cons_self ..))
    a.events (m := m.log [.called id c]) fun hc => List.mem_append_left _ (h hc)
  exact List.mem_append_left _ (hevents hcomplete)

/-- A call that is no operation, and no failing start unless `STA_START` has come. -/
private theorem early_call (h : Early m) (id : Nat) (c : Call) (a : Answer)
    (hc : (Obs.called id c).isOperation = false)
    (hrc : (Obs.returned id c a.rc).isNegativeStart = true → a.events ≠ [] ∨ .staStart ∈ m.trace) :
    Early (call id c a m).2 := by
  have hcalled : Early (m.log [.called id c]) :=
    h.quiet (log_trace ..) (by simpa using ⟨hc, rfl⟩) fun hcomplete => hcomplete
  obtain ⟨hevents, hmem⟩ := early_events hcalled a.events
  rw [call_snd]
  by_cases hneg : (Obs.returned id c a.rc).isNegativeStart = true
  · refine hevents.extend ?_ (List.prefix_append ..)
    obtain hne | hold := hrc hneg
    · exact hmem hne
    · exact (events_extend a.events _).subset (List.mem_append_left _ hold)
  · refine hevents.quiet (log_trace ..) ?_ fun hcomplete => hcomplete
    simpa using ⟨rfl, by simpa using hneg⟩

/-- The preparation keeps the invariant. -/
private theorem early_prepare (h : Early m) (id : Nat) (a : Answers) :
    Early (prepare id a m).2 := by
  refine prepare_keeps (fun ca hca m hm => ?_) (fun m hm => ⟨hm.complete, hm.together⟩) h
  have hquiet : (Obs.called id ca.1).isOperation = false ∧
      (Obs.returned id ca.1 ca.2.rc).isNegativeStart = false := by
    simp only [prepareCalls, List.mem_cons, List.not_mem_nil, or_false] at hca
    obtain rfl | rfl | rfl | rfl | rfl | rfl := hca <;> exact ⟨rfl, rfl⟩
  exact early_call hm id ca.1 ca.2 hquiet.1 fun hneg => absurd hneg (by simp [hquiet.2])

/-- A negative result of `esp_wifi_start` and the operation that follows: either
    `STA_START` has come or both are early. -/
private theorem early_negative (h : Early m) {id : Nat} {c : Call} {start a : Answer}
    (hop : (Obs.called id c).isOperation = true)
    (hneg : (Obs.returned id .start start.rc).isNegativeStart = true)
    (htrace : m'.trace = (call id .start start m).2.trace)
    (hcomplete : m'.startComplete = (call id .start start m).2.startComplete) :
    Early (call id c a m').2 := by
  have hcalled : Early (m.log [.called id .start]) :=
    h.quiet (log_trace ..) (by simp [Obs.isOperation, Obs.isNegativeStart]) fun hc => hc
  -- the start event has come, with this call or before, or it has not
  by_cases hcome : start.events ≠ [] ∨ .staStart ∈ m.trace
  · have hstarted := early_call h id .start start rfl fun _ => hcome
    have hmem : .staStart ∈ m'.trace := by
      rw [htrace, call_snd]
      refine List.mem_append_left _ ?_
      obtain hne | hold := hcome
      · exact (early_events hcalled start.events).2 hne
      · exact (events_extend start.events _).subset (List.mem_append_left _ hold)
    have hm' : Early m' := ⟨fun _ => hmem, htrace ▸ hstarted.together⟩
    exact hm'.extend hmem ((List.prefix_append ..).trans (call_extends id c a m'))
  · obtain ⟨hevents, hold⟩ := not_or.mp hcome
    have hm' : m'.trace = m.trace ++ [.called id .start, .returned id .start start.rc] := by
      rw [htrace, call_snd, not_not.mp hevents]
      simp
    have hearly : m'.startComplete = true → .staStart ∈ m'.trace := by
      rw [hcomplete, htrace]
      exact call_complete h.complete id .start start
    obtain ⟨obs, hobs⟩ := call_extends id c a m'
    -- the failed start and the operation are both in front of the first start event
    have hbefore : beforeStart (call id c a m').2.trace =
        m.trace ++ [.called id .start, .returned id .start start.rc, .called id c] ++
          beforeStart obs := by
      rw [← hobs, hm', ← beforeStart_append_of_not_mem]
      · simp
      · simpa using hold
    refine ⟨call_complete hearly id c a, ?_⟩
    rw [hbefore]
    exact iff_of_true ⟨.called id c, by simp, hop⟩ ⟨.returned id .start start.rc, by simp, hneg⟩

/-- Before the start completes, an operation is submitted only by a request whose
    `esp_wifi_start` has failed with a negative code. -/
private theorem early_operate (h : Early m) {id : Nat} {op : Pending} {c : Call} {start a : Answer}
    (hc : c = .scanStart ∨ c = .connect) : Early (operate id op c start a m).2 := by
  have hop : (Obs.called id c).isOperation = true := by
    obtain rfl | rfl := hc <;> rfl
  have hparked : Early { m with pending := op, parked := id } := ⟨h.complete, h.together⟩
  have hstarted : ¬ (start.rc < 0 ∧ start.rc ≠ Int32.minValue) →
      Early (call id .start start { m with pending := op, parked := id }).2 := fun hnot =>
    early_call hparked id .start start rfl fun hneg => absurd (of_decide_eq_true hneg) hnot
  obtain ⟨hcomplete, heq⟩ | ⟨-, -, heq⟩ | ⟨-, -, -, heq⟩ | ⟨-, -, -, hrc, heq⟩ |
    ⟨-, -, -, hneg, hmin, heq⟩ | ⟨-, -, -, -, hnot, heq⟩ := operate_cases id op c start a m
  -- started before: the call is made at once
  · rw [heq]
    exact h.extend (h.complete hcomplete) ((List.prefix_append ..).trans (call_extends id c a m))
  · rw [heq]
    exact h
  · rw [heq]
    exact hparked
  · rw [heq]
    have hfine := hstarted fun hneg => by simp [hrc] at hneg
    exact ⟨hfine.complete, hfine.together⟩
  · rw [heq]
    -- the negative code is negated, and the caller goes on
    exact early_negative hparked hop (decide_eq_true ⟨hneg, hmin⟩) rfl rfl
  · rw [heq]
    have hfine := hstarted hnot
    exact ⟨hfine.complete, hfine.together⟩

/-- A failure report is quiet. -/
private theorem early_report (h : Early m) (id : Nat) (op : Pending) (rc : Int32) :
    Early (if rc ≠ 0 then m.log [.report id op rc] else m) := by
  split
  · exact h.quiet (log_trace ..) (by simp [Obs.isOperation, Obs.isNegativeStart]) fun hc => hc
  · exact h

/-- Every step keeps the invariant. -/
private theorem early_step (h : Early m) (s : Step) : Early (step m s) := by
  cases s with
  | staStart a => exact (early_staStart h a).1
  -- the request is noted, the driver prepared, the operation run or parked, and a failure reported
  | scan a =>
    have hrequest : Early { m with requests := m.requests ++ [.scan] } := ⟨h.complete, h.together⟩
    have hprepare := early_prepare hrequest m.requests.length a
    simp only [step, scanTask]
    refine early_report ?_ ..
    split
    · exact early_operate hprepare (.inl rfl)
    · exact hprepare
  | connect params a =>
    have hrequest : Early { m with requests := m.requests ++ [.connect params] } :=
      ⟨h.complete, h.together⟩
    have hprepare := early_prepare hrequest m.requests.length a
    simp only [step, connectTask]
    refine early_report ?_ ..
    split
    · exact hprepare
    · have hconfig := early_call hprepare m.requests.length (.setConfig (buildConfig params))
        a.setConfig rfl fun hneg => nomatch hneg
      split
      · exact early_operate hconfig (.inr rfl)
      · exact hconfig

/-- The invariant holds after every run. -/
private theorem early_run (steps : List Step) : Early (run steps) := by
  suffices hfold : ∀ m, Early m → Early (steps.foldl step m) from
    hfold {} ⟨(nomatch ·), by simp [beforeStart]⟩
  induction steps with
  | nil => exact fun m h => h
  | cons s steps ih => exact fun m h => ih _ (early_step h s)

end

/-- No operation is submitted before `STA_START` exactly when `esp_wifi_start` returns
    no negative code before it. -/
theorem operation_before_start_iff (steps : List Step) :
    (∀ o ∈ beforeStart (run steps).trace, ¬ o.isOperation) ↔
      ∀ o ∈ beforeStart (run steps).trace, ¬ o.isNegativeStart := by
  have htogether := not_congr (early_run steps).together
  simpa only [not_exists, not_and] using htogether

/-- A scan whose `esp_wifi_start` fails with `ESP_FAIL` is submitted. -/
theorem scan_before_start :
    ∃ o ∈ beforeStart (run [.scan { start := { rc := -1 } }]).trace, o.isOperation = true := by
  decide +kernel

end EspS31.Wifi
