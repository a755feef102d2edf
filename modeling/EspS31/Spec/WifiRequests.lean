import Mathlib.Data.List.Pairwise
import EspS31.Spec.WifiStart

/-!
# The outcome of a Wi-Fi request

A request is submitted to the driver, reported as failed or parked, and never more
than one of these.  The outcomes in the trace, with the request that is parked, are
the requests that the steps so far have made, up to their order.

## Key results

- `outcomes_staStart`: the handler answers the request that is parked and no other
- `settled_step`: a run of a task adds its own request to the outcomes
- `requests_settled`: every request has exactly one outcome, and `esp_wifi_start` is
  not called again after it has succeeded
-/

namespace EspS31.Wifi

/-! ## Requests -/

/-- The request that a step makes. -/
def Step.request : Step → Option Request
  | .scan _ => some .scan
  | .connect params _ => some (.connect params)
  | .staStart _ => none

/-! ## Outcomes -/

/-- What a request waits with. -/
def Request.op : Request → Pending
  | .scan => .scan
  | .connect _ => .connect

/-- A request that is submitted or reported as failed. -/
def Obs.outcome : Obs → Option (Nat × Pending)
  | .returned id .scanStart rc => if rc = 0 then some (id, .scan) else none
  | .returned id .connect rc => if rc = 0 then some (id, .connect) else none
  | .report id op _ => some (id, op)
  | _ => none

/-- The request that is parked. -/
def Machine.waiting (m : Machine) : List (Nat × Pending) :=
  if m.pending = .none then [] else [(m.parked, m.pending)]

/-- Observations leave what waits. -/
@[simp] theorem log_waiting (m : Machine) (obs : List Obs) : (m.log obs).waiting = m.waiting := rfl

/-- The requests that were submitted or reported, and the one that waits. -/
def Machine.outcomes (m : Machine) : List (Nat × Pending) :=
  m.trace.filterMap Obs.outcome ++ m.waiting

/-- The requests with their numbers. -/
def numbered (requests : List Request) : List (Nat × Pending) :=
  requests.zipIdx.map fun r => (r.2, r.1.op)

/-- One request more is the next number. -/
private theorem numbered_append (requests : List Request) (r : Request) :
    numbered (requests ++ [r]) = numbered requests ++ [(requests.length, r.op)] := by
  simp [numbered, List.zipIdx_append]

/-- The driver function that submits an operation. -/
def Submits (op : Pending) (c : Call) : Prop :=
  (op = .scan ∧ c = .scanStart) ∨ (op = .connect ∧ c = .connect)

/-- An attempt is one outcome of its request. -/
private theorem filterMap_attempt {id : Nat} {op : Pending} {c : Call} (h : Submits op c)
    (rc : Int32) :
    (attempt id op c rc).filterMap Obs.outcome = [(id, op)] := by
  obtain ⟨rfl, rfl⟩ | ⟨rfl, rfl⟩ := h
  · by_cases hrc : rc = 0 <;> simp [attempt, Obs.outcome, List.filterMap_cons, hrc]
  · by_cases hrc : rc = 0 <;> simp [attempt, Obs.outcome, List.filterMap_cons, hrc]

/-- The handler answers the parked request once. -/
private theorem filterMap_handled (pending : Pending) (id : Nat) (a : EventAnswers) :
    (handled pending id a).filterMap Obs.outcome =
      if pending = .none then [] else [(id, pending)] := by
  cases pending with
  | none => simp [handled, Obs.outcome, List.filterMap_cons]
  | scan =>
    by_cases hreg : a.regNetstackBufCb = 0
    · simp [handled, Obs.outcome, List.filterMap_cons, hreg, filterMap_attempt (.inl ⟨rfl, rfl⟩)]
    · simp [handled, Obs.outcome, List.filterMap_cons, hreg]
  | connect =>
    by_cases hreg : a.regNetstackBufCb = 0
    · simp [handled, Obs.outcome, List.filterMap_cons, hreg, filterMap_attempt (.inr ⟨rfl, rfl⟩)]
    · simp [handled, Obs.outcome, List.filterMap_cons, hreg]

/-- The start of the station settles what waits and nothing else. -/
theorem outcomes_staStart (m : Machine) (a : EventAnswers) :
    (staStart m a).outcomes = m.outcomes := by
  rw [staStart_eq]
  simp only [Machine.outcomes, Machine.waiting, List.filterMap_append, if_true, List.append_nil]
  rw [List.filterMap_cons_none rfl, filterMap_handled]

/-- Observations add their outcomes. -/
private theorem outcomes_log (m : Machine) (obs : List Obs) :
    ((m.log obs).outcomes).Perm (obs.filterMap Obs.outcome ++ m.outcomes) := by
  have hlog : (m.log obs).outcomes =
      m.trace.filterMap Obs.outcome ++ (obs.filterMap Obs.outcome ++ m.waiting) := by
    simp [Machine.outcomes]
  rw [hlog]
  exact List.perm_append_comm_assoc ..

/-! ## The rest of the invariant -/

/-- Neither a start of the driver nor a report of success. -/
def Obs.plain : Obs → Prop
  | .called _ c => c ≠ .start
  | .returned _ c rc => ¬ (c = .start ∧ rc = 0)
  | .report _ _ rc => rc ≠ 0
  | .staStart => True

/-- The second observation does not start the driver again. -/
def notAgain (o o' : Obs) : Prop :=
  (∃ id, o = .returned id .start 0) → ∀ id, o' ≠ .called id .start

/-- Nothing is parked after the start, the driver is started once, and a report is of an
    error. -/
structure Sound (m : Machine) : Prop where
  idle : m.startComplete = true → m.pending = .none
  once : m.trace.Pairwise notAgain
  requested : ∀ id, .returned id .start 0 ∈ m.trace → m.startRequested = true
  reports : ∀ id op rc, .report id op rc ∈ m.trace → rc ≠ 0

section

variable {m : Machine} {made : List Request}

/-- Plain observations keep the invariant, and so does the call of `esp_wifi_start`
    while it was not requested. -/
theorem Sound.append (h : Sound m) {m' : Machine} {obs : List Obs}
    (htrace : m'.trace = m.trace ++ obs)
    (hobs : ∀ o ∈ obs, o.plain ∨ ((∃ id, o = .called id .start) ∧ m.startRequested = false))
    (hrequested : m'.startRequested = m.startRequested)
    (hidle : m'.startComplete = true → m'.pending = .none) : Sound m' := by
  -- none of the new observations is the return of a start that succeeded
  have hreturned : ∀ id, .returned id .start 0 ∉ obs := by
    intro id hmem
    obtain hplain | ⟨⟨id', heq⟩, -⟩ := hobs _ hmem
    · exact hplain ⟨rfl, rfl⟩
    · exact nomatch heq
  refine ⟨hidle, ?_, ?_, ?_⟩
  -- no start is called after one that has succeeded
  · rw [htrace, List.pairwise_append]
    refine ⟨h.once, ?_, ?_⟩
    · refine List.Pairwise.imp_of_mem (fun ho _ _ => ?_)
        (List.pairwise_of_forall (R := fun _ _ => True) fun _ _ => trivial)
      rintro ⟨id, rfl⟩
      exact absurd ho (hreturned id)
    · rintro o ho o' ho' ⟨id, rfl⟩ id' rfl
      obtain hplain | ⟨-, hnot⟩ := hobs _ ho'
      · exact hplain rfl
      · simp [h.requested id ho] at hnot
  · intro id hmem
    rw [htrace, List.mem_append] at hmem
    rw [hrequested]
    exact h.requested id (hmem.resolve_right (hreturned id))
  -- every report is a plain failure
  · intro id op rc hmem
    rw [htrace, List.mem_append] at hmem
    obtain hmem | hmem := hmem
    · exact h.reports id op rc hmem
    · obtain hplain | ⟨⟨id', heq⟩, -⟩ := hobs _ hmem
      · exact hplain
      · exact nomatch heq

/-- Observations that settle nothing keep this. -/
theorem Sound.log (h : Sound m) {obs : List Obs} (hobs : ∀ o ∈ obs, o.plain) :
    Sound (m.log obs) :=
  h.append (log_trace ..) (fun o ho => .inl (hobs o ho)) rfl h.idle

/-- An attempt settles nothing besides its request. -/
private theorem plain_attempt {id : Nat} {op : Pending} {c : Call} (hc : c ≠ .start) (rc : Int32) :
    ∀ o ∈ attempt id op c rc, o.plain := by
  intro o ho
  by_cases hrc : rc = 0
  · simp only [attempt, hrc, if_true, List.append_nil, List.mem_cons, List.not_mem_nil,
      or_false] at ho
    obtain rfl | rfl := ho <;> simp [Obs.plain, hc]
  · simp only [attempt, hrc, if_false, List.mem_append, List.mem_cons, List.not_mem_nil,
      or_false] at ho
    obtain (rfl | rfl) | rfl := ho <;> simp [Obs.plain, hc, hrc]

/-- Handling what waits settles nothing besides it. -/
private theorem plain_handled (pending : Pending) (id : Nat) (a : EventAnswers) :
    ∀ o ∈ handled pending id a, o.plain := by
  intro o ho
  -- the two registrations, then the parked call or the failed one's report
  obtain ho | ho := List.mem_append.mp ho
  · simp only [List.mem_cons, List.not_mem_nil, or_false] at ho
    obtain rfl | rfl := ho <;> simp [Obs.plain]
  · cases pending with
    | none => exact absurd ho List.not_mem_nil
    | scan =>
      by_cases hreg : a.regNetstackBufCb = 0
      · simp only [hreg, if_true] at ho
        exact plain_attempt (by simp) a.scanStart o ho
      · simp only [hreg, if_false, List.mem_singleton] at ho
        rw [ho]
        exact hreg
    | connect =>
      by_cases hreg : a.regNetstackBufCb = 0
      · simp only [hreg, if_true] at ho
        exact plain_attempt (by simp) a.connect o ho
      · simp only [hreg, if_false, List.mem_singleton] at ho
        rw [ho]
        exact hreg

/-- The start of the station keeps this. -/
private theorem sound_staStart (h : Sound m) (a : EventAnswers) : Sound (staStart m a) := by
  rw [staStart_eq]
  refine h.append rfl (fun o ho => .inl ?_) rfl fun _ => rfl
  obtain rfl | ho := List.mem_cons.mp ho
  · exact trivial
  · exact plain_handled _ _ _ o ho

/-! ## The runs of the tasks -/

/-- `STA_START` is delivered between the runs of the tasks, or while `esp_wifi_start`
    runs and succeeds. -/
structure Answers.Serial (a : Answers) : Prop where
  prepare : ∀ ca ∈ prepareCalls a, ca.2.events = []
  setConfig : a.setConfig.events = []
  scanStart : a.scanStart.events = []
  connect : a.connect.events = []
  start : a.start.events ≠ [] → a.start.rc = 0

/-- No event comes in during the step, but in the start that it waits for. -/
def Step.Serial : Step → Prop
  | .scan a | .connect _ a => a.Serial
  | .staStart _ => True

/-- A call without events is itself and its return. -/
private theorem call_quiet (id : Nat) (c : Call) {a : Answer} (ha : a.events = []) (m : Machine) :
    call id c a m = (a.rc, m.log [.called id c, .returned id c a.rc]) := by
  rw [call, ha]
  simp [Machine.log]

/-- A preparation has no outcome. -/
private theorem prepare_sound (h : Sound m) (id : Nat) {a : Answers} (ha : a.Serial) :
    Sound (prepare id a m).2 ∧ (prepare id a m).2.outcomes = m.outcomes ∧
      (prepare id a m).2.requests = m.requests := by
  refine prepare_keeps (P := fun m' => Sound m' ∧ m'.outcomes = m.outcomes ∧
    m'.requests = m.requests) (fun ca hca m' hm' => ?_) (fun m' hm' => ?_) ⟨h, rfl, rfl⟩
  · obtain ⟨hsound, houtcomes, hrequests⟩ := hm'
    -- none of the six calls starts, scans or connects
    have hcall : ca.1 ≠ .start ∧ ca.1 ≠ .scanStart ∧ ca.1 ≠ .connect := by
      simp only [prepareCalls, List.mem_cons, List.not_mem_nil, or_false] at hca
      obtain rfl | rfl | rfl | rfl | rfl | rfl := hca <;> simp
    rw [call_quiet id ca.1 (ha.prepare ca hca)]
    refine ⟨hsound.log (by simp [Obs.plain, hcall.1]), ?_, hrequests⟩
    -- so none of them settles a request
    have hnone : (Obs.returned id ca.1 ca.2.rc).outcome = none := by
      obtain ⟨c, a'⟩ := ca
      cases c <;> simp_all [Obs.outcome]
    rw [← houtcomes]
    simp only [Machine.outcomes, log_waiting, log_trace, List.filterMap_append]
    rw [List.filterMap_cons_none rfl, List.filterMap_cons_none hnone, List.filterMap_nil,
      List.append_nil]
  · obtain ⟨hsound, houtcomes, hrequests⟩ := hm'
    exact ⟨⟨hsound.idle, hsound.once, hsound.requested, hsound.reports⟩, houtcomes, hrequests⟩

/-- What a request does after its preparation: with the code 0 it is submitted or
    parked, with another it has no outcome yet. -/
structure Operated (id : Nat) (op : Pending) (m : Machine) (result : Int32 × Machine) : Prop where
  sound : Sound result.2
  outcomes : (result.2.outcomes).Perm
    (if result.1 = 0 then (id, op) :: m.outcomes else m.outcomes)
  requests : result.2.requests = m.requests

/-- A submission. -/
private theorem operated_call (h : Sound m) (id : Nat) {op : Pending} {c : Call} {a : Answer}
    (hc : Submits op c) (ha : a.events = []) : Operated id op m (call id c a m) := by
  have hstart : c ≠ .start := by
    obtain ⟨-, rfl⟩ | ⟨-, rfl⟩ := hc <;> simp
  rw [call_quiet id c ha]
  refine ⟨h.log (by simp [Obs.plain, hstart]), (outcomes_log ..).trans ?_, rfl⟩
  obtain ⟨rfl, rfl⟩ | ⟨rfl, rfl⟩ := hc
  · by_cases hrc : a.rc = 0 <;> simp [Obs.outcome, List.filterMap_cons, hrc]
  · by_cases hrc : a.rc = 0 <;> simp [Obs.outcome, List.filterMap_cons, hrc]

/-- The machine after a start that was asked for by `id`. -/
private theorem operated_start (h : Sound m) {id : Nat} {op : Pending} {start : Answer}
    (hop : op ≠ .none) (hcomplete : m.startComplete = false) (hpending : m.pending = .none)
    (hrequested : m.startRequested = false) (hstart : start.rc = 0) :
    Operated id op m (0, { (call id .start start { m with pending := op, parked := id }).2 with
      startRequested := true }) := by
  have hcalled : Sound ({ m with pending := op, parked := id }.log [.called id .start]) := by
    refine h.append rfl (fun o ho => .inr ⟨⟨id, List.mem_singleton.mp ho⟩, hrequested⟩) rfl ?_
    intro hc
    simp [hcomplete] at hc
  -- the parked request counts as one that waits
  have houtcomes : ({ m with pending := op, parked := id }.log [.called id .start]).outcomes =
      m.outcomes ++ [(id, op)] := by
    simp [Machine.outcomes, Machine.waiting, hpending, hop, Obs.outcome, List.filterMap_cons]
  -- The events answer the request just parked, if there are any.
  obtain ⟨hsound, hkept, hrequests⟩ := events_keep
    (P := fun m' => Sound m' ∧ m'.outcomes = m.outcomes ++ [(id, op)] ∧ m'.requests = m.requests)
    (fun m' a hm' => ⟨sound_staStart hm'.1 a, (outcomes_staStart m' a).trans hm'.2.1, by
      rw [staStart_eq]; exact hm'.2.2⟩) start.events ⟨hcalled, houtcomes, rfl⟩
  rw [call_snd, hstart]
  generalize start.events.foldl staStart _ = m₁ at hsound hkept hrequests
  refine ⟨⟨hsound.idle, ?_, fun _ _ => rfl, ?_⟩, ?_, hrequests⟩
  · refine List.pairwise_append.mpr ⟨hsound.once, List.pairwise_singleton .., ?_⟩
    intro o _ o' ho' _ id' heq
    rw [List.mem_singleton.mp ho'] at heq
    exact nomatch heq
  · intro id' op' rc hmem
    obtain hmem | hmem := List.mem_append.mp hmem
    · exact hsound.reports id' op' rc hmem
    · exact nomatch List.mem_singleton.mp hmem
  · have hreturned : (m₁.log [.returned id .start 0]).outcomes.Perm m₁.outcomes := outcomes_log ..
    refine (hreturned.trans (.of_eq hkept)).trans ?_
    rw [if_pos rfl]
    exact List.perm_append_singleton ..

/-- A start that fails, without an event, leaves no trace but its own. -/
private theorem failed_start (h : Sound m) (id : Nat) (op : Pending) {start : Answer}
    (hpending : m.pending = .none) (hrequested : m.startRequested = false)
    (hstart : start.rc ≠ 0) (hevents : start.events = []) :
    let m' := { (call id .start start { m with pending := op, parked := id }).2 with
      pending := .none }
    Sound m' ∧ m'.outcomes = m.outcomes ∧ m'.requests = m.requests := by
  intro m'
  -- the parked request is dropped again
  have hm' : m' = { m.log [.called id .start, .returned id .start start.rc] with
      pending := .none, parked := id } := by
    simp only [m', call_quiet id .start hevents]
    rfl
  rw [hm']
  refine ⟨h.append rfl ?_ rfl fun _ => rfl, ?_, rfl⟩
  · intro o ho
    simp only [List.mem_cons, List.not_mem_nil, or_false] at ho
    obtain rfl | rfl := ho
    · exact .inr ⟨⟨id, rfl⟩, hrequested⟩
    · exact .inl fun heq => hstart heq.2
  · simp [Machine.outcomes, Machine.waiting, hpending, Obs.outcome, List.filterMap_cons]

/-- An operation settles its request, or leaves it waiting. -/
private theorem operate_settles (h : Sound m) (id : Nat) {op : Pending} {c : Call}
    {start a : Answer}
    (hc : Submits op c) (hstart : start.events ≠ [] → start.rc = 0) (ha : a.events = []) :
    Operated id op m (operate id op c start a m) := by
  have hop : op ≠ .none := by
    obtain ⟨rfl, -⟩ | ⟨rfl, -⟩ := hc <;> simp
  -- a start that fails brings no event, so nothing is reported on the way
  have hnone : start.rc ≠ 0 → start.events = [] := fun hrc => not_not.mp fun hne => hrc (hstart hne)
  obtain ⟨-, heq⟩ | ⟨-, -, heq⟩ | ⟨hcomplete, hpending, -, heq⟩ |
    ⟨hcomplete, hpending, hrequested, hrc, heq⟩ | ⟨-, hpending, hrequested, hneg, -, heq⟩ |
    ⟨-, hpending, hrequested, hrc, -, heq⟩ := operate_cases id op c start a m
  -- station started: the call is made at once
  · rw [heq]
    exact operated_call h id hc ha
  · rw [heq]
    exact ⟨h, .refl _, rfl⟩
  · rw [heq]
    refine ⟨⟨fun hc => ?_, h.once, h.requested, h.reports⟩, ?_, rfl⟩
    · simp [hcomplete] at hc
    · simp only [Machine.outcomes, Machine.waiting, hpending, hop, if_true, if_false,
        List.append_nil]
      exact List.perm_append_singleton ..
  · rw [heq]
    exact operated_start h hop hcomplete hpending hrequested hrc
  -- a start that fails with a negative code is taken for one that is done
  · have hrc : start.rc ≠ 0 := by
      intro hzero
      rw [hzero] at hneg
      exact absurd hneg (by decide)
    obtain ⟨hsound, houtcomes, hrequests⟩ :=
      failed_start h id op hpending hrequested hrc (hnone hrc)
    rw [heq]
    obtain ⟨hs, ho, hr⟩ := operated_call hsound id hc ha
    exact ⟨hs, houtcomes ▸ ho, hr.trans hrequests⟩
  · obtain ⟨hsound, houtcomes, hrequests⟩ :=
      failed_start h id op hpending hrequested hrc (hnone hrc)
    rw [heq]
    exact ⟨hsound, by rw [if_neg hrc, houtcomes], hrequests⟩

/-- The requests made, `made`, are the outcomes, up to their order. -/
structure Settled (made : List Request) (m : Machine) : Prop where
  sound : Sound m
  requests : m.requests = made
  outcomes : m.outcomes.Perm (numbered made)

/-- The end of a task: a code other than 0 is reported. -/
private theorem settled_report {r : Request} (h : Settled made m) {result : Int32 × Machine}
    (hresult : Operated m.requests.length r.op { m with requests := m.requests ++ [r] } result) :
    Settled (made ++ [r]) (if result.1 ≠ 0 then
      result.2.log [.report m.requests.length r.op result.1] else result.2) := by
  obtain ⟨hsound, houtcomes, hrequests⟩ := hresult
  have hadd : ((m.requests.length, r.op) :: m.outcomes).Perm (numbered (made ++ [r])) := by
    rw [numbered_append, h.requests]
    exact (h.outcomes.cons _).trans (List.perm_append_singleton ..).symm
  have hmade : result.2.requests = made ++ [r] := by
    rw [hrequests, h.requests]
  -- it has been submitted or is parked; otherwise it failed, and the report says so
  by_cases hrc : result.1 = 0
  · rw [if_neg (not_not.mpr hrc)]
    rw [if_pos hrc] at houtcomes
    exact ⟨hsound, hmade, houtcomes.trans hadd⟩
  · rw [if_pos hrc]
    rw [if_neg hrc] at houtcomes
    refine ⟨hsound.log (by simp [Obs.plain, hrc]), hmade, (outcomes_log ..).trans ?_⟩
    exact (houtcomes.cons _).trans hadd

/-- Every step settles its request with the others. -/
theorem settled_step (h : Settled made m) {s : Step} (hs : s.Serial) :
    Settled (made ++ s.request.toList) (step m s) := by
  cases s with
  | staStart a =>
    rw [Step.request, Option.toList_none, List.append_nil]
    refine ⟨sound_staStart h.sound a, ?_, ?_⟩
    · rw [step, staStart_eq]
      exact h.requests
    · rw [step, outcomes_staStart]
      exact h.outcomes
  -- the request is prepared, and only then started or parked
  | scan a =>
    have hserial : a.Serial := hs
    have hrequest : Sound { m with requests := m.requests ++ [.scan] } :=
      ⟨h.sound.idle, h.sound.once, h.sound.requested, h.sound.reports⟩
    obtain ⟨hsound, houtcomes, hrequests⟩ :=
      prepare_sound hrequest m.requests.length hserial
    simp only [step, scanTask]
    refine settled_report (r := .scan) h ?_
    split
    · obtain ⟨hs', ho, hr⟩ := operate_settles hsound m.requests.length (.inl ⟨rfl, rfl⟩)
        hserial.start hserial.scanStart
      exact ⟨hs', houtcomes ▸ ho, hr.trans hrequests⟩
    · next hrc => exact ⟨hsound, by rw [if_neg hrc, houtcomes], hrequests⟩
  | connect params a =>
    have hserial : a.Serial := hs
    have hrequest : Sound { m with requests := m.requests ++ [.connect params] } :=
      ⟨h.sound.idle, h.sound.once, h.sound.requested, h.sound.reports⟩
    obtain ⟨hsound, houtcomes, hrequests⟩ :=
      prepare_sound hrequest m.requests.length hserial
    simp only [step, connectTask]
    refine settled_report (r := .connect params) h ?_
    split
    · next hrc => exact ⟨hsound, by rw [if_neg hrc, houtcomes], hrequests⟩
    · rw [call_quiet _ _ hserial.setConfig]
      generalize (prepare _ a _).2 = m₁ at hsound houtcomes hrequests
      -- setting the configuration makes no report
      have hconfig : Sound (m₁.log [.called m.requests.length (.setConfig (buildConfig params)),
          .returned m.requests.length (.setConfig (buildConfig params)) a.setConfig.rc]) :=
        hsound.log (by simp [Obs.plain])
      have hsame : (m₁.log [.called m.requests.length (.setConfig (buildConfig params)),
          .returned m.requests.length (.setConfig (buildConfig params)) a.setConfig.rc]).outcomes =
          m.outcomes := by
        rw [← show m₁.outcomes = m.outcomes from houtcomes]
        simp [Machine.outcomes, Obs.outcome, List.filterMap_cons]
      simp only
      split
      · obtain ⟨hs', ho, hr⟩ := operate_settles hconfig m.requests.length (.inr ⟨rfl, rfl⟩)
          hserial.start hserial.connect
        exact ⟨hs', hsame ▸ ho, hr.trans hrequests⟩
      · next hrc => exact ⟨hconfig, by rw [if_neg hrc, hsame]; exact .refl _, hrequests⟩

/-- After a run all requests are settled or wait. -/
private theorem settled_run {steps : List Step} (hs : ∀ s ∈ steps, s.Serial) :
    Settled (steps.filterMap Step.request) (run steps) := by
  -- from any state that has settled the requests made so far
  suffices hfold : ∀ made m, Settled made m →
      Settled (made ++ steps.filterMap Step.request) (steps.foldl step m) by
    refine hfold [] {} ⟨⟨(nomatch ·), .nil, fun _ h => ?_, fun _ _ _ h => ?_⟩, rfl, .refl _⟩
    · exact absurd h List.not_mem_nil
    · exact absurd h List.not_mem_nil
  induction steps with
  | nil =>
    intro made m h
    rw [List.filterMap_nil, List.append_nil]
    exact h
  | cons s steps ih =>
    intro made m h
    have hfirst := settled_step h (hs s (List.mem_cons_self ..))
    have hrest := ih (fun s' hs' => hs s' (List.mem_cons_of_mem _ hs')) _ _ hfirst
    have hmade : made ++ (s :: steps).filterMap Step.request =
        made ++ s.request.toList ++ steps.filterMap Step.request := by
      rw [List.append_assoc]
      cases hr : s.request <;> simp [hr]
    rw [hmade]
    exact hrest

end

/-! ## Counting -/

/-- `esp_wifi_scan_start` or `esp_wifi_connect` returns 0. -/
def Obs.submitted : Obs → Bool
  | .returned _ .scanStart rc | .returned _ .connect rc => rc = 0
  | _ => false

/-- A report of an error. -/
def Obs.failed : Obs → Bool
  | .report .. => true
  | _ => false

/-- The outcomes are the submissions and the reports. -/
private theorem length_filterMap_outcome (t : List Obs) :
    (t.filterMap Obs.outcome).length = t.countP Obs.submitted + t.countP Obs.failed := by
  induction t with
  | nil => rfl
  | cons o t ih =>
    rw [List.filterMap_cons, List.countP_cons, List.countP_cons]
    cases hout : o.outcome with
    -- the entry counts on neither side
    | none =>
      have hnone : o.submitted = false ∧ o.failed = false := by
        unfold Obs.outcome at hout
        split at hout <;> simp_all [Obs.submitted, Obs.failed]
      simp only [ih, hnone]
      rfl
    | some r =>
      have hone : (if o.submitted = true then 1 else 0) + (if o.failed = true then 1 else 0) = 1 := by
        unfold Obs.outcome at hout
        split at hout <;> simp_all [Obs.submitted, Obs.failed]
      simp only [List.length_cons, ih]
      omega

/-- The numbers of the requests are distinct. -/
private theorem numbered_nodup (requests : List Request) :
    ((numbered requests).map Prod.fst).Nodup := by
  have hrange : (numbered requests).map Prod.fst = List.range requests.length := by
    simp [numbered, List.range_eq_range', Function.comp_def]
  rw [hrange]
  exact List.nodup_range

/-- A numbered request has the kind of the request of that number. -/
private theorem mem_numbered {requests : List Request} {r : Nat × Pending}
    (h : r ∈ numbered requests) :
    requests[r.1]?.map Request.op = some r.2 := by
  obtain ⟨⟨request, i⟩, hmem, rfl⟩ := List.mem_map.mp h
  rw [List.mem_zipIdx_iff_getElem?.mp hmem]
  rfl

/-- A request has at most one outcome. -/
theorem Settled.unique {m : Machine} {made : List Request} (h : Settled made m) {o o' : Obs} (ho : o ∈ m.trace)
    (ho' : o' ∈ m.trace) {r r' : Nat × Pending} (hr : o.outcome = some r)
    (hr' : o'.outcome = some r') (hid : r.1 = r'.1) : o = o' := by
  by_contra hne
  have hnodup : (m.outcomes.map Prod.fst).Nodup :=
    (h.outcomes.map Prod.fst).nodup_iff.mpr (numbered_nodup made)
  rw [Machine.outcomes, List.map_append] at hnodup
  have hpairs := List.pairwise_map.mp (List.pairwise_append.mp hnodup).1
  rw [List.pairwise_filterMap] at hpairs
  have hsymm : Std.Symm fun a a' : Obs => ∀ b : Nat × Pending, a.outcome = some b →
      ∀ b' : Nat × Pending, a'.outcome = some b' → b.1 ≠ b'.1 :=
    ⟨fun a a' hrel b hb b' hb' => (hrel b' hb' b hb).symm⟩
  exact hpairs.forall ho ho' hne r hr r' hr' hid

/-- An outcome is one of a request of its kind. -/
theorem Settled.kind {m : Machine} {made : List Request} (h : Settled made m) {o : Obs}
    (ho : o ∈ m.trace) {r : Nat × Pending} (hr : o.outcome = some r) :
    made[r.1]?.map Request.op = some r.2 := by
  have hmem : r ∈ m.outcomes :=
    List.mem_append_left _ (List.mem_filterMap.mpr ⟨o, ho, hr⟩)
  exact mem_numbered (h.outcomes.subset hmem)

/-- Between steps every request that a step has made has been submitted, has been
    reported as failed or is parked; none is both submitted and reported, reports and
    submissions are those of the kind of request, and a successful `esp_wifi_start` is
    the last. -/
theorem requests_settled {steps : List Step} (hs : ∀ s ∈ steps, s.Serial) :
    let m := run steps
    let requests := steps.filterMap Step.request
    m.requests = requests ∧
      requests.length = m.trace.countP Obs.submitted + m.trace.countP Obs.failed +
        (if m.pending = .none then 0 else 1) ∧
      (∀ id c op rc, c = .scanStart ∨ c = .connect → .returned id c 0 ∈ m.trace →
        .report id op rc ∉ m.trace) ∧
      (∀ id op rc, .report id op rc ∈ m.trace → rc ≠ 0) ∧
      (∀ o ∈ m.trace, ∀ r, o.outcome = some r → requests[r.1]?.map Request.op = some r.2) ∧
      m.trace.Pairwise notAgain := by
  intro m requests
  have hsettled : Settled requests m := settled_run hs
  refine ⟨hsettled.requests, ?_, ?_, hsettled.sound.reports, fun o ho r hr => hsettled.kind ho hr,
    hsettled.sound.once⟩
  -- each request is submitted, reported, or the one that waits
  · have hlen := hsettled.outcomes.length_eq
    rw [Machine.outcomes, List.length_append, length_filterMap_outcome] at hlen
    have hnumbered : (numbered requests).length = requests.length := by simp [numbered]
    have hwaiting : m.waiting.length = if m.pending = .none then 0 else 1 := by
      rw [Machine.waiting]
      split <;> rfl
    omega
  -- both would be an outcome of the same request
  · intro id c op rc hc hsubmitted hreport
    have hout : ∃ op', (Obs.returned id c 0).outcome = some (id, op') := by
      obtain rfl | rfl := hc
      · exact ⟨.scan, rfl⟩
      · exact ⟨.connect, rfl⟩
    obtain ⟨op', hout⟩ := hout
    exact nomatch hsettled.unique hsubmitted hreport hout rfl rfl

/-- An open network with the name `"s"`. -/
def namedNetwork : ConnectParams where
  ssid := [0x73]
  ssidLength := 1
  bssid := []
  channel := 0
  psk := []
  password := []
  passwordLength := 0
  hasBssid := false
  hasPsk := false
  hasPassword := false

/-- A connect waits for the start, a scan is refused meanwhile, `STA_START` runs the
    connect, and then a scan runs at once and a connect fails. -/
def scansAndConnects : List Step :=
  [.connect namedNetwork {}, .scan {}, .staStart {}, .scan {},
    .connect namedNetwork { connect := { rc := 5 } }]

/-- Scans and connects before, during and after the start, and how each is settled. -/
theorem scansAndConnects_settled :
    (run scansAndConnects).requests =
        [.connect namedNetwork, .scan, .scan, .connect namedNetwork] ∧
      (run scansAndConnects).trace.countP Obs.submitted = 2 ∧
      (run scansAndConnects).trace.countP Obs.failed = 2 ∧
      (run scansAndConnects).trace.Pairwise notAgain := by
  have hserial : ∀ s ∈ scansAndConnects, s.Serial := by
    have hanswers : ∀ rc, ({ connect := { rc := rc } } : Answers).Serial := by
      intro rc
      refine ⟨?_, rfl, rfl, rfl, fun _ => rfl⟩
      simp [prepareCalls]
    intro s hs
    simp only [scansAndConnects, List.mem_cons, List.not_mem_nil, or_false] at hs
    -- only the last connect is refused by the driver
    obtain rfl | rfl | rfl | rfl | rfl := hs
    · exact hanswers 0
    · exact hanswers 0
    · exact trivial
    · exact hanswers 0
    · exact hanswers 5
  obtain ⟨hrequests, -, -, -, -, honce⟩ := requests_settled hserial
  exact ⟨hrequests, by decide +kernel, by decide +kernel, honce⟩

end EspS31.Wifi
