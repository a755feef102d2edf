import Mathlib.Data.List.Induction
import EspS31.ForStd.Trace
import EspS31.Spec.WifiStart

/-!
# The configuration of a connect request

The station configuration is state of the driver.  The connect task sets it before
it asks whether it may run, so a request that is then refused has already replaced
the configuration of the one that is parked.

## Key results

- `configured_step`: a step that meets the condition keeps the parked configuration
- `connectTask_refused`: what a refused connect does to the driver
- `config_own_iff`: every connect uses its own configuration, and a refused one
  leaves it unchanged, exactly in the runs whose steps meet the condition
-/

namespace EspS31.Wifi

/-! ## The accepted configuration -/

/-- The configuration that the driver took. -/
def Obs.accepted : Obs → Option Config
  | .returned _ (.setConfig config) rc => if rc = 0 then some config else none
  | _ => none

/-- The configuration last accepted by `esp_wifi_set_config`. -/
def lastConfig (t : List Obs) : Option Config := (t.filterMap Obs.accepted).getLast?

/-- The request `id` is a connect with the configuration last accepted. -/
def Own (requests : List Request) (t : List Obs) (id : Nat) : Prop :=
  ∃ params, requests[id]? = some (.connect params) ∧ lastConfig t = some (buildConfig params)

/-- Every `esp_wifi_connect` is called with the configuration of its own request. -/
def OwnTrace (requests : List Request) (t : List Obs) : Prop :=
  ∀ pre id post, t = pre ++ .called id .connect :: post → Own requests pre id

/-- Neither a connect nor a new configuration. -/
def Obs.still (o : Obs) : Prop := o.accepted = none ∧ ∀ id, o ≠ .called id .connect

section

variable {requests : List Request} {t : List Obs}

/-- Observations that change no configuration leave the last one. -/
private theorem lastConfig_still {obs : List Obs} (hobs : ∀ o ∈ obs, o.still) :
    lastConfig (t ++ obs) = lastConfig t := by
  have hnone : obs.filterMap Obs.accepted = [] :=
    List.filterMap_eq_nil_iff.mpr fun o ho => (hobs o ho).1
  rw [lastConfig, List.filterMap_append, hnone, List.append_nil, lastConfig]

/-- Observations that change no configuration leave it the request's own. -/
theorem Own.still {id : Nat} (h : Own requests t id) {obs : List Obs}
    (hobs : ∀ o ∈ obs, o.still) : Own requests (t ++ obs) id := by
  obtain ⟨params, hrequest, hconfig⟩ := h
  exact ⟨params, hrequest, (lastConfig_still hobs).trans hconfig⟩

/-- It is a property of every point of the trace. -/
private theorem ownTrace_iff : OwnTrace requests t ↔
    Trace.Always (fun pre o => ∀ id, o = .called id .connect → Own requests pre id) t :=
  ⟨fun h pre _ post heq id ho => h pre id post (ho ▸ heq), fun h pre id post heq =>
    h pre _ post heq id rfl⟩

/-- One more observation. -/
private theorem ownTrace_concat {o : Obs} (h : OwnTrace requests t)
    (ho : ∀ id, o = .called id .connect → Own requests t id) : OwnTrace requests (t ++ [o]) :=
  ownTrace_iff.mpr (Trace.always_concat.mpr ⟨ownTrace_iff.mp h, ho⟩)

/-- Observations that neither connect nor change a configuration keep the trace. -/
private theorem ownTrace_still {obs : List Obs} (h : OwnTrace requests t)
    (hobs : ∀ o ∈ obs, o.still) :
    OwnTrace requests (t ++ obs) := by
  induction obs generalizing t with
  | nil => simpa using h
  | cons o obs ih =>
    have hfirst : OwnTrace requests (t ++ [o]) :=
      ownTrace_concat h fun id heq => absurd heq ((hobs o (List.mem_cons_self ..)).2 id)
    have hrest := ih hfirst fun o' ho' => hobs o' (List.mem_cons_of_mem _ ho')
    rwa [List.append_assoc, List.singleton_append] at hrest

/-- A connect with its own configuration. -/
private theorem ownTrace_connect {id : Nat} (h : OwnTrace requests t) (hown : Own requests t id) :
    OwnTrace requests (t ++ [.called id .connect]) :=
  ownTrace_concat h fun _ heq => (Obs.called.inj heq).1 ▸ hown

/-- A call changes no configuration before it returns. -/
private theorem lastConfig_called (t : List Obs) (id : Nat) (c : Call) :
    lastConfig (t ++ [.called id c]) = lastConfig t := by
  simp [lastConfig, Obs.accepted, List.filterMap_cons]

/-- Later requests do not matter to it. -/
theorem Own.mono {requests' : List Request} {id : Nat} (h : Own requests t id)
    (hpre : requests <+: requests') : Own requests' t id := by
  obtain ⟨params, hrequest, hconfig⟩ := h
  obtain ⟨more, rfl⟩ := hpre
  obtain ⟨hlt, -⟩ := List.getElem?_eq_some_iff.mp hrequest
  exact ⟨params, (List.getElem?_append_left hlt).trans hrequest, hconfig⟩

end

/-! ## The invariant -/

/-- Every connect found its own configuration, and what is parked has its own as well. -/
structure Configured (m : Machine) : Prop where
  own : OwnTrace m.requests m.trace
  parked : m.pending = .connect → Own m.requests m.trace m.parked
  ready : m.pending ≠ .none → m.prepared = true ∧ m.startComplete = false

section

variable {m : Machine}

/-- Observations that neither connect nor change a configuration keep this. -/
theorem Configured.log (h : Configured m) {obs : List Obs} (hobs : ∀ o ∈ obs, o.still) :
    Configured (m.log obs) :=
  ⟨ownTrace_still h.own hobs, fun hc => (h.parked hc).still hobs, h.ready⟩

/-- A call other than a connect. -/
private theorem still_called (id : Nat) {c : Call} (hc : c ≠ .connect) : (Obs.called id c).still :=
  ⟨rfl, fun _ heq => hc (Obs.called.inj heq).2⟩

/-- A report. -/
private theorem still_report (id : Nat) (op : Pending) (rc : Int32) : (Obs.report id op rc).still :=
  ⟨rfl, fun _ => nofun⟩

/-- The start of the station. -/
private theorem still_staStart : Obs.staStart.still := ⟨rfl, fun _ => nofun⟩

/-- A result that accepts no configuration. -/
private theorem still_returned (id : Nat) {c : Call} {rc : Int32}
    (hc : ∀ config, c = .setConfig config → rc ≠ 0) : (Obs.returned id c rc).still := by
  refine ⟨?_, fun _ => nofun⟩
  cases c with
  | setConfig config => simp [Obs.accepted, hc config rfl]
  | _ => rfl

/-- The handler connects with the parked configuration. -/
private theorem configured_staStart (h : Configured m) (a : EventAnswers) :
    Configured (staStart m a) ∧ lastConfig (staStart m a).trace = lastConfig m.trace := by
  -- the start of the event changes no configuration
  have hreg : ∀ o ∈ [Obs.staStart, .called m.parked .regNetstackBufCb,
      .returned m.parked .regNetstackBufCb a.regNetstackBufCb], o.still := by
    simp only [List.forall_mem_cons]
    exact ⟨still_staStart, still_called _ (by simp), still_returned _ (by simp), nofun⟩
  suffices htrace : OwnTrace m.requests (staStart m a).trace ∧
      lastConfig (staStart m a).trace = lastConfig m.trace by
    refine ⟨⟨?_, ?_, ?_⟩, htrace.2⟩
    · rw [staStart_eq] at htrace ⊢
      exact htrace.1
    · rw [staStart_eq]
      exact nofun
    · rw [staStart_eq]
      exact fun hne => absurd rfl hne
  rw [staStart_eq]
  by_cases hconnect : m.pending = .connect ∧ a.regNetstackBufCb = 0
  · -- The connect of the parked request.
    obtain ⟨hpending, hzero⟩ := hconnect
    have hown := (h.parked hpending).still hreg
    have hrest : ∀ o ∈ [Obs.returned m.parked .connect a.connect] ++
        (if a.connect = 0 then [] else [.report m.parked .connect a.connect]), o.still := by
      intro o ho
      obtain ho | ho := List.mem_append.mp ho
      · exact List.mem_singleton.mp ho ▸ still_returned _ (by simp)
      · split at ho
        · exact absurd ho List.not_mem_nil
        · exact List.mem_singleton.mp ho ▸ still_report ..
    have hconcat := ownTrace_still (ownTrace_connect (ownTrace_still h.own hreg) hown) hrest
    have hlast := (lastConfig_still hrest).trans
      ((lastConfig_called _ m.parked .connect).trans (lastConfig_still (t := m.trace) hreg))
    simp only [handled, hpending, hzero, if_true, attempt, List.append_assoc, List.cons_append,
      List.nil_append] at hconcat hlast ⊢
    exact ⟨hconcat, hlast⟩
  -- no connect is called: nothing is parked, a scan is, or the registration fails
  · have hstill : ∀ o ∈ Obs.staStart :: handled m.pending m.parked a, o.still := by
      intro o ho
      rw [handled.eq_def, ← List.cons_append] at ho
      obtain ho | ho := List.mem_append.mp ho
      · exact hreg o ho
      · cases hpending : m.pending with
        | none => simp [hpending] at ho
        | scan =>
          simp only [hpending, attempt] at ho
          split at ho
          · simp only [List.mem_append, List.mem_cons, List.not_mem_nil, or_false] at ho
            obtain (rfl | rfl) | ho := ho
            · exact still_called _ (by simp)
            · exact still_returned _ (by simp)
            · split at ho
              · exact absurd ho List.not_mem_nil
              · exact List.mem_singleton.mp ho ▸ still_report ..
          · exact List.mem_singleton.mp ho ▸ still_report ..
        | connect =>
          have hfails : ¬ a.regNetstackBufCb = 0 := fun hzero => hconnect ⟨hpending, hzero⟩
          simp only [hpending, hfails, if_false] at ho
          exact List.mem_singleton.mp ho ▸ still_report ..
    exact ⟨ownTrace_still h.own hstill, lastConfig_still hstill⟩

/-- Events keep the configuration and can only end the waiting. -/
private theorem configured_events (h : Configured m) (events : List EventAnswers) :
    Configured (events.foldl staStart m) ∧
      lastConfig (events.foldl staStart m).trace = lastConfig m.trace ∧
      (events.foldl staStart m).requests = m.requests ∧
      (events.foldl staStart m).prepared = m.prepared ∧
      ((m.pending = .none ∨ events ≠ []) → (events.foldl staStart m).pending = .none) := by
  induction events generalizing m with
  | nil => exact ⟨h, rfl, rfl, rfl, fun hor => hor.resolve_right (absurd rfl)⟩
  | cons a events ih =>
    obtain ⟨hfirst, hlast⟩ := configured_staStart h a
    obtain ⟨hrest, hlast', hrequests, hprepared, hpending⟩ := ih hfirst
    refine ⟨hrest, hlast'.trans hlast, ?_, ?_, fun _ => hpending (.inl ?_)⟩
    · rw [List.foldl_cons, hrequests, staStart_eq]
    · rw [List.foldl_cons, hprepared, staStart_eq]
    · rw [staStart_eq]

/-- A call other than `esp_wifi_connect` that accepts no configuration. -/
private theorem configured_call (h : Configured m) (id : Nat) {c : Call} {a : Answer}
    (hc : c ≠ .connect) (hset : ∀ config, c = .setConfig config → a.rc ≠ 0) :
    Configured (call id c a m).2 ∧ lastConfig (call id c a m).2.trace = lastConfig m.trace ∧
      (call id c a m).2.requests = m.requests ∧ (call id c a m).2.prepared = m.prepared ∧
      (m.pending = .none → (call id c a m).2.pending = .none) := by
  have hcalled : ∀ o ∈ [Obs.called id c], o.still := fun o ho =>
    List.mem_singleton.mp ho ▸ still_called id hc
  have hreturned : ∀ o ∈ [Obs.returned id c a.rc], o.still := fun o ho =>
    List.mem_singleton.mp ho ▸ still_returned id hset
  obtain ⟨hevents, hlast, hrequests, hprepared, hpending⟩ :=
    configured_events (h.log hcalled) a.events
  rw [call_snd]
  refine ⟨hevents.log hreturned, ?_, hrequests, hprepared, fun hnone => hpending (.inl hnone)⟩
  exact (lastConfig_still hreturned).trans (hlast.trans (lastConfig_still hcalled))

/-- The connect of a request that has set its configuration. -/
private theorem configured_connect (h : Configured m) {id : Nat} (hown : Own m.requests m.trace id)
    (a : Answer) : Configured (call id .connect a m).2 := by
  have hcalled : Configured (m.log [.called id .connect]) :=
    ⟨ownTrace_connect h.own hown, fun hc => by
      obtain ⟨params, hrequest, hconfig⟩ := h.parked hc
      exact ⟨params, hrequest, (lastConfig_called ..).trans hconfig⟩, h.ready⟩
  rw [call_snd]
  exact (configured_events hcalled a.events).1.log fun o ho =>
    List.mem_singleton.mp ho ▸ still_returned id (by simp)

/-- A preparation that succeeds leaves the driver prepared. -/
private theorem prepare_prepared {id : Nat} {a : Answers} (h : (prepare id a m).1 = 0) :
    (prepare id a m).2.prepared = true := by
  rw [prepare] at h ⊢
  by_cases hprep : m.prepared = true
  · simp [hprep]
  · rw [if_pos hprep] at h ⊢
    by_cases hrc : (callAll id (prepareCalls a) m).1 = 0
    · simp only [hrc, if_true]
    · simp only [hrc, if_false] at h

/-- The preparation sets no configuration. -/
private theorem configured_prepare (h : Configured m) (id : Nat) (a : Answers) :
    Configured (prepare id a m).2 ∧ (prepare id a m).2.requests = m.requests ∧
      (m.pending = .none → (prepare id a m).2.pending = .none) := by
  refine prepare_keeps (P := fun m' => Configured m' ∧ m'.requests = m.requests ∧
    (m.pending = .none → m'.pending = .none)) (fun ca hca m' hm' => ?_) (fun m' hm' => ?_)
    ⟨h, rfl, fun hnone => hnone⟩
  · obtain ⟨hconfigured, hrequests, hpending⟩ := hm'
    -- none of the six calls sets a configuration or connects
    have hcall : ca.1 ≠ .connect ∧ ∀ config, ca.1 ≠ .setConfig config := by
      simp only [prepareCalls, List.mem_cons, List.not_mem_nil, or_false] at hca
      obtain rfl | rfl | rfl | rfl | rfl | rfl := hca <;> simp
    obtain ⟨hc, -, hr, -, hp⟩ := configured_call hconfigured id (a := ca.2) hcall.1
      fun config heq => absurd heq (hcall.2 config)
    exact ⟨hc, hr.trans hrequests, fun hnone => hp (hpending hnone)⟩
  · obtain ⟨hconfigured, hrequests, hpending⟩ := hm'
    exact ⟨⟨hconfigured.own, hconfigured.parked, fun hne => ⟨rfl, (hconfigured.ready hne).2⟩⟩,
      hrequests, hpending⟩

/-- A connect goes on with the configuration it has set. -/
private theorem configured_operate (h : Configured m) {id : Nat} {op : Pending} {c : Call}
    {start a : Answer} (hprepared : m.prepared = true)
    (hop : (op = .scan ∧ c = .scanStart) ∨
      (op = .connect ∧ c = .connect ∧ Own m.requests m.trace id)) :
    Configured (operate id op c start a m).2 := by
  -- the operation is submitted with the configuration of its own request
  have hsubmit : ∀ m' : Machine, Configured m' → lastConfig m'.trace = lastConfig m.trace →
      m'.requests = m.requests → Configured (call id c a m').2 := by
    intro m' hm' hlast hrequests
    obtain ⟨-, rfl⟩ | ⟨-, rfl, params, hrequest, hconfig⟩ := hop
    · exact (configured_call hm' id (by simp) (by simp)).1
    · exact configured_connect hm' ⟨params, hrequests ▸ hrequest, hlast.trans hconfig⟩ a
  -- or parked, with the same configuration waiting
  have hparked : m.startComplete = false → Configured { m with pending := op, parked := id } := by
    intro hcomplete
    refine ⟨h.own, fun hc => ?_, fun _ => ⟨hprepared, hcomplete⟩⟩
    obtain ⟨rfl, -⟩ | ⟨-, -, hown⟩ := hop
    · exact nomatch hc
    · exact hown
  have hstarted : m.startComplete = false → _ := fun hcomplete =>
    configured_call (hparked hcomplete) id (c := .start) (a := start) (by simp) (by simp)
  obtain ⟨-, heq⟩ | ⟨-, -, heq⟩ | ⟨hcomplete, -, -, heq⟩ | ⟨hcomplete, -, -, -, heq⟩ |
    ⟨hcomplete, -, -, -, -, heq⟩ | ⟨hcomplete, -, -, -, -, heq⟩ := operate_cases id op c start a m
  · rw [heq]
    exact hsubmit m h rfl rfl
  · rw [heq]
    exact h
  · rw [heq]
    exact hparked hcomplete
  · obtain ⟨hcalled, -, -, -, -⟩ := hstarted hcomplete
    rw [heq]
    exact ⟨hcalled.own, hcalled.parked, hcalled.ready⟩
  · obtain ⟨hcalled, hlast, hrequests, -, -⟩ := hstarted hcomplete
    rw [heq]
    exact hsubmit _ ⟨hcalled.own, nofun, absurd rfl⟩ hlast hrequests
  · obtain ⟨hcalled, -, -, -, -⟩ := hstarted hcomplete
    rw [heq]
    exact ⟨hcalled.own, nofun, absurd rfl⟩

/-- A report keeps the invariant. -/
private theorem configured_report (h : Configured m) (id : Nat) (op : Pending) (rc : Int32) :
    Configured (if rc ≠ 0 then m.log [.report id op rc] else m) := by
  split
  · exact h.log fun o ho => List.mem_singleton.mp ho ▸ still_report ..
  · exact h

/-! ## Steps and runs -/

/-- A connect that comes while an operation is parked, with no `STA_START` before its
    configuration is set. -/
def Refused (m : Machine) (a : Answers) : Prop := m.pending ≠ .none ∧ a.setConfig.events = []

/-- Such a connect has its configuration rejected or sets the one already there. -/
def Meets (m : Machine) : Step → Prop
  | .connect params a =>
    Refused m a → a.setConfig.rc = 0 → lastConfig m.trace = some (buildConfig params)
  | _ => True

/-- The new request. -/
private theorem configured_request (h : Configured m) (r : Request) :
    Configured { m with requests := m.requests ++ [r] } :=
  ⟨fun pre id post heq => (h.own pre id post heq).mono (List.prefix_append ..),
    fun hc => (h.parked hc).mono (List.prefix_append ..), h.ready⟩

/-- Nothing is prepared while an operation is parked. -/
private theorem prepare_parked (h : Configured m) (hpending : m.pending ≠ .none) (id : Nat)
    (a : Answers) :
    prepare id a m = (0, m) := by
  simp [prepare, (h.ready hpending).1]

/-- Setting a configuration while nothing is parked, or the one already there. -/
private theorem configured_setConfig (h : Configured m) {id : Nat} {params : ConnectParams}
    {a : Answer}
    (hrequest : m.requests[id]? = some (.connect params))
    (hmeets : m.pending ≠ .none → a.events = [] → a.rc = 0 →
      lastConfig m.trace = some (buildConfig params)) :
    let m' := (call id (.setConfig (buildConfig params)) a m).2
    Configured m' ∧ m'.prepared = m.prepared ∧ (a.rc = 0 → Own m'.requests m'.trace id) := by
  intro m'
  -- the events come between the call and its return
  by_cases hrc : a.rc = 0
  · have hcalled : ∀ o ∈ [Obs.called id (.setConfig (buildConfig params))], o.still := fun o ho =>
      List.mem_singleton.mp ho ▸ still_called id (by simp)
    obtain ⟨hevents, hlast, hrequests, hprepared, hpending⟩ :=
      configured_events (h.log hcalled) a.events
    have hm' : m' = (a.events.foldl staStart (m.log [.called id (.setConfig (buildConfig params))])).log
        [.returned id (.setConfig (buildConfig params)) 0] := by
      simp only [m', call_snd, hrc]
    generalize a.events.foldl staStart _ = m₁ at hevents hlast hrequests hprepared hpending hm'
    -- the call that succeeds is now the last accepted one
    have hconfig : lastConfig m'.trace = some (buildConfig params) := by
      simp [hm', lastConfig, Obs.accepted]
    have hown : Own m'.requests m'.trace id := ⟨params, by rw [hm', log_requests, hrequests]; exact hrequest, hconfig⟩
    refine ⟨⟨?_, fun hc => ?_, ?_⟩, by rw [hm']; exact hprepared, fun _ => hown⟩
    · rw [hm']
      exact ownTrace_concat hevents.own fun _ => nofun
    · -- Still parked: no event has come, so the configuration was there before.
      have hc₁ : m₁.pending = .connect := by simpa [hm'] using hc
      have hparked : m.pending ≠ .none ∧ a.events = [] := by
        constructor
        · intro hnone
          simp [hpending (.inl hnone)] at hc₁
        · by_contra hne
          simp [hpending (.inr hne)] at hc₁
      obtain ⟨params', hrequest', hconfig'⟩ := hevents.parked hc₁
      refine ⟨params', by rw [hm']; exact hrequest', ?_⟩
      have hsame : lastConfig m₁.trace = lastConfig m.trace :=
        hlast.trans (lastConfig_still hcalled)
      rw [hconfig, ← hmeets hparked.1 hparked.2 hrc, ← hsame, hconfig']
    · rw [hm']
      exact hevents.ready
  -- a call that fails configures nothing
  · obtain ⟨hcalled, -, -, hprepared, -⟩ := configured_call h id (a := a)
      (c := .setConfig (buildConfig params)) (by simp) fun _ _ => hrc
    exact ⟨hcalled, hprepared, fun hzero => absurd hzero hrc⟩

/-- Every step keeps the invariant. -/
theorem configured_step (h : Configured m) {s : Step} (hmeets : Meets m s) :
    Configured (step m s) := by
  cases s with
  | staStart a => exact (configured_staStart h a).1
  | scan a =>
    obtain ⟨hprepare, -, -⟩ :=
      configured_prepare (configured_request h .scan) m.requests.length a
    simp only [step, scanTask]
    refine configured_report ?_ ..
    split
    · next hrc => exact configured_operate hprepare (prepare_prepared hrc) (.inl ⟨rfl, rfl⟩)
    · exact hprepare
  -- the request sets its own configuration and then starts or parks
  | connect params a =>
    have hrequest := configured_request h (.connect params)
    obtain ⟨hprepare, hrequests, hnone⟩ := configured_prepare hrequest m.requests.length a
    simp only [step, connectTask]
    refine configured_report ?_ ..
    split
    · exact hprepare
    · next hrc =>
      have hrc := not_not.mp hrc
      have hprepared := prepare_prepared hrc
      have hown : (prepare m.requests.length a { m with
          requests := m.requests ++ [.connect params] }).2.requests[m.requests.length]? =
          some (.connect params) := by
        rw [hrequests]
        simp
      -- a request that was parked before the preparation is still the same one
      have hcond : (prepare m.requests.length a { m with
          requests := m.requests ++ [.connect params] }).2.pending ≠ .none →
          a.setConfig.events = [] → a.setConfig.rc = 0 →
          lastConfig (prepare m.requests.length a { m with
            requests := m.requests ++ [.connect params] }).2.trace = some (buildConfig params) := by
        intro hpending hevents hzero
        have hparked : m.pending ≠ .none := fun hm => hpending (hnone hm)
        rw [prepare_parked hrequest hparked]
        exact hmeets ⟨hparked, hevents⟩ hzero
      obtain ⟨hset, hkept, howned⟩ := configured_setConfig hprepare hown hcond
      split
      · next hzero =>
        exact configured_operate hset (hkept.trans hprepared) (.inr ⟨rfl, rfl, howned hzero⟩)
      · exact hset

/-- A refused connect sets its configuration and reports an error. -/
theorem connectTask_refused (h : Configured m) {params : ConnectParams} {a : Answers}
    (hrefused : Refused m a) :
    lastConfig (connectTask params a m).trace =
      if a.setConfig.rc = 0 then some (buildConfig params) else lastConfig m.trace := by
  obtain ⟨hpending, hevents⟩ := hrefused
  have hcomplete := (h.ready hpending).2
  by_cases hrc : a.setConfig.rc = 0
  · simp [connectTask, prepare, (h.ready hpending).1, call, hevents, hrc, operate, startOperation,
      hcomplete, hpending, Machine.log, lastConfig, Obs.accepted, List.filterMap_cons]
  · simp [connectTask, prepare, (h.ready hpending).1, call, hevents, hrc, Machine.log, lastConfig,
      Obs.accepted, List.filterMap_cons]

end

/-- One step more. -/
private theorem run_concat (steps : List Step) (s : Step) :
    run (steps ++ [s]) = step (run steps) s := by
  rw [run, List.foldl_append]
  rfl

/-- The invariant holds after every run. -/
private theorem configured_run {steps : List Step}
    (hmeets : ∀ pre s post, steps = pre ++ s :: post → Meets (run pre) s) :
    Configured (run steps) := by
  induction steps using List.reverseRecOn with
  | nil =>
    refine ⟨fun pre id post heq => ?_, nofun, absurd rfl⟩
    exact absurd heq (by simp [run])
  | append_singleton steps s ih =>
    rw [run_concat]
    refine configured_step (ih fun pre s' post heq => ?_) (hmeets steps s [] rfl)
    exact hmeets pre s' (post ++ [s]) (by rw [heq]; simp)

/-- A refused connect leaves the configuration unchanged. -/
def RefusedUnchanged (steps : List Step) : Prop :=
  ∀ pre params a post, steps = pre ++ .connect params a :: post → Refused (run pre) a →
    lastConfig (run (pre ++ [.connect params a])).trace = lastConfig (run pre).trace

/-- Every connect uses its own configuration, and no refused one changes it, exactly
    in the runs where a connect that comes while an operation is parked has its
    configuration rejected or sets the one already there. -/
theorem config_own_iff (steps : List Step) :
    (OwnTrace (run steps).requests (run steps).trace ∧ RefusedUnchanged steps) ↔
      ∀ pre s post, steps = pre ++ s :: post → Meets (run pre) s := by
  constructor
  · rintro ⟨-, hunchanged⟩
    -- induction on the run, by its last step
    induction steps using List.reverseRecOn with
    | nil =>
      intro pre s post heq
      exact absurd heq (by simp)
    | append_singleton steps last ih =>
      have hbefore : ∀ pre s post, steps = pre ++ s :: post → Meets (run pre) s :=
        ih fun pre params a post heq => hunchanged pre params a (post ++ [last]) (by rw [heq]; simp)
      intro pre s post heq
      obtain rfl | ⟨post', x, rfl⟩ := List.eq_nil_or_concat post
      · obtain ⟨rfl, hlast⟩ := List.append_inj' heq rfl
        obtain rfl := List.singleton_inj.mp hlast
        cases last with
        | connect params a =>
          intro hrefused hrc
          -- a refused request that had set the configuration left it unchanged
          have hsame := hunchanged steps params a [] rfl hrefused
          rw [run_concat, step, connectTask_refused (configured_run hbefore) hrefused,
            if_pos hrc] at hsame
          exact hsame.symm
        | _ => trivial
      · rw [List.concat_eq_append, ← List.cons_append, ← List.append_assoc] at heq
        exact hbefore pre s post' (List.append_inj' heq rfl).1
  · intro hmeets
    refine ⟨(configured_run hmeets).own, ?_⟩
    intro pre params a post heq hrefused
    have hpre : Configured (run pre) := configured_run fun pre' s post' heq' =>
      hmeets pre' s (post' ++ .connect params a :: post) (by rw [heq, heq']; simp)
    rw [run_concat, step, connectTask_refused hpre hrefused]
    split
    · next hrc => exact (hmeets pre _ post heq hrefused hrc).symm
    · rfl

/-- A connect to an open network, by its channel. -/
def openNetwork (channel : UInt8) : ConnectParams where
  ssid := List.replicate 32 0
  ssidLength := 0
  bssid := List.replicate 6 0
  channel := channel
  psk := List.replicate 32 0
  password := List.replicate 64 0
  passwordLength := 0
  hasBssid := false
  hasPsk := false
  hasPassword := false

/-- The second connect is refused and the first is made with its configuration. -/
theorem parked_connect_replaced :
    let steps : List Step :=
      [.connect (openNetwork 1) {}, .connect (openNetwork 6) {}, .staStart {}]
    ¬ (OwnTrace (run steps).requests (run steps).trace ∧ RefusedUnchanged steps) := by
  intro steps
  rintro ⟨hown, -⟩
  -- the first request's connect runs after the start, with the configuration of the second
  have hsplit : (run steps).trace =
      (run steps).trace.take 22 ++ .called 0 .connect :: (run steps).trace.drop 23 := by
    decide +kernel
  obtain ⟨params, hrequest, hconfig⟩ := hown _ 0 _ hsplit
  have hfirst : (run steps).requests[0]? = some (.connect (openNetwork 1)) := by decide +kernel
  obtain rfl := Request.connect.inj (Option.some.inj (hfirst.symm.trans hrequest))
  have hlast : lastConfig ((run steps).trace.take 22) = some (buildConfig (openNetwork 6)) := by
    decide +kernel
  have hdiff : buildConfig (openNetwork 6) ≠ buildConfig (openNetwork 1) := by decide +kernel
  exact hdiff (Option.some.inj (hlast.symm.trans hconfig))

end EspS31.Wifi
