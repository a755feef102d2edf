import Mathlib.Algebra.Ring.Nat
import Mathlib.Data.List.Basic

/-!
# The Wi-Fi start machine

`radio_stack.c`: the scan and connect tasks, `s31_wifi_start_operation` and the
`WIFI_EVENT_STA_START` branch of `s31_wifi_event`.

The driver is closed: what its functions return is an input of the model, and so are
the `STA_START` events it delivers while one of its functions runs.  The trace lists
the calls, their results, the events and the failure reports, each with the number
of the request it is made for.
-/

namespace EspS31.Wifi

/-- Bytes that come from outside. -/
abbrev Bytes := List UInt8

/-- What waits for the start of the station. -/
inductive Pending where
  | none | scan | connect
deriving DecidableEq, Repr

/-- `struct s31_wifi_connect_params` -/
structure ConnectParams where
  ssid : Bytes
  ssidLength : Nat
  bssid : Bytes
  channel : UInt8
  psk : Bytes
  password : Bytes
  passwordLength : Nat
  hasBssid : Bool
  hasPsk : Bool
  hasPassword : Bool
deriving DecidableEq, Repr

/-- The weakest protection that is accepted. -/
inductive AuthMode where
  | authOpen | wpa2Psk
deriving DecidableEq, Repr

/-- The fields of `wifi_config_t` that the connect task writes; the rest is zero. -/
structure Config where
  ssid : Bytes := List.replicate 32 0
  password : Bytes := List.replicate 64 0
  bssidSet : Bool := false
  bssid : Bytes := List.replicate 6 0
  channel : UInt8 := 0
  authmode : AuthMode := .authOpen
  disableWpa3CompatibleMode : Bool := false
deriving DecidableEq, Repr

/-- `memcpy(dst, src, n)` -/
def memcpy (dst src : Bytes) (n : Nat) : Bytes := src.take n ++ dst.drop n

/-- A digit of `"0123456789abcdef"`. -/
def hexDigit (n : UInt8) : UInt8 := if n < 10 then 48 + n else 87 + n

/-- The configuration that the connect task builds. -/
def buildConfig (params : ConnectParams) : Config :=
  let config : Config := {}
  let config := { config with
    ssid := memcpy config.ssid params.ssid params.ssidLength
    channel := params.channel
    bssidSet := params.hasBssid }
  let config :=
    if params.hasBssid then { config with bssid := memcpy config.bssid params.bssid 6 } else config
  if params.hasPassword then
    { config with password := memcpy config.password params.password params.passwordLength }
  -- a key is written as 64 hexadecimal digits
  else if params.hasPsk then
    { config with
      password := params.psk.flatMap fun (b : UInt8) => [hexDigit (b >>> 4), hexDigit (b &&& 0xf)]
      authmode := .wpa2Psk
      disableWpa3CompatibleMode := true }
  else { config with authmode := .authOpen }

/-- `wifi_country_t`, with the manual policy. -/
structure Country where
  cc : List Char
  schan : Nat
  nchan : Nat
deriving DecidableEq, Repr

/-- The protocols that are enabled. -/
inductive Protocol where
  | b11 | g11 | n11
deriving DecidableEq, Repr

/-- The driver functions, with what varies of their arguments. -/
inductive Call where
  | setStorageRam
  | setCountry (country : Country)
  | setModeSta
  | setProtocol (protocols : List Protocol)
  | setPsNone
  | setBandwidth40
  | setConfig (config : Config)
  | start
  | regNetstackBufCb
  | scanStart
  | connect
deriving DecidableEq, Repr

/-- What Linux asks for. -/
inductive Request where
  | scan
  | connect (params : ConnectParams)
deriving DecidableEq, Repr

/-- What happens at the border of the code.  `report` is
    `s31_radio_wifi_scan_complete(NULL, 0, rc)` for a scan and
    `s31_radio_wifi_connected(NULL, 0, rc)` for a connect. -/
inductive Obs where
  | called (id : Nat) (c : Call)
  | returned (id : Nat) (c : Call) (rc : Int32)
  | staStart
  | report (id : Nat) (op : Pending) (rc : Int32)
deriving DecidableEq, Repr

/-- The static variables and the history: the requests so far, the number of the one
    parked last, and the trace. -/
structure Machine where
  prepared : Bool := false
  startRequested : Bool := false
  startComplete : Bool := false
  pending : Pending := .none
  requests : List Request := []
  parked : Nat := 0
  trace : List Obs := []
deriving DecidableEq, Repr

/-- Some observations more. -/
def Machine.log (m : Machine) (obs : List Obs) : Machine := { m with trace := m.trace ++ obs }

/-- What the driver returns while it handles one `STA_START` event. -/
structure EventAnswers where
  regNetstackBufCb : Int32 := 0
  scanStart : Int32 := 0
  connect : Int32 := 0
deriving DecidableEq, Repr

/-- A driver function that returns `rc`. -/
def invoke (id : Nat) (c : Call) (rc : Int32) (m : Machine) : Int32 × Machine :=
  (rc, m.log [.called id c, .returned id c rc])

/-- `s31_wifi_event` for `WIFI_EVENT_STA_START`. -/
def staStart (m : Machine) (a : EventAnswers) : Machine :=
  let pending := m.pending
  let m := { m with pending := .none, startComplete := true }.log [.staStart]
  let (rc, m) := invoke m.parked .regNetstackBufCb a.regNetstackBufCb m
  let (rc, m) :=
    if rc = 0 ∧ pending = .scan then invoke m.parked .scanStart a.scanStart m
    else if rc = 0 ∧ pending = .connect then invoke m.parked .connect a.connect m
    else (rc, m)
  if rc ≠ 0 ∧ pending = .scan then m.log [.report m.parked .scan rc]
  else if rc ≠ 0 ∧ pending = .connect then m.log [.report m.parked .connect rc]
  else m

/-- What a driver function called by a task does: the events it delivers meanwhile
    and its result. -/
structure Answer where
  events : List EventAnswers := []
  rc : Int32 := 0
deriving DecidableEq, Repr

/-- A call of the driver, with the events that come before it returns. -/
def call (id : Nat) (c : Call) (a : Answer) (m : Machine) : Int32 × Machine :=
  let m := m.log [.called id c]
  let m := a.events.foldl staStart m
  (a.rc, m.log [.returned id c a.rc])

/-- What the driver does in one run of a task. -/
structure Answers where
  setStorage : Answer := {}
  setCountry : Answer := {}
  setMode : Answer := {}
  setProtocol : Answer := {}
  setPs : Answer := {}
  setBandwidth : Answer := {}
  setConfig : Answer := {}
  start : Answer := {}
  scanStart : Answer := {}
  connect : Answer := {}
deriving DecidableEq, Repr

/-- Calls one after the other, up to the first that fails. -/
def callAll (id : Nat) : List (Call × Answer) → Machine → Int32 × Machine
  | [], m => (0, m)
  | (c, a) :: calls, m =>
    let (rc, m) := call id c a m
    if rc ≠ 0 then (rc, m) else callAll id calls m

/-- The country that is set before the start. -/
def country : Country := ⟨['C', 'N'], 1, 13⟩

/-- The calls of `s31_wifi_prepare`. -/
def prepareCalls (a : Answers) : List (Call × Answer) :=
  [(.setStorageRam, a.setStorage), (.setCountry country, a.setCountry), (.setModeSta, a.setMode),
    (.setProtocol [.b11, .g11, .n11], a.setProtocol), (.setPsNone, a.setPs),
    (.setBandwidth40, a.setBandwidth)]

/-- `s31_wifi_prepare` -/
def prepare (id : Nat) (a : Answers) (m : Machine) : Int32 × Machine :=
  if ¬ m.prepared then
    let (rc, m) := callAll id (prepareCalls a) m
    if rc = 0 then (rc, { m with prepared := true }) else (rc, m)
  else (0, m)

/-- `s31_wifi_start_operation`: one when the caller may run now, zero when `STA_START`
    will run it. -/
def startOperation (id : Nat) (op : Pending) (a : Answer) (m : Machine) : Int32 × Machine :=
  if m.startComplete then (1, m)
  else if m.pending ≠ .none then (-1, m)
  else
    let m := { m with pending := op, parked := id }
    if m.startRequested then (0, m)
    else
      let (rc, m) := call id .start a m
      if rc ≠ 0 then (-rc, { m with pending := .none })
      else (0, { m with startRequested := true })

/-- What both tasks do with the result of `s31_wifi_start_operation`. -/
def operate (id : Nat) (op : Pending) (c : Call) (start a : Answer) (m : Machine) :
    Int32 × Machine :=
  let (start, m) := startOperation id op start m
  if start > 0 then call id c a m
  else if start < 0 then (-start, m)
  else (0, m)

/-- `s31_radio_wifi_scan_task` -/
def scanTask (a : Answers) (m : Machine) : Machine :=
  let id := m.requests.length
  let m := { m with requests := m.requests ++ [.scan] }
  let (rc, m) := prepare id a m
  let (rc, m) := if rc = 0 then operate id .scan .scanStart a.start a.scanStart m else (rc, m)
  if rc ≠ 0 then m.log [.report id .scan rc] else m

/-- `s31_radio_wifi_connect_task` -/
def connectTask (params : ConnectParams) (a : Answers) (m : Machine) : Machine :=
  let id := m.requests.length
  let m := { m with requests := m.requests ++ [.connect params] }
  let (rc, m) := prepare id a m
  let (rc, m) :=
    if rc ≠ 0 then (rc, m)
    else
      let (rc, m) := call id (.setConfig (buildConfig params)) a.setConfig m
      if rc = 0 then operate id .connect .connect a.start a.connect m else (rc, m)
  if rc ≠ 0 then m.log [.report id .connect rc] else m

/-- One run of a task, or an event between two runs. -/
inductive Step where
  | scan (a : Answers)
  | connect (params : ConnectParams) (a : Answers)
  | staStart (a : EventAnswers)
deriving DecidableEq, Repr

/-- A request, or the event that the station has started. -/
def step (m : Machine) : Step → Machine
  | .scan a => scanTask a m
  | .connect params a => connectTask params a m
  | .staStart a => Wifi.staStart m a

/-- The machine after a sequence of steps from power-on. -/
def run (steps : List Step) : Machine := steps.foldl step {}

end EspS31.Wifi
