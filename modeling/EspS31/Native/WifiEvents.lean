import EspS31.ForStd.TracedBuffer
import EspS31.Native.Wifi

/-!
# Wi-Fi events after the start

`radio_stack.c`: `s31_wifi_event` for `SCAN_DONE`, `STA_CONNECTED` and
`STA_DISCONNECTED`, and the receive callback `s31_wifi_rx`.  What the allocator and the
driver answer is part of an event; what a new block holds is whatever it held before.
-/

namespace EspS31.WifiEvents

open Wifi (Bytes memcpy)

/-- The fields of `wifi_ap_record_t` that are used. -/
structure ApRecord where
  bssid : Bytes
  ssid : Bytes
  primary : UInt8
  rssi : Int8
  authmode : UInt8
deriving DecidableEq, Repr

/-- `struct s31_wifi_ap` -/
structure Ap where
  bssid : Bytes
  ssid : Bytes
  ssidLength : UInt8
  channel : UInt8
  signal : Int8
  authmode : UInt8
deriving DecidableEq, Repr

/-- What Linux and the driver are told. -/
inductive Obs where
  | scanComplete (aps : List Ap) (status : Int32)
  | connected (bssid : Bytes) (channel : UInt8) (status : Int32)
  | disconnected (reason : UInt16)
  | receiveZerocopy (frame : Nat) (eb : Option Nat) (length : UInt16)
  | freeRxBuffer (eb : Nat)
  | rxThrottle
deriving DecidableEq, Repr

/-- The blocks that are allocated, `s31_wifi_rx_registered`, the entries of the arrays of
    access points that were written, and the history. -/
structure World where
  blocks : List Nat := []
  rxRegistered : Bool := false
  apWrites : List Nat := []
  trace : List Obs := []

/-- One observation more. -/
def World.log (w : World) (o : Obs) : World := { w with trace := w.trace ++ [o] }

/-- `heap_caps_malloc` with its answer -/
def World.malloc (w : World) (block : Option Nat) : World :=
  { w with blocks := block.toList ++ w.blocks }

/-- `heap_caps_free`, which does nothing to a null pointer -/
def World.free (w : World) (block : Option Nat) : World :=
  match block with
  | none => w
  | some b => { w with blocks := w.blocks.erase b }

/-- What the allocator and the driver answer to `SCAN_DONE`: the two blocks, the result
    of `esp_wifi_scan_get_ap_records` and the records that it has counted, and what the
    array of access points holds at first. -/
structure ScanAnswers where
  records : Option Nat
  aps : Option Nat
  rc : Int32
  found : List ApRecord
  old : Nat → Ap

/-- `strnlen` -/
def strnlen (s : Bytes) (n : Nat) : Nat := ((s.take n).takeWhile (· ≠ 0)).length

/-- One turn of the loop over the records. -/
def fillAp (ap : Ap) (r : ApRecord) : Ap :=
  let length := strnlen r.ssid 32
  let ssid := memcpy ap.ssid r.ssid length
  { bssid := memcpy ap.bssid r.bssid 6
    ssid := if length < 32 then ssid.take length ++ List.replicate (32 - length) 0 else ssid
    ssidLength := UInt8.ofNat length
    channel := r.primary
    signal := r.rssi
    authmode := r.authmode }

/-- The loop over the records from entry `i` on. -/
def fillAps (aps : TracedBuffer Ap) (i : Nat) : List ApRecord → TracedBuffer Ap
  | [] => aps
  | r :: rs => fillAps (aps.put i (fillAp (aps.get i) r)) (i + 1) rs

/-- `s31_wifi_event` for `WIFI_EVENT_SCAN_DONE` -/
def scanDone (a : ScanAnswers) (w : World) : World :=
  let w := (w.malloc a.records).malloc a.aps
  if a.records.isNone ∨ a.aps.isNone then
    -- one of the blocks may be there and is freed
    ((w.free a.records).free a.aps).log (.scanComplete [] (-1))
  else if a.rc ≠ 0 then ((w.free a.records).free a.aps).log (.scanComplete [] a.rc)
  else
    let aps := fillAps ⟨a.old, []⟩ 0 a.found
    let w := { w with apWrites := w.apWrites ++ aps.written }
    let w := w.free a.records
    let w := w.log (.scanComplete (aps.read a.found.length) 0)
    w.free a.aps

/-- `s31_wifi_event` for `WIFI_EVENT_STA_CONNECTED`, after the captures were restarted -/
def staConnected (bssid : Bytes) (channel : UInt8) (regRxcb setTxDoneCb : Int32) (w : World) :
    World :=
  let rc := regRxcb
  let w := if rc = 0 then { w with rxRegistered := true } else w
  -- the second callback is registered only when the first one was
  let rc := if rc = 0 then setTxDoneCb else rc
  w.log (.connected bssid channel rc)

/-- `s31_wifi_event` for `WIFI_EVENT_STA_DISCONNECTED` -/
def staDisconnected (reason : UInt16) (w : World) : World := w.log (.disconnected reason)

/-- `s31_wifi_rx`; `rc` is what `s31_radio_wifi_receive_zerocopy` returns. -/
def wifiRx (buffer : Nat) (length : UInt16) (eb : Option Nat) (rc : Int32) (w : World) : World :=
  let w := w.log (.receiveZerocopy buffer eb length)
  -- the buffer goes back to the driver whatever Linux has answered
  let w := match eb with
    | none => w
    | some eb => w.log (.freeRxBuffer eb)
  if rc = 0 then w.log .rxThrottle else w

/-- The events of the driver, with what the kernel answers to them. -/
inductive Event where
  | scanDone (a : ScanAnswers)
  | staConnected (bssid : Bytes) (channel : UInt8) (regRxcb setTxDoneCb : Int32)
  | staDisconnected (reason : UInt16)
  | rx (buffer : Nat) (length : UInt16) (eb : Option Nat) (rc : Int32)

/-- The function that an event calls. -/
def step (w : World) : Event → World
  | .scanDone a => scanDone a w
  | .staConnected bssid channel regRxcb setTxDoneCb =>
    staConnected bssid channel regRxcb setTxDoneCb w
  | .staDisconnected reason => staDisconnected reason w
  | .rx buffer length eb rc => wifiRx buffer length eb rc w

/-- The state after the events. -/
def run (w : World) (events : List Event) : World := events.foldl step w

end EspS31.WifiEvents
