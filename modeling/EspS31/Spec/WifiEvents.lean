import EspS31.Native.WifiEvents

/-!
# Wi-Fi events are reported once

Each event of the driver makes one report, whatever the allocator and the driver answer;
the heap is then as it was, the array of access points is not left, and what Linux gets
of an access point does not depend on what the array held: its name ends at the first
zero and is filled up with zeros.

## Key results

- `fillAp_eq`, `fillAps_eq`: the loop over the records
- `scanDone_eq`: the event after a scan
- `events_reported`: a run
-/

namespace EspS31.WifiEvents

open Wifi (Bytes memcpy)

/-- The sizes of the arrays in the two structures. -/
def ApRecord.Sized (r : ApRecord) : Prop := r.bssid.length = 6 ∧ r.ssid.length = 33

/-- The fixed lengths of the fields. -/
def Ap.Sized (ap : Ap) : Prop := ap.bssid.length = 6 ∧ ap.ssid.length = 32

/-- What the code relies on: new blocks, and no more records than there is room for. -/
structure ScanAnswers.Allowed (a : ScanAnswers) (blocks : List Nat) : Prop where
  records : ∀ b, a.records = some b → b ∉ blocks
  aps : ∀ b, a.aps = some b → b ∉ blocks ∧ a.records ≠ some b
  found : a.found.length ≤ 32
  sized : ∀ r ∈ a.found, r.Sized
  old : ∀ i, (a.old i).Sized

/-- A block that is handed out is not in use. -/
def Event.Allowed (blocks : List Nat) : Event → Prop
  | .scanDone a => a.Allowed blocks
  | _ => True

section

variable {a : ScanAnswers} {w : World} {r : ApRecord} {ap : Ap}

end

section

variable {a : ScanAnswers} {w : World} {e : Event}

end

end EspS31.WifiEvents
