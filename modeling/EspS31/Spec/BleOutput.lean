import EspS31.Spec.BleNames
import EspS31.Spec.BleReports

/-!
# The output of a BLE scan

What `ble_scan.c` prints, for any number of devices and any events: which events are
reported, that a report is one line of printable characters, and that nothing behind
the end of an event or from the stack gets into it.

## Key results

- `handleDevice_output`, `handleDevice_known`: one event, as equations
- `scan_reports`: which events are reported, from the events before them
- `scan_printable`: the lines of the reports
- `scan_own_bytes`: the reports depend on the bytes of the events alone
-/

namespace EspS31.BleScan

open TracedBuffer CText

/-! ## One event -/

/-- The devices in the table. -/
def Scan.known (s : Scan) : List SeenDevice := s.devices.read s.deviceCount

/-- The table has as many devices as the count says. -/
theorem Scan.length_known (s : Scan) : s.known.length = s.deviceCount := length_read ..

/-- The report of an event. -/
def reportOf (event : Event) : Report :=
  ⟨eventDevice event, (event.bytes (6 + 7)).toInt8.toInt, eventName event⟩

/-- The event is reported: it is well formed and its device is not in the table. -/
def Fresh (known : List SeenDevice) (event : Event) : Prop :=
  WellFormed event ∧ eventDevice event ∉ known

instance (known : List SeenDevice) : DecidablePred (Fresh known) :=
  fun _ => inferInstanceAs (Decidable (_ ∧ _))

section

variable {s : Scan} {event : Event}

/-- An event is reported when it is well formed and its device is new. -/
theorem handleDevice_output (s : Scan) (event : Event) :
    (handleDevice s event).output =
      s.output ++ if Fresh s.known event then [reportOf event] else [] := by
  obtain ⟨hbad, heq⟩ | ⟨-, hseen, heq⟩ | ⟨hwell, hnew, heq⟩ := handleDevice_cases s event
  · have hold : ¬ Fresh s.known event := fun h => hbad h.1
    simp only [heq, hold, if_false, List.append_nil]
  · have hold : ¬ Fresh s.known event := fun h => h.2 hseen
    simp only [heq, hold, if_false, List.append_nil, Scan.look]
  · have hfresh : Fresh s.known event := ⟨hwell, hnew⟩
    rw [heq, if_pos hfresh]
    -- the report is the same with and without an entry
    split
    · rfl
    · rfl

/-- A new device is put in the table while there is room. -/
theorem handleDevice_known (s : Scan) (event : Event) :
    (handleDevice s event).known =
      s.known ++
        if Fresh s.known event ∧ s.known.length < MAX_DEVICES then [eventDevice event] else [] := by
  rw [s.length_known]
  obtain ⟨hbad, heq⟩ | ⟨-, hseen, heq⟩ | ⟨hwell, hnew, heq⟩ := handleDevice_cases s event
  · have hold : ¬ Fresh s.known event := fun h => hbad h.1
    simp only [heq, hold, false_and, if_false, List.append_nil]
  · have hold : ¬ Fresh s.known event := fun h => h.2 hseen
    simp only [heq, hold, false_and, if_false, List.append_nil]
    rfl
  · have hfresh : Fresh s.known event := ⟨hwell, hnew⟩
    rw [heq]
    -- a full table keeps its devices
    by_cases hroom : s.deviceCount < MAX_DEVICES
    · rw [if_pos hroom, if_pos ⟨hfresh, hroom⟩]
      exact read_puts s.devices s.deviceCount [eventDevice event]
    · rw [if_neg hroom, if_neg fun h => hroom h.2, List.append_nil]
      rfl

end

/-! ## Which events are reported -/

/-- The devices that are remembered after some events: the first 128 different ones. -/
def remembered (events : List Event) : List SeenDevice :=
  (offered events).eraseDups.take MAX_DEVICES

section

variable {events : List Event} {event : Event}

/-- One event more offers one device more, when it is well formed. -/
private theorem offered_concat (events : List Event) (event : Event) :
    offered (events ++ [event]) =
      offered events ++ if WellFormed event then [eventDevice event] else [] := by
  rw [offered, List.filter_append, List.map_append]
  by_cases hwell : WellFormed event
  · simp [offered, hwell]
  · simp [offered, hwell]

/-- A device is added to the ones that are remembered when it is new and there is
    room. -/
private theorem remembered_concat (events : List Event) (event : Event) :
    remembered (events ++ [event]) =
      remembered events ++
        if Fresh (remembered events) event ∧ (remembered events).length < MAX_DEVICES then
          [eventDevice event]
        else [] := by
  by_cases hwell : WellFormed event
  · rw [remembered, offered_concat, if_pos hwell, List.eraseDups_append]
    by_cases hold : eventDevice event ∈ offered events
    · -- an old device is in the table, or the table is full
      have hnone : [eventDevice event].removeAll (offered events) = [] := by
        simp [List.removeAll, hold]
      rw [hnone, List.eraseDups_nil, List.append_nil, ← remembered, if_neg, List.append_nil]
      rintro ⟨hfresh, hroom⟩
      have hall : remembered events = (offered events).eraseDups := by
        apply List.take_of_length_le
        rw [remembered, List.length_take] at hroom
        omega
      exact hfresh.2 (by rw [hall]; exact List.mem_eraseDups.mpr hold)
    -- a new device is remembered while there is room
    · have hone : ([eventDevice event].removeAll (offered events)).eraseDups =
          [eventDevice event] := by
        simp [List.removeAll, hold, List.eraseDups_cons]
      have hfresh : Fresh (remembered events) event :=
        ⟨hwell, fun hmem => hold (List.mem_eraseDups.mp (List.mem_of_mem_take hmem))⟩
      rw [hone]
      by_cases hroom : (offered events).eraseDups.length < MAX_DEVICES
      · have hall : remembered events = (offered events).eraseDups :=
          List.take_of_length_le (by omega)
        rw [if_pos ⟨hfresh, by rw [hall]; exact hroom⟩, hall]
        apply List.take_of_length_le
        simp only [List.length_append, List.length_singleton]
        omega
      · rw [if_neg, List.append_nil, remembered, List.take_append_of_le_length (by omega)]
        rintro ⟨-, hlt⟩
        rw [remembered, List.length_take] at hlt
        omega
  · have hold : ¬ Fresh (remembered events) event := fun h => hwell h.1
    simp only [remembered, offered_concat, hwell, if_false, List.append_nil] at hold ⊢
    simp only [hold, false_and, if_false, List.append_nil]

/-- The table holds what is to be remembered. -/
theorem scan_known (table : Nat → SeenDevice) (events : List Event) :
    (scan table events).known = remembered events := by
  induction events using List.reverseRecOn with
  | nil => rfl
  | append_singleton events event ih =>
    rw [scan, List.foldl_append, List.foldl_cons, List.foldl_nil, handleDevice_known, ← scan, ih,
      remembered_concat]

/-- An event is reported exactly when it is well formed and its device is not one of
    the first 128 different ones of the events before it, and the summary counts
    these. -/
theorem scan_reports (table : Nat → SeenDevice) (events : List Event) (event : Event) :
    (scan table (events ++ [event])).output =
        (scan table events).output ++
          (if WellFormed event ∧ eventDevice event ∉ (offered events).eraseDups.take MAX_DEVICES then
            [reportOf event]
          else []) ∧
      (scan table events).deviceCount = min (offered events).eraseDups.length MAX_DEVICES := by
  have hknown := scan_known table events
  constructor
  · rw [scan, List.foldl_append, List.foldl_cons, List.foldl_nil, handleDevice_output, ← scan,
      hknown]
    rfl
  · rw [← Scan.length_known, hknown, remembered, List.length_take, Nat.min_comm]

end

/-! ## The lines -/

/-- The characters from space to tilde. -/
def Printable (c : Char) : Prop := ' ' ≤ c ∧ c ≤ '~'

instance : DecidablePred Printable := fun _ => inferInstanceAs (Decidable (_ ∧ _))

/-- A text without control characters. -/
def Plain (t : Text) : Prop := ∀ c ∈ t, Printable c

namespace Plain

variable {s t : Text}

/-- Text whose characters are printable is plain. -/
private theorem of_all (h : t.all (fun c => decide (Printable c)) = true) : Plain t := by
  simpa [Plain] using h

/-- Two plain texts in a row. -/
theorem append (hs : Plain s) (ht : Plain t) : Plain (s ++ t) := by
  intro c hc
  exact (List.mem_append.mp hc).elim (hs c) (ht c)

/-- Spaces are plain. -/
private theorem spaces (n : Nat) : Plain (List.replicate n ' ') := by
  intro c hc
  rw [List.eq_of_mem_replicate hc]
  decide

/-- Plain texts with plain text between them. -/
theorem intercalate (hs : Plain s) {ts : List Text} (hts : ∀ t ∈ ts, Plain t) :
    Plain (s.intercalate ts) := by
  induction ts with
  | nil => exact nofun
  | cons t ts ih =>
    have ht := hts t (List.mem_cons_self ..)
    have hrest := ih fun t' ht' => hts t' (List.mem_cons_of_mem _ ht')
    cases ts with
    | nil => rwa [List.intercalate_singleton]
    | cons u us =>
      rw [List.intercalate_cons_cons]
      exact (ht.append hs).append hrest

end Plain

/-- A byte in hexadecimal is plain. -/
private theorem plain_hexByte (b : UInt8) : Plain (hexByte b) := by
  -- both halves of a byte are digits
  have hdigit : ∀ n < 16, Printable (hexDigit n) := by decide
  have hlt := b.toNat_lt
  intro c hc
  simp only [hexByte, List.mem_cons, List.not_mem_nil, or_false] at hc
  obtain rfl | rfl := hc
  · exact hdigit _ (by omega)
  · exact hdigit _ (by omega)

/-- The words for the types are plain. -/
private theorem plain_typeName (type : UInt8) : Plain (typeName type) := by
  rw [typeName]
  split
  · exact .of_all (by decide)
  · split
    · exact .of_all (by decide)
    · exact .of_all (by decide)

/-- A number is plain. -/
private theorem plain_decimal (n : Int) : Plain (decimal n) := by
  -- a sign, if there is one, and decimal digits
  have hdigits : Plain (Nat.toDigits 10 n.natAbs) := by
    intro c hc
    have hdigit := Nat.isDigit_of_mem_toDigits (by decide) (by decide) hc
    simp only [Char.isDigit, Bool.and_eq_true, decide_eq_true_eq] at hdigit
    exact ⟨UInt32.le_trans (by decide) hdigit.1, UInt32.le_trans hdigit.2 (by decide)⟩
  rw [decimal]
  split
  · exact .append (.of_all (by decide)) hdigits
  · exact hdigits

/-! ## Names -/

/-- A byte that is shown is printable. -/
private theorem shown_range {nameSize : Nat} {value : List UInt8} {b : UInt8}
    (hb : b ∈ shown nameSize value) :
    0x20 ≤ b.toNat ∧ b.toNat ≤ 0x7e := by
  obtain ⟨a, -, rfl⟩ := List.mem_map.mp hb
  split
  · next hkept => exact hkept
  · decide

/-- A name as it is shown is plain. -/
private theorem plain_shown (nameSize : Nat) (value : List UInt8) :
    Plain ((shown nameSize value).map fun b => Char.ofNat b.toNat) := by
  have hchar : ∀ n < 0x7f, 0x20 ≤ n → Printable (Char.ofNat n) := by decide
  intro c hc
  obtain ⟨b, hb, rfl⟩ := List.mem_map.mp hc
  have hrange := shown_range hb
  exact hchar _ (by omega) hrange.1

/-- What is printed of the name of an event: at most 63 printable characters. -/
private theorem eventName_eq (event : Event) :
    eventName event =
      shown 64 (localName (parseFields
        ((List.range (eirLen event)).map fun i => event.bytes (6 + 14 + i)))) := by
  -- the buffer holds the name and its terminator, whatever was on the stack
  have hnamed := advertisementName_named (fun i => event.bytes (6 + 14 + i)) event.stack
    (eirLen event) (show 1 ≤ 64 by decide)
  have hlen := length_shown (show 1 ≤ 64 by decide) (localName (parseFields
    ((List.range (eirLen event)).map fun i => event.bytes (6 + 14 + i))))
  obtain ⟨rest, hread⟩ := hnamed.name.read_eq hlen
  rw [eventName, hread, List.append_assoc, List.takeWhile_append_of_pos]
  · -- the string ends at the terminator
    simp
  · intro b hb
    have hrange := shown_range hb
    have hne : b ≠ 0 := by
      rintro rfl
      exact absurd hrange.1 (by decide)
    simpa using hne

/-! ## Reports -/

/-- Padding on the right is plain. -/
private theorem plain_padRight (width : Nat) {t : Text} (ht : Plain t) : Plain (padRight width t) :=
  ht.append (.spaces _)

/-- Padding on the left is plain. -/
private theorem plain_padLeft (width : Nat) {t : Text} (ht : Plain t) : Plain (padLeft width t) :=
  .append (.spaces _) ht

/-- The line of a report whose name has printable characters only. -/
private theorem plain_reportLine {r : Report}
    (hname : Plain (r.name.map fun b => Char.ofNat b.toNat)) :
    ∃ line, reportLine r = line ++ ['\n'] ∧ Plain line := by
  have haddress : Plain ([':'].intercalate (r.device.address.reverse.map hexByte)) := by
    apply Plain.intercalate (.of_all (by decide))
    intro t ht
    obtain ⟨b, -, rfl⟩ := List.mem_map.mp ht
    exact plain_hexByte b
  have hshown : Plain (if r.name = [] then []
      else "  ".toList ++ r.name.map fun b => Char.ofNat b.toNat) := by
    split
    · exact nofun
    · exact .append (.of_all (by decide)) hname
  refine ⟨_, rfl, ?_⟩
  -- the parts of the line in the order of the two formats
  apply Plain.append _ hshown
  apply Plain.append _ (.of_all (by decide))
  apply Plain.append _ (plain_padLeft 4 (plain_decimal r.rssi))
  apply Plain.append _ (.of_all (by decide))
  apply Plain.append _ (plain_padRight 6 (plain_typeName r.device.type))
  exact haddress.append (.of_all (by decide))

/-- Each report is of an event, with the name its advertisement gives to the device, at
    most 63 characters of it, and is one line of printable characters. -/
theorem scan_printable (table : Nat → SeenDevice) (events : List Event) :
    ∀ r ∈ (scan table events).output,
      (∃ e ∈ events, r.device = eventDevice e ∧
        r.name = shown 64 (localName (parseFields
          ((List.range (eirLen e)).map fun i => e.bytes (6 + 14 + i))))) ∧
      ∃ line, reportLine r = line ++ ['\n'] ∧ Plain line := by
  -- a report is made by one event and is not changed by the later ones
  have hown : ∀ r ∈ (scan table events).output, ∃ e ∈ events, r = reportOf e := by
    induction events using List.reverseRecOn with
    | nil => exact nofun
    | append_singleton events event ih =>
      intro r hr
      rw [scan, List.foldl_append, List.foldl_cons, List.foldl_nil, handleDevice_output, ← scan,
        List.mem_append] at hr
      obtain hold | hnew := hr
      · obtain ⟨e, he, heq⟩ := ih r hold
        exact ⟨e, List.mem_append_left _ he, heq⟩
      · split at hnew
        · exact ⟨event, by simp, List.mem_singleton.mp hnew⟩
        · exact absurd hnew List.not_mem_nil
  intro r hr
  obtain ⟨e, he, rfl⟩ := hown r hr
  have hname : (reportOf e).name = shown 64 (localName (parseFields
      ((List.range (eirLen e)).map fun i => e.bytes (6 + 14 + i)))) := eventName_eq e
  constructor
  · exact ⟨e, he, rfl, hname⟩
  · apply plain_reportLine
    rw [hname]
    exact plain_shown 64 _

/-- An event with the name `hi`; `behind` is what the buffer holds behind it. -/
def hiEvent (behind : UInt8) : Event where
  bytes i := ([0x12, 0, 0, 0, 18, 0, 1, 2, 3, 4, 5, 6, 1, 0xc4, 0, 0, 0, 0, 4, 0,
    3, 0x09, 0x68, 0x69] : List UInt8).getD i behind
  length := 24
  stack _ := behind

/-- The line of one device. -/
theorem scan_printable_hi :
    ∃ line, reportLine (reportOf (hiEvent 0)) = line ++ ['\n'] ∧ Plain line := by
  apply (scan_printable (fun _ => ⟨[], 0⟩) [hiEvent 0] (reportOf (hiEvent 0)) _).2
  have hfresh : Fresh (Scan.start fun _ => ⟨[], 0⟩).known (hiEvent 0) :=
    ⟨by decide, List.not_mem_nil⟩
  rw [scan, List.foldl_cons, List.foldl_nil, handleDevice_output, if_pos hfresh]
  simp

/-! ## The bytes of an event -/

/-- The same bytes up to the length; the buffer behind them and the stack may differ. -/
def SameBytes (e e' : Event) : Prop := e.length = e'.length ∧ ∀ i < e.length, e.bytes i = e'.bytes i

section

variable {e e' : Event}

/-- A number within the length is the same. -/
theorem SameBytes.getLe16 (h : SameBytes e e') {o : Nat} (ho : o + 1 < e.length) :
    BleScan.getLe16 e.bytes o = BleScan.getLe16 e'.bytes o := by
  rw [BleScan.getLe16, BleScan.getLe16, h.2 o (by omega), h.2 (o + 1) ho]

/-- Whether an event is well formed depends on its bytes only. -/
theorem SameBytes.wellFormed (h : SameBytes e e') : WellFormed e ↔ WellFormed e' := by
  by_cases hshort : 20 ≤ e.length
  · have hpayload : payloadLen e = payloadLen e' := h.getLe16 (by omega)
    have heir : eirLen e = eirLen e' := h.getLe16 (by omega)
    rw [WellFormed, WellFormed, hpayload, heir, h.1]
  · have hshort' : ¬ 20 ≤ e'.length := h.1 ▸ hshort
    simp only [WellFormed, hshort, hshort', false_and]

/-- All that is read of a well-formed event lies within its length. -/
theorem SameBytes.reportOf (h : SameBytes e e') (hwell : WellFormed e) :
    BleScan.reportOf e = BleScan.reportOf e' := by
  obtain ⟨hlong, hpayload, -, heir⟩ := hwell
  have hdevice : eventDevice e = eventDevice e' := by
    have haddress : (List.range 6).map (fun i => e.bytes (6 + i)) =
        (List.range 6).map fun i => e'.bytes (6 + i) := by
      apply List.map_congr_left
      intro i hi
      have hi := List.mem_range.mp hi
      exact h.2 _ (by omega)
    rw [eventDevice, eventDevice, haddress, h.2 (6 + 6) (by omega)]
  have hlen : eirLen e = eirLen e' := h.getLe16 (by omega)
  -- the advertisement ends within the event
  have heirBytes : (List.range (eirLen e)).map (fun i => e.bytes (6 + 14 + i)) =
      (List.range (eirLen e')).map fun i => e'.bytes (6 + 14 + i) := by
    rw [← hlen]
    apply List.map_congr_left
    intro i hi
    have hi := List.mem_range.mp hi
    exact h.2 _ (by omega)
  rw [BleScan.reportOf, BleScan.reportOf, hdevice, eventName_eq, eventName_eq, heirBytes,
    h.2 (6 + 7) (by omega)]

/-- The same devices are known and the same reports were made. -/
def SameScan (s s' : Scan) : Prop := s.known = s'.known ∧ s.output = s'.output

/-- Events with the same bytes keep two scans the same. -/
theorem SameScan.handleDevice {s s' : Scan} (hs : SameScan s s') (h : SameBytes e e') :
    SameScan (BleScan.handleDevice s e) (BleScan.handleDevice s' e') := by
  rw [SameScan, handleDevice_known, handleDevice_known, handleDevice_output, handleDevice_output,
    ← hs.1, ← hs.2]
  -- an event that is not well formed is dropped in both scans
  by_cases hwell : WellFormed e
  · have hreport := h.reportOf hwell
    have hdevice : eventDevice e = eventDevice e' := congrArg Report.device hreport
    have hfresh : Fresh s.known e ↔ Fresh s.known e' := by
      rw [Fresh, Fresh, h.wellFormed, hdevice]
    by_cases hf : Fresh s.known e
    · simp only [hf, hfresh.mp hf, hdevice, hreport, and_self]
    · simp only [hf, mt hfresh.mpr hf, false_and, if_false, and_self]
  · have hf : ¬ Fresh s.known e := fun hf => hwell hf.1
    have hf' : ¬ Fresh s.known e' := fun hf' => hwell (h.wellFormed.mpr hf'.1)
    simp only [hf, hf', false_and, if_false, and_self]

/-- Scans of the same bytes end in the same way. -/
theorem SameScan.foldl {s s' : Scan} {events events' : List Event} (hs : SameScan s s')
    (h : List.Forall₂ SameBytes events events') :
    SameScan (events.foldl BleScan.handleDevice s) (events'.foldl BleScan.handleDevice s') := by
  -- induction on the events, for any two scans that agree so far
  induction h generalizing s s' with
  | nil => exact hs
  | cons hbytes _ ih => exact ih (hs.handleDevice hbytes)

end

/-- The reports and the count depend on the bytes of the events up to their lengths
    alone: on nothing behind them, nothing on the stack and nothing that was in the
    table. -/
theorem scan_own_bytes (table table' : Nat → SeenDevice) {events events' : List Event}
    (h : List.Forall₂ SameBytes events events') :
    (scan table events).output = (scan table' events').output ∧
      (scan table events).deviceCount = (scan table' events').deviceCount := by
  have hstart : SameScan (.start table) (.start table') := ⟨rfl, rfl⟩
  obtain ⟨hknown, houtput⟩ := hstart.foldl h
  constructor
  · exact houtput
  · have hlen := congrArg List.length hknown
    rwa [Scan.length_known, Scan.length_known] at hlen

/-- One event, with other bytes behind it. -/
theorem scan_own_bytes_hi :
    (scan (fun _ => ⟨[], 0⟩) [hiEvent 0]).output =
        (scan (fun _ => ⟨[], 1⟩) [hiEvent 0xff]).output ∧
      (scan (fun _ => ⟨[], 0⟩) [hiEvent 0]).deviceCount =
        (scan (fun _ => ⟨[], 1⟩) [hiEvent 0xff]).deviceCount := by
  have hbytes : SameBytes (hiEvent 0) (hiEvent 0xff) :=
    ⟨rfl, show ∀ i < 24, (hiEvent 0).bytes i = (hiEvent 0xff).bytes i by decide⟩
  exact scan_own_bytes _ _ (.cons hbytes .nil)

end EspS31.BleScan
