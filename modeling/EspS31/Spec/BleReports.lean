import Mathlib.Data.List.Dedup
import Mathlib.Data.List.Induction
import Mathlib.Data.List.Perm.Basic
import EspS31.Native.BleScan

/-!
# Reports of BLE devices

`handle_device` prints a device unless it is in the table, and the table holds the
first 128 devices that were printed.  A device that is not among them is printed again
with each of its events.

## Key results

- `handleDevice_cases`: what an event does
- `scan_tabled`: the table and the output after any events
- `reportedOnce_iff`: each device is reported once, and counted, exactly when there are
  at most 128 of them
-/

namespace EspS31.BleScan

open TracedBuffer

/-! ## Events -/

/-- The three lengths in an event fit into each other. -/
def WellFormed (event : Event) : Prop :=
  20 ≤ event.length ∧ payloadLen event + 6 ≤ event.length ∧ 14 ≤ payloadLen event ∧
    eirLen event + 14 ≤ payloadLen event

instance : DecidablePred WellFormed := fun _ => inferInstanceAs (Decidable (_ ∧ _))

/-- The devices in the well-formed ones of some events. -/
def offered (events : List Event) : List SeenDevice :=
  (events.filter fun e => WellFormed e).map eventDevice

/-- The table of `main` before the first event is whatever was on the stack. -/
def Scan.start (table : Nat → SeenDevice) : Scan := ⟨⟨table, []⟩, 0, [], []⟩

/-- The state after the events. -/
def scan (table : Nat → SeenDevice) (events : List Event) : Scan :=
  events.foldl handleDevice (.start table)

/-- The devices that were printed. -/
def Scan.printed (s : Scan) : List SeenDevice := s.output.map Report.device

/-! ## One event -/

section

variable {devices : Nat → SeenDevice} {device : SeenDevice}

/-- The search finds the device exactly when the table has it, and reads entries of the table
    only. -/
private theorem alreadySeenFrom_spec (i n : Nat) :
    ((alreadySeenFrom devices device i n).1 = true ↔ device ∈ (List.range' i n).map devices) ∧
      ∀ j ∈ (alreadySeenFrom devices device i n).2, j < i + n := by
  induction n generalizing i with
  | zero => exact ⟨⟨nofun, nofun⟩, nofun⟩
  | succ n ih =>
    obtain ⟨hseen, hreads⟩ := ih (i + 1)
    rw [alreadySeenFrom, List.range'_succ, List.map_cons, List.mem_cons]
    -- the search ends at the first entry with this type and address
    by_cases hsame : (devices i).type = device.type ∧ (devices i).address = device.address
    · have heq : device = devices i := by
        cases device with
        | mk address type => exact congrArg₂ SeenDevice.mk hsame.2.symm hsame.1.symm
      rw [if_pos hsame]
      refine ⟨⟨fun _ => .inl heq, fun _ => rfl⟩, fun j hj => ?_⟩
      obtain rfl := List.mem_singleton.mp hj
      omega
    · have hne : device ≠ devices i := by
        rintro rfl
        exact hsame ⟨rfl, rfl⟩
      rw [if_neg hsame]
      refine ⟨hseen.trans ⟨.inr, fun h => h.resolve_left hne⟩, fun j hj => ?_⟩
      obtain rfl | hj := List.mem_cons.mp hj
      · omega
      · have hlt := hreads j hj
        omega

/-- The search is over the entries in use. -/
private theorem alreadySeen_iff (b : TracedBuffer SeenDevice) (count : Nat) :
    (alreadySeen b.get count device).1 = true ↔ device ∈ b.read count := by
  rw [TracedBuffer.read, List.range_eq_range']
  exact (alreadySeenFrom_spec 0 count).1

/-- The entries that are read are in the table. -/
private theorem lt_of_mem_alreadySeen {count j : Nat}
    (hj : j ∈ (alreadySeen devices count device).2) :
    j < count := by
  have hlt := (alreadySeenFrom_spec 0 count).2 j hj
  rwa [Nat.zero_add] at hlt

end

section

variable {s : Scan} {event : Event}

/-- The scan after the search for the device of an event. -/
def Scan.look (s : Scan) (event : Event) : Scan :=
  { s with lookups := s.lookups ++ (alreadySeen s.devices.get s.deviceCount (eventDevice event)).2 }

/-- The scan with one report more. -/
def Scan.print (s : Scan) (event : Event) : Scan :=
  { s with
    output := s.output ++
      [⟨eventDevice event, (event.bytes (6 + 7)).toInt8.toInt, eventName event⟩] }

/-- The scan with one entry more. -/
def Scan.enter (s : Scan) (event : Event) : Scan :=
  { s with
    devices := s.devices.put s.deviceCount (eventDevice event)
    deviceCount := s.deviceCount + 1 }

/-- An event is dropped, or its device is in the table, or it is printed, with an entry
    as long as there is one. -/
theorem handleDevice_cases (s : Scan) (event : Event) :
    (¬ WellFormed event ∧ handleDevice s event = s) ∨
    (WellFormed event ∧ eventDevice event ∈ s.devices.read s.deviceCount ∧
      handleDevice s event = s.look event) ∨
    (WellFormed event ∧ eventDevice event ∉ s.devices.read s.deviceCount ∧
      handleDevice s event =
        if s.deviceCount < MAX_DEVICES then ((s.look event).enter event).print event
        else (s.look event).print event) := by
  rw [handleDevice]
  by_cases hshort : event.length < 20
  · exact .inl ⟨fun h => absurd h.1 (by omega), if_pos hshort⟩
  rw [if_neg hshort]
  by_cases hpayload : payloadLen event + 6 > event.length ∨ payloadLen event < 14
  · refine .inl ⟨fun h => ?_, if_pos hpayload⟩
    obtain ⟨-, hfits, hlong, -⟩ := h
    omega
  rw [if_neg hpayload]
  by_cases heir : eirLen event + 14 > payloadLen event
  · exact .inl ⟨fun h => absurd h.2.2.2 (by omega), if_pos heir⟩
  -- what passes the three tests is well formed
  have hwell : WellFormed event := by
    rw [WellFormed]
    omega
  rw [if_neg heir, ← alreadySeen_iff]
  by_cases hseen : (alreadySeen s.devices.get s.deviceCount (eventDevice event)).1 = true
  · exact .inr (.inl ⟨hwell, hseen, if_pos hseen⟩)
  · refine .inr (.inr ⟨hwell, hseen, (if_neg hseen).trans ?_⟩)
    by_cases hroom : s.deviceCount < MAX_DEVICES
    · simp only [hroom, if_true]
      rfl
    · simp only [hroom, if_false]
      rfl

end

/-! ## Any events -/

/-- The table is the first 128 devices that were printed, of which none is printed
    again. -/
structure Tabled (events : List Event) (s : Scan) : Prop where
  table : s.devices.read s.deviceCount = s.printed.take MAX_DEVICES
  count : s.deviceCount = min s.printed.length MAX_DEVICES
  distinct : (s.printed.take MAX_DEVICES).Nodup
  later : ∀ d ∈ s.printed.drop MAX_DEVICES, d ∉ s.printed.take MAX_DEVICES
  printed : ∀ d, d ∈ s.printed ↔ d ∈ offered events
  inside : ∀ i, i ∈ s.lookups ∨ i ∈ s.devices.written → i < MAX_DEVICES

section

variable {s : Scan} {event : Event} {events : List Event}

/-- One event more, and the devices offered. -/
private theorem mem_offered_concat {d : SeenDevice} :
    d ∈ offered (events ++ [event]) ↔
      d ∈ offered events ∨ (WellFormed event ∧ d = eventDevice event) := by
  rw [offered, List.filter_append, List.map_append, List.mem_append, ← offered]
  by_cases hwell : WellFormed event
  · simp [hwell]
  · simp [hwell]

/-- The search reads entries in use only. -/
theorem Tabled.look (h : Tabled events s) (event : Event) : Tabled events (s.look event) where
  table := h.table
  count := h.count
  distinct := h.distinct
  later := h.later
  printed := h.printed
  inside i hi := by
    obtain hlooked | hwritten := hi
    · obtain hold | hnew := List.mem_append.mp hlooked
      · exact h.inside i (.inl hold)
      · have hlt := lt_of_mem_alreadySeen hnew
        have hcount := h.count
        omega
    · exact h.inside i (.inr hwritten)

/-- A device that is new to the table is printed, and entered if there is room. -/
theorem Tabled.report (h : Tabled events s) (hwell : WellFormed event)
    (hnew : eventDevice event ∉ s.devices.read s.deviceCount) :
    Tabled (events ++ [event])
      (if s.deviceCount < MAX_DEVICES then (s.enter event).print event else s.print event) := by
  -- what is printed goes on by this device, with room in the table or without
  have hmem : ∀ d, d ∈ s.printed ++ [eventDevice event] ↔ d ∈ offered (events ++ [event]) := by
    intro d
    rw [mem_offered_concat, List.mem_append, h.printed, List.mem_singleton]
    exact ⟨fun hd => hd.imp_right fun heq => ⟨hwell, heq⟩, fun hd => hd.imp_right And.right⟩
  have hprinted : ∀ s' : Scan, s'.output = s.output →
      (s'.print event).printed = s.printed ++ [eventDevice event] := by
    intro s' hsame
    rw [Scan.printed, Scan.print, hsame, List.map_append]
    rfl
  have hcount := h.count
  rw [h.table] at hnew
  by_cases hroom : s.deviceCount < MAX_DEVICES
  -- there is room: what is printed is all in the table, and so is the new device
  · have hshort : s.printed.length < MAX_DEVICES := by omega
    have hold : s.printed.take MAX_DEVICES = s.printed := List.take_of_length_le (by omega)
    have hall : (s.printed ++ [eventDevice event]).take MAX_DEVICES =
        s.printed ++ [eventDevice event] := by
      apply List.take_of_length_le
      rw [List.length_append, List.length_singleton]
      exact hshort
    rw [hold] at hnew
    rw [if_pos hroom]
    have hout := hprinted (s.enter event) rfl
    refine ⟨?_, ?_, ?_, ?_, fun d => ?_, fun i hi => ?_⟩
    · rw [hout, hall, ← hold, ← h.table]
      exact read_puts s.devices s.deviceCount [eventDevice event]
    · rw [hout, List.length_append, List.length_singleton, Scan.print, Scan.enter]
      dsimp only
      omega
    · rw [hout, hall, ← List.concat_eq_append]
      exact List.Nodup.concat hnew (hold ▸ h.distinct)
    · rw [hout, List.drop_of_length_le (by rw [List.length_append, List.length_singleton]; omega)]
      exact nofun
    · rw [hout]
      exact hmem d
    · obtain hlooked | hwritten := hi
      · exact h.inside i (.inl hlooked)
      · obtain rfl | hwritten := List.mem_cons.mp hwritten
        · exact hroom
        · exact h.inside i (.inr hwritten)
  · -- the table is full: the device is printed and not remembered
    have hlong : MAX_DEVICES ≤ s.printed.length := by omega
    have hsame : (s.printed ++ [eventDevice event]).take MAX_DEVICES =
        s.printed.take MAX_DEVICES := List.take_append_of_le_length hlong
    rw [if_neg hroom]
    have hout := hprinted s rfl
    refine ⟨?_, ?_, ?_, ?_, fun d => ?_, h.inside⟩
    · rw [hout, hsame]
      exact h.table
    · rw [hout, List.length_append, List.length_singleton, Scan.print]
      dsimp only
      omega
    · rw [hout, hsame]
      exact h.distinct
    · rw [hout, hsame, List.drop_append_of_le_length hlong]
      intro d hd
      obtain hd | hd := List.mem_append.mp hd
      · exact h.later d hd
      · obtain rfl := List.mem_singleton.mp hd
        exact hnew
    · rw [hout]
      exact hmem d

/-- Every event keeps the table right. -/
theorem Tabled.handleDevice (h : Tabled events s) (event : Event) :
    Tabled (events ++ [event]) (BleScan.handleDevice s event) := by
  obtain ⟨hbad, heq⟩ | ⟨hwell, hseen, heq⟩ | ⟨hwell, hnew, heq⟩ := handleDevice_cases s event
  · rw [heq]
    refine { h with printed := fun d => ?_ }
    rw [h.printed, mem_offered_concat]
    exact ⟨.inl, fun hd => hd.resolve_right fun hw => hbad hw.1⟩
  · rw [heq]
    -- the device is in the table, so it was offered before
    refine { h.look event with printed := fun d => ?_ }
    have hmem : eventDevice event ∈ offered events := by
      rw [← h.printed]
      rw [h.table] at hseen
      exact List.mem_of_mem_take hseen
    rw [mem_offered_concat]
    refine (h.printed d).trans ⟨.inl, fun hd => hd.elim id fun hw => ?_⟩
    exact hw.2 ▸ hmem
  · rw [heq]
    exact (h.look event).report hwell hnew

/-- The table and the output after any events. -/
theorem scan_tabled (table : Nat → SeenDevice) (events : List Event) :
    Tabled events (scan table events) := by
  induction events using List.reverseRecOn with
  | nil => exact ⟨rfl, rfl, List.nodup_nil, nofun, fun d => Iff.rfl, nofun⟩
  | append_singleton events event ih =>
    rw [scan, List.foldl_append]
    exact ih.handleDevice event

end

/-! ## Each device once -/

/-- Each device is printed once, the devices of the well-formed events are printed,
    they are counted, and the table is not left. -/
structure ReportedOnce (events : List Event) (s : Scan) : Prop where
  once : s.printed.Nodup
  reported : ∀ d, d ∈ s.printed ↔ ∃ e ∈ events, WellFormed e ∧ eventDevice e = d
  counted : s.deviceCount = s.printed.dedup.length
  inside : ∀ i, i ∈ s.lookups ∨ i ∈ s.devices.written → i < MAX_DEVICES

section

variable {s : Scan} {events : List Event}

/-- The devices offered are those of the well-formed events. -/
private theorem mem_offered {d : SeenDevice} :
    d ∈ offered events ↔ ∃ e ∈ events, WellFormed e ∧ eventDevice e = d := by
  simp only [offered, List.mem_map, List.mem_filter, decide_eq_true_eq, and_assoc]

/-- What is printed and what is offered are the same devices. -/
theorem Tabled.dedup_length (h : Tabled events s) :
    s.printed.dedup.length = (offered events).dedup.length := by
  apply List.Perm.length_eq
  rw [List.perm_ext_iff_of_nodup (List.nodup_dedup _) (List.nodup_dedup _)]
  intro d
  rw [List.mem_dedup, List.mem_dedup, h.printed]

/-- The count is that of the table. -/
theorem Tabled.few (h : Tabled events s) (hcounted : s.deviceCount = s.printed.dedup.length) :
    (offered events).dedup.length ≤ MAX_DEVICES := by
  have hcount := h.count
  rw [← h.dedup_length]
  omega

/-- With few devices all that is printed is in the table. -/
theorem Tabled.length_le (h : Tabled events s)
    (hfew : (offered events).dedup.length ≤ MAX_DEVICES) : s.printed.length ≤ MAX_DEVICES := by
  by_contra hlong
  -- the device that is printed first without an entry is one too many
  obtain ⟨d, rest, hdrop⟩ : ∃ d rest, s.printed.drop MAX_DEVICES = d :: rest := by
    apply List.exists_cons_of_ne_nil
    rw [← List.length_pos_iff, List.length_drop]
    omega
  have hnew : d ∉ s.printed.take MAX_DEVICES :=
    h.later d (by rw [hdrop]; exact List.mem_cons_self ..)
  have hnodup : (d :: s.printed.take MAX_DEVICES).Nodup := List.nodup_cons.mpr ⟨hnew, h.distinct⟩
  have hsub : d :: s.printed.take MAX_DEVICES ⊆ s.printed.dedup := by
    intro x hx
    rw [List.mem_dedup]
    obtain rfl | hx := List.mem_cons.mp hx
    · exact List.mem_of_mem_drop (by rw [hdrop]; exact List.mem_cons_self ..)
    · exact List.mem_of_mem_take hx
  have hle := (List.subperm_of_subset hnodup hsub).length_le
  rw [List.length_cons, List.length_take, h.dedup_length] at hle
  omega

/-- Each device is reported once, and counted, exactly when the well-formed events are
    of at most 128 devices. -/
theorem reportedOnce_iff (table : Nat → SeenDevice) (events : List Event) :
    ReportedOnce events (scan table events) ↔
      (offered events).dedup.length ≤ MAX_DEVICES := by
  have h := scan_tabled table events
  constructor
  · intro honce
    exact h.few honce.counted
  · intro hfew
    have hle := h.length_le hfew
    have hnodup : (scan table events).printed.Nodup := by
      have htake := h.distinct
      rwa [List.take_of_length_le hle] at htake
    refine ⟨hnodup, fun d => (h.printed d).trans mem_offered, ?_, h.inside⟩
    rw [hnodup.dedup, h.count]
    omega

end

/-- A well-formed event of the device with `i` in its address. -/
def deviceFound (i : Nat) : Event where
  bytes j := if j = 0 then 0x12 else if j = 4 then 14 else if j = 6 then UInt8.ofNat i
    else if j = 12 then 1 else 0
  length := 20
  stack _ := 0

/-- With 129 devices the count is one short. -/
theorem reportedOnce_full :
    ¬ ReportedOnce ((List.range 129).map deviceFound)
      (scan (fun _ => ⟨[], 0⟩) ((List.range 129).map deviceFound)) := by
  intro honce
  have hfew := (scan_tabled _ _).few honce.counted
  have hwell : ∀ e ∈ (List.range 129).map deviceFound, decide (WellFormed e) = true := by
    intro e he
    obtain ⟨i, -, rfl⟩ := List.mem_map.mp he
    exact decide_eq_true ⟨Nat.le_refl 20, Nat.le_refl 20, Nat.le_refl 14, Nat.le_refl 14⟩
  -- the devices differ in the first byte of their addresses
  have hnodup : (offered ((List.range 129).map deviceFound)).Nodup := by
    rw [offered, List.filter_eq_self.mpr hwell, List.map_map]
    refine List.Nodup.map_on ?_ List.nodup_range
    intro i hi j hj heq
    have hi := List.mem_range.mp hi
    have hj := List.mem_range.mp hj
    have hbyte : UInt8.ofNat i = UInt8.ofNat j :=
      (List.cons.inj (congrArg SeenDevice.address heq)).1
    have hnat := congrArg UInt8.toNat hbyte
    rw [UInt8.toNat_ofNat', UInt8.toNat_ofNat'] at hnat
    omega
  rw [hnodup.dedup, offered, List.filter_eq_self.mpr hwell, List.length_map, List.length_map,
    List.length_range] at hfew
  exact absurd hfew (by decide)

end EspS31.BleScan
