import EspS31.ForStd.CText
import EspS31.ForStd.TracedBuffer

/-!
# BLE discovery

`advertisement_name`, `already_seen` and `handle_device` of `ble_scan.c`.  An event is
the buffer it was read into and its length; the bytes behind the length are whatever
the buffer held before.  Lengths are those of objects in memory, so an offset plus the
length of a field does not wrap.
-/

namespace EspS31.BleScan

open CText

/-- `get_le16` -/
def getLe16 (data : Nat → UInt8) (o : Nat) : Nat := (data o).toNat + 2 ^ 8 * (data (o + 1)).toNat

/-! ## `advertisement_name` -/

/-- The name buffer, and the offsets of the data that were read. -/
structure NameWalk where
  name : TracedBuffer UInt8
  reads : List Nat

/-- What is written for a byte of a name. -/
def nameChar (value : UInt8) : UInt8 := if 0x20 ≤ value ∧ value < 0x7f then value else 0x2e

/-- `copy_len` for a field at `offset` -/
def copyLen (data : Nat → UInt8) (nameSize offset : Nat) : Nat :=
  if (data offset).toNat - 1 ≥ nameSize then nameSize - 1 else (data offset).toNat - 1

/-- The loop over `i` with the terminator behind it. -/
def copyName (data : Nat → UInt8) (nameSize offset : Nat) (w : NameWalk) : NameWalk where
  name :=
    ((List.range (copyLen data nameSize offset)).foldl
      (fun b i => b.put i (nameChar (data (offset + 2 + i)))) w.name).put
      (copyLen data nameSize offset) 0
  reads := w.reads ++ (List.range (copyLen data nameSize offset)).map fun i => offset + 2 + i

/-- The loop of `advertisement_name` at `offset`. -/
def nameLoop (data : Nat → UInt8) (length nameSize offset : Nat) (w : NameWalk) : NameWalk :=
  if _h : offset < length then
    if (data offset).toNat = 0 ∨ offset + (data offset).toNat ≥ length then
      -- a field of length 0, or one that ends behind the data
      { w with reads := w.reads ++ [offset] }
    else
      if (data (offset + 1) = 0x08 ∨ data (offset + 1) = 0x09) ∧ (data offset).toNat > 1 then
        if data (offset + 1) = 0x09 then
          -- the complete name ends the search; a shortened one may still be replaced
          copyName data nameSize offset { w with reads := w.reads ++ [offset, offset + 1] }
        else
          nameLoop data length nameSize (offset + ((data offset).toNat + 1))
            (copyName data nameSize offset { w with reads := w.reads ++ [offset, offset + 1] })
      else
        nameLoop data length nameSize (offset + ((data offset).toNat + 1))
          { w with reads := w.reads ++ [offset, offset + 1] }
  else w
termination_by length - offset
decreasing_by all_goals omega

/-- The name in an advertisement; the empty string without one. -/
def advertisementName (data : Nat → UInt8) (length : Nat) (name : TracedBuffer UInt8)
    (nameSize : Nat) : NameWalk :=
  nameLoop data length nameSize 0 ⟨name.put 0 0, []⟩

/-! ## `already_seen` and `handle_device` -/

/-- The devices that the table can hold. -/
def MAX_DEVICES : Nat := 128

/-- A device of the table. -/
structure SeenDevice where
  address : List UInt8
  type : UInt8
deriving DecidableEq, Repr

/-- The loop of `already_seen` at entry `i` with `n` entries to go: the result and the
    entries that were read. -/
def alreadySeenFrom (devices : Nat → SeenDevice) (device : SeenDevice) :
    Nat → Nat → Bool × List Nat
  | _, 0 => (false, [])
  | i, n + 1 =>
    if (devices i).type = device.type ∧ (devices i).address = device.address then (true, [i])
    else
      let r := alreadySeenFrom devices device (i + 1) n
      (r.1, i :: r.2)

/-- Whether the device is in the table, with the entries that were read. -/
def alreadySeen (devices : Nat → SeenDevice) (count : Nat) (device : SeenDevice) :
    Bool × List Nat :=
  alreadySeenFrom devices device 0 count

/-- A device-found event. -/
structure Event where
  bytes : Nat → UInt8
  length : Nat
  /-- What is on the stack in the place of `name`. -/
  stack : Nat → UInt8

/-- What the `printf` calls of `handle_device` are given. -/
structure Report where
  device : SeenDevice
  rssi : Int
  name : List UInt8
deriving DecidableEq, Repr

/-- The table of `main`, the entries that `already_seen` read, and the output. -/
structure Scan where
  devices : TracedBuffer SeenDevice
  deviceCount : Nat
  lookups : List Nat
  output : List Report

/-- `get_le16(event + 4)` -/
def payloadLen (event : Event) : Nat := getLe16 event.bytes 4

/-- `get_le16(payload + 12)` -/
def eirLen (event : Event) : Nat := getLe16 event.bytes (6 + 12)

/-- The address and the type in an event. -/
def eventDevice (event : Event) : SeenDevice where
  address := (List.range 6).map fun i => event.bytes (6 + i)
  type := event.bytes (6 + 6)

/-- What `%s` prints of the name buffer. -/
def eventName (event : Event) : List UInt8 :=
  ((advertisementName (fun i => event.bytes (6 + 14 + i)) (eirLen event) ⟨event.stack, []⟩
    64).name.read 64).takeWhile (· ≠ 0)

/-- What is done with an event: its lengths are checked, then it is reported once. -/
def handleDevice (s : Scan) (event : Event) : Scan :=
  if event.length < 20 then s
  else if payloadLen event + 6 > event.length ∨ payloadLen event < 14 then s
  else if eirLen event + 14 > payloadLen event then s
  else
    let seen := alreadySeen s.devices.get s.deviceCount (eventDevice event)
    let s := { s with lookups := s.lookups ++ seen.2 }
    if seen.1 then s
    else
      let s :=
        -- a device that the table has no room for is reported all the same
        if s.deviceCount < MAX_DEVICES then
          { s with
            devices := s.devices.put s.deviceCount (eventDevice event)
            deviceCount := s.deviceCount + 1 }
        else s
      { s with
        output := s.output ++
          [⟨eventDevice event, (event.bytes (6 + 7)).toInt8.toInt, eventName event⟩] }

/-! ## The output -/

/-- A digit of `%x` -/
def hexDigit (n : Nat) : Char := "0123456789abcdef".toList.getD n '0'

/-- `%02x` -/
def hexByte (b : UInt8) : Text := [hexDigit (b.toNat / 16), hexDigit (b.toNat % 16)]

/-- A string in a field of `width` characters, on the left. -/
def padRight (width : Nat) (s : Text) : Text := s ++ List.replicate (width - s.length) ' '

/-- The same on the right. -/
def padLeft (width : Nat) (s : Text) : Text := List.replicate (width - s.length) ' ' ++ s

/-- `%d` -/
def decimal (n : Int) : Text := (if n < 0 then ['-'] else []) ++ Nat.toDigits 10 n.natAbs

/-- The word printed for a type of address. -/
def typeName (type : UInt8) : Text :=
  if type = 1 then "public".toList else if type = 2 then "random".toList else "bredr".toList

/-- The line of a report. -/
def reportLine (r : Report) : Text :=
  [':'].intercalate (r.device.address.reverse.map hexByte) ++ "  ".toList ++
    padRight 6 (typeName r.device.type) ++ " RSSI ".toList ++ padLeft 4 (decimal r.rssi) ++
    " dBm".toList ++
    (if r.name = [] then [] else "  ".toList ++ r.name.map fun b => Char.ofNat b.toNat) ++ ['\n']

end EspS31.BleScan
