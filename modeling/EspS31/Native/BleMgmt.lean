import EspS31.Native.BleScan

/-!
# Bluetooth management commands

`remaining_ms`, `mgmt_command` and `main` of `ble_scan.c` and `set_powered` of
`ble_power.c`.  The clock, `poll` and `read` answer in rounds, one for each turn of a
waiting loop; `poll` and `read` are repeated while they are interrupted, and a round
has what they answer at last.  A loop whose rounds come to an end is still waiting.
-/

namespace EspS31.BleMgmt

open BleScan (Event Report Scan SeenDevice getLe16 handleDevice)

/-- Powers the controller. -/
def MGMT_OP_SET_POWERED : UInt16 := 0x0005
/-- Starts the discovery. -/
def MGMT_OP_START_DISCOVERY : UInt16 := 0x0023
/-- Stops the discovery. -/
def MGMT_OP_STOP_DISCOVERY : UInt16 := 0x0024
/-- A command is complete. -/
def MGMT_EV_CMD_COMPLETE : Nat := 0x0001
/-- A command has a status. -/
def MGMT_EV_CMD_STATUS : Nat := 0x0002
/-- A device was found. -/
def MGMT_EV_DEVICE_FOUND : Nat := 0x0012
/-- The two kinds of low energy addresses. -/
def MGMT_DISCOVERY_LE : UInt8 := 0x06

/-! ## Time -/

/-- A time of the monotonic clock. -/
structure Timespec where
  sec : Int
  nsec : Int
deriving DecidableEq, Repr

/-- `remaining_ms` when the clock is at `now` -/
def remainingMs (deadline now : Timespec) : Int :=
  let value := (deadline.sec - now.sec) * 1000 + (deadline.nsec - now.nsec).tdiv 1000000
  if value ≤ 0 then 0 else if value > 0x7fffffff then 0x7fffffff else value

/-- `deadline_after` when the clock is at `now` -/
def deadlineAfter (now : Timespec) (seconds : Int) : Timespec :=
  { now with sec := now.sec + seconds }

/-! ## The socket -/

/-- What `poll` returns. -/
inductive Poll where
  | ready | timeout | failed
deriving DecidableEq, Repr

/-- One turn of a waiting loop; `message` is none when `read` fails. -/
structure Round where
  now : Timespec
  poll : Poll
  message : Option Event

/-- `put_le16` -/
def putLe16 (value : UInt16) : List UInt8 := [(value &&& 0xff).toUInt8, (value >>> 8).toUInt8]

/-- What is written for a command. -/
def command (opcode index : UInt16) (parameters : List UInt8) : List UInt8 :=
  putLe16 opcode ++ putLe16 index ++ putLe16 (UInt16.ofNat parameters.length) ++ parameters

/-- How a command ends: with success, with a status of the kernel, or with `errno` of
    the system. -/
inductive Result where
  | done
  | status (value : UInt8)
  | timedOut
  | pollFailed
  | notWritten
deriving DecidableEq, Repr

/-- What is returned. -/
def Result.rc (r : Result) : Int := if r = .done then 0 else -1

/-- `if (event[8]) ... return -1; return 0` -/
def statusResult (value : UInt8) : Result := if value ≠ 0 then .status value else .done

/-! ## `mgmt_command` -/

/-- What the system answers to a command. -/
structure CommandAnswers where
  start : Timespec
  written : Bool
  rounds : List Round

/-- The loop of `mgmt_command`. -/
def mgmtLoop (deadline : Timespec) (opcode index : UInt16) : List Round → Option Result
  | [] => none
  | r :: rounds =>
    -- `while (remaining_ms(&deadline))` has come to an end
    if remainingMs deadline r.now = 0 then some .timedOut
    else
      match r.poll with
      | .failed => some .pollFailed
      | .timeout => some .timedOut
      | .ready =>
        match r.message with
        -- a failed `read` is not an error: the loop waits again
        | none => mgmtLoop deadline opcode index rounds
        | some event =>
          -- too short for a status, or about another controller
          if event.length < 9 ∨ getLe16 event.bytes 2 ≠ index.toNat then
            mgmtLoop deadline opcode index rounds
          else if getLe16 event.bytes 0 = MGMT_EV_CMD_COMPLETE ∧
              getLe16 event.bytes 6 = opcode.toNat then
            some (statusResult (event.bytes 8))
          else if getLe16 event.bytes 0 = MGMT_EV_CMD_STATUS ∧
              getLe16 event.bytes 6 = opcode.toNat then
            some (statusResult (event.bytes 8))
          -- an event that has nothing to do with the command
          else mgmtLoop deadline opcode index rounds

/-- Writes a command and waits for its end; `none` while it is waiting. -/
def mgmtCommand (opcode index : UInt16) (a : CommandAnswers) : Option Result :=
  if ¬ a.written then some .notWritten
  else mgmtLoop (deadlineAfter a.start 10) opcode index a.rounds

/-! ## `set_powered` of `ble_power.c` -/

/-- Its loop with `tries` turns to go. -/
def powerLoop : Nat → List Round → Option Result
  | 0, _ => some .timedOut
  | _ + 1, [] => none
  | tries + 1, r :: rounds =>
    match r.poll with
    | .ready =>
      match r.message with
      | none => powerLoop tries rounds
      | some event =>
        if event.length < 9 ∨ getLe16 event.bytes 2 ≠ 0 ∨
            (getLe16 event.bytes 0 ≠ MGMT_EV_CMD_COMPLETE ∧
              getLe16 event.bytes 0 ≠ MGMT_EV_CMD_STATUS) ∨
            getLe16 event.bytes 6 ≠ MGMT_OP_SET_POWERED.toNat then
          powerLoop tries rounds
        else some (statusResult (event.bytes 8))
    -- here a failed `poll` and a timeout only use up a try
    | _ => powerLoop tries rounds

/-- Writes the command once and asks for the status in up to ten rounds. -/
def setPowered (written : Bool) (rounds : List Round) : Option Result :=
  if ¬ written then some .notWritten else powerLoop 10 rounds

/-! ## `main` of `ble_scan.c` -/

/-- The loop of `main`. -/
def discoverLoop (deadline : Timespec) : Scan → List Round → Option Scan
  | _, [] => none
  | s, r :: rounds =>
    if remainingMs deadline r.now = 0 then some s
    else
      match r.poll with
      | .ready =>
        match r.message with
        | none => discoverLoop deadline s rounds
        | some event =>
          if event.length ≥ 6 ∧ getLe16 event.bytes 0 = MGMT_EV_DEVICE_FOUND ∧
              getLe16 event.bytes 2 = 0 then
            discoverLoop deadline (handleDevice s event) rounds
          -- other events, and those of other controllers, are passed over
          else discoverLoop deadline s rounds
      -- `if (ret <= 0) break`: what was found so far still counts
      | _ => some s

/-- What the system answers to a run of `main`; `clock` is the time at
    `deadline_after(duration)`. -/
structure Answers where
  opened : Bool
  power : CommandAnswers
  start : CommandAnswers
  clock : Timespec
  rounds : List Round
  stop : CommandAnswers

/-- What a run of `main` does: the messages it writes, the devices it prints, the count
    it prints and its result. -/
structure Session where
  sent : List (List UInt8)
  reports : List Report
  count : Option Nat
  exitCode : Nat
deriving DecidableEq, Repr

/-- The bytes that power the controller. -/
def powerCommand : List UInt8 := command MGMT_OP_SET_POWERED 0 [1]
/-- The bytes that start the discovery. -/
def startCommand : List UInt8 := command MGMT_OP_START_DISCOVERY 0 [MGMT_DISCOVERY_LE]
/-- The bytes that stop the discovery. -/
def stopCommand : List UInt8 := command MGMT_OP_STOP_DISCOVERY 0 [MGMT_DISCOVERY_LE]

/-- `main` with a duration that it has accepted; `devices` is what the table on the
    stack holds. -/
def main (devices : Nat → SeenDevice) (duration : Int) (a : Answers) : Option Session :=
  if ¬ a.opened then some ⟨[], [], none, 1⟩
  else
    (mgmtCommand MGMT_OP_SET_POWERED 0 a.power).bind fun powered =>
      if powered.rc ≠ 0 then some ⟨[powerCommand], [], none, 1⟩
      else
        (mgmtCommand MGMT_OP_START_DISCOVERY 0 a.start).bind fun started =>
          if started.rc ≠ 0 then some ⟨[powerCommand, startCommand], [], none, 1⟩
          else
            (discoverLoop (deadlineAfter a.clock duration) ⟨⟨devices, []⟩, 0, [], []⟩
              a.rounds).bind fun scan =>
                -- a failure of the last command is reported and changes nothing
                (mgmtCommand MGMT_OP_STOP_DISCOVERY 0 a.stop).map fun _ =>
                  ⟨[powerCommand, startCommand, stopCommand], scan.output, some scan.deviceCount, 0⟩

end EspS31.BleMgmt
