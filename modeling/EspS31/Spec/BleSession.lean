import EspS31.Native.BleMgmt
import EspS31.Spec.BleOutput

/-!
# A session of BLE discovery

`heard` is what a waiting loop reads until the clock or `poll` ends it.  A command
succeeds when the first reply to it that is heard has the status zero, whatever other
messages come before; a run of `ble_scan` sends each command once and only after the
one before it has succeeded, stops what it has started, and reports the devices of the
messages heard in between.

## Key results

- `remainingMs_eq_zero`, `remainingMs_ne_zero`: what the clock says at the end of a loop
- `mgmtLoop_eq`, `powerLoop_eq`, `discoverLoop_eq`: the loops on what is heard
- `command_outcome`, `main_session`: the outcome of a command and of a run
- `main_own_bytes`: what a run depends on
-/

namespace EspS31.BleMgmt

open BleScan

/-! ## Time -/

/-- The time in nanoseconds. -/
def Timespec.ns (t : Timespec) : Int := t.sec * 1000000000 + t.nsec

/-- Why a loop ends without the reply. -/
inductive Ending where
  | expired | timeout | failed
deriving DecidableEq, Repr

/-- The messages that a loop reads until the clock or `poll` ends it, and the end if
    there is one. -/
def heard (deadline : Timespec) : List Round → List Event × Option Ending
  | [] => ([], none)
  | r :: rounds =>
    if remainingMs deadline r.now = 0 then ([], some .expired)
    else
      match r.poll with
      | .failed => ([], some .failed)
      | .timeout => ([], some .timeout)
      | .ready => (r.message.toList ++ (heard deadline rounds).1, (heard deadline rounds).2)

/-- What a command returns that hears no reply. -/
def Ending.result : Ending → Result
  | .expired => .timedOut
  | .timeout => .timedOut
  | .failed => .pollFailed

/-- The status in a reply to a command. -/
def replyStatus (opcode index : UInt16) (event : Event) : Option UInt8 :=
  if 9 ≤ event.length ∧ getLe16 event.bytes 2 = index.toNat ∧
      (getLe16 event.bytes 0 = MGMT_EV_CMD_COMPLETE ∨ getLe16 event.bytes 0 = MGMT_EV_CMD_STATUS) ∧
      getLe16 event.bytes 6 = opcode.toNat then
    some (event.bytes 8)
  else none

/-- A message about a device that was found. -/
def DeviceFound (event : Event) : Prop :=
  6 ≤ event.length ∧ getLe16 event.bytes 0 = MGMT_EV_DEVICE_FOUND ∧ getLe16 event.bytes 2 = 0

instance : DecidablePred DeviceFound := fun _ => inferInstanceAs (Decidable (_ ∧ _))

section

variable {deadline : Timespec} {opcode index : UInt16} {event : Event}

/-- The tests of `mgmt_command` on one message, whatever the loop goes on with. -/
private theorem reply_tests (event : Event) (next : Option Result) :
    (if event.length < 9 ∨ getLe16 event.bytes 2 ≠ index.toNat then next
      else if getLe16 event.bytes 0 = MGMT_EV_CMD_COMPLETE ∧
          getLe16 event.bytes 6 = opcode.toNat then
        some (statusResult (event.bytes 8))
      else if getLe16 event.bytes 0 = MGMT_EV_CMD_STATUS ∧
          getLe16 event.bytes 6 = opcode.toNat then
        some (statusResult (event.bytes 8))
      else next) =
      match replyStatus opcode index event with
      | some value => some (statusResult value)
      | none => next := by
  -- the three tests one after the other, each against the status it leads to
  by_cases hshort : event.length < 9 ∨ getLe16 event.bytes 2 ≠ index.toNat
  · have hnone : replyStatus opcode index event = none := by
      rw [replyStatus, if_neg]
      rintro ⟨hlong, hindex, -⟩
      omega
    rw [if_pos hshort, hnone]
  · have hlong : 9 ≤ event.length ∧ getLe16 event.bytes 2 = index.toNat := by omega
    rw [if_neg hshort]
    by_cases hcomplete : getLe16 event.bytes 0 = MGMT_EV_CMD_COMPLETE ∧
        getLe16 event.bytes 6 = opcode.toNat
    · rw [if_pos hcomplete, replyStatus, if_pos ⟨hlong.1, hlong.2, .inl hcomplete.1, hcomplete.2⟩]
    · rw [if_neg hcomplete]
      by_cases hstatus : getLe16 event.bytes 0 = MGMT_EV_CMD_STATUS ∧
          getLe16 event.bytes 6 = opcode.toNat
      · rw [if_pos hstatus, replyStatus, if_pos ⟨hlong.1, hlong.2, .inr hstatus.1, hstatus.2⟩]
      · have hnone : replyStatus opcode index event = none := by
          rw [replyStatus, if_neg]
          rintro ⟨-, -, hcode | hcode, hopcode⟩
          · exact hcomplete ⟨hcode, hopcode⟩
          · exact hstatus ⟨hcode, hopcode⟩
        rw [if_neg hstatus, hnone]

/-- The first reply decides, and the end of the waiting when there is none. -/
theorem mgmtLoop_eq (deadline : Timespec) (opcode index : UInt16) (rounds : List Round) :
    mgmtLoop deadline opcode index rounds =
      match (heard deadline rounds).1.findSome? (replyStatus opcode index) with
      | some value => some (statusResult value)
      | none => (heard deadline rounds).2.map Ending.result := by
  induction rounds with
  | nil => rfl
  | cons r rounds ih =>
    rw [mgmtLoop, heard]
    by_cases hzero : remainingMs deadline r.now = 0
    · rw [if_pos hzero, if_pos hzero]
      rfl
    · rw [if_neg hzero, if_neg hzero]
      cases r.poll with
      | failed => rfl
      | timeout => rfl
      | ready =>
        cases r.message with
        | none => exact ih
        | some event =>
          -- the loop goes on exactly when the message is no reply
          simp only [reply_tests, Option.toList_some, List.singleton_append,
            List.findSome?_cons]
          cases replyStatus opcode index event with
          | some value => rfl
          | none => exact ih

/-- The loop of `main` handles the messages about devices that are heard. -/
theorem discoverLoop_eq (deadline : Timespec) (s : Scan) (rounds : List Round) :
    discoverLoop deadline s rounds =
      (heard deadline rounds).2.map fun _ =>
        ((heard deadline rounds).1.filter fun e => DeviceFound e).foldl handleDevice s := by
  induction rounds generalizing s with
  | nil => rfl
  | cons r rounds ih =>
    rw [discoverLoop, heard]
    by_cases hzero : remainingMs deadline r.now = 0
    · rw [if_pos hzero, if_pos hzero]
      rfl
    · rw [if_neg hzero, if_neg hzero]
      cases r.poll with
      | failed => rfl
      | timeout => rfl
      | ready =>
        cases r.message with
        | none => exact ih s
        | some event =>
          -- an event of another kind is read and passed over
          by_cases hfound : DeviceFound event
          · have htest : event.length ≥ 6 ∧ getLe16 event.bytes 0 = MGMT_EV_DEVICE_FOUND ∧
                getLe16 event.bytes 2 = 0 := hfound
            simp only [htest, and_self, if_true, ih, Option.toList_some, List.singleton_append,
              hfound, decide_true, List.filter_cons_of_pos, List.foldl_cons]
          · have htest : ¬ (event.length ≥ 6 ∧ getLe16 event.bytes 0 = MGMT_EV_DEVICE_FOUND ∧
                getLe16 event.bytes 2 = 0) := hfound
            simp only [htest, if_false, ih, Option.toList_some, List.singleton_append, hfound,
              decide_false, Bool.false_eq_true, not_false_eq_true, List.filter_cons_of_neg]

/-- The messages that `set_powered` reads in its first `tries` turns. -/
def asked (tries : Nat) (rounds : List Round) : List Event :=
  ((rounds.take tries).filter fun r => r.poll = .ready).filterMap Round.message

/-- The tests of `set_powered` on an event, as the one that the commands share. -/
private theorem power_tests (event : Event) (next : Option Result) :
    (if event.length < 9 ∨ getLe16 event.bytes 2 ≠ 0 ∨
        (getLe16 event.bytes 0 ≠ MGMT_EV_CMD_COMPLETE ∧
          getLe16 event.bytes 0 ≠ MGMT_EV_CMD_STATUS) ∨
        getLe16 event.bytes 6 ≠ MGMT_OP_SET_POWERED.toNat then next
      else some (statusResult (event.bytes 8))) =
      match replyStatus MGMT_OP_SET_POWERED 0 event with
      | some value => some (statusResult value)
      | none => next := by
  have hindex : (0 : UInt16).toNat = 0 := rfl
  by_cases hreply : 9 ≤ event.length ∧ getLe16 event.bytes 2 = (0 : UInt16).toNat ∧
      (getLe16 event.bytes 0 = MGMT_EV_CMD_COMPLETE ∨
        getLe16 event.bytes 0 = MGMT_EV_CMD_STATUS) ∧
      getLe16 event.bytes 6 = MGMT_OP_SET_POWERED.toNat
  · rw [replyStatus, if_pos hreply, if_neg]
    rintro (hshort | hother | ⟨hcomplete, hstatus⟩ | hopcode)
    · omega
    · exact hother hreply.2.1
    · exact hreply.2.2.1.elim hcomplete hstatus
    · exact hopcode hreply.2.2.2
  · rw [replyStatus, if_neg hreply, if_pos]
    -- the negated test of the source is the negation of a reply
    by_contra hall
    simp only [not_or, not_and_or, not_lt, ne_eq, not_not] at hall
    exact hreply ⟨hall.1, hall.2.1, hall.2.2.1, hall.2.2.2⟩

/-- The first reply in so many turns decides. -/
theorem powerLoop_eq (tries : Nat) (rounds : List Round) :
    powerLoop tries rounds =
      match (asked tries rounds).findSome? (replyStatus MGMT_OP_SET_POWERED 0) with
      | some value => some (statusResult value)
      | none => if tries ≤ rounds.length then some .timedOut else none := by
  induction tries generalizing rounds with
  | zero => simp [powerLoop, asked]
  | succ tries ih =>
    cases rounds with
    | nil => simp [powerLoop, asked]
    | cons r rounds =>
      -- a turn without a message uses up a try and adds nothing to what was asked
      have hskip : (r.poll = .ready → r.message = none) →
          asked (tries + 1) (r :: rounds) = asked tries rounds := by
        intro hnone
        rw [asked, List.take_succ_cons, List.filter_cons]
        split
        · next hready =>
          rw [List.filterMap_cons, hnone (of_decide_eq_true hready)]
          rfl
        · rfl
      have hlength : tries + 1 ≤ (r :: rounds).length ↔ tries ≤ rounds.length := by simp
      simp only [hlength]
      rw [powerLoop]
      cases hpoll : r.poll with
      | failed => rw [ih, hskip (by simp [hpoll])]
      | timeout => rw [ih, hskip (by simp [hpoll])]
      | ready =>
        cases hmessage : r.message with
        | none => rw [ih, hskip fun _ => hmessage]
        | some event =>
          have hasked : asked (tries + 1) (r :: rounds) = event :: asked tries rounds := by
            simp [asked, hpoll, hmessage]
          rw [hasked, List.findSome?_cons]
          simp only [power_tests]
          cases replyStatus MGMT_OP_SET_POWERED 0 event with
          | some value => rfl
          | none => exact ih rounds

end

/-! ## Commands -/

/-- The status 0 is success. -/
private theorem statusResult_eq_done {value : UInt8} : statusResult value = .done ↔ value = 0 := by
  rw [statusResult]
  split <;> simp_all

/-- Every other status is reported. -/
private theorem statusResult_eq_status {value v : UInt8} :
    statusResult value = .status v ↔ value = v ∧ v ≠ 0 := by
  rw [statusResult]
  split
  · next hne =>
    constructor
    · intro heq
      obtain rfl := Result.status.inj heq
      exact ⟨rfl, hne⟩
    · rintro ⟨rfl, -⟩
      rfl
  · next hzero =>
    constructor
    · intro heq
      cases heq
    · rintro ⟨rfl, hne⟩
      exact absurd hne hzero

/-- An ending without a reply is no success and no status. -/
theorem Ending.result_ne (e : Ending) : e.result ≠ .done ∧ ∀ v, e.result ≠ .status v := by
  cases e <;> simp [Ending.result]

/-- The status in the first reply that a command hears. -/
def firstReply (opcode index : UInt16) (a : CommandAnswers) : Option UInt8 :=
  (heard (deadlineAfter a.start 10) a.rounds).1.findSome? (replyStatus opcode index)

section

variable {opcode index : UInt16} {a : CommandAnswers}

/-- A command ends with the first reply to it, or else as the loop does. -/
private theorem mgmtCommand_eq (opcode index : UInt16) (a : CommandAnswers) :
    mgmtCommand opcode index a =
      if a.written then
        match firstReply opcode index a with
        | some value => some (statusResult value)
        | none => (heard (deadlineAfter a.start 10) a.rounds).2.map Ending.result
      else some .notWritten := by
  rw [mgmtCommand, mgmtLoop_eq]
  cases a.written with
  | true => rfl
  | false => rfl

/-- A command succeeds exactly when the first reply has the status zero. -/
private theorem mgmtCommand_done : mgmtCommand opcode index a = some .done ↔
    a.written = true ∧ firstReply opcode index a = some 0 := by
  rw [mgmtCommand_eq]
  by_cases hwritten : a.written = true
  · rw [if_pos hwritten]
    cases firstReply opcode index a with
    | some value => simp [statusResult_eq_done, hwritten]
    | none =>
      -- without a reply the end of the waiting is no success
      have hne : ∀ e : Ending, e.result ≠ .done := fun e => e.result_ne.1
      simp [hne]
  · rw [if_neg hwritten]
    simp [hwritten]

end

/-- A reply with the status zero; `behind` is what the buffer holds behind it. -/
def accepting (opcode behind : UInt8) : Event where
  bytes i := ([1, 0, 0, 0, 4, 0, opcode, 0, 0] : List UInt8).getD i behind
  length := 9
  stack _ := behind

/-- Answers with one reply that accepts. -/
def accepted (opcode behind : UInt8) : CommandAnswers :=
  ⟨⟨0, 0⟩, true, [⟨⟨0, 0⟩, .ready, some (accepting opcode behind)⟩]⟩

/-- `set_powered` ends after ten turns at most, and the first reply to it in them
    decides in the same way. -/
theorem setPowered_outcome (written : Bool) (rounds : List Round) :
    (10 ≤ rounds.length → (setPowered written rounds).isSome) ∧
      (setPowered written rounds = some .done ↔ written = true ∧
        (asked 10 rounds).findSome? (replyStatus MGMT_OP_SET_POWERED 0) = some 0) ∧
      ∀ v, setPowered written rounds = some (.status v) ↔ written = true ∧ v ≠ 0 ∧
        (asked 10 rounds).findSome? (replyStatus MGMT_OP_SET_POWERED 0) = some v := by
  rw [setPowered, powerLoop_eq]
  cases written with
  | false => simp
  | true =>
    rw [if_neg (by simp)]
    cases (asked 10 rounds).findSome? (replyStatus MGMT_OP_SET_POWERED 0) with
    | some value => simp [statusResult_eq_done, statusResult_eq_status, and_comm]
    | none =>
      -- without a reply the ten rounds are used up, or more are to come
      by_cases hlength : 10 ≤ rounds.length
      · simp [hlength]
      · simp [hlength]

/-! ## A run of `main` -/

/-- The messages about devices that are heard between the second command and the
    third. -/
def found (duration : Int) (a : Answers) : List Event :=
  (heard (deadlineAfter a.clock duration) a.rounds).1.filter fun e => DeviceFound e

/-- The kernel has accepted a command. -/
def Accepted (opcode : UInt16) (a : CommandAnswers) : Prop :=
  a.written = true ∧ firstReply opcode 0 a = some 0

instance (opcode : UInt16) : DecidablePred (Accepted opcode) :=
  fun _ => inferInstanceAs (Decidable (_ ∧ _))

/-- The controller is on. -/
def Powered (a : Answers) : Prop := a.opened = true ∧ Accepted MGMT_OP_SET_POWERED a.power

/-- It is scanning. -/
def Started (a : Answers) : Prop := Powered a ∧ Accepted MGMT_OP_START_DISCOVERY a.start

instance : DecidablePred Powered := fun _ => inferInstanceAs (Decidable (_ ∧ _))

instance : DecidablePred Started := fun _ => inferInstanceAs (Decidable (_ ∧ _))

/-- The code 0 is success. -/
theorem Result.rc_eq_zero {r : Result} : r.rc = 0 ↔ r = .done := by
  rw [Result.rc]
  split <;> simp_all

/-- A command that ends succeeds exactly when it is accepted. -/
private theorem mgmtCommand_rc {opcode : UInt16} {a : CommandAnswers} {r : Result}
    (h : mgmtCommand opcode 0 a = some r) : r.rc = 0 ↔ Accepted opcode a := by
  rw [Result.rc_eq_zero, Accepted, ← mgmtCommand_done, h, Option.some.injEq]

section

variable {devices devices' : Nat → SeenDevice} {duration : Int} {a a' : Answers} {o : Session}

/-- The ways in which a run ends. -/
private theorem main_cases (h : main devices duration a = some o) :
    (a.opened = false ∧ o = ⟨[], [], none, 1⟩) ∨
      (a.opened = true ∧ ¬ Powered a ∧ o = ⟨[powerCommand], [], none, 1⟩) ∨
      (Powered a ∧ ¬ Started a ∧ o = ⟨[powerCommand, startCommand], [], none, 1⟩) ∨
      (Started a ∧ o = ⟨[powerCommand, startCommand, stopCommand],
        (scan devices (found duration a)).output,
        some (scan devices (found duration a)).deviceCount, 0⟩) := by
  rw [main] at h
  by_cases hopened : a.opened = true
  -- the first command has to succeed before the second is written
  · simp only [hopened, not_true, if_false] at h
    obtain ⟨powered, hpower, h⟩ := Option.bind_eq_some_iff.mp h
    by_cases hpowered : Powered a
    · have hrc : powered.rc = 0 := (mgmtCommand_rc hpower).mpr hpowered.2
      simp only [hrc, ne_eq, not_true, if_false] at h
      -- the second command has to succeed before the waiting begins
      obtain ⟨started, hstart, h⟩ := Option.bind_eq_some_iff.mp h
      by_cases hstarted : Started a
      · have hrc' : started.rc = 0 := (mgmtCommand_rc hstart).mpr hstarted.2
        simp only [hrc', not_true, if_false] at h
        obtain ⟨s, hscan, h⟩ := Option.bind_eq_some_iff.mp h
        obtain ⟨_, -, rfl⟩ := Option.map_eq_some_iff.mp h
        -- what the loop has handled is what was heard
        rw [discoverLoop_eq] at hscan
        obtain ⟨_, -, rfl⟩ := Option.map_eq_some_iff.mp hscan
        right; right; right
        exact ⟨hstarted, rfl⟩
      · have hrc' : started.rc ≠ 0 := fun hzero =>
          hstarted ⟨hpowered, (mgmtCommand_rc hstart).mp hzero⟩
        rw [if_pos hrc'] at h
        right; right; left
        exact ⟨hpowered, hstarted, (Option.some.inj h).symm⟩
    · have hrc : powered.rc ≠ 0 := fun hzero =>
        hpowered ⟨hopened, (mgmtCommand_rc hpower).mp hzero⟩
      rw [if_pos hrc] at h
      right; left
      exact ⟨hopened, hpowered, (Option.some.inj h).symm⟩
  · rw [if_pos hopened] at h
    left
    exact ⟨Bool.not_eq_true _ ▸ hopened, (Option.some.inj h).symm⟩

end

/-- Whatever the clock, `poll` and the kernel answer, a run that ends has sent the three
    commands in their order, each only after success of the one before and the third
    always after that of the second; it succeeds exactly when scanning was started, and
    then it reports the devices of the messages heard until the deadline and counts the
    different ones up to 128. -/
theorem main_session {devices : Nat → SeenDevice} {duration : Int} {a : Answers} {o : Session}
    (h : main devices duration a = some o) :
    o.sent = (if a.opened then [powerCommand] else []) ++
        (if Powered a then [startCommand] else []) ++ (if Started a then [stopCommand] else []) ∧
      (o.exitCode = 0 ↔ Started a) ∧
      o.reports = (if Started a then (scan devices (found duration a)).output else []) ∧
      o.count = if Started a then
        some (min (offered (found duration a)).eraseDups.length MAX_DEVICES) else none := by
  -- the table holds the first devices offered, without repetition
  have hcount : (scan devices (found duration a)).deviceCount =
      min (offered (found duration a)).eraseDups.length MAX_DEVICES := by
    rw [← Scan.length_known, scan_known, remembered, List.length_take, Nat.min_comm]
  obtain ⟨hclosed, rfl⟩ | ⟨hopened, hoff, rfl⟩ | ⟨hpowered, hidle, rfl⟩ | ⟨hstarted, rfl⟩ :=
    main_cases h
  · have hoff : ¬ Powered a := fun hp => by simp [hp.1] at hclosed
    have hidle : ¬ Started a := fun hs => hoff hs.1
    simp [hclosed, hoff, hidle]
  · have hidle : ¬ Started a := fun hs => hoff hs.1
    simp [hopened, hoff, hidle]
  · simp [hpowered.1, hpowered, hidle]
  · simp [hstarted.1.1, hstarted.1, hstarted, hcount]

/-- A run in which one device is found; `behind` is what the buffers hold behind the
    messages. -/
def hiFound (behind : UInt8) : Answers where
  opened := true
  power := accepted 0x05 behind
  start := accepted 0x23 behind
  clock := ⟨1, 0⟩
  rounds := [⟨⟨2, 0⟩, .ready, some (hiEvent behind)⟩, ⟨⟨3, 0⟩, .ready, none⟩,
    ⟨⟨16, 0⟩, .ready, none⟩]
  stop := accepted 0x24 behind

/-- A whole run that finds one device. -/
theorem main_session_hiFound :
    Started (hiFound 0) ∧ ∃ o, main (fun _ => ⟨[], 0⟩) 15 (hiFound 0) = some o ∧
      o.sent = [powerCommand, startCommand, stopCommand] ∧ o.reports.length = 1 ∧
      o.count = some 1 := by
  have hstarted : Started (hiFound 0) := by decide
  have hends : (main (fun _ => ⟨[], 0⟩) 15 (hiFound 0)).isSome := by decide
  obtain ⟨o, ho⟩ := Option.isSome_iff_exists.mp hends
  obtain ⟨hsent, -, hreports, hcount⟩ := main_session ho
  refine ⟨hstarted, o, ho, hsent.trans (by decide), ?_, hcount.trans (by decide)⟩
  rw [hreports]
  decide

/-! ## What a run depends on -/

/-- The same answers, with the same bytes in the messages up to their lengths. -/
structure SameRound (r r' : Round) : Prop where
  now : r.now = r'.now
  poll : r.poll = r'.poll
  message : (r.message = none ∧ r'.message = none) ∨
    ∃ e e', r.message = some e ∧ r'.message = some e' ∧ SameBytes e e'

/-- The answers to a command with the same bytes within the lengths. -/
structure SameCommand (a a' : CommandAnswers) : Prop where
  start : a.start = a'.start
  written : a.written = a'.written
  rounds : List.Forall₂ SameRound a.rounds a'.rounds

/-- The answers of a run with the same bytes within the lengths. -/
structure SameAnswers (a a' : Answers) : Prop where
  opened : a.opened = a'.opened
  power : SameCommand a.power a'.power
  start : SameCommand a.start a'.start
  clock : a.clock = a'.clock
  rounds : List.Forall₂ SameRound a.rounds a'.rounds
  stop : SameCommand a.stop a'.stop

section

variable {opcode index : UInt16}

/-- The loop hears the same events and ends for the same reason. -/
private theorem heard_same (deadline : Timespec) {rounds rounds' : List Round}
    (h : List.Forall₂ SameRound rounds rounds') :
    List.Forall₂ SameBytes (heard deadline rounds).1 (heard deadline rounds').1 ∧
      (heard deadline rounds).2 = (heard deadline rounds').2 := by
  induction h with
  | nil => exact ⟨.nil, rfl⟩
  | @cons r r' rounds rounds' hr _ ih =>
    -- the clock and `poll` agree, so both loops end in the same round
    rw [heard, heard, ← hr.now, ← hr.poll]
    split
    · exact ⟨.nil, rfl⟩
    · cases r.poll with
      | failed => exact ⟨.nil, rfl⟩
      | timeout => exact ⟨.nil, rfl⟩
      | ready =>
        obtain ⟨hnone, hnone'⟩ | ⟨e, e', hsome, hsome', hbytes⟩ := hr.message
        · simp only [hnone, hnone', Option.toList_none, List.nil_append]
          exact ih
        · simp only [hsome, hsome', Option.toList_some, List.singleton_append]
          exact ⟨.cons hbytes ih.1, ih.2⟩

/-- Whether an event is the reply depends on its bytes only. -/
private theorem replyStatus_same {e e' : Event} (h : SameBytes e e') :
    replyStatus opcode index e = replyStatus opcode index e' := by
  -- a shorter message is rejected before any byte of it is looked at
  by_cases hlong : 9 ≤ e.length
  · rw [replyStatus, replyStatus, h.1, h.getLe16 (o := 0) (by omega),
      h.getLe16 (o := 2) (by omega), h.getLe16 (o := 6) (by omega), h.2 8 (by omega)]
  · rw [replyStatus, replyStatus, if_neg fun hall => hlong hall.1,
      if_neg fun hall => hlong (h.1 ▸ hall.1)]

/-- Whether an event finds a device depends on its bytes only. -/
private theorem deviceFound_same {e e' : Event} (h : SameBytes e e') :
    DeviceFound e ↔ DeviceFound e' := by
  by_cases hlong : 6 ≤ e.length
  · rw [DeviceFound, DeviceFound, h.1, h.getLe16 (o := 0) (by omega),
      h.getLe16 (o := 2) (by omega)]
  · exact iff_of_false (fun hall => hlong hall.1) fun hall => hlong (h.1 ▸ hall.1)

/-- The first reply depends on the bytes only. -/
private theorem findSome_same {events events' : List Event}
    (h : List.Forall₂ SameBytes events events') :
    events.findSome? (replyStatus opcode index) = events'.findSome? (replyStatus opcode index) := by
  induction h with
  | nil => rfl
  | cons hbytes _ ih => rw [List.findSome?_cons, List.findSome?_cons, replyStatus_same hbytes, ih]

/-- The events that find devices depend on the bytes only. -/
private theorem filter_same {events events' : List Event}
    (h : List.Forall₂ SameBytes events events') :
    List.Forall₂ SameBytes (events.filter fun e => DeviceFound e)
      (events'.filter fun e => DeviceFound e) := by
  induction h with
  | nil => exact .nil
  | @cons e e' _ _ hbytes _ ih =>
    by_cases hfound : DeviceFound e
    · rw [List.filter_cons_of_pos (by simpa using hfound),
        List.filter_cons_of_pos (by simpa using (deviceFound_same hbytes).mp hfound)]
      exact .cons hbytes ih
    · rw [List.filter_cons_of_neg (by simpa using hfound),
        List.filter_cons_of_neg (by simpa using fun h => hfound ((deviceFound_same hbytes).mpr h))]
      exact ih

/-- A command ends the same way. -/
private theorem mgmtCommand_same (opcode index : UInt16) {a a' : CommandAnswers}
    (h : SameCommand a a') :
    mgmtCommand opcode index a = mgmtCommand opcode index a' := by
  obtain ⟨hheard, hend⟩ := heard_same (deadlineAfter a.start 10) h.rounds
  rw [mgmtCommand_eq, mgmtCommand_eq, firstReply, firstReply, ← h.start, ← h.written,
    findSome_same hheard, hend]

end

/-- A run depends on the bytes of the messages up to their lengths, on the clock and on
    the answers alone: on nothing behind the messages, in the buffers or in the table. -/
theorem main_own_bytes (devices devices' : Nat → SeenDevice) (duration : Int) {a a' : Answers}
    (h : SameAnswers a a') : main devices duration a = main devices' duration a' := by
  obtain ⟨hheard, hend⟩ := heard_same (deadlineAfter a.clock duration) h.rounds
  have hstart : SameScan (.start devices) (.start devices') := ⟨rfl, rfl⟩
  obtain ⟨hknown, houtput⟩ := hstart.foldl (filter_same hheard)
  have hcount := congrArg List.length hknown
  rw [Scan.length_known, Scan.length_known] at hcount
  -- the loop of `main` hands on no more than its output and its count
  have hdiscover : ∀ f : List Report → Nat → Option Session,
      (discoverLoop (deadlineAfter a.clock duration) ⟨⟨devices, []⟩, 0, [], []⟩ a.rounds).bind
          (fun s => f s.output s.deviceCount) =
        (discoverLoop (deadlineAfter a.clock duration) ⟨⟨devices', []⟩, 0, [], []⟩
          a'.rounds).bind fun s => f s.output s.deviceCount := by
    intro f
    rw [discoverLoop_eq, discoverLoop_eq, ← hend]
    cases (heard (deadlineAfter a.clock duration) a.rounds).2 with
    | none => rfl
    | some _ =>
      rw [Option.map_some, Option.map_some, Option.bind_some, Option.bind_some]
      exact congr (congrArg f houtput) hcount
  have hsession := hdiscover fun output count =>
    (mgmtCommand MGMT_OP_STOP_DISCOVERY 0 a'.stop).map fun _ =>
      ⟨[powerCommand, startCommand, stopCommand], output, some count, 0⟩
  rw [main, main, ← h.opened, mgmtCommand_same _ _ h.power, mgmtCommand_same _ _ h.start,
    mgmtCommand_same _ _ h.stop, ← h.clock]
  simp only [hsession]

/-- A device is found, with other bytes behind the events. -/
theorem main_own_bytes_hiFound :
    main (fun _ => ⟨[], 0⟩) 15 (hiFound 0) = main (fun _ => ⟨[], 1⟩) 15 (hiFound 7) := by
  -- the two runs differ in the bytes behind each message only
  have hcommand : SameCommand (accepted 0x05 0) (accepted 0x05 7) ∧
      SameCommand (accepted 0x23 0) (accepted 0x23 7) ∧
      SameCommand (accepted 0x24 0) (accepted 0x24 7) := by
    refine ⟨⟨rfl, rfl, .cons ⟨rfl, rfl, .inr ⟨_, _, rfl, rfl, rfl, ?_⟩⟩ .nil⟩,
      ⟨rfl, rfl, .cons ⟨rfl, rfl, .inr ⟨_, _, rfl, rfl, rfl, ?_⟩⟩ .nil⟩,
      ⟨rfl, rfl, .cons ⟨rfl, rfl, .inr ⟨_, _, rfl, rfl, rfl, ?_⟩⟩ .nil⟩⟩
    · exact show ∀ i < 9, (accepting 0x05 0).bytes i = (accepting 0x05 7).bytes i by decide
    · exact show ∀ i < 9, (accepting 0x23 0).bytes i = (accepting 0x23 7).bytes i by decide
    · exact show ∀ i < 9, (accepting 0x24 0).bytes i = (accepting 0x24 7).bytes i by decide
  have hevent : SameBytes (hiEvent 0) (hiEvent 7) :=
    ⟨rfl, show ∀ i < 24, (hiEvent 0).bytes i = (hiEvent 7).bytes i by decide⟩
  have hrounds : List.Forall₂ SameRound (hiFound 0).rounds (hiFound 7).rounds :=
    .cons ⟨rfl, rfl, .inr ⟨_, _, rfl, rfl, hevent⟩⟩
      (.cons ⟨rfl, rfl, .inl ⟨rfl, rfl⟩⟩ (.cons ⟨rfl, rfl, .inl ⟨rfl, rfl⟩⟩ .nil))
  exact main_own_bytes _ _ 15 ⟨rfl, hcommand.1, hcommand.2.1, rfl, hrounds, hcommand.2.2⟩

end EspS31.BleMgmt
