import EspS31.ForStd.LinkedList

/-!
# The timers of the radio worker

`s31_linux_timer.c`: the `esp_timer` functions over a linked list of timers, and
`s31_linux_timers_tick`, which dispatches the timers that are due.

A callback may call any of these functions, so a pass of the tick is taken apart at
its callbacks: `iterate` is one round of its loop, up to the callback or the end of
the pass, and what a callback does is a sequence of events before `callbackReturns`.
The frames are the passes under way, the innermost first.
-/

namespace EspS31.Timer

open LinkedList

/-- `struct esp_timer`, without its link. -/
structure TimerData where
  callback : Nat
  arg : Nat
  alarmUs : UInt64 := 0
  periodUs : UInt64 := 0
  active : Bool := false
deriving DecidableEq, Repr

/-- What the functions return. -/
inductive EspErr where
  | ok | invalidArg | noMem | invalidState
deriving DecidableEq, Repr

/-- `esp_timer_create_args_t`, with `none` for a null callback. -/
structure CreateArgs where
  callback : Option Nat
  arg : Nat
deriving DecidableEq, Repr

/-- A call that has returned `ESP_OK`, with the timer it concerns, a callback or the end
    of a pass.  `started` says whether the timer is a one-shot one, `passed` how many
    callbacks the pass has made and its last time. -/
inductive Obs where
  | created (timer : Nat)
  | deleted (timer : Nat)
  | started (timer : Nat) (once : Bool)
  | stopped (timer : Nat)
  | called (timer callback arg : Nat)
  | passed (callbacks : Nat) (now : UInt64)
deriving DecidableEq, Repr

/-- The variable `callbacks` of a pass, and whether its callback is running. -/
structure Frame where
  callbacks : Nat
  inCallback : Bool
deriving DecidableEq, Repr

/-- The list with its head `s31_timers`, the blocks that are allocated, the passes
    under way and the history. -/
structure State where
  store : Store TimerData := ⟨fun _ => none, 0⟩
  blocks : List Nat := []
  frames : List Frame := []
  trace : List Obs := []

/-- One observation more. -/
def State.log (s : State) (o : Obs) : State := { s with trace := s.trace ++ [o] }

/-- The observation of a call, if it has one. -/
def State.record (s : State) : Option Obs → State
  | none => s
  | some o => s.log o

/-- More than the length of any list of allocated timers. -/
def State.fuel (s : State) : Nat := s.blocks.length + 1

/-- Writes the fields of a timer. -/
def State.setData (s : State) (timer : Nat) (node : Node TimerData) (data : TimerData) : State :=
  { s with store := { s.store with
      heap := Function.update s.store.heap timer (some { node with val := data }) } }

/-- `__wrap_esp_timer_create`; `block` is what the allocator returns. -/
def timerCreate (args : Option CreateArgs) (out : Bool) (block : Option Nat) (s : State) :
    EspErr × State :=
  match args with
  | none => (.invalidArg, s)
  | some args =>
    match args.callback with
    | none => (.invalidArg, s)
    | some callback =>
      if ¬ out then (.invalidArg, s)
      else
        match block with
        | none => (.noMem, s)
        | some timer =>
          -- a new timer is not armed and goes to the head of the list
          let node := ⟨{ callback := callback, arg := args.arg }, s.store.head⟩
          (.ok, { s with
            store := ⟨Function.update s.store.heap timer (some node), timer⟩
            blocks := timer :: s.blocks })

/-- `__wrap_esp_timer_delete` -/
def timerDelete (timer : Nat) (s : State) : Except Fault (EspErr × State) :=
  match s.store.findLink timer s.fuel .head with
  | .error e => .error e
  | .ok link =>
    match s.store.read link with
    | .error e => .error e
    | .ok p =>
      if p = 0 then .ok (.invalidArg, s)
      else
        match s.store.heap timer with
        | none => .error .dangling
        | some node =>
          .ok (.ok, { s with
            store := (s.store.write link node.next).free timer
            blocks := s.blocks.erase timer })

/-- `s31_timer_start` -/
def timerStart (timer : Nat) (alarmUs periodUs : UInt64) (s : State) :
    Except Fault (EspErr × State) :=
  if timer = 0 ∨ alarmUs = 0 then .ok (.invalidArg, s)
  else
    match s.store.heap timer with
    | none => .error .dangling
    | some node =>
      if node.val.active then .ok (.invalidState, s)
      else
        let data :=
          { node.val with alarmUs := alarmUs, periodUs := periodUs, active := true }
        .ok (.ok, s.setData timer node data)

/-- `__wrap_esp_timer_start_once` -/
def timerStartOnce (timer : Nat) (timeoutUs now : UInt64) (s : State) :
    Except Fault (EspErr × State) :=
  timerStart timer (now + timeoutUs) 0 s

/-- `__wrap_esp_timer_start_once_at` -/
def timerStartOnceAt (timer : Nat) (alarmUs now : UInt64) (s : State) :
    Except Fault (EspErr × State) :=
  if alarmUs ≤ now then .ok (.invalidArg, s) else timerStart timer alarmUs 0 s

/-- `__wrap_esp_timer_start_periodic` -/
def timerStartPeriodic (timer : Nat) (periodUs now : UInt64) (s : State) :
    Except Fault (EspErr × State) :=
  timerStart timer (now + periodUs) periodUs s

/-- `__wrap_esp_timer_start_periodic_at` -/
def timerStartPeriodicAt (timer : Nat) (periodUs firstAlarmUs now : UInt64) (s : State) :
    Except Fault (EspErr × State) :=
  if firstAlarmUs ≤ now then .ok (.invalidArg, s) else timerStart timer firstAlarmUs periodUs s

/-- `__wrap_esp_timer_stop` -/
def timerStop (timer : Nat) (s : State) : Except Fault (EspErr × State) :=
  if timer = 0 then .ok (.invalidArg, s)
  else
    match s.store.heap timer with
    | none => .error .dangling
    | some node =>
      if ¬ node.val.active then .ok (.invalidState, s)
      else .ok (.ok, s.setData timer node { node.val with active := false })

/-- `__wrap_esp_timer_restart` -/
def timerRestart (timer : Nat) (timeoutUs now : UInt64) (s : State) :
    Except Fault (EspErr × State) :=
  if timer = 0 then .ok (.invalidArg, s)
  else
    match s.store.heap timer with
    | none => .error .dangling
    | some node =>
      if ¬ node.val.active ∨ timeoutUs = 0 then .ok (.invalidState, s)
      else
        let data := { node.val with alarmUs := now + timeoutUs }
        let data := if data.periodUs ≠ 0 then { data with periodUs := timeoutUs } else data
        .ok (.ok, s.setData timer node data)

/-- The calls of the interface; `now` is the time they read. -/
inductive Op where
  | create (args : Option CreateArgs) (out : Bool) (block : Option Nat)
  | delete (timer : Nat)
  | startOnce (timer : Nat) (timeoutUs now : UInt64)
  | startOnceAt (timer : Nat) (alarmUs now : UInt64)
  | startPeriodic (timer : Nat) (periodUs now : UInt64)
  | startPeriodicAt (timer : Nat) (periodUs firstAlarmUs now : UInt64)
  | stop (timer : Nat)
  | restart (timer : Nat) (timeoutUs now : UInt64)
deriving DecidableEq, Repr

/-- The function that is called. -/
def perform : Op → State → Except Fault (EspErr × State)
  | .create args out block, s => .ok (timerCreate args out block s)
  | .delete timer, s => timerDelete timer s
  | .startOnce timer timeoutUs now, s => timerStartOnce timer timeoutUs now s
  | .startOnceAt timer alarmUs now, s => timerStartOnceAt timer alarmUs now s
  | .startPeriodic timer periodUs now, s => timerStartPeriodic timer periodUs now s
  | .startPeriodicAt timer periodUs first now, s => timerStartPeriodicAt timer periodUs first now s
  | .stop timer, s => timerStop timer s
  | .restart timer timeoutUs now, s => timerRestart timer timeoutUs now s

/-- What the caller knows from the result of a call. -/
def Op.observed : Op → EspErr → Option Obs
  | .create _ _ block, .ok => block.map .created
  | .delete timer, .ok => some (.deleted timer)
  | .startOnce timer _ _, .ok | .startOnceAt timer _ _, .ok => some (.started timer true)
  | .startPeriodic timer periodUs _, .ok | .startPeriodicAt timer periodUs _ _, .ok =>
    -- a timer that is started with the period zero is a one-shot one
    some (.started timer (periodUs = 0))
  | .stop timer, .ok => some (.stopped timer)
  | _, _ => none

/-! ## `s31_linux_timers_tick` -/

/-- The test of the scan. -/
def due (now : UInt64) (data : TimerData) : Bool := data.active && data.alarmUs ≤ now

/-- The scan from the head: the timers whose fields it reads, and the first that is
    due. -/
def scan (now : UInt64) (s : State) : Except Fault (List Nat × Option Nat) :=
  find s.store.heap (due now) s.fuel s.store.head

/-- A timer that is dispatched: a periodic one is set to its next alarm. -/
def rearm (now : UInt64) (data : TimerData) : TimerData :=
  if data.periodUs ≠ 0 then
    let elapsed := now - data.alarmUs
    { data with alarmUs := data.alarmUs + (elapsed / data.periodUs + 1) * data.periodUs }
  else { data with active := false }

/-- One round of the loop, for the innermost pass. -/
def iterate (now : UInt64) (frame : Frame) (frames : List Frame) (s : State) :
    Except Fault State :=
  match scan now s with
  | .error e => .error e
  | .ok (_, none) => .ok ({ s with frames := frames }.log (.passed frame.callbacks now))
  | .ok (_, some timer) =>
    if frame.callbacks = 64 then
      .ok ({ s with frames := frames }.log (.passed frame.callbacks now))
    else
      match s.store.heap timer with
      | none => .error .dangling
      | some node =>
        let s := s.setData timer node (rearm now node.val)
        .ok ({ s with frames := ⟨frame.callbacks + 1, true⟩ :: frames }.log
          (.called timer node.val.callback node.val.arg))

/-- What happens: a call, a tick of the hardware timer, one turn of the loop over the timers, or
    the return of a callback. -/
inductive Event where
  | api (op : Op)
  | tick
  | iterate (now : UInt64)
  | callbackReturns
deriving DecidableEq, Repr

/-- An event; a call is noted with what it returned. -/
def step (s : State) : Event → Except Fault State
  | .api op =>
    match perform op s with
    | .error e => .error e
    | .ok (err, s) => .ok (s.record (op.observed err))
  | .tick => .ok { s with frames := ⟨0, false⟩ :: s.frames }
  | .iterate now =>
    match s.frames with
    | [] => .ok s
    | frame :: frames => iterate now frame frames s
  | .callbackReturns =>
    match s.frames with
    | [] => .ok s
    | frame :: frames => .ok { s with frames := { frame with inCallback := false } :: frames }

end EspS31.Timer
