import EspS31.ForStd.CText

/-!
# The overlay utility

`s31_overlay.c`: the commands that change the set of device-tree overlays, the
current file that records the set and the persistent file it is restored from.

What the program asks of its surroundings (the kernel manager and the file system)
is answered by an `Env`: `none` for success, else the error.  A rejected request
leaves the manager's set and the files as they were.
-/

namespace EspS31.Overlay

open CText

/-- The buffer for a name. -/
def NAME_LEN : Nat := 32
/-- The buffer for a configuration. -/
def CONFIG_LEN : Nat := 2024

/-- `"overlay."`, the prefix of a persisted line. -/
def overlayKey : Text := ['o', 'v', 'e', 'r', 'l', 'a', 'y', '.']

/-- `"--volatile"` -/
def volatileFlag : Text := ['-', '-', 'v', 'o', 'l', 'a', 't', 'i', 'l', 'e']

/-- `"--all"` -/
def allFlag : Text := ['-', '-', 'a', 'l', 'l']

/-- The errors that the tool returns or meets. -/
inductive Errno where
  | ENOENT | EINVAL | E2BIG | EEXIST | ENODATA | ENODEV | EBUSY | EIO | EFBIG | EOPNOTSUPP
deriving DecidableEq, Repr

/-- The names that overlays may have. -/
def validName (name : Text) : Bool :=
  name.length ≠ 0 && name.length < NAME_LEN &&
    name.all fun c => c.isLower || c.isDigit || c = '-' || c = '_'

/-! ## The persistent file -/

/-- One line of `read_persist`; `config` is the text collected so far. -/
def readPersistLine (configSize : Nat) (config line : Text) : Except Errno Text :=
  let line := cstr line
  let line := line.take (strcspn ['\r', '\n'] line)
  if line = [] ∨ line.head? = some '#' then .ok config
  else if '=' ∉ line ∨ ¬ overlayKey <+: line then .ok config
  else
    let name := (line.takeWhile (· ≠ '=')).drop 8
    let value := (line.dropWhile (· ≠ '=')).tail
    if ¬ validName name ∨ value = [] ∨ config.length + value.length + 2 > configSize then
      .error .EINVAL
    else .ok (config ++ (value ++ ['\n']))

/-- Reads the persistent file, line by line. -/
def readPersist (configSize : Nat) (file : Option Text) : Except Errno Text :=
  match file with
  | none => .error .ENOENT
  | some text => (fgetsLines 512 text).foldlM (readPersistLine configSize) []

/-- What the file system answers in `write_persist`. -/
structure PersistOps where
  mkdir : Option Errno := none
  openTemporary : Option Errno := none
  dprintf : Option Errno := none
  commit : Option Errno := none
deriving DecidableEq, Repr

/-- One line of `write_persist`; `file` is the text written so far. -/
def writePersistLine (file line : Text) : Except Errno Text :=
  let nameLen := strcspn [' ', '\t'] line
  if nameLen = 0 ∨ nameLen ≥ NAME_LEN then .error .EINVAL
  else .ok (file ++ (overlayKey ++ line.take nameLen ++ '=' :: line ++ ['\n']))

/-- The new contents of the persistent file. -/
def writePersist (os : PersistOps) (config : Text) : Except Errno Text :=
  if config.length ≥ CONFIG_LEN then .error .E2BIG
  else
    match os.mkdir with
    -- the directory may be there already
    | some e => if e ≠ .EEXIST then .error e else write
    | none => write
where
  write : Except Errno Text :=
    match os.openTemporary with
    | some e => .error e
    | none =>
      match (strtok ['\n'] config).foldlM writePersistLine [] with
      | .error e => .error e
      | .ok text =>
        -- a line that was not written is an error also when the file can be renamed
        match os.dprintf, os.commit with
        | some e, _ => .error e
        | none, some e => .error e
        | none, none => .ok text

/-! ## The current file -/

/-- Reads the current file, up to the size of the buffer. -/
def readCurrent (size : Nat) (file : Option Text) : Text :=
  match file with
  | none => []
  | some text => cstr (text.take (size - 1))

/-- The name of a recorded line. -/
def lineName (line : Text) : Text := line.take (strcspn [' ', '\t'] line)

/-- One line of `update_config`; `config` is the text kept so far. -/
def updateConfigLine (size : Nat) (name config line : Text) : Except Errno Text :=
  if lineName line = name then .ok config
  else if config.length + line.length + 2 > size then .error .E2BIG
  else .ok (config ++ (line ++ ['\n']))

/-- The configuration with a line added, replaced or removed. -/
def updateConfig (size : Nat) (config name : Text) (replacement : Option Text) :
    Except Errno Text :=
  match (strtok ['\n'] config).foldlM (updateConfigLine size name) [] with
  | .error e => .error e
  | .ok kept =>
    match replacement with
    | none => .ok kept
    | some spec =>
      if kept.length + spec.length + 2 > size then .error .E2BIG
      else .ok (kept ++ (spec ++ ['\n']))

/-! ## The commands -/

/-- What the manager and the file system answer to one invocation.  `submit i`
    answers the `i`-th overlay of the invocation: loading the blob, patching its
    routes and writing it to the device. -/
structure Env where
  submit : Nat → Text → List Text → Option Errno
  remove : Option Errno
  removeAfter : Option Errno := none
  currentRead : Option Errno := none
  currentWrite : Option Errno := none
  persist : PersistOps := {}

/-- The two files and the names active in the manager. -/
structure State where
  current : Option Text
  persist : Option Text
  active : List Text
deriving DecidableEq, Repr

/-- `apply_spec`: the name of the overlay that has become active. -/
def applySpec (submit : Text → List Text → Option Errno) (spec : Text) : Except Errno Text :=
  if spec.length ≥ 512 then .error .E2BIG
  else
    match strtok [' ', '\t'] spec with
    | [] => .error .EINVAL
    | name :: tokens =>
      if ¬ validName name then .error .EINVAL
      else
        match submit name tokens with
        | some e => .error e
        | none => .ok name

/-- One more overlay in the kernel. -/
def State.activate (s : State) (name : Text) : State := { s with active := s.active.insert name }

/-- `manager_remove`, all names for `none`. -/
def State.deactivate (s : State) : Option Text → State
  | none => { s with active := [] }
  | some name => { s with active := s.active.filter (· ≠ name) }

/-- The loop of `restore` over the persisted lines; `none` when all are applied. -/
def restoreLines (env : Env) : Nat → List Text → State → Option Errno × State
  | _, [], s => (none, s)
  | i, line :: lines, s =>
    match applySpec (env.submit i) line with
    | .error e => (some e, s)
    | .ok name => restoreLines env (i + 1) lines (s.activate name)

/-- Applies the persistent configuration after boot. -/
def restore (env : Env) (s : State) : Nat × State :=
  match readPersist CONFIG_LEN s.persist with
  -- nothing to restore is no error
  | .error e => (if e = .ENODATA ∨ e = .ENODEV ∨ e = .ENOENT then 0 else 1, s)
  | .ok config =>
    match env.remove with
    -- what is active is removed first, if anything is
    | some .ENOENT => apply config s
    | some _ => (1, s)
    | none => apply config (s.deactivate none)
where
  apply (config : Text) (s : State) : Nat × State :=
    match restoreLines env 0 (strtok ['\n'] config) s with
    -- a line failed: what was applied is removed again
    | (some _, s) =>
      match env.removeAfter with
      | some _ => (1, s)
      | none => (1, s.deactivate none)
    | (none, s) =>
      match env.currentWrite with
      | some _ => (1, s)
      | none => (0, { s with current := some config })

/-- The specification built from the arguments after the name, and whether the
    change persists. -/
def buildSpec : Text → Bool → List Text → Except Errno (Text × Bool)
  | spec, persist, [] => .ok (spec, persist)
  | spec, persist, arg :: args =>
    if arg = volatileFlag then buildSpec spec false args
    else if spec.length + arg.length + 2 > 512 then .error .E2BIG
    else buildSpec (spec ++ ' ' :: arg) persist args

/-- Recording: the current file is rewritten from `update`, then the persistent one. -/
def record (env : Env) (s : State) (persist : Bool) (update : Text → Except Errno Text) :
    Nat × State :=
  match env.currentRead with
  | some _ => (1, s)
  | none =>
    match update (readCurrent CONFIG_LEN s.current) with
    | .error _ => (1, s)
    | .ok config =>
      match env.currentWrite with
      | some _ => (1, s)
      | none =>
        -- the current file is written before the persistent one
        let s := { s with current := some config }
        if persist then
          match writePersist env.persist config with
          | .error _ => (1, s)
          | .ok text => (0, { s with persist := some text })
        else (0, s)

/-- `apply`, with the arguments after it. -/
def apply (env : Env) (s : State) (args : List Text) : Nat × State :=
  match args with
  | [] => (2, s)
  | name :: rest =>
    if ¬ validName name then (2, s)
    else
      match buildSpec name true rest with
      | .error _ => (1, s)
      | .ok (spec, persist) =>
        match applySpec (env.submit 0) spec with
        | .error _ => (1, s)
        | .ok active =>
          record env (s.activate active) persist fun config =>
            updateConfig CONFIG_LEN config name (some spec)

/-- `remove`, once its arguments are parsed. -/
def removeName (env : Env) (s : State) (persist : Bool) (name : Option Text) : Nat × State :=
  match env.remove with
  | some _ => (1, s)
  | none =>
    record env (s.deactivate name) persist fun config =>
      match name with
      | some name => updateConfig CONFIG_LEN config name none
      | none => .ok []

/-- `remove`, with the arguments after it. -/
def remove (env : Env) (s : State) (args : List Text) : Nat × State :=
  match args with
  | [name] => parsed name true
  | [name, flag] => if flag = volatileFlag then parsed name false else (2, s)
  | _ => (2, s)
where
  parsed (name : Text) (persist : Bool) : Nat × State :=
    if name = allFlag then removeName env s persist none
    else if ¬ validName name then (2, s)
    else removeName env s persist (some name)

/-- The commands of `main` that change the set. -/
inductive Command where
  | restore
  | apply (args : List Text)
  | remove (args : List Text)
deriving DecidableEq, Repr

/-- The exit code and the state after a command. -/
def main (env : Env) (s : State) : Command → Nat × State
  | .restore => restore env s
  | .apply args => apply env s args
  | .remove args => remove env s args

end EspS31.Overlay
