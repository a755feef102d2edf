import EspS31.ForStd.Strtoul
import EspS31.Native.Overlay
import Mathlib.Algebra.Ring.Int.Defs

/-!
# Loading an overlay and assigning its routes

`load_blob`, `patch_route` and `apply_spec` of `s31_overlay.c` with the blob they
read, change and write.  The functions of libfdt are parameters; what the walk over
the nodes needs to come to an end is part of them.
-/

namespace EspS31.Overlay

open CText

/-- The bytes of a flattened device tree. -/
abbrev Blob := List UInt8

/-! ## Bytes of a blob -/

/-- The string at an offset; a byte is the character of the same number. -/
def stringAt (blob : Blob) (o : Nat) : Text :=
  ((blob.drop o).takeWhile (· ≠ 0)).map fun b => Char.ofNat b.toNat

/-- A byte of the blob. -/
def byteAt (blob : Blob) (i : Nat) : BitVec 8 := (blob.getD i 0).toBitVec

/-- `fdt32_to_cpu` of the cell at an offset. -/
def cellAt (blob : Blob) (o : Nat) : BitVec 32 :=
  byteAt blob o ++ byteAt blob (o + 1) ++ byteAt blob (o + 2) ++ byteAt blob (o + 3)

/-- The bytes of a cell, the most significant first. -/
def cellBytes (v : BitVec 32) : Blob :=
  [⟨v.extractLsb' 24 8⟩, ⟨v.extractLsb' 16 8⟩, ⟨v.extractLsb' 8 8⟩, ⟨v.extractLsb' 0 8⟩]

/-- A cell written in place, big-endian. -/
def putCell (blob : Blob) (o : Nat) (v : BitVec 32) : Blob :=
  blob.take o ++ (cellBytes v ++ blob.drop (o + 4))

/-! ## libfdt -/

/-- The functions of libfdt that the utility calls. -/
structure Libfdt where
  /-- `fdt_next_node`: the offset and the depth of the next node, a negative offset
      when there is none. -/
  nextNode : Blob → Int × Int → Int × Int
  /-- The nodes come in the order of their offsets, which are of type `int`. -/
  forward : ∀ blob pos, 0 ≤ (nextNode blob pos).1 →
    pos.1 < (nextNode blob pos).1 ∧ (nextNode blob pos).1 < 2 ^ 31
  /-- `fdt_getprop`: where the value of a property is, and its length. -/
  getprop : Blob → Int → Text → Option (Nat × Nat)
  /-- `fdt_setprop_inplace_u32`: 0 or an error, and the blob after the call. -/
  setpropInplaceU32 : Blob → Int → Text → BitVec 32 → Int × Blob

/-- The property with the name of a route. -/
def routeName : Text := "espressif,route-name".toList
/-- The property with the kind of a route. -/
def routeKind : Text := "espressif,route-kind".toList
/-- The property with the pins of a route. -/
def pinmux : Text := "pinmux".toList

/-! ## `patch_route` -/

/-- The pins that a route may use. -/
def validGpio (gpio : Nat) : Bool :=
  gpio < 62 && (gpio < 26 || gpio > 32) && gpio ≠ 33 && gpio ≠ 34 && gpio ≠ 41

/-- The checks of `patch_route` on its argument: the route and the pad.  An unsigned
    long has 32 bits; `einval` is as for `strtoul`. -/
def routeArguments (einval : Bool) (assignment : Text) : Except Errno (Text × Nat) :=
  let routeLen := strcspn ['='] assignment
  if routeLen = assignment.length ∨ routeLen = 0 ∨ routeLen ≥ 64 then .error .EINVAL
  else
    let r := strtoul einval 32 (assignment.drop (routeLen + 1))
    if r.error ≠ none ∨ r.rest ≠ [] ∨ ¬ validGpio r.value then .error .EINVAL
    else .ok (assignment.take routeLen, r.value)

/-- The cell that `patch_route` writes. -/
def withGpio (cell : BitVec 32) (gpio : Nat) : BitVec 32 :=
  (cell &&& ~~~ 0xff#32) ||| BitVec.ofNat 32 gpio

/-- One node of the walk: the blob if the node has the route. -/
def patchNode (fdt : Libfdt) (route : Text) (gpio : Nat) (blob : Blob) (node : Int) :
    Except Errno (Option Blob) :=
  match fdt.getprop blob node routeName with
  | none => .ok none
  | some (name, _) =>
    -- a node of another route is passed over
    if stringAt blob name ≠ route then .ok none
    else
      match fdt.getprop blob node routeKind with
      -- only routes through the matrix can be moved to another pin
      | none => .error .EOPNOTSUPP
      | some (kind, _) =>
        if stringAt blob kind ≠ "matrix-input".toList ∧
            stringAt blob kind ≠ "matrix-output".toList then .error .EOPNOTSUPP
        else
          match fdt.getprop blob node pinmux with
          | none => .error .EINVAL
          | some (cell, len) =>
            if len ≠ 4 then .error .EINVAL
            else
              let r := fdt.setpropInplaceU32 blob node pinmux (withGpio (cellAt blob cell) gpio)
              if r.1 ≠ 0 then .error .EINVAL else .ok (some r.2)

/-- The loop over the nodes behind `pos`; `found` counts those with the route. -/
def patchLoop (fdt : Libfdt) (route : Text) (gpio : Nat) (blob : Blob) (pos : Int × Int)
    (found : Nat) : Except Errno (Blob × Nat) :=
  if _h : 0 ≤ (fdt.nextNode blob pos).1 then
    match patchNode fdt route gpio blob (fdt.nextNode blob pos).1 with
    | .error e => .error e
    | .ok none => patchLoop fdt route gpio blob (fdt.nextNode blob pos) found
    | .ok (some blob') => patchLoop fdt route gpio blob' (fdt.nextNode blob pos) (found + 1)
  else .ok (blob, found)
termination_by (2 ^ 31 - pos.1).toNat
decreasing_by all_goals have := fdt.forward blob pos _h; omega

/-- Applies one assignment to the blob. -/
def patchRoute (einval : Bool) (fdt : Libfdt) (blob : Blob) (assignment : Text) :
    Except Errno Blob :=
  match routeArguments einval assignment with
  | .error e => .error e
  | .ok (route, gpio) =>
    match patchLoop fdt route gpio blob (-1, 0) 0 with
    | .error e => .error e
    | .ok (blob, found) =>
      if found ≠ 1 then .error (if found ≠ 0 then .EEXIST else .ENOENT) else .ok blob

/-! ## `apply_spec` -/

/-- The largest overlay that is loaded. -/
def MAX_DTBO_SIZE : Nat := 128 * 1024

/-- What the file system and the device answer to one call. -/
structure OverlayIo where
  /-- The overlay file of a name. -/
  file : Text → Option Blob
  /-- How much the successive calls of `read` return, at most what they are asked
      for; 0 stands for an error too. -/
  read : Nat → Nat
  openDevice : Option Errno
  /-- `none` when the device takes the whole blob. -/
  write : Option Errno

/-- The loop of `load_blob`. -/
def readAll (read : Nat → Nat) (file done : Blob) (i : Nat) : Except Errno Blob :=
  if _h : file.length ≤ done.length then .ok done
  else if _hgot : ((file.drop done.length).take (read i)).length = 0 then .error Errno.EIO
  else readAll read file (done ++ (file.drop done.length).take (read i)) (i + 1)
termination_by file.length - done.length
decreasing_by rw [List.length_append]; omega

/-- Reads an overlay whole. -/
def loadBlob (io : OverlayIo) (name : Text) : Except Errno Blob :=
  match io.file name with
  | none => .error .ENOENT
  | some file =>
    if file.length = 0 ∨ file.length > MAX_DTBO_SIZE then .error .EFBIG
    else readAll io.read file [] 0

/-- Load, assign the routes and write to the device: the error, and the blobs
    written. -/
def submitOverlay (einval : Bool) (fdt : Libfdt) (io : OverlayIo) (name : Text)
    (tokens : List Text) : Option Errno × List Blob :=
  match loadBlob io name with
  | .error e => (some e, [])
  | .ok blob =>
    match tokens.foldlM (patchRoute einval fdt) blob with
    | .error e => (some e, [])
    | .ok blob =>
      match io.openDevice with
      | some e => (some e, [])
      | none => (io.write, [blob])

/-- `apply_spec` with what it writes. -/
def applySpecIn (einval : Bool) (fdt : Libfdt) (io : OverlayIo) (spec : Text) :
    Except Errno Text × List Blob :=
  if spec.length ≥ 512 then (.error .E2BIG, [])
  else
    match strtok [' ', '\t'] spec with
    | [] => (.error .EINVAL, [])
    | name :: tokens =>
      if ¬ validName name then (.error .EINVAL, [])
      else
        match submitOverlay einval fdt io name tokens with
        | (some e, written) => (.error e, written)
        | (none, written) => (.ok name, written)

/-- The commands see the error only. -/
theorem applySpecIn_fst (einval : Bool) (fdt : Libfdt) (io : OverlayIo) (spec : Text) :
    (applySpecIn einval fdt io spec).1 =
      applySpec (fun name tokens => (submitOverlay einval fdt io name tokens).1) spec := by
  unfold applySpecIn applySpec
  by_cases hlen : spec.length ≥ 512
  · rw [if_pos hlen, if_pos hlen]
  · rw [if_neg hlen, if_neg hlen]
    -- both functions make the same tests in the same order
    cases strtok [' ', '\t'] spec with
    | nil => rfl
    | cons name tokens =>
      dsimp only
      by_cases hname : ¬ validName name
      · rw [if_pos hname, if_pos hname]
      · rw [if_neg hname, if_neg hname]
        obtain ⟨error, written⟩ := submitOverlay einval fdt io name tokens
        cases error with
        | none => rfl
        | some e => rfl

end EspS31.Overlay
