import EspS31.Native.BleScan

/-!
# Names in advertisements

The bytes of an advertisement are fields of a length, a type and a value.
`advertisement_name` takes the first complete name, or else the last shortened one,
and stays within the two buffers whatever the bytes are.

## Key results

- `copyName_holds`: the loop over the bytes of a value
- `nameLoop_named`: the walk over the fields from any offset
- `advertisementName_correct`: the name that is left in the buffer
-/

namespace EspS31.BleScan

open TracedBuffer

/-! ## Fields -/

/-- A field of the data: its type and its value. -/
structure Field where
  type : UInt8
  value : List UInt8
deriving DecidableEq, Repr

/-- The fields up to the first one that has no length or is cut off. -/
def parseFields : List UInt8 → List Field
  | [] => []
  | len :: rest =>
    if len = 0 ∨ rest.length < len.toNat then []
    else ⟨rest.headD 0, (rest.take len.toNat).tail⟩ :: parseFields (rest.drop len.toNat)
termination_by eir => eir.length
decreasing_by simp only [List.length_drop, List.length_cons]; omega

/-- The first complete name, or else the last shortened one. -/
def localName (fields : List Field) : List UInt8 :=
  match fields.find? fun f => f.type = 0x09 ∧ f.value ≠ [] with
  | some f => f.value
  | none =>
    match (fields.filter fun f => f.type = 0x08 ∧ f.value ≠ []).getLast? with
    | some f => f.value
    | none => []

/-- A name as it is shown. -/
def shown (nameSize : Nat) (value : List UInt8) : List UInt8 :=
  (value.take (nameSize - 1)).map fun b => if 0x20 ≤ b ∧ b ≤ 0x7e then b else 0x2e

/-- The bytes from offset `o` on. -/
def bytesAt (data : Nat → UInt8) (o n : Nat) : List UInt8 := (List.range' o n).map data

/-- The name after more fields, when `current` is the name so far. -/
def nameAfter (current : List UInt8) : List Field → List UInt8
  | [] => current
  | f :: fields =>
    if f.value = [] then nameAfter current fields
    else if f.type = 0x09 then f.value
    else if f.type = 0x08 then nameAfter f.value fields
    else nameAfter current fields

/-- What the walk ends with, in the words of `localName`. -/
private theorem nameAfter_eq (current : List UInt8) (fields : List Field) :
    nameAfter current fields =
      match fields.find? fun f => f.type = 0x09 ∧ f.value ≠ [] with
      | some f => f.value
      | none =>
        match (fields.filter fun f => f.type = 0x08 ∧ f.value ≠ []).getLast? with
        | some f => f.value
        | none => current := by
  induction fields generalizing current with
  | nil => rfl
  | cons f fields ih =>
    rw [nameAfter]
    -- an empty field changes nothing; a complete name ends the walk
    by_cases hempty : f.value = []
    · simp only [hempty, if_true, ih, List.find?_cons, List.filter_cons, ne_eq, not_true, and_false,
        decide_false, Bool.false_eq_true, if_false]
    · by_cases hcomplete : f.type = 0x09
      · simp only [hempty, hcomplete, if_false, if_true, List.find?_cons, ne_eq, not_false_iff,
          and_self, decide_true]
      · by_cases hshort : f.type = 0x08
        · have hother : ¬ (0x08 : UInt8) = 0x09 := by decide
          simp only [hempty, hshort, hother, if_false, if_true, ih, List.find?_cons,
            List.filter_cons, ne_eq, not_false_iff, and_self, and_true, decide_true, decide_false,
            List.getLast?_cons]
          -- a shortened name behind this one replaces it
          cases fields.find? fun f => decide (f.type = 0x09 ∧ ¬f.value = []) with
          | some g => rfl
          | none =>
            cases (fields.filter fun f => decide (f.type = 0x08 ∧ ¬f.value = [])).getLast? with
            | some g => rfl
            | none => rfl
        · simp only [hempty, hcomplete, hshort, if_false, ih, List.find?_cons, List.filter_cons,
            false_and, decide_false, Bool.false_eq_true]

/-- A field that is no name. -/
private theorem nameAfter_skip {current : List UInt8} {f : Field} (fields : List Field)
    (hf : ¬ ((f.type = 0x08 ∨ f.type = 0x09) ∧ f.value ≠ [])) :
    nameAfter current (f :: fields) = nameAfter current fields := by
  rw [nameAfter]
  by_cases hempty : f.value = []
  · rw [if_pos hempty]
  · have htype := not_or.mp fun htype => hf ⟨htype, hempty⟩
    rw [if_neg hempty, if_neg htype.2, if_neg htype.1]

/-- Without a name so far, the name is that of the fields. -/
private theorem nameAfter_nil (fields : List Field) : nameAfter [] fields = localName fields :=
  nameAfter_eq [] fields

/-! ## One field -/

section

variable {data : Nat → UInt8} {offset length : Nat}

/-- The first byte and the ones behind it. -/
private theorem bytesAt_succ (data : Nat → UInt8) (o n : Nat) :
    bytesAt data o (n + 1) = data o :: bytesAt data (o + 1) n := by
  rw [bytesAt, List.range'_succ, List.map_cons, bytesAt]

/-- There are `n` bytes. -/
private theorem length_bytesAt (data : Nat → UInt8) (o n : Nat) :
    (bytesAt data o n).length = n := by
  rw [bytesAt, List.length_map, List.length_range']

/-- There are some bytes exactly when `n` is not 0. -/
private theorem bytesAt_ne_nil {o n : Nat} : bytesAt data o n ≠ [] ↔ 0 < n := by
  rw [← List.length_pos_iff, length_bytesAt]

/-- The first bytes of a range. -/
private theorem bytesAt_take (data : Nat → UInt8) (o : Nat) {n k : Nat} (hk : k ≤ n) :
    (bytesAt data o n).take k = bytesAt data o k := by
  rw [bytesAt, ← List.map_take, List.take_range'_of_length_ge hk, bytesAt]

/-- The walk stops where the fields end. -/
private theorem parseFields_stop (hlt : offset < length)
    (hstop : (data offset).toNat = 0 ∨ offset + (data offset).toNat ≥ length) :
    parseFields (bytesAt data offset (length - offset)) = [] := by
  obtain ⟨n, hn⟩ : ∃ n, length - offset = n + 1 := ⟨length - offset - 1, by omega⟩
  rw [hn, bytesAt_succ, parseFields, if_pos]
  rw [length_bytesAt]
  obtain hzero | hlong := hstop
  · exact .inl (UInt8.toNat.inj hzero)
  · exact .inr (by omega)

/-- One field and the ones behind it. -/
private theorem parseFields_field (hlt : offset < length)
    (hstop : ¬ ((data offset).toNat = 0 ∨ offset + (data offset).toNat ≥ length)) :
    parseFields (bytesAt data offset (length - offset)) =
      ⟨data (offset + 1), bytesAt data (offset + 2) ((data offset).toNat - 1)⟩ ::
        parseFields (bytesAt data (offset + ((data offset).toNat + 1))
          (length - (offset + ((data offset).toNat + 1)))) := by
  obtain ⟨hzero, hshort⟩ := not_or.mp hstop
  obtain ⟨k, hk⟩ : ∃ k, (data offset).toNat = k + 1 := ⟨(data offset).toNat - 1, by omega⟩
  obtain ⟨n, hn⟩ : ∃ n, length - offset = n + 1 + 1 := ⟨length - offset - 2, by omega⟩
  -- the length is neither 0 nor beyond the end of the data
  have hgoes : ¬ (data offset = 0 ∨ (bytesAt data (offset + 1) (n + 1)).length < k + 1) := by
    rw [length_bytesAt]
    rintro (hlen | hcut)
    · exact hzero (congrArg UInt8.toNat hlen)
    · omega
  have hvalue : ((bytesAt data (offset + 1) (n + 1)).take (k + 1)).tail =
      bytesAt data (offset + 2) k := by
    rw [bytesAt_take _ _ (by omega), bytesAt_succ, List.tail_cons]
  have hrest : (bytesAt data (offset + 1) (n + 1)).drop (k + 1) =
      bytesAt data (offset + (k + 1 + 1)) (length - (offset + (k + 1 + 1))) := by
    rw [bytesAt, ← List.map_drop, List.drop_range', bytesAt]
    congr 2 <;> omega
  rw [hn, bytesAt_succ, parseFields, hk, if_neg hgoes, hvalue, hrest, bytesAt_succ, List.headD_cons,
    Nat.add_sub_cancel]

/-- A byte is shown when it is printable, and as a dot otherwise. -/
private theorem nameChar_eq (b : UInt8) : nameChar b = if 0x20 ≤ b ∧ b ≤ 0x7e then b else 0x2e := by
  have hbound : b < 0x7f ↔ b ≤ 0x7e := by
    rw [UInt8.lt_iff_toNat_lt, UInt8.le_iff_toNat_le]
    exact Nat.lt_succ_iff
  simp only [nameChar, hbound]

/-- The bytes of a value as they are shown. -/
private theorem shown_bytesAt (data : Nat → UInt8) (nameSize o k : Nat) :
    shown nameSize (bytesAt data o k) =
      (List.range (if k ≥ nameSize then nameSize - 1 else k)).map
        fun i => nameChar (data (o + i)) := by
  have hcopied : (bytesAt data o k).take (nameSize - 1) =
      bytesAt data o (if k ≥ nameSize then nameSize - 1 else k) := by
    by_cases hlong : k ≥ nameSize
    · rw [if_pos hlong, bytesAt_take _ _ (by omega)]
    -- the value fits, or has exactly the size of the buffer and is cut by one
    · by_cases hfits : k ≤ nameSize - 1
      · rw [if_neg hlong, List.take_of_length_le (by rw [length_bytesAt]; exact hfits)]
      · rw [bytesAt_take _ _ (by omega), if_neg hlong]
        congr 1
        omega
  rw [shown, hcopied, bytesAt, List.range'_eq_map_range, List.map_map, List.map_map]
  apply List.map_congr_left
  intro i _
  simp only [Function.comp_apply, nameChar_eq]

end

/-! ## The walk -/

/-- The name with its terminator fits the buffer. -/
theorem length_shown {nameSize : Nat} (hsize : 1 ≤ nameSize) (value : List UInt8) :
    (shown nameSize value ++ [0]).length ≤ nameSize := by
  rw [shown, List.length_append, List.length_map, List.length_take, List.length_singleton]
  omega

/-- The name so far is in the buffer, and nothing outside the buffers was touched. -/
structure Named (length nameSize : Nat) (current : List UInt8) (w : NameWalk) : Prop where
  name : Holds w.name.get 0 (shown nameSize current ++ [0])
  written : ∀ i ∈ w.name.written, i < nameSize
  reads : ∀ i ∈ w.reads, i < length

section

variable {data : Nat → UInt8} {length nameSize : Nat} {current : List UInt8} {w : NameWalk}

/-- More reads within the data keep the state. -/
theorem Named.read (h : Named length nameSize current w) (offsets : List Nat)
    (hoffsets : ∀ i ∈ offsets, i < length) :
    Named length nameSize current { w with reads := w.reads ++ offsets } where
  name := h.name
  written := h.written
  reads i hi := (List.mem_append.mp hi).elim (h.reads i) (hoffsets i)

/-- A value is copied over the name. -/
theorem Named.copyName (h : Named length nameSize current w) (hsize : 1 ≤ nameSize) {offset : Nat}
    (hfits : offset + (data offset).toNat < length) (hvalue : (data offset).toNat > 1) :
    Named length nameSize (bytesAt data (offset + 2) ((data offset).toNat - 1))
      (copyName data nameSize offset w) := by
  have hloop := foldl_put w.name 0 (fun i => nameChar (data (offset + 2 + i)))
    (copyLen data nameSize offset)
  simp only [Nat.zero_add] at hloop
  have hname : (BleScan.copyName data nameSize offset w).name = w.name.puts 0
      (shown nameSize (bytesAt data (offset + 2) ((data offset).toNat - 1)) ++ [0]) := by
    rw [BleScan.copyName, hloop, puts_append, shown_bytesAt, List.length_map, List.length_range,
      Nat.zero_add]
    rfl
  refine ⟨?_, fun i hi => ?_, fun i hi => ?_⟩
  · rw [hname]
    exact holds_puts ..
  -- the bytes written are those of the shown name and its end, within the size
  · rw [hname] at hi
    have hlen := length_shown hsize (bytesAt data (offset + 2) ((data offset).toNat - 1))
    obtain hnew | hold := (mem_written_puts ..).mp hi
    · omega
    · exact h.written i hold
  · obtain hold | hnew := List.mem_append.mp hi
    · exact h.reads i hold
    · obtain ⟨k, hk, rfl⟩ := List.mem_map.mp hnew
      have hk := List.mem_range.mp hk
      have hlen : copyLen data nameSize offset ≤ (data offset).toNat - 1 := by
        rw [copyLen]
        split <;> omega
      omega

/-- The loop at any offset goes over the fields that are left. -/
theorem nameLoop_named (data : Nat → UInt8) (hsize : 1 ≤ nameSize) (offset : Nat)
    (h : Named length nameSize current w) :
    Named length nameSize (nameAfter current (parseFields (bytesAt data offset (length - offset))))
      (nameLoop data length nameSize offset w) := by
  -- one case for each way the loop goes on, as the list of the fields does
  fun_induction nameLoop data length nameSize offset w generalizing current with
  | case1 offset w hlt hstop =>
    rw [parseFields_stop hlt hstop]
    exact h.read [offset] (by simpa using hlt)
  | case2 offset w hlt hgoes hnamed hcomplete =>
    have hread := h.read [offset, offset + 1] (by simp; omega)
    rw [parseFields_field hlt hgoes, nameAfter, if_neg (bytesAt_ne_nil.mpr (by omega)), if_pos hcomplete]
    exact hread.copyName hsize (by omega) hnamed.2
  | case3 offset w hlt hgoes hnamed hother ih =>
    have hread := h.read [offset, offset + 1] (by simp; omega)
    have hshort : data (offset + 1) = 0x08 := hnamed.1.resolve_right hother
    rw [parseFields_field hlt hgoes, nameAfter, if_neg (bytesAt_ne_nil.mpr (by omega)), if_neg hother,
      if_pos hshort]
    exact ih (hread.copyName hsize (by omega) hnamed.2)
  | case4 offset w hlt hgoes hunnamed ih =>
    have hread := h.read [offset, offset + 1] (by simp; omega)
    rw [parseFields_field hlt hgoes, nameAfter_skip]
    · exact ih hread
    · rintro ⟨htype, hvalue⟩
      exact hunnamed ⟨htype, by have := bytesAt_ne_nil.mp hvalue; omega⟩
  | case5 offset w hend =>
    have hnone : length - offset = 0 := by omega
    rw [hnone, bytesAt, List.range'_zero, List.map_nil, parseFields]
    exact h

/-- The name is that of the fields, and the reads stay within the data. -/
theorem advertisementName_named (data name : Nat → UInt8) (length : Nat) (hsize : 1 ≤ nameSize) :
    Named length nameSize (localName (parseFields ((List.range length).map data)))
      (advertisementName data length ⟨name, []⟩ nameSize) := by
  have hstart : Named length nameSize [] ⟨TracedBuffer.put ⟨name, []⟩ 0 0, []⟩ := by
    refine ⟨?_, fun i hi => ?_, nofun⟩
    · rw [shown, List.take_nil, List.map_nil, List.nil_append]
      exact holds_puts ⟨name, []⟩ 0 [0]
    · obtain rfl := List.mem_singleton.mp hi
      exact hsize
  have hend := nameLoop_named data hsize 0 hstart
  rwa [nameAfter_nil, Nat.sub_zero, bytesAt, ← List.range_eq_range'] at hend

/-- On any bytes, the name that is shown is in the buffer with its terminator, only
    offsets of the bytes were read and only offsets of the buffer were written. -/
theorem advertisementName_correct (data name : Nat → UInt8) (length : Nat) (hsize : 1 ≤ nameSize) :
    Holds (advertisementName data length ⟨name, []⟩ nameSize).name.get 0
        (shown nameSize (localName (parseFields ((List.range length).map data))) ++ [0]) ∧
      (∀ i ∈ (advertisementName data length ⟨name, []⟩ nameSize).reads, i < length) ∧
      ∀ i ∈ (advertisementName data length ⟨name, []⟩ nameSize).name.written, i < nameSize := by
  have hnamed := advertisementName_named data name length hsize
  exact ⟨hnamed.name, hnamed.reads, hnamed.written⟩

/-- A shortened name in front of a complete one, in a buffer of 4 bytes. -/
theorem advertisementName_correct_two :
    Holds (advertisementName (fun i => [2, 8, 0x41, 5, 9, 0x42, 7, 0x43, 0x44].getD i 0) 9
      ⟨fun _ => 0xff, []⟩ 4).name.get 0 [0x42, 0x2e, 0x43, 0] := by
  have hname := (advertisementName_correct
    (fun i => [2, 8, 0x41, 5, 9, 0x42, 7, 0x43, 0x44].getD i 0) (fun _ => 0xff) 9
    (by decide : 1 ≤ 4)).1
  have hfields : parseFields ((List.range 9).map
      fun i => [2, 8, 0x41, 5, 9, 0x42, 7, 0x43, 0x44].getD i 0) =
        [⟨8, [0x41]⟩, ⟨9, [0x42, 7, 0x43, 0x44]⟩] := by
    simp [parseFields, List.range_succ]
  rw [hfields] at hname
  exact hname

end

end EspS31.BleScan
