import EspS31.Native.OverlayBuffer
import EspS31.Spec.OverlayRecord
import Mathlib.Data.List.Flatten

/-!
# `update_config` as the update of a map

A recorded configuration is a map from the first words of its lines to the lines.
`update_config` removes the entry of a name and adds the replacement, if there is
one, at the end.

## Key results

- `updateConfigIn_prints`: the buffers end with what `updateConfig` returns
- `updateConfig_map`: the whole function, its failure and its writes
-/

namespace EspS31.Overlay

open CText

/-! ## Printing into a buffer -/

/-- The buffer of `size` characters holds `kept` and a terminator, and nothing was
    written outside it. -/
structure Kept (size : Nat) (b : CharBuffer) (kept : Text) : Prop where
  read : b.read kept.length = kept
  terminated : b.get kept.length = '\x00'
  written : ∀ i ∈ b.written, i < size

/-- A text is appended over the terminator. -/
theorem Kept.puts {size : Nat} {b : CharBuffer} {kept : Text} (hread : b.read kept.length = kept)
    (hwritten : ∀ i ∈ b.written, i < size) (text : Text)
    (hroom : kept.length + text.length + 1 ≤ size) :
    Kept size (b.puts kept.length (text ++ ['\x00'])) (kept ++ text) := by
  have hall := TracedBuffer.read_puts b kept.length (text ++ ['\x00'])
  rw [List.length_append, List.length_singleton, ← Nat.add_assoc, TracedBuffer.read_add, hread,
    ← List.append_assoc] at hall
  -- what is read back is the kept text, the new text and the NUL
  obtain ⟨htext, hend⟩ := List.append_inj' hall rfl
  refine ⟨?_, ?_, ?_⟩
  · rw [List.length_append]
    exact htext
  · rw [List.length_append]
    exact (List.cons.inj hend).1
  · intro i hi
    rw [TracedBuffer.mem_written_puts, List.length_append, List.length_singleton] at hi
    obtain ⟨-, hlt⟩ | hold := hi
    · omega
    · exact hwritten i hold

/-- A text at the start of a buffer nothing was written to. -/
theorem Kept.fresh {size : Nat} {b : CharBuffer} (hwritten : b.written = []) (text : Text)
    (hroom : text.length + 1 ≤ size) : Kept size (b.puts 0 (text ++ ['\x00'])) text := by
  have hread : b.read ([] : Text).length = [] := rfl
  refine Kept.puts hread (fun i hi => ?_) text (by rwa [List.length_nil, Nat.zero_add])
  rw [hwritten] at hi
  exact nomatch hi

/-- `snprintf` of a text that fits. -/
theorem Kept.snprintf {size : Nat} {b : CharBuffer} {kept : Text} (h : Kept size b kept)
    (text : Text) (hroom : kept.length + text.length + 1 ≤ size) :
    Kept size (Overlay.snprintf b kept.length (size - kept.length) text).1 (kept ++ text) := by
  have hne : size - kept.length ≠ 0 := by omega
  have hwhole : text.take (size - kept.length - 1) = text := List.take_of_length_le (by omega)
  rw [Overlay.snprintf, if_neg hne, hwhole]
  exact .puts h.read h.written text hroom

/-- The string in a buffer. -/
theorem Kept.text {size : Nat} {b : CharBuffer} {kept : Text} (h : Kept size b kept)
    (hnul : '\x00' ∉ kept) (hlt : kept.length < size) : bufferText b size = kept := by
  obtain ⟨rest, hrest⟩ : ∃ rest, b.read size = kept ++ '\x00' :: rest := by
    obtain ⟨k, rfl⟩ : ∃ k, size = kept.length + (k + 1) := ⟨size - kept.length - 1, by omega⟩
    rw [TracedBuffer.read_add, h.read, List.range_succ_eq_map, List.map_cons, Nat.add_zero,
      h.terminated]
    exact ⟨_, rfl⟩
  rw [bufferText, hrest, cstr]
  refine takeWhile_append_cons rest (fun c hc => ?_) (by decide)
  exact decide_eq_true fun heq => hnul (heq ▸ hc)

/-! ## The loop -/

/-- The test of the source compares the first word with the name. -/
private theorem lineName_eq_iff (name line : Text) :
    name.length = strcspn [' ', '\t'] line ∧
        line.take (strcspn [' ', '\t'] line) = name.take (strcspn [' ', '\t'] line) ↔
      lineName line = name := by
  constructor
  · rintro ⟨hlen, htake⟩
    rw [lineName, htake, ← hlen, List.take_length]
  · rintro rfl
    have hle : strcspn [' ', '\t'] line ≤ line.length := (List.takeWhile_prefix _).length_le
    refine ⟨by rw [lineName, List.length_take, Nat.min_eq_left hle], ?_⟩
    rw [lineName, List.take_take, Nat.min_self]

/-- What a function leaves in the buffer of `size` characters when it should return
    `result`. -/
def Prints (size : Nat) (error : Option Errno) (b : CharBuffer) : Except Errno Text → Prop
  | .error e => error = some e ∧ ∀ i ∈ b.written, i < size
  | .ok text => error = none ∧ Kept size b text

/-- What is printed stays within the buffer. -/
theorem Prints.inside {size : Nat} {error : Option Errno} {b : CharBuffer}
    {result : Except Errno Text} (h : Prints size error b result) : ∀ i ∈ b.written, i < size := by
  cases result with
  | error e => exact h.2
  | ok text => exact h.2.written

/-- One line or the replacement, printed if it fits. -/
theorem Kept.printLine {size : Nat} {b : CharBuffer} {kept line : Text} (h : Kept size b kept)
    (hfits : ¬ kept.length + line.length + 2 > size) :
    Kept size (Overlay.snprintf b kept.length (size - kept.length) (line ++ ['\n'])).1
      (kept ++ (line ++ ['\n'])) := by
  apply h.snprintf
  rw [List.length_append, List.length_singleton]
  omega

/-- The loop does to the buffer what `updateConfigLine` does to the text. -/
private theorem keepLines_prints {size : Nat} {kept : Text} {b : CharBuffer} (name : Text)
    (lines : List Text) (h : Kept size b kept) :
    ∃ error b' used, keepLines size name lines b kept.length = (error, b', used) ∧
      Prints size error b' (lines.foldlM (updateConfigLine size name) kept) ∧
      ∀ kept', lines.foldlM (updateConfigLine size name) kept = .ok kept' →
        used = kept'.length := by
  induction lines generalizing kept b with
  | nil =>
    refine ⟨none, b, kept.length, rfl, ⟨rfl, h⟩, fun kept' hkept => ?_⟩
    rw [Except.ok.inj hkept]
  | cons line lines ih =>
    rw [List.foldlM_cons, updateConfigLine, keepLines]
    dsimp only
    by_cases hname : lineName line = name
    · -- the name itself: the line is left out
      rw [if_pos hname, if_pos ((lineName_eq_iff name line).mpr hname)]
      exact ih h
    · rw [if_neg hname, if_neg (mt (lineName_eq_iff name line).mp hname)]
      -- another name: the line is printed if there is room
      by_cases hfits : kept.length + line.length + 2 > size
      · rw [if_pos hfits, if_pos hfits]
        exact ⟨some .E2BIG, b, kept.length, rfl, ⟨rfl, h.written⟩, fun _ hkept => by cases hkept⟩
      · rw [if_neg hfits, if_neg hfits]
        have hused : kept.length + (line ++ ['\n']).length = (kept ++ (line ++ ['\n'])).length :=
          (List.length_append ..).symm
        have hloop := ih (h.printLine hfits)
        rw [← hused] at hloop
        exact hloop

/-! ## The function -/

section

variable {config old : CharBuffer}

/-- `update_config` leaves in its buffer what `updateConfig` returns of its text.
    Its own copy of the text must have room. -/
theorem updateConfigIn_prints (name : Text) (replacement : Option Text) {size : Nat}
    (hsize : 0 < size) (hwritten : config.written = [])
    (hold : old.written = []) (hroom : (bufferText config size).length < CONFIG_LEN)
    (hnul : '\x00' ∉ bufferText config size) :
    Prints size (updateConfigIn config old size name replacement).error
        (updateConfigIn config old size name replacement).config
        (updateConfig size (bufferText config size) name replacement) ∧
      ∀ i ∈ (updateConfigIn config old size name replacement).old.written, i < CONFIG_LEN := by
  -- the copy holds the text
  have hcopy : Kept CONFIG_LEN (strcpy old (bufferText config size)) (bufferText config size) :=
    .fresh hold _ hroom
  have hcopyText := hcopy.text hnul hroom
  have hempty : Kept size (config.put 0 '\x00') [] := .fresh hwritten [] hsize
  obtain ⟨error, b, used, hloop, hprints, hused⟩ :=
    keepLines_prints name (strtok ['\n'] (bufferText config size)) hempty
  rw [List.length_nil] at hloop
  unfold updateConfigIn updateConfig
  dsimp only
  rw [hcopyText, hloop]
  cases hfold : (strtok ['\n'] (bufferText config size)).foldlM (updateConfigLine size name) [] with
  | error e =>
    rw [hfold] at hprints
    obtain ⟨rfl, hinside⟩ := hprints
    exact ⟨⟨rfl, hinside⟩, hcopy.written⟩
  | ok kept =>
    rw [hfold] at hprints
    obtain ⟨rfl, hkept⟩ := hprints
    obtain rfl := hused kept hfold
    cases replacement with
    | none => exact ⟨⟨rfl, hkept⟩, hcopy.written⟩
    | some spec =>
      dsimp only
      by_cases hfits : kept.length + spec.length + 2 > size
      · rw [if_pos hfits, if_pos hfits]
        exact ⟨⟨rfl, hkept.written⟩, hcopy.written⟩
      · rw [if_neg hfits, if_neg hfits]
        exact ⟨⟨rfl, hkept.printLine hfits⟩, hcopy.written⟩

end

/-! ## As the update of a map -/

/-- The lines after an update. -/
def updatedLines (name : Text) (replacement : Option Text) (lines : List Text) : List Text :=
  lines.filter (lineName · ≠ name) ++ replacement.toList

/-- What is required of the replacement: it is one line, whose first word is the
    name. -/
def Replaces (name : Text) (replacement : Option Text) : Prop :=
  ∀ spec, replacement = some spec → lineName spec = name ∧ '\n' ∉ spec ∧ '\x00' ∉ spec

/-- The buffer of `size` characters holds these lines, with distinct first words. -/
structure HoldsLines (size : Nat) (b : CharBuffer) (lines : List Text) : Prop where
  text : bufferText b size = unlines lines
  fits : (unlines lines).length < size
  isLine : ∀ line ∈ lines, line ≠ [] ∧ '\n' ∉ line
  distinct : (lines.map lineName).Nodup

/-- The error, the text left behind and the places written. -/
structure MapUpdate (size : Nat) (name : Text) (replacement : Option Text) (lines : List Text)
    (r : UpdateResult) : Prop where
  ok : r.error = none → bufferText r.config size = unlines (updatedLines name replacement lines)
  tokens : r.error = none →
    strtok ['\n'] (bufferText r.config size) = updatedLines name replacement lines
  distinct : ((updatedLines name replacement lines).map lineName).Nodup
  error : ∀ e, r.error = some e → e = .E2BIG
  fails : r.error ≠ none ↔ size < (unlines (updatedLines name replacement lines)).length + 1
  removal : replacement = none → r.error = none
  inside : ∀ i ∈ r.config.written, i < size
  insideOld : ∀ i ∈ r.old.written, i < CONFIG_LEN

section

variable {name : Text} {replacement : Option Text} {lines : List Text} {config old : CharBuffer}

/-- The names stay distinct. -/
private theorem updatedLines_distinct (hdistinct : (lines.map lineName).Nodup)
    (hrep : Replaces name replacement) :
    ((updatedLines name replacement lines).map lineName).Nodup := by
  rw [updatedLines, List.map_append, List.nodup_append]
  refine ⟨?_, ?_, ?_⟩
  · exact hdistinct.sublist ((List.filter_sublist).map _)
  · cases replacement with
    | none => exact List.nodup_nil
    | some spec => exact List.nodup_cons.mpr ⟨List.not_mem_nil, List.nodup_nil⟩
  · intro word hword word' hword'
    -- the kept lines have other first words than the name
    obtain ⟨line, hline, rfl⟩ := List.mem_map.mp hword
    have hne : lineName line ≠ name := of_decide_eq_true (List.mem_filter.mp hline).2
    obtain ⟨spec, hspec, rfl⟩ := List.mem_map.mp hword'
    rw [(hrep spec (Option.mem_toList.mp hspec)).1]
    exact hne

/-- The lines after an update are lines. -/
private theorem updatedLines_isLine (hname : validName name) (hrep : Replaces name replacement)
    (hlines : ∀ line ∈ lines, line ≠ [] ∧ '\n' ∉ line) :
    ∀ line ∈ updatedLines name replacement lines, line ≠ [] ∧ '\n' ∉ line := by
  intro line hline
  rw [updatedLines, List.mem_append] at hline
  obtain hkept | hnew := hline
  · exact hlines line (List.mem_filter.mp hkept).1
  · obtain ⟨hword, hnl, -⟩ := hrep line (Option.mem_toList.mp hnew)
    refine ⟨?_, hnl⟩
    rintro rfl
    rw [← hword] at hname
    exact nomatch hname

/-- A NUL would come from an old line or from the replacement. -/
private theorem nul_not_mem_updatedLines (hrep : Replaces name replacement)
    (hnul : '\x00' ∉ unlines lines) :
    '\x00' ∉ unlines (updatedLines name replacement lines) := by
  intro hmem
  obtain ⟨line, hline, hc⟩ := List.mem_flatMap.mp hmem
  obtain hc | hc := List.mem_append.mp hc
  · obtain hline | hline := List.mem_append.mp hline
    · apply hnul
      exact List.mem_flatMap.mpr
        ⟨line, List.mem_of_mem_filter hline, List.mem_append_left _ hc⟩
    · exact (hrep line (Option.mem_toList.mp hline)).2.2 hc
  · exact absurd hc (by decide)

/-- A C string has no terminator in it. -/
private theorem nul_not_mem_cstr (s : Text) : '\x00' ∉ cstr s := by
  intro h
  have hkept := List.mem_takeWhile_imp h
  exact absurd hkept (by decide)

/-- Removing lines makes the text no longer. -/
private theorem length_unlines_removed_le (name : Text) (lines : List Text) :
    (unlines (updatedLines name none lines)).length ≤ (unlines lines).length := by
  rw [updatedLines, Option.toList_none, List.append_nil]
  exact (List.filter_sublist.flatMap _).length_le

/-- `update_config` is the update of a map if its copy of the text has room. -/
private theorem updateConfigIn_map {size : Nat} (hconfig : HoldsLines size config lines)
    (hname : validName name) (hrep : Replaces name replacement) (hwritten : config.written = [])
    (hold : old.written = []) (hcopy : size ≤ CONFIG_LEN) :
    MapUpdate size name replacement lines (updateConfigIn config old size name replacement) := by
  have hfits := hconfig.fits
  have hnul : '\x00' ∉ unlines lines := hconfig.text ▸ nul_not_mem_cstr _
  have hdistinct := updatedLines_distinct hconfig.distinct hrep
  have hsize : 0 < size := by omega
  have hroom : (bufferText config size).length < CONFIG_LEN := by
    rw [hconfig.text]
    omega
  obtain ⟨hprints, hcopied⟩ :=
    updateConfigIn_prints name replacement hsize hwritten hold hroom (nul_not_mem_cstr _)
  have hinside := hprints.inside
  rw [hconfig.text, updateConfig_eq hsize, strtok_unlines hconfig.isLine] at hprints
  change Prints _ _ _ (if (unlines (updatedLines name replacement lines)).length < size then
    .ok (unlines (updatedLines name replacement lines)) else .error .E2BIG) at hprints
  by_cases hlen : (unlines (updatedLines name replacement lines)).length < size
  · rw [if_pos hlen] at hprints
    obtain ⟨herror, hkept⟩ := hprints
    have htext := hkept.text (nul_not_mem_updatedLines hrep hnul) hlen
    refine ⟨fun _ => htext, fun _ => ?_, hdistinct, fun e he => ?_, ?_, fun _ => herror, hinside,
      hcopied⟩
    · exact (congrArg _ htext).trans
        (strtok_unlines (updatedLines_isLine hname hrep hconfig.isLine))
    · exact nomatch herror.symm.trans he
    · exact iff_of_false (not_not.mpr herror) (by omega)
  · rw [if_neg hlen] at hprints
    obtain ⟨herror, -⟩ := hprints
    have hfailed : (updateConfigIn config old size name replacement).error ≠ none :=
      fun hok => nomatch herror.symm.trans hok
    refine ⟨fun hok => absurd hok hfailed, fun hok => absurd hok hfailed, hdistinct,
      fun e he => ?_, ?_, ?_, hinside, hcopied⟩
    · exact Option.some.inj (he.symm.trans herror)
    · exact iff_of_true hfailed (by omega)
    · rintro rfl
      -- what is left of a text that fits fits
      have hle := length_unlines_removed_le name lines
      omega

end

/-- `update_config` on a buffer of `CONFIG_LEN` characters is the update of a map. -/
theorem updateConfig_map {name : Text} {replacement : Option Text} {lines : List Text}
    {config old : CharBuffer} (hconfig : HoldsLines CONFIG_LEN config lines)
    (hname : validName name) (hrep : Replaces name replacement) (hwritten : config.written = [])
    (hold : old.written = []) :
    MapUpdate CONFIG_LEN name replacement lines
      (updateConfigIn config old CONFIG_LEN name replacement) :=
  updateConfigIn_map hconfig hname hrep hwritten hold (Nat.le_refl _)

/-- A buffer with two lines, one with a name that is a prefix of the other's. -/
def twoLines : CharBuffer where
  get i := (unlines ["dac pin=1".toList, "dac2".toList]).getD i '\x00'
  written := []

/-- A name that is the beginning of another. -/
theorem updateConfig_map_prefix :
    MapUpdate CONFIG_LEN "dac".toList (some "dac pin=2".toList)
      ["dac pin=1".toList, "dac2".toList]
      (updateConfigIn twoLines ⟨fun _ => '\x00', []⟩ CONFIG_LEN "dac".toList
        (some "dac pin=2".toList)) := by
  have htext : bufferText twoLines CONFIG_LEN = unlines ["dac pin=1".toList, "dac2".toList] :=
    (⟨by decide, by decide, nofun⟩ : Kept CONFIG_LEN twoLines _).text (by decide) (by decide)
  refine updateConfig_map ⟨htext, by decide, by decide, by decide⟩ (by decide) ?_ rfl rfl
  intro spec hspec
  obtain rfl := Option.some.inj hspec
  decide

end EspS31.Overlay
