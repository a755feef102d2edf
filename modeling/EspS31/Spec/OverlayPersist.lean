import EspS31.Native.Overlay

/-!
# The round trip of the persistent file

`write_persist` prefixes each specification by `overlay.NAME=`, and `read_persist`
reads the lines back into a buffer of 512 characters and cuts them at a carriage
return.  A specification whose line does not fit the buffer, although it is short
enough to be applied and recorded, comes back cut.

## Key results

- `readPersistLine_value`: the value of a line, up to a carriage return
- `foldlM_fits`, `foldlM_cut`: a specification is read back whole or cut
- `readPersist_writePersist_iff`: when the recorded set survives the round trip
-/

namespace EspS31.Overlay

open CText

/-! ## Recorded texts -/

/-- A `ROUTE=GPIO` argument on one line. -/
def IsAssignment (t : Text) : Prop :=
  '=' ∈ t ∧ ' ' ∉ t ∧ '\n' ∉ t ∧ '\x00' ∉ t

/-- A specification: a name and its assignments, separated by blanks. -/
def IsSpec (spec : Text) : Prop :=
  ∃ (name : Text) (tokens : List Text), validName name ∧ (∀ t ∈ tokens, IsAssignment t) ∧
    spec = name ++ tokens.flatMap (' ' :: ·) ∧ spec.length ≤ 511

/-- The specifications of a text that the utility records. -/
structure Recordable (specs : List Text) : Prop where
  spec : ∀ spec ∈ specs, IsSpec spec
  distinct : (specs.map lineName).Nodup
  length_lt : (unlines specs).length < CONFIG_LEN

/-- The line of a specification in the persistent file, without its newline. -/
def persistLine (spec : Text) : Text := overlayKey ++ lineName spec ++ '=' :: spec

/-- The line fits the reader's buffer and is not cut at a carriage return. -/
def Fits (spec : Text) : Prop := (lineName spec).length + spec.length ≤ 502 ∧ '\r' ∉ spec

instance (spec : Text) : Decidable (Fits spec) := inferInstanceAs (Decidable (_ ∧ _))

/-! ## Names -/

/-- The characters of a valid name. -/
private theorem validName_char {name : Text} (h : validName name) {c : Char} (hc : c ∈ name) :
    c.isLower ∨ c.isDigit ∨ c = '-' ∨ c = '_' := by
  simp only [validName, Bool.and_eq_true, List.all_eq_true, Bool.or_eq_true, decide_eq_true_eq] at h
  have := h.2 c hc
  tauto

/-- Characters that no name contains. -/
theorem not_mem_of_validName {name : Text} (h : validName name) {c : Char}
    (hc : c ∈ ['\x00', '\t', '\n', '\r', ' ', '#', '=']) : c ∉ name := by
  intro hmem
  have := validName_char h hmem
  simp only [List.mem_cons, List.not_mem_nil, or_false] at hc
  rcases hc with rfl | rfl | rfl | rfl | rfl | rfl | rfl <;> exact absurd this (by decide)

/-- The length of a valid name. -/
theorem validName_length {name : Text} (h : validName name) : 0 < name.length ∧ name.length < 32 := by
  simp only [validName, NAME_LEN, Bool.and_eq_true, decide_eq_true_eq] at h
  obtain ⟨⟨hpos, hlt⟩, -⟩ := h
  exact ⟨Nat.pos_of_ne_zero hpos, of_decide_eq_true hlt⟩

/-- The name of a line that starts with it. -/
private theorem lineName_append {name rest : Text} (h : validName name)
    (hrest : rest = [] ∨ ∃ r, rest = ' ' :: r) : lineName (name ++ rest) = name := by
  have hname : ∀ c ∈ name, c ∉ [' ', '\t'] := by
    intro c hc hmem
    refine not_mem_of_validName h ?_ hc
    simp only [List.mem_cons, List.not_mem_nil, or_false] at hmem ⊢
    tauto
  obtain rfl | ⟨r, rfl⟩ := hrest
  · rw [List.append_nil, lineName, strcspn_of_forall hname, List.take_length]
  · rw [lineName, strcspn_append_cons r hname (by simp), List.take_left]

/-- What the rest of the proof needs of a specification. -/
theorem IsSpec.facts {spec : Text} (h : IsSpec spec) :
    validName (lineName spec) ∧ lineName spec <+: spec ∧ '\n' ∉ spec ∧ '\x00' ∉ spec := by
  obtain ⟨name, tokens, hname, htokens, rfl, -⟩ := h
  have hline : lineName (name ++ tokens.flatMap (' ' :: ·)) = name := by
    apply lineName_append hname
    cases tokens with
    | nil => exact .inl rfl
    | cons t ts => exact .inr ⟨_, rfl⟩
  -- neither character is in the name, a blank, or a token
  have hnot : ∀ c, (c = '\n' ∨ c = '\x00') → c ∉ name ++ tokens.flatMap (' ' :: ·) := by
    intro c hc hmem
    obtain hmem | hmem := List.mem_append.mp hmem
    · refine not_mem_of_validName hname ?_ hmem
      rcases hc with rfl | rfl <;> decide
    · obtain ⟨t, ht, hct⟩ := List.mem_flatMap.mp hmem
      obtain ⟨-, -, hnl, hnul⟩ := htokens t ht
      obtain rfl | hct := List.mem_cons.mp hct
      · rcases hc with hc | hc <;> exact absurd hc (by decide)
      · rcases hc with rfl | rfl
        · exact hnl hct
        · exact hnul hct
  rw [hline]
  exact ⟨hname, List.prefix_append .., hnot _ (.inl rfl), hnot _ (.inr rfl)⟩

/-- A specification is not empty. -/
theorem IsSpec.ne_nil {spec : Text} (h : IsSpec spec) : spec ≠ [] := by
  obtain ⟨hname, hpre, -, -⟩ := h.facts
  intro hnil
  have hpos := (validName_length hname).1
  have hle := hpre.length_le
  rw [hnil, List.length_nil] at hle
  rw [hnil] at hpos
  omega

/-! ## Writing -/

/-- What is written is a line for each specification. -/
private theorem foldlM_writePersistLine {lines : List Text} {file text : Text}
    (h : lines.foldlM writePersistLine file = .ok text) :
    text = file ++ unlines (lines.map persistLine) := by
  induction lines generalizing file with
  | nil =>
    obtain rfl := Except.ok.inj h
    simp
  | cons line lines ih =>
    simp only [List.foldlM_cons, writePersistLine] at h
    split at h
    · exact nomatch h
    · rw [ih h]
      simp [persistLine, lineName]

/-- The file that a successful `write_persist` leaves. -/
theorem writePersist_ok {os : PersistOps} {config file : Text}
    (h : writePersist os config = .ok file) :
    file = unlines ((strtok ['\n'] config).map persistLine) := by
  -- the directory is there or was made
  have hgo : writePersist.write os config = .ok file := by
    rw [writePersist] at h
    split at h
    · exact nomatch h
    · split at h
      · split at h
        · exact nomatch h
        · exact h
      · exact h
  rw [writePersist.write] at hgo
  split at hgo
  · exact nomatch hgo
  · split at hgo
    · exact nomatch hgo
    · next htext =>
      rw [foldlM_writePersistLine htext] at hgo
      split at hgo
      · exact nomatch hgo
      · exact nomatch hgo
      · exact (Except.ok.inj hgo).symm

/-- What is written is the file of the specifications. -/
private theorem writePersist_eq {os : PersistOps} {specs : List Text} {file : Text}
    (h : Recordable specs)
    (hwrite : writePersist os (unlines specs) = .ok file) :
    file = unlines (specs.map persistLine) := by
  have hlines : strtok ['\n'] (unlines specs) = specs :=
    strtok_unlines fun spec hs => ⟨(h.spec spec hs).ne_nil, (h.spec spec hs).facts.2.2.1⟩
  rw [writePersist_ok hwrite, hlines]

/-! ## Reading -/

/-- The value of a persisted line reaches up to a carriage return or newline. -/
theorem readPersistLine_value {size : Nat} {config name w : Text} (hname : validName name)
    (hw : '\x00' ∉ w) (hne : w.takeWhile (· ∉ ['\r', '\n']) ≠ [])
    (hsize : config.length + (w.takeWhile (· ∉ ['\r', '\n'])).length + 2 ≤ size) :
    readPersistLine size config (overlayKey ++ name ++ '=' :: w) =
      .ok (config ++ (w.takeWhile (· ∉ ['\r', '\n']) ++ ['\n'])) := by
  have hkey : ∀ c ∈ overlayKey ++ name, c ∉ ['\x00', '\r', '\n', '='] := by
    intro c hc hmem
    obtain hc | hc := List.mem_append.mp hc
    · have hdisjoint : ∀ c ∈ overlayKey, c ∉ ['\x00', '\r', '\n', '='] := by simp [overlayKey]
      exact hdisjoint c hc hmem
    · refine not_mem_of_validName hname ?_ hc
      simp only [List.mem_cons, List.not_mem_nil, or_false] at hmem ⊢
      tauto
  -- Nothing before the value ends the string, the line or the key.
  have hcstr : cstr (overlayKey ++ name ++ '=' :: w) = overlayKey ++ name ++ '=' :: w := by
    rw [cstr, List.takeWhile_eq_self_iff]
    intro c hc
    obtain hc | hc := List.mem_append.mp hc
    · have := hkey c hc
      simp only [List.mem_cons, not_or] at this
      simpa using this.1
    · obtain rfl | hc := List.mem_cons.mp hc
      · decide
      · have hnul : c ≠ '\x00' := fun heq => hw (heq ▸ hc)
        simpa using hnul
  have hcut : (overlayKey ++ name ++ '=' :: w).takeWhile (· ∉ ['\r', '\n']) =
      overlayKey ++ name ++ '=' :: w.takeWhile (· ∉ ['\r', '\n']) := by
    rw [List.takeWhile_append_of_pos, List.takeWhile_cons_of_pos (by decide)]
    intro c hc
    have := hkey c hc
    simp only [List.mem_cons, List.not_mem_nil, or_false, not_or] at this
    simp [this.2.1, this.2.2.1]
  have hnoeq : ∀ c ∈ overlayKey ++ name, decide (c ≠ '=') = true := by
    intro c hc
    have := hkey c hc
    simp only [List.mem_cons, List.not_mem_nil, or_false, not_or] at this
    simp [this.2.2.2]
  have hvalue : ∀ v : Text, ((overlayKey ++ name ++ '=' :: v).dropWhile (· ≠ '=')).tail = v := by
    intro v
    rw [List.dropWhile_append_of_pos hnoeq, List.dropWhile_cons_of_neg (by simp), List.tail_cons]
  -- what is before the sign is the key and the name
  have hname' : ∀ v : Text,
      ((overlayKey ++ name ++ '=' :: v).takeWhile (· ≠ '=')).drop 8 = name := by
    intro v
    rw [takeWhile_append_cons v hnoeq (by simp)]
    rfl
  simp only [readPersistLine, hcstr, take_strcspn, hcut, hvalue, hname']
  rw [if_neg, if_neg, if_neg]
  · simp only [hname, not_true_eq_false, false_or, not_or]
    exact ⟨hne, by omega⟩
  · simp only [not_or, not_not]
    exact ⟨by simp, by rw [List.append_assoc]; exact List.prefix_append ..⟩
  · simp [overlayKey]

/-- Whatever follows is appended. -/
private theorem foldlM_readPersistLine_append {size : Nat} {lines : List Text}
    {config result : Text}
    (h : lines.foldlM (readPersistLine size) config = .ok result) :
    ∃ rest, result = config ++ rest := by
  induction lines generalizing config with
  | nil =>
    obtain rfl := Except.ok.inj h
    exact ⟨[], (List.append_nil _).symm⟩
  | cons line lines ih =>
    rw [List.foldlM_cons] at h
    cases hline : readPersistLine size config line with
    | error e =>
      rw [hline] at h
      exact nomatch h
    | ok config' =>
      rw [hline] at h
      obtain ⟨rest, rfl⟩ := ih h
      -- a line is skipped, refused, or appended
      simp only [readPersistLine] at hline
      split at hline
      · obtain rfl := Except.ok.inj hline
        exact ⟨rest, rfl⟩
      · split at hline
        · obtain rfl := Except.ok.inj hline
          exact ⟨rest, rfl⟩
        · split at hline
          · exact nomatch hline
          · obtain rfl := Except.ok.inj hline
            exact ⟨_, List.append_assoc ..⟩

/-- An empty line is skipped. -/
private theorem readPersistLine_newline (size : Nat) (config : Text) :
    readPersistLine size config ['\n'] = .ok config := rfl

/-- Continuing after a line that has been read. -/
private theorem foldlM_cons_ok {size : Nat} {config config' line : Text} {lines : List Text}
    (h : readPersistLine size config line = .ok config') :
    (line :: lines).foldlM (readPersistLine size) config =
      lines.foldlM (readPersistLine size) config' := by
  rw [List.foldlM_cons, h]
  rfl

section

variable {size : Nat} {config spec rest : Text}

/-- The parts of a line. -/
theorem persistLine_eq (spec : Text) :
    persistLine spec = overlayKey ++ lineName spec ++ '=' :: spec := rfl

/-- The length of a line. -/
private theorem persistLine_length (spec : Text) :
    (persistLine spec).length = 9 + (lineName spec).length + spec.length := by
  simp only [persistLine_eq, overlayKey, List.length_append, List.length_cons, List.length_nil]
  omega

/-- A line has one newline, at its end. -/
private theorem newline_not_mem_persistLine (h : IsSpec spec) : '\n' ∉ persistLine spec := by
  obtain ⟨hname, -, hnl, -⟩ := h.facts
  have hkey : '\n' ∉ overlayKey := by decide
  have hline : '\n' ∉ lineName spec := not_mem_of_validName hname (by decide)
  simp [persistLine_eq, hkey, hline, hnl]

/-- The characters of a specification before its first carriage return or newline. -/
private theorem takeWhile_eq_spec (h : IsSpec spec) (hcr : '\r' ∉ spec) (tail : Text)
    (htail : tail = [] ∨ tail = ['\n']) :
    (spec ++ tail).takeWhile (· ∉ ['\r', '\n']) = spec := by
  obtain ⟨-, -, hnl, -⟩ := h.facts
  have hpass : ∀ c ∈ spec, decide (c ∉ ['\r', '\n']) = true := by
    intro c hc
    have hcr' : c ≠ '\r' := fun heq => hcr (heq ▸ hc)
    have hnl' : c ≠ '\n' := fun heq => hnl (heq ▸ hc)
    simp [hcr', hnl']
  obtain rfl | rfl := htail
  · rw [List.append_nil, List.takeWhile_eq_self_iff]
    exact hpass
  · exact takeWhile_append_cons [] hpass (by decide)

/-- A specification whose line fits is read back whole. -/
theorem foldlM_fits (h : IsSpec spec) (hfits : Fits spec)
    (hsize : config.length + spec.length + 2 ≤ size) :
    (fgetsLines 512 (persistLine spec ++ '\n' :: rest)).foldlM (readPersistLine size) config =
      (fgetsLines 512 rest).foldlM (readPersistLine size) (config ++ (spec ++ ['\n'])) := by
  obtain ⟨hlen, hcr⟩ := hfits
  obtain ⟨hname, -, hnl, hnul⟩ := h.facts
  -- the line read is the specification, with or without its newline
  have hread : ∀ tail, tail = [] ∨ tail = ['\n'] →
      readPersistLine size config (persistLine spec ++ tail) = .ok (config ++ (spec ++ ['\n'])) := by
    intro tail htail
    have hcut := takeWhile_eq_spec h hcr tail htail
    have hnul' : '\x00' ∉ spec ++ tail := by
      rcases htail with rfl | rfl <;> simp [hnul]
    have hvalue : readPersistLine size config (overlayKey ++ lineName spec ++ '=' :: (spec ++ tail)) =
        .ok (config ++ ((spec ++ tail).takeWhile (· ∉ ['\r', '\n']) ++ ['\n'])) :=
      readPersistLine_value hname hnul' (by rw [hcut]; exact h.ne_nil) (by rw [hcut]; exact hsize)
    rw [hcut] at hvalue
    rw [persistLine_eq, List.append_assoc, List.cons_append]
    exact hvalue
  have hplen := persistLine_length spec
  obtain hlt | heq : (persistLine spec).length < 511 ∨ (persistLine spec).length = 511 := by omega
  · rw [fgetsLines_line rest (newline_not_mem_persistLine h) (by omega),
      foldlM_cons_ok (hread ['\n'] (.inr rfl))]
  · -- The newline is left to the next call of `fgets`.
    have hne : persistLine spec ≠ [] := by
      intro hnil
      rw [hnil] at heq
      simp at heq
    have hfirst := hread [] (.inl rfl)
    rw [List.append_nil] at hfirst
    rw [fgetsLines_full _ (newline_not_mem_persistLine h) (by omega) hne, foldlM_cons_ok hfirst,
      show '\n' :: rest = [] ++ '\n' :: rest from rfl, fgetsLines_line rest (by simp) (by simp),
      List.nil_append, foldlM_cons_ok (readPersistLine_newline size _)]

/-- The first character of a specification belongs to its name. -/
theorem IsSpec.exists_cons (h : IsSpec spec) :
    ∃ c tail, spec = c :: tail ∧ c ∉ ['\r', '\n'] := by
  obtain ⟨hname, ⟨rest, hrest⟩, -, -⟩ := h.facts
  have hpos := (validName_length hname).1
  cases hline : lineName spec with
  | nil =>
    rw [hline] at hpos
    exact absurd hpos (by simp)
  | cons c tail =>
    refine ⟨c, tail ++ rest, by rw [← hrest, hline, List.cons_append], fun hc => ?_⟩
    refine not_mem_of_validName hname (c := c) ?_ (hline ▸ List.mem_cons_self ..)
    simp only [List.mem_cons, List.not_mem_nil, or_false] at hc ⊢
    tauto

/-- A chunk that begins a persisted line is read as its value. -/
private theorem foldlM_chunk {w value : Text} {lines : List Text} (h : IsSpec spec)
    (hnul : '\x00' ∉ w)
    (hvalue : w.takeWhile (· ∉ ['\r', '\n']) = value) (hne : value ≠ [])
    (hsize : config.length + value.length + 2 ≤ size) :
    ((overlayKey ++ lineName spec ++ '=' :: w) :: lines).foldlM (readPersistLine size) config =
      lines.foldlM (readPersistLine size) (config ++ (value ++ ['\n'])) := by
  subst hvalue
  exact foldlM_cons_ok (readPersistLine_value h.facts.1 hnul hne hsize)

/-- The value ends at a carriage return. -/
private theorem foldlM_cut_cr (h : IsSpec spec) (hcr : '\r' ∈ spec)
    (hlen : (persistLine spec).length ≤ 511) (hsize : config.length + spec.length + 2 ≤ size) :
    ∃ (value : Text) (lines : List Text), value ≠ spec ∧ '\n' ∉ value ∧
      (fgetsLines 512 (persistLine spec ++ '\n' :: rest)).foldlM (readPersistLine size) config =
        lines.foldlM (readPersistLine size) (config ++ (value ++ ['\n'])) := by
  obtain ⟨-, -, hnl, hnul⟩ := h.facts
  obtain ⟨c, tail, hcons, hc⟩ := h.exists_cons
  -- the part of the specification in front of the carriage return
  obtain ⟨u, v, huv, hu⟩ := List.eq_append_cons_of_mem hcr
  have hune : u ≠ [] := by
    rintro rfl
    rw [List.nil_append, hcons] at huv
    obtain ⟨rfl, -⟩ := List.cons.inj huv
    exact hc (by simp)
  have hnlu : '\n' ∉ u := fun hmem => hnl (huv ▸ List.mem_append_left _ hmem)
  have hlenu : u.length < spec.length := by
    rw [huv, List.length_append, List.length_cons]
    omega
  have hcut : ∀ t : Text, (spec ++ t).takeWhile (· ∉ ['\r', '\n']) = u := by
    intro t
    rw [huv, List.append_assoc, List.cons_append]
    refine takeWhile_append_cons _ (fun x hx => ?_) (by decide)
    have hcr' : x ≠ '\r' := fun heq => hu (heq ▸ hx)
    have hnl' : x ≠ '\n' := fun heq => hnlu (heq ▸ hx)
    simp [hcr', hnl']
  have hne : u ≠ spec := fun heq => by
    rw [heq] at hlenu
    omega
  -- the line and its newline fit into the buffer, or the newline is read by itself
  obtain hlt | heq : (persistLine spec).length < 511 ∨ (persistLine spec).length = 511 := by omega
  · refine ⟨u, fgetsLines 512 rest, hne, hnlu, ?_⟩
    rw [fgetsLines_line rest (newline_not_mem_persistLine h) (by omega), persistLine_eq,
      List.append_assoc, List.cons_append]
    exact foldlM_chunk h (by simp [hnul]) (hcut ['\n']) hune (by omega)
  · have hnil : persistLine spec ≠ [] := by simp [persistLine_eq, overlayKey]
    refine ⟨u, fgetsLines 512 ('\n' :: rest), hne, hnlu, ?_⟩
    rw [fgetsLines_full _ (newline_not_mem_persistLine h) (by omega) hnil, persistLine_eq]
    have hcut' := hcut []
    rw [List.append_nil] at hcut'
    exact foldlM_chunk h hnul hcut' hune (by omega)

/-- The value ends with the buffer. -/
private theorem foldlM_cut_long (h : IsSpec spec) (hlen : 511 < (persistLine spec).length)
    (hsize : config.length + spec.length + 2 ≤ size) :
    ∃ (value : Text) (lines : List Text), value ≠ spec ∧ '\n' ∉ value ∧
      (fgetsLines 512 (persistLine spec ++ '\n' :: rest)).foldlM (readPersistLine size) config =
        lines.foldlM (readPersistLine size) (config ++ (value ++ ['\n'])) := by
  obtain ⟨hname, -, hnl, hnul⟩ := h.facts
  obtain ⟨c, tail, hcons, hc⟩ := h.exists_cons
  have hnlen := (validName_length hname).2
  have hplen := persistLine_length spec
  -- What the buffer holds of the specification.
  set k := 502 - (lineName spec).length with hk
  have hchunk : (persistLine spec).take 511 = overlayKey ++ lineName spec ++ '=' :: spec.take k := by
    rw [persistLine_eq, List.take_append, List.take_of_length_le]
    · rw [show 511 - (overlayKey ++ lineName spec).length = k + 1 by
        rw [List.length_append, show overlayKey.length = 8 from rfl]; omega, List.take_succ_cons]
    · rw [List.length_append, show overlayKey.length = 8 from rfl]
      omega
  have hsplit : persistLine spec ++ '\n' :: rest =
      (persistLine spec).take 511 ++ ((persistLine spec).drop 511 ++ '\n' :: rest) := by
    rw [← List.append_assoc, List.take_append_drop]
  have hnl' : '\n' ∉ (persistLine spec).take 511 := fun hmem =>
    newline_not_mem_persistLine h (List.mem_of_mem_take hmem)
  have htake : ((persistLine spec).take 511).length = 511 := by
    rw [List.length_take]
    omega
  have hnil : (persistLine spec).take 511 ≠ [] := fun hnil => by simp [hnil] at htake
  -- the value is shorter than the specification
  have hvlen : ((spec.take k).takeWhile (· ∉ ['\r', '\n'])).length ≤ k :=
    ((List.takeWhile_prefix _).length_le).trans (List.length_take_le k spec)
  refine ⟨(spec.take k).takeWhile (· ∉ ['\r', '\n']),
    fgetsLines 512 ((persistLine spec).drop 511 ++ '\n' :: rest), ?_, ?_, ?_⟩
  · intro heq
    rw [heq] at hvlen
    omega
  · intro hmem
    have := List.mem_takeWhile_imp hmem
    simp at this
  · rw [hsplit, fgetsLines_full _ hnl' (by omega) hnil, hchunk]
    refine foldlM_chunk h (fun hmem => hnul (List.mem_of_mem_take hmem)) rfl ?_ ?_
    · rw [hcons, show k = (k - 1) + 1 by omega, List.take_succ_cons,
        List.takeWhile_cons_of_pos (by simpa using hc)]
      exact List.cons_ne_nil _ _
    · omega

/-- Any other one is read back cut. -/
theorem foldlM_cut (h : IsSpec spec) (hcut : ¬ Fits spec)
    (hsize : config.length + spec.length + 2 ≤ size) :
    ∃ (value : Text) (lines : List Text), value ≠ spec ∧ '\n' ∉ value ∧
      (fgetsLines 512 (persistLine spec ++ '\n' :: rest)).foldlM (readPersistLine size) config =
        lines.foldlM (readPersistLine size) (config ++ (value ++ ['\n'])) := by
  have hplen := persistLine_length spec
  by_cases hlen : (persistLine spec).length ≤ 511
  · refine foldlM_cut_cr h ?_ hlen hsize
    by_contra hcr
    exact hcut ⟨by omega, hcr⟩
  · exact foldlM_cut_long h (by omega) hsize

end

/-- Reading the lines of the specifications one after the other. -/
private theorem foldlM_specs_iff {size : Nat} {specs : List Text} (h : ∀ spec ∈ specs, IsSpec spec)
    (config : Text) (hsize : (config ++ unlines specs).length < size) :
    (fgetsLines 512 (unlines (specs.map persistLine))).foldlM (readPersistLine size) config =
        .ok (config ++ unlines specs) ↔ ∀ spec ∈ specs, Fits spec := by
  induction specs generalizing config with
  | nil => simp [fgetsLines, fgetsGo, pure, Except.pure]
  | cons spec specs ih =>
    have hspec := h spec (List.mem_cons_self ..)
    have hspecs : ∀ s ∈ specs, IsSpec s := fun s hs => h s (List.mem_cons_of_mem _ hs)
    rw [unlines_cons, List.length_append, List.length_append, List.length_cons] at hsize
    have hroom : config.length + spec.length + 2 ≤ size := by omega
    rw [List.map_cons, unlines_cons, List.forall_mem_cons]
    by_cases hfits : Fits spec
    -- it is read as it was written, and so are the others if they fit
    · have hnext := ih hspecs (config ++ (spec ++ ['\n'])) (by
        simp only [List.length_append, List.length_singleton]
        omega)
      have hconfig : config ++ unlines (spec :: specs) =
          config ++ (spec ++ ['\n']) ++ unlines specs := by simp
      rw [foldlM_fits hspec hfits hroom, hconfig, hnext]
      exact (and_iff_right hfits).symm
    · -- The next line differs from the specification, whatever is read after it.
      obtain ⟨value, lines, hne, hnl, hcut⟩ := foldlM_cut hspec hfits hroom
      refine iff_of_false (fun hread => ?_) fun hall => hfits hall.1
      rw [hcut] at hread
      obtain ⟨rest, hrest⟩ := foldlM_readPersistLine_append hread
      rw [unlines_cons, List.append_assoc, List.append_assoc] at hrest
      exact hne (line_inj hnl hspec.facts.2.2.1 (List.append_cancel_left hrest).symm)

/-- The recorded set is read back as it was written exactly when every line fits the
    reader's buffer and no specification has a carriage return. -/
theorem readPersist_writePersist_iff {os : PersistOps} {specs : List Text} {file : Text}
    (h : Recordable specs) (hwrite : writePersist os (unlines specs) = .ok file) :
    readPersist CONFIG_LEN (some file) = .ok (unlines specs) ↔ ∀ spec ∈ specs, Fits spec := by
  obtain rfl := writePersist_eq h hwrite
  rw [readPersist]
  exact foldlM_specs_iff h.spec [] h.length_lt

/-- The name `a` with the assignment `r=1` given `n` times. -/
def repeatedSpec (n : Nat) : Text := ['a'] ++ (List.replicate n ['r', '=', '1']).flatMap (' ' :: ·)

/-- The specifications of the examples can be recorded. -/
private theorem repeatedSpec_recordable {n : Nat} (hlen : (repeatedSpec n).length ≤ 511) :
    Recordable [repeatedSpec n] where
  spec := by
    intro spec hspec
    obtain rfl := List.mem_singleton.mp hspec
    refine ⟨['a'], List.replicate n ['r', '=', '1'], rfl, fun t ht => ?_, rfl, hlen⟩
    rw [List.eq_of_mem_replicate ht]
    exact ⟨by decide, by decide, by decide, by decide⟩
  distinct := by simp
  length_lt := by
    rw [unlines_cons, List.length_append, List.length_cons, unlines_nil, CONFIG_LEN]
    simp only [List.length_nil]
    omega

/-- A short specification, written and read. -/
theorem readPersist_writePersist_short :
    readPersist CONFIG_LEN (some (unlines [persistLine (repeatedSpec 2)])) =
      .ok (unlines [repeatedSpec 2]) :=
  (readPersist_writePersist_iff (repeatedSpec_recordable (by decide))
    (show writePersist {} (unlines [repeatedSpec 2]) = .ok (unlines [persistLine (repeatedSpec 2)])
      by decide +kernel)).mpr (by decide)

/-- A specification of 509 characters can be applied and recorded, and its line of
    519 characters is written but read back without its last 8. -/
theorem readPersist_writePersist_long :
    Recordable [repeatedSpec 127] ∧
      writePersist {} (unlines [repeatedSpec 127]) =
        .ok (unlines [persistLine (repeatedSpec 127)]) ∧
      readPersist CONFIG_LEN (some (unlines [persistLine (repeatedSpec 127)])) ≠
        .ok (unlines [repeatedSpec 127]) := by
  have hrecordable : Recordable [repeatedSpec 127] := repeatedSpec_recordable (by decide +kernel)
  refine ⟨hrecordable, by decide +kernel, fun hread => ?_⟩
  have hiff := foldlM_specs_iff hrecordable.spec [] hrecordable.length_lt
  rw [List.map_singleton, List.nil_append] at hiff
  rw [readPersist] at hread
  have hfits := hiff.mp hread _ (List.mem_singleton.mpr rfl)
  exact absurd hfits (by decide +kernel)

end EspS31.Overlay
