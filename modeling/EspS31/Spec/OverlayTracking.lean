import EspS31.Spec.OverlayRecord

/-!
# The recorded set and the active set

Every command changes the manager first and the current file afterwards.  The names
in the file stay those of the active overlays when the recording cannot fail after
the manager has accepted: the lines fit the buffer, an overlay is recorded under the
name it is applied under, and a restore with a rejected line leaves nothing behind
that was recorded before.

## Key results

- `restoreLines_active`: the overlays that a restore activates
- `main_tidy`: the current file stays one that the utility can read back
- `main_tracks`: a command that meets the condition keeps the two sets equal
- `tracks_of_reaches`: so does every sequence of such commands
-/

namespace EspS31.Overlay

open CText

/-! ## The condition on a command -/

/-- The names in the current file. -/
def recordedNames (s : State) : List Text := (currentLines s).map lineName

/-- The recorded names are the active ones. -/
def Tracks (s : State) : Prop := ∀ n, n ∈ recordedNames s ↔ n ∈ s.active

/-- Reading and writing the current file succeeds. -/
structure FilesSucceed (env : Env) : Prop where
  read : env.currentRead = none
  write : env.currentWrite = none

/-- The lines of other names and the replacement fit the buffer. -/
def Room (s : State) (name : Text) (replacement : Option Text) : Prop :=
  (unlines ((currentLines s).filter (lineName · ≠ name) ++ replacement.toList)).length < CONFIG_LEN

/-- The name under which a line is applied. -/
def specName (line : Text) : Text := (strtok [' ', '\t'] line).headD []

/-- The lines before the first one that is rejected; `i` overlays were submitted
    before. -/
def acceptedLines (env : Env) : Nat → List Text → List Text
  | _, [] => []
  | i, line :: lines =>
    match applySpec (env.submit i) line with
    | .error _ => []
    | .ok _ => line :: acceptedLines env (i + 1) lines

/-- An accepted `apply` is recorded under its name alone; without room for it, the
    name was recorded before. -/
structure ApplyMeets (s : State) (name spec : Text) : Prop where
  lines : Room s name (some spec) → ∀ line ∈ strtok ['\n'] spec, lineName line = name
  room : ¬ Room s name (some spec) → name ∈ s.active

/-- A restore of `lines`.  Either all are accepted, recorded as applied, and nothing
    else is active; or one is rejected and what is active afterwards was so before. -/
def RestoreMeets (env : Env) (s : State) (lines : List Text) : Prop :=
  if acceptedLines env 0 lines = lines then
    (∀ line ∈ lines, lineName line = specName line) ∧
      (env.remove ≠ none → ∀ n ∈ s.active, n ∈ lines.map lineName)
  else if env.removeAfter = none then s.active = []
  else
    (∀ line ∈ acceptedLines env 0 lines, specName line ∈ s.active) ∧
      (env.remove = none → ∀ n ∈ s.active, n ∈ (acceptedLines env 0 lines).map specName)

/-- The condition under which a command keeps the two sets equal. -/
def Meets (env : Env) (s : State) : Command → Prop
  | .apply args => ∀ name rest spec persist active, args = name :: rest →
      buildSpec name true rest = .ok (spec, persist) →
      applySpec (env.submit 0) spec = .ok active → ApplyMeets s name spec
  | .remove args => ∀ name persist,
      (Command.remove args).action = some (.clear (some name), persist) → env.remove = none →
      Room s name none ∨ name ∉ s.active
  | .restore => ∀ config, readPersist CONFIG_LEN s.persist = .ok config →
      (env.remove = none ∨ env.remove = some .ENOENT) → RestoreMeets env s (strtok ['\n'] config)

/-! ## What a command can do to the two sets -/

section

variable {env : Env} {s : State}

/-- Recording with working files: the update fails and nothing is recorded, or its
    text becomes the current file. -/
private theorem record_files (hfiles : FilesSucceed env) (htidy : Tidy s) (persist : Bool)
    (update : Text → Except Errno Text) :
    (∃ e, update (currentText s) = .error e ∧ (record env s persist update).2 = s) ∨
      ∃ config, update (currentText s) = .ok config ∧
        (record env s persist update).2.current = some config ∧
        (record env s persist update).2.active = s.active := by
  simp only [record, hfiles.read, hfiles.write, htidy.readCurrent]
  cases hupdate : update (currentText s) with
  | error e => exact .inl ⟨e, rfl, rfl⟩
  | ok config =>
    refine .inr ⟨config, rfl, ?_⟩
    cases persist with
    | false => exact ⟨rfl, rfl⟩
    -- a failing file does not undo the current configuration
    | true =>
      simp only [if_true]
      cases writePersist env.persist config with
      | error e => exact ⟨rfl, rfl⟩
      | ok text => exact ⟨rfl, rfl⟩

/-- `update_config` fails exactly when the lines do not fit. -/
private theorem updateConfig_room (name : Text) (replacement : Option Text) :
    (¬ Room s name replacement ∧
        updateConfig CONFIG_LEN (currentText s) name replacement = .error .E2BIG) ∨
      (Room s name replacement ∧
        ∃ config, updateConfig CONFIG_LEN (currentText s) name replacement = .ok config) := by
  rw [updateConfig_eq (by decide)]
  by_cases hroom : Room s name replacement
  · exact .inr ⟨hroom, _, if_pos hroom⟩
  · exact .inl ⟨hroom, if_neg hroom⟩

/-- Recording a change of one name: without room the file stays, else it has the
    lines of the other names and those of the replacement. -/
private theorem record_updateConfig (hfiles : FilesSucceed env) (htidy : Tidy s) (persist : Bool)
    (name : Text) (replacement : Option Text) (hnul : ∀ spec ∈ replacement, '\x00' ∉ spec) :
    let s' := (record env s persist fun config =>
      updateConfig CONFIG_LEN config name replacement).2
    s'.active = s.active ∧ Tidy s' ∧
      ((¬ Room s name replacement ∧ currentLines s' = currentLines s) ∨
        (Room s name replacement ∧ currentLines s' = (currentLines s).filter (lineName · ≠ name) ++
          replacement.toList.flatMap (strtok ['\n']))) := by
  intro s'
  obtain ⟨e, herror, hs'⟩ | ⟨config, hconfig, hcurrent, hactive⟩ :=
    record_files hfiles htidy persist fun config => updateConfig CONFIG_LEN config name replacement
  -- there is no room: the state is as it was
  · have hs : s' = s := hs'
    rw [hs]
    refine ⟨rfl, htidy, .inl ⟨?_, rfl⟩⟩
    obtain ⟨hroom, -⟩ | ⟨-, config, hconfig⟩ := updateConfig_room (s := s) name replacement
    · exact hroom
    · exact nomatch herror.symm.trans hconfig
  -- there is, and the lines are updated
  · obtain ⟨htidy', hlines⟩ := updateConfig_update htidy hnul hconfig hcurrent
    refine ⟨hactive, htidy', .inr ⟨?_, hlines⟩⟩
    obtain ⟨-, herror⟩ | ⟨hroom, -⟩ := updateConfig_room (s := s) name replacement
    · exact nomatch hconfig.symm.trans herror
    · exact hroom

/-- The names without one. -/
private theorem mem_recordedNames_filter (lines : List Text) (name n : Text) :
    n ∈ (lines.filter (lineName · ≠ name)).map lineName ↔ n ∈ lines.map lineName ∧ n ≠ name := by
  simp only [List.mem_map, List.mem_filter, decide_eq_true_eq]
  constructor
  · rintro ⟨line, ⟨hline, hne⟩, rfl⟩
    exact ⟨⟨line, hline, rfl⟩, hne⟩
  · rintro ⟨⟨line, hline, rfl⟩, hne⟩
    exact ⟨line, ⟨hline, hne⟩, rfl⟩

/-! ## `apply` -/

/-- A specification starts with its name, followed by a blank if by anything. -/
private theorem buildSpec_shape {name spec spec' : Text} {persist persist' : Bool}
    {args : List Text}
    (h : buildSpec spec persist args = .ok (spec', persist'))
    (hspec : spec = name ∨ ∃ rest, spec = name ++ ' ' :: rest) :
    spec' = name ∨ ∃ rest, spec' = name ++ ' ' :: rest := by
  induction args generalizing spec persist with
  | nil =>
    obtain ⟨rfl, rfl⟩ := Prod.mk.inj (Except.ok.inj h)
    exact hspec
  | cons arg args ih =>
    rw [buildSpec] at h
    split at h
    · exact ih h hspec
    · split at h
      · cases h
      -- an argument is appended behind a blank
      · refine ih h (.inr ?_)
        obtain rfl | ⟨rest, rfl⟩ := hspec
        · exact ⟨arg, rfl⟩
        · exact ⟨rest ++ ' ' :: arg, by simp⟩

/-- `apply_spec` activates the first word of the specification. -/
private theorem applySpec_ok {submit : Text → List Text → Option Errno} {spec active : Text}
    (h : applySpec submit spec = .ok active) : active = specName spec := by
  rw [applySpec] at h
  split at h
  · exact nomatch h
  · split at h
    · exact nomatch h
    · next name tokens hwords =>
      split at h
      · exact nomatch h
      · split at h
        · exact nomatch h
        · rw [← Except.ok.inj h, specName, hwords, List.headD_cons]

/-- The name of an `apply` is the one its specification activates. -/
private theorem specName_of_shape {name spec : Text} (hname : validName name)
    (hspec : spec = name ∨ ∃ rest, spec = name ++ ' ' :: rest) : specName spec = name := by
  have hchars : ∀ c ∈ name, c ∉ [' ', '\t'] := by
    intro c hc hmem
    simp only [List.mem_cons, List.not_mem_nil, or_false] at hmem
    obtain rfl | rfl := hmem
    · exact not_mem_of_validName hname (by decide) hc
    · exact not_mem_of_validName hname (by decide) hc
  have hne : name ≠ [] := List.ne_nil_of_length_pos (validName_length hname).1
  obtain rfl | ⟨rest, rfl⟩ := hspec
  · rw [specName, strtok_singleton hchars hne, List.headD_cons]
  · rw [specName, strtok_append_cons rest hchars hne (by decide), List.headD_cons]

/-- A specification has a line. -/
private theorem strtok_ne_nil_of_shape {name spec : Text} (hname : validName name)
    (hspec : spec = name ∨ ∃ rest, spec = name ++ ' ' :: rest) : strtok ['\n'] spec ≠ [] := by
  have hne : name ≠ [] := List.ne_nil_of_length_pos (validName_length hname).1
  have hnl : '\n' ∉ name := not_mem_of_validName hname (by decide)
  obtain ⟨c, hc⟩ := List.exists_mem_of_ne_nil name hne
  have hmem : c ∈ spec := by
    obtain rfl | ⟨rest, rfl⟩ := hspec
    · exact hc
    · exact List.mem_append_left _ hc
  have hcn : c ∉ ['\n'] := fun h => hnl (List.mem_singleton.mp h ▸ hc)
  exact strtok_ne_nil hmem hcn

/-- Activating leaves the record. -/
private theorem currentLines_activate (active : Text) :
    currentLines (s.activate active) = currentLines s :=
  rfl

/-- A specification built from C strings is one. -/
private theorem nul_not_mem_spec {name spec : Text} {rest : List Text} {persist : Bool}
    (hargs : ∀ arg ∈ name :: rest, '\x00' ∉ arg)
    (hspec : buildSpec name true rest = .ok (spec, persist)) : '\x00' ∉ spec := by
  intro hmem
  obtain hc | hc | ⟨arg, harg, hc⟩ := (buildSpec_ok hspec).2.1 _ hmem
  · exact hargs name (List.mem_cons_self ..) hc
  · exact absurd hc (by decide)
  · exact hargs arg (List.mem_cons_of_mem _ harg) hc

/-- An apply that meets the condition keeps the record true. -/
private theorem apply_tracks (hfiles : FilesSucceed env) (htidy : Tidy s) {args : List Text}
    (hargs : ∀ arg ∈ args, '\x00' ∉ arg) :
    Tidy (apply env s args).2 ∧
      (Tracks s → Meets env s (.apply args) → Tracks (apply env s args).2) := by
  obtain ⟨code, -, heq⟩ | ⟨name, rest, spec, persist, active, rfl, hname, hspec, hactive, hrecord⟩ :=
    apply_cases env s args
  · rw [heq]
    exact ⟨htidy, fun htracks _ => htracks⟩
  · have hshape := buildSpec_shape hspec (.inl rfl)
    obtain rfl : active = name := (applySpec_ok hactive).trans (specName_of_shape hname hshape)
    have hnul := nul_not_mem_spec hargs hspec
    have htidy' : Tidy (s.activate active) := htidy.congr rfl
    have hrec := record_updateConfig hfiles htidy' persist active (some spec)
      (by simpa using hnul)
    simp only [currentLines_activate] at hrec
    rw [← hrecord] at hrec
    obtain ⟨hactive', htidy'', hlines⟩ := hrec
    refine ⟨htidy'', fun htracks hmeets => ?_⟩
    have hcond := hmeets active rest spec persist active rfl hspec hactive
    intro n
    rw [hactive', State.activate, List.mem_insert_iff, recordedNames]
    obtain ⟨hroom, hlines⟩ | ⟨hroom, hlines⟩ := hlines
    · -- Not recorded: the name was active before.
      rw [hlines]
      refine (htracks n).trans ⟨.inr, ?_⟩
      rintro (rfl | hn)
      · exact hcond.room hroom
      · exact hn
    · rw [hlines, Option.toList_some, List.flatMap_singleton, List.map_append, List.mem_append,
        mem_recordedNames_filter]
      -- all lines of the specification are about the one overlay
      have hnew : n ∈ (strtok ['\n'] spec).map lineName ↔ n = active := by
        rw [List.mem_map]
        constructor
        · rintro ⟨line, hline, rfl⟩
          exact hcond.lines hroom line hline
        · rintro rfl
          obtain ⟨line, hline⟩ := List.exists_mem_of_ne_nil _ (strtok_ne_nil_of_shape hname hshape)
          exact ⟨line, hline, hcond.lines hroom line hline⟩
      have hold : n ∈ (currentLines s).map lineName ↔ n ∈ s.active := htracks n
      rw [hnew, hold]
      by_cases hn : n = active
      · simp [hn]
      · simp [hn]

/-! ## `remove` -/

/-- Deactivating leaves the record. -/
private theorem currentLines_deactivate (name : Option Text) :
    currentLines (s.deactivate name) = currentLines s := by
  cases name <;> rfl

/-- A remove that meets the condition keeps the record true. -/
private theorem remove_tracks (hfiles : FilesSucceed env) (htidy : Tidy s) (args : List Text) :
    Tidy (remove env s args).2 ∧
      (Tracks s → Meets env s (.remove args) → Tracks (remove env s args).2) := by
  obtain ⟨code, -, heq⟩ | ⟨name, persist, haction, hremove, hrecord⟩ := remove_cases env s args
  · rw [heq]
    exact ⟨htidy, fun htracks _ => htracks⟩
  · have htidy' : Tidy (s.deactivate name) := htidy.congr (by cases name <;> rfl)
    cases name with
    | none =>
      -- `--all` records the empty text, which cannot fail.
      obtain ⟨e, herror, -⟩ | ⟨config, hconfig, hcurrent, hactive⟩ :=
        record_files hfiles htidy' persist (clearConfig none)
      · exact nomatch herror
      · rw [← hrecord] at hcurrent hactive
        obtain rfl := Except.ok.inj hconfig
        have htext : currentText (remove env s args).2 = [] := by
          rw [currentText, hcurrent, Option.getD_some]
        refine ⟨⟨by rw [htext]; decide, by rw [htext]; simp⟩, fun _ _ n => ?_⟩
        rw [recordedNames, currentLines, htext, hactive]
        simp [strtok, State.deactivate]
    | some name =>
      have hrec := record_updateConfig hfiles htidy' persist name none (by simp)
      simp only [Room, currentLines_deactivate] at hrec
      have hclear : clearConfig (some name) =
        fun config => updateConfig CONFIG_LEN config name none := rfl
      rw [← hclear, ← hrecord] at hrec
      obtain ⟨hactive', htidy'', hlines⟩ := hrec
      refine ⟨htidy'', fun htracks hmeets n => ?_⟩
      have hold : n ∈ (currentLines s).map lineName ↔ n ∈ s.active := htracks n
      rw [hactive', State.deactivate, recordedNames, List.mem_filter, decide_eq_true_eq]
      obtain ⟨hroom, hlines⟩ | ⟨-, hlines⟩ := hlines
      · -- Not recorded: the name was not active.
        have hinactive : name ∉ s.active := (hmeets name persist haction hremove).resolve_left hroom
        rw [hlines, hold]
        refine ⟨fun hn => ⟨hn, ?_⟩, And.left⟩
        rintro rfl
        exact hinactive hn
      · rw [hlines, Option.toList_none, List.flatMap_nil, List.append_nil,
          mem_recordedNames_filter, hold]

/-! ## `restore` -/

/-- What a restore activates: the accepted lines, all of them if it ends well. -/
theorem restoreLines_active (env : Env) (i : Nat) (lines : List Text) (s : State) :
    (restoreLines env i lines s).2.current = s.current ∧
      ((restoreLines env i lines s).1 = none ↔ acceptedLines env i lines = lines) ∧
      ∀ n, n ∈ (restoreLines env i lines s).2.active ↔
        n ∈ s.active ∨ n ∈ (acceptedLines env i lines).map specName := by
  induction lines generalizing i s with
  | nil => simp [restoreLines, acceptedLines]
  | cons line lines ih =>
    cases hspec : applySpec (env.submit i) line with
    -- the loop stops at the first overlay that is refused
    | error e => simp [restoreLines, acceptedLines, hspec]
    | ok name =>
      obtain rfl := applySpec_ok hspec
      obtain ⟨hcurrent, hend, hactive⟩ := ih (i + 1) (s.activate (specName line))
      simp only [restoreLines, acceptedLines, hspec, List.cons.injEq, true_and, List.map_cons,
        List.mem_cons]
      refine ⟨hcurrent, hend, fun n => ?_⟩
      rw [hactive, State.activate, List.mem_insert_iff]
      tauto

/-- One line keeps the text readable. -/
private theorem readPersistLine_tidy {size : Nat} {config config' line : Text}
    (h : readPersistLine size config line = .ok config')
    (hconfig : config.length < size ∧ '\x00' ∉ config) :
    config'.length < size ∧ '\x00' ∉ config' := by
  rw [readPersistLine] at h
  simp only at h
  split at h
  · exact Except.ok.inj h ▸ hconfig
  · split at h
    · exact Except.ok.inj h ▸ hconfig
    · split at h
      · cases h
      · next hroom =>
        simp only [not_or, not_lt] at hroom
        rw [← Except.ok.inj h]
        refine ⟨by simp only [List.length_append, List.length_singleton]; omega, ?_⟩
        intro hmem
        obtain hmem | hmem := List.mem_append.mp hmem
        · exact hconfig.2 hmem
        · obtain hmem | hmem := List.mem_append.mp hmem
          · -- The value is a part of a C string.
            have hcstr := (List.dropWhile_suffix _).mem (List.mem_of_mem_tail hmem)
            have hne := List.mem_takeWhile_imp (List.mem_of_mem_take hcstr)
            simp at hne
          · exact absurd hmem (by decide)

/-- What is read is short and without a terminator. -/
private theorem readPersist_tidy {file : Option Text} {config : Text}
    (h : readPersist CONFIG_LEN file = .ok config) :
    config.length < CONFIG_LEN ∧ '\x00' ∉ config := by
  cases file with
  | none => cases h
  | some text =>
    rw [readPersist] at h
    have hstart : ([] : Text).length < CONFIG_LEN ∧ '\x00' ∉ ([] : Text) := by simp [CONFIG_LEN]
    -- over the lines, from any tidy configuration
    generalize fgetsLines 512 text = lines at h
    generalize ([] : Text) = start at h hstart
    induction lines generalizing start with
    | nil =>
      obtain rfl := Except.ok.inj h
      exact hstart
    | cons line lines ih =>
      rw [List.foldlM_cons] at h
      cases hline : readPersistLine CONFIG_LEN start line with
      | error e =>
        rw [hline] at h
        cases h
      | ok next =>
        rw [hline] at h
        exact ih next h (readPersistLine_tidy hline hstart)

/-- `restore` either changes nothing or, with the manager emptied or found empty,
    goes through the persisted lines. -/
private theorem restore_cases (env : Env) (s : State) :
    (restore env s).2 = s ∨
      ∃ config s₁, readPersist CONFIG_LEN s.persist = .ok config ∧
        ((env.remove = none ∧ s₁ = s.deactivate none) ∨
          (env.remove = some .ENOENT ∧ s₁ = s)) ∧
        restore env s = restore.apply env config s₁ := by
  cases hread : readPersist CONFIG_LEN s.persist with
  | error e => exact .inl (by simp [restore, hread])
  | ok config =>
    cases hremove : env.remove with
    | none => exact .inr ⟨config, _, rfl, .inl ⟨rfl, rfl⟩, by simp [restore, hread, hremove]⟩
    | some e =>
      -- a missing overlay directory counts as empty
      by_cases he : e = .ENOENT
      · subst he
        exact .inr ⟨config, s, rfl, .inr ⟨rfl, rfl⟩, by simp [restore, hread, hremove]⟩
      · refine .inl ?_
        cases e <;> simp_all [restore]

/-- The end of a restore: the file is written after the last line, and everything is
    removed after a rejected one. -/
private theorem restore_apply_cases (hfiles : FilesSucceed env) (config : Text) (s : State) :
    let s₁ := (restoreLines env 0 (strtok ['\n'] config) s).2
    ((restoreLines env 0 (strtok ['\n'] config) s).1 = none ∧
        (restore.apply env config s).2 = { s₁ with current := some config }) ∨
      ((restoreLines env 0 (strtok ['\n'] config) s).1 ≠ none ∧
        (restore.apply env config s).2 =
          if env.removeAfter = none then s₁.deactivate none else s₁) := by
  intro s₁
  rw [restore.apply]
  cases hlines : restoreLines env 0 (strtok ['\n'] config) s with
  | mk result s₂ =>
    have hs₂ : s₁ = s₂ := congrArg Prod.snd hlines
    cases result with
    -- every line was applied, and the configuration is written
    | none => exact .inl ⟨rfl, by simp [hfiles.write, hs₂]⟩
    -- one was refused, and what had been applied is removed
    | some e =>
      refine .inr ⟨by simp, ?_⟩
      cases env.removeAfter with
      | none => simp [hs₂]
      | some e' => simp [hs₂]

/-- A restore that meets the condition keeps the record true. -/
private theorem restore_tracks (hfiles : FilesSucceed env) (htidy : Tidy s) :
    Tidy (restore env s).2 ∧
      (Tracks s → Meets env s .restore → Tracks (restore env s).2) := by
  obtain heq | ⟨config, s₁, hread, hremove, heq⟩ := restore_cases env s
  · rw [heq]
    exact ⟨htidy, fun htracks _ => htracks⟩
  have hcurrent₁ : s₁.current = s.current := by
    obtain ⟨-, rfl⟩ | ⟨-, rfl⟩ := hremove <;> rfl
  have hactive₁ : ∀ n, n ∈ s₁.active ↔ env.remove ≠ none ∧ n ∈ s.active := by
    intro n
    obtain ⟨hnone, rfl⟩ | ⟨hsome, rfl⟩ := hremove
    · simp [State.deactivate, hnone]
    · simp [hsome]
  -- the lines of the record that were applied are active, up to the first failure
  obtain ⟨hcurrent₂, hend, hactive₂⟩ := restoreLines_active env 0 (strtok ['\n'] config) s₁
  have hmeets' : Meets env s .restore → RestoreMeets env s (strtok ['\n'] config) := fun hmeets =>
    hmeets config hread (hremove.imp And.left And.left)
  rw [heq]
  obtain ⟨hnone, hs'⟩ | ⟨hsome, hs'⟩ := restore_apply_cases hfiles config s₁
  · rw [hs']
    refine ⟨readPersist_tidy hread |> fun h => ⟨h.1, h.2⟩, fun _ hmeets n => ?_⟩
    have hcond := hmeets' hmeets
    rw [RestoreMeets, if_pos (hend.mp hnone)] at hcond
    obtain ⟨hnames, hkept⟩ := hcond
    have hmap : (strtok ['\n'] config).map specName = (strtok ['\n'] config).map lineName :=
      List.map_congr_left fun line hline => (hnames line hline).symm
    show n ∈ (strtok ['\n'] config).map lineName ↔ _
    rw [hactive₂, hend.mp hnone, hmap, hactive₁]
    refine ⟨.inr, ?_⟩
    rintro (⟨hfound, hn⟩ | hn)
    · exact hkept hfound n hn
    · exact hn
  -- a line failed: the record stays, and what was applied is removed again if it can be
  · have hcurrent' : (restore.apply env config s₁).2.current = s.current := by
      rw [hs', ← hcurrent₁, ← hcurrent₂]
      split <;> rfl
    have hkept : recordedNames (restore.apply env config s₁).2 = recordedNames s := by
      rw [recordedNames, currentLines, currentText, hcurrent']
      rfl
    refine ⟨htidy.congr hcurrent', fun htracks hmeets n => ?_⟩
    have hcond := hmeets' hmeets
    rw [RestoreMeets, if_neg (fun h => hsome (hend.mpr h))] at hcond
    rw [hkept, htracks n, hs']
    by_cases hafter : env.removeAfter = none
    · rw [if_pos hafter] at hcond ⊢
      simp [hcond, State.deactivate]
    · rw [if_neg hafter] at hcond ⊢
      obtain ⟨haccepted, hgone⟩ := hcond
      rw [hactive₂, hactive₁]
      constructor
      · intro hn
        by_cases hfound : env.remove = none
        · exact .inr (hgone hfound n hn)
        · exact .inl ⟨hfound, hn⟩
      · rintro (⟨-, hn⟩ | hn)
        · exact hn
        · obtain ⟨line, hline, rfl⟩ := List.mem_map.mp hn
          exact haccepted line hline

/-! ## Commands and runs -/

/-- A command leaves a readable file, and keeps the recorded set equal to the active
    one if it meets the condition. -/
theorem main_tracks (hfiles : FilesSucceed env) (htidy : Tidy s) {cmd : Command}
    (hargs : cmd.CStrings) :
    Tidy (main env s cmd).2 ∧ (Tracks s → Meets env s cmd → Tracks (main env s cmd).2) := by
  cases cmd with
  | restore => exact restore_tracks hfiles htidy
  | apply args => exact apply_tracks hfiles htidy hargs
  | remove args => exact remove_tracks hfiles htidy args

end

/-- The states reached by commands that meet the condition, whatever their exit code. -/
inductive Reaches (s₀ : State) : State → Prop where
  | start : Reaches s₀ s₀
  | step {s env cmd} (h : Reaches s₀ s) (hfiles : FilesSucceed env) (hargs : cmd.CStrings)
    (hmeets : Meets env s cmd) : Reaches s₀ (main env s cmd).2

/-- The recorded names are the active ones after every command of such a run. -/
theorem tracks_of_reaches {s₀ s : State} (h : Reaches s₀ s) (htidy : Tidy s₀)
    (htracks : Tracks s₀) : Tracks s := by
  suffices hboth : Tidy s ∧ Tracks s from hboth.2
  induction h with
  | start => exact ⟨htidy, htracks⟩
  | step h hfiles hargs hmeets ih =>
    obtain ⟨htidy', hkeeps⟩ := main_tracks hfiles ih.1 hargs
    exact ⟨htidy', hkeeps ih.2 hmeets⟩

/-- An empty record of no overlays is true. -/
private theorem emptyState_tracks : Tidy emptyState ∧ Tracks emptyState :=
  ⟨⟨by decide, by simp [currentText, emptyState]⟩, fun n => by
    simp [recordedNames, currentLines, currentText, emptyState, strtok]⟩

/-- The example's files can be written. -/
private theorem accepting_files : FilesSucceed accepting := ⟨rfl, rfl⟩

/-- The state after `apply y`. -/
private theorem main_apply_y :
    (main accepting emptyState (.apply [['y']])).2 = recorded [['y']] (some [['y']]) [['y']] := by
  decide +kernel

/-- The example's apply meets the condition. -/
private theorem apply_y_meets : Meets accepting emptyState (.apply [['y']]) := by
  intro name rest spec persist active hargs hspec hactive
  obtain ⟨rfl, rfl⟩ := List.cons.inj hargs
  obtain ⟨rfl, rfl⟩ := Prod.mk.inj (Except.ok.inj hspec)
  have hroom : Room emptyState ['y'] (some ['y']) := by
    rw [Room]
    decide +kernel
  exact ⟨fun _ => by decide +kernel, fun hfull => absurd hroom hfull⟩

/-- One overlay is applied and restored. -/
theorem tracks_after_restore :
    Reaches emptyState (recorded [['y']] (some [['y']]) [['y']]) ∧
      Tracks (recorded [['y']] (some [['y']]) [['y']]) := by
  have happly : Reaches emptyState (recorded [['y']] (some [['y']]) [['y']]) :=
    main_apply_y ▸ .step .start accepting_files (by simp [Command.CStrings]) apply_y_meets
  -- the file holds one line, which is applied again
  have hmeets : Meets accepting (recorded [['y']] (some [['y']]) [['y']]) .restore := by
    intro config hread hremove
    have hconfig : readPersist CONFIG_LEN (recorded [['y']] (some [['y']]) [['y']]).persist =
      .ok ['y', '\n'] := by decide +kernel
    obtain rfl := Except.ok.inj (hread.symm.trans hconfig)
    rw [RestoreMeets, if_pos (by decide +kernel)]
    exact ⟨by decide +kernel, fun hne => absurd rfl hne⟩
  have hrestore : Reaches emptyState (main accepting (recorded [['y']] (some [['y']]) [['y']])
      .restore).2 := happly.step accepting_files trivial hmeets
  have hsame : (main accepting (recorded [['y']] (some [['y']]) [['y']]) .restore).2 =
    recorded [['y']] (some [['y']]) [['y']] := by decide +kernel
  rw [hsame] at hrestore
  exact ⟨hrestore, tracks_of_reaches hrestore emptyState_tracks.1 emptyState_tracks.2⟩

/-- The manager removes on request and rejects every overlay. -/
def rejecting : Env where
  submit := fun _ _ _ => some .EBUSY
  remove := none

/-- A restore whose overlay is rejected removes everything and leaves the name
    recorded. -/
theorem restore_rejected_recorded :
    FilesSucceed accepting ∧ FilesSucceed rejecting ∧ Tracks emptyState ∧
      (main accepting emptyState (.apply [['y']])).2 = recorded [['y']] (some [['y']]) [['y']] ∧
      (main rejecting (recorded [['y']] (some [['y']]) [['y']]) .restore).2 =
        recorded [['y']] (some [['y']]) [] ∧
      ¬ Tracks (recorded [['y']] (some [['y']]) []) := by
  refine ⟨accepting_files, ⟨rfl, rfl⟩, emptyState_tracks.2, main_apply_y, by decide +kernel, ?_⟩
  intro htracks
  have hmem : ['y'] ∈ recordedNames (recorded [['y']] (some [['y']]) []) := by decide +kernel
  exact absurd ((htracks _).mp hmem) List.not_mem_nil

end EspS31.Overlay
