import Mathlib.Data.List.DropRight
import EspS31.Spec.OverlayPersist

/-!
# Recording the overlay set

What a successful command does to the recorded lines, as an update of a set, and
what reaches the persistent file over a sequence of commands.  A persistent command
writes out all recorded lines, those of earlier volatile commands included.

## Key results

- `updateConfig_eq`: the lines kept and the replacement, if they fit
- `main_success`: a successful command updates the lines and persists them or not
- `mem_updates_iff`: a line is recorded when the last command that touches it sets it
- `stores_run_iff`: what the persistent file holds after a sequence of commands
- `volatile_excluded_iff`: when it is what the persistent commands alone leave
-/

namespace EspS31.Overlay

open CText

/-! ## `update_config` -/

section

variable {size : Nat} {name config : Text}

/-- The lines are kept until the buffer is full. -/
private theorem foldlM_updateConfigLine (name : Text) (lines : List Text)
    (hconfig : config.length < size) :
    lines.foldlM (updateConfigLine size name) config =
      if (config ++ unlines (lines.filter (lineName · ≠ name))).length < size then
        .ok (config ++ unlines (lines.filter (lineName · ≠ name)))
      else .error .E2BIG := by
  induction lines generalizing config with
  | nil => simp [pure, Except.pure, hconfig]
  | cons line lines ih =>
    rw [List.foldlM_cons]
    -- the line of the name is left out, any other needs room for itself
    by_cases hname : lineName line = name
    · have hkeep : updateConfigLine size name config line = .ok config := by
        rw [updateConfigLine, if_pos hname]
      rw [hkeep, List.filter_cons_of_neg (by simp [hname])]
      exact ih hconfig
    · rw [List.filter_cons_of_pos (by simp [hname]), unlines_cons]
      by_cases hroom : config.length + line.length + 2 > size
      -- no room for this one, so none for all
      · have hfull : updateConfigLine size name config line = .error .E2BIG := by
          rw [updateConfigLine, if_neg hname, if_pos hroom]
        rw [hfull, if_neg (by simp only [List.length_append, List.length_cons]; omega)]
        rfl
      · have hadd : updateConfigLine size name config line = .ok (config ++ (line ++ ['\n'])) := by
          rw [updateConfigLine, if_neg hname, if_neg hroom]
        have hlen : (config ++ (line ++ ['\n'])).length < size := by
          simp only [List.length_append, List.length_singleton]
          omega
        rw [hadd]
        refine (ih hlen).trans ?_
        simp only [List.append_assoc, List.singleton_append]

/-- The lines of other names, in their order, and the replacement, if they fit. -/
theorem updateConfig_eq (hsize : 0 < size) (replacement : Option Text) :
    updateConfig size config name replacement =
      let kept := (strtok ['\n'] config).filter (lineName · ≠ name)
      if (unlines (kept ++ replacement.toList)).length < size then
        .ok (unlines (kept ++ replacement.toList))
      else .error .E2BIG := by
  have hnil : ([] : Text).length < size := hsize
  have hkept := foldlM_updateConfigLine name (strtok ['\n'] config) hnil
  rw [List.nil_append] at hkept
  rw [updateConfig, hkept]
  generalize (strtok ['\n'] config).filter (lineName · ≠ name) = kept
  cases replacement with
  -- nothing is added
  | none =>
    simp only [Option.toList_none, List.append_nil]
    by_cases hfits : (unlines kept).length < size
    · rw [if_pos hfits]
    · rw [if_neg hfits]
  | some spec =>
    simp only [Option.toList_some, unlines_append, unlines_cons, unlines_nil, List.length_append,
      List.length_cons, List.length_nil]
    by_cases hfits : (unlines kept).length < size
    -- the kept lines fit, and the two tests of the room for the new one agree
    · rw [if_pos hfits]
      by_cases hroom : (unlines kept).length + spec.length + 2 > size
      · simp only [if_pos hroom]
        rw [if_neg (by omega)]
      · simp only [if_neg hroom]
        rw [if_pos (by omega)]
    · rw [if_neg hfits]
      simp only
      rw [if_neg (by omega)]

end

/-! ## Commands as updates of the recorded lines -/

/-- What a command asks for. -/
inductive Action where
  | set (name spec : Text)
  | clear (name : Option Text)
deriving DecidableEq, Repr

/-- The lines recorded after an action. -/
def Action.update (lines : List Text) : Action → List Text
  | .set name spec => lines.filter (lineName · ≠ name) ++ strtok ['\n'] spec
  | .clear (some name) => lines.filter (lineName · ≠ name)
  | .clear none => []

/-- The action of a well-formed `apply` or `remove`, and whether it persists. -/
def Command.action : Command → Option (Action × Bool)
  | .apply (name :: rest) =>
    match buildSpec name true rest with
    | .ok (spec, persist) => some (.set name spec, persist)
    | .error _ => none
  | .remove [name] => some (.clear (if name = allFlag then none else some name), true)
  | .remove [name, _] => some (.clear (if name = allFlag then none else some name), false)
  | _ => none

/-- The arguments are C strings. -/
def Command.CStrings : Command → Prop
  | .apply args | .remove args => ∀ arg ∈ args, '\x00' ∉ arg
  | .restore => True

/-- The text of the current file; nothing without one. -/
def currentText (s : State) : Text := s.current.getD []

/-- The recorded lines. -/
def currentLines (s : State) : List Text := strtok ['\n'] (currentText s)

/-- The current file as the utility writes it. -/
structure Tidy (s : State) : Prop where
  length_lt : (currentText s).length < CONFIG_LEN
  nul : '\x00' ∉ currentText s

/-- A tidy file is read whole. -/
theorem Tidy.readCurrent {s : State} (h : Tidy s) :
    readCurrent CONFIG_LEN s.current = currentText s := by
  obtain ⟨hlen, hnul⟩ := h
  cases hfile : s.current with
  | none => simp [Overlay.readCurrent, currentText, hfile]
  | some text =>
    simp only [currentText, hfile, Option.getD_some] at hlen hnul ⊢
    rw [Overlay.readCurrent, List.take_of_length_le (by omega), cstr, List.takeWhile_eq_self_iff]
    intro c hc
    have hne : c ≠ '\x00' := fun heq => hnul (heq ▸ hc)
    simpa using hne

/-- A recording that succeeds. -/
private theorem record_success {env : Env} {s : State} {persist : Bool}
    {update : Text → Except Errno Text}
    (htidy : Tidy s) (h : (record env s persist update).1 = 0) :
    ∃ config, update (currentText s) = .ok config ∧
      (record env s persist update).2 =
        { s with
          current := some config
          persist := if persist then some (unlines ((strtok ['\n'] config).map persistLine))
            else s.persist } := by
  -- every step before the last must have gone well
  rw [record] at h ⊢
  split at h
  · exact nomatch h
  · rw [htidy.readCurrent] at h ⊢
    split at h
    · exact nomatch h
    · next config hconfig =>
      refine ⟨config, hconfig, ?_⟩
      split at h
      · exact nomatch h
      · cases persist with
        | false => rfl
        -- the file is the whole current configuration, written line by line
        | true =>
          simp only [if_true] at h ⊢
          split at h
          · exact nomatch h
          · next text htext =>
            rw [writePersist_ok htext]

/-- The lines of a text that `update_config` returns. -/
private theorem strtok_updated (lines : List Text) (hlines : ∀ l ∈ lines, l ≠ [] ∧ '\n' ∉ l)
    (replacement : Option Text) :
    strtok ['\n'] (unlines (lines ++ replacement.toList)) =
      lines ++ replacement.toList.flatMap (strtok ['\n']) := by
  induction lines with
  | nil =>
    cases replacement with
    -- the kept lines are used up; what is left is the replacement
    | none => rfl
    | some spec =>
      simp only [Option.toList_some, List.nil_append, unlines_cons, unlines_nil,
        List.flatMap_singleton]
      rw [strtok_append _ _ (List.mem_singleton.mpr rfl)]
      exact List.append_nil _
  | cons l ls ih =>
    obtain ⟨hne, hnl⟩ := hlines l (List.mem_cons_self ..)
    have hl : ∀ x ∈ l, x ∉ ['\n'] := fun x hx hmem => hnl (List.mem_singleton.mp hmem ▸ hx)
    rw [List.cons_append, unlines_cons, strtok_append_cons _ hl hne (List.mem_singleton.mpr rfl),
      ih fun l' hl' => hlines l' (List.mem_cons_of_mem _ hl'), List.cons_append]

/-- A line is not empty and has no newline. -/
private theorem currentLines_spec {s : State} {l : Text} (hl : l ∈ currentLines s) :
    (l ≠ [] ∧ '\n' ∉ l) ∧ ∀ c ∈ l, c ∈ currentText s := by
  obtain ⟨hne, hchars⟩ := strtok_spec hl
  exact ⟨⟨hne, fun hmem => (hchars _ hmem).1 (List.mem_singleton.mpr rfl)⟩,
    fun c hc => (hchars c hc).2⟩

/-- The characters of a specification come from the arguments. -/
theorem buildSpec_ok {spec spec' : Text} {persist persist' : Bool} {args : List Text}
    (h : buildSpec spec persist args = .ok (spec', persist')) :
    spec <+: spec' ∧ (∀ c ∈ spec', c ∈ spec ∨ c = ' ' ∨ ∃ arg ∈ args, c ∈ arg) ∧
      persist' = (persist && !args.contains volatileFlag) := by
  -- induction on the arguments, each of which is the flag or goes behind the text
  induction args generalizing spec persist with
  | nil =>
    obtain ⟨rfl, rfl⟩ := Prod.mk.inj (Except.ok.inj h)
    exact ⟨List.prefix_refl _, fun c hc => .inl hc, by simp⟩
  | cons arg args ih =>
    rw [buildSpec] at h
    split at h
    -- the flag: nothing is appended and the file is left alone
    · next hflag =>
      obtain ⟨hpre, hchars, hpersist⟩ := ih h
      refine ⟨hpre, fun c hc => ?_, by simp [hpersist, hflag]⟩
      obtain hc | hc | ⟨arg', harg', hc⟩ := hchars c hc
      · exact .inl hc
      · exact .inr (.inl hc)
      · exact .inr (.inr ⟨arg', List.mem_cons_of_mem _ harg', hc⟩)
    · next hflag =>
      split at h
      · exact nomatch h
      · obtain ⟨hpre, hchars, hpersist⟩ := ih h
        refine ⟨(List.prefix_append ..).trans hpre, fun c hc => ?_, ?_⟩
        · obtain hc | hc | ⟨arg', harg', hc⟩ := hchars c hc
          · obtain hc | hc := List.mem_append.mp hc
            · exact .inl hc
            · obtain rfl | hc := List.mem_cons.mp hc
              · exact .inr (.inl rfl)
              · exact .inr (.inr ⟨arg, List.mem_cons_self .., hc⟩)
          · exact .inr (.inl hc)
          · exact .inr (.inr ⟨arg', List.mem_cons_of_mem _ harg', hc⟩)
        · have hne : volatileFlag ≠ arg := fun heq => hflag heq.symm
          simp [hpersist, hne]

/-- A text that `update_config` returns is tidy and has the updated lines. -/
theorem updateConfig_update {s s' : State} {name config : Text} {replacement : Option Text}
    (htidy : Tidy s) (hnul : ∀ spec ∈ replacement, '\x00' ∉ spec)
    (hconfig : updateConfig CONFIG_LEN (currentText s) name replacement = .ok config)
    (hs' : s'.current = some config) :
    Tidy s' ∧ currentLines s' =
      (currentLines s).filter (lineName · ≠ name) ++
        replacement.toList.flatMap (strtok ['\n']) := by
  have htext : currentText s' = config := by rw [currentText, hs', Option.getD_some]
  have hlines : ∀ l ∈ (currentLines s).filter (lineName · ≠ name), l ≠ [] ∧ '\n' ∉ l :=
    fun l hl => (currentLines_spec (List.mem_of_mem_filter hl)).1
  rw [updateConfig_eq (by decide)] at hconfig
  simp only at hconfig
  split at hconfig
  · next hlen =>
    obtain rfl := Except.ok.inj hconfig
    refine ⟨⟨htext ▸ hlen, ?_⟩, ?_⟩
    · -- A NUL would come from a kept line or from the replacement.
      rw [htext]
      intro hmem
      obtain ⟨l, hl, hc⟩ := List.mem_flatMap.mp hmem
      obtain hc | hc := List.mem_append.mp hc
      · obtain hl | hl := List.mem_append.mp hl
        · exact htidy.nul ((currentLines_spec (List.mem_of_mem_filter hl)).2 _ hc)
        · exact hnul l (by simpa using hl) hc
      · exact absurd hc (by decide)
    · rw [currentLines, htext]
      exact strtok_updated _ hlines replacement
  · exact nomatch hconfig

/-! ## What a command can do -/

/-- `apply` either changes nothing or activates its overlay and records it. -/
theorem apply_cases (env : Env) (s : State) (args : List Text) :
    (∃ code, code ≠ 0 ∧ apply env s args = (code, s)) ∨
      ∃ name rest spec persist active, args = name :: rest ∧ validName name ∧
        buildSpec name true rest = .ok (spec, persist) ∧
        applySpec (env.submit 0) spec = .ok active ∧
        apply env s args = record env (s.activate active) persist fun config =>
          updateConfig CONFIG_LEN config name (some spec) := by
  cases args with
  | nil => exact .inl ⟨2, by decide, rfl⟩
  | cons name rest =>
    -- each check that fails leaves the state as it was
    by_cases hname : validName name
    · cases hspec : buildSpec name true rest with
      | error e => exact .inl ⟨1, by decide, by simp [apply, hname, hspec]⟩
      | ok built =>
        obtain ⟨spec, persist⟩ := built
        cases hactive : applySpec (env.submit 0) spec with
        | error e => exact .inl ⟨1, by decide, by simp [apply, hname, hspec, hactive]⟩
        | ok active =>
          exact .inr ⟨name, rest, spec, persist, active, rfl, hname, hspec, hactive,
            by simp [apply, hname, hspec, hactive]⟩
    · exact .inl ⟨2, by decide, by simp [apply, hname]⟩

/-- The update of the current file by `remove`. -/
def clearConfig (name : Option Text) (config : Text) : Except Errno Text :=
  match name with
  | some name => updateConfig CONFIG_LEN config name none
  | none => .ok []

/-- `remove` either changes nothing or clears the names and records that. -/
theorem remove_cases (env : Env) (s : State) (args : List Text) :
    (∃ code, code ≠ 0 ∧ remove env s args = (code, s)) ∨
      ∃ name persist, (Command.remove args).action = some (.clear name, persist) ∧
        env.remove = none ∧
        remove env s args = record env (s.deactivate name) persist (clearConfig name) := by
  -- what follows once the arguments are taken apart
  have hparsed : ∀ name persist, (∃ code, code ≠ 0 ∧ remove.parsed env s name persist = (code, s)) ∨
      (env.remove = none ∧ remove.parsed env s name persist =
        record env (s.deactivate (if name = allFlag then none else some name)) persist
          (clearConfig (if name = allFlag then none else some name))) := by
    intro name persist
    have hremove : ∀ name : Option Text,
        (∃ code, code ≠ 0 ∧ removeName env s persist name = (code, s)) ∨ (env.remove = none ∧
          removeName env s persist name =
            record env (s.deactivate name) persist (clearConfig name)) := by
      intro name
      cases hremove : env.remove with
      | some e => exact .inl ⟨1, by decide, by rw [removeName, hremove]⟩
      | none =>
        refine .inr ⟨rfl, ?_⟩
        rw [removeName, hremove]
        cases name <;> rfl
    by_cases hall : name = allFlag
    · simp only [remove.parsed, if_pos hall]
      exact hremove none
    · simp only [remove.parsed, if_neg hall]
      by_cases hname : validName name
      · simp only [hname, not_true_eq_false, if_false]
        exact hremove (some name)
      · exact .inl ⟨2, by decide, by simp [hname]⟩
  -- the number of arguments decides first
  match args with
  | [] => exact .inl ⟨2, by decide, rfl⟩
  | [name] =>
    refine (hparsed name true).imp_right fun hrecord => ?_
    exact ⟨_, true, rfl, hrecord⟩
  | [name, flag] =>
    by_cases hflag : flag = volatileFlag
    · simp only [remove, if_pos hflag]
      refine (hparsed name false).imp_right fun hrecord => ?_
      exact ⟨_, false, rfl, hrecord⟩
    · exact .inl ⟨2, by decide, by simp [remove, hflag]⟩
  | _ :: _ :: _ :: _ => exact .inl ⟨2, by decide, rfl⟩

/-! ## Successful commands -/

/-- The state after a successful command, as an update. -/
structure Updated (s : State) (a : Action) (persist : Bool) (s' : State) : Prop where
  tidy : Tidy s'
  lines : currentLines s' = a.update (currentLines s)
  persist : s'.persist =
    if persist then some (unlines ((currentLines s').map persistLine)) else s.persist

/-- Tidiness concerns the current file only. -/
theorem Tidy.congr {s s' : State} (h : Tidy s) (hcurrent : s'.current = s.current) : Tidy s' := by
  have htext : currentText s' = currentText s := by rw [currentText, currentText, hcurrent]
  exact ⟨htext ▸ h.length_lt, htext ▸ h.nul⟩

/-- Recording the lines of an action. -/
private theorem record_update {env : Env} {s s' : State} {persist : Bool} {name : Text}
    {replacement : Option Text} (htidy : Tidy s) (hnul : ∀ spec ∈ replacement, '\x00' ∉ spec)
    (h : record env s persist (fun config => updateConfig CONFIG_LEN config name replacement) =
      (0, s')) :
    Tidy s' ∧ currentLines s' = (currentLines s).filter (lineName · ≠ name) ++
        replacement.toList.flatMap (strtok ['\n']) ∧
      s'.persist =
        if persist then some (unlines ((currentLines s').map persistLine)) else s.persist := by
  obtain ⟨config, hconfig, hs'⟩ := record_success htidy (congrArg Prod.fst h)
  rw [h] at hs'
  simp only at hs'
  have hcurrent : s'.current = some config := by rw [hs']
  obtain ⟨htidy', hlines⟩ := updateConfig_update htidy hnul hconfig hcurrent
  refine ⟨htidy', hlines, ?_⟩
  have htext : currentText s' = config := by rw [currentText, hcurrent, Option.getD_some]
  rw [currentLines, htext, hs']

/-- An apply that succeeds updates the record by its action. -/
private theorem apply_success {env : Env} {s s' : State} {args : List Text} (htidy : Tidy s)
    (hargs : ∀ arg ∈ args, '\x00' ∉ arg) (h : apply env s args = (0, s')) :
    ∃ a persist, (Command.apply args).action = some (a, persist) ∧ Updated s a persist s' := by
  obtain ⟨code, hcode, heq⟩ | ⟨name, rest, spec, persist, active, rfl, -, hspec, -, hrecord⟩ :=
    apply_cases env s args
  · exact absurd (congrArg Prod.fst (heq.symm.trans h)) hcode
  · refine ⟨.set name spec, persist, by rw [Command.action, hspec], ?_⟩
    -- the specification is made of the arguments
    have hnul : '\x00' ∉ spec := by
      intro hmem
      obtain hc | hc | ⟨arg, harg, hc⟩ := (buildSpec_ok hspec).2.1 _ hmem
      · exact hargs name (List.mem_cons_self ..) hc
      · exact absurd hc (by decide)
      · exact hargs arg (List.mem_cons_of_mem _ harg) hc
    have htidy' : Tidy (s.activate active) := htidy.congr rfl
    obtain ⟨h₁, h₂, h₃⟩ := record_update htidy' (by simpa using hnul) (hrecord.symm.trans h)
    refine ⟨h₁, h₂.trans ?_, h₃⟩
    simp [Action.update, currentLines, currentText, State.activate]

/-- A remove that succeeds updates the record by its action. -/
private theorem remove_success {env : Env} {s s' : State} {args : List Text} (htidy : Tidy s)
    (h : remove env s args = (0, s')) :
    ∃ a persist, (Command.remove args).action = some (a, persist) ∧ Updated s a persist s' := by
  obtain ⟨code, hcode, heq⟩ | ⟨name, persist, haction, -, hrecord⟩ := remove_cases env s args
  · exact absurd (congrArg Prod.fst (heq.symm.trans h)) hcode
  · refine ⟨.clear name, persist, haction, ?_⟩
    have htidy' : Tidy (s.deactivate name) := htidy.congr (by cases name <;> rfl)
    rw [h] at hrecord
    cases name with
    -- `all` clears the configuration
    | none =>
      obtain ⟨config, hconfig, hs'⟩ := record_success htidy' (congrArg Prod.fst hrecord.symm)
      obtain rfl := Except.ok.inj hconfig
      rw [← hrecord] at hs'
      simp only at hs'
      rw [hs']
      exact ⟨⟨by simp [currentText, CONFIG_LEN], by simp [currentText]⟩, rfl, rfl⟩
    -- one name is filtered out of it
    | some name =>
      have hupdate : record env (s.deactivate (some name)) persist (fun config =>
          updateConfig CONFIG_LEN config name none) = (0, s') := hrecord.symm
      obtain ⟨h₁, h₂, h₃⟩ := record_update htidy' (by simp) hupdate
      refine ⟨h₁, h₂.trans ?_, h₃⟩
      simp [Action.update, currentLines, currentText, State.deactivate]

/-- A successful command updates the recorded lines, and writes them all to the
    persistent file unless it is volatile. -/
theorem main_success {env : Env} {s s' : State} {cmd : Command} (htidy : Tidy s)
    (hargs : cmd.CStrings) (hcmd : cmd ≠ .restore) (h : main env s cmd = (0, s')) :
    ∃ a persist, cmd.action = some (a, persist) ∧ Updated s a persist s' := by
  cases cmd with
  | restore => exact absurd rfl hcmd
  | apply args => exact apply_success htidy hargs h
  | remove args => exact remove_success htidy h

/-! ## Sequences of commands -/

/-- Successful runs: every command exits with 0. -/
inductive Succeeds (s₀ : State) : List (Env × Command) → State → Prop where
  | nil : Succeeds s₀ [] s₀
  | snoc {steps s s' env cmd} (h : Succeeds s₀ steps s) (hstep : main env s cmd = (0, s')) :
    Succeeds s₀ (steps ++ [(env, cmd)]) s'

/-- The actions of the commands, each with whether it persists. -/
def actions (steps : List (Env × Command)) : List (Action × Bool) :=
  steps.filterMap fun step => step.2.action

/-- The part of a sequence that ends with its last persistent action. -/
def persistedPart (acts : List (Action × Bool)) : List (Action × Bool) :=
  acts.rdropWhile fun a => !a.2

/-- The lines recorded after a sequence of actions. -/
def updates (lines : List Text) (acts : List (Action × Bool)) : List Text :=
  (acts.map Prod.fst).foldl Action.update lines

/-- One step more is one action more. -/
private theorem actions_snoc {steps : List (Env × Command)} {env : Env} {cmd : Command}
    {a : Action × Bool} (h : cmd.action = some a) :
    actions (steps ++ [(env, cmd)]) = actions steps ++ [a] := by
  simp [actions, List.filterMap_append, h]

/-- The current file after a successful run has the lines of all its actions, the
    persistent file those of the actions up to the last persistent one. -/
theorem Succeeds.updates {s₀ s : State} {steps : List (Env × Command)} (h : Succeeds s₀ steps s)
    (htidy : Tidy s₀) (hcmds : ∀ step ∈ steps, step.2.CStrings ∧ step.2 ≠ .restore) :
    Tidy s ∧ currentLines s = updates (currentLines s₀) (actions steps) ∧
      s.persist = if persistedPart (actions steps) = [] then s₀.persist
        else some (unlines ((Overlay.updates (currentLines s₀)
          (persistedPart (actions steps))).map persistLine)) := by
  induction h with
  | nil => exact ⟨htidy, rfl, rfl⟩
  -- the last command updates what the others have left
  | @snoc steps s s' env cmd h hstep ih =>
    obtain ⟨htidy', hlines, hpersist⟩ := ih fun step hs => hcmds step (List.mem_append_left _ hs)
    obtain ⟨hargs, hcmd⟩ := hcmds (env, cmd) (List.mem_append_right _ (List.mem_singleton.mpr rfl))
    obtain ⟨a, persist, haction, hupdated⟩ := main_success htidy' hargs hcmd hstep
    have hlines' : currentLines s' = Overlay.updates (currentLines s₀) (actions steps ++ [(a, persist)]) := by
      rw [hupdated.lines, hlines]
      simp [Overlay.updates]
    rw [actions_snoc haction]
    refine ⟨hupdated.tidy, hlines', ?_⟩
    -- the file holds what the last persistent command saw
    rw [hupdated.persist, persistedPart]
    cases persist with
    | true =>
      rw [List.rdropWhile_concat_neg _ _ _ (by simp), if_pos rfl, if_neg (by simp), hlines']
    | false =>
      rw [List.rdropWhile_concat_pos _ _ _ (by simp), if_neg (by simp), hpersist, persistedPart]

/-! ## The last command that touches a line -/

/-- Whether an action sets a line, clears it or does not touch it. -/
def Action.touch (line : Text) : Action → Option Bool
  | .set name spec =>
    if line ∈ strtok ['\n'] spec then some true
    else if lineName line = name then some false else none
  | .clear (some name) => if lineName line = name then some false else none
  | .clear none => some false

/-- What the last action that touches a line does. -/
def lastTouch (line : Text) : List (Action × Bool) → Option Bool
  | [] => none
  | a :: acts => (lastTouch line acts).or (a.1.touch line)

/-- The lines after an action: what it puts, and what it does not touch. -/
private theorem mem_update_iff (lines : List Text) (a : Action) (line : Text) :
    line ∈ a.update lines ↔
      a.touch line = some true ∨ (a.touch line = none ∧ line ∈ lines) := by
  cases a with
  | set name spec =>
    simp only [Action.update, Action.touch, List.mem_append, List.mem_filter, decide_eq_true_eq]
    by_cases hspec : line ∈ strtok ['\n'] spec
    · simp [hspec]
    · by_cases hname : lineName line = name <;> simp [hspec, hname]
  | clear name =>
    cases name with
    | none => simp [Action.update, Action.touch]
    | some name =>
      simp only [Action.update, Action.touch, List.mem_filter, decide_eq_true_eq]
      by_cases hname : lineName line = name <;> simp [hname]

/-- A line is recorded when the last action that touches it sets it. -/
theorem mem_updates_iff (lines : List Text) (acts : List (Action × Bool)) (line : Text) :
    line ∈ updates lines acts ↔
      lastTouch line acts = some true ∨ (lastTouch line acts = none ∧ line ∈ lines) := by
  induction acts generalizing lines with
  | nil => simp [updates, lastTouch]
  | cons a acts ih =>
    have hcons : updates lines (a :: acts) = updates (a.1.update lines) acts := rfl
    rw [hcons, ih, mem_update_iff, lastTouch]
    cases lastTouch line acts with
    | none => simp
    | some b => simp

/-! ## The persistent file -/

/-- The persistent file has the line of a specification. -/
def Stores (file : Option Text) (spec : Text) : Prop :=
  persistLine spec ∈ strtok ['\n'] (file.getD [])

/-- The line of a specification determines it: its part before the first blank is
    `overlay.NAME=NAME`. -/
private theorem persistLine_injective : Function.Injective persistLine := by
  intro l l' h
  -- up to its first blank a stored line is the name twice, so the name can be read off it
  have hword : ∀ l : Text, (lineName l ++ '=' :: l).takeWhile (· ∉ [' ', '\t']) =
      lineName l ++ '=' :: lineName l := by
    intro l
    have hname : lineName l = l.takeWhile (· ∉ [' ', '\t']) := take_strcspn _ l
    rw [List.takeWhile_append_of_pos, List.takeWhile_cons_of_pos (by decide), ← hname]
    intro c hc
    rw [hname] at hc
    simpa using List.mem_takeWhile_imp hc
  rw [persistLine_eq, persistLine_eq, List.append_assoc, List.append_assoc] at h
  have hrest := List.append_cancel_left h
  have hwords := congrArg (List.takeWhile (· ∉ [' ', '\t'])) hrest
  rw [hword, hword] at hwords
  have hlen := congrArg List.length hwords
  simp only [List.length_append, List.length_cons] at hlen
  obtain ⟨hname, -⟩ := List.append_inj hwords (by omega)
  rw [hname] at hrest
  exact (List.cons.inj (List.append_cancel_left hrest)).2

/-- What the persistent file holds when it was written from some lines. -/
private theorem stores_iff {lines : List Text} (hlines : ∀ l ∈ lines, '\n' ∉ l) (spec : Text) :
    Stores (some (unlines (lines.map persistLine))) spec ↔ spec ∈ lines := by
  rw [Stores, Option.getD_some, strtok_unlines, List.mem_map]
  · constructor
    · rintro ⟨l, hl, heq⟩
      exact persistLine_injective heq ▸ hl
    · intro hspec
      exact ⟨spec, hspec, rfl⟩
  · intro l hl
    obtain ⟨l, hmem, rfl⟩ := List.mem_map.mp hl
    have hkey : '\n' ∉ overlayKey := by decide
    have hname : '\n' ∉ lineName l := fun h => hlines l hmem (List.mem_of_mem_take h)
    exact ⟨by simp [persistLine_eq], by simp [persistLine_eq, hkey, hname, hlines l hmem]⟩

/-- No line has a newline after any actions. -/
private theorem newline_not_mem_updates {lines : List Text} (hlines : ∀ l ∈ lines, '\n' ∉ l)
    (acts : List (Action × Bool)) : ∀ l ∈ updates lines acts, '\n' ∉ l := by
  induction acts generalizing lines with
  | nil => exact hlines
  | cons a acts ih =>
    -- one update brings in tokens only
    suffices hupdate : ∀ l ∈ a.1.update lines, '\n' ∉ l from ih hupdate
    intro l hl
    have htoken : ∀ spec : Text, l ∈ strtok ['\n'] spec → '\n' ∉ l := fun spec hl hmem =>
      ((strtok_spec hl).2 _ hmem).1 (List.mem_singleton.mpr rfl)
    cases haction : a.1 with
    | set name spec =>
      rw [haction, Action.update] at hl
      obtain hl | hl := List.mem_append.mp hl
      · exact hlines l (List.mem_of_mem_filter hl)
      · exact htoken spec hl
    | clear name =>
      rw [haction] at hl
      cases name with
      | none => exact absurd hl (List.not_mem_nil)
      | some name => exact hlines l (List.mem_of_mem_filter hl)

/-- Neither file records anything. -/
structure Empty (s : State) : Prop where
  current : s.current.getD [] = []
  persist : s.persist.getD [] = []

/-- After a run from empty files the persistent file holds the lines that the last
    action touching them, up to the last persistent one, sets. -/
theorem stores_run_iff {s₀ s : State} {steps : List (Env × Command)} (h : Succeeds s₀ steps s)
    (hempty : Empty s₀) (hcmds : ∀ step ∈ steps, step.2.CStrings ∧ step.2 ≠ .restore)
    (spec : Text) :
    Stores s.persist spec ↔ lastTouch spec (persistedPart (actions steps)) = some true := by
  have hlines₀ : currentLines s₀ = [] := by
    rw [currentLines, currentText, hempty.current]
    rfl
  have htidy : Tidy s₀ := by
    constructor <;> rw [currentText, hempty.current]
    · decide
    · simp
  obtain ⟨-, -, hpersist⟩ := h.updates htidy hcmds
  rw [hpersist]
  -- no command has written the file
  by_cases hnone : persistedPart (actions steps) = []
  · rw [if_pos hnone, hnone, Stores, hempty.persist]
    simp [strtok, lastTouch]
  · rw [if_neg hnone, hlines₀, stores_iff (newline_not_mem_updates (by simp) _), mem_updates_iff]
    simp

/-- Actions that are all recorded are their own recorded part. -/
private theorem persistedPart_filter (acts : List (Action × Bool)) :
    persistedPart (acts.filter fun a => a.2) = acts.filter fun a => a.2 := by
  rw [persistedPart, List.rdropWhile_eq_self_iff]
  intro hne
  have := (List.mem_filter.mp (List.getLast_mem hne)).2
  simpa using this

/-- The command is not volatile. -/
def Command.persists (cmd : Command) : Bool :=
  match cmd.action with
  | some (_, persist) => persist
  | none => false

/-- The actions of the recorded steps. -/
private theorem actions_filter (steps : List (Env × Command)) :
    actions (steps.filter fun step => step.2.persists) =
      (actions steps).filter fun a => a.2 := by
  induction steps with
  | nil => rfl
  | cons step steps ih =>
    cases haction : step.2.action with
    | none =>
      have hpersists : step.2.persists = false := by rw [Command.persists, haction]
      rw [List.filter_cons_of_neg (by simp [hpersists]), ih]
      simp [actions, haction]
    | some a =>
      have hpersists : step.2.persists = a.2 := by rw [Command.persists, haction]
      have hactions : actions (step :: steps) = a :: actions steps := by simp [actions, haction]
      rw [hactions]
      by_cases ha : a.2
      · rw [List.filter_cons_of_pos (by simp [hpersists, ha]), List.filter_cons_of_pos ha, ← ih]
        simp [actions, haction]
      · rw [List.filter_cons_of_neg (by simp [hpersists, ha]), List.filter_cons_of_neg ha, ih]

/-- The persistent file is what the persistent commands alone would have left
    exactly when, for every line, the last command that touches it up to the last
    persistent one sets it if and only if the last persistent command that touches it
    does. -/
theorem volatile_excluded_iff {s₀ s s' : State} {steps : List (Env × Command)}
    (h : Succeeds s₀ steps s)
    (h' : Succeeds s₀ (steps.filter fun step => step.2.persists) s') (hempty : Empty s₀)
    (hcmds : ∀ step ∈ steps, step.2.CStrings ∧ step.2 ≠ .restore) :
    (∀ spec, Stores s.persist spec ↔ Stores s'.persist spec) ↔
      ∀ line, lastTouch line (persistedPart (actions steps)) = some true ↔
        lastTouch line ((actions steps).filter fun a => a.2) = some true := by
  have hcmds' : ∀ step ∈ steps.filter fun step => step.2.persists,
      step.2.CStrings ∧ step.2 ≠ .restore := fun step hs => hcmds step (List.mem_of_mem_filter hs)
  have hfull := stores_run_iff h hempty hcmds
  have hpersistent := stores_run_iff h' hempty hcmds'
  simp only [actions_filter, persistedPart_filter] at hpersistent
  simp only [hfull, hpersistent]

/-- The manager and the file system accept everything. -/
def accepting : Env where
  submit := fun _ _ _ => none
  remove := none

/-- Nothing is recorded or active. -/
def emptyState : State := ⟨none, none, []⟩

/-- The state after recording some one-word lines, of which some have persisted. -/
def recorded (lines : List Text) (persisted : Option (List Text)) (active : List Text) : State :=
  ⟨some (unlines lines), persisted.map fun ls => unlines (ls.map persistLine), active⟩

/-- A persistent command and then a volatile one. -/
def volatileLast : List (Env × Command) :=
  [(accepting, .apply [['y']]), (accepting, .apply [['x'], volatileFlag])]

/-- A volatile command after the last persistent one stays out of the file. -/
theorem volatile_excluded_last :
    Succeeds emptyState volatileLast (recorded [['y'], ['x']] (some [['y']]) [['x'], ['y']]) ∧
      Succeeds emptyState (volatileLast.filter fun step => step.2.persists)
        (recorded [['y']] (some [['y']]) [['y']]) ∧
      ∀ spec, Stores (recorded [['y'], ['x']] (some [['y']]) [['x'], ['y']]).persist spec ↔
        Stores (recorded [['y']] (some [['y']]) [['y']]).persist spec := by
  have hfirst : Succeeds emptyState [(accepting, .apply [['y']])]
      (recorded [['y']] (some [['y']]) [['y']]) := .snoc .nil (by decide +kernel)
  have hall : Succeeds emptyState volatileLast
      (recorded [['y'], ['x']] (some [['y']]) [['x'], ['y']]) := .snoc hfirst (by decide +kernel)
  have hpersistent : Succeeds emptyState (volatileLast.filter fun step => step.2.persists)
      (recorded [['y']] (some [['y']]) [['y']]) := by
    rw [volatileLast, List.filter_cons_of_pos (by decide), List.filter_cons_of_neg (by decide)]
    exact hfirst
  have hcmds : ∀ step ∈ volatileLast, step.2.CStrings ∧ step.2 ≠ .restore := by
    intro step hstep
    rw [volatileLast, List.mem_cons, List.mem_singleton] at hstep
    rcases hstep with rfl | rfl
    · exact ⟨by simp [Command.CStrings], by simp⟩
    · exact ⟨by simp [Command.CStrings, volatileFlag], by simp⟩
  -- the volatile command comes last, so what the file is made of leaves it out
  have hpart : persistedPart (actions volatileLast) =
      (actions volatileLast).filter fun a => a.2 := by decide +kernel
  refine ⟨hall, hpersistent, ?_⟩
  refine (volatile_excluded_iff hall hpersistent ⟨rfl, rfl⟩ hcmds).mpr fun line => ?_
  rw [hpart]

/-- The set of a volatile command reaches the persistent file with the next
    persistent one. -/
theorem volatile_persisted :
    Succeeds emptyState [(accepting, .apply [['x'], volatileFlag]), (accepting, .apply [['y']])]
        (recorded [['x'], ['y']] (some [['x'], ['y']]) [['y'], ['x']]) ∧
      Succeeds emptyState
        ([(accepting, Command.apply [['x'], volatileFlag]), (accepting, .apply [['y']])].filter
          fun step => step.2.persists)
        (recorded [['y']] (some [['y']]) [['y']]) ∧
      Stores (recorded [['x'], ['y']] (some [['x'], ['y']]) [['y'], ['x']]).persist ['x'] ∧
      ¬ Stores (recorded [['y']] (some [['y']]) [['y']]).persist ['x'] := by
  -- the second command writes the file with the volatile overlay in it
  refine ⟨?_, ?_, ?_, ?_⟩
  · have hfirst : Succeeds emptyState [(accepting, .apply [['x'], volatileFlag])]
        (recorded [['x']] none [['x']]) := .snoc .nil (by decide +kernel)
    exact .snoc hfirst (by decide +kernel)
  · exact .snoc .nil (by decide +kernel)
  · exact (stores_iff (by decide) _).mpr (by decide)
  · exact fun hstores => absurd ((stores_iff (by decide) _).mp hstores) (by decide)

end EspS31.Overlay
