import Mathlib.Algebra.Ring.Nat
import Mathlib.Data.List.Basic
import Mathlib.Data.List.TakeWhile

/-!
# C strings and text files as lists of characters

A string is the list of its characters before the NUL, a file the list of its
bytes.  `strtok` gives all tokens of a string at once, and `fgetsLines` the results
of the successive `fgets` calls up to the end of the file.

## Key results

- `strtok_unlines`: newline-terminated lines are the tokens of their text
- `fgetsLines_line`: a line that fits the buffer is read as a whole
- `fgetsLines_long`: a line that does not is cut
-/

namespace CText

/-- The characters of a string or a file, without the terminator. -/
abbrev Text := List Char

/-- What the string functions see of a buffer. -/
def cstr (s : Text) : Text := s.takeWhile (· ≠ '\x00')

/-- The length of the longest initial part without the characters of `reject`. -/
def strcspn (reject : List Char) (s : Text) : Nat := (s.takeWhile (· ∉ reject)).length

/-- The tokens `strtok` returns one after the other. -/
def strtok (delims : List Char) (s : Text) : List Text :=
  (s.splitOnP fun c => delims.contains c).filter (· ≠ [])

/-- The strings that `fgets` with a buffer of `size` characters returns one after
    the other; `acc` holds, in reverse, the characters read so far. -/
def fgetsGo (size : Nat) : Text → Text → List Text
  | acc, [] => if acc = [] then [] else [acc.reverse]
  | acc, c :: rest =>
    if c = '\n' ∨ size ≤ acc.length + 2 then (c :: acc).reverse :: fgetsGo size [] rest
    else fgetsGo size (c :: acc) rest

/-- What repeated calls of `fgets` with a buffer of that size return. -/
def fgetsLines (size : Nat) (file : Text) : List Text := fgetsGo size [] file

/-- The lines, each ended by a newline. -/
def unlines (lines : List Text) : Text := lines.flatMap (· ++ ['\n'])

/-- No lines, no text. -/
@[simp] theorem unlines_nil : unlines [] = [] := rfl

/-- Each line ends with a newline. -/
@[simp] theorem unlines_cons (l : Text) (ls : List Text) :
    unlines (l :: ls) = l ++ '\n' :: unlines ls := by
  simp [unlines]

/-- The lines of two files one after the other. -/
theorem unlines_append (ls ls' : List Text) : unlines (ls ++ ls') = unlines ls ++ unlines ls' :=
  List.flatMap_append

/-- The prefix that satisfies a test ends at the first character that does not. -/
theorem takeWhile_append_cons {p : Char → Bool} {s : Text} {c : Char} (rest : Text)
    (hs : ∀ x ∈ s, p x = true) (hc : p c = false) : (s ++ c :: rest).takeWhile p = s := by
  rw [List.takeWhile_append_of_pos hs, List.takeWhile_cons_of_neg (by simp [hc]), List.append_nil]

/-- The first line of a text is its part before the first newline. -/
theorem line_inj {l l' rest rest' : Text} (hl : '\n' ∉ l) (hl' : '\n' ∉ l')
    (h : l ++ '\n' :: rest = l' ++ '\n' :: rest') : l = l' := by
  have hcut : ∀ {s : Text} (r : Text), '\n' ∉ s → (s ++ '\n' :: r).takeWhile (· ≠ '\n') = s := by
    intro s r hs
    refine takeWhile_append_cons r (fun x hx => ?_) (by simp)
    have hne : x ≠ '\n' := fun heq => hs (heq ▸ hx)
    simpa using hne
  rw [← hcut rest hl, h, hcut rest' hl']

/-! ## `strcspn` -/

/-- Nothing to reject. -/
theorem strcspn_of_forall {reject : List Char} {s : Text} (h : ∀ c ∈ s, c ∉ reject) :
    strcspn reject s = s.length := by
  rw [strcspn, List.takeWhile_eq_self_iff.mpr (by simpa using h)]

/-- `strcspn` ends at the first rejected character. -/
theorem strcspn_append_cons {reject : List Char} {s : Text} {c : Char} (rest : Text)
    (hs : ∀ x ∈ s, x ∉ reject) (hc : c ∈ reject) : strcspn reject (s ++ c :: rest) = s.length := by
  rw [strcspn, takeWhile_append_cons rest (by simpa using hs) (by simpa using hc)]

/-- What `strcspn` measures is the prefix without rejected characters. -/
theorem take_strcspn (reject : List Char) (s : Text) :
    s.take (strcspn reject s) = s.takeWhile (· ∉ reject) := by
  rw [strcspn]
  exact (List.prefix_iff_eq_take.mp (List.takeWhile_prefix _)).symm

/-! ## `strtok` -/

/-- A string that is one token. -/
theorem strtok_singleton {delims : List Char} {s : Text} (hs : ∀ x ∈ s, x ∉ delims)
    (hne : s ≠ []) : strtok delims s = [s] := by
  rw [strtok, List.splitOnP_eq_singleton (by simpa using hs)]
  simp [hne]

/-- The tokens on both sides of a delimiter. -/
theorem strtok_append {delims : List Char} {c : Char} (s rest : Text) (hc : c ∈ delims) :
    strtok delims (s ++ c :: rest) = strtok delims s ++ strtok delims rest := by
  rw [strtok, List.splitOnP_append_cons _ _ (by simpa using hc), List.filter_append]
  rfl

/-- A token and the delimiter after it. -/
theorem strtok_append_cons {delims : List Char} {s : Text} {c : Char} (rest : Text)
    (hs : ∀ x ∈ s, x ∉ delims) (hne : s ≠ []) (hc : c ∈ delims) :
    strtok delims (s ++ c :: rest) = s :: strtok delims rest := by
  rw [strtok_append s rest hc, strtok_singleton hs hne, List.singleton_append]

/-- The tokens of a text of lines are the lines. -/
theorem strtok_unlines {lines : List Text} (h : ∀ l ∈ lines, l ≠ [] ∧ '\n' ∉ l) :
    strtok ['\n'] (unlines lines) = lines := by
  induction lines with
  | nil => rfl
  | cons l ls ih =>
    obtain ⟨hne, hnl⟩ := h l (List.mem_cons_self ..)
    have hl : ∀ x ∈ l, x ∉ ['\n'] := by
      intro x hx hmem
      exact hnl (List.mem_singleton.mp hmem ▸ hx)
    rw [unlines_cons, strtok_append_cons _ hl hne (List.mem_singleton.mpr rfl),
      ih fun l' hl' => h l' (List.mem_cons_of_mem _ hl')]

/-- The parts of a split hold no separator, and only characters of the string. -/
theorem mem_of_mem_splitOnP {p : Char → Bool} {s t : Text} (h : t ∈ s.splitOnP p) :
    ∀ c ∈ t, p c = false ∧ c ∈ s := by
  induction s generalizing t with
  | nil =>
    rw [List.splitOnP_nil, List.mem_singleton] at h
    simp [h]
  | cons x xs ih =>
    rw [List.splitOnP_cons_eq_if_modifyHead] at h
    split at h
    -- a separator: an empty piece, and those of the rest
    · obtain rfl | h := List.mem_cons.mp h
      · simp
      · intro c hc
        obtain ⟨hp, hmem⟩ := ih h c hc
        exact ⟨hp, List.mem_cons_of_mem _ hmem⟩
    · next hx =>
      -- the character goes in front of the first piece of the rest
      cases hsplit : xs.splitOnP p with
      | nil => exact absurd hsplit (List.splitOnP_ne_nil p xs)
      | cons u us =>
        rw [hsplit] at h ih
        obtain rfl | h := List.mem_cons.mp h
        · intro c hc
          obtain rfl | hc := List.mem_cons.mp hc
          · exact ⟨by simpa using hx, List.mem_cons_self ..⟩
          · obtain ⟨hp, hmem⟩ := ih (List.mem_cons_self ..) c hc
            exact ⟨hp, List.mem_cons_of_mem _ hmem⟩
        · intro c hc
          obtain ⟨hp, hmem⟩ := ih (List.mem_cons_of_mem _ h) c hc
          exact ⟨hp, List.mem_cons_of_mem _ hmem⟩

/-- Tokens are not empty and consist of characters of the string that delimit
    nothing. -/
theorem strtok_spec {delims : List Char} {s t : Text} (h : t ∈ strtok delims s) :
    t ≠ [] ∧ ∀ c ∈ t, c ∉ delims ∧ c ∈ s := by
  rw [strtok, List.mem_filter] at h
  refine ⟨by simpa using h.2, fun c hc => ?_⟩
  simpa using mem_of_mem_splitOnP h.1 c hc

/-- A character that delimits nothing is in a token. -/
theorem strtok_ne_nil {delims : List Char} {s : Text} {c : Char} (hc : c ∈ s)
    (hdelim : c ∉ delims) : strtok delims s ≠ [] := by
  induction s with
  | nil => exact absurd hc List.not_mem_nil
  | cons x xs ih =>
    by_cases hx : x ∈ delims
    · have hne : c ≠ x := fun heq => hdelim (heq ▸ hx)
      rw [show x :: xs = [] ++ x :: xs from rfl, strtok_append [] xs hx]
      have htail := ih ((List.mem_cons.mp hc).resolve_left hne)
      simp [htail]
    · -- The token that starts here is cut off at the next delimiter.
      rw [strtok, List.splitOnP_cons_eq_if_modifyHead, if_neg (by simpa using hx)]
      cases hsplit : xs.splitOnP fun c => delims.contains c with
      | nil => exact absurd hsplit (List.splitOnP_ne_nil _ xs)
      | cons t ts => simp

/-! ## `fgets` -/

/-- Characters that neither end the line nor fill the buffer. -/
theorem fgetsGo_append {size : Nat} {s : Text} (acc rest : Text) (hs : '\n' ∉ s)
    (hlen : acc.length + s.length + 1 < size) :
    fgetsGo size acc (s ++ rest) = fgetsGo size (s.reverse ++ acc) rest := by
  induction s generalizing acc with
  | nil => rfl
  | cons c s ih =>
    simp only [List.length_cons] at hlen
    have hstop : ¬ (c = '\n' ∨ size ≤ acc.length + 2) := by
      rintro (rfl | hle)
      · exact hs (List.mem_cons_self ..)
      · omega
    rw [List.cons_append, fgetsGo, if_neg hstop,
      ih (c :: acc) (fun h => hs (List.mem_cons_of_mem _ h)) (by simp only [List.length_cons]; omega)]
    simp

/-- A line shorter than the buffer is read with its newline. -/
theorem fgetsLines_line {size : Nat} {l : Text} (rest : Text) (hl : '\n' ∉ l)
    (hlen : l.length + 1 < size) :
    fgetsLines size (l ++ '\n' :: rest) = (l ++ ['\n']) :: fgetsLines size rest := by
  rw [fgetsLines, fgetsGo_append [] _ hl (by simpa using hlen), fgetsGo, if_pos (.inl rfl)]
  simp [fgetsLines]

/-- A line that fills the buffer is cut there. -/
theorem fgetsLines_full {size : Nat} {l : Text} (rest : Text) (hl : '\n' ∉ l)
    (hlen : l.length + 1 = size) (hne : l ≠ []) :
    fgetsLines size (l ++ rest) = l :: fgetsLines size rest := by
  obtain ⟨s, c, rfl⟩ := List.eq_nil_or_concat l |>.resolve_left hne
  rw [List.concat_eq_append] at hl hlen ⊢
  simp only [List.length_append, List.length_singleton] at hlen
  have hs : '\n' ∉ s := fun h => hl (List.mem_append_left _ h)
  rw [List.append_assoc, fgetsLines, fgetsGo_append [] _ hs (by simp only [List.length_nil]; omega),
    List.singleton_append, fgetsGo,
    if_pos (.inr (by simp only [List.length_append, List.length_reverse, List.length_nil]; omega))]
  simp [fgetsLines]

end CText
