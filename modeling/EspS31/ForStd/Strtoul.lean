import EspS31.ForStd.CText

/-!
# `strtoul` with base 0

The function skips blanks, takes a sign, finds the base from the prefix of the
digits and converts as many digits as there are.  What it does without a digit is
left to the implementation, which may report it or not.

## Key results

- `numeral_iff`: the numerals are the digits in the base of their prefix
- `strtoul_whole_iff`: the strings that are converted as a whole, and their values
-/

namespace CText

/-- `isspace` in the C locale. -/
def isspace (c : Char) : Bool := c ∈ [' ', '\t', '\n', '\x0b', '\x0c', '\r']

/-- The value of a digit in any base up to 36. -/
def digitValue (c : Char) : Option Nat :=
  if c.isDigit then some (c.toNat - '0'.toNat)
  else if c.isLower then some (c.toNat - 'a'.toNat + 10)
  else if c.isUpper then some (c.toNat - 'A'.toNat + 10)
  else none

/-- Whether the character is a digit of the base. -/
def isDigitIn (base : Nat) (c : Char) : Bool := (digitValue c).any (· < base)

/-- The number that the digits write. -/
def digitsValue (base : Nat) (digits : Text) : Nat :=
  digits.foldl (fun v c => v * base + (digitValue c).getD 0) 0

/-- What `strtoul` can leave in `errno`. -/
inductive StrtoulError where
  | EINVAL | ERANGE
deriving DecidableEq, Repr

/-- The number, the string behind it and `errno`. -/
structure StrtoulResult where
  value : Nat
  rest : Text
  error : Option StrtoulError
deriving DecidableEq, Repr

/-- Whether a minus sign was taken, and what is behind the sign. -/
def takeSign : Text → Bool × Text
  | '-' :: s => (true, s)
  | '+' :: s => (false, s)
  | s => (false, s)

/-- The base of a number and its digits.  A prefix `0x` counts only before a digit. -/
def takeBase : Text → Nat × Text
  | '0' :: x :: d :: s =>
    if (x = 'x' || x = 'X') && isDigitIn 16 d then (16, d :: s) else (8, '0' :: x :: d :: s)
  | '0' :: s => (8, '0' :: s)
  | s => (10, s)

/-- A number with its sign in `width` bits. -/
def signed (width : Nat) (negative : Bool) (n : Nat) : Nat :=
  if negative then (2 ^ width - n) % 2 ^ width else n

/-- `strtoul` with base 0 for an unsigned long of `width` bits; `einval` tells whether
    a string without a digit is reported. -/
def strtoul (einval : Bool) (width : Nat) (s : Text) : StrtoulResult :=
  let signedDigits := takeSign (s.dropWhile isspace)
  let baseDigits := takeBase signedDigits.2
  let digits := baseDigits.2.takeWhile (isDigitIn baseDigits.1)
  let rest := baseDigits.2.dropWhile (isDigitIn baseDigits.1)
  let n := digitsValue baseDigits.1 digits
  if digits = [] then ⟨0, s, if einval then some .EINVAL else none⟩
  else if 2 ^ width ≤ n then ⟨2 ^ width - 1, rest, some .ERANGE⟩
  else ⟨signed width signedDigits.1 n, rest, none⟩

/-! ## Numerals -/

/-- An unsigned numeral as C writes them, and its value. -/
inductive Numeral : Text → Nat → Prop
  | decimal {d : Char} {ds : Text} : d ≠ '0' → (∀ c ∈ d :: ds, isDigitIn 10 c) →
      Numeral (d :: ds) (digitsValue 10 (d :: ds))
  | octal {ds : Text} : (∀ c ∈ ds, isDigitIn 8 c) → Numeral ('0' :: ds) (digitsValue 8 ds)
  | hex {x : Char} {ds : Text} : x = 'x' ∨ x = 'X' → ds ≠ [] → (∀ c ∈ ds, isDigitIn 16 c) →
      Numeral ('0' :: x :: ds) (digitsValue 16 ds)

/-- A leading zero does not count. -/
theorem digitsValue_zero_cons (base : Nat) (ds : Text) :
    digitsValue base ('0' :: ds) = digitsValue base ds := by
  rw [digitsValue, List.foldl_cons, Nat.zero_mul]
  rfl

/-- The digits of base 8 are not the letter of the other prefix. -/
theorem not_isDigitIn_eight_of_x {x : Char} (hx : x = 'x' ∨ x = 'X') : isDigitIn 8 x = false := by
  obtain rfl | rfl := hx
  · decide
  · decide

/-- `0x` in front of a hexadecimal digit selects base 16. -/
theorem takeBase_hex {x d : Char} {ds : Text} (hx : x = 'x' ∨ x = 'X') (hd : isDigitIn 16 d) :
    takeBase ('0' :: x :: d :: ds) = (16, d :: ds) := by
  rw [takeBase, if_pos]
  simp only [Bool.and_eq_true, Bool.or_eq_true, decide_eq_true_eq]
  exact ⟨hx, hd⟩

/-- Octal digits have no other prefix. -/
theorem takeBase_octal {ds : Text} (h : ∀ c ∈ ds, isDigitIn 8 c) :
    takeBase ('0' :: ds) = (8, '0' :: ds) := by
  match ds with
  | [] => rfl
  | [_] => rfl
  | x :: d :: ds =>
    rw [takeBase, if_neg]
    intro hprefix
    simp only [Bool.and_eq_true, Bool.or_eq_true, decide_eq_true_eq] at hprefix
    have hx := h x (List.mem_cons_self ..)
    rw [not_isDigitIn_eight_of_x hprefix.1] at hx
    exact nomatch hx

/-- A first digit other than zero selects base 10. -/
theorem takeBase_decimal {d : Char} {ds : Text} (hd : d ≠ '0') :
    takeBase (d :: ds) = (10, d :: ds) := by
  unfold takeBase
  split
  · next h => exact absurd (List.cons.inj h).1 hd
  · next h => exact absurd (List.cons.inj h).1 hd
  · rfl

/-- The prefixes. -/
theorem takeBase_cases (t : Text) :
    (∃ x d ds, t = '0' :: x :: d :: ds ∧ (x = 'x' ∨ x = 'X') ∧ takeBase t = (16, d :: ds)) ∨
      (∃ ds, t = '0' :: ds ∧ takeBase t = (8, '0' :: ds)) ∨
      (t.head? ≠ some '0' ∧ takeBase t = (10, t)) := by
  unfold takeBase
  split
  · next x d ds =>
    -- without a hexadecimal digit behind it, the `x` ends an octal 0
    by_cases hprefix : ((x = 'x' || x = 'X') && isDigitIn 16 d) = true
    · rw [if_pos hprefix]
      simp only [Bool.and_eq_true, Bool.or_eq_true, decide_eq_true_eq] at hprefix
      exact .inl ⟨x, d, ds, rfl, hprefix.1, rfl⟩
    · rw [if_neg hprefix]
      exact .inr (.inl ⟨x :: d :: ds, rfl, rfl⟩)
  · next ds _ => exact .inr (.inl ⟨ds, rfl, rfl⟩)
  · next hzero =>
    refine .inr (.inr ⟨fun hhead => ?_, rfl⟩)
    obtain ⟨ds, hds⟩ := List.head?_eq_some_iff.mp hhead
    exact hzero ds hds

/-- The numerals are what is converted as a whole in the base of its prefix. -/
theorem numeral_iff {t : Text} {n : Nat} :
    Numeral t n ↔ (takeBase t).2 ≠ [] ∧ (∀ c ∈ (takeBase t).2, isDigitIn (takeBase t).1 c) ∧
      n = digitsValue (takeBase t).1 (takeBase t).2 := by
  constructor
  · rintro (⟨hd, hds⟩ | hds | ⟨hx, hne, hds⟩)
    · rw [takeBase_decimal hd]
      exact ⟨nofun, hds, rfl⟩
    · rw [takeBase_octal hds]
      exact ⟨nofun, List.forall_mem_cons.mpr ⟨rfl, hds⟩, (digitsValue_zero_cons ..).symm⟩
    · obtain ⟨d, ds, rfl⟩ := List.exists_cons_of_ne_nil hne
      rw [takeBase_hex hx (hds d (List.mem_cons_self ..))]
      exact ⟨hne, hds, rfl⟩
  · rintro ⟨hne, hds, rfl⟩
    -- the base that was taken decides which kind of numeral it is
    obtain ⟨x, d, ds, rfl, hx, hbase⟩ | ⟨ds, rfl, hbase⟩ | ⟨hhead, hbase⟩ := takeBase_cases t
    · rw [hbase] at hds ⊢
      exact .hex hx nofun hds
    · rw [hbase] at hds ⊢
      simp only [digitsValue_zero_cons]
      exact .octal (List.forall_mem_cons.mp hds).2
    · rw [hbase] at hne hds ⊢
      obtain ⟨d, ds, rfl⟩ := List.exists_cons_of_ne_nil hne
      refine .decimal ?_ hds
      rintro rfl
      exact hhead rfl

/-- A numeral starts with a digit. -/
theorem Numeral.head {t : Text} {n : Nat} (h : Numeral t n) :
    ∃ d ds, t = d :: ds ∧ isDigitIn 10 d := by
  cases h with
  | decimal hd hds => exact ⟨_, _, rfl, hds _ (List.mem_cons_self ..)⟩
  | octal hds => exact ⟨_, _, rfl, by decide⟩
  | hex hx hne hds => exact ⟨_, _, rfl, by decide⟩

/-- A numeral has one value. -/
theorem Numeral.value_unique {t : Text} {n n' : Nat} (h : Numeral t n) (h' : Numeral t n') :
    n = n' :=
  (numeral_iff.mp h).2.2.trans (numeral_iff.mp h').2.2.symm

/-! ## Strings converted as a whole -/

/-- A digit is neither a blank nor a sign. -/
theorem isDigitIn_ten_spec {d : Char} (h : isDigitIn 10 d) :
    isspace d = false ∧ d ≠ '-' ∧ d ≠ '+' := by
  refine ⟨?_, ?_, ?_⟩
  · apply Bool.eq_false_iff.mpr
    intro hspace
    simp only [isspace, List.mem_cons, List.not_mem_nil, or_false, decide_eq_true_eq] at hspace
    obtain rfl | rfl | rfl | rfl | rfl | rfl := hspace <;> exact nomatch h
  · rintro rfl
    exact nomatch h
  · rintro rfl
    exact nomatch h

/-- No sign, a plus or a minus. -/
def signs : List Text := [[], ['+'], ['-']]

/-- At most one sign is taken off, and it decides the result. -/
theorem takeSign_spec (s : Text) :
    ∃ sign ∈ signs, s = sign ++ (takeSign s).2 ∧ (takeSign s).1 = decide (sign = ['-']) := by
  unfold takeSign
  split
  · exact ⟨['-'], by decide, rfl, rfl⟩
  · exact ⟨['+'], by decide, rfl, rfl⟩
  · exact ⟨[], by decide, rfl, rfl⟩

/-- Without a sign nothing is taken off. -/
theorem takeSign_of_ne {d : Char} {ds : Text} (hminus : d ≠ '-') (hplus : d ≠ '+') :
    takeSign (d :: ds) = (false, d :: ds) := by
  unfold takeSign
  split
  · next h => exact absurd (List.cons.inj h).1 hminus
  · next h => exact absurd (List.cons.inj h).1 hplus
  · rfl

/-- Blanks and a sign before a numeral are skipped. -/
theorem takeSign_numeral {blanks sign t : Text} {n : Nat} (hblanks : ∀ c ∈ blanks, isspace c)
    (hsign : sign ∈ signs) (ht : Numeral t n) :
    takeSign ((blanks ++ (sign ++ t)).dropWhile isspace) = (decide (sign = ['-']), t) := by
  obtain ⟨d, ds, rfl, hd⟩ := ht.head
  obtain ⟨hspace, hminus, hplus⟩ := isDigitIn_ten_spec hd
  rw [List.dropWhile_append_of_pos hblanks]
  simp only [signs, List.mem_cons, List.not_mem_nil, or_false] at hsign
  obtain rfl | rfl | rfl := hsign
  · rw [List.nil_append, List.dropWhile_cons_of_neg (by simp [hspace]), takeSign_of_ne hminus hplus]
    rfl
  · rfl
  · rfl

/-- A string with blanks and a sign before a numeral. -/
structure SignedNumeral (s blanks sign : Text) (n : Nat) : Prop where
  isBlank : ∀ c ∈ blanks, isspace c
  isSign : sign ∈ signs
  numeral : ∃ t, s = blanks ++ (sign ++ t) ∧ Numeral t n

/-- A numeral has no blanks and no sign before it. -/
theorem SignedNumeral.plain {s blanks sign : Text} {n n' : Nat}
    (h : SignedNumeral s blanks sign n) (h' : Numeral s n') : blanks = [] ∧ sign = [] := by
  obtain ⟨hblank, hsign, t, rfl, -⟩ := h
  obtain ⟨d, ds, hd, hdigit⟩ := h'.head
  obtain ⟨hspace, hminus, hplus⟩ := isDigitIn_ten_spec hdigit
  cases blanks with
  | cons c blanks =>
    obtain ⟨rfl, -⟩ := List.cons.inj hd
    rw [hblank c (List.mem_cons_self ..)] at hspace
    exact nomatch hspace
  | nil =>
    refine ⟨rfl, ?_⟩
    -- a numeral starts with a digit, which is neither sign
    simp only [signs, List.mem_cons, List.not_mem_nil, or_false] at hsign
    obtain rfl | rfl | rfl := hsign
    · rfl
    · exact absurd (List.cons.inj hd).1.symm hplus
    · exact absurd (List.cons.inj hd).1.symm hminus

/-- The strings that `strtoul` converts as a whole and without an error. -/
theorem strtoul_whole_iff {einval : Bool} {width v : Nat} {s : Text} :
    strtoul einval width s = ⟨v, [], none⟩ ↔
      (s = [] ∧ einval = false ∧ v = 0) ∨
        ∃ blanks sign n, SignedNumeral s blanks sign n ∧ n < 2 ^ width ∧
          v = signed width (decide (sign = ['-'])) n := by
  constructor
  · intro h
    rw [strtoul] at h
    split at h
    · -- no digit: only the empty string is left behind empty
      obtain ⟨rfl, rfl, herror⟩ := StrtoulResult.mk.inj h
      cases einval with
      | false => exact .inl ⟨rfl, rfl, rfl⟩
      | true => exact nomatch herror
    · next hdigits =>
      split at h
      · exact nomatch (StrtoulResult.mk.inj h).2.2
      · next hrange =>
        obtain ⟨rfl, hrest, -⟩ := StrtoulResult.mk.inj h
        -- blanks, a sign and digits up to the end
        obtain ⟨sign, hsign, hskip, hneg⟩ := takeSign_spec (s.dropWhile isspace)
        have hall := List.dropWhile_eq_nil_iff.mp hrest
        have hwhole := List.takeWhile_eq_self_iff.mpr hall
        rw [hwhole] at hdigits hrange ⊢
        refine .inr ⟨s.takeWhile isspace, sign, _, ⟨?_, hsign, _, ?_,
          numeral_iff.mpr ⟨hdigits, hall, rfl⟩⟩, Nat.not_le.mp hrange, ?_⟩
        · exact fun c hc => List.mem_takeWhile_imp hc
        · rw [← hskip, List.takeWhile_append_dropWhile]
        · rw [hneg]
  -- conversely the parts are read one after the other
  · rintro (⟨rfl, rfl, rfl⟩ | ⟨blanks, sign, n, ⟨hblanks, hsign, t, rfl, ht⟩, hrange, rfl⟩)
    · rfl
    · obtain ⟨hne, hall, rfl⟩ := numeral_iff.mp ht
      rw [strtoul, takeSign_numeral hblanks hsign ht]
      dsimp only
      rw [List.takeWhile_eq_self_iff.mpr hall, List.dropWhile_eq_nil_iff.mpr hall, if_neg hne,
        if_neg (Nat.not_le.mpr hrange)]

/-- A numeral that fits the width is read whole, with its value. -/
theorem strtoul_numeral {einval : Bool} {width n : Nat} {s : Text} (h : Numeral s n)
    (hn : n < 2 ^ width) : strtoul einval width s = ⟨n, [], none⟩ :=
  strtoul_whole_iff.mpr (.inr ⟨[], [], n, ⟨nofun, by decide, s, rfl, h⟩, hn, rfl⟩)

end CText
