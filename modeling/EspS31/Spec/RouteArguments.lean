import EspS31.Native.OverlayRoute

/-!
# The assignments that `patch_route` accepts

The documentation lists the pads that an assignment may not name.  The check of the
pad lacks the two of the console, and `strtoul` takes blanks and a sign before a
number, where a minus wraps around.

## Key results

- `routeArguments_ok_iff`: what the checks let through
- `documented_iff`: the assignments on which they agree with the documentation
-/

namespace EspS31.Overlay

open CText

/-- A route and the text behind the first equals sign. -/
structure Assigns (s route number : Text) : Prop where
  split : s = route ++ '=' :: number
  first : '=' ∉ route
  pos : 1 ≤ route.length
  len : route.length ≤ 63

/-- The pads that the documentation leaves: below 62, without the flash bus, the
    invalid pads and the console. -/
def documentedPin (n : Nat) : Bool :=
  n < 62 && !(26 ≤ n && n ≤ 32) && n ∉ [33, 34, 41, 58, 59]

/-- An assignment as documented: an unsigned numeral of a pad that is left. -/
def Documented (s : Text) : Prop :=
  ∃ route number n, Assigns s route number ∧ Numeral number n ∧ documentedPin n

/-- Numbers that are let through all the same: none at all, if `strtoul` does not
    report that, a pad written with blanks or a sign before it, and the pads of the
    console. -/
def Misread (einval : Bool) (number : Text) : Prop :=
  (number = [] ∧ einval = false) ∨
    (∃ blanks sign n, SignedNumeral number blanks sign n ∧ (blanks ≠ [] ∨ sign ≠ []) ∧
      n < 2 ^ 32 ∧ validGpio (signed 32 (decide (sign = ['-'])) n)) ∨
    Numeral number 58 ∨ Numeral number 59

/-! ## The checks -/

section

variable {einval : Bool} {s route number : Text}

/-- The name of a route ends at the `=`. -/
private theorem strcspn_route (number : Text) (h : '=' ∉ route) :
    strcspn ['='] (route ++ '=' :: number) = route.length := by
  refine strcspn_append_cons number (fun c hc hmem => ?_) (List.mem_singleton.mpr rfl)
  exact h (List.mem_singleton.mp hmem ▸ hc)

/-- The checks of a string with an equals sign. -/
private theorem routeArguments_append (h : '=' ∉ route) :
    routeArguments einval (route ++ '=' :: number) =
      if route.length = 0 ∨ route.length ≥ 64 then .error .EINVAL
      else if (strtoul einval 32 number).error ≠ none ∨ (strtoul einval 32 number).rest ≠ [] ∨
          ¬ validGpio (strtoul einval 32 number).value then .error .EINVAL
      else .ok (route, (strtoul einval 32 number).value) := by
  have hne : route.length ≠ (route ++ '=' :: number).length := by
    rw [List.length_append, List.length_cons]
    omega
  rw [routeArguments, strcspn_route number h, List.take_left, List.drop_length_add_append]
  simp only [hne, false_or]
  rfl

/-- What the checks let through. -/
theorem routeArguments_ok_iff {gpio : Nat} :
    routeArguments einval s = .ok (route, gpio) ↔
      ∃ number, Assigns s route number ∧ strtoul einval 32 number = ⟨gpio, [], none⟩ ∧
        validGpio gpio := by
  constructor
  · intro h
    -- without an equals sign the argument is refused
    have hmem : '=' ∈ s := by
      by_contra hnone
      have hall : strcspn ['='] s = s.length :=
        strcspn_of_forall fun c hc hmem => hnone (List.mem_singleton.mp hmem ▸ hc)
      rw [routeArguments, if_pos (.inl hall)] at h
      exact nomatch h
    obtain ⟨route', number, rfl, hfirst⟩ := List.eq_append_cons_of_mem hmem
    rw [routeArguments_append hfirst] at h
    split at h
    · exact nomatch h
    · next hlen =>
      split at h
      · exact nomatch h
      · next hchecks =>
        obtain ⟨rfl, rfl⟩ := Prod.mk.inj (Except.ok.inj h)
        simp only [not_or, not_not] at hchecks
        obtain ⟨herror, hrest, hvalid⟩ := hchecks
        refine ⟨number, ⟨rfl, hfirst, by omega, by omega⟩, ?_, hvalid⟩
        exact congr (congrArg (StrtoulResult.mk _) hrest) herror
  · rintro ⟨number, ⟨rfl, hfirst, hpos, hlen⟩, hnumber, hvalid⟩
    rw [routeArguments_append hfirst, hnumber, if_neg (by omega), if_neg]
    rintro (herror | hrest | hgpio)
    · exact herror rfl
    · exact hrest rfl
    · exact hgpio hvalid

/-! ## The documented pads -/

/-- The documented pins are the accepted ones without 58 and 59. -/
private theorem documentedPin_iff (n : Nat) : documentedPin n ↔ validGpio n ∧ n ≠ 58 ∧ n ≠ 59 := by
  simp only [documentedPin, validGpio, Bool.and_eq_true, Bool.not_eq_true', Bool.and_eq_false_iff,
    Bool.or_eq_true, decide_eq_true_eq, decide_eq_false_iff_not, List.mem_cons, List.not_mem_nil,
    or_false, not_or]
  omega

/-- A pin has eight bits. -/
theorem validGpio_lt_pad {n : Nat} (h : validGpio n) : n < 2 ^ 8 := by
  simp only [validGpio, Bool.and_eq_true, decide_eq_true_eq] at h
  omega

/-- A pin is a 32-bit number. -/
private theorem validGpio_lt {n : Nat} (h : validGpio n) : n < 2 ^ 32 :=
  Nat.lt_trans (validGpio_lt_pad h) (by decide)

/-- The first equals sign is in one place. -/
theorem Assigns.unique {route' number' : Text} (h : Assigns s route number)
    (h' : Assigns s route' number') : route = route' ∧ number = number' := by
  have hlen : route.length = route'.length := by
    rw [← strcspn_route number h.first, ← h.split, h'.split, strcspn_route number' h'.first]
  obtain ⟨hroute, hrest⟩ := List.append_inj (h.split.symm.trans h'.split) hlen
  exact ⟨hroute, (List.cons.inj hrest).2⟩

/-- The checks agree with the documentation on all assignments but the misread ones. -/
theorem documented_iff (einval : Bool) (s : Text) :
    ((∃ r, routeArguments einval s = .ok r) ↔ Documented s) ↔
      ¬ ∃ route number, Assigns s route number ∧ Misread einval number := by
  constructor
  · rintro h ⟨route, number, hassigns, hmisread⟩
    -- misread numbers are let through, but are none of the documented ones
    obtain ⟨gpio, hnumber, hvalid⟩ : ∃ gpio, strtoul einval 32 number = ⟨gpio, [], none⟩ ∧
        validGpio gpio := by
      obtain ⟨rfl, rfl⟩ | ⟨blanks, sign, n, hsigned, -, hn, hvalid⟩ | hnum | hnum := hmisread
      · exact ⟨0, rfl, by decide⟩
      · exact ⟨_, strtoul_whole_iff.mpr (.inr ⟨blanks, sign, n, hsigned, hn, rfl⟩), hvalid⟩
      · exact ⟨58, strtoul_numeral hnum (by decide), by decide⟩
      · exact ⟨59, strtoul_numeral hnum (by decide), by decide⟩
    obtain ⟨route', number', n, hassigns', hnum, hpin⟩ :=
      h.mp ⟨_, routeArguments_ok_iff.mpr ⟨number, hassigns, hnumber, hvalid⟩⟩
    obtain ⟨-, rfl⟩ := hassigns.unique hassigns'
    obtain ⟨-, hne58, hne59⟩ := (documentedPin_iff n).mp hpin
    obtain ⟨rfl, -⟩ | ⟨blanks, sign, m, hsigned, hextra, -⟩ | hnum' | hnum' := hmisread
    · obtain ⟨d, ds, hd, -⟩ := hnum.head
      exact nomatch hd
    · obtain ⟨hblanks, hsign⟩ := hsigned.plain hnum
      exact hextra.elim (absurd hblanks) (absurd hsign)
    · exact hne58 (hnum.value_unique hnum')
    · exact hne59 (hnum.value_unique hnum')
  · intro h
    constructor
    · rintro ⟨⟨route, gpio⟩, hok⟩
      obtain ⟨number, hassigns, hnumber, hvalid⟩ := routeArguments_ok_iff.mp hok
      have hread : ¬ Misread einval number := fun hmis => h ⟨route, number, hassigns, hmis⟩
      obtain ⟨rfl, rfl, -⟩ | ⟨blanks, sign, n, hsigned, hn, rfl⟩ := strtoul_whole_iff.mp hnumber
      · exact absurd (.inl ⟨rfl, rfl⟩) hread
      · by_cases hplain : blanks = [] ∧ sign = []
        · obtain ⟨rfl, rfl⟩ := hplain
          obtain ⟨-, -, t, rfl, hnum⟩ := hsigned
          refine ⟨route, _, n, hassigns, hnum, (documentedPin_iff n).mpr ⟨hvalid, ?_, ?_⟩⟩
          · rintro rfl
            exact hread (.inr (.inr (.inl hnum)))
          · rintro rfl
            exact hread (.inr (.inr (.inr hnum)))
        · refine absurd (.inr (.inl ⟨blanks, sign, n, hsigned, ?_, hn, hvalid⟩)) hread
          rwa [not_and_or] at hplain
    · rintro ⟨route, number, n, hassigns, hnum, hpin⟩
      have hvalid := ((documentedPin_iff n).mp hpin).1
      exact ⟨_, routeArguments_ok_iff.mpr
        ⟨number, hassigns, strtoul_numeral hnum (validGpio_lt hvalid), hvalid⟩⟩

/-- Pad 58, which the console owns, is let through. -/
theorem console_pin_assigned :
    (∀ einval, ∃ r, routeArguments einval "uart1.tx=58".toList = .ok r) ∧
      ¬ Documented "uart1.tx=58".toList := by
  have hassigns : Assigns "uart1.tx=58".toList "uart1.tx".toList "58".toList :=
    ⟨by decide, by decide, by decide, by decide⟩
  have hnum : Numeral "58".toList 58 :=
    numeral_iff.mpr ⟨by decide, List.all_eq_true.mp (by decide), by decide⟩
  refine ⟨fun einval => ⟨_, routeArguments_ok_iff.mpr
    ⟨_, hassigns, strtoul_numeral hnum (by decide), by decide⟩⟩, ?_⟩
  rintro ⟨route, number, n, hassigns', hnum', hpin⟩
  obtain ⟨-, rfl⟩ := hassigns.unique hassigns'
  exact ((documentedPin_iff n).mp hpin).2.1 (hnum'.value_unique hnum)

end

end EspS31.Overlay
