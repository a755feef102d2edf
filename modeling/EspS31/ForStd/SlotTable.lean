import Mathlib.Algebra.Ring.Nat
import Mathlib.Data.List.Basic

/-!
# Tables of keyed slots

A table is a list of entries of which each has a key or is unused.  A lookup
takes the first entry with the key, past any unused ones; an entry is filled or
cleared in place.

## Key results

- `DistinctKeys.fill`, `DistinctKeys.clear`: keys stay distinct
- `DistinctKeys.find_of_keyAt`: with distinct keys, a lookup finds the entry
  wherever it is
- `DistinctKeys.find_fill`, `DistinctKeys.find_clear`: what lookups find then
-/

namespace SlotTable

variable {α κ : Type} (key : α → Option κ)

/-- The key of entry `i`. -/
def keyAt (table : List α) (i : Nat) : Option κ := table[i]?.bind key

/-- No key is in two entries. -/
def DistinctKeys (table : List α) : Prop :=
  ∀ i j k, keyAt key table i = some k → keyAt key table j = some k → i = j

variable {key} {table : List α} {i j : Nat} {k : κ} {e : α}

/-- The key of a slot is that of its entry. -/
theorem keyAt_eq_some : keyAt key table i = some k ↔ ∃ e, table[i]? = some e ∧ key e = some k :=
  Option.bind_eq_some_iff

/-- The key of an entry of the table is the key of some slot. -/
theorem keyAt_mem (hmem : e ∈ table) (hkey : key e = some k) : ∃ i, keyAt key table i = some k := by
  obtain ⟨i, hi⟩ := List.mem_iff_getElem?.mp hmem
  exact ⟨i, keyAt_eq_some.mpr ⟨e, hi, hkey⟩⟩

/-- The keys after one entry was written. -/
theorem keyAt_set (hi : i < table.length) (j : Nat) :
    keyAt key (table.set i e) j = if j = i then key e else keyAt key table j := by
  simp only [keyAt, List.getElem?_set]
  by_cases hj : i = j
  · subst hj
    simp only [if_true, hi, Option.bind_some]
  · have hne : ¬ j = i := fun h => hj h.symm
    simp only [hj, hne, if_false]

namespace DistinctKeys

/-- An entry gets a key that is in no other. -/
theorem fill (hd : DistinctKeys key table) (hi : i < table.length)
    (hnew : ∀ k, key e = some k → ∀ j, keyAt key table j ≠ some k) :
    DistinctKeys key (table.set i e) := by
  intro a b k ha hb
  rw [keyAt_set hi] at ha hb
  split at ha
  · next hai =>
    split at hb
    · next hbi => rw [hai, hbi]
    · exact absurd hb (hnew k ha b)
  · split at hb
    · exact absurd ha (hnew k hb a)
    · exact hd a b k ha hb

/-- An entry loses its key. -/
theorem clear (hd : DistinctKeys key table) (hi : i < table.length) (hkey : key e = none) :
    DistinctKeys key (table.set i e) :=
  hd.fill hi fun _ hk => nomatch hkey.symm.trans hk

end DistinctKeys

/-- Writing an entry changes no search that passes over it, before and after. -/
theorem find_set_of_not {p : α → Bool} (hold : ∀ a, table[i]? = some a → p a = false)
    (he : p e = false) : (table.set i e).find? p = table.find? p := by
  induction table generalizing i with
  | nil => rfl
  | cons a rest ih =>
    cases i with
    | zero => simp only [List.set_cons_zero, List.find?_cons, he, hold a rfl]
    | succ i =>
      have hrest := ih fun a ha => hold a (by rwa [List.getElem?_cons_succ])
      simp only [List.set_cons_succ, List.find?_cons, hrest]

variable [DecidableEq κ]

/-- A lookup fails when no entry has the key. -/
theorem find_eq_none_iff :
    table.find? (fun e => key e = some k) = none ↔ ∀ i, keyAt key table i ≠ some k := by
  rw [List.find?_eq_none]
  constructor
  · intro hnone i hi
    obtain ⟨e, he, hkey⟩ := keyAt_eq_some.mp hi
    exact hnone e (List.mem_of_getElem? he) (decide_eq_true hkey)
  · intro hno e he hkey
    obtain ⟨i, hi⟩ := keyAt_mem he (of_decide_eq_true hkey)
    exact hno i hi

namespace DistinctKeys

/-- A lookup finds the one entry with the key. -/
theorem find_of_keyAt (hd : DistinctKeys key table) (hi : keyAt key table i = some k) :
    table.find? (fun e => key e = some k) = table[i]? := by
  obtain ⟨e, he, hkey⟩ := keyAt_eq_some.mp hi
  cases hfind : table.find? (fun e => key e = some k) with
  | none => exact absurd hi (find_eq_none_iff.mp hfind i)
  | some e' =>
    obtain ⟨hkey', j, hj, rfl, -⟩ := List.find?_eq_some_iff_getElem.mp hfind
    have hj' : table[j]? = some table[j] := List.getElem?_eq_getElem hj
    have heq : j = i := hd j i k (keyAt_eq_some.mpr ⟨_, hj', of_decide_eq_true hkey'⟩) hi
    rw [← heq, hj']

/-- Lookups after a key was added in an unused entry. -/
theorem find_fill (hd : DistinctKeys key table) (hi : i < table.length)
    (hfree : keyAt key table i = none) (hnew : ∀ j, keyAt key table j ≠ some k)
    (hkey : key e = some k) (k' : κ) :
    (table.set i e).find? (fun e => key e = some k') =
      if k' = k then some e else table.find? (fun e => key e = some k') := by
  split
  · next heq =>
    subst heq
    have hd' : DistinctKeys key (table.set i e) :=
      hd.fill hi fun k₁ hk₁ => Option.some.inj (hkey.symm.trans hk₁) ▸ hnew
    have hself : keyAt key (table.set i e) i = some k' := by rw [keyAt_set hi, if_pos rfl, hkey]
    rw [hd'.find_of_keyAt hself, List.getElem?_set_self hi]
  -- another key is not found in the slot that was filled, neither before nor after
  · next hne =>
    refine find_set_of_not (fun a ha => decide_eq_false fun hka => ?_)
      (decide_eq_false fun hk => hne (Option.some.inj (hk.symm.trans hkey)))
    have hat : keyAt key table i = some k' := keyAt_eq_some.mpr ⟨a, ha, hka⟩
    rw [hfree] at hat
    exact nomatch hat

/-- Lookups after the entry of a key was cleared. -/
theorem find_clear (hd : DistinctKeys key table) (hat : keyAt key table i = some k)
    (hkey : key e = none) (k' : κ) :
    (table.set i e).find? (fun e => key e = some k') =
      if k' = k then none else table.find? (fun e => key e = some k') := by
  obtain ⟨e₀, he₀, hk₀⟩ := keyAt_eq_some.mp hat
  obtain ⟨hi, -⟩ := List.getElem?_eq_some_iff.mp he₀
  have hgone : key e ≠ some k' := by
    rw [hkey]
    exact nofun
  split
  -- the key is found nowhere, since no other slot had it
  · next heq =>
    subst heq
    rw [find_eq_none_iff]
    intro j
    rw [keyAt_set hi]
    split
    · exact hgone
    · next hji => exact fun h => hji (hd j i k' h hat)
  · next hne =>
    refine find_set_of_not (fun a ha => decide_eq_false fun hka => hne ?_) (decide_eq_false hgone)
    obtain rfl := Option.some.inj (he₀.symm.trans ha)
    exact Option.some.inj (hka.symm.trans hk₀)

end DistinctKeys

end SlotTable
