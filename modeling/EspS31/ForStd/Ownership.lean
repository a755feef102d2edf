import Mathlib.Algebra.Ring.Nat
import Mathlib.Data.List.Nodup
import Mathlib.Logic.Function.Basic

/-!
# Handles held by slots

A slot of `ι` holds a handle or none; `live` are the handles created and not
destroyed.  `Owned` says that every handle held is live and held by one slot only,
so that the holder may destroy it; `Exact` says that in addition no live handle is
lost.
-/

/-- What an updated slot or another one holds. -/
theorem update_some_cases {ι κ : Type} [DecidableEq ι] {held : ι → Option κ} {new : Option κ}
    {i j : ι} {h : κ} (hj : Function.update held i new j = some h) :
    (j = i ∧ new = some h) ∨ (j ≠ i ∧ held j = some h) := by
  by_cases hji : j = i
  · subst hji
    rw [Function.update_self] at hj
    exact .inl ⟨rfl, hj⟩
  · rw [Function.update_of_ne hji] at hj
    exact .inr ⟨hji, hj⟩

/-- Every handle held is live and no two slots hold the same. -/
structure Owned {ι κ : Type} (held : ι → Option κ) (live : List κ) : Prop where
  mem : ∀ i h, held i = some h → h ∈ live
  inj : ∀ i j h, held i = some h → held j = some h → i = j
  nodup : live.Nodup

namespace Owned

variable {ι κ : Type} {held held' : ι → Option κ} {live : List κ} {i : ι} {h : κ}

/-- Slots may forget what they hold. -/
theorem forget (ho : Owned held live) (hsub : ∀ i h, held' i = some h → held i = some h) :
    Owned held' live where
  mem i h hi := ho.mem i h (hsub i h hi)
  inj i j h hi hj := ho.inj i j h (hsub i h hi) (hsub j h hj)
  nodup := ho.nodup

variable [DecidableEq ι]

/-- A new handle goes into a slot, whatever the slot held. -/
theorem fill (ho : Owned held live) (hfresh : h ∉ live) :
    Owned (Function.update held i (some h)) (h :: live) where
  mem j h' hj := by
    obtain ⟨-, hnew⟩ | ⟨-, hold⟩ := update_some_cases hj
    · exact List.mem_cons.mpr (.inl (Option.some.inj hnew).symm)
    · exact List.mem_cons_of_mem _ (ho.mem j h' hold)
  inj j k h' hj hk := by
    -- the new handle is held by no other slot, for those hold live ones
    obtain ⟨hji, hnewj⟩ | ⟨-, holdj⟩ := update_some_cases hj <;>
      obtain ⟨hki, hnewk⟩ | ⟨-, holdk⟩ := update_some_cases hk
    · rw [hji, hki]
    · exact absurd (ho.mem k h' holdk) (Option.some.inj hnewj ▸ hfresh)
    · exact absurd (ho.mem j h' holdj) (Option.some.inj hnewk ▸ hfresh)
    · exact ho.inj j k h' holdj holdk
  nodup := List.nodup_cons.mpr ⟨hfresh, ho.nodup⟩

/-- A slot gets a new handle or none. -/
theorem put (ho : Owned held live) {new : Option κ} (hfresh : ∀ h, new = some h → h ∉ live) :
    Owned (Function.update held i new) (new.toList ++ live) := by
  cases new with
  | some h => exact ho.fill (hfresh h rfl)
  | none =>
    refine ho.forget fun j h hj => ?_
    obtain ⟨-, hnew⟩ | ⟨-, hold⟩ := update_some_cases hj
    · exact nomatch hnew
    · exact hold

variable [DecidableEq κ]

/-- A slot destroys the handle it holds. -/
theorem release (ho : Owned held live) (hi : held i = some h) :
    Owned (Function.update held i none) (live.erase h) where
  mem j h' hj := by
    obtain ⟨-, hnew⟩ | ⟨hji, hold⟩ := update_some_cases hj
    · exact nomatch hnew
    · have hne : h' ≠ h := fun heq => hji (ho.inj j i h (heq ▸ hold) hi)
      exact (List.mem_erase_of_ne hne).mpr (ho.mem j h' hold)
  inj j k h' hj hk := by
    obtain ⟨-, hnewj⟩ | ⟨-, holdj⟩ := update_some_cases hj
    · exact nomatch hnewj
    · obtain ⟨-, hnewk⟩ | ⟨-, holdk⟩ := update_some_cases hk
      · exact nomatch hnewk
      · exact ho.inj j k h' holdj holdk
  nodup := ho.nodup.erase h

end Owned

/-- The live handles are those held. -/
structure Exact {ι κ : Type} (held : ι → Option κ) (live : List κ) : Prop extends
    Owned held live where
  full : ∀ h ∈ live, ∃ i, held i = some h

namespace Exact

variable {ι κ : Type} {held : ι → Option κ} {live : List κ} {i : ι} {h : κ}

/-- With no owner nothing is in use. -/
theorem empty : Exact (fun _ : ι => (none : Option κ)) [] where
  mem _ _ hi := by cases hi
  inj _ _ _ hi _ := by cases hi
  nodup := List.nodup_nil
  full _ hh := by cases hh

variable [DecidableEq ι]

/-- A new handle goes into an empty slot. -/
theorem fill (he : Exact held live) (hempty : held i = none) (hfresh : h ∉ live) :
    Exact (Function.update held i (some h)) (h :: live) where
  toOwned := he.toOwned.fill hfresh
  full h' hh' := by
    obtain rfl | hold := List.mem_cons.mp hh'
    · exact ⟨i, Function.update_self ..⟩
    · obtain ⟨j, hj⟩ := he.full h' hold
      have hji : j ≠ i := by
        rintro rfl
        rw [hempty] at hj
        cases hj
      exact ⟨j, by rw [Function.update_of_ne hji, hj]⟩

variable [DecidableEq κ]

/-- A slot destroys the handle it holds. -/
theorem release (he : Exact held live) (hi : held i = some h) :
    Exact (Function.update held i none) (live.erase h) where
  toOwned := he.toOwned.release hi
  full h' hh' := by
    obtain ⟨hne, hold⟩ := (he.nodup.mem_erase_iff).mp hh'
    obtain ⟨j, hj⟩ := he.full h' hold
    have hji : j ≠ i := by
      rintro rfl
      exact hne (Option.some.inj (hj.symm.trans hi))
    exact ⟨j, by rw [Function.update_of_ne hji, hj]⟩

end Exact

/-! ## Holders of two handles -/

/-- What the two slots of a holder hold is replaced. -/
def setPair {ι κ : Type} [DecidableEq ι] (held : ι × Bool → Option κ) (i : ι)
    (first second : Option κ) : ι × Bool → Option κ :=
  Function.update (Function.update held (i, false) first) (i, true) second

/-- A function that agrees outside of the holder is the one with the pair replaced. -/
theorem eq_setPair {ι κ : Type} [DecidableEq ι] {held held' : ι × Bool → Option κ} {i : ι}
    {first second : Option κ} (hfirst : held' (i, false) = first)
    (hsecond : held' (i, true) = second) (hother : ∀ j b, j ≠ i → held' (j, b) = held (j, b)) :
    held' = setPair held i first second := by
  funext ⟨j, b⟩
  by_cases hji : j = i
  · subst hji
    cases b with
    | false => simp [setPair, hfirst]
    | true => simp [setPair, hsecond]
  · simp [setPair, hother j b hji, hji]

namespace Exact

variable {ι κ : Type} [DecidableEq ι] {held : ι × Bool → Option κ} {live : List κ} {i : ι}
  {x y : κ}

/-- A new holder gets two new handles. -/
theorem fillPair (he : Exact held live) (hempty : ∀ b, held (i, b) = none) (hx : x ∉ live)
    (hy : y ∉ x :: live) : Exact (setPair held i (some x) (some y)) (y :: x :: live) := by
  have hfirst := he.fill (hempty false) hx
  have hslot : Function.update held (i, false) (some x) (i, true) = none := by
    rw [Function.update_of_ne (by simp)]
    exact hempty true
  exact hfirst.fill hslot hy

variable [DecidableEq κ]

/-- A holder destroys its two handles, both of which are live when it comes to them. -/
theorem releasePair (he : Exact held live) (hfirst : held (i, false) = some x)
    (hsecond : held (i, true) = some y) :
    x ∈ live ∧ y ∈ live.erase x ∧ Exact (setPair held i none none) ((live.erase x).erase y) := by
  have hcleared := he.release hfirst
  have hslot : Function.update held (i, false) none (i, true) = some y := by
    rw [Function.update_of_ne (by simp)]
    exact hsecond
  exact ⟨he.mem _ _ hfirst, hcleared.mem _ _ hslot, hcleared.release hslot⟩

end Exact
