import Mathlib.Algebra.Ring.Nat
import Mathlib.Data.List.Basic

/-!
# Properties of every point of a trace

`Always P t`: each entry of the trace `t` stands in the relation `P` to the part
before it.
-/

namespace Trace

variable {α : Type*} {P : List α → α → Prop} {t : List α}

/-- `P` holds of every entry of the trace and what was there before it. -/
def Always (P : List α → α → Prop) (t : List α) : Prop :=
  ∀ pre a post, t = pre ++ a :: post → P pre a

/-- The empty trace satisfies everything. -/
theorem always_nil : Always P [] := fun _ _ _ h => absurd h (by simp)

/-- One more entry. -/
theorem always_concat {a : α} : Always P (t ++ [a]) ↔ Always P t ∧ P t a := by
  constructor
  · intro h
    refine ⟨fun pre b post heq => ?_, h t a [] rfl⟩
    exact h pre b (post ++ [a]) (by rw [heq]; simp)
  · rintro ⟨ht, ha⟩ pre b post heq
    obtain rfl | ⟨post', x, rfl⟩ := List.eq_nil_or_concat post
    · obtain ⟨rfl, hlast⟩ := List.append_inj' heq rfl
      exact List.singleton_inj.mp hlast ▸ ha
    · rw [List.concat_eq_append, ← List.cons_append, ← List.append_assoc] at heq
      exact ht pre b post' (List.append_inj' heq rfl).1

end Trace
