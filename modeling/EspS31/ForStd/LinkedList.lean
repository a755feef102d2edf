import Mathlib.Algebra.Ring.Nat
import Mathlib.Data.List.Nodup
import Mathlib.Logic.Function.Basic

/-!
# Singly linked lists in a heap

Cells at addresses, with 0 for the null pointer, and the two loops over them: looking
for a cell, and looking for the link that points to one.  A loop that follows a
dangling pointer, or more links than its fuel, has a fault.

## Key results

- `find_eq`: a search visits cells of the list only and finds the first that fits
- `findLink_eq`: the link that points to a cell, or the last one
- `unlink_segment`: redirecting that link takes the cell out of the list
-/

namespace LinkedList

variable {α : Type*}

/-- A node: a value and the address of the next node, zero at the end. -/
structure Node (α : Type*) where
  val : α
  next : Nat
deriving DecidableEq, Repr

/-- A heap of nodes, `none` where nothing is allocated. -/
abbrev Heap (α : Type*) := Nat → Option (Node α)

/-- What can go wrong on the way along a list: a pointer to no node, or no end within the fuel. -/
inductive Fault where
  | dangling | endless
deriving DecidableEq, Repr

/-- The cells from `p` to `q`, without `q`. -/
def Segment (h : Heap α) : Nat → List Nat → Nat → Prop
  | p, [], q => p = q
  | p, a :: l, q => p = a ∧ a ≠ 0 ∧ ∃ n, h a = some n ∧ Segment h n.next l q

/-- The cells of the list that starts at `p`. -/
def Chain (h : Heap α) (p : Nat) (l : List Nat) : Prop := Segment h p l 0

section

variable {h : Heap α} {p q : Nat} {l : List Nat}

/-- A segment over two lists of addresses is two segments that meet. -/
theorem segment_append {l' : List Nat} :
    Segment h p (l ++ l') q ↔ ∃ r, Segment h p l r ∧ Segment h r l' q := by
  induction l generalizing p with
  | nil => simp [Segment]
  | cons a l ih =>
    simp only [List.cons_append, Segment, ih]
    constructor
    · rintro ⟨hp, ha, n, hn, r, hl, hl'⟩
      exact ⟨r, ⟨hp, ha, n, hn, hl⟩, hl'⟩
    · rintro ⟨r, ⟨hp, ha, n, hn, hl⟩, hl'⟩
      exact ⟨hp, ha, n, hn, r, hl, hl'⟩

/-- Cells outside the list do not matter. -/
theorem Segment.update (hl : Segment h p l q) {a : Nat} (ha : a ∉ l) (x : Option (Node α)) :
    Segment (Function.update h a x) p l q := by
  induction l generalizing p with
  | nil => exact hl
  | cons b l ih =>
    obtain ⟨rfl, hb, n, hn, hrest⟩ := hl
    simp only [List.mem_cons, not_or] at ha
    exact ⟨rfl, hb, n, by rwa [Function.update_of_ne (Ne.symm ha.1)], ih hrest ha.2⟩

/-- Neither do the values. -/
theorem Segment.update_val (hl : Segment h p l q) {a : Nat} {n : Node α} (hn : h a = some n)
    (val : α) : Segment (Function.update h a (some { n with val := val })) p l q := by
  induction l generalizing p with
  | nil => exact hl
  | cons b l ih =>
    obtain ⟨rfl, hb, n', hn', hrest⟩ := hl
    by_cases hpa : p = a
    · subst hpa
      obtain rfl := Option.some.inj (hn.symm.trans hn')
      exact ⟨rfl, hb, _, Function.update_self .., ih hrest⟩
    · exact ⟨rfl, hb, n', by rwa [Function.update_of_ne hpa], ih hrest⟩

/-- Every address of a segment is allocated and not zero. -/
theorem Segment.mem (hl : Segment h p l q) {a : Nat} (ha : a ∈ l) : a ≠ 0 ∧ ∃ n, h a = some n := by
  induction l generalizing p with
  | nil => exact absurd ha List.not_mem_nil
  | cons b l ih =>
    obtain ⟨-, hb, n, hn, hrest⟩ := hl
    obtain rfl | ha := List.mem_cons.mp ha
    · exact ⟨hb, n, hn⟩
    · exact ih hrest ha

/-- The last cell of a segment points to its end. -/
theorem Segment.relink {a r : Nat} {n : Node α} (hl : Segment h p (l ++ [a]) q)
    (hnodup : (l ++ [a]).Nodup) (hn : h a = some n) :
    Segment (Function.update h a (some { n with next := r })) p (l ++ [a]) r := by
  obtain ⟨s, hfirst, rfl, ha, -⟩ := segment_append.mp hl
  have hout : s ∉ l := fun hmem => (List.nodup_append.mp hnodup).2.2 s hmem s (by simp) rfl
  exact segment_append.mpr ⟨s, hfirst.update hout _, rfl, ha, _, Function.update_self .., rfl⟩

end

/-! ## Searching -/

/-- The cells visited from `p` up to the first whose value fits, and that one. -/
def find (h : Heap α) (fits : α → Bool) : Nat → Nat → Except Fault (List Nat × Option Nat)
  | 0, _ => .error .endless
  | fuel + 1, p =>
    if p = 0 then .ok ([], none)
    else
      match h p with
      | none => .error .dangling
      | some n =>
        if fits n.val then .ok ([p], some p)
        else
          match find h fits fuel n.next with
          | .error e => .error e
          | .ok (visited, found) => .ok (p :: visited, found)

/-- A value at an address fits. -/
def FitsAt (h : Heap α) (fits : α → Bool) (a : Nat) : Prop := ∃ n, h a = some n ∧ fits n.val = true

/-- A search along a chain visits its nodes up to the first that fits. -/
theorem find_eq {h : Heap α} {p fuel : Nat} {l : List Nat} (fits : α → Bool) (hl : Chain h p l)
    (hfuel : l.length < fuel) :
    ∃ visited found, find h fits fuel p = .ok (visited, found) ∧ (∀ a ∈ visited, a ∈ l) ∧
      (∀ a ∈ found, a ∈ visited ∧ FitsAt h fits a) ∧
      (found = none → ∀ a ∈ l, ¬ FitsAt h fits a) := by
  -- induction on the list, with the fuel left for the rest of it
  induction l generalizing p fuel with
  | nil =>
    obtain ⟨fuel, rfl⟩ := Nat.exists_eq_succ_of_ne_zero (Nat.pos_iff_ne_zero.mp hfuel)
    obtain rfl : p = 0 := hl
    exact ⟨[], none, by simp [find], by simp, by simp, by simp⟩
  | cons a l ih =>
    obtain ⟨fuel, rfl⟩ := Nat.exists_eq_succ_of_ne_zero (Nat.ne_zero_of_lt hfuel)
    obtain ⟨rfl, hp, n, hn, hrest⟩ := hl
    by_cases hfits : fits n.val = true
    -- the first node fits
    · refine ⟨[p], some p, by simp [find, hp, hn, hfits], by simp, ?_, by simp⟩
      rintro b ⟨rfl⟩
      exact ⟨by simp, n, hn, hfits⟩
    -- it does not, and the search goes on behind it
    · simp only [List.length_cons, Nat.succ_eq_add_one] at hfuel
      have hlt : l.length < fuel := by omega
      obtain ⟨visited, found, hfind, hvisited, hfound, hnone⟩ := ih hrest hlt
      refine ⟨p :: visited, found, by simp [find, hp, hn, hfits, hfind], ?_, ?_, ?_⟩
      · intro b hb
        obtain rfl | hb := List.mem_cons.mp hb
        · exact List.mem_cons_self ..
        · exact List.mem_cons_of_mem _ (hvisited b hb)
      · intro b hb
        obtain ⟨hmem, hat⟩ := hfound b hb
        exact ⟨List.mem_cons_of_mem _ hmem, hat⟩
      · intro hnot b hb
        obtain rfl | hb := List.mem_cons.mp hb
        · rintro ⟨n', hn', hfits'⟩
          obtain rfl := Option.some.inj (hn.symm.trans hn')
          exact hfits hfits'
        · exact hnone hnot b hb

/-- A search finds the first cell that fits. -/
theorem find_first {h : Heap α} {p fuel : Nat} {l : List Nat} (fits : α → Bool) (hl : Chain h p l)
    (hfuel : l.length < fuel) :
    ∃ visited, find h fits fuel p =
      .ok (visited, l.find? fun a => ((h a).map Node.val).any fits) := by
  -- induction on the list; one unit of fuel pays for one node
  induction l generalizing p fuel with
  | nil =>
    obtain ⟨fuel, rfl⟩ := Nat.exists_eq_succ_of_ne_zero (Nat.pos_iff_ne_zero.mp hfuel)
    obtain rfl : p = 0 := hl
    exact ⟨[], by simp [find]⟩
  | cons a l ih =>
    obtain ⟨fuel, rfl⟩ := Nat.exists_eq_succ_of_ne_zero (Nat.ne_zero_of_lt hfuel)
    obtain ⟨rfl, hp, n, hn, hrest⟩ := hl
    have hany : ((h p).map Node.val).any fits = fits n.val := by rw [hn]; rfl
    rw [List.find?_cons, hany]
    cases hfits : fits n.val with
    | true => exact ⟨[p], by simp [find, hp, hn, hfits]⟩
    | false =>
      simp only [List.length_cons, Nat.succ_eq_add_one] at hfuel
      obtain ⟨visited, hfind⟩ := ih hrest (show l.length < fuel by omega)
      exact ⟨p :: visited, by simp [find, hp, hn, hfits, hfind]⟩

/-! ## Links -/

/-- The head pointer, or the next pointer of a cell. -/
inductive Link where
  | head
  | next (p : Nat)
deriving DecidableEq, Repr

/-- A heap with the head of a list. -/
structure Store (α : Type*) where
  heap : Heap α
  head : Nat

/-- The address a link holds. -/
def Store.read (s : Store α) : Link → Except Fault Nat
  | .head => .ok s.head
  | .next p =>
    match s.heap p with
    | none => .error .dangling
    | some n => .ok n.next

/-- The store with the link set to another address. -/
def Store.write (s : Store α) (link : Link) (q : Nat) : Store α :=
  match link with
  | .head => { s with head := q }
  | .next p =>
    { s with heap := Function.update s.heap p ((s.heap p).map fun n => { n with next := q }) }

/-- The store without the node. -/
def Store.free (s : Store α) (a : Nat) : Store α :=
  { s with heap := Function.update s.heap a none }

/-- The link from `link` on that points to `target`, or the last one. -/
def Store.findLink (s : Store α) (target : Nat) : Nat → Link → Except Fault Link
  | 0, _ => .error .endless
  | fuel + 1, link =>
    match s.read link with
    | .error e => .error e
    | .ok p => if p ≠ 0 ∧ p ≠ target then s.findLink target fuel (.next p) else .ok link

/-- The link behind some cells. -/
def Link.after (link : Link) (l : List Nat) : Link :=
  match l.getLast? with
  | none => link
  | some a => .next a

/-- The last link behind a list does not depend on where the first node hangs. -/
theorem Link.after_cons (link : Link) (a : Nat) (l : List Nat) :
    link.after (a :: l) = (Link.next a).after l := by
  cases l with
  | nil => rfl
  | cons b l => simp [Link.after, List.getLast?_cons]

/-- The search for the link of a node stops at the one in front of it. -/
theorem findLink_eq {s : Store α} {target p fuel : Nat} {l rest : List Nat} {link : Link}
    (hlink : s.read link = .ok p) (hl : Chain s.heap p (l ++ rest)) (htarget : target ∉ l)
    (hrest : rest = [] ∨ rest.head? = some target) (hfuel : l.length < fuel) :
    s.findLink target fuel link = .ok (link.after l) := by
  induction l generalizing p fuel link with
  | nil =>
    obtain ⟨fuel, rfl⟩ := Nat.exists_eq_succ_of_ne_zero (Nat.ne_zero_of_lt hfuel)
    -- the list before the target is used up: at its end, or at the target
    have hstop : ¬ (p ≠ 0 ∧ p ≠ target) := by
      rintro ⟨hp, hne⟩
      obtain rfl | hhead := hrest
      · exact hp hl
      · obtain ⟨ys, rfl⟩ := List.head?_eq_some_iff.mp hhead
        exact hne hl.1
    simp only [Store.findLink, hlink, if_neg hstop]
    rfl
  | cons a l ih =>
    obtain ⟨fuel, rfl⟩ := Nat.exists_eq_succ_of_ne_zero (Nat.ne_zero_of_lt hfuel)
    obtain ⟨rfl, hp, n, hn, hnext⟩ := hl
    simp only [List.mem_cons, not_or] at htarget
    simp only [List.length_cons, Nat.succ_eq_add_one] at hfuel
    have hgo : p ≠ 0 ∧ p ≠ target := ⟨hp, Ne.symm htarget.1⟩
    simp only [Store.findLink, hlink, if_pos hgo, Link.after_cons]
    exact ih (by simp [Store.read, hn]) hnext htarget.2 (by omega)

/-- The link behind a segment holds the segment's end. -/
theorem read_after {s : Store α} {p q : Nat} {l : List Nat} (hlink : s.read .head = .ok p)
    (hl : Segment s.heap p l q) : s.read (Link.head.after l) = .ok q := by
  obtain rfl | ⟨l, a, rfl⟩ := List.eq_nil_or_concat l
  · obtain rfl : p = q := hl
    exact hlink
  · rw [List.concat_eq_append] at hl ⊢
    obtain ⟨r, -, rfl, -, n, hn, rfl⟩ := segment_append.mp hl
    simp [Link.after, Store.read, hn]

/-- Redirecting a link and freeing a cell changes no value of the others. -/
theorem val_of_unlinked {s : Store α} {link : Link} {q a b : Nat} {m : Node α} (hb : b ≠ a)
    (hm : ((s.write link q).free a).heap b = some m) :
    ∃ n, s.heap b = some n ∧ n.val = m.val := by
  simp only [Store.free, Function.update_of_ne hb] at hm
  cases link with
  | head => exact ⟨m, hm, rfl⟩
  | next p =>
    by_cases hbp : b = p
    · subst hbp
      simp only [Store.write, Function.update_self, Option.map_eq_some_iff] at hm
      obtain ⟨n, hn, rfl⟩ := hm
      exact ⟨n, hn, rfl⟩
    · simp only [Store.write, Function.update_of_ne hbp] at hm
      exact ⟨m, hm, rfl⟩

/-- Taking one node out leaves the values of the others. -/
theorem map_val_unlinked (s : Store α) (link : Link) (q : Nat) {a b : Nat} (hb : b ≠ a) :
    (((s.write link q).free a).heap b).map Node.val = (s.heap b).map Node.val := by
  simp only [Store.free, Function.update_of_ne hb]
  cases link with
  | head => rfl
  | next p =>
    by_cases hbp : b = p
    · simp only [hbp, Store.write, Function.update_self, Option.map_map]
      rfl
    · simp only [Store.write, Function.update_of_ne hbp]

/-- Redirecting the link behind `l`, and freeing the cell it pointed to. -/
theorem unlink_segment {s : Store α} {a : Nat} {l l' : List Nat} {n : Node α}
    (hl : Chain s.heap s.head (l ++ a :: l')) (hnodup : (l ++ a :: l').Nodup)
    (hn : s.heap a = some n) :
    Chain ((s.write (Link.head.after l) n.next).free a).heap
      ((s.write (Link.head.after l) n.next).free a).head (l ++ l') := by
  obtain ⟨r, hfirst, rfl, ha, n', hn', hrest⟩ := segment_append.mp hl
  obtain rfl := Option.some.inj (hn.symm.trans hn')
  have hout : r ∉ l := by
    intro hmem
    exact (List.nodup_append.mp hnodup).2.2 r hmem r (List.mem_cons_self ..) rfl
  have hout' : r ∉ l' := (List.nodup_cons.mp (List.nodup_append.mp hnodup).2.1).1
  -- the link to change is the head, or in the last node `b` before the one taken out
  obtain rfl | ⟨l, b, rfl⟩ := List.eq_nil_or_concat l
  · exact hrest.update hout' none
  · rw [List.concat_eq_append] at hfirst hnodup hout ⊢
    have hb : b ∉ l' := fun hmem =>
      (List.nodup_append.mp hnodup).2.2 b (by simp) b (List.mem_cons_of_mem _ hmem) rfl
    obtain ⟨-, m, hm⟩ := hfirst.mem (List.mem_append_right l (List.mem_singleton.mpr rfl))
    have hafter : Link.head.after (l ++ [b]) = .next b := by simp [Link.after]
    rw [hafter]
    simp only [Store.write, Store.free, hm, Option.map_some]
    refine segment_append.mpr ⟨n.next, ?_, ?_⟩
    · exact (hfirst.relink (List.nodup_append.mp hnodup).1 hm).update hout none
    · exact (hrest.update hb _).update hout' none

end LinkedList
