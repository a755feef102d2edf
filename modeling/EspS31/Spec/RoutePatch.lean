import EspS31.Spec.RouteArguments

/-!
# Only the requested routes are patched

A successful `patch_route` changes one cell: the pinmux of the only node with the
route.  What the walk reads of the other nodes stays, so the tokens of a
specification can be taken one after the other, and the device gets a blob only when
all of them are done.

## Key results

- `patchRoute_ok`: what one token does to a blob
- `foldlM_patchRoute`: what the tokens do together
- `applySpec_patches`: what reaches the device
-/

namespace EspS31.Overlay

open CText

/-! ## Bytes -/

/-- A prefix that ends within the first elements is found in them. -/
private theorem takeWhile_take_of_stop {α : Type} {p : α → Bool} {l : List α} {k : Nat} {a : α}
    (h : l[k]? = some a) (ha : p a = false) : (l.take (k + 1)).takeWhile p = l.takeWhile p := by
  induction k generalizing l with
  | zero =>
    cases l with
    | nil => rfl
    | cons x xs =>
      obtain rfl := Option.some.inj h
      simp only [List.take_succ_cons, List.takeWhile_cons, ha, Bool.false_eq_true, if_false]
  | succ k ih =>
    cases l with
    | nil => rfl
    | cons x xs =>
      rw [List.take_succ_cons, List.takeWhile_cons, List.takeWhile_cons, ih h]

section

variable {blob blob' : Blob} {o : Nat} {v : BitVec 32}

/-- A string is read up to its terminator. -/
private theorem stringAt_congr {z : Nat} (hz : o ≤ z) (hzero : blob[z]? = some 0)
    (h : ∀ i ≤ z, blob'[i]? = blob[i]?) : stringAt blob' o = stringAt blob o := by
  -- a string that a zero byte ends at `z` depends on the bytes up to there
  have hcut : ∀ b : Blob, b[z]? = some 0 →
      stringAt b o = ((((b.drop o).take (z - o + 1)).takeWhile (· ≠ 0)).map
        fun c => Char.ofNat c.toNat) := by
    intro b hb
    have hstop : (b.drop o)[z - o]? = some 0 := by
      rw [List.getElem?_drop, Nat.add_sub_cancel' hz, hb]
    rw [takeWhile_take_of_stop hstop (by decide), stringAt]
  have hpart : (blob'.drop o).take (z - o + 1) = (blob.drop o).take (z - o + 1) := by
    apply List.ext_getElem?
    intro i
    rw [List.getElem?_take, List.getElem?_take]
    split
    · next hi => rw [List.getElem?_drop, List.getElem?_drop, h (o + i) (by omega)]
    · rfl
  rw [hcut blob' ((h z le_rfl).trans hzero), hcut blob hzero, hpart]

/-- A string does not depend on the bytes before it. -/
private theorem stringAt_congr_from (h : ∀ i, o ≤ i → blob'[i]? = blob[i]?) :
    stringAt blob' o = stringAt blob o := by
  have hdrop : blob'.drop o = blob.drop o := by
    apply List.ext_getElem?
    intro i
    rw [List.getElem?_drop, List.getElem?_drop, h (o + i) (by omega)]
  rw [stringAt, hdrop, stringAt]

/-- A cell written in place leaves the length. -/
private theorem putCell_length (h : o + 4 ≤ blob.length) :
    (putCell blob o v).length = blob.length := by
  simp only [putCell, cellBytes, List.length_append, List.length_take, List.length_drop,
    List.length_cons, List.length_nil]
  omega

/-- A byte of the blob after a cell was written. -/
private theorem putCell_getElem? (h : o + 4 ≤ blob.length) (i : Nat) :
    (putCell blob o v)[i]? =
      if o ≤ i ∧ i < o + 4 then (cellBytes v)[i - o]? else blob[i]? := by
  have hlen : (blob.take o).length = o := List.length_take_of_le (by omega)
  have hcell : (cellBytes v).length = 4 := rfl
  rw [putCell]
  by_cases hlt : i < o
  · rw [List.getElem?_append_left (by omega), List.getElem?_take_of_lt hlt, if_neg (by omega)]
  · rw [List.getElem?_append_right (by omega), hlen]
    by_cases hin : i < o + 4
    · rw [List.getElem?_append_left (by omega), if_pos (by omega)]
    · rw [List.getElem?_append_right (by omega), List.getElem?_drop, if_neg (by omega), hcell]
      congr 1
      omega

/-- The bytes outside of the cell are as they were. -/
private theorem putCell_getElem?_of_out (h : o + 4 ≤ blob.length) {i : Nat}
    (hi : i < o ∨ o + 4 ≤ i) :
    (putCell blob o v)[i]? = blob[i]? := by
  rw [putCell_getElem? h, if_neg (by omega)]

/-- A byte depends on its place only. -/
private theorem byteAt_congr {i : Nat} (h : blob'[i]? = blob[i]?) :
    byteAt blob' i = byteAt blob i := by
  rw [byteAt, byteAt, List.getD_eq_getElem?_getD, List.getD_eq_getElem?_getD, h]

/-- A cell depends on its four bytes only. -/
private theorem cellAt_congr (h : ∀ i, o ≤ i → i < o + 4 → blob'[i]? = blob[i]?) :
    cellAt blob' o = cellAt blob o := by
  rw [cellAt, cellAt, byteAt_congr (h o (by omega) (by omega)),
    byteAt_congr (h (o + 1) (by omega) (by omega)), byteAt_congr (h (o + 2) (by omega) (by omega)),
    byteAt_congr (h (o + 3) (by omega) (by omega))]

/-- The bytes of the cell that was written. -/
private theorem byteAt_putCell (h : o + 4 ≤ blob.length) {k : Nat} (hk : k < 4) :
    byteAt (putCell blob o v) (o + k) = ((cellBytes v).getD k 0).toBitVec := by
  rw [byteAt, List.getD_eq_getElem?_getD, putCell_getElem? h, if_pos (by omega),
    Nat.add_sub_cancel_left, List.getD_eq_getElem?_getD]

/-- The four bytes of a cell make it up again. -/
private theorem append_cellBytes (v : BitVec 32) :
    v.extractLsb' 24 8 ++ v.extractLsb' 16 8 ++ v.extractLsb' 8 8 ++ v.extractLsb' 0 8 = v := by
  apply BitVec.eq_of_getLsbD_eq
  intro i hi
  simp only [BitVec.getLsbD_append, BitVec.getLsbD_extractLsb']
  have h32 : i - 8 - 8 - 8 < 8 := by omega
  -- which byte bit `i` lies in
  by_cases h8 : i < 8
  · simp [h8]
  · by_cases h16 : i - 8 < 8
    · rw [if_neg h8, if_pos h16, show 8 + (i - 8) = i by omega]
      simp [h16]
    · by_cases h24 : i - 8 - 8 < 8
      · rw [if_neg h8, if_neg h16, if_pos h24, show 16 + (i - 8 - 8) = i by omega]
        simp [h24]
      · rw [if_neg h8, if_neg h16, if_neg h24, show 24 + (i - 8 - 8 - 8) = i by omega]
        simp [h32]

/-- The cell that was written is read again. -/
private theorem cellAt_putCell (h : o + 4 ≤ blob.length) : cellAt (putCell blob o v) o = v := by
  have hfirst := byteAt_putCell (v := v) h (show 0 < 4 by decide)
  rw [Nat.add_zero] at hfirst
  rw [cellAt, hfirst, byteAt_putCell h (by decide), byteAt_putCell h (by decide),
    byteAt_putCell h (by decide)]
  exact append_cellBytes v

end

/-! ## The pad of a cell -/

/-- The mask covers the low eight bits. -/
private theorem getLsbD_ff (i : Nat) : (0xff#32).getLsbD i = decide (i < 8) := by
  rw [BitVec.getLsbD_ofNat, show 0xff = 2 ^ 8 - 1 by decide, Nat.testBit_two_pow_sub_one]
  by_cases h : i < 8
  · simp [h, show i < 32 by omega]
  · simp [h]

/-- A pin has eight bits. -/
private theorem testBit_gpio {gpio i : Nat} (hgpio : gpio < 2 ^ 8) (hi : ¬ i < 8) :
    gpio.testBit i = false := by
  apply Nat.testBit_lt_two_pow
  exact Nat.lt_of_lt_of_le hgpio (Nat.pow_le_pow_right (by decide) (by omega))

/-- The low eight bits are the pin's, the others those of the cell. -/
private theorem getLsbD_withGpio (cell : BitVec 32) {gpio i : Nat} (hgpio : gpio < 2 ^ 8)
    (hi : i < 32) :
    (withGpio cell gpio).getLsbD i = if i < 8 then gpio.testBit i else cell.getLsbD i := by
  rw [withGpio, BitVec.getLsbD_or, BitVec.getLsbD_and, BitVec.getLsbD_not, getLsbD_ff,
    BitVec.getLsbD_ofNat]
  by_cases h8 : i < 8
  · simp [h8, hi]
  · simp [h8, hi, testBit_gpio hgpio h8]

/-- The low eight bits are the pad. -/
private theorem withGpio_low (cell : BitVec 32) {gpio : Nat} (hgpio : gpio < 2 ^ 8) :
    withGpio cell gpio &&& 0xff#32 = BitVec.ofNat 32 gpio := by
  apply BitVec.eq_of_getLsbD_eq
  intro i hi
  rw [BitVec.getLsbD_and, getLsbD_withGpio cell hgpio hi, getLsbD_ff, BitVec.getLsbD_ofNat]
  by_cases h8 : i < 8
  · simp [h8, hi]
  · simp [h8, testBit_gpio hgpio h8]

/-- The other bits are those of the cell. -/
private theorem withGpio_high (cell : BitVec 32) {gpio : Nat} (hgpio : gpio < 2 ^ 8) :
    withGpio cell gpio >>> 8 = cell >>> 8 := by
  apply BitVec.eq_of_getLsbD_eq
  intro i hi
  rw [BitVec.getLsbD_ushiftRight, BitVec.getLsbD_ushiftRight]
  by_cases h32 : 8 + i < 32
  · rw [getLsbD_withGpio cell hgpio h32, if_neg (by omega)]
  · rw [BitVec.getLsbD_of_ge _ _ (by omega), BitVec.getLsbD_of_ge _ _ (by omega)]

/-- A later pad replaces an earlier one. -/
private theorem withGpio_withGpio (cell : BitVec 32) {gpio gpio' : Nat} (hgpio : gpio < 2 ^ 8)
    (hgpio' : gpio' < 2 ^ 8) : withGpio (withGpio cell gpio) gpio' = withGpio cell gpio' := by
  apply BitVec.eq_of_getLsbD_eq
  intro i hi
  rw [getLsbD_withGpio _ hgpio' hi, getLsbD_withGpio _ hgpio' hi, getLsbD_withGpio _ hgpio hi]
  by_cases h8 : i < 8
  · rw [if_pos h8, if_pos h8]
  · rw [if_neg h8, if_neg h8, if_neg h8]

/-! ## What libfdt promises -/

/-- The positions of the nodes behind `pos`. -/
def Libfdt.walk (fdt : Libfdt) (blob : Blob) (pos : Int × Int) : List (Int × Int) :=
  if _h : 0 ≤ (fdt.nextNode blob pos).1 then
    fdt.nextNode blob pos :: fdt.walk blob (fdt.nextNode blob pos)
  else []
termination_by (2 ^ 31 - pos.1).toNat
decreasing_by have := fdt.forward blob pos _h; omega

/-- Where the walk starts. -/
def start : Int × Int := (-1, 0)

/-- The nodes of the tree, in the order they are gone through. -/
def Libfdt.nodes (fdt : Libfdt) (blob : Blob) : List Int := (fdt.walk blob start).map (·.1)

/-- A property read as a string. -/
def Libfdt.stringProp (fdt : Libfdt) (blob : Blob) (node : Int) (name : Text) : Option Text :=
  (fdt.getprop blob node name).map fun value => stringAt blob value.1

/-- The nodes and the places of their properties are the same. -/
structure Libfdt.SameTree (fdt : Libfdt) (blob blob' : Blob) : Prop where
  next : ∀ pos ∈ start :: fdt.walk blob start, fdt.nextNode blob' pos = fdt.nextNode blob pos
  getprop : ∀ node ∈ fdt.nodes blob, ∀ name, fdt.getprop blob' node name = fdt.getprop blob node name

/-- The documented behaviour on the blobs that are device trees.  The values of
    properties are inside the blob and apart from each other, with the tag of a
    property, which starts with a zero byte, before each; a cell is changed in place
    and the tree stays. -/
structure Libfdt.Documented (fdt : Libfdt) (IsDtbo : Blob → Prop) : Prop where
  inside : ∀ {blob node name o len}, IsDtbo blob → node ∈ fdt.nodes blob →
    fdt.getprop blob node name = some (o, len) → o + len ≤ blob.length
  own : ∀ {blob node node' name name' o len len'}, IsDtbo blob → node ∈ fdt.nodes blob →
    node' ∈ fdt.nodes blob → fdt.getprop blob node name = some (o, len) →
    fdt.getprop blob node' name' = some (o, len') → node = node' ∧ name = name'
  apart : ∀ {blob node node' name name' o o' len len'}, IsDtbo blob → node ∈ fdt.nodes blob →
    node' ∈ fdt.nodes blob → fdt.getprop blob node name = some (o, len) →
    fdt.getprop blob node' name' = some (o', len') → o < o' →
    o + len ≤ o' ∧ ∃ z, o ≤ z ∧ z < o' ∧ blob[z]? = some 0
  setprop : ∀ {blob node name o}, IsDtbo blob → node ∈ fdt.nodes blob →
    fdt.getprop blob node name = some (o, 4) → ∀ v,
    fdt.setpropInplaceU32 blob node name v = (0, putCell blob o v) ∧
      IsDtbo (putCell blob o v) ∧ fdt.SameTree blob (putCell blob o v)

section

variable {fdt : Libfdt} {file blob blob' : Blob}

/-- The walk goes on behind each of its positions. -/
private theorem nextNode_mem_walk {pos q : Int × Int} (hq : q ∈ pos :: fdt.walk blob pos)
    (hnext : 0 ≤ (fdt.nextNode blob q).1) : fdt.nextNode blob q ∈ fdt.walk blob pos := by
  fun_induction Libfdt.walk fdt blob pos with
  | case1 pos h ih =>
    obtain rfl | hq := List.mem_cons.mp hq
    · exact List.mem_cons_self ..
    · exact List.mem_cons_of_mem _ (ih hq)
  | case2 pos h =>
    obtain rfl := List.mem_singleton.mp hq
    exact absurd hnext h

/-- The walk in a blob with the same tree. -/
theorem Libfdt.SameTree.walk_eq (h : fdt.SameTree blob blob') {pos : Int × Int}
    (hpos : pos ∈ start :: fdt.walk blob start) : fdt.walk blob' pos = fdt.walk blob pos := by
  fun_induction Libfdt.walk fdt blob pos with
  | case1 pos hnext ih =>
    have hmem := List.mem_cons_of_mem start (nextNode_mem_walk hpos hnext)
    rw [Libfdt.walk, h.next pos hpos, dif_pos hnext, ih hmem]
  | case2 pos hnext => rw [Libfdt.walk, h.next pos hpos, dif_neg hnext]

/-- Blobs of one tree have the same nodes. -/
theorem Libfdt.SameTree.nodes_eq (h : fdt.SameTree blob blob') : fdt.nodes blob' = fdt.nodes blob := by
  rw [Libfdt.nodes, h.walk_eq (List.mem_cons_self ..), Libfdt.nodes]

/-- Being of one tree is transitive. -/
theorem Libfdt.SameTree.trans (h : fdt.SameTree file blob) (h' : fdt.SameTree blob blob') :
    fdt.SameTree file blob' where
  next pos hpos := by
    rw [h'.next pos, h.next pos hpos]
    rwa [h.walk_eq (List.mem_cons_self ..)]
  getprop node hnode name := by
    rw [h'.getprop node (h.nodes_eq ▸ hnode), h.getprop node hnode]

variable {IsDtbo : Blob → Prop} {node : Int} {o : Nat}

/-- A blob in which only pinmux cells differ from the file. -/
structure KeepsTree (fdt : Libfdt) (IsDtbo : Blob → Prop) (file blob : Blob) : Prop where
  dtbo : IsDtbo blob
  tree : fdt.SameTree file blob
  strings : ∀ node ∈ fdt.nodes file, ∀ name, name ≠ pinmux →
    fdt.stringProp blob node name = fdt.stringProp file node name
  length : blob.length = file.length

/-- The file itself has its tree. -/
theorem KeepsTree.refl (h : IsDtbo file) : KeepsTree fdt IsDtbo file file :=
  ⟨h, ⟨fun _ _ => rfl, fun _ _ _ => rfl⟩, fun _ _ _ _ => rfl, rfl⟩

/-- A string property does not change with a pinmux cell: it is behind the cell or
    ends before it. -/
private theorem stringProp_putCell (doc : fdt.Documented IsDtbo) (hblob : IsDtbo blob)
    (hnode : node ∈ fdt.nodes blob) (hcell : fdt.getprop blob node pinmux = some (o, 4))
    (v : BitVec 32) {node' : Int} (hnode' : node' ∈ fdt.nodes blob) {name : Text}
    (hname : name ≠ pinmux) :
    fdt.stringProp (putCell blob o v) node' name = fdt.stringProp blob node' name := by
  obtain ⟨-, -, htree⟩ := doc.setprop hblob hnode hcell v
  have hinside := doc.inside hblob hnode hcell
  rw [Libfdt.stringProp, Libfdt.stringProp, htree.getprop node' hnode']
  cases hprop : fdt.getprop blob node' name with
  | none => rfl
  | some value =>
    obtain ⟨o', len⟩ := value
    refine congrArg some ?_
    obtain hlt | heq | hgt := Nat.lt_trichotomy o' o
    -- the property lies in front of the cell and its string ends there
    · obtain ⟨-, z, hz, hzo, hzero⟩ := doc.apart hblob hnode' hnode hprop hcell hlt
      refine stringAt_congr hz hzero fun i hi => ?_
      exact putCell_getElem?_of_out hinside (.inl (by omega))
    -- at the same offset only the property itself can be
    · subst heq
      exact absurd (doc.own hblob hnode' hnode hprop hcell).2 hname
    -- it lies behind the cell
    · obtain ⟨hbehind, -⟩ := doc.apart hblob hnode hnode' hcell hprop hgt
      refine stringAt_congr_from fun i hi => ?_
      exact putCell_getElem?_of_out hinside (.inr (by omega))

/-- One cell more. -/
theorem KeepsTree.putCell (doc : fdt.Documented IsDtbo) (h : KeepsTree fdt IsDtbo file blob)
    (hnode : node ∈ fdt.nodes file) (hcell : fdt.getprop file node pinmux = some (o, 4))
    (v : BitVec 32) : KeepsTree fdt IsDtbo file (putCell blob o v) := by
  have hnodes := h.tree.nodes_eq
  have hnode' : node ∈ fdt.nodes blob := hnodes ▸ hnode
  have hcell' : fdt.getprop blob node pinmux = some (o, 4) := (h.tree.getprop node hnode _).trans hcell
  obtain ⟨-, hdtbo, htree⟩ := doc.setprop h.dtbo hnode' hcell' v
  refine ⟨hdtbo, h.tree.trans htree, fun m hm name hname => ?_, ?_⟩
  · rw [stringProp_putCell doc h.dtbo hnode' hcell' v (hnodes ▸ hm) hname, h.strings m hm name hname]
  · rw [putCell_length (doc.inside h.dtbo hnode' hcell'), h.length]

/-! ## One token -/

/-- The kinds of route that can be moved. -/
def Movable (kind : Option Text) : Prop :=
  kind = some "matrix-input".toList ∨ kind = some "matrix-output".toList

/-- A node that is passed over does not have the name. -/
private theorem patchNode_none {route : Text} {gpio : Nat}
    (h : patchNode fdt route gpio blob node = .ok none) :
    fdt.stringProp blob node routeName ≠ some route := by
  intro hroute
  rw [Libfdt.stringProp, Option.map_eq_some_iff] at hroute
  obtain ⟨⟨name, len⟩, hname, hstring⟩ := hroute
  rw [patchNode, hname] at h
  dsimp only at h
  rw [if_neg (not_not.mpr hstring)] at h
  -- with this route every way through the function fails or patches
  split at h
  · exact nomatch h
  · split at h
    · exact nomatch h
    · split at h
      · exact nomatch h
      · split at h
        · exact nomatch h
        · split at h
          · exact nomatch h
          · exact nomatch Except.ok.inj h

/-- A node that is patched has the route, can be moved and has one cell. -/
private theorem patchNode_some (doc : fdt.Documented IsDtbo) (hblob : IsDtbo blob)
    (hnode : node ∈ fdt.nodes blob) {route : Text} {gpio : Nat}
    (h : patchNode fdt route gpio blob node = .ok (some blob')) :
    fdt.stringProp blob node routeName = some route ∧ Movable (fdt.stringProp blob node routeKind) ∧
      ∃ o, fdt.getprop blob node pinmux = some (o, 4) ∧
        blob' = putCell blob o (withGpio (cellAt blob o) gpio) := by
  -- the tests of the source one after the other, of which all are passed
  rw [patchNode] at h
  split at h
  · exact nomatch Except.ok.inj h
  · next name len hname =>
    split at h
    · exact nomatch Except.ok.inj h
    · next hroute =>
      split at h
      · exact nomatch h
      · next kind len' hkind =>
        split at h
        · exact nomatch h
        · next hmovable =>
          split at h
          · exact nomatch h
          · next cell len'' hcell =>
            split at h
            · exact nomatch h
            · next hlen =>
              obtain rfl := not_not.mp hlen
              rw [(doc.setprop hblob hnode hcell _).1] at h
              refine ⟨?_, ?_, cell, hcell, ?_⟩
              · rw [Libfdt.stringProp, hname, ← not_not.mp hroute]
                rfl
              · rw [Movable, Libfdt.stringProp, hkind]
                rw [not_and_or, not_not, not_not] at hmovable
                exact hmovable.imp (congrArg some) (congrArg some)
              · exact (Option.some.inj (Except.ok.inj h)).symm

/-- A node of the file that has the route, can be moved and has one cell, at `o`. -/
structure Carries (fdt : Libfdt) (file : Blob) (route : Text) (node : Int) (o : Nat) : Prop where
  isNode : node ∈ fdt.nodes file
  hasRoute : fdt.stringProp file node routeName = some route
  movable : Movable (fdt.stringProp file node routeKind)
  cell : fdt.getprop file node pinmux = some (o, 4)

/-- The only node with the route. -/
structure Target (fdt : Libfdt) (file : Blob) (route : Text) (node : Int) (o : Nat) : Prop
    extends Carries fdt file route node o where
  only : ∀ node' ∈ fdt.nodes file, fdt.stringProp file node' routeName = some route → node' = node

/-- How many nodes behind `pos` have the route. -/
def countRoute (fdt : Libfdt) (file : Blob) (route : Text) (pos : Int × Int) : Nat :=
  ((fdt.walk file pos).map (·.1)).countP fun node => fdt.stringProp file node routeName = some route

/-- A successful loop has counted the nodes with the route, and patched them. -/
private theorem patchLoop_ok (doc : fdt.Documented IsDtbo) {route : Text} {gpio : Nat}
    {pos : Int × Int}
    {found found' : Nat} (hkeeps : KeepsTree fdt IsDtbo file blob)
    (hpos : pos ∈ start :: fdt.walk file start)
    (h : patchLoop fdt route gpio blob pos found = .ok (blob', found')) :
    found' = found + countRoute fdt file route pos ∧
      (countRoute fdt file route pos = 0 → blob' = blob) ∧
      (countRoute fdt file route pos = 1 → ∃ node o, Carries fdt file route node o ∧
        blob' = putCell blob o (withGpio (cellAt blob o) gpio)) := by
  have hnextEq := hkeeps.tree.next pos hpos
  fun_induction patchLoop fdt route gpio blob pos found with
  | case1 blob pos found hnext e hpatch => exact nomatch h
  | case2 blob pos found hnext hpatch ih =>
    -- another node
    rw [hnextEq] at hnext hpatch h ih
    have hmem := nextNode_mem_walk hpos hnext
    have hnode : (fdt.nextNode file pos).1 ∈ fdt.nodes file := List.mem_map_of_mem hmem
    have hother := patchNode_none hpatch
    rw [hkeeps.strings _ hnode _ (by decide)] at hother
    have hcount : countRoute fdt file route pos = countRoute fdt file route (fdt.nextNode file pos) := by
      rw [countRoute, Libfdt.walk, dif_pos hnext, List.map_cons, List.countP_cons_of_neg (by simpa)]
      rfl
    rw [hcount]
    have hmem' := List.mem_cons_of_mem start hmem
    exact ih hkeeps hmem' h (hkeeps.tree.next _ hmem')
  | case3 blob pos found hnext patched hpatch ih =>
    rw [hnextEq] at hnext hpatch h ih
    have hmem := nextNode_mem_walk hpos hnext
    have hnode : (fdt.nextNode file pos).1 ∈ fdt.nodes file := List.mem_map_of_mem hmem
    obtain ⟨hroute, hmovable, o, hcell, rfl⟩ :=
      patchNode_some doc hkeeps.dtbo (hkeeps.tree.nodes_eq ▸ hnode) hpatch
    rw [hkeeps.strings _ hnode _ (by decide)] at hroute hmovable
    rw [hkeeps.tree.getprop _ hnode] at hcell
    have hcount : countRoute fdt file route pos =
        countRoute fdt file route (fdt.nextNode file pos) + 1 := by
      rw [countRoute, Libfdt.walk, dif_pos hnext, List.map_cons, List.countP_cons_of_pos (by simpa)]
      rfl
    have hmem' := List.mem_cons_of_mem start hmem
    have hkeeps' := hkeeps.putCell doc hnode hcell (withGpio (cellAt blob o) gpio)
    obtain ⟨hfound, hnone, -⟩ := ih hkeeps' hmem' h (hkeeps'.tree.next _ hmem')
    rw [hcount]
    refine ⟨by omega, nofun, fun hone => ?_⟩
    exact ⟨_, o, ⟨hnode, hroute, hmovable, hcell⟩, hnone (by omega)⟩
  | case4 blob pos found hnext =>
    rw [hnextEq] at hnext
    obtain ⟨rfl, rfl⟩ := Prod.mk.inj (Except.ok.inj h)
    have hcount : countRoute fdt file route pos = 0 := by
      rw [countRoute, Libfdt.walk, dif_neg hnext]
      rfl
    rw [hcount]
    exact ⟨rfl, fun _ => rfl, nofun⟩

/-- A route that is counted once has one node. -/
private theorem target_of_count {route : Text} (h : countRoute fdt file route start = 1)
    (hcarries : Carries fdt file route node o) : Target fdt file route node o := by
  refine ⟨hcarries, fun node' hnode' hroute' => ?_⟩
  rw [countRoute, List.countP_eq_length_filter, List.length_eq_one_iff] at h
  obtain ⟨only, honly⟩ := h
  have hmem : ∀ m ∈ fdt.nodes file, fdt.stringProp file m routeName = some route → m = only := by
    intro m hm hr
    have hfilter : m ∈ (fdt.nodes file).filter fun node =>
        fdt.stringProp file node routeName = some route := List.mem_filter.mpr ⟨hm, decide_eq_true hr⟩
    rw [Libfdt.nodes, honly] at hfilter
    exact List.mem_singleton.mp hfilter
  rw [hmem node' hnode' hroute', hmem node hcarries.isNode hcarries.hasRoute]

/-- A token that is accepted names a route of one movable node, and its cell is
    changed. -/
theorem patchRoute_ok (doc : fdt.Documented IsDtbo) {einval : Bool} {t : Text}
    (hkeeps : KeepsTree fdt IsDtbo file blob) (h : patchRoute einval fdt blob t = .ok blob') :
    ∃ route gpio node o, routeArguments einval t = .ok (route, gpio) ∧
      Target fdt file route node o ∧ blob' = putCell blob o (withGpio (cellAt blob o) gpio) := by
  rw [patchRoute] at h
  split at h
  · exact nomatch h
  · next route gpio hargs =>
    split at h
    · exact nomatch h
    · next patched found hloop =>
      obtain ⟨hfound, -, hone⟩ := patchLoop_ok doc hkeeps (List.mem_cons_self ..) hloop
      split at h
      · exact nomatch h
      -- the loop has patched one node, which is the only one with this route
      · next hcount =>
        rw [Nat.zero_add] at hfound
        have hcount' := hfound.symm.trans (not_not.mp hcount)
        obtain ⟨node, o, hcarries, hblob⟩ := hone hcount'
        obtain rfl := Except.ok.inj h
        exact ⟨route, gpio, node, o, hargs, target_of_count hcount' hcarries, hblob⟩

/-! ## The tokens of a specification -/

variable {einval : Bool} {tokens : List Text}

/-- The pad that the last token of a route gives it. -/
def lastGpio (einval : Bool) (tokens : List Text) (route : Text) : Option Nat :=
  ((tokens.filterMap fun t => (routeArguments einval t).toOption).filter
    (·.1 = route)).getLast?.map (·.2)

/-- The last assignment of a route decides. -/
private theorem lastGpio_concat (tokens : List Text) {t route : Text} {gpio : Nat}
    (h : routeArguments einval t = .ok (route, gpio)) (route' : Text) :
    lastGpio einval (tokens ++ [t]) route' =
      if route = route' then some gpio else lastGpio einval tokens route' := by
  have hlast : [t].filterMap (fun t => (routeArguments einval t).toOption) = [(route, gpio)] := by
    rw [List.filterMap_cons, h]
    rfl
  rw [lastGpio, List.filterMap_append, hlast, List.filter_append]
  by_cases hroute : route = route'
  · rw [if_pos hroute, List.filter_cons_of_pos (by simpa using hroute), List.filter_nil,
      List.getLast?_concat]
    rfl
  · rw [if_neg hroute, List.filter_cons_of_neg (by simpa using hroute), List.filter_nil,
      List.append_nil, lastGpio]

/-- The pads of the tokens pass the check. -/
private theorem lastGpio_lt {route : Text} {gpio : Nat}
    (h : lastGpio einval tokens route = some gpio) :
    gpio < 2 ^ 8 := by
  obtain ⟨⟨r, g⟩, hlast, rfl⟩ := Option.map_eq_some_iff.mp h
  obtain ⟨t, -, ht⟩ := List.mem_filterMap.mp (List.mem_of_mem_filter (List.mem_of_getLast? hlast))
  cases hargs : routeArguments einval t with
  | error e =>
    rw [hargs] at ht
    exact nomatch ht
  | ok a =>
    rw [hargs] at ht
    obtain rfl := Option.some.inj ht
    obtain ⟨-, -, -, hvalid⟩ := routeArguments_ok_iff.mp hargs
    exact validGpio_lt_pad hvalid

/-- The cells of different routes are apart. -/
theorem Target.apart (doc : fdt.Documented IsDtbo) (hfile : IsDtbo file) {route route' : Text}
    {node' : Int} {o' : Nat} (h : Target fdt file route node o)
    (h' : Target fdt file route' node' o') (hne : route ≠ route') : o + 4 ≤ o' ∨ o' + 4 ≤ o := by
  obtain hlt | rfl | hgt := Nat.lt_trichotomy o o'
  · exact .inl (doc.apart hfile h.isNode h'.isNode h.cell h'.cell hlt).1
  · obtain ⟨rfl, -⟩ := doc.own hfile h.isNode h'.isNode h.cell h'.cell
    exact absurd (Option.some.inj (h.hasRoute.symm.trans h'.hasRoute)) hne
  · exact .inr (doc.apart hfile h'.isNode h.isNode h'.cell h.cell hgt).1

/-- A route has one place in the blob. -/
theorem Target.unique {route : Text} {node' : Int} {o' : Nat} (h : Target fdt file route node o)
    (h' : Target fdt file route node' o') : o = o' := by
  obtain rfl := h.only node' h'.isNode h'.hasRoute
  exact (Prod.mk.inj (Option.some.inj (h.cell.symm.trans h'.cell))).1

/-- A token that names a route of one movable node with one cell. -/
def GoodToken (einval : Bool) (fdt : Libfdt) (file : Blob) (t : Text) : Prop :=
  ∃ route gpio node o, routeArguments einval t = .ok (route, gpio) ∧ Target fdt file route node o

/-- Where a blob is after some tokens. -/
structure Progress (einval : Bool) (fdt : Libfdt) (IsDtbo : Blob → Prop) (file : Blob)
    (tokens : List Text) (blob : Blob) : Prop where
  keeps : KeepsTree fdt IsDtbo file blob
  named : ∀ t ∈ tokens, GoodToken einval fdt file t
  cell : ∀ route node o, Target fdt file route node o →
    cellAt blob o = (lastGpio einval tokens route).elim (cellAt file o) (withGpio (cellAt file o))
  frame : ∀ i, (∀ route node o, Target fdt file route node o →
    lastGpio einval tokens route ≠ none → i < o ∨ o + 4 ≤ i) → blob[i]? = file[i]?

/-- Nothing is patched at the start. -/
theorem Progress.nil (h : IsDtbo file) : Progress einval fdt IsDtbo file [] file :=
  ⟨.refl h, nofun, fun _ _ _ _ => rfl, fun _ _ => rfl⟩

/-- One token more. -/
theorem Progress.concat (doc : fdt.Documented IsDtbo) (hfile : IsDtbo file) {t : Text}
    (h : Progress einval fdt IsDtbo file tokens blob)
    (hpatch : patchRoute einval fdt blob t = .ok blob') :
    Progress einval fdt IsDtbo file (tokens ++ [t]) blob' := by
  -- the token writes one cell, that of the node with its route
  obtain ⟨route, gpio, node, o, hargs, htarget, rfl⟩ := patchRoute_ok doc h.keeps hpatch
  have hlast := lastGpio_concat tokens hargs
  have hgpio : gpio < 2 ^ 8 := by
    obtain ⟨-, -, -, hvalid⟩ := routeArguments_ok_iff.mp hargs
    exact validGpio_lt_pad hvalid
  have hinside : o + 4 ≤ blob.length := by
    rw [h.keeps.length]
    exact doc.inside hfile htarget.isNode htarget.cell
  refine ⟨h.keeps.putCell doc htarget.isNode htarget.cell _, fun t' ht' => ?_,
    fun route' node' o' htarget' => ?_, fun i hi => ?_⟩
  · obtain ht' | ht' := List.mem_append.mp ht'
    · exact h.named t' ht'
    · obtain rfl := List.mem_singleton.mp ht'
      exact ⟨route, gpio, node, o, hargs, htarget⟩
  · rw [hlast]
    by_cases hroute : route = route'
    · -- the cell that is written: an earlier pad is replaced
      subst hroute
      obtain rfl := htarget.unique htarget'
      rw [if_pos rfl, cellAt_putCell hinside, h.cell route node o htarget]
      cases hprev : lastGpio einval tokens route with
      | none => rfl
      | some prev => exact withGpio_withGpio _ (lastGpio_lt hprev) hgpio
    · rw [if_neg hroute, ← h.cell route' node' o' htarget']
      have hapart := htarget.apart doc hfile htarget' hroute
      exact cellAt_congr fun i hlo hhi => putCell_getElem?_of_out hinside (by omega)
  · have hout := hi route node o htarget (by rw [hlast, if_pos rfl]; exact nofun)
    rw [putCell_getElem?_of_out hinside hout]
    refine h.frame i fun route' node' o' htarget' hnamed => hi route' node' o' htarget' ?_
    rw [hlast]
    split
    · exact nofun
    · exact hnamed

/-- The tokens one after the other. -/
theorem foldlM_patchRoute (doc : fdt.Documented IsDtbo) (hfile : IsDtbo file) {done : List Text}
    (h : Progress einval fdt IsDtbo file done blob)
    (hfold : tokens.foldlM (patchRoute einval fdt) blob = .ok blob') :
    Progress einval fdt IsDtbo file (done ++ tokens) blob' := by
  induction tokens generalizing done blob with
  | nil =>
    obtain rfl := Except.ok.inj hfold
    rwa [List.append_nil]
  | cons t tokens ih =>
    rw [List.foldlM_cons] at hfold
    cases hpatch : patchRoute einval fdt blob t with
    | error e =>
      rw [hpatch] at hfold
      exact nomatch hfold
    | ok patched =>
      rw [hpatch] at hfold
      have hrest := ih (h.concat doc hfile hpatch) hfold
      rwa [List.append_assoc, List.singleton_append] at hrest

/-! ## What reaches the device -/

/-- A blob that differs from the file in the pads of the named routes only. -/
structure RoutesPatched (einval : Bool) (fdt : Libfdt) (file : Blob) (tokens : List Text)
    (blob : Blob) : Prop where
  named : ∀ t ∈ tokens, GoodToken einval fdt file t
  cells : ∀ route node o gpio, Target fdt file route node o →
    lastGpio einval tokens route = some gpio →
    cellAt blob o &&& 0xff#32 = BitVec.ofNat 32 gpio ∧ cellAt blob o >>> 8 = cellAt file o >>> 8
  length : blob.length = file.length
  frame : ∀ i, (∀ route node o, Target fdt file route node o →
    lastGpio einval tokens route ≠ none → i < o ∨ o + 4 ≤ i) → blob[i]? = file[i]?

/-- After all assignments the routes are patched. -/
theorem Progress.routesPatched (h : Progress einval fdt IsDtbo file tokens blob) :
    RoutesPatched einval fdt file tokens blob := by
  refine ⟨h.named, fun route node o gpio htarget hlast => ?_, h.keeps.length, h.frame⟩
  rw [h.cell route node o htarget, hlast]
  exact ⟨withGpio_low _ (lastGpio_lt hlast), withGpio_high _ (lastGpio_lt hlast)⟩

/-- The reads of `load_blob` add up to the file. -/
private theorem readAll_ok {read : Nat → Nat} {i : Nat}
    (hdone : blob ++ file.drop blob.length = file)
    (h : readAll read file blob i = .ok blob') : blob' = file := by
  fun_induction readAll read file blob i with
  | case1 blob i hall =>
    obtain rfl := Except.ok.inj h
    rwa [List.drop_of_length_le hall, List.append_nil] at hdone
  | case2 blob i hmore hgot => exact nomatch h
  | case3 blob i hmore hgot ih =>
    refine ih ?_ h
    rw [List.length_append, ← List.drop_drop, List.append_assoc]
    generalize hrest : file.drop blob.length = rest at hdone ⊢
    rw [List.length_take, List.take_eq_take_min, List.take_append_drop, hdone]

/-- A file that one read returns. -/
private theorem readAll_whole {read : Nat → Nat} {i : Nat} (hpos : 0 < file.length)
    (hread : file.length ≤ read i) : readAll read file [] i = .ok file := by
  have hgot : (file.drop ([] : Blob).length).take (read i) = file := List.take_of_length_le hread
  rw [readAll, hgot, dif_neg (by rw [List.length_nil]; omega), dif_neg (by omega), List.nil_append,
    readAll, dif_pos le_rfl]

/-- What is loaded is the file. -/
private theorem loadBlob_ok {io : OverlayIo} {name : Text} (h : loadBlob io name = .ok blob) :
    io.file name = some blob := by
  rw [loadBlob] at h
  split at h
  · exact nomatch h
  · next file hfile =>
    split at h
    · exact nomatch h
    · rw [hfile, readAll_ok rfl h]

/-- What `apply_spec` writes is the file with the routes patched. -/
private theorem applySpecIn_written (doc : fdt.Documented IsDtbo) {io : OverlayIo}
    (hfiles : ∀ name file, io.file name = some file → IsDtbo file) {spec : Text}
    (h : blob ∈ (applySpecIn einval fdt io spec).2) :
    ∃ name tokens file, strtok [' ', '\t'] spec = name :: tokens ∧ io.file name = some file ∧
      RoutesPatched einval fdt file tokens blob := by
  -- a blob is written only when the specification, the file and all tokens are good
  rw [applySpecIn] at h
  split at h
  · exact nomatch h
  · split at h
    · exact nomatch h
    · next name tokens htokens =>
      split at h
      · exact nomatch h
      · have hsubmit : blob ∈ (submitOverlay einval fdt io name tokens).2 := by
          split at h
          · next e written hresult =>
            rw [hresult]
            exact h
          · next written hresult =>
            rw [hresult]
            exact h
        rw [submitOverlay] at hsubmit
        split at hsubmit
        · exact nomatch hsubmit
        · next file hload =>
          split at hsubmit
          · exact nomatch hsubmit
          · next patched hfold =>
            split at hsubmit
            · exact nomatch hsubmit
            · obtain rfl := List.mem_singleton.mp hsubmit
              have hfile := loadBlob_ok hload
              have hdtbo := hfiles name file hfile
              have hprogress := foldlM_patchRoute doc hdtbo (.nil hdtbo) hfold
              exact ⟨name, tokens, file, htokens, hfile, hprogress.routesPatched⟩

/-- Only the requested routes are patched, and with a token that is malformed or
    whose route is not on exactly one movable node nothing is written. -/
theorem applySpec_patches (doc : fdt.Documented IsDtbo) (einval : Bool) (io : OverlayIo)
    (hfiles : ∀ name file, io.file name = some file → IsDtbo file) (spec : Text) :
    (∀ blob ∈ (applySpecIn einval fdt io spec).2,
      ∃ name tokens file, strtok [' ', '\t'] spec = name :: tokens ∧ io.file name = some file ∧
        RoutesPatched einval fdt file tokens blob) ∧
      ∀ name tokens file, strtok [' ', '\t'] spec = name :: tokens → io.file name = some file →
        (∃ t ∈ tokens, ¬ GoodToken einval fdt file t) →
        (applySpecIn einval fdt io spec).2 = [] := by
  refine ⟨fun blob hblob => applySpecIn_written doc hfiles hblob, ?_⟩
  -- were a blob written, each token would have been good
  rintro name tokens file htokens hfile ⟨t, ht, hbad⟩
  apply List.eq_nil_iff_forall_not_mem.mpr
  intro blob hblob
  obtain ⟨name', tokens', file', htokens', hfile', hpatched⟩ := applySpecIn_written doc hfiles hblob
  obtain ⟨rfl, rfl⟩ := List.cons.inj (htokens.symm.trans htokens')
  obtain rfl := Option.some.inj (hfile.symm.trans hfile')
  exact hbad (hpatched.named t ht)

end

/-! ## A small device tree -/

/-- A tree with one node, whose route `tx` is a matrix output. -/
def oneRoute : Blob :=
  -- the header and the empty reservation map
  [208, 13, 254, 237, 0, 0, 0, 193, 0, 0, 0, 56, 0, 0, 0, 144, 0, 0, 0, 40, 0, 0, 0, 17,
    0, 0, 0, 16, 0, 0, 0, 0, 0, 0, 0, 49, 0, 0, 0, 88, 0, 0, 0, 0, 0, 0, 0, 0, 0, 0, 0, 0,
    0, 0, 0, 0] ++
  -- the root and the node, with the properties name, kind and pinmux
  [0, 0, 0, 1, 0, 0, 0, 0, 0, 0, 0, 1, 116, 120, 0, 0,
    0, 0, 0, 3, 0, 0, 0, 3, 0, 0, 0, 0, 116, 120, 0, 0,
    0, 0, 0, 3, 0, 0, 0, 14, 0, 0, 0, 21, 109, 97, 116, 114, 105, 120, 45, 111, 117, 116, 112,
    117, 116, 0, 0, 0,
    0, 0, 0, 3, 0, 0, 0, 4, 0, 0, 0, 42, 0, 0, 18, 48,
    0, 0, 0, 2, 0, 0, 0, 2, 0, 0, 0, 9] ++
  -- the names of the properties
  [101, 115, 112, 114, 101, 115, 115, 105, 102, 44, 114, 111, 117, 116, 101, 45, 110, 97, 109,
    101, 0, 101, 115, 112, 114, 101, 115, 115, 105, 102, 44, 114, 111, 117, 116, 101, 45, 107,
    105, 110, 100, 0, 112, 105, 110, 109, 117, 120, 0]

/-- The root and one node below it. -/
def oneRouteNext (pos : Int × Int) : Int × Int :=
  if pos.1 < 0 then (0, 1) else if pos.1 = 0 then (8, 2) else (-1, 0)

/-- The walk of the example goes forward. -/
private theorem oneRouteNext_forward (pos : Int × Int) (h : 0 ≤ (oneRouteNext pos).1) :
    pos.1 < (oneRouteNext pos).1 ∧ (oneRouteNext pos).1 < 2 ^ 31 := by
  unfold oneRouteNext at h ⊢
  split
  · omega
  · split
    · omega
    · simp_all

/-- libfdt on `oneRoute` and the blobs that differ from it in the pinmux cell. -/
def oneRouteFdt : Libfdt where
  nextNode _ pos := oneRouteNext pos
  forward _ pos h := oneRouteNext_forward pos h
  getprop _ node name :=
    if node = 8 then
      if name = routeName then some (84, 3)
      else if name = routeKind then some (100, 14)
      else if name = pinmux then some (128, 4)
      else none
    else none
  setpropInplaceU32 blob node name v :=
    if node = 8 ∧ name = pinmux then (0, putCell blob 128 v) else (-1, blob)

/-- The length and the tags behind the first two values. -/
def OneRouteDtbo (blob : Blob) : Prop :=
  blob.length = 193 ∧ blob[88]? = some 0 ∧ blob[116]? = some 0

/-- The three properties of the example's node. -/
private theorem oneRouteFdt_getprop {blob : Blob} {node : Int} {name : Text} {o len : Nat}
    (h : oneRouteFdt.getprop blob node name = some (o, len)) :
    node = 8 ∧ ((name = routeName ∧ o = 84 ∧ len = 3) ∨ (name = routeKind ∧ o = 100 ∧ len = 14) ∨
      (name = pinmux ∧ o = 128 ∧ len = 4)) := by
  simp only [oneRouteFdt] at h
  split at h
  · next hnode =>
    -- the node has three properties
    refine ⟨hnode, ?_⟩
    split at h
    · next hname =>
      obtain ⟨rfl, rfl⟩ := Prod.mk.inj (Option.some.inj h)
      exact .inl ⟨hname, rfl, rfl⟩
    · split at h
      · next hname =>
        obtain ⟨rfl, rfl⟩ := Prod.mk.inj (Option.some.inj h)
        exact .inr (.inl ⟨hname, rfl, rfl⟩)
      · split at h
        · next hname =>
          obtain ⟨rfl, rfl⟩ := Prod.mk.inj (Option.some.inj h)
          exact .inr (.inr ⟨hname, rfl, rfl⟩)
        · exact nomatch h
  · exact nomatch h

/-- The example writes its cell in place. -/
private theorem oneRouteFdt_setprop (blob : Blob) (v : BitVec 32) :
    oneRouteFdt.setpropInplaceU32 blob 8 pinmux v = (0, putCell blob 128 v) := by
  show (if (8 : Int) = 8 ∧ pinmux = pinmux then (0, putCell blob 128 v) else (-1, blob)) = _
  rw [if_pos ⟨rfl, rfl⟩]

/-- The example's library does what is documented. -/
private theorem oneRouteFdt_documented : oneRouteFdt.Documented OneRouteDtbo where
  inside hblob _ h := by
    obtain ⟨-, ⟨-, rfl, rfl⟩ | ⟨-, rfl, rfl⟩ | ⟨-, rfl, rfl⟩⟩ := oneRouteFdt_getprop h <;>
      rw [hblob.1] <;> decide
  own _ _ _ h h' := by
    obtain ⟨rfl, hname⟩ := oneRouteFdt_getprop h
    obtain ⟨rfl, hname'⟩ := oneRouteFdt_getprop h'
    refine ⟨rfl, ?_⟩
    obtain ⟨rfl, rfl, -⟩ | ⟨rfl, rfl, -⟩ | ⟨rfl, rfl, -⟩ := hname <;>
      obtain ⟨hname', ho, -⟩ | ⟨hname', ho, -⟩ | ⟨hname', ho, -⟩ := hname' <;>
      first | exact absurd ho (by decide) | exact hname'.symm
  apart hblob _ _ h h' hlt := by
    obtain ⟨-, hplace⟩ := oneRouteFdt_getprop h
    obtain ⟨-, hplace'⟩ := oneRouteFdt_getprop h'
    obtain ⟨-, rfl, rfl⟩ | ⟨-, rfl, rfl⟩ | ⟨-, rfl, rfl⟩ := hplace
    · exact ⟨by omega, 88, by omega, by omega, hblob.2.1⟩
    · exact ⟨by omega, 116, by omega, by omega, hblob.2.2⟩
    · omega
  setprop {blob node name o} hblob _ h v := by
    obtain ⟨rfl, hplace⟩ := oneRouteFdt_getprop h
    obtain ⟨-, -, hlen⟩ | ⟨-, -, hlen⟩ | ⟨rfl, rfl, -⟩ := hplace
    -- only the cell has the length that is written
    · exact absurd hlen (by decide)
    · exact absurd hlen (by decide)
    · have hinside : 128 + 4 ≤ blob.length := by rw [hblob.1]; decide
      refine ⟨oneRouteFdt_setprop blob v, ⟨?_, ?_, ?_⟩, fun _ _ => rfl, fun _ _ _ => rfl⟩
      · rw [putCell_length hinside, hblob.1]
      · rw [putCell_getElem?_of_out hinside (by decide), hblob.2.1]
      · rw [putCell_getElem?_of_out hinside (by decide), hblob.2.2]

/-- The file is read at once, and the device takes what it is given. -/
def oneRouteIo : OverlayIo where
  file _ := some oneRoute
  read _ := 193
  openDevice := none
  write := none

/-- The loop on the two nodes of the tree. -/
private theorem patchLoop_oneRoute :
    patchLoop oneRouteFdt "tx".toList 5 oneRoute (-1, 0) 0 =
      .ok (putCell oneRoute 128 (withGpio (cellAt oneRoute 128) 5), 1) := by
  have hroot : oneRouteFdt.nextNode oneRoute (-1, 0) = (0, 1) := rfl
  have hnode : oneRouteFdt.nextNode oneRoute (0, 1) = (8, 2) := rfl
  have hend : ∀ blob, oneRouteFdt.nextNode blob (8, 2) = (-1, 0) := fun _ => rfl
  -- the root has no route; the second node is the one
  have hskip : patchNode oneRouteFdt "tx".toList 5 oneRoute 0 = .ok none := rfl
  have hpatch : patchNode oneRouteFdt "tx".toList 5 oneRoute 8 =
      .ok (some (putCell oneRoute 128 (withGpio (cellAt oneRoute 128) 5))) := by
    have hname : oneRouteFdt.getprop oneRoute 8 routeName = some (84, 3) := by decide
    have hkind : oneRouteFdt.getprop oneRoute 8 routeKind = some (100, 14) := by decide
    have hcell : oneRouteFdt.getprop oneRoute 8 pinmux = some (128, 4) := by decide
    rw [patchNode, hname]
    dsimp only
    rw [if_neg (by decide), hkind]
    dsimp only
    rw [if_neg (by decide), hcell]
    dsimp only
    rw [if_neg (by decide), oneRouteFdt_setprop]
    rfl
  -- over the root, over the node, and out at the end
  rw [patchLoop, hroot, dif_pos (by decide), hskip]
  dsimp only
  rw [patchLoop, hnode, dif_pos (by decide), hpatch]
  dsimp only
  rw [patchLoop, hend, dif_neg (by decide)]

/-- An overlay with one route, patched by one assignment. -/
theorem applySpec_patches_oneRoute :
    ∃ blob, (applySpecIn true oneRouteFdt oneRouteIo "uart tx=5".toList).2 = [blob] ∧
      RoutesPatched true oneRouteFdt oneRoute ["tx=5".toList] blob := by
  have htokens : strtok [' ', '\t'] "uart tx=5".toList = ["uart".toList, "tx=5".toList] := by decide
  -- the file is read whole
  have hload : loadBlob oneRouteIo "uart".toList = .ok oneRoute := by
    have hsize : ¬ (oneRoute.length = 0 ∨ oneRoute.length > MAX_DTBO_SIZE) := by decide +kernel
    have hfile : oneRouteIo.file "uart".toList = some oneRoute := rfl
    rw [loadBlob, hfile]
    dsimp only
    rw [if_neg hsize]
    exact readAll_whole (by decide +kernel) (by decide +kernel)
  have hargs : routeArguments true "tx=5".toList = .ok ("tx".toList, 5) := by decide
  have hroute : patchRoute true oneRouteFdt oneRoute "tx=5".toList =
      .ok (putCell oneRoute 128 (withGpio (cellAt oneRoute 128) 5)) := by
    rw [patchRoute, hargs]
    dsimp only
    rw [patchLoop_oneRoute]
    rfl
  have hwritten : (applySpecIn true oneRouteFdt oneRouteIo "uart tx=5".toList).2 =
      [putCell oneRoute 128 (withGpio (cellAt oneRoute 128) 5)] := by
    rw [applySpecIn, if_neg (by decide), htokens]
    dsimp only
    rw [if_neg (by decide), submitOverlay, hload]
    dsimp only
    rw [List.foldlM_cons, hroute]
    rfl
  refine ⟨_, hwritten, ?_⟩
  have hfiles : ∀ name file, oneRouteIo.file name = some file → OneRouteDtbo file := by
    intro name file hfile
    obtain rfl := Option.some.inj hfile
    exact ⟨by decide +kernel, by decide +kernel, by decide +kernel⟩
  have hpatches := (applySpec_patches oneRouteFdt_documented true oneRouteIo hfiles _).1 _
    (hwritten ▸ List.mem_singleton.mpr rfl)
  obtain ⟨name, tokens, file, hname, hfile, hpatched⟩ := hpatches
  obtain ⟨rfl, rfl⟩ := List.cons.inj (htokens.symm.trans hname)
  obtain rfl := Option.some.inj hfile
  exact hpatched

end EspS31.Overlay
