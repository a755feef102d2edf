import EspS31.Native.Netlink

/-!
# Netlink attributes round trip

A message that was built with `add_attr` is its header and the attributes one after
the other, and `find_attr` finds the first of a type.  On any bytes `find_attr` stays
within the length it is given.

## Key results

- `addAttr_appends`, `addAttr_rejects`: the two results of `add_attr`
- `findLoop_first`: the first attribute of a type
- `findLoop_bounds`: what is read and returned on any bytes
- `netlink_attributes`: a message after any calls
-/

namespace EspS31.Netlink

open TracedBuffer

/-! ## Numbers -/

section

variable {get : Nat → UInt8} {o n : Nat}

/-- The number that was stored is read. -/
theorem u16At_of_holds (h : Holds get o (le16 n)) (hn : n < 2 ^ 16) : u16At get o = n := by
  have hbytes : [get (o + 0), get (o + 1)] = le16 n := h
  obtain ⟨hlow, hrest⟩ := List.cons.inj hbytes
  obtain ⟨hhigh, -⟩ := List.cons.inj hrest
  rw [Nat.add_zero] at hlow
  rw [u16At, hlow, hhigh, UInt8.toNat_ofNat', UInt8.toNat_ofNat']
  omega

/-- The number that was stored is read. -/
theorem u32At_of_holds (h : Holds get o (le32 n)) (hn : n < 2 ^ 32) : u32At get o = n := by
  obtain ⟨hlow, hhigh⟩ := holds_append.mp h
  -- the bytes of the low half depend on the number modulo `2 ^ 16`
  have hlow16 : Holds get o (le16 (n % 2 ^ 16)) := by
    have hsame : le16 (n % 2 ^ 16) = le16 n := by
      have hfirst : UInt8.ofNat (n % 2 ^ 16) = UInt8.ofNat n := by
        apply UInt8.toNat.inj
        rw [UInt8.toNat_ofNat', UInt8.toNat_ofNat']
        omega
      have hsecond : UInt8.ofNat (n % 2 ^ 16 / 2 ^ 8) = UInt8.ofNat (n / 2 ^ 8) := by
        apply UInt8.toNat.inj
        rw [UInt8.toNat_ofNat', UInt8.toNat_ofNat']
        omega
      rw [le16, hfirst, hsecond, le16]
    rwa [hsame]
  have hhigh16 : Holds get (o + 2) (le16 (n / 2 ^ 16)) := hhigh
  rw [u32At, u16At_of_holds hlow16 (by omega), u16At_of_holds hhigh16 (by omega)]
  omega

/-- Rounding up to a multiple of four. -/
theorem alignInt_spec (n : Nat) : n ≤ alignInt n ∧ alignInt n < n + 4 ∧ alignInt n % 4 = 0 := by
  rw [alignInt]
  omega

/-- Below the end of the range the length is rounded up. -/
private theorem alignLen_eq (h : n + 3 < 2 ^ 32) : alignLen n = alignInt n := by
  rw [alignLen, Nat.mod_eq_of_lt h, alignInt]

end

/-! ## One attribute -/

/-- A type and a payload. -/
abbrev Attr := Nat × List UInt8

/-- The space of an attribute. -/
def attrSpace (a : Attr) : Nat := alignInt (4 + a.2.length)

/-- The bytes of an attribute: header, payload and zeros up to a multiple of 4. -/
def attrBytes (a : Attr) : List UInt8 :=
  le16 (4 + a.2.length) ++ (le16 a.1 ++ (a.2 ++ List.replicate (attrSpace a - (4 + a.2.length)) 0))

/-- An attribute takes its room. -/
theorem length_attrBytes (a : Attr) : (attrBytes a).length = attrSpace a := by
  have hspace := alignInt_spec (4 + a.2.length)
  simp only [attrBytes, le16, List.length_append, List.length_cons, List.length_nil,
    List.length_replicate, attrSpace]
  omega

/-- The writes of `add_attr` for a message of `len` bytes. -/
def written (b : TracedBuffer UInt8) (len : Nat) (a : Attr) : TracedBuffer UInt8 :=
  ((((b.puts (len + 2) (le16 a.1)).puts len (le16 (4 + a.2.length))).puts (len + 4) a.2).puts
    (len + (4 + a.2.length)) (List.replicate (attrSpace a - (4 + a.2.length)) 0)).puts 0
      (le32 (len + attrSpace a))

section

variable {b : TracedBuffer UInt8} {len capacity : Nat} {a : Attr}

/-- `add_attr` on lengths that do not overflow. -/
private theorem addAttr_eq (hlen : u32At b.get 0 = len) (hmod : len % 4 = 0) (hle : len ≤ 8192)
    (hdata : a.2.length < 2 ^ 31) :
    addAttr b capacity a.1 a.2 =
      if len + attrSpace a > capacity then (-1, b) else (0, written b len a) := by
  -- no length wraps around
  have hspace := alignInt_spec (4 + a.2.length)
  have hattr : (4 + a.2.length) % 2 ^ 32 = 4 + a.2.length := Nat.mod_eq_of_lt (by omega)
  have hoffset : alignLen len = len := by
    rw [alignLen_eq (by omega), alignInt]
    omega
  have hpad : (2 ^ 32 + alignInt (4 + a.2.length) - (4 + a.2.length)) % 2 ^ 32 =
      alignInt (4 + a.2.length) - (4 + a.2.length) := by omega
  -- copying no bytes is the same as not copying
  have hdataPuts : ∀ c : TracedBuffer UInt8,
      (if a.2.length ≠ 0 then c.puts (len + 4) a.2 else c) = c.puts (len + 4) a.2 := by
    intro c
    by_cases hempty : a.2.length = 0
    · rw [if_neg (not_not.mpr hempty), List.eq_nil_of_length_eq_zero hempty, puts]
    · rw [if_pos hempty]
  rw [addAttr, hlen, hattr, hoffset, alignLen_eq (by omega), hpad,
    Nat.mod_eq_of_lt (show len + alignInt (4 + a.2.length) < 2 ^ 32 by omega)]
  simp only [hdataPuts]
  rfl

/-- Two bytes. -/
theorem length_le16 (n : Nat) : (le16 n).length = 2 := rfl

/-- Four bytes. -/
theorem length_le32 (n : Nat) : (le32 n).length = 4 := rfl

/-- The attribute is behind the message. -/
private theorem written_holds (hlen : 20 ≤ len) :
    Holds (written b len a).get len (attrBytes a) := by
  -- each part is written once, and the later writes are elsewhere
  have hheader : Holds (written b len a).get len (le16 (4 + a.2.length)) := by
    apply Holds.puts _ (.inr (by rw [length_le32]; omega))
    apply Holds.puts _ (.inl (by rw [length_le16]; omega))
    apply Holds.puts _ (.inl (by rw [length_le16]; omega))
    exact holds_puts ..
  have htype : Holds (written b len a).get (len + 2) (le16 a.1) := by
    apply Holds.puts _ (.inr (by rw [length_le32]; omega))
    apply Holds.puts _ (.inl (by rw [length_le16]; omega))
    apply Holds.puts _ (.inl (by exact Nat.le_refl _))
    apply Holds.puts _ (.inr (by exact Nat.le_refl _))
    exact holds_puts ..
  have hdata : Holds (written b len a).get (len + 2 + 2) a.2 := by
    apply Holds.puts _ (.inr (by rw [length_le32]; omega))
    apply Holds.puts _ (.inl (by omega))
    exact holds_puts ..
  -- the padding is written before the length of the message
  have hpad : Holds (written b len a).get (len + 2 + 2 + a.2.length)
      (List.replicate (attrSpace a - (4 + a.2.length)) 0) := by
    apply Holds.puts _ (.inr (by rw [length_le32]; omega))
    have hplace : len + 2 + 2 + a.2.length = len + (4 + a.2.length) := by omega
    rw [hplace]
    exact holds_puts ..
  rw [attrBytes]
  exact holds_append.mpr ⟨hheader, holds_append.mpr ⟨htype, holds_append.mpr ⟨hdata, hpad⟩⟩⟩

/-- The length of the message counts the attribute. -/
private theorem written_length (h : len + attrSpace a < 2 ^ 32) :
    u32At (written b len a).get 0 = len + attrSpace a :=
  u32At_of_holds (holds_puts ..) h

/-- The rest of the message is as it was. -/
private theorem written_get {j : Nat} (hlow : 4 ≤ j) (hhigh : j < len) :
    (written b len a).get j = b.get j := by
  rw [written, puts_get_ge _ _ _ (by rw [length_le32]; omega), puts_get_lt _ _ _ (by omega),
    puts_get_lt _ _ _ (by omega), puts_get_lt _ _ _ (by omega), puts_get_lt _ _ _ (by omega)]

/-- All writes are to the length or within the new message. -/
private theorem mem_written {i : Nat} (hi : i ∈ (written b len a).written) :
    i < len + attrSpace a ∨ i ∈ b.written := by
  have hspace := alignInt_spec (4 + a.2.length)
  rw [← attrSpace] at hspace
  simp only [written, mem_written_puts, length_le16, length_le32, List.length_replicate] at hi
  obtain hlen | hpad | hdata | hheader | htype | hold := hi
  · exact .inl (by omega)
  · exact .inl (by omega)
  · exact .inl (by omega)
  · exact .inl (by omega)
  · exact .inl (by omega)
  · exact .inr hold

end

/-! ## A message -/

/-- The bytes of attributes one after the other. -/
def attrsBytes (attrs : List Attr) : List UInt8 := attrs.flatMap attrBytes

/-- The first attribute and the ones behind it. -/
theorem attrsBytes_cons (a : Attr) (attrs : List Attr) :
    attrsBytes (a :: attrs) = attrBytes a ++ attrsBytes attrs := List.flatMap_cons

/-- One attribute more. -/
theorem attrsBytes_concat (attrs : List Attr) (a : Attr) :
    attrsBytes (attrs ++ [a]) = attrsBytes attrs ++ attrBytes a := by
  rw [attrsBytes, List.flatMap_append, List.flatMap_cons, List.flatMap_nil, List.append_nil]
  rfl

/-- Attributes take a multiple of four bytes. -/
theorem length_attrsBytes_mod (attrs : List Attr) : (attrsBytes attrs).length % 4 = 0 := by
  induction attrs with
  | nil => rfl
  | cons a attrs ih =>
    have hspace := alignInt_spec (4 + a.2.length)
    rw [← attrSpace] at hspace
    rw [attrsBytes_cons, List.length_append, length_attrBytes]
    omega

/-- An attribute whose type and length fit into their fields. -/
def Storable (a : Attr) : Prop := a.1 < 2 ^ 16 ∧ 4 + a.2.length < 2 ^ 16

instance (a : Attr) : Decidable (Storable a) :=
  inferInstanceAs (Decidable (a.1 < 2 ^ 16 ∧ 4 + a.2.length < 2 ^ 16))

/-- The same with a type that has no flags. -/
def Fits (a : Attr) : Prop := a.1 < 2 ^ 14 ∧ 4 + a.2.length < 2 ^ 16

/-- An attribute that fits can be stored. -/
theorem Fits.storable {a : Attr} (h : Fits a) : Storable a :=
  ⟨Nat.lt_trans h.1 (by decide), h.2⟩

/-- A header of 20 bytes with attributes behind it, in a buffer that was written
    within its capacity. -/
structure Built (capacity : Nat) (b : TracedBuffer UInt8) (attrs : List Attr) : Prop where
  len : u32At b.get 0 = 20 + (attrsBytes attrs).length
  bytes : Holds b.get 20 (attrsBytes attrs)
  inside : ∀ i ∈ b.written, i < capacity

/-- A message whose attributes are those of calls of `add_attr`. -/
structure Message (capacity : Nat) (b : TracedBuffer UInt8) (attrs : List Attr) : Prop extends
    Built capacity b attrs where
  fits : ∀ a ∈ attrs, Fits a
  small : 20 + (attrsBytes attrs).length ≤ 8192

section

variable {capacity : Nat} {b : TracedBuffer UInt8} {attrs : List Attr} {a : Attr}

/-- One attribute more takes its room more. -/
private theorem length_attrsBytes_concat (attrs : List Attr) (a : Attr) :
    (attrsBytes (attrs ++ [a])).length = (attrsBytes attrs).length + attrSpace a := by
  rw [attrsBytes_concat, List.length_append, length_attrBytes]

/-- Without room the message stays as it is. -/
theorem addAttr_rejects (h : Built capacity b attrs) (hsmall : 20 + (attrsBytes attrs).length ≤ 8192)
    (hdata : a.2.length < 2 ^ 31) (hroom : capacity < 20 + (attrsBytes (attrs ++ [a])).length) :
    addAttr b capacity a.1 a.2 = (-1, b) := by
  have hmod := length_attrsBytes_mod attrs
  rw [length_attrsBytes_concat] at hroom
  rw [addAttr_eq h.len (by omega) hsmall hdata, if_pos (by omega)]

/-- With room there is one attribute more. -/
theorem addAttr_appends (h : Built capacity b attrs) (hcap : capacity ≤ 8192)
    (hroom : 20 + (attrsBytes (attrs ++ [a])).length ≤ capacity) :
    ∃ b', addAttr b capacity a.1 a.2 = (0, b') ∧ Built capacity b' (attrs ++ [a]) ∧
      ∀ j, 4 ≤ j → j < 20 → b'.get j = b.get j := by
  have hmod := length_attrsBytes_mod attrs
  have hspace := alignInt_spec (4 + a.2.length)
  rw [← attrSpace] at hspace
  rw [length_attrsBytes_concat] at hroom
  -- the attribute goes behind those before it
  have hadd : addAttr b capacity a.1 a.2 = (0, written b (20 + (attrsBytes attrs).length) a) := by
    rw [addAttr_eq h.len (by omega) (by omega) (by omega), if_neg (by omega)]
  refine ⟨_, hadd, ⟨?_, ?_, ?_⟩, fun j hlow hhigh => written_get hlow (by omega)⟩
  · rw [written_length (by omega), length_attrsBytes_concat, Nat.add_assoc]
  · rw [attrsBytes_concat]
    apply holds_append.mpr
    constructor
    · apply h.bytes.congr
      intro j hlow hhigh
      exact written_get (by omega) hhigh
    · exact written_holds (by omega)
  · intro i hi
    obtain hlt | hold := mem_written hi
    · omega
    · exact h.inside i hold

end

/-! ## Finding -/

/-- What `find_attr` returns for a type: the first attribute with it, if there is
    one. -/
def FindsFirst (get : Nat → UInt8) (attrs : List Attr) (type : Nat) (found : Option Nat) : Prop :=
  match attrs.find? (·.1 = type) with
  | none => found = none
  | some a => ∃ o, found = some o ∧ u16At get o = 4 + a.2.length ∧ u16At get (o + 2) = type ∧
      Holds get (o + 4) a.2

section

variable {get : Nat → UInt8} {a : Attr} {o : Nat}

/-- The header and the payload of an attribute. -/
theorem holds_attrBytes (hfits : Storable a) (h : Holds get o (attrBytes a)) :
    u16At get o = 4 + a.2.length ∧ u16At get (o + 2) = a.1 ∧ Holds get (o + 4) a.2 := by
  rw [attrBytes] at h
  obtain ⟨hlen, h⟩ := holds_append.mp h
  obtain ⟨htype, h⟩ := holds_append.mp h
  obtain ⟨hdata, -⟩ := holds_append.mp h
  exact ⟨u16At_of_holds hlen hfits.2, u16At_of_holds htype hfits.1, hdata⟩

/-- The loop over attributes stops at the first one of the type, whatever its flags. -/
theorem findLoop_first {attrs : List Attr} (hfits : ∀ a ∈ attrs, Storable a) (type : Nat)
    (h : Holds get o (attrsBytes attrs)) (reads : List Nat) :
    match attrs.find? (fun a => a.1 % 2 ^ 14 = type) with
    | none => (findLoop get type o (attrsBytes attrs).length reads).found = none
    | some a => ∃ o', (findLoop get type o (attrsBytes attrs).length reads).found = some o' ∧
        Holds get o' (attrBytes a) := by
  -- induction on the attributes, with the place of the first one
  induction attrs generalizing o reads with
  | nil =>
    rw [findLoop, dif_neg (by decide)]
    rfl
  | cons a attrs ih =>
    have hspace := alignInt_spec (4 + a.2.length)
    rw [attrsBytes_cons] at h ⊢
    obtain ⟨hattr, hrest⟩ := holds_append.mp h
    obtain ⟨hlen, htype, -⟩ := holds_attrBytes (hfits a (List.mem_cons_self ..)) hattr
    rw [length_attrBytes] at hrest
    have htotal : ((attrBytes a ++ attrsBytes attrs).length : Int) =
        attrSpace a + (attrsBytes attrs).length := by
      rw [List.length_append, length_attrBytes, Int.natCast_add]
    rw [findLoop, dif_pos (by rw [htotal, attrSpace]; omega), hlen,
      dif_pos (by rw [htotal, attrSpace]; omega), htype, List.find?_cons]
    by_cases hfound : a.1 % 2 ^ 14 = type
    · rw [if_pos hfound, decide_eq_true hfound]
      exact ⟨o, rfl, hattr⟩
    -- the search goes on behind the padding
    · have hleft : (attrSpace a : Int) + (attrsBytes attrs).length - attrSpace a =
          (attrsBytes attrs).length := by omega
      rw [if_neg hfound, decide_eq_false hfound, ← attrSpace, htotal, hleft]
      exact ih (fun a' ha' => hfits a' (List.mem_cons_of_mem _ ha')) hrest _

/-- Types without flags are compared as they are. -/
private theorem find_type {attrs : List Attr} (hfits : ∀ a ∈ attrs, Fits a) (type : Nat) :
    attrs.find? (fun a => a.1 % 2 ^ 14 = type) = attrs.find? (·.1 = type) := by
  induction attrs with
  | nil => rfl
  | cons a attrs ih =>
    rw [List.find?_cons, List.find?_cons, Nat.mod_eq_of_lt (hfits a (List.mem_cons_self ..)).1,
      ih fun a' ha' => hfits a' (List.mem_cons_of_mem _ ha')]

/-- So the first attribute of a type is found in a message. -/
private theorem findsFirst_of_fits {attrs : List Attr} (hfits : ∀ a ∈ attrs, Fits a) (type : Nat)
    (h : Holds get o (attrsBytes attrs)) :
    FindsFirst get attrs type (findLoop get type o (attrsBytes attrs).length []).found := by
  have hfirst := findLoop_first (fun a ha => (hfits a ha).storable) type h []
  rw [find_type hfits] at hfirst
  rw [FindsFirst]
  cases hfind : attrs.find? (·.1 = type) with
  | none => rwa [hfind] at hfirst
  | some a =>
    rw [hfind] at hfirst
    obtain ⟨o', hfound, hbytes⟩ := hfirst
    have ha := hfits a (List.mem_of_find?_eq_some hfind)
    have htype : a.1 = type := by simpa using List.find?_some hfind
    obtain ⟨hlen, hat, hdata⟩ := holds_attrBytes ha.storable hbytes
    exact ⟨o', hfound, hlen, hat.trans htype, hdata⟩

/-- On any bytes all reads are within the length, and so is an attribute that is
    returned. -/
theorem findLoop_bounds (get : Nat → UInt8) (type o : Nat) (length : Int) (reads : List Nat) :
    (∀ i ∈ (findLoop get type o length reads).reads, i ∈ reads ∨ (i : Int) < o + length) ∧
      ∀ o', (findLoop get type o length reads).found = some o' →
        4 ≤ u16At get o' ∧ (o' : Int) + u16At get o' ≤ o + length := by
  fun_induction findLoop get type o length reads with
  | case1 o length reads hlong hlen htype =>
    -- the four bytes of a header that was found to fit
    refine ⟨fun i hi => ?_, fun o' ho' => ?_⟩
    · obtain hold | hnew := List.mem_append.mp hi
      · exact .inl hold
      · simp only [List.mem_cons, List.not_mem_nil, or_false] at hnew
        exact .inr (by omega)
    · obtain rfl := Option.some.inj ho'
      omega
  | case2 o length reads hlong hlen htype ih =>
    -- the next attribute begins within the same end, since the offset moves with the length
    have hspace := alignInt_spec (u16At get o)
    refine ⟨fun i hi => ?_, fun o' ho' => ?_⟩
    · obtain hold | hlt := ih.1 i hi
      · obtain hold | hnew := List.mem_append.mp hold
        · exact .inl hold
        · simp only [List.mem_cons, List.not_mem_nil, or_false] at hnew
          exact .inr (by omega)
      · exact .inr (by omega)
    · have hbound := ih.2 o' ho'
      omega
  | case3 o length reads hlong hlen =>
    refine ⟨fun i hi => ?_, nofun⟩
    obtain hold | hnew := List.mem_append.mp hi
    · exact .inl hold
    · simp only [List.mem_cons, List.not_mem_nil, or_false] at hnew
      exact .inr (by omega)
  | case4 o length reads hshort => exact ⟨fun i hi => .inl hi, nofun⟩

end

/-! ## Messages after any calls -/

/-- One call of `add_attr`, with the attributes appended so far. -/
def addStep (capacity : Nat) (s : TracedBuffer UInt8 × List Attr) (a : Attr) :
    TracedBuffer UInt8 × List Attr :=
  let r := addAttr s.1 capacity a.1 a.2
  (r.2, if r.1 = 0 then s.2 ++ [a] else s.2)

/-- A call appends an attribute to the bytes of the message when it has room for it,
    and returns -1 and leaves the message otherwise. -/
def AddsOrLeaves (capacity : Nat) (b : TracedBuffer UInt8) (a : Attr) : Prop :=
  ∃ bytes, u32At b.get 0 = 20 + bytes.length ∧ Holds b.get 20 bytes ∧
    if 20 + (bytes ++ attrBytes a).length ≤ capacity then
      ∃ b', addAttr b capacity a.1 a.2 = (0, b') ∧
        u32At b'.get 0 = 20 + (bytes ++ attrBytes a).length ∧
        Holds b'.get 20 (bytes ++ attrBytes a) ∧ ∀ j, 4 ≤ j → j < 20 → b'.get j = b.get j
    else addAttr b capacity a.1 a.2 = (-1, b)

section

variable {capacity : Nat}

/-- An attribute is added or refused. -/
theorem Message.addsOrLeaves {b : TracedBuffer UInt8} {attrs : List Attr} {a : Attr}
    (h : Message capacity b attrs) (hcap : capacity ≤ 8192) (hdata : a.2.length < 2 ^ 31) :
    AddsOrLeaves capacity b a := by
  refine ⟨attrsBytes attrs, h.len, h.bytes, ?_⟩
  rw [← attrsBytes_concat]
  by_cases hroom : 20 + (attrsBytes (attrs ++ [a])).length ≤ capacity
  · rw [if_pos hroom]
    obtain ⟨b', hadd, hbuilt, hsame⟩ := addAttr_appends h.toBuilt hcap hroom
    exact ⟨b', hadd, hbuilt.len, hbuilt.bytes, hsame⟩
  · rw [if_neg hroom]
    exact addAttr_rejects h.toBuilt h.small hdata (by omega)

/-- A message with one attribute more, or as it was, is well formed. -/
theorem Message.addStep {s : TracedBuffer UInt8 × List Attr} {a : Attr}
    (h : Message capacity s.1 s.2) (hcap : capacity ≤ 8192) (htype : a.1 < 2 ^ 14)
    (hdata : a.2.length < 2 ^ 31) :
    Message capacity (Netlink.addStep capacity s a).1 (Netlink.addStep capacity s a).2 := by
  rw [Netlink.addStep]
  by_cases hroom : 20 + (attrsBytes (s.2 ++ [a])).length ≤ capacity
  -- there is room for it
  · obtain ⟨b', hadd, hbuilt, -⟩ := addAttr_appends h.toBuilt hcap hroom
    rw [hadd]
    refine ⟨hbuilt, fun a' ha' => ?_, by simp only [if_true]; omega⟩
    obtain hold | hnew := List.mem_append.mp ha'
    · exact h.fits a' hold
    · obtain rfl := List.mem_singleton.mp hnew
      have hspace := alignInt_spec (4 + a'.2.length)
      rw [length_attrsBytes_concat, attrSpace] at hroom
      exact ⟨htype, by omega⟩
  -- it is refused, and nothing changes
  · rw [addAttr_rejects h.toBuilt h.small hdata (by omega)]
    exact h

/-- A message is well formed after all attributes. -/
private theorem foldl_addStep {s : TracedBuffer UInt8 × List Attr} (h : Message capacity s.1 s.2)
    (hcap : capacity ≤ 8192) {attrs : List Attr}
    (hattrs : ∀ a ∈ attrs, a.1 < 2 ^ 14 ∧ a.2.length < 2 ^ 31) :
    Message capacity (attrs.foldl (addStep capacity) s).1 (attrs.foldl (addStep capacity) s).2 := by
  induction attrs generalizing s with
  | nil => exact h
  | cons a attrs ih =>
    obtain ⟨htype, hdata⟩ := hattrs a (List.mem_cons_self ..)
    exact ih (h.addStep hcap htype hdata) fun a' ha' => hattrs a' (List.mem_cons_of_mem _ ha')

/-- A message that was built with any calls of `add_attr`: the next call, the places
    that were written and what `find_attr` finds.  On any bytes and with any length
    `find_attr` stays within it.  The copies of the two functions are the same. -/
theorem netlink_attributes (hcap : capacity ≤ 8192) {header : TracedBuffer UInt8}
    (hlen : u32At header.get 0 = 20) (hwritten : header.written = []) {attrs : List Attr}
    (hattrs : ∀ a ∈ attrs, a.1 < 2 ^ 14 ∧ a.2.length < 2 ^ 31) :
    (∀ a : Attr, a.1 < 2 ^ 14 → a.2.length < 2 ^ 31 →
        AddsOrLeaves capacity (attrs.foldl (addStep capacity) (header, [])).1 a) ∧
      (∀ i ∈ (attrs.foldl (addStep capacity) (header, [])).1.written, i < capacity) ∧
      (∀ type, FindsFirst (fun i => (attrs.foldl (addStep capacity) (header, [])).1.get (20 + i))
        (attrs.foldl (addStep capacity) (header, [])).2 type
        (findAttr (fun i => (attrs.foldl (addStep capacity) (header, [])).1.get (20 + i))
          (u32At (attrs.foldl (addStep capacity) (header, [])).1.get 0 - 20) type).found) ∧
      (∀ (data : Nat → UInt8) (length : Int) (type : Nat),
        (∀ i ∈ (findAttr data length type).reads, (i : Int) < length) ∧
          ∀ o, (findAttr data length type).found = some o →
            4 ≤ u16At data o ∧ (o : Int) + u16At data o ≤ length) ∧
      WifiScan.addAttr = WifiConnect.addAttr ∧ WifiScan.findAttr = WifiConnect.findAttr := by
  have hstart : Message capacity header [] :=
    ⟨⟨hlen, rfl, fun i hi => nomatch hwritten ▸ hi⟩, nofun, by decide⟩
  -- after any calls of `add_attr` the buffer is a message of the attributes added
  have hmsg := foldl_addStep (s := (header, [])) hstart hcap hattrs
  generalize attrs.foldl (addStep capacity) (header, []) = s at hmsg ⊢
  refine ⟨fun a _ hdata => hmsg.addsOrLeaves hcap hdata, hmsg.inside, fun type => ?_,
    fun data length type => ?_, rfl, rfl⟩
  -- the payload of the message is what the search goes through
  · have hbytes : Holds (fun i => s.1.get (20 + i)) 0 (attrsBytes s.2) := by
      refine Eq.trans (List.map_congr_left fun k _ => ?_) hmsg.bytes
      rw [Nat.zero_add]
    have hpayload : ((u32At s.1.get 0 : Int) - 20) = (attrsBytes s.2).length := by
      rw [hmsg.len]
      omega
    rw [hpayload]
    exact findsFirst_of_fits hmsg.fits type hbytes
  -- in any data, well formed or not
  · obtain ⟨hreads, hfound⟩ := findLoop_bounds data type 0 length []
    refine ⟨fun i hi => ?_, fun o ho => ?_⟩
    · obtain hold | hlt := hreads i hi
      · exact nomatch hold
      · omega
    · have hbound := hfound o ho
      omega

end

/-- A header and nothing else. -/
def bareHeader : TracedBuffer UInt8 := ⟨fun i => if i = 0 then 20 else 0, []⟩

/-- Two attributes in a buffer with room for the first of them, which is found. -/
theorem netlink_attributes_two :
    let s := [(3, [1, 2, 3, 4]), (1, [5])].foldl (addStep 30) (bareHeader, [])
    let found := fun type =>
      (findAttr (fun i => s.1.get (20 + i)) (u32At s.1.get 0 - 20) type).found
    (∃ o, found 3 = some o ∧ u16At (fun i => s.1.get (20 + i)) o = 8 ∧
        u16At (fun i => s.1.get (20 + i)) (o + 2) = 3 ∧
        Holds (fun i => s.1.get (20 + i)) (o + 4) [1, 2, 3, 4]) ∧
      found 1 = none := by
  have hfinds := (@netlink_attributes 30 (by decide) bareHeader rfl rfl
    [(3, [1, 2, 3, 4]), (1, [5])] (by decide)).2.2.1
  exact ⟨hfinds 3, hfinds 1⟩

end EspS31.Netlink
