import EspS31.Native.WifiReplies
import EspS31.Spec.WifiMessages

/-!
# What the scan tool reads

A datagram is messages one after the other, and only those with the sequence number of
the request count.  Then a scan result is printed with the values of its attributes, in
whichever datagrams the kernel puts the results, and `main` goes through its three
requests although messages of other requests come in between.

## Key results

- `receive_carries`: the loop around `recv` on the messages of the datagrams
- `printBss_line`: `print_bss` on the attributes of a result
- `ssidOf_safe`: the walk over the information elements on any bytes
- `dumpScan_outcome`, `main_scans`: the dump, and the three requests
-/

namespace EspS31.Netlink

open TracedBuffer

/-! ## Messages in a datagram -/

/-- A netlink message. -/
structure Msg where
  type : Nat
  flags : Nat
  seq : Nat
  pid : Nat
  body : List UInt8

/-- The space of a message. -/
def msgSpace (m : Msg) : Nat := alignInt (16 + m.body.length)

/-- The bytes of a message with its padding. -/
def msgBytes (m : Msg) : List UInt8 :=
  le32 (16 + m.body.length) ++ (le16 m.type ++ (le16 m.flags ++ (le32 m.seq ++ (le32 m.pid ++
    (m.body ++ List.replicate (msgSpace m - (16 + m.body.length)) 0)))))

/-- A message whose fields fit. -/
structure Msg.Sendable (m : Msg) : Prop where
  type : m.type < 2 ^ 16
  seq : m.seq < 2 ^ 32
  length : 16 + m.body.length < 2 ^ 32

instance (m : Msg) : Decidable m.Sendable :=
  decidable_of_iff (m.type < 2 ^ 16 ∧ m.seq < 2 ^ 32 ∧ 16 + m.body.length < 2 ^ 32)
    ⟨fun h => ⟨h.1, h.2.1, h.2.2⟩, fun h => ⟨h.type, h.seq, h.length⟩⟩

/-- What the functions read of a message at `o`. -/
structure Msg.At (m : Msg) (get : Nat → UInt8) (o : Nat) : Prop where
  len : u32At get o = 16 + m.body.length
  type : nlmsgType get o = m.type
  seq : nlmsgSeq get o = m.seq
  body : Holds get (o + 16) m.body

/-- They fill the room of the message. -/
private theorem length_msgBytes (m : Msg) : (msgBytes m).length = msgSpace m := by
  have hspace := alignInt_spec (16 + m.body.length)
  rw [← msgSpace] at hspace
  simp only [msgBytes, List.length_append, length_le16, length_le32, List.length_replicate]
  omega

/-- Where the bytes of a message are, the message is. -/
theorem Msg.Sendable.at {m : Msg} (hm : m.Sendable) {get : Nat → UInt8} {o : Nat}
    (h : Holds get o (msgBytes m)) : m.At get o := by
  -- the fields in the order of the header
  obtain ⟨hlen, h⟩ := holds_append.mp h
  obtain ⟨htype, h⟩ := holds_append.mp h
  obtain ⟨-, h⟩ := holds_append.mp h
  obtain ⟨hseq, h⟩ := holds_append.mp h
  obtain ⟨-, h⟩ := holds_append.mp h
  obtain ⟨hbody, -⟩ := holds_append.mp h
  constructor
  · exact u32At_of_holds hlen hm.length
  · exact u16At_of_holds htype hm.type
  · exact u32At_of_holds hseq hm.seq
  · exact hbody

/-! ## The loop around `recv` -/

section

variable {σ α : Type}

/-- A handler on messages, one after the other. -/
def runMsgs (step : σ → α → σ × Option Int) : List α → σ → σ × Option Int
  | [], s => (s, none)
  | a :: rest, s =>
    match step s a with
    | (s, some ret) => (s, some ret)
    | (s, none) => runMsgs step rest s

/-- Messages go through the handler one after the other. -/
private theorem runMsgs_append (step : σ → α → σ × Option Int) (as more : List α) (s : σ) :
    runMsgs step (as ++ more) s =
      match runMsgs step as s with
      | (s, some ret) => (s, some ret)
      | (s, none) => runMsgs step more s := by
  induction as generalizing s with
  | nil => rfl
  | cons a as ih =>
    rw [List.cons_append, runMsgs, runMsgs]
    cases hstep : step s a with
    | mk s' ret =>
      cases ret with
      | none => exact ih s'
      | some ret => rfl

/-- A function that handles the message of `a` by what is in it. -/
def Handles (handle : σ → (Nat → UInt8) → Nat → σ × Option Int) (step : σ → α → σ × Option Int)
    (f : α → Msg) (a : α) : Prop :=
  ∀ s get o, (f a).At get o → handle s get o = step s a

/-- A datagram that is made of messages. -/
structure Carries (f : α → Msg) (d : Datagram) (as : List α) : Prop where
  length : d.length = (as.flatMap fun a => msgBytes (f a)).length
  bytes : Holds d.bytes 0 (as.flatMap fun a => msgBytes (f a))
  sendable : ∀ a ∈ as, (f a).Sendable

/-- A datagram in a zeroed buffer. -/
def datagramOf (ms : List Msg) : Datagram :=
  ⟨fun i => (ms.flatMap msgBytes).getD i 0, (ms.flatMap msgBytes).length⟩

/-- A list holds itself. -/
private theorem holds_getD (xs : List UInt8) : Holds (fun i => xs.getD i 0) 0 xs := by
  rw [Holds]
  apply List.ext_getElem
  · simp
  · intro i hi hi'
    simp [List.getD_eq_getElem?_getD, List.getElem?_eq_getElem hi']

/-- A datagram of messages carries them. -/
private theorem carries_datagramOf {f : α → Msg} (as : List α) (h : ∀ a ∈ as, (f a).Sendable) :
    Carries f (datagramOf (as.map f)) as := by
  have hbytes : (as.map f).flatMap msgBytes = as.flatMap fun a => msgBytes (f a) :=
    List.flatMap_map ..
  constructor
  · rw [← hbytes]
    rfl
  · rw [← hbytes]
    exact holds_getD _
  · exact h

variable {handle : σ → (Nat → UInt8) → Nat → σ × Option Int} {step : σ → α → σ × Option Int}
  {f : α → Msg}

/-- The messages of a datagram are handled in their order. -/
private theorem handleAll_holds {get : Nat → UInt8} {as : List α} (has : ∀ a ∈ as, (f a).Sendable)
    (hhandles : ∀ a ∈ as, Handles handle step f a) {o : Nat}
    (h : Holds get o (as.flatMap fun a => msgBytes (f a))) (s : σ) :
    handleAll handle get (messages get o (as.flatMap fun a => msgBytes (f a)).length) s =
      runMsgs step as s := by
  induction as generalizing o s with
  | nil =>
    rw [messages, dif_neg (by simp)]
    rfl
  | cons a as ih =>
    rw [List.flatMap_cons] at h ⊢
    obtain ⟨hfirst, hrest⟩ := holds_append.mp h
    have hat := (has a (List.mem_cons_self ..)).at hfirst
    have hspace := alignInt_spec (16 + (f a).body.length)
    have htotal : ((msgBytes (f a) ++ as.flatMap fun a => msgBytes (f a)).length : Int) =
        msgSpace (f a) + (as.flatMap fun a => msgBytes (f a)).length := by
      rw [List.length_append, length_msgBytes, Int.natCast_add]
    -- `NLMSG_NEXT` takes the aligned length off what is left
    have hleft : ((msgSpace (f a) : Int) + (as.flatMap fun a => msgBytes (f a)).length) -
        msgSpace (f a) = (as.flatMap fun a => msgBytes (f a)).length := by omega
    rw [length_msgBytes] at hrest
    rw [htotal, messages, hat.len, dif_pos (by rw [msgSpace]; omega), ← msgSpace, hleft,
      handleAll, hhandles a (List.mem_cons_self ..) s get o hat, runMsgs]
    -- the handler ends the loop, or the rest is handled by induction
    cases hstep : step s a with
    | mk s' ret =>
      cases ret with
      | some ret => rfl
      | none =>
        exact ih (fun a' ha' => has a' (List.mem_cons_of_mem _ ha'))
          (fun a' ha' => hhandles a' (List.mem_cons_of_mem _ ha')) hrest s'

/-- The loop around `recv` handles the messages of all datagrams in their order. -/
theorem receive_carries {ds : List Datagram} {ass : List (List α)}
    (h : List.Forall₂ (Carries f) ds ass) (hhandles : ∀ a ∈ ass.flatten, Handles handle step f a)
    (failed : Int) (s : σ) :
    (receive handle failed ds s).1 = (runMsgs step ass.flatten s).2.getD failed ∧
      (receive handle failed ds s).2.1 = (runMsgs step ass.flatten s).1 := by
  induction h generalizing s with
  | nil => exact ⟨rfl, rfl⟩
  | @cons d as ds ass hd _ ih =>
    rw [List.flatten_cons] at hhandles ⊢
    have hfirst := handleAll_holds hd.sendable
      (fun a ha => hhandles a (List.mem_append_left _ ha)) hd.bytes s
    -- the loop ends in this datagram or calls `recv` again
    rw [receive, hd.length, hfirst, runMsgs_append]
    cases hrun : runMsgs step as s with
    | mk s' ret =>
      cases ret with
      | some ret => exact ⟨rfl, rfl⟩
      | none => exact ih (fun a ha => hhandles a (List.mem_append_right _ ha)) s'

/-- What is left when the answer is in the datagram `d`. -/
private theorem receive_answer {before : List Datagram} {ass : List (List α)}
    (h : List.Forall₂ (Carries f) before ass) {d : Datagram} {as : List α} (hd : Carries f d as)
    (hhandles : ∀ a ∈ ass.flatten ++ as, Handles handle step f a) {s s₁ s₂ : σ} {ret : Int}
    (hbefore : runMsgs step ass.flatten s = (s₁, none))
    (hanswer : runMsgs step as s₁ = (s₂, some ret)) (failed : Int) (rest : List Datagram) :
    receive handle failed (before ++ d :: rest) s = (ret, s₂, rest) := by
  induction h generalizing s with
  | nil =>
    obtain rfl : s = s₁ := congrArg Prod.fst hbefore
    rw [List.nil_append, receive, hd.length,
      handleAll_holds hd.sendable (fun a ha => hhandles a (List.mem_append_right _ ha)) hd.bytes,
      hanswer]
  | @cons d' as' ds ass hd' _ ih =>
    rw [List.flatten_cons, List.append_assoc] at hhandles
    rw [List.flatten_cons, runMsgs_append] at hbefore
    have hfirst := handleAll_holds hd'.sendable
      (fun a ha => hhandles a (List.mem_append_left _ ha)) hd'.bytes s
    rw [List.cons_append, receive, hd'.length, hfirst]
    cases hrun : runMsgs step as' s with
    | mk s' ret' =>
      rw [hrun] at hbefore
      cases ret' with
      -- an earlier datagram cannot end the loop
      | some ret' => exact absurd (congrArg Prod.snd hbefore) (by simp)
      | none => exact ih (fun a ha => hhandles a (List.mem_append_right _ ha)) hbefore

/-- Messages that are all skipped. -/
private theorem runMsgs_skip {as : List α} {s : σ} (h : ∀ a ∈ as, step s a = (s, none)) :
    runMsgs step as s = (s, none) := by
  induction as with
  | nil => rfl
  | cons a as ih =>
    rw [runMsgs, h a (List.mem_cons_self ..)]
    exact ih fun a' ha' => h a' (List.mem_cons_of_mem _ ha')

end

/-- Datagrams up to the one with the answer to a request.  All other messages in them
    are those of other requests. -/
def Answered (seq : Nat) (answer : Msg) (ds : List Datagram) : Prop :=
  ∃ before mss d skipped after, ds = before ++ [d] ∧ List.Forall₂ (Carries id) before mss ∧
    Carries id d (skipped ++ answer :: after) ∧ ∀ m ∈ mss.flatten ++ (skipped ++ after), m.seq ≠ seq

/-- The loop returns on the answer. -/
theorem Answered.receive {σ : Type} {handle : σ → (Nat → UInt8) → Nat → σ × Option Int}
    {step : σ → Msg → σ × Option Int} {seq : Nat} {answer : Msg} {ds : List Datagram}
    (h : Answered seq answer ds) {s s' : σ} {ret : Int}
    (hforeign : ∀ m, m.seq ≠ seq → Handles handle step id m ∧ step s m = (s, none))
    (hhandles : Handles handle step id answer) (hanswer : step s answer = (s', some ret))
    (failed : Int) (rest : List Datagram) :
    Netlink.receive handle failed (ds ++ rest) s = (ret, s', rest) := by
  obtain ⟨before, mss, d, skipped, after, rfl, hbefore, hd, hother⟩ := h
  -- every message is the answer or one of another request
  have hall : ∀ m ∈ mss.flatten ++ (skipped ++ answer :: after), Handles handle step id m := by
    intro m hm
    by_cases heq : m = answer
    · rwa [heq]
    · apply (hforeign m _).1
      apply hother m
      simp only [List.mem_append, List.mem_cons] at hm ⊢
      obtain hfirst | hskip | hself | hafter := hm
      · exact .inl hfirst
      · exact .inr (.inl hskip)
      · exact absurd hself heq
      · exact .inr (.inr hafter)
  -- the datagrams before the answer leave the state alone
  have hquiet : runMsgs step mss.flatten s = (s, none) :=
    runMsgs_skip fun m hm => (hforeign m (hother m (List.mem_append_left _ hm))).2
  have hskip : runMsgs step skipped s = (s, none) := by
    apply runMsgs_skip
    intro m hm
    exact (hforeign m (hother m (List.mem_append_right _ (List.mem_append_left _ hm)))).2
  -- the messages after the answer are not looked at
  have hlast : runMsgs step (skipped ++ answer :: after) s = (s', some ret) := by
    rw [runMsgs_append, hskip]
    simp only [runMsgs, hanswer]
  rw [List.append_assoc, List.singleton_append]
  exact receive_answer hbefore hd hall hquiet hlast failed rest

/-! ## Attributes of a message -/

section

variable {get : Nat → UInt8} {o : Nat} {attrs : List Attr}

/-- Where an attribute that is looked up is. -/
structure Payload (get : Nat → UInt8) (attr : Nat) (p : List UInt8) : Prop where
  len : payloadLen get attr = p.length
  bytes : Holds get (attr + 4) p

/-- An attribute that is not in the list is not found. -/
private theorem findAt_none (hfits : ∀ a ∈ attrs, Storable a) (h : Holds get o (attrsBytes attrs))
    {type : Nat} (hnone : lookupIn attrs type = none) :
    findAt get o (attrsBytes attrs).length type = none := by
  have hlookup := findAttr_lookup hfits h type
  rw [hnone, lookup, Option.map_eq_none_iff] at hlookup
  rw [findAt, hlookup, Option.map_none]

/-- An attribute of the list is found with its payload. -/
private theorem findAt_some (hfits : ∀ a ∈ attrs, Storable a) (h : Holds get o (attrsBytes attrs))
    {type : Nat} {p : List UInt8} (hsome : lookupIn attrs type = some p) :
    ∃ attr, findAt get o (attrsBytes attrs).length type = some attr ∧ Payload get attr p := by
  have hlookup := findAttr_lookup hfits h type
  rw [hsome, lookup, Option.map_eq_some_iff] at hlookup
  -- the attribute that the search ends at has the payload that is looked up
  obtain ⟨attr, hfound, hpayload⟩ := hlookup
  have hbound := (findLoop_bounds _ _ _ _ _).2 attr hfound
  have hsame : u16At (fun i => get (o + i)) attr = u16At get (o + attr) := rfl
  have hlen : p.length = u16At get (o + attr) - 4 := by
    rw [← hpayload, payload, List.length_map, List.length_range, hsame]
  refine ⟨o + attr, by rw [findAt, hfound, Option.map_some], ⟨?_, ?_⟩⟩
  · rw [payloadLen]
    omega
  · rw [Holds, hlen]
    refine Eq.trans (List.map_congr_left fun k _ => ?_) hpayload
    rw [Nat.add_assoc, Nat.add_assoc, ← Nat.add_assoc attr]

/-- The number in a payload of 4 bytes. -/
def u32Of (p : List UInt8) : Nat := u32At (fun i => p.getD i 0) 0

/-- A byte of what is held. -/
private theorem holds_getElem {xs : List UInt8} (h : Holds get o xs) {k : Nat}
    (hk : k < xs.length) :
    get (o + k) = xs.getD k 0 := by
  have hk' : k < ((List.range xs.length).map fun k => get (o + k)).length := by simpa using hk
  rw [List.getD_eq_getElem?_getD, List.getElem?_eq_getElem hk, Option.getD_some]
  have hget := List.getElem_of_eq h hk'
  rw [List.getElem_map, List.getElem_range] at hget
  exact hget

/-- A payload of four bytes is read as its number. -/
theorem Payload.u32 {attr : Nat} {p : List UInt8} (h : Payload get attr p) (hlen : p.length = 4) :
    u32At get (attr + 4) = u32Of p := by
  -- the four bytes of the number are those of the payload
  have hget : ∀ k, k < 4 → get (attr + 4 + k) = p.getD k 0 := fun k hk =>
    holds_getElem h.bytes (by omega)
  have h0 := hget 0 (by omega)
  have h1 := hget 1 (by omega)
  have h2 := hget 2 (by omega)
  have h3 := hget 3 (by omega)
  simp only [u32Of, u32At, u16At, Nat.add_assoc, Nat.zero_add, Nat.add_zero] at *
  rw [h0, h1, h2, h3]

end

end EspS31.Netlink

namespace EspS31.WifiScan

open Netlink TracedBuffer

/-! ## Information elements -/

/-- Identifiers and bodies, up to the first element that is cut off. -/
def elements (ies : List UInt8) : List (UInt8 × List UInt8) :=
  match ies with
  | id :: len :: rest =>
    if len.toNat ≤ rest.length then
      (id, rest.take len.toNat) :: elements (rest.drop len.toNat)
    else []
  | _ => []
termination_by ies.length
decreasing_by
  rw [List.length_drop, List.length_cons, List.length_cons]
  omega

/-- The name of a network: the first element of type 0 that is not too long, up to a
    NUL. -/
def nameOf (es : List (UInt8 × List UInt8)) : List UInt8 :=
  match es.find? fun e => e.1 = 0 ∧ e.2.length ≤ 32 with
  | some e => e.2.takeWhile (· ≠ 0)
  | none => hidden

/-- The initial name is that of a hidden network. -/
private theorem ssidText_init : ssidText ssidInit = hidden := by decide

/-- The text of a buffer with a string and its terminator. -/
private theorem ssidText_puts (b : TracedBuffer UInt8) (body : List UInt8)
    (hlen : body.length ≤ 32) :
    ssidText ((b.puts 0 body).put body.length 0) = body.takeWhile (· ≠ 0) := by
  have hbuffer : (b.puts 0 body).put body.length 0 = b.puts 0 (body ++ [0]) := by
    rw [puts_append]
    simp [puts]
  have hholds : Holds (b.puts 0 (body ++ [0])).get 0 (body ++ [0]) := holds_puts ..
  obtain ⟨rest, hread⟩ := hholds.read_eq (n := 33) (by simp; omega)
  rw [hbuffer, ssidText, hread, List.append_assoc, List.takeWhile_append]
  -- the terminator ends the text, if no NUL in the body does
  split
  · next hwhole =>
    have hpre := (List.takeWhile_prefix (l := body) fun x => x ≠ 0).eq_of_length hwhole
    rw [hpre]
    simp
  · rfl

/-- The parts of an element. -/
private theorem holds_element {get : Nat → UInt8} {ie : Nat} {id len : UInt8} {rest : List UInt8}
    (h : Holds get ie (id :: len :: rest)) :
    get ie = id ∧ get (ie + 1) = len ∧ Holds get (ie + 2) rest := by
  have hsplit : id :: len :: rest = [id, len] ++ rest := rfl
  rw [hsplit] at h
  obtain ⟨hheader, hrest⟩ := holds_append.mp h
  have hbytes : [get (ie + 0), get (ie + 1)] = [id, len] := hheader
  obtain ⟨hid, htail⟩ := List.cons.inj hbytes
  obtain ⟨hlen, -⟩ := List.cons.inj htail
  exact ⟨hid, hlen, hrest⟩

/-- The walk over elements finds the name. -/
private theorem elementLoop_name {get : Nat → UInt8} {ies : List UInt8} {ie : Nat}
    (h : Holds get ie ies)
    (reads : List Nat) :
    ssidText (elementLoop get ie (ie + ies.length) ⟨ssidInit, reads⟩).ssid =
      nameOf (elements ies) := by
  fun_induction elements ies generalizing ie reads with
  | case1 id len rest hfits ih =>
    obtain ⟨hid, hlen, hrest⟩ := holds_element h
    -- the body and what is behind it
    have hsplit : rest.take len.toNat ++ rest.drop len.toNat = rest := List.take_append_drop ..
    rw [← hsplit] at hrest
    obtain ⟨hbody, hmore⟩ := holds_append.mp hrest
    have htake : (rest.take len.toNat).length = len.toNat := List.length_take_of_le hfits
    rw [htake] at hmore
    rw [List.length_cons, List.length_cons, elementLoop, dif_pos (by omega)]
    simp only [hlen, hid]
    rw [dif_pos (by omega), nameOf, List.find?_cons]
    by_cases hname : id = 0 ∧ len.toNat ≤ 32
    · -- the element is the name
      have hread : (List.range len.toNat).map (fun k => get (ie + 2 + k)) =
          rest.take len.toNat := by
        rw [Holds, htake] at hbody
        exact hbody
      simp only [hname, and_self, if_true, htake, decide_true, hread]
      have htext := ssidText_puts ssidInit (rest.take len.toNat) (by omega)
      rw [htake] at htext
      exact htext
    · have hstop : ie + (rest.length + 1 + 1) =
          ie + 2 + len.toNat + (rest.drop len.toNat).length := by
        rw [List.length_drop]
        omega
      simp only [hname, if_false, htake, decide_false]
      rw [hstop]
      exact ih hmore _
  | case2 id len rest hcut =>
    obtain ⟨-, hlen, -⟩ := holds_element h
    rw [List.length_cons, List.length_cons, elementLoop, dif_pos (by omega)]
    simp only [hlen]
    rw [dif_neg (by omega)]
    exact ssidText_init
  | case3 ies hshort =>
    -- no room for the header of an element
    have hlength : ies.length < 2 := by
      cases ies with
      | nil => simp
      | cons id rest =>
        cases rest with
        | nil => simp
        | cons len rest => exact absurd rfl (hshort id len rest)
    rw [elementLoop, dif_neg (by omega)]
    exact ssidText_init

/-- On any bytes the walk reads within the attribute and writes within `ssid`. -/
private theorem elementLoop_safe (get : Nat → UInt8) (ie stop : Nat) (w : ElementWalk)
    (hw : ∀ i ∈ w.ssid.written, i < 33) :
    (∀ i ∈ (elementLoop get ie stop w).reads, i ∈ w.reads ∨ (ie ≤ i ∧ i < stop)) ∧
      ∀ i ∈ (elementLoop get ie stop w).ssid.written, i < 33 := by
  fun_induction elementLoop get ie stop w with
  -- the name: the header, the body and the terminator
  | case1 ie w hroom len w₁ hfits w₂ hname body =>
    constructor
    · intro i hi
      simp only [w₂, w₁, List.mem_append, List.mem_singleton, List.mem_map, List.mem_range] at hi
      obtain ((hold | hlen) | hid) | ⟨k, hk, rfl⟩ := hi
      · exact .inl hold
      · exact .inr (by omega)
      · exact .inr (by omega)
      · exact .inr (by omega)
    · intro i hi
      simp only [put, List.mem_cons, mem_written_puts] at hi
      obtain hend | hbody | hold := hi
      · omega
      · simp only [body, List.length_map, List.length_range] at hbody
        omega
      · exact hw i hold
  -- another element: what is read later is behind this one
  | case2 ie w hroom len w₁ hfits w₂ hname ih =>
    obtain ⟨hreads, hwritten⟩ := ih hw
    constructor
    · intro i hi
      obtain hold | hlater := hreads i hi
      · simp only [w₂, w₁, List.mem_append, List.mem_singleton] at hold
        obtain (hold | hlen) | hid := hold
        · exact .inl hold
        · exact .inr (by omega)
        · exact .inr (by omega)
      · exact .inr (by omega)
    · exact hwritten
  -- an element that is cut off: only its length has been read
  | case3 ie w hroom len w₁ hcut =>
    constructor
    · intro i hi
      simp only [w₁, List.mem_append, List.mem_singleton] at hi
      obtain hold | hlen := hi
      · exact .inl hold
      · exact .inr (by omega)
    · exact hw
  | case4 ie w hshort => exact ⟨fun i hi => .inl hi, hw⟩

/-- A name has at most 32 bytes. -/
private theorem length_nameOf (es : List (UInt8 × List UInt8)) : (nameOf es).length ≤ 32 := by
  rw [nameOf]
  split
  · next e hfound =>
    have hname := List.find?_some hfound
    have hpre := (List.takeWhile_sublist (l := e.2) fun x => x ≠ 0).length_le
    have hshort : e.2.length ≤ 32 := (of_decide_eq_true hname).2
    omega
  · decide

/-- Whatever the bytes of a message are, the name is read from within the attribute,
    copied within `ssid` and printed with at most 32 bytes. -/
theorem ssidOf_safe (get : Nat → UInt8) (ies : Nat) :
    let stop := ies + 4 + (payloadLen get ies).toNat
    let walk := elementLoop get (ies + 4) stop ⟨ssidInit, []⟩
    (∀ i ∈ walk.reads, ies + 4 ≤ i ∧ i < stop) ∧ (∀ i ∈ walk.ssid.written, i < 33) ∧
      ssidOf get (some ies) = walk.ssid ∧ (ssidText walk.ssid).length ≤ 32 := by
  intro stop walk
  obtain ⟨hreads, hwritten⟩ :=
    elementLoop_safe get (ies + 4) stop ⟨ssidInit, []⟩ (by simp [ssidInit])
  refine ⟨fun i hi => ?_, hwritten, rfl, ?_⟩
  · obtain hnone | hinside := hreads i hi
    · cases hnone
    · exact hinside
  · -- the bytes of the attribute, as a list
    let bytes := (List.range (payloadLen get ies).toNat).map fun k => get (ies + 4 + k)
    have hlen : bytes.length = (payloadLen get ies).toNat := by simp [bytes]
    have hbytes : Holds get (ies + 4) bytes := by rw [Holds, hlen]
    have hname := elementLoop_name hbytes []
    rw [hlen] at hname
    rw [hname]
    exact length_nameOf _

/-! ## `print_bss` -/

/-- A scan result: the generic header, the attributes and those within
    `NL80211_ATTR_BSS`. -/
structure Result where
  genl : List UInt8
  outer : List Attr
  attrs : List Attr

/-- The bytes of a result, behind the header. -/
def Result.body (r : Result) : List UInt8 := r.genl ++ attrsBytes r.outer

/-- A result as the kernel sends it. -/
structure Result.Fits (r : Result) : Prop where
  genl : r.genl.length = 4
  outer : ∀ a ∈ r.outer, Storable a
  nested : ∀ p, lookupIn r.outer NL80211_ATTR_BSS = some p → p = attrsBytes r.attrs
  attrs : ∀ a ∈ r.attrs, Storable a
  frequency : ∀ p, lookupIn r.attrs NL80211_BSS_FREQUENCY = some p → p.length = 4
  signal : ∀ p, lookupIn r.attrs NL80211_BSS_SIGNAL_MBM = some p → p.length = 4

/-- The line for the attributes of a result. -/
def lineOfAttrs (attrs : List Attr) : Option BssLine :=
  match lookupIn attrs NL80211_BSS_BSSID with
  | none => none
  | some bssid =>
    if bssid.length < 6 then none
    else
      some {
        bssid := bssid.take 6
        frequency := ((lookupIn attrs NL80211_BSS_FREQUENCY).map u32Of).getD 0
        signal := ((lookupIn attrs NL80211_BSS_SIGNAL_MBM).map fun p =>
          (BitVec.ofNat 32 (u32Of p)).toInt).getD 0
        ssid := ((lookupIn attrs NL80211_BSS_INFORMATION_ELEMENTS).map fun ies =>
          nameOf (elements ies)).getD hidden }

/-- The line of a result. -/
def lineOf (r : Result) : Option BssLine :=
  (lookupIn r.outer NL80211_ATTR_BSS).bind fun _ => lineOfAttrs r.attrs

section

variable {get : Nat → UInt8} {o : Nat} {attrs : List Attr}

/-- A number that is looked up, or 0. -/
private theorem found_u32 (hfits : ∀ a ∈ attrs, Storable a) (h : Holds get o (attrsBytes attrs))
    {type : Nat} (hlen : ∀ p, lookupIn attrs type = some p → p.length = 4) {α : Type} (f : Nat → α) :
    (findAt get o (attrsBytes attrs).length type).map (fun attr => f (u32At get (attr + 4))) =
      (lookupIn attrs type).map fun p => f (u32Of p) := by
  cases hfound : lookupIn attrs type with
  | none => rw [findAt_none hfits h hfound, Option.map_none, Option.map_none]
  | some p =>
    obtain ⟨attr, hat, hpayload⟩ := findAt_some hfits h hfound
    rw [hat, Option.map_some, Option.map_some, hpayload.u32 (hlen p hfound)]

/-- The name printed is that of the element in the attribute. -/
private theorem found_ssid (hfits : ∀ a ∈ attrs, Storable a) (h : Holds get o (attrsBytes attrs)) :
    ssidText (ssidOf get
        (findAt get o (attrsBytes attrs).length NL80211_BSS_INFORMATION_ELEMENTS)) =
      ((lookupIn attrs NL80211_BSS_INFORMATION_ELEMENTS).map fun ies =>
        nameOf (elements ies)).getD hidden := by
  cases hfound : lookupIn attrs NL80211_BSS_INFORMATION_ELEMENTS with
  | none =>
    rw [findAt_none hfits h hfound]
    exact ssidText_init
  | some p =>
    obtain ⟨attr, hat, hlen, hbytes⟩ := findAt_some hfits h hfound
    rw [hat, ssidOf, hlen, Int.toNat_natCast]
    exact elementLoop_name hbytes []

/-- `print_bss` prints the attributes of the result. -/
theorem printBss_line {r : Result} (hr : r.Fits) (h : Holds get o r.body) :
    printBss get o ((r.body.length : Int) - 4) = lineOf r := by
  obtain ⟨-, houter⟩ := holds_append.mp h
  have hlen : (r.body.length : Int) - 4 = (attrsBytes r.outer).length := by
    rw [Result.body, List.length_append, hr.genl]
    omega
  rw [hr.genl] at houter
  rw [printBss, hlen, lineOf]
  -- without the nested attributes nothing is printed
  cases hbss : lookupIn r.outer NL80211_ATTR_BSS with
  | none => rw [findAt_none hr.outer houter hbss, Option.bind_none]
  | some p =>
    obtain ⟨bss, hat, hpayload⟩ := findAt_some hr.outer houter hbss
    -- the search within `NL80211_ATTR_BSS` is a search over attributes again
    obtain rfl := hr.nested p hbss
    obtain ⟨hlen, hbytes⟩ := hpayload
    have hfrequency := found_u32 hr.attrs hbytes hr.frequency id
    have hsignal := found_u32 hr.attrs hbytes hr.signal fun n => (BitVec.ofNat 32 n).toInt
    rw [hat, Option.bind_some]
    simp only [hlen, lineOfAttrs]
    cases hbssid : lookupIn r.attrs NL80211_BSS_BSSID with
    | none => rw [findAt_none hr.attrs hbytes hbssid]
    | some address =>
      obtain ⟨bssid, hatBssid, haddress⟩ := findAt_some hr.attrs hbytes hbssid
      rw [hatBssid]
      simp only [haddress.len]
      by_cases hshort : address.length < 6
      · rw [if_pos (by omega), if_pos hshort]
      · rw [if_neg (by omega), if_neg hshort]
        -- an address may be longer than the six bytes that are printed
        have hfirst : (List.range 6).map (fun k => get (bssid + 4 + k)) = address.take 6 := by
          have hcut : address.take 6 ++ address.drop 6 = address := List.take_append_drop ..
          have hsix := haddress.bytes
          rw [← hcut] at hsix
          have hsix := (holds_append.mp hsix).1
          rwa [Holds, List.length_take_of_le (by omega)] at hsix
        simp only [id_eq] at hfrequency
        simp only [int32At, hfrequency, hsignal, hfirst, found_ssid hr.attrs hbytes]

end

/-! ## `dump_scan` -/

/-- The messages of a dump: those of other requests, results and the two that end it. -/
inductive DumpMsg where
  | foreign (m : Msg)
  | result (type flags pid : Nat) (r : Result)
  | done (flags pid : Nat) (body : List UInt8)
  | error (flags pid : Nat) (body : List UInt8)

/-- The message that the kernel sends. -/
def DumpMsg.msg (seq : Nat) : DumpMsg → Msg
  | .foreign m => m
  | .result type flags pid r => ⟨type, flags, seq, pid, r.body⟩
  | .done flags pid body => ⟨NLMSG_DONE, flags, seq, pid, body⟩
  | .error flags pid body => ⟨NLMSG_ERROR, flags, seq, pid, body⟩

/-- What makes a message the one that its kind says. -/
def DumpMsg.Fits (seq : Nat) : DumpMsg → Prop
  | .foreign m => m.seq ≠ seq
  | .result type _ _ r => type ≠ NLMSG_DONE ∧ type ≠ NLMSG_ERROR ∧ r.Fits
  | _ => True

/-- What `dump_scan` returns and prints, with `n` results before. -/
def dumpOutcome : List DumpMsg → Nat → Int × List Output
  | [], _ => (-1, [])
  | .foreign _ :: rest, n => dumpOutcome rest n
  | .result _ _ _ r :: rest, n =>
    let later := dumpOutcome rest (n + 1)
    (later.1, ((lineOf r).map Output.bss).toList ++ later.2)
  | .done .. :: _, n => (if n ≠ 0 then 0 else 2, [.results n])
  | .error .. :: _, _ => (-1, [])

/-- One message. -/
def dumpStep (s : Dump) : DumpMsg → Dump × Option Int
  | .foreign _ => (s, none)
  | .result _ _ _ r =>
    ({ count := s.count + 1, printed := s.printed ++ ((lineOf r).map Output.bss).toList }, none)
  | .done .. =>
    ({ s with printed := s.printed ++ [.results s.count] }, some (if s.count ≠ 0 then 0 else 2))
  | .error .. => (s, some (-1))

/-- The handler does with a message what its kind says. -/
private theorem dumpHandler_step {seq : Nat} {m : DumpMsg} (hfits : m.Fits seq) :
    Handles (dumpHandler seq) dumpStep (DumpMsg.msg seq) m := by
  intro s get o h
  rw [dumpHandler, h.seq, h.type]
  cases m with
  -- another sequence number: left out
  | foreign m => exact if_pos hfits
  -- a line is printed
  | result type flags pid r =>
    obtain ⟨hdone, herror, hr⟩ := hfits
    have hlen : u32At get o = 16 + r.body.length := h.len
    have hpayload : genlPayload get o = (r.body.length : Int) - 4 := by
      rw [genlPayload, hlen]
      omega
    simp only [DumpMsg.msg, ne_eq, not_true, if_false, hdone, herror, dumpStep, hpayload,
      printBss_line hr h.body]
  | done flags pid body =>
    simp only [DumpMsg.msg, ne_eq, not_true, if_false, if_true, dumpStep]
  | error flags pid body =>
    have hdiffer : NLMSG_ERROR ≠ NLMSG_DONE := by decide
    simp only [DumpMsg.msg, ne_eq, not_true, if_false, if_true, hdiffer, dumpStep]

/-- All messages of the dump. -/
private theorem runMsgs_dumpStep (ms : List DumpMsg) (s : Dump) :
    ((runMsgs dumpStep ms s).2.getD (-1), (runMsgs dumpStep ms s).1.printed) =
      ((dumpOutcome ms s.count).1, s.printed ++ (dumpOutcome ms s.count).2) := by
  -- induction on the messages, with what was counted and printed before them
  induction ms generalizing s with
  | nil => simp [runMsgs, dumpOutcome]
  | cons m ms ih =>
    cases m with
    | foreign m => exact ih s
    | result type flags pid r =>
      have hrest := ih ⟨s.count + 1, s.printed ++ ((lineOf r).map Output.bss).toList⟩
      rw [List.append_assoc] at hrest
      exact hrest
    | done flags pid body => rfl
    | error flags pid body => simp [runMsgs, dumpStep, dumpOutcome]

/-- The loop of `dump_scan`, however the messages are spread over datagrams. -/
private theorem receive_dump {seq : Nat} {ds : List Datagram} {mss : List (List DumpMsg)}
    (h : List.Forall₂ (Carries (DumpMsg.msg seq)) ds mss)
    (hfits : ∀ m ∈ mss.flatten, m.Fits seq) :
    (receive (dumpHandler seq) (-1) ds ⟨0, []⟩).1 = (dumpOutcome mss.flatten 0).1 ∧
      (receive (dumpHandler seq) (-1) ds ⟨0, []⟩).2.1.printed = (dumpOutcome mss.flatten 0).2 := by
  obtain ⟨hret, hstate⟩ :=
    receive_carries h (fun m hm => dumpHandler_step (hfits m hm)) (-1) ⟨0, []⟩
  have hrun := runMsgs_dumpStep mss.flatten ⟨0, []⟩
  rw [List.nil_append, Prod.mk.injEq] at hrun
  rw [hret, hstate]
  exact hrun

/-! ## `main` -/

/-- The bytes of a request. -/
def requestBytes (message : Option (TracedBuffer UInt8)) : List UInt8 :=
  (message.map fun nlh => nlh.read (u32At nlh.get 0)).getD []

/-- A reply with the number of the family. -/
structure FamilyReply (m : Msg) (family : Nat) : Prop where
  type : m.type ≠ NLMSG_ERROR
  fits : family < 2 ^ 16
  body : ∃ genl attrs, genl.length = 4 ∧ m.body = genl ++ attrsBytes attrs ∧
    (∀ a ∈ attrs, Storable a) ∧ lookupIn attrs CTRL_ATTR_FAMILY_ID = some (le16 family)

/-- An acknowledgement that reports no error. -/
structure AckReply (m : Msg) : Prop where
  type : m.type = NLMSG_ERROR
  body : ∃ echoed, m.body = le32 0 ++ echoed

/-- The step of a loop that waits for one answer. -/
def answerStep (seq : Nat) (ret : Int) (_ : Unit) (m : Msg) : Unit × Option Int :=
  if m.seq ≠ seq then ((), none) else ((), some ret)

/-- The reply ends the loop with the family. -/
private theorem familyHandler_reply {seq family : Nat} {m : Msg} (hseq : m.seq = seq)
    (h : FamilyReply m family) : Handles (familyHandler seq) (answerStep seq family) id m := by
  intro s get o hat
  obtain ⟨genl, attrs, hgenl, hbody, hstorable, hlookup⟩ := h.body
  -- the attributes are behind the generic header
  have hlen : genlPayload get o = (attrsBytes attrs).length := by
    have hlen : u32At get o = 16 + m.body.length := hat.len
    rw [genlPayload, hlen, hbody, List.length_append, hgenl]
    omega
  have hattrs : Holds get (o + 20) (attrsBytes attrs) := by
    have hbytes : Holds get (o + 16) m.body := hat.body
    rw [hbody] at hbytes
    have hbytes := (holds_append.mp hbytes).2
    rwa [hgenl] at hbytes
  obtain ⟨attr, hfound, hpayload⟩ := findAt_some hstorable hattrs hlookup
  have hvalue : u16At get (attr + 4) = family := u16At_of_holds hpayload.bytes h.fits
  have hroom : payloadLen get attr ≥ 2 := by
    rw [hpayload.len, length_le16]
    decide
  have hseqAt : nlmsgSeq get o = seq := hat.seq.trans hseq
  have htypeAt : nlmsgType get o ≠ NLMSG_ERROR := fun heq => h.type (hat.type.symm.trans heq)
  rw [familyHandler, if_neg (not_not.mpr hseqAt), if_neg htypeAt, hlen, hfound]
  simp only [hroom, if_true, hvalue, answerStep, hseq, ne_eq, not_true, if_false]

/-- The acknowledgement ends the loop with 0. -/
private theorem ackHandler_reply {seq : Nat} {m : Msg} (hseq : m.seq = seq) (h : AckReply m) :
    Handles (ackHandler seq) (answerStep seq 0) id m := by
  intro s get o hat
  obtain ⟨echoed, hbody⟩ := h.body
  have hbytes : Holds get (o + 16) m.body := hat.body
  rw [hbody] at hbytes
  have hzero : u32At get (o + 16) = 0 := u32At_of_holds (holds_append.mp hbytes).1 (by decide)
  have hseqAt : nlmsgSeq get o = seq := hat.seq.trans hseq
  have htypeAt : nlmsgType get o = NLMSG_ERROR := hat.type.trans h.type
  have hvalue : int32At get (o + 16) = 0 := by
    rw [int32At, hzero]
    rfl
  rw [ackHandler, if_neg (by simp [hseqAt, htypeAt]), hvalue]
  simp only [answerStep, hseq, ne_eq, not_true, if_false]

/-- A message with another number is passed over. -/
private theorem familyHandler_foreign (seq : Nat) (ret : Int) {m : Msg} (hseq : m.seq ≠ seq) :
    Handles (familyHandler seq) (answerStep seq ret) id m ∧
      answerStep seq ret () m = ((), none) := by
  constructor
  · intro s get o hat
    have hseqAt : nlmsgSeq get o ≠ seq := fun heq => hseq (hat.seq.symm.trans heq)
    rw [familyHandler, if_pos hseqAt, answerStep, if_pos hseq]
  · exact if_pos hseq

/-- A message with another number is passed over. -/
private theorem ackHandler_foreign (seq : Nat) (ret : Int) {m : Msg} (hseq : m.seq ≠ seq) :
    Handles (ackHandler seq) (answerStep seq ret) id m ∧ answerStep seq ret () m = ((), none) := by
  constructor
  · intro s get o hat
    have hseqAt : nlmsgSeq get o ≠ seq := fun heq => hseq (hat.seq.symm.trans heq)
    rw [ackHandler, if_pos (.inl hseqAt), answerStep, if_pos hseq]
  · exact if_pos hseq

section

variable {s : Socket}

/-- `resolve_family` when the request is sent and answered. -/
private theorem resolveFamily_answered {seq family : Nat} {reply : Msg} {ds rest : List Datagram}
    (hsend : s.sendResult s.sent.length = 0) (hincoming : s.incoming = ds ++ rest)
    (hanswered : Answered seq reply ds) (hseq : reply.seq = seq)
    (hreply : FamilyReply reply family) :
    resolveFamily seq s = ((family : Int), { s with
      incoming := rest, sent := s.sent ++ [requestBytes (familyMessage seq)] }) := by
  have hstart := startMessage_built GENL_ID_CTRL NLM_F_REQUEST seq CTRL_CMD_GETFAMILY
    (show 20 ≤ 8192 by omega)
  -- the request fits its buffer, so it is built and sent
  obtain ⟨nlh, hmessage, -, -⟩ := addAttrs_built hstart (Nat.le_refl _)
    [(CTRL_ATTR_FAMILY_NAME, genlName)] (by decide)
  have hbuilt : familyMessage seq = some nlh := hmessage
  have hreturn : answerStep seq family () reply = ((), some (family : Int)) :=
    if_neg (not_not.mpr hseq)
  have hloop := hanswered.receive (fun m hm => familyHandler_foreign seq family hm)
    (familyHandler_reply hseq hreply) hreturn (-1) rest
  rw [resolveFamily, hbuilt]
  simp only [sendRequest, hsend, hincoming, hloop, requestBytes, Option.map_some,
    Option.getD_some, ne_eq, not_true, if_false]

/-- `trigger_scan` when the request is sent and acknowledged. -/
private theorem triggerScan_answered {family seq ifindex : Nat} {reply : Msg}
    {ds rest : List Datagram}
    (hsend : s.sendResult s.sent.length = 0) (hincoming : s.incoming = ds ++ rest)
    (hanswered : Answered seq reply ds) (hseq : reply.seq = seq) (hreply : AckReply reply) :
    triggerScan family seq ifindex s = (0, { s with
      incoming := rest, sent := s.sent ++ [requestBytes (scanMessage family seq ifindex)] }) := by
  obtain ⟨nlh, hmessage, -, -⟩ := scanMessage_built family seq ifindex
  have hreturn : answerStep seq 0 () reply = ((), some 0) := if_neg (not_not.mpr hseq)
  have hloop := hanswered.receive (fun m hm => ackHandler_foreign seq 0 hm)
    (ackHandler_reply hseq hreply) hreturn (-s.recvErrno) rest
  rw [triggerScan, hmessage]
  simp only [sendRequest, hsend, recvAck, hincoming, hloop, requestBytes, Option.map_some,
    Option.getD_some, ne_eq, not_true, if_false]

/-- `dump_scan` when the request is sent. -/
private theorem dumpScan_answered {family seq ifindex : Nat} {mss : List (List DumpMsg)}
    (hsend : s.sendResult s.sent.length = 0)
    (hdump : List.Forall₂ (Carries (DumpMsg.msg seq)) s.incoming mss)
    (hfits : ∀ m ∈ mss.flatten, m.Fits seq) :
    (dumpScan family seq ifindex s).1 = (dumpOutcome mss.flatten 0).1 ∧
      (dumpScan family seq ifindex s).2.1 = (dumpOutcome mss.flatten 0).2 ∧
      (dumpScan family seq ifindex s).2.2.sent =
        s.sent ++ [requestBytes (dumpMessage family seq ifindex)] := by
  have hstart := startMessage_built family (NLM_F_REQUEST ||| NLM_F_DUMP) seq NL80211_CMD_GET_SCAN
    (show 20 ≤ 8192 by omega)
  -- again the request fits its buffer
  obtain ⟨nlh, hmessage, -, -⟩ := addAttrs_built hstart (Nat.le_refl _)
    [(NL80211_ATTR_IFINDEX, le32 ifindex)]
    (by simp [length_attrsBytes, attrSpace, length_le32, alignInt])
  have hbuilt : dumpMessage family seq ifindex = some nlh := hmessage
  obtain ⟨hret, hprinted⟩ := receive_dump hdump hfits
  rw [dumpScan, hbuilt]
  simp only [sendRequest, hsend, requestBytes, Option.map_some, Option.getD_some, ne_eq, not_true,
    if_false]
  exact ⟨hret, hprinted, trivial⟩

/-- A run of `main` in which the family and the scan request are answered.  It prints one
    line for each result of the dump that has an address, in the order of the kernel and
    with the values of the attributes, and the number of results, whatever messages of
    other requests are in between and however all are spread over datagrams. -/
theorem main_scans {ifindex family : Nat} {names acks dump : List Datagram}
    {familyReply ackReply : Msg} {mss : List (List DumpMsg)} (hsend : ∀ n, s.sendResult n = 0)
    (hincoming : s.incoming = names ++ (acks ++ dump))
    (hnames : Answered 1 familyReply names) (hfamilySeq : familyReply.seq = 1)
    (hfamily : FamilyReply familyReply family)
    (hacks : Answered 2 ackReply acks) (hackSeq : ackReply.seq = 2) (hack : AckReply ackReply)
    (hdump : List.Forall₂ (Carries (DumpMsg.msg 3)) dump mss)
    (hfits : ∀ m ∈ mss.flatten, m.Fits 3) :
    (main ifindex s).1 = (dumpOutcome mss.flatten 0).1 ∧
      (main ifindex s).2.1 = .triggered :: (dumpOutcome mss.flatten 0).2 ∧
      (main ifindex s).2.2.sent = s.sent ++ [requestBytes (familyMessage 1),
        requestBytes (scanMessage family 2 ifindex),
        requestBytes (dumpMessage family 3 ifindex)] := by
  -- each request meets the socket that the one before has left
  have hresolve := resolveFamily_answered (hsend _) hincoming hnames hfamilySeq hfamily
  let s₁ : Socket := { s with
    incoming := acks ++ dump, sent := s.sent ++ [requestBytes (familyMessage 1)] }
  let s₂ : Socket := { s₁ with
    incoming := dump, sent := s₁.sent ++ [requestBytes (scanMessage family 2 ifindex)] }
  have htrigger : triggerScan family 2 ifindex s₁ = (0, s₂) :=
    triggerScan_answered (hsend _) rfl hacks hackSeq hack
  have hresults : (dumpScan family 3 ifindex s₂).1 = (dumpOutcome mss.flatten 0).1 ∧
      (dumpScan family 3 ifindex s₂).2.1 = (dumpOutcome mss.flatten 0).2 ∧
      (dumpScan family 3 ifindex s₂).2.2.sent =
        s₂.sent ++ [requestBytes (dumpMessage family 3 ifindex)] :=
    dumpScan_answered (hsend _) hdump hfits
  obtain ⟨hret, hprinted, hsent⟩ := hresults
  have hnonneg : ¬ (family : Int) < 0 := by omega
  rw [main, hresolve]
  simp only [hnonneg, if_false, Int.toNat_natCast]
  rw [show triggerScan family 2 ifindex { s with
      incoming := acks ++ dump, sent := s.sent ++ [requestBytes (familyMessage 1)] } = (0, s₂)
    from htrigger]
  simp only [ne_eq, not_true, if_false]
  -- what the dump returns is what `main` returns
  generalize dumpScan family 3 ifindex s₂ = result at hret hprinted hsent ⊢
  constructor
  · exact hret
  · constructor
    · rw [hprinted]
    · rw [hsent]
      simp [s₂, s₁]

end

/-- The family 28, an acknowledgement and a dump of one network without a name. -/
theorem main_scans_one :
    let network : Result := ⟨[0, 1, 0, 0],
      [(NL80211_ATTR_BSS, attrsBytes [(NL80211_BSS_BSSID, [2, 0, 0, 0, 0, 1])])],
      [(NL80211_BSS_BSSID, [2, 0, 0, 0, 0, 1])]⟩
    let s : Socket := {
      incoming := [datagramOf [⟨16, 0, 1, 7, [1, 2, 0, 0] ++ attrsBytes [(1, le16 28)]⟩],
        datagramOf [⟨2, 0, 1, 7, []⟩, ⟨2, 0, 2, 7, le32 0⟩],
        datagramOf [DumpMsg.msg 3 (.result 28 2 7 network), DumpMsg.msg 3 (.done 2 7 [])]]
      sendResult := fun _ => 0
      recvErrno := 11 }
    (main 2 s).1 = 0 ∧ (main 2 s).2.1 =
      [.triggered, .bss ⟨[2, 0, 0, 0, 0, 1], 0, 0, hidden⟩, .results 1] := by
  intro network s
  let familyReply : Msg := ⟨16, 0, 1, 7, [1, 2, 0, 0] ++ attrsBytes [(1, le16 28)]⟩
  let late : Msg := ⟨2, 0, 1, 7, []⟩
  let ackReply : Msg := ⟨2, 0, 2, 7, le32 0⟩
  let dump : List DumpMsg := [.result 28 2 7 network, .done 2 7 []]
  have hnames : Answered 1 familyReply [datagramOf [familyReply]] :=
    ⟨[], [], datagramOf [familyReply], [], [], rfl, .nil,
      carries_datagramOf [familyReply] (by decide), by decide⟩
  have hfamily : FamilyReply familyReply 28 :=
    ⟨by decide, by decide, [1, 2, 0, 0], [(1, le16 28)], rfl, rfl, by decide, rfl⟩
  -- a late message of the first request comes before the acknowledgement
  have hlate : Carries id (datagramOf [late, ackReply]) [late, ackReply] :=
    carries_datagramOf [late, ackReply] (by decide)
  have hacks : Answered 2 ackReply [datagramOf [late, ackReply]] :=
    ⟨[], [], datagramOf [late, ackReply], [late], [], rfl, .nil, hlate, by decide⟩
  have hack : AckReply ackReply := ⟨rfl, [], rfl⟩
  have hdump : List.Forall₂ (Carries (DumpMsg.msg 3))
      [datagramOf (dump.map (DumpMsg.msg 3))] [dump] :=
    .cons (carries_datagramOf dump (by decide)) .nil
  -- a network with an address and no name
  have hnetwork : network.Fits := by
    constructor
    · rfl
    · decide
    · intro p hp
      exact (Option.some.inj hp).symm
    · decide
    · intro p hp
      cases hp
    · intro p hp
      cases hp
  have hfits : ∀ m ∈ [dump].flatten, m.Fits 3 := by
    intro m hm
    simp only [dump, List.flatten_cons, List.flatten_nil, List.append_nil, List.mem_cons,
      List.not_mem_nil, or_false] at hm
    obtain rfl | rfl := hm
    · exact ⟨by decide, by decide, hnetwork⟩
    · trivial
  obtain ⟨hret, hprinted, -⟩ :=
    main_scans (s := s) (fun _ => rfl) rfl hnames rfl hfamily hacks rfl hack hdump hfits
  exact ⟨hret, hprinted⟩

end EspS31.WifiScan
