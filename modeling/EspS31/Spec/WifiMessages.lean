import EspS31.Native.WifiMessages
import EspS31.Spec.NetlinkAttrs
import EspS31.Spec.PmkCorrect

/-!
# What the kernel finds in the requests

The request of `trigger_scan` and that of `connect_network` fit into their buffers for
all arguments, and reading them back with `find_attr` gives the arguments: of
`connect_network` the key that is PBKDF2 of the passphrase, of `trigger_scan` the
wildcard name in an attribute within an attribute.

## Key results

- `findAttr_lookup`: `find_attr` on attributes one after the other, flags and all
- `addAttrs_built`: calls of `add_attr` that have room
- `scanMessage_parses`, `mainMessage_parses`: the two requests
-/

namespace EspS31.Netlink

open TracedBuffer

/-! ## Looking up -/

/-- The payload of an attribute: `NLA_DATA_PTR` and `NLA_PAYLOAD_LEN`. -/
def payload (get : Nat → UInt8) (o : Nat) : List UInt8 :=
  (List.range (u16At get o - 4)).map fun k => get (o + 4 + k)

/-- The payload that `find_attr` finds for a type in the bytes from `o` on. -/
def lookup (get : Nat → UInt8) (o : Nat) (length : Int) (type : Nat) : Option (List UInt8) :=
  (findAttr (fun i => get (o + i)) length type).found.map (payload fun i => get (o + i))

/-- The same of a list of attributes.  The two high bits of a type are flags. -/
def lookupIn (attrs : List Attr) (type : Nat) : Option (List UInt8) :=
  (attrs.find? fun a => a.1 % 2 ^ 14 = type).map (·.2)

section

variable {get : Nat → UInt8} {o : Nat}

/-- The payload of an attribute that is held. -/
private theorem payload_of_holds {a : Attr} (hfits : Storable a) (h : Holds get o (attrBytes a)) :
    payload get o = a.2 := by
  obtain ⟨hlen, -, hdata⟩ := holds_attrBytes hfits h
  rw [payload, hlen, Nat.add_sub_cancel_left]
  exact hdata

/-- `find_attr` in bytes that are attributes gives the payload of the first one of the
    type. -/
theorem findAttr_lookup {attrs : List Attr} (hfits : ∀ a ∈ attrs, Storable a)
    (h : Holds get o (attrsBytes attrs)) (type : Nat) :
    lookup get o (attrsBytes attrs).length type = lookupIn attrs type := by
  have hbytes : Holds (fun i => get (o + i)) 0 (attrsBytes attrs) := by
    rw [Holds] at h ⊢
    simpa using h
  -- the loop stops at the first attribute of the type
  have hfirst := findLoop_first hfits type hbytes []
  rw [lookup, findAttr, lookupIn]
  cases hfind : attrs.find? (fun a => a.1 % 2 ^ 14 = type) with
  | none =>
    rw [hfind] at hfirst
    rw [hfirst, Option.map_none, Option.map_none]
  | some a =>
    rw [hfind] at hfirst
    obtain ⟨o', hfound, hattr⟩ := hfirst
    have hstorable := hfits a (List.mem_of_find?_eq_some hfind)
    rw [hfound, Option.map_some, Option.map_some, payload_of_holds hstorable hattr]

end

/-! ## Building -/

/-- Attributes take the room of each. -/
theorem length_attrsBytes (attrs : List Attr) :
    (attrsBytes attrs).length = (attrs.map attrSpace).sum := by
  simp only [attrsBytes, List.length_flatMap, length_attrBytes]

/-- Attributes one behind the other. -/
private theorem attrsBytes_append (attrs more : List Attr) :
    attrsBytes (attrs ++ more) = attrsBytes attrs ++ attrsBytes more := List.flatMap_append

section

variable {capacity : Nat} {b : TracedBuffer UInt8} {attrs : List Attr}

/-- Calls that have room for all attributes. -/
theorem addAttrs_built (h : Built capacity b attrs) (hcap : capacity ≤ 8192) (more : List Attr)
    (hroom : 20 + (attrsBytes (attrs ++ more)).length ≤ capacity) :
    ∃ b', addAttrs capacity more b = some b' ∧ Built capacity b' (attrs ++ more) ∧
      ∀ j, 4 ≤ j → j < 20 → b'.get j = b.get j := by
  -- induction on the calls, with the message built so far
  induction more generalizing b attrs with
  | nil => exact ⟨b, rfl, by rwa [List.append_nil], fun _ _ _ => rfl⟩
  | cons a more ih =>
    have hsplit : attrs ++ a :: more = attrs ++ [a] ++ more := by simp
    have hfirst : 20 + (attrsBytes (attrs ++ [a])).length ≤ capacity := by
      rw [hsplit, attrsBytes_append, List.length_append] at hroom
      omega
    obtain ⟨b₁, hadd, hbuilt, hsame⟩ := addAttr_appends h hcap hfirst
    obtain ⟨b₂, hrest, hbuilt₂, hsame₂⟩ := ih hbuilt (by rwa [← hsplit])
    refine ⟨b₂, ?_, by rwa [hsplit], fun j hlow hhigh => ?_⟩
    · simp only [addAttrs, hadd, hrest, ne_eq, not_true, if_false]
    · rw [hsame₂ j hlow hhigh, hsame j hlow hhigh]

/-- An attribute without payload is its header. -/
private theorem attrBytes_nil (type : Nat) : attrBytes (type, []) = le16 4 ++ le16 type := by
  simp [attrBytes, attrSpace, alignInt]

/-- An attribute whose payload is attributes. -/
private theorem attrBytes_nested (type : Nat) (inner : List Attr) :
    attrBytes (type, attrsBytes inner) =
      le16 (4 + (attrsBytes inner).length) ++ (le16 type ++ attrsBytes inner) := by
  have hmod := length_attrsBytes_mod inner
  -- attributes end at a multiple of 4, so there is no padding
  have hpad : attrSpace (type, attrsBytes inner) - (4 + (attrsBytes inner).length) = 0 := by
    simp only [attrSpace, alignInt]
    omega
  rw [attrBytes, hpad, List.replicate_zero, List.append_nil]

/-- The length of an empty attribute is set such that the attributes behind it are its
    payload. -/
theorem Built.nest {type : Nat} (inner : List Attr)
    (h : Built capacity b (attrs ++ (type, []) :: inner))
    (hroom : 20 + (attrsBytes (attrs ++ (type, []) :: inner)).length ≤ capacity) :
    Built capacity
        (b.puts (20 + (attrsBytes attrs).length) (le16 (4 + (attrsBytes inner).length)))
        (attrs ++ [(type, attrsBytes inner)]) ∧
      ∀ j, 4 ≤ j → j < 20 →
        (b.puts (20 + (attrsBytes attrs).length) (le16 (4 + (attrsBytes inner).length))).get j =
          b.get j := by
  have hbytes := h.bytes
  have htotal : (attrsBytes (attrs ++ (type, []) :: inner)).length =
      (attrsBytes attrs).length + (4 + (attrsBytes inner).length) := by
    rw [attrsBytes_append, attrsBytes_cons, attrBytes_nil]
    simp only [List.length_append, length_le16]
  rw [attrsBytes_append, attrsBytes_cons, attrBytes_nil] at hbytes
  obtain ⟨hfront, hbehind⟩ := holds_append.mp hbytes
  rw [List.append_assoc] at hbehind
  obtain ⟨-, hbehind⟩ := holds_append.mp hbehind
  constructor
  · constructor
    · -- the length of the message stays
      rw [u32At, u16At, u16At, puts_get_lt _ _ _ (by omega), puts_get_lt _ _ _ (by omega),
        puts_get_lt _ _ _ (by omega), puts_get_lt _ _ _ (by omega), ← u16At, ← u16At, ← u32At,
        h.len, htotal, attrsBytes_concat, attrBytes_nested]
      simp only [List.length_append, length_le16]
      omega
    · rw [attrsBytes_concat, attrBytes_nested]
      apply holds_append.mpr
      constructor
      -- the attributes in front, the new length, and the type with what is nested
      · exact hfront.puts (.inl (by omega))
      · apply holds_append.mpr
        constructor
        · exact holds_puts ..
        · exact hbehind.puts (.inr (by simp [length_le16]))
    -- the two bytes written lie inside the message
    · intro i hi
      obtain hnew | hold := (mem_written_puts ..).mp hi
      · rw [length_le16] at hnew
        omega
      · exact h.inside i hold
  -- the header is in front of the attributes
  · intro j hlow hhigh
    exact puts_get_lt _ _ _ (by omega)

/-- The attributes of a message, as the kernel looks them up. -/
theorem Built.lookup (h : Built capacity b attrs) (hfits : ∀ a ∈ attrs, Storable a) (type : Nat) :
    Netlink.lookup b.get 20 (u32At b.get 0 - 20) type = lookupIn attrs type := by
  have hlen : (u32At b.get 0 : Int) - 20 = (attrsBytes attrs).length := by
    rw [h.len]
    omega
  rw [hlen]
  exact findAttr_lookup hfits h.bytes type

end

/-! ## Headers -/

/-- The headers of a request. -/
structure Header (get : Nat → UInt8) (type flags seq cmd : Nat) : Prop where
  type : u16At get 4 = type
  flags : u16At get 6 = flags
  seq : u32At get 8 = seq
  cmd : get 16 = UInt8.ofNat cmd
  version : get 17 = 1

section

variable {get get' : Nat → UInt8} {type flags seq cmd : Nat}

/-- The header is in its own bytes. -/
theorem Header.congr (h : Header get type flags seq cmd)
    (hsame : ∀ j, 4 ≤ j → j < 20 → get' j = get j) : Header get' type flags seq cmd := by
  -- the attributes are behind the headers, and the length is not part of them
  have hat16 (o : Nat) (hlow : 4 ≤ o) (hhigh : o + 2 ≤ 20) : u16At get' o = u16At get o := by
    rw [u16At, u16At, hsame o hlow (by omega), hsame (o + 1) (by omega) (by omega)]
  constructor
  · rw [hat16 4 (by omega) (by omega)]
    exact h.type
  · rw [hat16 6 (by omega) (by omega)]
    exact h.flags
  · rw [u32At, hat16 8 (by omega) (by omega), hat16 (8 + 2) (by omega) (by omega)]
    exact h.seq
  · rw [hsame 16 (by omega) (by omega)]
    exact h.cmd
  · rw [hsame 17 (by omega) (by omega)]
    exact h.version

/-- A message starts with its header. -/
private theorem startMessage_header (cmd : Nat) (htype : type < 2 ^ 16) (hflags : flags < 2 ^ 16)
    (hseq : seq < 2 ^ 32) : Header (startMessage type flags seq cmd).get type flags seq cmd := by
  -- each field is written once, and the later ones are elsewhere
  have h4 : Holds (startMessage type flags seq cmd).get 4 (le16 type) := by
    apply Holds.puts _ (.inl (by simp [length_le16]))
    apply Holds.puts _ (.inl (by simp [length_le16]))
    apply Holds.puts _ (.inl (by simp [length_le16]))
    apply Holds.puts _ (.inl (by simp [length_le16]))
    exact holds_puts ..
  have h6 : Holds (startMessage type flags seq cmd).get 6 (le16 flags) := by
    apply Holds.puts _ (.inl (by simp [length_le16]))
    apply Holds.puts _ (.inl (by simp [length_le16]))
    apply Holds.puts _ (.inl (by simp [length_le16]))
    exact holds_puts ..
  have h8 : Holds (startMessage type flags seq cmd).get 8 (le32 seq) := by
    apply Holds.puts _ (.inl (by simp [length_le32]))
    apply Holds.puts _ (.inl (by simp [length_le32]))
    exact holds_puts ..
  exact ⟨u16At_of_holds h4 htype, u16At_of_holds h6 hflags, u32At_of_holds h8 hseq, rfl, rfl⟩

/-- A message starts without attributes. -/
theorem startMessage_built (type flags seq cmd : Nat) {capacity : Nat} (hcap : 20 ≤ capacity) :
    Built capacity (startMessage type flags seq cmd) [] := by
  have h0 : Holds (startMessage type flags seq cmd).get 0 (le32 20) := by
    apply Holds.puts _ (.inl (by simp [length_le32]))
    apply Holds.puts _ (.inl (by simp [length_le32]))
    apply Holds.puts _ (.inl (by simp [length_le32]))
    apply Holds.puts _ (.inl (by simp [length_le32]))
    apply Holds.puts _ (.inl (by simp [length_le32]))
    exact holds_puts ..
  refine ⟨u32At_of_holds h0 (by decide), rfl, fun i hi => ?_⟩
  simp only [startMessage, mem_written_puts, length_le16, length_le32, List.length_singleton,
    List.not_mem_nil, or_false] at hi
  omega

end

end EspS31.Netlink

/-! ## The request of `trigger_scan` -/

namespace EspS31.WifiScan

open Netlink TracedBuffer

/-- The attributes of the request. -/
def scanAttrs (ifindex : Nat) : List Attr :=
  [(NL80211_ATTR_IFINDEX, le32 ifindex),
    (NL80211_ATTR_SCAN_SSIDS ||| NLA_F_NESTED, attrsBytes [(1, [])])]

/-- The message has the attributes in order, behind its header. -/
theorem scanMessage_built (family seq ifindex : Nat) :
    ∃ nlh, scanMessage family seq ifindex = some nlh ∧ Built 256 nlh (scanAttrs ifindex) ∧
      ∀ j, 4 ≤ j → j < 20 → nlh.get j =
        (startMessage family (NLM_F_REQUEST ||| NLM_F_ACK) seq NL80211_CMD_TRIGGER_SCAN).get j := by
  have hstart := startMessage_built family (NLM_F_REQUEST ||| NLM_F_ACK) seq
    NL80211_CMD_TRIGGER_SCAN (show 20 ≤ 256 by omega)
  -- the index of the interface
  obtain ⟨b₁, hindex, hbuilt₁, hsame₁⟩ :=
    addAttrs_built hstart (show 256 ≤ 8192 by omega)
      [(NL80211_ATTR_IFINDEX, le32 ifindex)]
      (by simp [length_attrsBytes, attrSpace, length_le32, alignInt])
  have hlen₁ : u32At b₁.get 0 = 28 := by
    rw [hbuilt₁.len]
    simp [length_attrsBytes, attrSpace, length_le32, alignInt]
  have hstart28 : alignLen (u32At b₁.get 0) = 28 := by
    rw [hlen₁]
    rfl
  -- the two attributes without a payload
  obtain ⟨b₂, hnames, hbuilt₂, hsame₂⟩ :=
    addAttrs_built hbuilt₁ (show 256 ≤ 8192 by omega)
      [(NL80211_ATTR_SCAN_SSIDS ||| NLA_F_NESTED, []), (1, [])]
      (by simp [length_attrsBytes, attrSpace, length_le32, alignInt])
  have hlen₂ : u32At b₂.get 0 = 36 := by
    rw [hbuilt₂.len]
    simp [length_attrsBytes, attrSpace, length_le32, alignInt]
  -- the second is made the payload of the first
  obtain ⟨hbuilt, hsame⟩ := Built.nest [(1, [])] hbuilt₂
    (by simp [length_attrsBytes, attrSpace, length_le32, alignInt])
  have hplace : 20 + (attrsBytes ([] ++ [(NL80211_ATTR_IFINDEX, le32 ifindex)])).length = 28 := by
    simp [length_attrsBytes, attrSpace, length_le32, alignInt]
  have hsize : 4 + (attrsBytes [(1, [])]).length = 8 := rfl
  rw [hplace, hsize] at hbuilt hsame
  refine ⟨b₂.puts 28 (le16 8), ?_, hbuilt, fun j hlow hhigh => ?_⟩
  · simp only [scanMessage, hindex, hnames, hlen₂, hstart28, Option.bind_eq_bind,
      Option.bind_some, Option.pure_def]
  · rw [hsame j hlow hhigh, hsame₂ j hlow hhigh, hsame₁ j hlow hhigh]

/-- The attributes can be stored. -/
private theorem storable_scanAttrs (ifindex : Nat) : ∀ a ∈ scanAttrs ifindex, Storable a := by
  intro a ha
  simp only [scanAttrs, List.mem_cons, List.not_mem_nil, or_false] at ha
  obtain rfl | rfl := ha
  · exact ⟨show NL80211_ATTR_IFINDEX < 2 ^ 16 by decide, show 4 + 4 < 2 ^ 16 by decide⟩
  · exact ⟨by decide, by decide⟩

/-- The request fits into its buffer, and its only name to scan for is the empty one. -/
theorem scanMessage_parses {family seq ifindex : Nat} (hfamily : family < 2 ^ 16)
    (hseq : seq < 2 ^ 32) :
    ∃ nlh, scanMessage family seq ifindex = some nlh ∧ (∀ i ∈ nlh.written, i < 256) ∧
      u32At nlh.get 0 = 36 ∧
      Header nlh.get family (NLM_F_REQUEST ||| NLM_F_ACK) seq NL80211_CMD_TRIGGER_SCAN ∧
      lookup nlh.get 20 (u32At nlh.get 0 - 20) NL80211_ATTR_IFINDEX = some (le32 ifindex) ∧
      ∃ ssids, lookup nlh.get 20 (u32At nlh.get 0 - 20) NL80211_ATTR_SCAN_SSIDS = some ssids ∧
        lookup (fun i => ssids.getD i 0) 0 ssids.length 1 = some [] := by
  have hflags : NLM_F_REQUEST ||| NLM_F_ACK < 2 ^ 16 := by decide
  have hheader := startMessage_header NL80211_CMD_TRIGGER_SCAN hfamily hflags hseq
  obtain ⟨nlh, hmessage, hbuilt, hsame⟩ := scanMessage_built family seq ifindex
  have hlookup := hbuilt.lookup (storable_scanAttrs ifindex)
  refine ⟨nlh, hmessage, hbuilt.inside, ?_, hheader.congr hsame, ?_, attrsBytes [(1, [])], ?_, ?_⟩
  · -- the headers, an attribute of eight bytes and the two without a payload
    rw [hbuilt.len]
    simp [scanAttrs, attrSpace, length_le32, attrsBytes, length_attrBytes, alignInt]
  · rw [hlookup]
    rfl
  · rw [hlookup]
    rfl
  · have hinner : Holds (fun i => (attrsBytes [(1, [])]).getD i 0) 0 (attrsBytes [(1, [])]) := rfl
    have hempty : ∀ a ∈ [((1, []) : Attr)], Storable a := by decide
    rw [findAttr_lookup hempty hinner]
    rfl

/-- The message for one interface. -/
theorem scanMessage_parses_wlan0 :
    ∃ nlh, scanMessage 28 1 2 = some nlh ∧ (∀ i ∈ nlh.written, i < 256) ∧
      u32At nlh.get 0 = 36 ∧
      Header nlh.get 28 (NLM_F_REQUEST ||| NLM_F_ACK) 1 NL80211_CMD_TRIGGER_SCAN ∧
      lookup nlh.get 20 (u32At nlh.get 0 - 20) NL80211_ATTR_IFINDEX = some (le32 2) ∧
      ∃ ssids, lookup nlh.get 20 (u32At nlh.get 0 - 20) NL80211_ATTR_SCAN_SSIDS = some ssids ∧
        lookup (fun i => ssids.getD i 0) 0 ssids.length 1 = some [] :=
  scanMessage_parses (by decide) (by decide)

end EspS31.WifiScan

/-! ## The request of `connect_network` -/

namespace EspS31.WifiConnect

open Netlink TracedBuffer Pbkdf2

section

variable {ifindex frequency : Nat} {ssid passphrase pmk : List UInt8} {bssid : Option (List UInt8)}

/-- The attributes fit behind the header. -/
private theorem length_connectAttrs (hssid : ssid.length ≤ 32)
    (hpassphrase : passphrase.length ≤ 63)
    (hpmk : pmk.length = 32) (hbssid : ∀ address, bssid = some address → address.length = 6) :
    20 + (attrsBytes (connectAttrs ifindex ssid passphrase pmk bssid frequency)).length ≤ 512 := by
  -- the optional parts, one by one
  have hkey : ((if passphrase ≠ [] then keyAttrs passphrase pmk else []).map attrSpace).sum ≤
      144 := by
    split
    · simp [keyAttrs, attrSpace, alignInt, length_le32, hpmk]
      omega
    · simp
  have haddress : ((bssid.toList.map fun address =>
      (NL80211_ATTR_MAC, address)).map attrSpace).sum ≤ 12 := by
    cases bssid with
    | none => simp
    | some address => simp [attrSpace, alignInt, hbssid address rfl]
  have hfrequency : ((if frequency ≠ 0 then [(NL80211_ATTR_WIPHY_FREQ, le32 frequency)]
      else []).map attrSpace).sum ≤ 8 := by
    split
    · simp [attrSpace, alignInt, length_le32]
    · simp
  have hfirst : ([(NL80211_ATTR_IFINDEX, le32 ifindex),
      (NL80211_ATTR_SSID, ssid)].map attrSpace).sum ≤ 44 := by
    simp [attrSpace, alignInt, length_le32]
    omega
  -- altogether 228 bytes at most
  rw [length_attrsBytes, connectAttrs, List.map_append, List.map_append, List.map_append,
    List.sum_append, List.sum_append, List.sum_append]
  omega

/-- The attributes can be stored. -/
private theorem storable_connectAttrs (hssid : ssid.length ≤ 32)
    (hpassphrase : passphrase.length ≤ 63)
    (hpmk : pmk.length = 32) (hbssid : ∀ address, bssid = some address → address.length = 6) :
    ∀ a ∈ connectAttrs ifindex ssid passphrase pmk bssid frequency, Storable a := by
  intro a ha
  rw [Storable]
  simp only [connectAttrs, List.mem_append] at ha
  -- the parts of the request in their order
  obtain ((hfirst | hkey) | haddress) | hfrequency := ha
  · simp only [List.mem_cons, List.not_mem_nil, or_false] at hfirst
    obtain rfl | rfl := hfirst
    · simp [NL80211_ATTR_IFINDEX, length_le32]
    · simp [NL80211_ATTR_SSID]
      omega
  · split at hkey
    · simp only [keyAttrs, List.mem_cons, List.not_mem_nil, or_false] at hkey
      obtain rfl | rfl | rfl | rfl | rfl | rfl | rfl := hkey
      · simp [NL80211_ATTR_PRIVACY]
      · simp [NL80211_ATTR_WPA_VERSIONS, length_le32]
      · simp [NL80211_ATTR_CIPHER_SUITES_PAIRWISE, length_le32]
      · simp [NL80211_ATTR_CIPHER_SUITE_GROUP, length_le32]
      · simp [NL80211_ATTR_AKM_SUITES, length_le32]
      · simp [NL80211_ATTR_PMK, hpmk]
      · simp [NL80211_ATTR_SAE_PASSWORD]
        omega
    · cases hkey
  · obtain ⟨address, hsome, rfl⟩ := List.mem_map.mp haddress
    simp [NL80211_ATTR_MAC, hbssid address (Option.mem_toList.mp hsome)]
  · split at hfrequency
    · obtain rfl := List.mem_singleton.mp hfrequency
      simp [NL80211_ATTR_WIPHY_FREQ, length_le32]
    · cases hfrequency

/-- What is found in a list is found in its first part, or else in the second. -/
private theorem lookupIn_append (attrs more : List Attr) (type : Nat) :
    lookupIn (attrs ++ more) type = (lookupIn attrs type).or (lookupIn more type) := by
  rw [lookupIn, lookupIn, lookupIn, List.find?_append, Option.map_or]

/-- Looking in one attribute. -/
private theorem lookupIn_singleton {t : Nat} (ht : t < 2 ^ 14) (data : List UInt8) (type : Nat) :
    lookupIn [(t, data)] type = if type = t then some data else none := by
  rw [lookupIn, List.find?_singleton, Nat.mod_eq_of_lt ht]
  by_cases htype : type = t
  · simp [htype]
  · simp [htype, Ne.symm htype]

/-- The address is there when it is given. -/
private theorem lookupIn_address (type : Nat) :
    lookupIn (bssid.toList.map fun address => (NL80211_ATTR_MAC, address)) type =
      if type = NL80211_ATTR_MAC then bssid else none := by
  cases bssid with
  | none => simp [lookupIn]
  | some address => exact lookupIn_singleton (by decide) address type

/-- The frequency is there when it is not 0. -/
private theorem lookupIn_frequency (type : Nat) :
    lookupIn (if frequency ≠ 0 then [(NL80211_ATTR_WIPHY_FREQ, le32 frequency)] else []) type =
      if type = NL80211_ATTR_WIPHY_FREQ ∧ frequency ≠ 0 then some (le32 frequency) else none := by
  by_cases hfrequency : frequency = 0
  · simp [lookupIn, hfrequency]
  · rw [if_pos hfrequency, lookupIn_singleton (by decide)]
    simp only [hfrequency, ne_eq, not_false_eq_true, and_true]

/-- The attributes of the request by their types. -/
private theorem lookupIn_connectAttrs (type : Nat) :
    lookupIn (connectAttrs ifindex ssid passphrase pmk bssid frequency) type =
      (lookupIn [(NL80211_ATTR_IFINDEX, le32 ifindex), (NL80211_ATTR_SSID, ssid)] type).or
        ((if passphrase ≠ [] then lookupIn (keyAttrs passphrase pmk) type else none).or
          ((if type = NL80211_ATTR_MAC then bssid else none).or
            (if type = NL80211_ATTR_WIPHY_FREQ ∧ frequency ≠ 0 then some (le32 frequency)
            else none))) := by
  have hkey : lookupIn (if passphrase ≠ [] then keyAttrs passphrase pmk else []) type =
      if passphrase ≠ [] then lookupIn (keyAttrs passphrase pmk) type else none := by
    split
    · rfl
    · rfl
  rw [connectAttrs, lookupIn_append, lookupIn_append, lookupIn_append, hkey, lookupIn_address,
    lookupIn_frequency, Option.or_assoc, Option.or_assoc]

/-- The types that only come with a passphrase. -/
private theorem lookupIn_key {type : Nat}
    (hfirst : lookupIn [(NL80211_ATTR_IFINDEX, le32 ifindex), (NL80211_ATTR_SSID, ssid)] type =
      none)
    (hmac : type ≠ NL80211_ATTR_MAC) (hfreq : type ≠ NL80211_ATTR_WIPHY_FREQ) :
    lookupIn (connectAttrs ifindex ssid passphrase pmk bssid frequency) type =
      if passphrase ≠ [] then lookupIn (keyAttrs passphrase pmk) type else none := by
  have hother : ¬(type = NL80211_ATTR_WIPHY_FREQ ∧ frequency ≠ 0) := fun h => hfreq h.1
  rw [lookupIn_connectAttrs, hfirst, if_neg hmac, if_neg hother, Option.none_or, Option.or_none,
    Option.or_none]

/-- The key is among its attributes. -/
private theorem lookupIn_pmk : lookupIn (keyAttrs passphrase pmk) NL80211_ATTR_PMK = some pmk := rfl

/-- The types that no passphrase comes with. -/
private theorem lookupIn_target {type : Nat}
    (hfirst : lookupIn [(NL80211_ATTR_IFINDEX, le32 ifindex), (NL80211_ATTR_SSID, ssid)] type =
      none)
    (hkey : lookupIn (keyAttrs passphrase pmk) type = none) :
    lookupIn (connectAttrs ifindex ssid passphrase pmk bssid frequency) type =
      (if type = NL80211_ATTR_MAC then bssid else none).or
        (if type = NL80211_ATTR_WIPHY_FREQ ∧ frequency ≠ 0 then some (le32 frequency)
        else none) := by
  rw [lookupIn_connectAttrs, hfirst, hkey, ite_self, Option.none_or, Option.none_or]

end

/-- The key of PBKDF2 for the arguments. -/
def keyOf (a : Arguments) : List UInt8 :=
  (pbkdf2 hmacPrf (a.passphrase.map byteOf) (a.ssid.map byteOf) 20 4096 32).map UInt8.ofBitVec

/-- The key is that of PBKDF2. -/
private theorem mainPmk_eq (ctx : Sha1Ctx) (mem : Memory PmkObject) {a : Arguments}
    (hssid : a.ssid.length ≤ 32) (hssidNul : 0 ∉ a.ssid) (hpassphrase : a.passphrase.length ≤ 63)
    (hpassphraseNul : 0 ∉ a.passphrase) (hkey : a.passphrase ≠ []) :
    mainPmk ctx mem a = keyOf a := by
  -- an argument of `main` is a string, so it holds no NUL
  have hnul : ∀ s : List UInt8, 0 ∉ s → 0 ∉ s.map byteOf := by
    intro s hs hmem
    obtain ⟨b, hb, hzero⟩ := List.mem_map.mp hmem
    have : b = 0 := UInt8.toBitVec_inj.mp hzero
    exact hs (this ▸ hb)
  rw [mainPmk, if_pos hkey, keyOf, derivePmk,
    derivePmkWith_pbkdf2 4096 ctx mem (by simpa using hpassphrase) (hnul _ hpassphraseNul)
      (by simpa using hssid) (hnul _ hssidNul)]

/-- The message that `main` sends for arguments that it accepts fits into its buffer.
    The kernel finds the arguments in it, with a passphrase the key derived from it and
    without one no key at all. -/
theorem mainMessage_parses (ctx : Sha1Ctx) (mem : Memory PmkObject) (family seq ifindex : Nat)
    (a : Arguments) (hfamily : family < 2 ^ 16) (hseq : seq < 2 ^ 32) (hvalid : a.valid)
    (hssidNul : 0 ∉ a.ssid) (hpassphraseNul : 0 ∉ a.passphrase)
    (hbssid : ∀ address frequency, a.bssid = some (some address, frequency) → address.length = 6) :
    ∃ nlh, mainMessage ctx mem family seq ifindex a = some nlh ∧ (∀ i ∈ nlh.written, i < 512) ∧
      Header nlh.get family (NLM_F_REQUEST ||| NLM_F_ACK) seq NL80211_CMD_CONNECT ∧
      let found := lookup nlh.get 20 (u32At nlh.get 0 - 20)
      let secret := a.passphrase ≠ []
      found NL80211_ATTR_IFINDEX = some (le32 ifindex) ∧ found NL80211_ATTR_SSID = some a.ssid ∧
        (found NL80211_ATTR_PRIVACY = if secret then some [] else none) ∧
        (found NL80211_ATTR_WPA_VERSIONS = if secret then some (le32 WPA2_VERSION) else none) ∧
        (found NL80211_ATTR_AKM_SUITES =
          if secret then some (le32 PSK_SUITE ++ le32 SAE_SUITE) else none) ∧
        (found NL80211_ATTR_PMK = if secret then some (keyOf a) else none) ∧
        (found NL80211_ATTR_SAE_PASSWORD = if secret then some a.passphrase else none) ∧
        found NL80211_ATTR_MAC = a.bssid.bind (·.1) ∧
        found NL80211_ATTR_WIPHY_FREQ = a.bssid.map fun target => le32 target.2 := by
  -- what the checks of `main` say
  have hvalid' := hvalid
  simp only [Arguments.valid, Bool.and_eq_true, Bool.not_eq_true', Bool.or_eq_false_iff,
    decide_eq_false_iff_not] at hvalid
  obtain ⟨⟨⟨⟨-, hssid⟩, -⟩, hpassphrase⟩, htarget⟩ := hvalid
  have hssid : a.ssid.length ≤ 32 := by omega
  have hpassphrase : a.passphrase.length ≤ 63 := by omega
  have haddress : ∀ address, a.bssid.bind (·.1) = some address → address.length = 6 := by
    intro address h
    obtain ⟨target, htarget, hfirst⟩ := Option.bind_eq_some_iff.mp h
    exact hbssid address target.2 (by rw [htarget, ← hfirst])
  have hpmk : (mainPmk ctx mem a).length = 32 := by
    rw [mainPmk, List.length_map, length_read]
  -- the message
  have hflags : NLM_F_REQUEST ||| NLM_F_ACK < 2 ^ 16 := by decide
  have hheader := startMessage_header NL80211_CMD_CONNECT hfamily hflags hseq
  have hstart := startMessage_built family (NLM_F_REQUEST ||| NLM_F_ACK) seq NL80211_CMD_CONNECT
    (show 20 ≤ 512 by omega)
  obtain ⟨nlh, hmessage, hbuilt, hsame⟩ := addAttrs_built hstart (show 512 ≤ 8192 by omega)
    (connectAttrs ifindex a.ssid a.passphrase (mainPmk ctx mem a) (a.bssid.bind (·.1))
      ((a.bssid.map (·.2)).getD 0))
    (length_connectAttrs hssid hpassphrase hpmk haddress)
  have hlookup := hbuilt.lookup (storable_connectAttrs hssid hpassphrase hpmk haddress)
  refine ⟨nlh, ?_, hbuilt.inside, hheader.congr hsame, ?_⟩
  · rw [mainMessage, if_pos hvalid', connectMessage, hmessage]
  -- the key is derived only when there is a passphrase
  · have hkey : a.passphrase ≠ [] → mainPmk ctx mem a = keyOf a :=
      mainPmk_eq ctx mem hssid hssidNul hpassphrase hpassphraseNul
    simp only [hlookup, List.nil_append]
    refine ⟨?_, ?_, ?_, ?_, ?_, ?_, ?_, ?_, ?_⟩
    · rw [lookupIn_connectAttrs]
      rfl
    · rw [lookupIn_connectAttrs]
      rfl
    · rw [lookupIn_key rfl (by decide) (by decide)]
      rfl
    · rw [lookupIn_key rfl (by decide) (by decide)]
      rfl
    · rw [lookupIn_key rfl (by decide) (by decide)]
      rfl
    · rw [lookupIn_key rfl (by decide) (by decide)]
      by_cases hopen : a.passphrase = []
      · rw [if_neg (not_not.mpr hopen), if_neg (not_not.mpr hopen)]
      · rw [if_pos hopen, if_pos hopen, lookupIn_pmk, hkey hopen]
    · rw [lookupIn_key rfl (by decide) (by decide)]
      rfl
    · rw [lookupIn_target rfl rfl, if_pos rfl, if_neg (fun h => absurd h.1 (by decide)),
        Option.or_none]
    · rw [lookupIn_target rfl rfl, if_neg (by decide), Option.none_or]
      -- a frequency that is accepted is not 0
      cases hb : a.bssid with
      | none => rfl
      | some target =>
        rw [hb] at htarget
        simp only [Bool.and_eq_true, Bool.not_eq_true', Bool.or_eq_false_iff,
          decide_eq_false_iff_not] at htarget
        have hne : target.2 ≠ 0 := by omega
        exact if_pos ⟨rfl, hne⟩

/-- The network `net` with the passphrase `password` at an access point on channel 1. -/
theorem mainMessage_parses_channel1 :
    let a : Arguments := ⟨[0x6e, 0x65, 0x74], [0x70, 0x61, 0x73, 0x73, 0x77, 0x6f, 0x72, 0x64],
      some (some [2, 0, 0, 0, 0, 1], 2412)⟩
    ∃ nlh, mainMessage ⟨Sha1.H0, 0, ⟨fun _ => 0, []⟩⟩ ⟨fun _ => ⟨fun _ => 0, []⟩⟩ 28 1 2 a =
        some nlh ∧
      lookup nlh.get 20 (u32At nlh.get 0 - 20) NL80211_ATTR_PMK = some (keyOf a) ∧
      lookup nlh.get 20 (u32At nlh.get 0 - 20) NL80211_ATTR_WIPHY_FREQ = some (le32 2412) := by
  -- the network `net` with the passphrase `password`, on channel 1 of one access point
  intro a
  obtain ⟨nlh, hmessage, -, -, -, -, -, -, -, hpmk, -, -, hfrequency⟩ :=
    mainMessage_parses ⟨Sha1.H0, 0, ⟨fun _ => 0, []⟩⟩ ⟨fun _ => ⟨fun _ => 0, []⟩⟩ 28 1 2 a
      (by decide) (by decide) (by decide) (by decide)
      (by decide) (by
        intro address frequency h
        obtain ⟨haddress, -⟩ := Prod.mk.inj (Option.some.inj h)
        obtain rfl := Option.some.inj haddress
        rfl)
  exact ⟨nlh, hmessage, hpmk, hfrequency⟩

end EspS31.WifiConnect
