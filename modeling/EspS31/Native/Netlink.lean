import EspS31.ForStd.TracedBuffer

/-!
# Attributes of netlink messages

`add_attr` and `find_attr`, of which `wifi_scan.c` and `wifi_connect.c` each have a
copy.  Numbers are stored with the low byte first; `size_t` has 32 bits and `nla_len`
and `nla_type` have 16.
-/

namespace EspS31.Netlink

/-! ## Numbers in a buffer -/

/-- The 16-bit number at `o`, the lower byte first. -/
def u16At (get : Nat → UInt8) (o : Nat) : Nat := (get o).toNat + 2 ^ 8 * (get (o + 1)).toNat

/-- The 32-bit number at `o`, the lowest byte first. -/
def u32At (get : Nat → UInt8) (o : Nat) : Nat := u16At get o + 2 ^ 16 * u16At get (o + 2)

/-- A number as two bytes, the lower one first. -/
def le16 (n : Nat) : List UInt8 := [UInt8.ofNat n, UInt8.ofNat (n / 2 ^ 8)]

/-- A number as four bytes, the lowest one first. -/
def le32 (n : Nat) : List UInt8 := le16 n ++ le16 (n / 2 ^ 16)

/-- `NLA_ALIGN_LEN` and `NLMSG_ALIGN` of a `size_t`. -/
def alignLen (n : Nat) : Nat := (n + 3) % 2 ^ 32 / 4 * 4

/-! ## `add_attr` -/

/-- The attribute is written behind the message, whose length is in its first bytes. -/
def addAttr (nlh : TracedBuffer UInt8) (capacity type : Nat) (data : List UInt8) :
    Int × TracedBuffer UInt8 :=
  let attrLen := (4 + data.length) % 2 ^ 32
  let offset := alignLen (u32At nlh.get 0)
  if (offset + alignLen attrLen) % 2 ^ 32 > capacity then (-1, nlh)
  else
    let nlh := nlh.puts (offset + 2) (le16 type)
    let nlh := nlh.puts offset (le16 attrLen)
    let nlh := if data.length ≠ 0 then nlh.puts (offset + 4) data else nlh
    let nlh := nlh.puts (offset + attrLen)
      (List.replicate ((2 ^ 32 + alignLen attrLen - attrLen) % 2 ^ 32) 0)
    (0, nlh.puts 0 (le32 ((offset + alignLen attrLen) % 2 ^ 32)))

/-! ## `find_attr` -/

/-- Where the attribute is, and what was read. -/
structure FindResult where
  found : Option Nat
  reads : List Nat
deriving DecidableEq, Repr

/-- `NLA_ALIGN_LEN` of an `nla_len`, which is an `int` here. -/
def alignInt (n : Nat) : Nat := (n + 3) / 4 * 4

/-- The loop of `find_attr` at offset `o` with `length` bytes to go. -/
def findLoop (get : Nat → UInt8) (type o : Nat) (length : Int) (reads : List Nat) : FindResult :=
  if _h : 4 ≤ length then
    if _hlen : 4 ≤ u16At get o ∧ (u16At get o : Int) ≤ length then
      -- the mask takes off the flags in the two high bits
      if u16At get (o + 2) % 2 ^ 14 = type then ⟨some o, reads ++ [o, o + 1, o + 2, o + 3]⟩
      else
        findLoop get type (o + alignInt (u16At get o)) (length - alignInt (u16At get o))
          (reads ++ [o, o + 1, o + 2, o + 3])
    else ⟨none, reads ++ [o, o + 1]⟩
  else ⟨none, reads⟩
termination_by length.toNat
decreasing_by rw [alignInt]; omega

/-- `find_attr` in the bytes from `data` on. -/
def findAttr (data : Nat → UInt8) (length : Int) (type : Nat) : FindResult :=
  findLoop data type 0 length []

end EspS31.Netlink

namespace EspS31.WifiScan

/-- `add_attr` of `wifi_scan.c` -/
def addAttr : TracedBuffer UInt8 → Nat → Nat → List UInt8 → Int × TracedBuffer UInt8 :=
  Netlink.addAttr

/-- `find_attr` of `wifi_scan.c` -/
def findAttr : (Nat → UInt8) → Int → Nat → Netlink.FindResult := Netlink.findAttr

end EspS31.WifiScan

namespace EspS31.WifiConnect

/-- `add_attr` of `wifi_connect.c` -/
def addAttr : TracedBuffer UInt8 → Nat → Nat → List UInt8 → Int × TracedBuffer UInt8 :=
  Netlink.addAttr

/-- `find_attr` of `wifi_connect.c` -/
def findAttr : (Nat → UInt8) → Int → Nat → Netlink.FindResult := Netlink.findAttr

end EspS31.WifiConnect
