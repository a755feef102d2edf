import EspS31.Native.Netlink
import EspS31.Native.WifiPmk

/-!
# The requests of the Wi-Fi tools

The messages that `trigger_scan` of `wifi_scan.c` and `connect_network` of
`wifi_connect.c` send, with the arguments that `main` of the latter accepts.
-/

namespace EspS31.Netlink

/-! ## Numbers of the kernel interface -/

/-- The message is a request. -/
def NLM_F_REQUEST : Nat := 1
/-- Asks for an acknowledgement. -/
def NLM_F_ACK : Nat := 4
/-- The attribute has attributes of its own. -/
def NLA_F_NESTED : Nat := 2 ^ 15
/-- Asks for a scan. -/
def NL80211_CMD_TRIGGER_SCAN : Nat := 33
/-- Asks for a connection. -/
def NL80211_CMD_CONNECT : Nat := 46
/-- The interface. -/
def NL80211_ATTR_IFINDEX : Nat := 3
/-- The address of the access point. -/
def NL80211_ATTR_MAC : Nat := 6
/-- The frequency in MHz. -/
def NL80211_ATTR_WIPHY_FREQ : Nat := 38
/-- The names to scan for. -/
def NL80211_ATTR_SCAN_SSIDS : Nat := 45
/-- The name of the network. -/
def NL80211_ATTR_SSID : Nat := 52
/-- The network is protected. -/
def NL80211_ATTR_PRIVACY : Nat := 70
/-- The pairwise cipher. -/
def NL80211_ATTR_CIPHER_SUITES_PAIRWISE : Nat := 73
/-- The group cipher. -/
def NL80211_ATTR_CIPHER_SUITE_GROUP : Nat := 74
/-- The versions of WPA. -/
def NL80211_ATTR_WPA_VERSIONS : Nat := 75
/-- The key management. -/
def NL80211_ATTR_AKM_SUITES : Nat := 76
/-- The pairwise master key. -/
def NL80211_ATTR_PMK : Nat := 254
/-- The password for SAE. -/
def NL80211_ATTR_SAE_PASSWORD : Nat := 277

/-! ## Building -/

/-- A zeroed buffer with the netlink header and the generic one. -/
def startMessage (type flags seq cmd : Nat) : TracedBuffer UInt8 :=
  let nlh : TracedBuffer UInt8 := ⟨fun _ => 0, []⟩
  let nlh := nlh.puts 0 (le32 20)
  let nlh := nlh.puts 4 (le16 type)
  let nlh := nlh.puts 6 (le16 flags)
  let nlh := nlh.puts 8 (le32 seq)
  let nlh := nlh.puts 16 [UInt8.ofNat cmd]
  nlh.puts 17 [1]

/-- Calls of `add_attr` up to the first that fails. -/
def addAttrs (capacity : Nat) :
    List (Nat × List UInt8) → TracedBuffer UInt8 → Option (TracedBuffer UInt8)
  | [], nlh => some nlh
  | a :: attrs, nlh =>
    let r := addAttr nlh capacity a.1 a.2
    if r.1 ≠ 0 then none else addAttrs capacity attrs r.2

end EspS31.Netlink

namespace EspS31.WifiScan

open Netlink

/-- The message of `trigger_scan`. -/
def scanMessage (family seq ifindex : Nat) : Option (TracedBuffer UInt8) := do
  let nlh := startMessage family (NLM_F_REQUEST ||| NLM_F_ACK) seq NL80211_CMD_TRIGGER_SCAN
  let nlh ← addAttrs 256 [(NL80211_ATTR_IFINDEX, le32 ifindex)] nlh
  let start := alignLen (u32At nlh.get 0)
  let nlh ← addAttrs 256 [(NL80211_ATTR_SCAN_SSIDS ||| NLA_F_NESTED, []), (1, [])] nlh
  -- the outer attribute is extended over the inner one
  return nlh.puts start (le16 (u32At nlh.get 0 - start))

end EspS31.WifiScan

namespace EspS31.WifiConnect

open Netlink

/-- WPA2. -/
def WPA2_VERSION : Nat := 2
/-- CCMP. -/
def CCMP_SUITE : Nat := 0x000fac04
/-- Key management by a shared key. -/
def PSK_SUITE : Nat := 0x000fac02
/-- Key management by SAE. -/
def SAE_SUITE : Nat := 0x000fac08

/-- The arguments of `add_attr` in `connect_network` for a passphrase. -/
def keyAttrs (passphrase pmk : List UInt8) : List (Nat × List UInt8) :=
  [(NL80211_ATTR_PRIVACY, []), (NL80211_ATTR_WPA_VERSIONS, le32 WPA2_VERSION),
    (NL80211_ATTR_CIPHER_SUITES_PAIRWISE, le32 CCMP_SUITE),
    (NL80211_ATTR_CIPHER_SUITE_GROUP, le32 CCMP_SUITE),
    (NL80211_ATTR_AKM_SUITES, le32 PSK_SUITE ++ le32 SAE_SUITE), (NL80211_ATTR_PMK, pmk),
    (NL80211_ATTR_SAE_PASSWORD, passphrase)]

/-- All of them, in the order of the calls. -/
def connectAttrs (ifindex : Nat) (ssid passphrase pmk : List UInt8) (bssid : Option (List UInt8))
    (frequency : Nat) : List (Nat × List UInt8) :=
  [(NL80211_ATTR_IFINDEX, le32 ifindex), (NL80211_ATTR_SSID, ssid)] ++
    (if passphrase ≠ [] then keyAttrs passphrase pmk else []) ++
    (bssid.toList.map fun address => (NL80211_ATTR_MAC, address)) ++
    if frequency ≠ 0 then [(NL80211_ATTR_WIPHY_FREQ, le32 frequency)] else []

/-- The message of `connect_network`. -/
def connectMessage (family seq ifindex : Nat) (ssid passphrase pmk : List UInt8)
    (bssid : Option (List UInt8)) (frequency : Nat) : Option (TracedBuffer UInt8) :=
  addAttrs 512 (connectAttrs ifindex ssid passphrase pmk bssid frequency)
    (startMessage family (NLM_F_REQUEST ||| NLM_F_ACK) seq NL80211_CMD_CONNECT)

/-- The arguments of `wifi_connect`. -/
structure Arguments where
  ssid : List UInt8
  passphrase : List UInt8
  /-- What `ether_aton` and `strtoul` make of the two optional arguments. -/
  bssid : Option (Option (List UInt8) × Nat)

/-- The checks of `main` on its arguments. -/
def Arguments.valid (a : Arguments) : Bool :=
  !(a.ssid.length < 1 || a.ssid.length > 32 ||
      (a.passphrase.length ≠ 0 && a.passphrase.length < 8) || a.passphrase.length > 63) &&
    match a.bssid with
    | none => true
    | some (address, frequency) => address.isSome && !(frequency < 2412 || frequency > 2484)

/-- A byte as the hash takes it. -/
def byteOf (b : UInt8) : BitVec 8 := b.toBitVec

/-- `pmk` in `main`: it is derived when there is a passphrase. -/
def mainPmk (ctx : Sha1Ctx) (mem : Memory PmkObject) (a : Arguments) : List UInt8 :=
  let mem :=
    if a.passphrase ≠ [] then derivePmk ctx mem (a.passphrase.map byteOf) (a.ssid.map byteOf)
    else mem
  ((mem .pmk).read 32).map UInt8.ofBitVec

/-- The message that `main` has sent for its arguments. -/
def mainMessage (ctx : Sha1Ctx) (mem : Memory PmkObject) (family seq ifindex : Nat)
    (a : Arguments) : Option (TracedBuffer UInt8) :=
  if a.valid then
    connectMessage family seq ifindex a.ssid a.passphrase (mainPmk ctx mem a)
      (a.bssid.bind (·.1)) ((a.bssid.map (·.2)).getD 0)
  else none

end EspS31.WifiConnect
