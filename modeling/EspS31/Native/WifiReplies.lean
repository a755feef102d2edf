import EspS31.Native.WifiMessages

/-!
# The replies to the Wi-Fi tools

`recv_ack`, `resolve_family`, `print_bss`, `dump_scan` and `main` of `wifi_scan.c`, on
the datagrams that the socket delivers one after the other until `recv` fails.  The
bytes of a datagram go on with whatever is in the buffer behind it.  Of the printed
lines the fields are kept.
-/

namespace EspS31.Netlink

/-! ## Numbers of the kernel interface -/

/-- The message type of the generic netlink controller. -/
def GENL_ID_CTRL : Nat := 16
/-- An error, or an acknowledgement when the error is 0. -/
def NLMSG_ERROR : Nat := 2
/-- The end of a dump. -/
def NLMSG_DONE : Nat := 3
/-- Asks for all entries. -/
def NLM_F_DUMP : Nat := 768
/-- Asks the controller for a family. -/
def CTRL_CMD_GETFAMILY : Nat := 3
/-- The message type of the family. -/
def CTRL_ATTR_FAMILY_ID : Nat := 1
/-- The name the family is asked for by. -/
def CTRL_ATTR_FAMILY_NAME : Nat := 2
/-- Asks for the results of a scan. -/
def NL80211_CMD_GET_SCAN : Nat := 32
/-- The attribute of one result, with attributes of its own. -/
def NL80211_ATTR_BSS : Nat := 47
/-- The address of the access point. -/
def NL80211_BSS_BSSID : Nat := 1
/-- The frequency in MHz. -/
def NL80211_BSS_FREQUENCY : Nat := 2
/-- The information elements, the name among them. -/
def NL80211_BSS_INFORMATION_ELEMENTS : Nat := 6
/-- The signal in hundredths of dBm, signed. -/
def NL80211_BSS_SIGNAL_MBM : Nat := 7

/-- `NL80211_GENL_NAME` and its terminator. -/
def genlName : List UInt8 := [0x6e, 0x6c, 0x38, 0x30, 0x32, 0x31, 0x31, 0]

/-! ## Datagrams -/

/-- What one `recv` gives: the bytes of the buffer behind it, and its result. -/
structure Datagram where
  bytes : Nat → UInt8
  length : Int

/-- The offsets of the messages that `NLMSG_OK` and `NLMSG_NEXT` go through from `o` on,
    with `length` bytes to go. -/
def messages (get : Nat → UInt8) (o : Nat) (length : Int) : List Nat :=
  if _h : 16 ≤ length ∧ 16 ≤ u32At get o ∧ (u32At get o : Int) ≤ length then
    o :: messages get (o + alignInt (u32At get o)) (length - alignInt (u32At get o))
  else []
termination_by length.toNat
decreasing_by rw [alignInt]; omega

/-- `nlmsg_type` of the header at `o`. -/
def nlmsgType (get : Nat → UInt8) (o : Nat) : Nat := u16At get (o + 4)

/-- `nlmsg_seq` of the header at `o`. -/
def nlmsgSeq (get : Nat → UInt8) (o : Nat) : Nat := u32At get (o + 8)

/-- `NLMSG_PAYLOAD(nlh, GENL_HDRLEN)` -/
def genlPayload (get : Nat → UInt8) (o : Nat) : Int := (u32At get o : Int) - 20

/-- The signed 32-bit number at `o`. -/
def int32At (get : Nat → UInt8) (o : Nat) : Int := (BitVec.ofNat 32 (u32At get o)).toInt

/-- `find_attr` from `o` on, as an offset. -/
def findAt (get : Nat → UInt8) (o : Nat) (length : Int) (type : Nat) : Option Nat :=
  (findAttr (fun i => get (o + i)) length type).found.map fun attr => o + attr

/-- `NLA_PAYLOAD_LEN` -/
def payloadLen (get : Nat → UInt8) (attr : Nat) : Int := (u16At get attr : Int) - 4

/-- The messages of one datagram, up to the one on which the caller returns. -/
def handleAll {σ : Type} (handle : σ → (Nat → UInt8) → Nat → σ × Option Int)
    (get : Nat → UInt8) : List Nat → σ → σ × Option Int
  | [], s => (s, none)
  | o :: rest, s =>
    match handle s get o with
    | (s, some ret) => (s, some ret)
    | (s, none) => handleAll handle get rest s

/-- The loop around `recv`: what is returned, and the datagrams that are left.  The rest
    of the datagram that is returned on is dropped. -/
def receive {σ : Type} (handle : σ → (Nat → UInt8) → Nat → σ × Option Int) (failed : Int) :
    List Datagram → σ → Int × σ × List Datagram
  -- `recv` fails once nothing is left to deliver
  | [], s => (failed, s, [])
  | d :: rest, s =>
    match handleAll handle d.bytes (messages d.bytes 0 d.length) s with
    | (s, some ret) => (ret, s, rest)
    | (s, none) => receive handle failed rest s

end EspS31.Netlink

namespace EspS31.WifiScan

open Netlink

/-- The netlink socket: what it will deliver, what was sent, and what `send_request`
    returns for each message. -/
structure Socket where
  incoming : List Datagram
  sent : List (List UInt8) := []
  sendResult : Nat → Int
  recvErrno : Int

/-- Sends a message by its own length; the kernel answers each send by its number. -/
def sendRequest (nlh : TracedBuffer UInt8) (s : Socket) : Int × Socket :=
  (s.sendResult s.sent.length, { s with sent := s.sent ++ [nlh.read (u32At nlh.get 0)] })

/-! ## `recv_ack` and `trigger_scan` -/

/-- What `recv_ack` does with one message. -/
def ackHandler (seq : Nat) (_ : Unit) (get : Nat → UInt8) (o : Nat) : Unit × Option Int :=
  -- an acknowledgement is an error message too, with the error 0
  if nlmsgSeq get o ≠ seq ∨ nlmsgType get o ≠ NLMSG_ERROR then ((), none)
  else ((), some (int32At get (o + 16)))

/-- Waits for the acknowledgement of a request. -/
def recvAck (seq : Nat) (s : Socket) : Int × Socket :=
  let r := receive (ackHandler seq) (-s.recvErrno) s.incoming ()
  (r.1, { s with incoming := r.2.2 })

/-- Asks for a scan and waits for the acknowledgement. -/
def triggerScan (family seq ifindex : Nat) (s : Socket) : Int × Socket :=
  match scanMessage family seq ifindex with
  | none => (-1, s)
  | some nlh =>
    let r := sendRequest nlh s
    -- without a request there is nothing to wait for
    if r.1 ≠ 0 then (-1, r.2) else recvAck seq r.2

/-! ## `resolve_family` -/

/-- The request for the family, by its name. -/
def familyMessage (seq : Nat) : Option (TracedBuffer UInt8) :=
  addAttrs 8192 [(CTRL_ATTR_FAMILY_NAME, genlName)]
    (startMessage GENL_ID_CTRL NLM_F_REQUEST seq CTRL_CMD_GETFAMILY)

/-- What `resolve_family` does with one message. -/
def familyHandler (seq : Nat) (_ : Unit) (get : Nat → UInt8) (o : Nat) : Unit × Option Int :=
  if nlmsgSeq get o ≠ seq then ((), none)
  else if nlmsgType get o = NLMSG_ERROR then ((), some (-1))
  else
    match findAt get (o + 20) (genlPayload get o) CTRL_ATTR_FAMILY_ID with
    | none => ((), none)
    | some attr =>
      -- the number has two bytes, so a result below 0 is always a failure
      if payloadLen get attr ≥ 2 then ((), some (u16At get (attr + 4))) else ((), none)

/-- Asks for the family's message type; -1 when there is none. -/
def resolveFamily (seq : Nat) (s : Socket) : Int × Socket :=
  match familyMessage seq with
  | none => (-1, s)
  | some nlh =>
    let sent := sendRequest nlh s
    if sent.1 ≠ 0 then (-1, sent.2)
    else
      let r := receive (familyHandler seq) (-1) sent.2.incoming ()
      (r.1, { sent.2 with incoming := r.2.2 })

/-! ## `print_bss` -/

/-- The fields of a line of `print_bss`; the signal is in hundredths. -/
structure BssLine where
  bssid : List UInt8
  frequency : Nat
  signal : Int
  ssid : List UInt8
deriving DecidableEq, Repr

/-- `"<hidden>"` -/
def hidden : List UInt8 := [0x3c, 0x68, 0x69, 0x64, 0x64, 0x65, 0x6e, 0x3e]

/-- `ssid` and the bytes that were read. -/
structure ElementWalk where
  ssid : TracedBuffer UInt8
  reads : List Nat

/-- The loop over the information elements at `ie`. -/
def elementLoop (get : Nat → UInt8) (ie stop : Nat) (w : ElementWalk) : ElementWalk :=
  if _h : ie + 2 ≤ stop then
    let len := (get (ie + 1)).toNat
    let w := { w with reads := w.reads ++ [ie + 1] }
    if _hlen : ie + 2 + len ≤ stop then
      let w := { w with reads := w.reads ++ [ie] }
      -- element 0 is the name of the network; one that is too long is skipped
      if get ie = 0 ∧ len ≤ 32 then
        let body := (List.range len).map fun k => get (ie + 2 + k)
        { ssid := (w.ssid.puts 0 body).put len 0
          reads := w.reads ++ (List.range len).map fun k => ie + 2 + k }
      else elementLoop get (ie + 2 + len) stop w
    else w
  else w
termination_by stop - ie

/-- The buffer for the name, as initialized. -/
def ssidInit : TracedBuffer UInt8 := ⟨fun i => hidden.getD i 0, []⟩

/-- `ssid` behind `if (ies)`. -/
def ssidOf (get : Nat → UInt8) : Option Nat → TracedBuffer UInt8
  | none => ssidInit
  | some ies =>
    (elementLoop get (ies + 4) (ies + 4 + (payloadLen get ies).toNat) ⟨ssidInit, []⟩).ssid

/-- What `%s` prints of `ssid`. -/
def ssidText (ssid : TracedBuffer UInt8) : List UInt8 := (ssid.read 33).takeWhile (· ≠ 0)

/-- The line of one result; nothing without an address. -/
def printBss (get : Nat → UInt8) (genl : Nat) (length : Int) : Option BssLine :=
  match findAt get (genl + 4) length NL80211_ATTR_BSS with
  | none => none
  | some bss =>
    let find := findAt get (bss + 4) (payloadLen get bss)
    -- only the length of the address is checked; the numbers are read as 4 bytes
    let bssid := find NL80211_BSS_BSSID
    let frequency := find NL80211_BSS_FREQUENCY
    let signal := find NL80211_BSS_SIGNAL_MBM
    let ies := find NL80211_BSS_INFORMATION_ELEMENTS
    match bssid with
    | none => none
    | some bssid =>
      if payloadLen get bssid < 6 then none
      else
        some {
          bssid := (List.range 6).map fun k => get (bssid + 4 + k)
          frequency := (frequency.map fun f => u32At get (f + 4)).getD 0
          signal := (signal.map fun f => int32At get (f + 4)).getD 0
          ssid := ssidText (ssidOf get ies) }

/-! ## `dump_scan` -/

/-- What the program prints. -/
inductive Output where
  | bss (line : BssLine)
  | results (count : Nat)
  | triggered
deriving DecidableEq, Repr

/-- `count` and what was printed. -/
structure Dump where
  count : Nat
  printed : List Output
deriving DecidableEq, Repr

/-- What `dump_scan` does with one message. -/
def dumpHandler (seq : Nat) (s : Dump) (get : Nat → UInt8) (o : Nat) : Dump × Option Int :=
  if nlmsgSeq get o ≠ seq then (s, none)
  else if nlmsgType get o = NLMSG_DONE then
    ({ s with printed := s.printed ++ [.results s.count] }, some (if s.count ≠ 0 then 0 else 2))
  else if nlmsgType get o = NLMSG_ERROR then (s, some (-1))
  else
    -- a result that prints no line is counted as well
    let line := printBss get (o + 16) (genlPayload get o)
    ({ count := s.count + 1, printed := s.printed ++ (line.map .bss).toList }, none)

/-- The request for the results of the scan. -/
def dumpMessage (family seq ifindex : Nat) : Option (TracedBuffer UInt8) :=
  addAttrs 8192 [(NL80211_ATTR_IFINDEX, le32 ifindex)]
    (startMessage family (NLM_F_REQUEST ||| NLM_F_DUMP) seq NL80211_CMD_GET_SCAN)

/-- Asks for the results and prints them as they come. -/
def dumpScan (family seq ifindex : Nat) (s : Socket) : Int × List Output × Socket :=
  match dumpMessage family seq ifindex with
  | none => (-1, [], s)
  | some nlh =>
    let sent := sendRequest nlh s
    if sent.1 ≠ 0 then (-1, [], sent.2)
    else
      let r := receive (dumpHandler seq) (-1) sent.2.incoming ⟨0, []⟩
      (r.1, r.2.1.printed, { sent.2 with incoming := r.2.2 })

/-- `main` once it has the socket: its result, and what it printed. -/
def main (ifindex : Nat) (s : Socket) : Int × List Output × Socket :=
  let family := resolveFamily 1 s
  if family.1 < 0 then (1, [], family.2)
  else
    let ack := triggerScan family.1.toNat 2 ifindex family.2
    if ack.1 ≠ 0 then (1, [], ack.2)
    else
      let dump := dumpScan family.1.toNat 3 ifindex ack.2
      (dump.1, .triggered :: dump.2.1, dump.2.2)

end EspS31.WifiScan
