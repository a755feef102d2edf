import EspS31.ForStd.ByteMem
import EspS31.ForStd.SampleWindow

/-!
# What is captured of the Wi-Fi driver

`radio_stack.c`: the functions that wrap `ieee80211_set_tx_desc`, `lmacTxFrame` and
`hal_crypto_set_key_entry` of the closed driver and keep samples of frames and keys.
The driver hands over pointers that may point anywhere; a call has the memory as it is
when the wrapper looks at it.
-/

namespace EspS31.WifiCapture

open ByteMem

/-- The descriptors that are kept after a start. -/
def S31_TX_DESC_SAMPLES : Nat := 24
/-- The bytes of a descriptor that are kept. -/
def S31_TX_DESC_BYTES : Nat := 72
/-- The bytes of a frame that are kept. -/
def S31_TX_FRAME_BYTES : Nat := 48
/-- The keys that are kept after a start. -/
def S31_KEY_SAMPLES : Nat := 16
/-- The bytes of a key's information that are kept. -/
def S31_KEY_INFO_BYTES : Nat := 12

/-- `struct s31_tx_desc_sample` -/
structure TxDescSample where
  eb : BitVec 32
  frame : BitVec 32
  flags : BitVec 32
  control : BitVec 32
  length : BitVec 16
  tid : BitVec 8
  desc : List Byte
  header : List Byte
deriving DecidableEq, Repr

/-- `struct s31_key_sample` -/
structure KeySample where
  slot : BitVec 32
  keyLen : BitVec 32
  keyHash : BitVec 32
  keyInfo : List Byte
deriving DecidableEq, Repr

/-- The calls of the driver's own functions. -/
inductive Real where
  | ieee80211SetTxDesc (ic eb tid flags control : BitVec 32)
  | lmacTxFrame (eb queue : BitVec 32)
  | halCryptoSetKeyEntry (keyIdx key keyLen keyInfo : BitVec 32)
deriving DecidableEq, Repr

/-- The static variables, the calls of the driver, and what was read: ranges by address
    and length.  A key is read where the driver has just used it and is not listed. -/
structure Capture where
  samples : SampleWindow TxDescSample
  callCount : UInt32 := 0
  badEbCount : UInt32 := 0
  badDescCount : UInt32 := 0
  badFrameCount : UInt32 := 0
  nondataCount : UInt32 := 0
  captureEnabled : Bool := false
  keys : SampleWindow KeySample
  keyCaptureEnabled : Bool := false
  real : List Real := []
  reads : List (Addr × Nat) := []

/-- A call of the driver's own function. -/
def Capture.call (s : Capture) (r : Real) : Capture := { s with real := s.real ++ [r] }

/-- The ranges that were read. -/
def Capture.read (s : Capture) (ranges : List (Addr × Nat)) : Capture :=
  { s with reads := s.reads ++ ranges }

/-- `s31_radio_ptr_is_hpsram` -/
def ptrIsHpsram (start : Addr) (length : Nat) : Bool :=
  let finish := start + BitVec.ofNat 32 length
  decide (0x2f000000 ≤ start.toNat ∧ start.toNat ≤ finish.toNat ∧ finish.toNat ≤ 0x2f800000)

/-- `s31_fnv1a` -/
def fnv1a (mem : Mem) (data : Addr) (len : Nat) : BitVec 32 :=
  (List.range len).foldl
    (fun hash i => (hash ^^^ (mem (off data i)).setWidth 32) * 16777619#32) 2166136261#32

/-- A loop that copies `n` bytes. -/
def bytesAt (mem : Mem) (a : Addr) (n : Nat) : List Byte :=
  (List.range n).map fun i => mem (off a i)

/-- `*(uint16_t *)` -/
def loadHalf (mem : Mem) (a : Addr) : BitVec 16 := mem (off a 1) ++ mem a

/-- The tests of a frame and what they read. -/
def isData (mem : Mem) (frame : Addr) (enabled : Bool) : Bool × List (Addr × Nat) :=
  if ¬ enabled then (false, [])
  else if mem frame &&& 0x0c ≠ 0x08 then (false, [(frame, 1)])
  else (decide (mem (off frame 1) &&& 0x40 ≠ 0), [(frame, 1), (off frame 1, 1)])

/-- What both wrappers do with a frame. -/
def sampleFrame (mem : Mem) (eb flags control tid : BitVec 32) (s : Capture) : Capture :=
  let s := { s with callCount := s.callCount + 1 }
  if ¬ ptrIsHpsram eb 56 then { s with badEbCount := s.badEbCount + 1 }
  else
    let desc := loadWord mem (off eb 52)
    let buffer := loadWord mem (off eb 4)
    let s := s.read [(off eb 52, 4), (off eb 4, 4)]
    -- `frame` stays NULL for a bad buffer, and the test of the frame rejects it
    let frame := if ptrIsHpsram buffer 8 then loadWord mem (off buffer 4) else 0
    let s := if ptrIsHpsram buffer 8 then s.read [(off buffer 4, 4)] else s
    if ¬ ptrIsHpsram desc S31_TX_DESC_BYTES then { s with badDescCount := s.badDescCount + 1 }
    -- the test covers the 8 bytes in front of the header and the whole sample
    else if ¬ ptrIsHpsram frame (8 + S31_TX_FRAME_BYTES) then
      { s with badFrameCount := s.badFrameCount + 1 }
    else
      let frame := off frame 8
      let data := isData mem frame s.captureEnabled
      let s := s.read data.2
      if ¬ data.1 then { s with nondataCount := s.nondataCount + 1 }
      else if s.samples.count < S31_TX_DESC_SAMPLES then
        { s with
          samples := s.samples.offer S31_TX_DESC_SAMPLES {
            eb := eb, frame := frame, flags := flags, control := control
            length := loadHalf mem (off eb 22), tid := tid.setWidth 8
            desc := bytesAt mem desc S31_TX_DESC_BYTES
            header := bytesAt mem frame S31_TX_FRAME_BYTES } }.read
          [(off eb 22, 2), (desc, S31_TX_DESC_BYTES), (frame, S31_TX_FRAME_BYTES)]
      else s

/-- `__wrap_ieee80211_set_tx_desc`; `mem` is what the driver's function leaves. -/
def wrapIeee80211SetTxDesc (ic eb tid flags control : BitVec 32) (mem : Mem) (s : Capture) :
    Capture :=
  sampleFrame mem eb flags control tid (s.call (.ieee80211SetTxDesc ic eb tid flags control))

/-- `__wrap_lmacTxFrame` -/
def wrapLmacTxFrame (eb queue : BitVec 32) (mem : Mem) (s : Capture) : Capture :=
  (sampleFrame mem eb 0x4c4d4143 queue queue s).call (.lmacTxFrame eb queue)

/-- `__wrap_hal_crypto_set_key_entry`; `mem` is what the driver's function leaves. -/
def wrapHalCryptoSetKeyEntry (keyIdx key keyLen keyInfo : BitVec 32) (mem : Mem) (s : Capture) :
    Capture :=
  let s := s.call (.halCryptoSetKeyEntry keyIdx key keyLen keyInfo)
  if ¬ s.keyCaptureEnabled ∨ ¬ ptrIsHpsram keyInfo S31_KEY_INFO_BYTES ∨
      s.keys.count ≥ S31_KEY_SAMPLES then s
  else
    { s with
      keys := s.keys.offer S31_KEY_SAMPLES {
        slot := keyIdx, keyLen := keyLen, keyHash := fnv1a mem key keyLen.toNat
        keyInfo := bytesAt mem keyInfo S31_KEY_INFO_BYTES } }.read [(keyInfo, S31_KEY_INFO_BYTES)]

/-- What `s31_wifi_event` does to the key samples at `STA_START`. -/
def staStart (s : Capture) : Capture :=
  { s with keys := s.keys.restart, keyCaptureEnabled := true }

/-- What it does to the frame samples at `STA_CONNECTED`. -/
def staConnected (s : Capture) : Capture :=
  { s with
    samples := s.samples.restart, callCount := 0, badEbCount := 0, badDescCount := 0
    badFrameCount := 0, nondataCount := 0, captureEnabled := true }

/-- The calls of the wrapped functions, with the memory at that time, and the events that restart.
    -/
inductive Event where
  | staStart
  | staConnected
  | setTxDesc (ic eb tid flags control : BitVec 32) (mem : Mem)
  | txFrame (eb queue : BitVec 32) (mem : Mem)
  | setKeyEntry (keyIdx key keyLen keyInfo : BitVec 32) (mem : Mem)

/-- The function that an event calls. -/
def step (s : Capture) : Event → Capture
  | .staStart => staStart s
  | .staConnected => staConnected s
  | .setTxDesc ic eb tid flags control mem => wrapIeee80211SetTxDesc ic eb tid flags control mem s
  | .txFrame eb queue mem => wrapLmacTxFrame eb queue mem s
  | .setKeyEntry keyIdx key keyLen keyInfo mem =>
    wrapHalCryptoSetKeyEntry keyIdx key keyLen keyInfo mem s

/-- The zeroed variables. -/
def start : Capture where
  samples := ⟨⟨fun _ => ⟨0, 0, 0, 0, 0, 0, [], []⟩, []⟩, 0⟩
  keys := ⟨⟨fun _ => ⟨0, 0, 0, []⟩, []⟩, 0⟩

/-- The state after the events. -/
def run (events : List Event) : Capture := events.foldl step start

end EspS31.WifiCapture
