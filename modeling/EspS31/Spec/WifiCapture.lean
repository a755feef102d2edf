import EspS31.Native.WifiCapture

/-!
# The captures show the first frames and keys

Whatever pointers the driver hands over and whatever memory holds, the wrappers call the
driver's function once each with its own arguments, read frames in the HP SRAM alone and
keep the first 24 protected data frames since the last association and the first 16 keys
since the last start; each frame is counted in one way.

## Key results

- `ptrIsHpsram_iff`: the test of a range, also where it wraps around
- `sampleFrame_eq`: a frame by its kind
- `Follows.step`: one event
- `capture_follows`: a run
-/

namespace EspS31.WifiCapture

open ByteMem

/-! ## The HP SRAM -/

/-- An address in the HP SRAM. -/
def InHpsram (x : Addr) : Prop := 0x2f000000 ≤ x.toNat ∧ x.toNat < 0x2f800000

/-- All bytes of a range are in the HP SRAM. -/
def Inside (r : Addr × Nat) : Prop := ∀ i < r.2, InHpsram (off r.1 i)

section

variable {a : Addr} {n : Nat}

/-- The test says that the range is in the HP SRAM, also where its end wraps around. -/
theorem ptrIsHpsram_iff (hpos : 0 < n) (hn : n < 2 ^ 32) :
    ptrIsHpsram a n = true ↔ Inside (a, n) := by
  have hlt := a.isLt
  simp only [ptrIsHpsram, decide_eq_true_eq, BitVec.toNat_add, BitVec.toNat_ofNat, Inside,
    InHpsram, off_toNat]
  constructor
  · rintro ⟨hlow, hwrap, hhigh⟩ i hi
    omega
  · intro hall
    have hfirst := hall 0 hpos
    have hlast := hall (n - 1) (by omega)
    -- a range that wraps around would hold the address zero
    by_cases hend : a.toNat + n ≤ 2 ^ 32
    · omega
    · have hzero := hall (2 ^ 32 - a.toNat) (by omega)
      omega

/-- A part of a range inside the memory is inside it. -/
theorem Inside.sub {j k : Nat} (h : Inside (a, n)) (hjk : j + k ≤ n) : Inside (off a j, k) := by
  intro i hi
  rw [off_off]
  exact h (j + i) (Nat.lt_of_lt_of_le (Nat.add_lt_add_left hi j) hjk)

end

/-! ## A frame by its kind -/

/-- What becomes of a frame. -/
inductive Kind where
  | badEb
  | badDesc
  | badFrame
  | nondata
  | data (sample : TxDescSample)

/-- The frame of a buffer. -/
def frameOf (mem : Mem) (eb : Addr) : Addr :=
  if ptrIsHpsram (loadWord mem (off eb 4)) 8 then loadWord mem (off (loadWord mem (off eb 4)) 4)
  else 0

/-- A data frame with the protected bit. -/
def Protected (mem : Mem) (frame : Addr) : Prop :=
  mem frame &&& 0x0c = 0x08 ∧ mem (off frame 1) &&& 0x40 ≠ 0

instance (mem : Mem) (frame : Addr) : Decidable (Protected mem frame) :=
  inferInstanceAs (Decidable (_ ∧ _))

/-- What a descriptor is, by the tests in their order. -/
def kindOf (mem : Mem) (eb flags control tid : BitVec 32) : Kind :=
  if ¬ ptrIsHpsram eb 56 then .badEb
  else if ¬ ptrIsHpsram (loadWord mem (off eb 52)) S31_TX_DESC_BYTES then .badDesc
  else if ¬ ptrIsHpsram (frameOf mem eb) (8 + S31_TX_FRAME_BYTES) then .badFrame
  else if ¬ Protected mem (off (frameOf mem eb) 8) then .nondata
  else .data {
    eb := eb, frame := off (frameOf mem eb) 8, flags := flags, control := control
    length := loadHalf mem (off eb 22), tid := tid.setWidth 8
    desc := bytesAt mem (loadWord mem (off eb 52)) S31_TX_DESC_BYTES
    header := bytesAt mem (off (frameOf mem eb) 8) S31_TX_FRAME_BYTES }

/-- The counters after a frame of a kind. -/
def Capture.count (s : Capture) (kind : Kind) : Capture :=
  let s := { s with callCount := s.callCount + 1 }
  match kind with
  | .badEb => { s with badEbCount := s.badEbCount + 1 }
  | .badDesc => { s with badDescCount := s.badDescCount + 1 }
  | .badFrame => { s with badFrameCount := s.badFrameCount + 1 }
  | .nondata => { s with nondataCount := s.nondataCount + 1 }
  | .data sample =>
    if s.captureEnabled then { s with samples := s.samples.offer S31_TX_DESC_SAMPLES sample }
    else { s with nondataCount := s.nondataCount + 1 }

/-- A frame is taken for data when capture is on and it is protected. -/
private theorem isData_iff (mem : Mem) (frame : Addr) (enabled : Bool) :
    (isData mem frame enabled).1 = true ↔ enabled = true ∧ Protected mem frame := by
  cases enabled with
  | false => simp [isData]
  | true =>
    by_cases hdata : mem frame &&& 12#8 = 8#8
    · simp [isData, Protected, hdata]
    · simp [isData, Protected, hdata]

/-- The test reads the beginning of the frame. -/
private theorem isData_reads {mem : Mem} {frame : Addr} {enabled : Bool} (h : Inside (frame, 48)) :
    ∀ r ∈ (isData mem frame enabled).2, Inside r := by
  have hfirst : Inside (frame, 1) := by
    -- the two bytes that decide about a frame are its first ones
    have hsub := h.sub (j := 0) (k := 1) (by decide)
    rwa [off_zero] at hsub
  have hsecond : Inside (off frame 1, 1) := h.sub (by decide)
  rw [isData]
  split
  · simp
  · split
    · simpa using hfirst
    · simpa using ⟨hfirst, hsecond⟩

/-- What a frame does to the counters and the samples, and that it is read in the HP
    SRAM. -/
theorem sampleFrame_eq (mem : Mem) (eb flags control tid : BitVec 32) (s : Capture) :
    ∃ ranges, (∀ r ∈ ranges, Inside r) ∧
      sampleFrame mem eb flags control tid s =
        (s.count (kindOf mem eb flags control tid)).read ranges := by
  by_cases heb : ptrIsHpsram eb 56 = true
  · have hin : Inside (eb, 56) := (ptrIsHpsram_iff (by decide) (by decide)).mp heb
    have hpointers : Inside (off eb 52, 4) ∧ Inside (off eb 4, 4) :=
      ⟨hin.sub (by decide), hin.sub (by decide)⟩
    -- the second pointer is followed where it leads into the HP SRAM
    obtain ⟨followed, hfollowed, hs⟩ : ∃ followed, (∀ r ∈ followed, Inside r) ∧
        (if ptrIsHpsram (loadWord mem (off eb 4)) 8 then
          ({ s with callCount := s.callCount + 1 }.read [(off eb 52, 4), (off eb 4, 4)]).read
            [(off (loadWord mem (off eb 4)) 4, 4)]
        else { s with callCount := s.callCount + 1 }.read [(off eb 52, 4), (off eb 4, 4)]) =
          { s with callCount := s.callCount + 1 }.read followed := by
      by_cases hbuffer : ptrIsHpsram (loadWord mem (off eb 4)) 8 = true
      · have hbufferIn := (ptrIsHpsram_iff (by decide) (by decide)).mp hbuffer
        refine ⟨[(off eb 52, 4), (off eb 4, 4), (off (loadWord mem (off eb 4)) 4, 4)], ?_, ?_⟩
        · simpa using ⟨hpointers.1, hpointers.2, hbufferIn.sub (by decide)⟩
        · rw [if_pos hbuffer]
          simp [Capture.read]
      · refine ⟨[(off eb 52, 4), (off eb 4, 4)], ?_, ?_⟩
        · simpa using hpointers
        · rw [if_neg hbuffer]
    -- from here on the tests of the source one after the other, each with its kind
    unfold sampleFrame
    dsimp only
    rw [if_neg (not_not.mpr heb), hs, ← frameOf, kindOf, if_neg (not_not.mpr heb)]
    by_cases hdesc : ptrIsHpsram (loadWord mem (off eb 52)) S31_TX_DESC_BYTES = true
    · rw [if_neg (not_not.mpr hdesc), if_neg (not_not.mpr hdesc)]
      by_cases hframe : ptrIsHpsram (frameOf mem eb) (8 + S31_TX_FRAME_BYTES) = true
      · rw [if_neg (not_not.mpr hframe), if_neg (not_not.mpr hframe)]
        have hdescIn : Inside (loadWord mem (off eb 52), 72) :=
          (ptrIsHpsram_iff (by decide) (by decide)).mp hdesc
        have hframeIn : Inside (off (frameOf mem eb) 8, 48) :=
          ((ptrIsHpsram_iff (by decide) (by decide)).mp hframe).sub (Nat.le_refl _)
        -- what is read before a sample is taken
        have hlooked : ∀ r ∈ followed ++ (isData mem (off (frameOf mem eb) 8) s.captureEnabled).2,
            Inside r := by
          intro r hr
          obtain hr | hr := List.mem_append.mp hr
          · exact hfollowed r hr
          · exact isData_reads hframeIn r hr
        have henabled : ({ s with callCount := s.callCount + 1 }.read followed).captureEnabled =
            s.captureEnabled := rfl
        rw [henabled]
        have hdata := isData_iff mem (off (frameOf mem eb) 8) s.captureEnabled
        by_cases hprotected : Protected mem (off (frameOf mem eb) 8)
        · rw [if_neg (not_not.mpr hprotected)]
          by_cases hon : s.captureEnabled = true
          · rw [if_neg (not_not.mpr (hdata.mpr ⟨hon, hprotected⟩))]
            by_cases hroom : s.samples.count < S31_TX_DESC_SAMPLES
            · refine ⟨followed ++ (isData mem (off (frameOf mem eb) 8) s.captureEnabled).2 ++
                [(off eb 22, 2), (loadWord mem (off eb 52), S31_TX_DESC_BYTES),
                  (off (frameOf mem eb) 8, S31_TX_FRAME_BYTES)], ?_, ?_⟩
              · intro r hr
                obtain hr | hr := List.mem_append.mp hr
                · exact hlooked r hr
                · have hlength : Inside (off eb 22, 2) := hin.sub (by decide)
                  simp only [List.mem_cons, List.not_mem_nil, or_false] at hr
                  obtain rfl | rfl | rfl := hr
                  · exact hlength
                  · exact hdescIn
                  · exact hframeIn
              · simp [Capture.read, Capture.count, hon, hroom]
            · refine ⟨_, hlooked, ?_⟩
              -- the window is full and the frame is neither kept nor counted as anything else
              simp [Capture.read, Capture.count, hon, hroom, SampleWindow.offer]
          · rw [if_pos fun h => hon (hdata.mp h).1]
            refine ⟨_, hlooked, ?_⟩
            simp [Capture.read, Capture.count, hon]
        · rw [if_pos hprotected, if_pos fun h => hprotected (hdata.mp h).2]
          refine ⟨_, hlooked, ?_⟩
          simp [Capture.read, Capture.count]
      · rw [if_pos hframe, if_pos hframe]
        exact ⟨followed, hfollowed, rfl⟩
    · rw [if_pos hdesc, if_pos hdesc]
      exact ⟨followed, hfollowed, rfl⟩
  · refine ⟨[], by simp, ?_⟩
    simp [sampleFrame, kindOf, heb, Capture.count, Capture.read]

/-! ## What is to be captured -/

/-- The counters of what was left out. -/
inductive Counter where
  | badEb | badDesc | badFrame | nondata
deriving DecidableEq, Repr

/-- The value of a counter. -/
def Capture.counter (s : Capture) : Counter → UInt32
  | .badEb => s.badEbCount
  | .badDesc => s.badDescCount
  | .badFrame => s.badFrameCount
  | .nondata => s.nondataCount

/-- The counter for a frame; before the first association no frame is data. -/
def Kind.counter (connected : Bool) : Kind → Option Counter
  | .badEb => some .badEb
  | .badDesc => some .badDesc
  | .badFrame => some .badFrame
  | .nondata => some .nondata
  | .data _ => if connected then none else some .nondata

/-- The sample that is kept, once connected. -/
def Kind.sample (connected : Bool) : Kind → Option TxDescSample
  | .data sample => if connected then some sample else none
  | _ => none

/-- The frame of a call. -/
def Event.kind : Event → Option Kind
  | .setTxDesc _ eb tid flags control mem => some (kindOf mem eb flags control tid)
  | .txFrame eb queue mem => some (kindOf mem eb 0x4c4d4143 queue queue)
  | _ => none

/-- The key of a call, if what is said about it is in the HP SRAM. -/
def Event.key : Event → Option KeySample
  | .setKeyEntry keyIdx key keyLen keyInfo mem =>
    if ptrIsHpsram keyInfo S31_KEY_INFO_BYTES then
      some {
        slot := keyIdx, keyLen := keyLen, keyHash := fnv1a mem key keyLen.toNat
        keyInfo := bytesAt mem keyInfo S31_KEY_INFO_BYTES }
    else none
  | _ => none

/-- The call of the driver in a call of a wrapper. -/
def Event.real : Event → Option Real
  | .setTxDesc ic eb tid flags control _ => some (.ieee80211SetTxDesc ic eb tid flags control)
  | .txFrame eb queue _ => some (.lmacTxFrame eb queue)
  | .setKeyEntry keyIdx key keyLen keyInfo _ => some (.halCryptoSetKeyEntry keyIdx key keyLen keyInfo)
  | _ => none

/-- What has happened: whether there was an association and a start, the frames since
    the last association and the keys since the last start. -/
structure Seen where
  connected : Bool := false
  kinds : List Kind := []
  started : Bool := false
  keys : List KeySample := []

/-- What an event adds to the windows. -/
def see (v : Seen) : Event → Seen
  | .staStart => { v with started := true, keys := [] }
  | .staConnected => { v with connected := true, kinds := [] }
  | e => { v with
    kinds := v.kinds ++ e.kind.toList
    keys := v.keys ++ if v.started then e.key.toList else [] }

/-- What the windows show after the events. -/
def seen (events : List Event) : Seen := events.foldl see {}

/-- The variables say what has happened. -/
structure Follows (s : Capture) (v : Seen) : Prop where
  enabled : s.captureEnabled = v.connected
  samples : s.samples.Shows S31_TX_DESC_SAMPLES (v.kinds.filterMap (Kind.sample v.connected))
  calls : s.callCount = UInt32.ofNat v.kinds.length
  counters : ∀ c, s.counter c =
    UInt32.ofNat (v.kinds.countP fun k => k.counter v.connected = some c)
  keysEnabled : s.keyCaptureEnabled = v.started
  keys : s.keys.Shows S31_KEY_SAMPLES v.keys
  reads : ∀ r ∈ s.reads, Inside r

section

variable {s : Capture} {v : Seen}

/-- A call of the driver's function leaves the windows. -/
theorem Follows.call (h : Follows s v) (r : Real) : Follows (s.call r) v :=
  ⟨h.enabled, h.samples, h.calls, h.counters, h.keysEnabled, h.keys, h.reads⟩

/-- Reads inside the memory leave the windows. -/
theorem Follows.read (h : Follows s v) {ranges : List (Addr × Nat)}
    (hranges : ∀ r ∈ ranges, Inside r) : Follows (s.read ranges) v where
  enabled := h.enabled
  samples := h.samples
  calls := h.calls
  counters := h.counters
  keysEnabled := h.keysEnabled
  keys := h.keys
  reads r hr := (List.mem_append.mp hr).elim (h.reads r) (hranges r)

/-- Counting on, modulo `2 ^ 32`. -/
private theorem ofNat_succ (n : Nat) :
    UInt32.ofNat (n + 1) = UInt32.ofNat n + 1 := UInt32.ofNat_add n 1

/-- A frame of data while there is an association is counted as a call and offered. -/
private theorem count_data_of_enabled (h : s.captureEnabled = true) (sample : TxDescSample) :
    s.count (.data sample) = { s with
      callCount := s.callCount + 1
      samples := s.samples.offer S31_TX_DESC_SAMPLES sample } := if_pos h

/-- Before that it is no data. -/
private theorem count_data_of_not_enabled (h : s.captureEnabled = false) (sample : TxDescSample) :
    s.count (.data sample) = { s with
      callCount := s.callCount + 1
      nondataCount := s.nondataCount + 1 } := if_neg (by rw [h]; simp)

/-- A frame is counted in one way and shown if there is room. -/
theorem Follows.count (h : Follows s v) (kind : Kind) :
    Follows (s.count kind) { v with kinds := v.kinds ++ [kind] } := by
  have hcalls : s.callCount + 1 = UInt32.ofNat (v.kinds ++ [kind]).length := by
    rw [List.length_append, List.length_singleton, ofNat_succ, ← h.calls]
  have hsamples : ∀ {connected : Bool}, v.connected = connected → kind.sample connected = none →
      s.samples.Shows S31_TX_DESC_SAMPLES
        ((v.kinds ++ [kind]).filterMap (Kind.sample v.connected)) := by
    rintro _ rfl hnone
    rw [List.filterMap_append, List.filterMap_cons, hnone, List.filterMap_nil, List.append_nil]
    exact h.samples
  -- each counter goes up for its own kind and stays for the others
  have hcounters : ∀ c, UInt32.ofNat ((v.kinds ++ [kind]).countP fun k =>
      k.counter v.connected = some c) =
        s.counter c + if kind.counter v.connected = some c then 1 else 0 := by
    intro c
    rw [List.countP_append, h.counters c]
    by_cases hc : kind.counter v.connected = some c
    · simp [hc, ofNat_succ]
    · simp [hc]
  -- only a data frame of an open window is shown
  cases kind with
  | data sample =>
    by_cases hconnected : v.connected = true
    · rw [count_data_of_enabled (h.enabled.trans hconnected)]
      have hoffer := h.samples.offer sample
      refine ⟨h.enabled, ?_, hcalls, fun c => ?_, h.keysEnabled, h.keys, h.reads⟩
      · simpa [hconnected, Kind.sample] using hoffer
      · refine Eq.trans ?_ (hcounters c).symm
        cases c <;> simp [Kind.counter, hconnected, Capture.counter]
    -- outside of a window the frame is counted as a call alone
    · have hoff : v.connected = false := by simpa using hconnected
      rw [count_data_of_not_enabled (h.enabled.trans hoff)]
      refine ⟨h.enabled, hsamples hoff rfl, hcalls, fun c => ?_, h.keysEnabled, h.keys, h.reads⟩
      refine Eq.trans ?_ (hcounters c).symm
      cases c <;> simp [Kind.counter, hoff, Capture.counter]
  | _ =>
    refine ⟨h.enabled, hsamples rfl rfl, hcalls, fun c => ?_, h.keysEnabled, h.keys, h.reads⟩
    refine Eq.trans ?_ (hcounters c).symm
    cases c <;> simp [Kind.counter, Capture.counter, Capture.count]

/-- A frame of a wrapper. -/
theorem Follows.sampleFrame (h : Follows s v) (mem : Mem) (eb flags control tid : BitVec 32) :
    Follows (WifiCapture.sampleFrame mem eb flags control tid s)
      { v with kinds := v.kinds ++ [kindOf mem eb flags control tid] } := by
  obtain ⟨ranges, hranges, heq⟩ := sampleFrame_eq mem eb flags control tid s
  rw [heq]
  exact (h.count _).read hranges

/-- A key is shown if what is said about it is in the HP SRAM and there is room. -/
theorem Follows.setKeyEntry (h : Follows s v) (keyIdx key keyLen keyInfo : BitVec 32) (mem : Mem) :
    Follows (wrapHalCryptoSetKeyEntry keyIdx key keyLen keyInfo mem s)
      (see v (.setKeyEntry keyIdx key keyLen keyInfo mem)) := by
  have hv : see v (.setKeyEntry keyIdx key keyLen keyInfo mem) = { v with
      keys := v.keys ++ if v.started then
        (Event.key (.setKeyEntry keyIdx key keyLen keyInfo mem)).toList else [] } := by
    simp [see, Event.kind]
  rw [hv]
  unfold wrapHalCryptoSetKeyEntry
  dsimp only
  -- a key is shown after a start and with a good pointer, while there is room
  by_cases hon : v.started = true ∧ ptrIsHpsram keyInfo S31_KEY_INFO_BYTES = true
  · have hkeysOn : s.keyCaptureEnabled = true := h.keysEnabled.trans hon.1
    have hin : Inside (keyInfo, S31_KEY_INFO_BYTES) :=
      (ptrIsHpsram_iff (by decide) (by decide)).mp hon.2
    have hkey : (if v.started then
        (Event.key (.setKeyEntry keyIdx key keyLen keyInfo mem)).toList else []) =
        [{ slot := keyIdx, keyLen := keyLen, keyHash := fnv1a mem key keyLen.toNat
           keyInfo := bytesAt mem keyInfo S31_KEY_INFO_BYTES }] := by
      rw [if_pos hon.1, Event.key, if_pos hon.2]
      rfl
    have hoffer := h.keys.offer { slot := keyIdx, keyLen := keyLen,
                                  keyHash := fnv1a mem key keyLen.toNat,
                                  keyInfo := bytesAt mem keyInfo S31_KEY_INFO_BYTES }
    rw [hkey]
    by_cases hroom : s.keys.count < S31_KEY_SAMPLES
    · rw [if_neg]
      · refine Follows.read ?_ (by simpa using hin)
        exact ⟨h.enabled, h.samples, h.calls, h.counters, h.keysEnabled, hoffer, h.reads⟩
      · show ¬ (¬ s.keyCaptureEnabled = true ∨ ¬ ptrIsHpsram keyInfo S31_KEY_INFO_BYTES = true ∨
          s.keys.count ≥ S31_KEY_SAMPLES)
        simp [hkeysOn, hon.2, hroom]
    · rw [if_pos]
      -- a full window shows the same first keys as before
      · rw [SampleWindow.offer, if_neg hroom] at hoffer
        exact ⟨h.enabled, h.samples, h.calls, h.counters, h.keysEnabled, hoffer, h.reads⟩
      · exact .inr (.inr (Nat.not_lt.mp hroom))
  · -- nothing is to be shown
    have hkey : (if v.started then
        (Event.key (.setKeyEntry keyIdx key keyLen keyInfo mem)).toList else []) = [] := by
      by_cases hstarted : v.started = true
      · rw [if_pos hstarted, Event.key, if_neg fun hin => hon ⟨hstarted, hin⟩]
        rfl
      · rw [if_neg hstarted]
    rw [hkey, List.append_nil, if_pos]
    · exact h.call _
    · show ¬ s.keyCaptureEnabled = true ∨ ¬ ptrIsHpsram keyInfo S31_KEY_INFO_BYTES = true ∨
        s.keys.count ≥ S31_KEY_SAMPLES
      rw [h.keysEnabled]
      by_cases hstarted : v.started = true
      · exact .inr (.inl fun hin => hon ⟨hstarted, hin⟩)
      · exact .inl hstarted

/-- One event. -/
theorem Follows.step (h : Follows s v) (e : Event) : Follows (WifiCapture.step s e) (see v e) := by
  cases e with
  -- a start opens the window of keys, a connect that of frames
  | staStart => exact ⟨h.enabled, h.samples, h.calls, h.counters, rfl, h.keys.restart, h.reads⟩
  | staConnected =>
    refine ⟨rfl, h.samples.restart, rfl, fun c => ?_, h.keysEnabled, h.keys, h.reads⟩
    cases c <;> rfl
  | setTxDesc ic eb tid flags control mem =>
    have hv : see v (.setTxDesc ic eb tid flags control mem) =
        { v with kinds := v.kinds ++ [kindOf mem eb flags control tid] } := by
      simp [see, Event.kind, Event.key]
    rw [hv]
    exact (h.call _).sampleFrame mem eb flags control tid
  | txFrame eb queue mem =>
    have hv : see v (.txFrame eb queue mem) =
        { v with kinds := v.kinds ++ [kindOf mem eb 0x4c4d4143 queue queue] } := by
      simp [see, Event.kind, Event.key]
    rw [hv]
    exact (h.sampleFrame mem eb 0x4c4d4143 queue queue).call _
  | setKeyEntry keyIdx key keyLen keyInfo mem => exact h.setKeyEntry keyIdx key keyLen keyInfo mem

end

/-! ## Runs -/

/-- Sampling calls none of the driver's functions. -/
private theorem real_sampleFrame (mem : Mem) (eb flags control tid : BitVec 32) (s : Capture) :
    (sampleFrame mem eb flags control tid s).real = s.real := by
  obtain ⟨ranges, -, heq⟩ := sampleFrame_eq mem eb flags control tid s
  rw [heq]
  show (s.count _).real = s.real
  cases kindOf mem eb flags control tid with
  | data sample =>
    unfold Capture.count
    dsimp only
    split <;> rfl
  | _ => rfl

/-- Every event calls its own function of the driver, once. -/
private theorem real_step (s : Capture) (e : Event) :
    (step s e).real = s.real ++ e.real.toList := by
  cases e with
  | staStart => exact (List.append_nil _).symm
  | staConnected => exact (List.append_nil _).symm
  | setTxDesc ic eb tid flags control mem => exact real_sampleFrame ..
  | txFrame eb queue mem => exact congrArg (· ++ _) (real_sampleFrame ..)
  | setKeyEntry keyIdx key keyLen keyInfo mem =>
    rw [step, wrapHalCryptoSetKeyEntry]
    split <;> rfl

/-- Each frame is counted once or is data. -/
private theorem length_kinds (connected : Bool) (kinds : List Kind) :
    kinds.length =
      (kinds.countP fun k => k.counter connected = some .badEb) +
        (kinds.countP fun k => k.counter connected = some .badDesc) +
        (kinds.countP fun k => k.counter connected = some .badFrame) +
        (kinds.countP fun k => k.counter connected = some .nondata) +
        (kinds.filterMap (Kind.sample connected)).length := by
  -- every kind is counted by one counter or shown
  have hone : ∀ kind : Kind, 1 =
      (if kind.counter connected = some .badEb then 1 else 0) +
        (if kind.counter connected = some .badDesc then 1 else 0) +
        (if kind.counter connected = some .badFrame then 1 else 0) +
        (if kind.counter connected = some .nondata then 1 else 0) +
        (kind.sample connected).toList.length := by
    intro kind
    cases kind <;> cases connected <;> rfl
  have hcount : ∀ (c : Counter) (kind : Kind) (kinds : List Kind),
      ((kind :: kinds).countP fun k => k.counter connected = some c) =
        (kinds.countP fun k => k.counter connected = some c) +
          if kind.counter connected = some c then 1 else 0 := by
    intro c kind kinds
    rw [List.countP_cons]
    simp only [decide_eq_true_eq]
  have hshown : ∀ (kind : Kind) (kinds : List Kind),
      ((kind :: kinds).filterMap (Kind.sample connected)).length =
        (kind.sample connected).toList.length +
          (kinds.filterMap (Kind.sample connected)).length := by
    intro kind kinds
    rw [List.filterMap_cons]
    cases kind.sample connected with
    | none => exact (Nat.zero_add _).symm
    | some sample => exact Nat.add_comm _ 1
  -- the sum over the frames seen
  induction kinds with
  | nil => rfl
  | cons kind kinds ih =>
    have hkind := hone kind
    rw [List.length_cons, hcount, hcount, hcount, hcount, hshown]
    omega

/-- Over any run of driver calls and events: the driver's functions are called once for
    each call of a wrapper with its arguments, all that is read of frames is in the HP
    SRAM, the windows show the first 24 protected data frames since the last
    association and the first 16 keys since the last start, and the calls since the
    last association are the sum of those with a bad buffer, a bad descriptor, a bad
    frame, without data and with data. -/
theorem capture_follows (events : List Event) :
    Follows (run events) (seen events) ∧ (run events).real = events.filterMap Event.real ∧
      (run events).callCount = (run events).badEbCount + (run events).badDescCount +
        (run events).badFrameCount + (run events).nondataCount + UInt32.ofNat
          ((seen events).kinds.filterMap (Kind.sample (seen events).connected)).length := by
  have hfollows : Follows (run events) (seen events) := by
    induction events using List.reverseRecOn with
    | nil =>
      -- the zeroed arrays show nothing
      have hempty : ∀ {α : Type} (capacity : Nat) (x : Nat → α),
          SampleWindow.Shows capacity ⟨⟨x, []⟩, 0⟩ [] := fun _ _ =>
        ⟨by simp [TracedBuffer.read], fun _ hi => absurd hi List.not_mem_nil⟩
      exact ⟨rfl, hempty _ _, rfl, fun c => by cases c <;> rfl, rfl, hempty _ _,
        fun _ hr => absurd hr List.not_mem_nil⟩
    | append_singleton events e ih =>
      rw [run, seen, List.foldl_append, List.foldl_append]
      exact ih.step e
  refine ⟨hfollows, ?_, ?_⟩
  · clear hfollows
    induction events using List.reverseRecOn with
    | nil => rfl
    | append_singleton events e ih =>
      have hrun : run (events ++ [e]) = step (run events) e := by
        rw [run, List.foldl_append]
        rfl
      rw [hrun, real_step, ih, List.filterMap_append, List.filterMap_cons]
      cases e.real with
      | none => rfl
      | some r => rfl
  · have hcounter := hfollows.counters
    -- the counters wrap around, so the sum is one of 32-bit numbers
    have hlength := congrArg UInt32.ofNat (length_kinds (seen events).connected (seen events).kinds)
    rw [UInt32.ofNat_add, UInt32.ofNat_add, UInt32.ofNat_add, UInt32.ofNat_add,
      ← hfollows.calls, ← hcounter .badEb, ← hcounter .badDesc, ← hcounter .badFrame,
      ← hcounter .nondata] at hlength
    exact hlength

end EspS31.WifiCapture
