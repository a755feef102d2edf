import EspS31.Native.WifiSha1

/-!
# Streaming SHA-1 is SHA-1

The context has absorbed the full blocks of the bytes it was given, and the rest
waits in the block.  The padding goes the same way, and completes the last block.

## Key results

- `sha1Transform_state`: one block is one step of the hash computation
- `sha1Update_fed`: how a chunk is taken
- `sha1_streaming`: the digest does not depend on the chunks
-/

namespace EspS31.WifiConnect

open Sha1 BlockStream

/-! ## One block -/

/-- `rol` turns the word left. -/
private theorem rol_eq (value : Word) {bits : Nat} (h : bits < 32) :
    rol value bits = value.rotateLeft bits := by
  rw [rol, BitVec.rotateLeft_def, Nat.mod_eq_of_lt h]

/-- Four bytes put together with shifts. -/
private theorem shifted_bytes_eq (b₀ b₁ b₂ b₃ : Byte) :
    b₀.setWidth 32 <<< 24 ||| b₁.setWidth 32 <<< 16 ||| b₂.setWidth 32 <<< 8 ||| b₃.setWidth 32 =
      b₀ ++ b₁ ++ b₂ ++ b₃ := by
  apply BitVec.eq_of_getLsbD_eq
  intro i hi
  simp only [BitVec.getLsbD_or, BitVec.getLsbD_shiftLeft, BitVec.getLsbD_setWidth,
    BitVec.getLsbD_append, hi, decide_true, Bool.true_and]
  -- which byte bit `i` lies in
  by_cases h8 : i < 8
  · simp [h8, show i < 16 by omega, show i < 24 by omega]
  · have hb₃ : b₃.getLsbD i = false := BitVec.getLsbD_of_ge _ _ (by omega)
    by_cases h16 : i < 16
    · simp [h8, h16, show i < 24 by omega, show i - 8 < 8 by omega, hb₃, show i - 8 < 32 by omega]
    · have hb₂ : b₂.getLsbD (i - 8) = false := BitVec.getLsbD_of_ge _ _ (by omega)
      by_cases h24 : i < 24
      · simp [h8, h16, h24, show ¬ i - 8 < 8 by omega, show i - 8 - 8 < 8 by omega, hb₃, hb₂,
          show i - 16 = i - 8 - 8 by omega, show i - 8 - 8 < 32 by omega]
      · have hb₁ : b₁.getLsbD (i - 16) = false := BitVec.getLsbD_of_ge _ _ (by omega)
        simp [h8, h16, h24, show ¬ i - 8 < 8 by omega, show ¬ i - 8 - 8 < 8 by omega, hb₃, hb₂, hb₁,
          show i - 24 = i - 8 - 8 - 8 by omega, show i - 8 - 8 - 8 < 32 by omega]

/-- The source's choice is that of the standard. -/
private theorem choose_eq (x y z : Word) : (x &&& y) ||| (~~~ x &&& z) = Ch x y z := by
  apply BitVec.eq_of_getLsbD_eq
  intro i hi
  simp only [Ch, BitVec.getLsbD_or, BitVec.getLsbD_xor, BitVec.getLsbD_and, BitVec.getLsbD_not, hi,
    decide_true, Bool.true_and]
  cases x.getLsbD i <;> simp

/-- The source's majority is that of the standard. -/
private theorem majority_eq (x y z : Word) : (x &&& y) ||| (x &&& z) ||| (y &&& z) = Maj x y z := by
  apply BitVec.eq_of_getLsbD_eq
  intro i hi
  simp only [Maj, BitVec.getLsbD_or, BitVec.getLsbD_xor, BitVec.getLsbD_and]
  cases x.getLsbD i <;> cases y.getLsbD i <;> simp

/-- The function and the constant of a round. -/
private theorem roundFunction_eq (x : Words) (i : Nat) :
    roundFunction x i = (f i x.b x.c x.d, K i) := by
  unfold roundFunction f K
  split
  · rw [choose_eq]
  · split
    · rfl
    · split
      · rw [majority_eq]
      · rfl

/-- A loop that fills an array. -/
private theorem foldl_put_get {α : Type} (v : Nat → α) (w : TracedBuffer α) (n : Nat) {t : Nat}
    (ht : t < n) :
    ((List.range n).foldl (fun w i => w.put i (v i)) w).get t = v t := by
  induction n with
  | zero => exact absurd ht (by omega)
  | succ n ih =>
    rw [List.range_succ, List.foldl_append, List.foldl_cons, List.foldl_nil, TracedBuffer.put]
    dsimp only
    by_cases h : t = n
    · rw [h, Function.update_self]
    · rw [Function.update_of_ne h, ih (by omega)]

section

variable (block : TracedBuffer Byte)

/-- A byte of the block. -/
private theorem getD_read {i : Nat} (hi : i < 64) : (block.read 64).getD i 0 = block.get i := by
  rw [TracedBuffer.read, List.getD_eq_getElem?_getD, List.getElem?_map,
    List.getElem?_range hi]
  rfl

/-- The first loop loads the words of the block. -/
private theorem loadWords_eq {t : Nat} (ht : t < 16) :
    (loadWords block.get).get t = W (block.read 64) t := by
  rw [loadWords, foldl_put_get _ _ 16 ht, shifted_bytes_eq, W_of_lt _ ht, blockWord,
    Nat.mul_comm t 4, getD_read block (by omega), getD_read block (by omega),
    getD_read block (by omega), getD_read block (by omega)]

/-- The second loop computes the message schedule. -/
private theorem foldl_expandWords (n : Nat) {t : Nat} (ht : t < 16 + n) :
    ((List.range' 16 n).foldl (fun w i => w.put i (rol (w.get (i - 3) ^^^ w.get (i - 8) ^^^
      w.get (i - 14) ^^^ w.get (i - 16)) 1)) (loadWords block.get)).get t = W (block.read 64) t := by
  induction n generalizing t with
  | zero => rw [List.range'_zero, List.foldl_nil, loadWords_eq block ht]
  | succ n ih =>
    rw [List.range'_concat, Nat.one_mul, List.foldl_append, List.foldl_cons, List.foldl_nil,
      TracedBuffer.put]
    dsimp only
    by_cases h : t = 16 + n
    · -- the four words that are read are there already
      have hword := W_of_ge (block.read 64) (show 16 ≤ 16 + n by omega)
      rw [h, Function.update_self, ih (by omega), ih (by omega), ih (by omega), ih (by omega),
        rol_eq _ (by decide), hword]
    · rw [Function.update_of_ne h, ih (by omega)]

/-- The source's round is that of the standard. -/
private theorem sha1Round_eq {w : TracedBuffer Word} {bytes : List Byte} {i : Nat}
    (hw : w.get i = W bytes i)
    (x : Words) : sha1Round w x i = Sha1.round bytes x i := by
  rw [sha1Round, roundFunction_eq, rol_eq _ (by decide), rol_eq _ (by decide), hw, Sha1.round]

/-- The transformation of a block is one step of the hash computation. -/
theorem sha1Transform_state (ctx : Sha1Ctx) :
    (sha1Transform ctx block.get).state = compress ctx.state (block.read 64) := by
  have hrounds : (List.range 80).foldl (sha1Round (expandWords (loadWords block.get))) ctx.state =
      (List.range 80).foldl (Sha1.round (block.read 64)) ctx.state := by
    apply List.foldl_ext
    intro x i hi
    exact sha1Round_eq (foldl_expandWords block 64 (List.mem_range.mp hi)) x
  simp only [sha1Transform, compress, Words.add, hrounds, BitVec.add_comm]

/-- Taking a block in leaves the count. -/
private theorem sha1Transform_bytes (ctx : Sha1Ctx) (get : Nat → Byte) :
    (sha1Transform ctx get).bytes = ctx.bytes := by
  unfold sha1Transform
  rfl

end

/-- Filling the buffer leaves the count. -/
private theorem fillBlock_bytes (ctx : Sha1Ctx) (used : Nat) (xs : List Byte) :
    (fillBlock ctx used xs).bytes = ctx.bytes := rfl

/-- Filling the buffer leaves the state. -/
private theorem fillBlock_state (ctx : Sha1Ctx) (used : Nat) (xs : List Byte) :
    (fillBlock ctx used xs).state = ctx.state := rfl

/-! ## The stream -/

/-- The context has taken a message: its full blocks are absorbed and the rest waits
    in the block. -/
structure Fed (ctx : Sha1Ctx) (message : List Byte) : Prop where
  state : ctx.state = absorb compress 64 H0 message
  waiting : ctx.block.read (message.length % 64) = tail 64 message

section

variable {ctx : Sha1Ctx} {message : List Byte}

/-- One round of the loop of `sha1_update` that does not fill the block. -/
theorem Fed.short {xs : List Byte} (h : Fed ctx message) (hlt : message.length % 64 + xs.length < 64) :
    Fed (fillBlock ctx (message.length % 64) xs) (message ++ xs) := by
  have hlen := length_tail 64 message
  obtain ⟨habsorb, htail⟩ := absorb_append_short compress H0 (show (tail 64 message).length + xs.length < 64 by omega)
  have hmod : (message ++ xs).length % 64 = message.length % 64 + xs.length := by
    rw [List.length_append]
    omega
  refine ⟨h.state.trans habsorb.symm, ?_⟩
  rw [hmod, fillBlock, TracedBuffer.read_puts, h.waiting, htail]

/-- One that fills it. -/
theorem Fed.full {xs : List Byte} (h : Fed ctx message) (hfull : message.length % 64 + xs.length = 64) :
    Fed (sha1Transform (fillBlock ctx (message.length % 64) xs)
      (fillBlock ctx (message.length % 64) xs).block.get) (message ++ xs) := by
  have hlen := length_tail 64 message
  obtain ⟨habsorb, htail⟩ := absorb_append_full compress H0 (show 0 < 64 by decide)
    (show (tail 64 message).length + xs.length = 64 by omega)
  have hmod : (message ++ xs).length % 64 = 0 := by
    rw [List.length_append]
    omega
  -- the block now holds what was waiting and the new bytes
  have hread : (fillBlock ctx (message.length % 64) xs).block.read 64 = tail 64 message ++ xs := by
    have hputs := TracedBuffer.read_puts ctx.block (message.length % 64) xs
    rwa [hfull, h.waiting] at hputs
  refine ⟨?_, ?_⟩
  · rw [sha1Transform_state, hread, habsorb, fillBlock_state, h.state]
  · rw [hmod, htail]
    rfl

/-- The loop takes its input in behind what it had. -/
private theorem updateLoop_fed {used : Fin 64} (input : List Byte) (h : Fed ctx message)
    (hused : used.val = message.length % 64) :
    Fed (updateLoop ctx used input) (message ++ input) ∧
      (updateLoop ctx used input).bytes = ctx.bytes := by
  fun_induction updateLoop ctx used input generalizing message with
  | case1 ctx used =>
    rw [List.append_nil]
    exact ⟨h, rfl⟩
  | case2 ctx used input hne hfull ih =>
    -- the block is full and goes through the transform
    have hmod : (message ++ input.take (64 - used)).length % 64 = 0 := by
      rw [List.length_append]
      omega
    have hfed := h.full (hused ▸ hfull)
    rw [← hused] at hfed
    obtain ⟨hrest, hcount⟩ := ih hfed hmod.symm
    rw [List.append_assoc, List.take_append_drop] at hrest
    rw [sha1Transform_bytes, fillBlock_bytes] at hcount
    exact ⟨hrest, hcount⟩
  | case3 ctx used input hne hshort ih =>
    -- the input ends before the block is full
    have hle := List.length_take_le (64 - used) input
    have hlt : message.length % 64 + (input.take (64 - used)).length < 64 := by omega
    have hmod : used + (input.take (64 - used)).length =
        (message ++ input.take (64 - used)).length % 64 := by
      rw [List.length_append]
      omega
    have hfed := h.short hlt
    rw [← hused] at hfed
    obtain ⟨hrest, hcount⟩ := ih hfed hmod
    rw [List.append_assoc, List.take_append_drop] at hrest
    rw [fillBlock_bytes] at hcount
    exact ⟨hrest, hcount⟩

/-- A chunk of the message. -/
theorem sha1Update_fed (data : List Byte) (h : Fed ctx message)
    (hbytes : ctx.bytes = message.length % 2 ^ 64) :
    Fed (sha1Update ctx data) (message ++ data) ∧
      (sha1Update ctx data).bytes = (message ++ data).length % 2 ^ 64 := by
  have hfed : Fed { ctx with bytes := (ctx.bytes + data.length) % 2 ^ 64 } message :=
    ⟨h.state, h.waiting⟩
  obtain ⟨hafter, hcount⟩ := updateLoop_fed data hfed
    (show (⟨ctx.bytes % 64, Nat.mod_lt _ (by decide)⟩ : Fin 64).val = message.length % 64 by
      show ctx.bytes % 64 = message.length % 64
      omega)
  refine ⟨hafter, hcount.trans ?_⟩
  rw [List.length_append]
  show (ctx.bytes + data.length) % 2 ^ 64 = _
  omega

/-- At the start nothing is taken in. -/
theorem sha1Init_fed (ctx : Sha1Ctx) : Fed (sha1Init ctx) [] := ⟨rfl, rfl⟩

/-- The chunks one after the other. -/
theorem foldl_sha1Update_fed (chunks : List (List Byte)) (h : Fed ctx message)
    (hbytes : ctx.bytes = message.length % 2 ^ 64) :
    Fed (chunks.foldl sha1Update ctx) (message ++ chunks.flatten) ∧
      (chunks.foldl sha1Update ctx).bytes = (message ++ chunks.flatten).length % 2 ^ 64 := by
  induction chunks generalizing ctx message with
  | nil =>
    rw [List.flatten_nil, List.append_nil]
    exact ⟨h, hbytes⟩
  | cons chunk chunks ih =>
    obtain ⟨hfed, hcount⟩ := sha1Update_fed chunk h hbytes
    rw [List.flatten_cons, ← List.append_assoc]
    exact ih hfed hcount

/-! ## The padding -/

/-- The padding fits its buffer. -/
private theorem padLength_le (ctx : Sha1Ctx) : padLength ctx + 8 ≤ 72 := by
  rw [padLength]
  split <;> omega

/-- The pad before the length is written. -/
def emptyPad : TracedBuffer Byte := ⟨fun i => if i = 0 then 0x80 else 0, []⟩

/-- The loop of `sha1_final` over the pad. -/
private theorem padBuffer_eq (ctx : Sha1Ctx) :
    padBuffer ctx = emptyPad.puts (padLength ctx) (bigEndian 8 (ctx.bytes * 8 % 2 ^ 64)) := by
  rw [padBuffer, TracedBuffer.foldl_put]
  refine congrArg (emptyPad.puts (padLength ctx)) (List.map_congr_left fun i hi => ?_)
  have hi := List.mem_range.mp hi
  rw [Nat.shiftRight_eq_div_pow, show 56 - i * 8 = 8 * (8 - 1 - i) by omega]

/-- The padding starts with a bit that is set. -/
private theorem read_emptyPad (k : Nat) : emptyPad.read (k + 1) = 0x80 :: List.replicate k 0 := by
  rw [TracedBuffer.read, List.range_succ_eq_map, List.map_cons, List.map_map]
  refine congrArg (List.cons _) (List.eq_replicate_iff.mpr ⟨?_, ?_⟩)
  · rw [List.length_map, List.length_range]
  · intro b hb
    obtain ⟨i, -, rfl⟩ := List.mem_map.mp hb
    rfl

/-- The pad is the padding of the message. -/
private theorem read_padBuffer (hbytes : ctx.bytes = message.length)
    (hlen : message.length < 2 ^ 61) :
    (padBuffer ctx).read (padLength ctx + 8) = padding message.length := by
  have hbits : ctx.bytes * 8 % 2 ^ 64 = 8 * message.length := by omega
  have hzeros : padLength ctx = padZeros message.length + 1 := by
    rw [padLength, padZeros, hbytes]
    split <;> omega
  have hread := TracedBuffer.read_puts emptyPad (padLength ctx) (bigEndian 8 (8 * message.length))
  rw [length_bigEndian] at hread
  rw [padBuffer_eq, hbits, hread, hzeros, read_emptyPad, padding, List.cons_append]

/-- The padding is written within its buffer. -/
private theorem padBuffer_written (ctx : Sha1Ctx) {i : Nat} (hi : i ∈ (padBuffer ctx).written) :
    i < 72 := by
  rw [padBuffer_eq, TracedBuffer.mem_written_puts, length_bigEndian] at hi
  have hle := padLength_le ctx
  obtain ⟨-, hlt⟩ | hold := hi
  · omega
  · exact nomatch hold

/-- A word of the digest, the highest byte first. -/
private theorem digestBytes_eq (w : Word) : digestBytes w = bigEndian 4 w.toNat := by
  have hbyte : ∀ k, (w >>> k).setWidth 8 = BitVec.ofNat 8 (w.toNat / 2 ^ k) := by
    intro k
    apply BitVec.eq_of_toNat_eq
    rw [BitVec.toNat_setWidth, BitVec.toNat_ushiftRight, BitVec.toNat_ofNat,
      Nat.shiftRight_eq_div_pow]
  have hlow : w.setWidth 8 = BitVec.ofNat 8 (w.toNat / 2 ^ 0) := by
    rw [← hbyte 0, BitVec.ushiftRight_zero]
  rw [digestBytes, hbyte, hbyte, hbyte, hlow]
  rfl

/-- `sha1_final` of a context that has taken a message. -/
theorem sha1Final_digest (h : Fed ctx message) (hbytes : ctx.bytes = message.length)
    (hlen : message.length < 2 ^ 61) : (sha1Final ctx).1 = digest message := by
  obtain ⟨hfed, -⟩ := sha1Update_fed (padding message.length) h (by omega)
  rw [sha1Final, read_padBuffer hbytes hlen]
  dsimp only
  rw [hfed.state, funext digestBytes_eq]
  rfl

/-- The chunks of a message, however it is cut, give its digest; the padding stays
    within its 72 bytes whatever the length. -/
theorem sha1_streaming (ctx : Sha1Ctx) (chunks : List (List Byte))
    (hlen : chunks.flatten.length < 2 ^ 61) :
    (sha1Final (chunks.foldl sha1Update (sha1Init ctx))).1 = digest chunks.flatten ∧
      ∀ ctx' : Sha1Ctx, (∀ i ∈ (padBuffer ctx').written, i < 72) ∧ padLength ctx' + 8 ≤ 72 := by
  refine ⟨?_, fun ctx' => ⟨fun i hi => padBuffer_written ctx' hi, padLength_le ctx'⟩⟩
  obtain ⟨hfed, hbytes⟩ := foldl_sha1Update_fed chunks (sha1Init_fed ctx) rfl
  rw [List.nil_append] at hfed hbytes
  exact sha1Final_digest hfed (by omega) hlen

end

/-- A message of 200 bytes whose second chunk lies across the end of the first block,
    with an empty chunk and one of two blocks behind it. -/
theorem sha1_streaming_straddling :
    (sha1Final ([List.replicate 60 0x61, List.replicate 10 0x62, [],
        List.replicate 130 0x63].foldl sha1Update
      (sha1Init ⟨⟨0, 0, 0, 0, 0⟩, 0, ⟨fun _ => 0, []⟩⟩))).1 =
    digest (List.replicate 60 0x61 ++ (List.replicate 10 0x62 ++ List.replicate 130 0x63)) := by
  have hstream := (sha1_streaming ⟨⟨0, 0, 0, 0, 0⟩, 0, ⟨fun _ => 0, []⟩⟩
    [List.replicate 60 0x61, List.replicate 10 0x62, [], List.replicate 130 0x63]
    (by decide +kernel)).1
  simpa only [List.flatten_cons, List.flatten_nil, List.nil_append, List.append_nil] using hstream

end EspS31.WifiConnect
