import EspS31.ForStd.Sha1
import EspS31.ForStd.TracedBuffer

/-!
# SHA-1 of the association test

`sha1_init`, `sha1_update` and `sha1_final` of `wifi_connect.c`.  `sha1_init` leaves
the block as it is, and the buffers remember where they are written.
-/

namespace EspS31.WifiConnect

open Sha1

/-- `struct sha1_ctx` -/
structure Sha1Ctx where
  state : Words
  /-- of type `uint64_t` -/
  bytes : Nat
  block : TracedBuffer Byte

/-- The word turned left. -/
def rol (value : Word) (bits : Nat) : Word := (value <<< bits) ||| (value >>> (32 - bits))

/-! ## `sha1_transform` -/

/-- The first loop: the words of the block. -/
def loadWords (block : Nat → Byte) : TracedBuffer Word :=
  (List.range 16).foldl (fun w i => w.put i
    ((block (i * 4)).setWidth 32 <<< 24 ||| (block (i * 4 + 1)).setWidth 32 <<< 16 |||
      (block (i * 4 + 2)).setWidth 32 <<< 8 ||| (block (i * 4 + 3)).setWidth 32)) ⟨fun _ => 0, []⟩

/-- The second loop. -/
def expandWords (w : TracedBuffer Word) : TracedBuffer Word :=
  (List.range' 16 64).foldl (fun w i => w.put i
    (rol (w.get (i - 3) ^^^ w.get (i - 8) ^^^ w.get (i - 14) ^^^ w.get (i - 16)) 1)) w

/-- The function and the constant of round `i`. -/
def roundFunction (x : Words) (i : Nat) : Word × Word :=
  if i < 20 then ((x.b &&& x.c) ||| (~~~ x.b &&& x.d), 0x5a827999)
  else if i < 40 then (x.b ^^^ x.c ^^^ x.d, 0x6ed9eba1)
  else if i < 60 then ((x.b &&& x.c) ||| (x.b &&& x.d) ||| (x.c &&& x.d), 0x8f1bbcdc)
  else (x.b ^^^ x.c ^^^ x.d, 0xca62c1d6)

/-- A round, with the words of the schedule in the buffer. -/
def sha1Round (w : TracedBuffer Word) (x : Words) (i : Nat) : Words :=
  let tmp := rol x.a 5 + (roundFunction x i).1 + x.e + (roundFunction x i).2 + w.get i
  ⟨tmp, x.a, rol x.b 30, x.c, x.d⟩

/-- Takes one block in. -/
def sha1Transform (ctx : Sha1Ctx) (block : Nat → Byte) : Sha1Ctx :=
  let w := expandWords (loadWords block)
  let x := (List.range 80).foldl (sha1Round w) ctx.state
  { ctx with
    state := ⟨ctx.state.a + x.a, ctx.state.b + x.b, ctx.state.c + x.c, ctx.state.d + x.d,
      ctx.state.e + x.e⟩ }

/-! ## The stream -/

/-- The first state. -/
def sha1Init (ctx : Sha1Ctx) : Sha1Ctx :=
  { ctx with
    state := ⟨0x67452301, 0xefcdab89, 0x98badcfe, 0x10325476, 0xc3d2e1f0⟩
    bytes := 0 }

/-- `memcpy` of a part of the input to the block. -/
def fillBlock (ctx : Sha1Ctx) (used : Nat) (xs : List Byte) : Sha1Ctx :=
  { ctx with block := ctx.block.puts used xs }

/-- The loop of `sha1_update`; `used` bytes of the block are taken. -/
def updateLoop (ctx : Sha1Ctx) (used : Fin 64) (input : List Byte) : Sha1Ctx :=
  if _h : input = [] then ctx
  else if _hfull : used + (input.take (64 - used)).length = 64 then
    updateLoop (sha1Transform (fillBlock ctx used (input.take (64 - used)))
      (fillBlock ctx used (input.take (64 - used))).block.get) 0 (input.drop (64 - used))
  else
    updateLoop (fillBlock ctx used (input.take (64 - used)))
      ⟨used + (input.take (64 - used)).length, by
        have := List.length_take_le (64 - used) input; omega⟩ (input.drop (64 - used))
termination_by input.length
decreasing_by
  all_goals
    have := List.length_pos_of_ne_nil _h
    rw [List.length_drop]
    omega

/-- Takes bytes in, block by block as they are complete. -/
def sha1Update (ctx : Sha1Ctx) (data : List Byte) : Sha1Ctx :=
  updateLoop { ctx with bytes := (ctx.bytes + data.length) % 2 ^ 64 }
    ⟨ctx.bytes % 64, Nat.mod_lt _ (by decide)⟩ data

/-! ## The end -/

/-- `padlen` of `sha1_final` -/
def padLength (ctx : Sha1Ctx) : Nat :=
  if ctx.bytes % 64 < 56 then 56 - ctx.bytes % 64 else 120 - ctx.bytes % 64

/-- The 72 bytes of padding, of which the first is `0x80`. -/
def padBuffer (ctx : Sha1Ctx) : TracedBuffer Byte :=
  (List.range 8).foldl (fun pad i => pad.put (padLength ctx + i)
    (BitVec.ofNat 8 ((ctx.bytes * 8 % 2 ^ 64) >>> (56 - i * 8))))
    ⟨fun i => if i = 0 then 0x80 else 0, []⟩

/-- The bytes of a word that `sha1_final` writes to the digest. -/
def digestBytes (w : Word) : List Byte :=
  [(w >>> 24).setWidth 8, (w >>> 16).setWidth 8, (w >>> 8).setWidth 8, w.setWidth 8]

/-- The digest, and the context after the call. -/
def sha1Final (ctx : Sha1Ctx) : List Byte × Sha1Ctx :=
  let ctx := sha1Update ctx ((padBuffer ctx).read (padLength ctx + 8))
  (ctx.state.toList.flatMap digestBytes, ctx)

end EspS31.WifiConnect
