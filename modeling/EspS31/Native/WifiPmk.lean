import EspS31.Native.WifiSha1

/-!
# The key of the association test

`hmac_sha1` and `derive_pmk` of `wifi_connect.c`.  Pointers are to whole objects, and
two of them may be to the same one.  A local variable starts with any contents.
-/

namespace EspS31.WifiConnect

open Sha1

/-- The objects of a caller. -/
structure Memory (β : Type) where
  object : β → TracedBuffer Byte

instance {β : Type} : CoeFun (Memory β) fun _ => β → TracedBuffer Byte := ⟨Memory.object⟩

section

variable {β : Type} [DecidableEq β]

/-- One object of the memory replaced. -/
def Memory.set (mem : Memory β) (o : β) (b : TracedBuffer Byte) : Memory β :=
  ⟨Function.update mem.object o b⟩

/-- `memcpy` of bytes to an object. -/
def Memory.store (mem : Memory β) (o : β) (offset : Nat) (bytes : List Byte) : Memory β :=
  mem.set o ((mem o).puts offset bytes)

/-- The loop `b[i] ^= xs[i]`. -/
def xorInto (b : TracedBuffer Byte) (xs : List Byte) : TracedBuffer Byte :=
  (List.range xs.length).foldl (fun b i => b.put i (b.get i ^^^ xs.getD i 0)) b

/-- The array of 64 bytes `c` after the loop over the key. -/
def keyPad (c : Byte) (key : List Byte) : List Byte :=
  (xorInto ⟨fun _ => c, []⟩ key).read 64

/-- `hmac_sha1`; the result is written to `digest` twice, and read in between. -/
def hmacSha1 (ctx : Sha1Ctx) (mem : Memory β) (key : β) (keylen : Nat) (data : β) (length : Nat)
    (digest : β) : Memory β :=
  let khash := sha1Final (sha1Update (sha1Init ctx) ((mem key).read keylen))
  let keyBytes := if keylen > 64 then khash.1 else (mem key).read keylen
  let ctx := if keylen > 64 then khash.2 else ctx
  let ipad := keyPad 0x36 keyBytes
  let opad := keyPad 0x5c keyBytes
  let inner := sha1Final (sha1Update (sha1Update (sha1Init ctx) ipad) ((mem data).read length))
  let mem := mem.store digest 0 inner.1
  let outer := sha1Final (sha1Update (sha1Update (sha1Init inner.2) opad) ((mem digest).read 20))
  mem.store digest 0 outer.1

end

/-! ## `derive_pmk` -/

/-- The arguments and the local arrays of `derive_pmk`. -/
inductive PmkObject where
  | pass | ssid | input | u | block | pmk
deriving DecidableEq, Repr

/-- A string and its terminator. -/
def stringBuffer (s : List Byte) : TracedBuffer Byte := ⟨fun i => s.getD i 0, []⟩

/-- The length up to the terminator. -/
def strlen (s : List Byte) : Nat := (s.takeWhile (· ≠ 0)).length

/-- The loop over `round`, with `n` rounds to go. -/
def pmkRounds (ctx : Sha1Ctx) (passLen : Nat) : Nat → Memory PmkObject → Memory PmkObject
  | 0, mem => mem
  | n + 1, mem =>
    let mem := hmacSha1 ctx mem .pass passLen .u 20 .u
    pmkRounds ctx passLen n (mem.set .block (xorInto (mem .block) ((mem .u).read 20)))

/-- One block of the key: the pass of the outer loop with `index`. -/
def pmkBlock (ctx : Sha1Ctx) (iterations passLen ssidLen index offset : Nat)
    (mem : Memory PmkObject) : Memory PmkObject × Nat :=
  let mem := mem.store .input ssidLen [BitVec.ofNat 8 (index >>> 24), BitVec.ofNat 8 (index >>> 16),
    BitVec.ofNat 8 (index >>> 8), BitVec.ofNat 8 index]
  let mem := hmacSha1 ctx mem .pass passLen .input (ssidLen + 4) .u
  let mem := mem.store .block 0 ((mem .u).read 20)
  let mem := pmkRounds ctx passLen (iterations - 1) mem
  let copy := if 20 > 32 - offset then 32 - offset else 20
  (mem.store .pmk offset ((mem .block).read copy), offset + copy)

/-- The memory with the strings that are the arguments. -/
def pmkArguments (mem : Memory PmkObject) (pass ssid : List Byte) : Memory PmkObject :=
  (mem.set .pass (stringBuffer pass)).set .ssid (stringBuffer ssid)

/-- `derive_pmk` with the number of iterations. -/
def derivePmkWith (iterations : Nat) (ctx : Sha1Ctx) (mem : Memory PmkObject)
    (pass ssid : List Byte) : Memory PmkObject :=
  let mem := pmkArguments mem pass ssid
  let mem := mem.store .input 0 ((mem .ssid).read (strlen ssid))
  let first := pmkBlock ctx iterations (strlen pass) (strlen ssid) 1 0 mem
  let second := pmkBlock ctx iterations (strlen pass) (strlen ssid) 2 first.2 first.1
  let mem := second.1.store .input 0 (List.replicate 36 0)
  let mem := mem.store .u 0 (List.replicate 20 0)
  mem.store .block 0 (List.replicate 20 0)

/-- The key of a passphrase, with 4096 rounds. -/
def derivePmk : Sha1Ctx → Memory PmkObject → List Byte → List Byte → Memory PmkObject :=
  derivePmkWith 4096

end EspS31.WifiConnect
