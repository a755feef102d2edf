import EspS31.ForStd.BlockStream

/-!
# SHA-1

The function of FIPS 180-4 on byte messages: the padded message is cut into blocks of
64 bytes, and each block, expanded to 80 words, changes the five words of the hash
value.
-/

namespace Sha1

/-- A byte of the message. -/
abbrev Byte := BitVec 8
/-- A word of the hash, 32 bits wide. -/
abbrev Word := BitVec 32

/-- The hash value, and the working variables of a block. -/
structure Words where
  a : Word
  b : Word
  c : Word
  d : Word
  e : Word
deriving DecidableEq, Repr

namespace Words

/-- The word-by-word sum, modulo `2 ^ 32`. -/
def add (x y : Words) : Words := ⟨x.a + y.a, x.b + y.b, x.c + y.c, x.d + y.d, x.e + y.e⟩

/-- The five words in order. -/
def toList (x : Words) : List Word := [x.a, x.b, x.c, x.d, x.e]

end Words

/-! ## Functions and constants -/

/-- The choice function of the rounds 0 to 19. -/
def Ch (x y z : Word) : Word := (x &&& y) ^^^ (~~~ x &&& z)

/-- The parity function of the rounds 20 to 39 and 60 to 79. -/
def Parity (x y z : Word) : Word := x ^^^ y ^^^ z

/-- The majority function of the rounds 40 to 59. -/
def Maj (x y z : Word) : Word := (x &&& y) ^^^ (x &&& z) ^^^ (y &&& z)

/-- The function of round `t`. -/
def f (t : Nat) : Word → Word → Word → Word :=
  if t < 20 then Ch else if t < 40 then Parity else if t < 60 then Maj else Parity

/-- The constant of round `t`. -/
def K (t : Nat) : Word :=
  if t < 20 then 0x5a827999
  else if t < 40 then 0x6ed9eba1
  else if t < 60 then 0x8f1bbcdc
  else 0xca62c1d6

/-- The initial hash value. -/
def H0 : Words := ⟨0x67452301, 0xefcdab89, 0x98badcfe, 0x10325476, 0xc3d2e1f0⟩

/-! ## Preprocessing -/

/-- The bytes of a number, the most significant first. -/
def bigEndian (count n : Nat) : List Byte :=
  (List.range count).map fun i => BitVec.ofNat 8 (n / 2 ^ (8 * (count - 1 - i)))

/-- The smallest number of zero bytes that fills a message of `n` bytes and the byte
    behind it up to 8 bytes before the end of a block. -/
def padZeros (n : Nat) : Nat := (119 - n % 64) % 64

/-- A one bit, zero bits and the length of the message in bits. -/
def padding (n : Nat) : List Byte :=
  0x80 :: (List.replicate (padZeros n) 0 ++ bigEndian 8 (8 * n))

/-- The message with its padding. -/
def pad (message : List Byte) : List Byte := message ++ padding message.length

/-- Word `t` of a block. -/
def blockWord (block : List Byte) (t : Nat) : Word :=
  block.getD (4 * t) 0 ++ block.getD (4 * t + 1) 0 ++ block.getD (4 * t + 2) 0 ++
    block.getD (4 * t + 3) 0

/-! ## Hash computation -/

/-- The message schedule. -/
def W (block : List Byte) (t : Nat) : Word :=
  if _h : t < 16 then blockWord block t
  else (W block (t - 3) ^^^ W block (t - 8) ^^^ W block (t - 14) ^^^ W block (t - 16)).rotateLeft 1
termination_by t

/-- One round of the compression. -/
def round (block : List Byte) (x : Words) (t : Nat) : Words where
  a := x.a.rotateLeft 5 + f t x.b x.c x.d + x.e + K t + W block t
  b := x.a
  c := x.b.rotateLeft 30
  d := x.c
  e := x.d

/-- The hash value after one block more. -/
def compress (h : Words) (block : List Byte) : Words :=
  ((List.range 80).foldl (round block) h).add h

/-- The five words of the message's hash. -/
def hash (message : List Byte) : Words := BlockStream.absorb compress 64 H0 (pad message)

/-- The message digest. -/
def digest (message : List Byte) : List Byte :=
  (hash message).toList.flatMap fun w => bigEndian 4 w.toNat

/-- `count` bytes are written. -/
theorem length_bigEndian (count n : Nat) : (bigEndian count n).length = count := by
  rw [bigEndian, List.length_map, List.length_range]

/-- A digest has twenty bytes. -/
theorem length_digest (message : List Byte) : (digest message).length = 20 := by
  simp only [digest, Words.toList, List.flatMap_cons, List.flatMap_nil, List.length_append,
    length_bigEndian, List.length_nil]

/-- The first sixteen words of the schedule are the block's own. -/
theorem W_of_lt (block : List Byte) {t : Nat} (h : t < 16) : W block t = blockWord block t := by
  rw [W, dif_pos h]

/-- Every further word of the schedule is made from four earlier ones. -/
theorem W_of_ge (block : List Byte) {t : Nat} (h : 16 ≤ t) :
    W block t =
      (W block (t - 3) ^^^ W block (t - 8) ^^^ W block (t - 14) ^^^ W block (t - 16)).rotateLeft 1 := by
  rw [W, dif_neg (by omega)]

end Sha1
