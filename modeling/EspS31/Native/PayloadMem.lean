import EspS31.ForStd.ByteMem

/-!
# `memcpy` and `memset` of the radio payload

The two functions of `s31_memcpy.c`, with every store they make and its width.
Code that copies into the key slots of the MAC depends on the widths: the slots
do not latch byte stores.
-/

namespace EspS31.PayloadMem

open ByteMem

/-- One store to memory. -/
inductive Store where
  | word (a : Addr) (v : BitVec 32)
  | byte (a : Addr) (v : Byte)
deriving DecidableEq, Repr

/-- Whether the store is one of a word. -/
def Store.isWord : Store → Bool
  | .word _ _ => true
  | .byte _ _ => false

/-- What is left of the arguments after the word loop. -/
structure Rest where
  d : Addr
  s : Addr
  n : Nat

/-- `while (n >= 4) { *dw++ = *sw++; n -= 4; }` -/
def copyWords (d s : Addr) : Nat → Mem → (Mem × List Store) × Rest
  | n + 4, m =>
    let v := loadWord m s
    let r := copyWords (off d 4) (off s 4) n (storeWord m d v)
    ((r.1.1, .word d v :: r.1.2), r.2)
  | n, m => ((m, []), ⟨d, s, n⟩)

/-- `while (n--) *d++ = *s++;` -/
def copyBytes (d s : Addr) : Nat → Mem → Mem × List Store
  | n + 1, m =>
    let v := m s
    let r := copyBytes (off d 1) (off s 1) n (Function.update m d v)
    (r.1, .byte d v :: r.2)
  | 0, m => (m, [])

/-- `while (n--) *d++ = (uint8_t)c;` -/
def setBytes (d : Addr) (c : Byte) : Nat → Mem → Mem × List Store
  | n + 1, m =>
    let r := setBytes (off d 1) c n (Function.update m d c)
    (r.1, .byte d c :: r.2)
  | 0, m => (m, [])

/-- The word loop runs only if both pointers are aligned. -/
def memcpy (dst src : Addr) (n : Nat) (m : Mem) : Mem × List Store :=
  if n ≥ 4 ∧ dst &&& 3#32 = 0#32 ∧ src &&& 3#32 = 0#32 then
    let r := copyWords dst src n m
    let t := copyBytes r.2.d r.2.s r.2.n r.1.1
    (t.1, r.1.2 ++ t.2)
  else copyBytes dst src n m

/-- Sets bytes, one by one. -/
def memset (dst : Addr) (c : BitVec 32) (n : Nat) (m : Mem) : Mem × List Store :=
  setBytes dst (c.setWidth 8) n m

end EspS31.PayloadMem
