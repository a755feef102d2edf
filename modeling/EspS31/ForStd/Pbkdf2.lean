import EspS31.ForStd.Sha1

/-!
# HMAC and PBKDF2

Keyed hashing after RFC 2104 for a hash function with blocks of `blockLen` bytes, and
password-based key derivation after RFC 2898 for a pseudorandom function with results
of `hLen` bytes.
-/

namespace Pbkdf2

open Sha1 (Byte bigEndian)

/-- Two strings of bytes, byte by byte. -/
def xorBytes (xs ys : List Byte) : List Byte := List.zipWith (· ^^^ ·) xs ys

/-! ## HMAC -/

/-- The key, hashed if it is longer than a block, filled up with zeros. -/
def blockKey (H : List Byte → List Byte) (blockLen : Nat) (key : List Byte) : List Byte :=
  let k := if key.length > blockLen then H key else key
  k ++ List.replicate (blockLen - k.length) 0

/-- HMAC over a hash function with blocks of `blockLen` bytes. -/
def hmac (H : List Byte → List Byte) (blockLen : Nat) (key text : List Byte) : List Byte :=
  let k := blockKey H blockLen key
  H (k.map (· ^^^ 0x5c) ++ H (k.map (· ^^^ 0x36) ++ text))

/-! ## PBKDF2 -/

section

variable (prf : List Byte → List Byte → List Byte) (password salt : List Byte)

/-- The result of iteration `j + 1` for block `i`. -/
def U (i : Nat) : Nat → List Byte
  | 0 => prf password (salt ++ bigEndian 4 i)
  | j + 1 => prf password (U i j)

/-- Block `i` after `j + 1` iterations. -/
def T (i : Nat) : Nat → List Byte
  | 0 => U prf password salt i 0
  | j + 1 => xorBytes (T i j) (U prf password salt i (j + 1))

/-- The derived key: as many blocks as it needs, cut to its length. -/
def pbkdf2 (hLen iterations dkLen : Nat) : List Byte :=
  ((List.range ((dkLen + hLen - 1) / hLen)).flatMap fun i =>
    T prf password salt (i + 1) (iterations - 1)).take dkLen

end

end Pbkdf2
