import EspS31.ForStd.Pbkdf2
import EspS31.Native.WifiPmk
import EspS31.Spec.Sha1Correct
import Mathlib.Data.List.TakeWhile

/-!
# `derive_pmk` is PBKDF2

All reads of `hmac_sha1` from its data come before the first write to its digest, so
both may be the same object, as in the iteration of `derive_pmk`.

## Key results

- `hmacSha1_spec`: the digest is the HMAC, and the other objects stay
- `pmkRounds_spec`: the iteration with one buffer
- `derivePmk_pbkdf2`: the key is that of PBKDF2
-/

namespace EspS31.WifiConnect

open Sha1 Pbkdf2

/-! ## Loops over bytes -/

section

variable (b : TracedBuffer Byte)

/-- A byte after the loop: changed up to `n`. -/
private theorem foldl_xor_get (v : Nat → Byte) (n i : Nat) :
    ((List.range n).foldl (fun b i => b.put i (b.get i ^^^ v i)) b).get i =
      if i < n then b.get i ^^^ v i else b.get i := by
  induction n generalizing i with
  | zero => rfl
  | succ n ih =>
    rw [List.range_succ, List.foldl_append, List.foldl_cons, List.foldl_nil, TracedBuffer.put]
    dsimp only
    by_cases heq : i = n
    · rw [heq, Function.update_self, ih, if_neg (by omega), if_pos (by omega)]
    · rw [Function.update_of_ne heq, ih]
      by_cases hlt : i < n
      · rw [if_pos hlt, if_pos (by omega)]
      · rw [if_neg hlt, if_neg (by omega)]

/-- A byte after the loop `b[i] ^= xs[i]`. -/
private theorem xorInto_get (xs : List Byte) (i : Nat) :
    (xorInto b xs).get i = if i < xs.length then b.get i ^^^ xs.getD i 0 else b.get i :=
  foldl_xor_get b (fun i => xs.getD i 0) xs.length i

/-- The bytes after the loop. -/
private theorem read_xorInto (xs : List Byte) :
    (xorInto b xs).read xs.length = xorBytes (b.read xs.length) xs := by
  apply List.ext_getElem
  · rw [xorBytes, List.length_zipWith, TracedBuffer.length_read, TracedBuffer.length_read,
      Nat.min_self]
  · intro i hi hi'
    rw [TracedBuffer.length_read] at hi
    simp only [xorBytes, TracedBuffer.read, List.getElem_map, List.getElem_range,
      List.getElem_zipWith]
    rw [xorInto_get, if_pos hi, List.getD_eq_getElem?_getD, List.getElem?_eq_getElem hi,
      Option.getD_some]

end

/-- The pad of a key is the key filled up with zeros, with a constant. -/
private theorem keyPad_eq (c : Byte) {key : List Byte} (h : key.length ≤ 64) :
    keyPad c key = (key ++ List.replicate (64 - key.length) 0).map (· ^^^ c) := by
  apply List.ext_getElem
  · rw [keyPad, TracedBuffer.length_read, List.length_map, List.length_append,
      List.length_replicate]
    omega
  · intro i hi hi'
    simp only [keyPad, TracedBuffer.read, List.getElem_map, List.getElem_range]
    rw [xorInto_get]
    by_cases hlt : i < key.length
    · rw [if_pos hlt, List.getElem_append_left hlt, List.getD_eq_getElem?_getD,
        List.getElem?_eq_getElem hlt, Option.getD_some, BitVec.xor_comm]
    · rw [if_neg hlt, List.getElem_append_right (by omega), List.getElem_replicate]
      exact (BitVec.zero_xor).symm

/-! ## `hmac_sha1` -/

section

variable {β : Type} [DecidableEq β] (mem : Memory β)

/-- The object that was written. -/
private theorem set_self (o : β) (b : TracedBuffer Byte) : mem.set o b o = b :=
  Function.update_self ..

/-- The other objects are as they were. -/
private theorem set_of_ne {o o' : β} (h : o' ≠ o) (b : TracedBuffer Byte) :
    mem.set o b o' = mem o' :=
  Function.update_of_ne h ..

/-- The object that was stored into. -/
private theorem store_self (o : β) (offset : Nat) (bytes : List Byte) :
    mem.store o offset bytes o = (mem o).puts offset bytes :=
  set_self ..

/-- The other objects are as they were. -/
private theorem store_of_ne {o o' : β} (h : o' ≠ o) (offset : Nat) (bytes : List Byte) :
    mem.store o offset bytes o' = mem o' :=
  set_of_ne _ h _

/-- The string that was stored at the start of an object. -/
private theorem read_store (o : β) {bytes : List Byte} {n : Nat} (h : bytes.length = n) :
    (mem.store o 0 bytes o).read n = bytes := by
  have hputs := TracedBuffer.read_puts (mem o) 0 bytes
  rw [Nat.zero_add, h] at hputs
  rw [store_self, hputs]
  rfl

/-- Hashing two strings one after the other. -/
private theorem sha1_two (ctx : Sha1Ctx) {xs ys : List Byte} (h : xs.length + ys.length < 2 ^ 61) :
    (sha1Final (sha1Update (sha1Update (sha1Init ctx) xs) ys)).1 = digest (xs ++ ys) := by
  obtain ⟨hfed, hbytes⟩ := foldl_sha1Update_fed [xs, ys] (sha1Init_fed ctx) rfl
  have hflat : [] ++ [xs, ys].flatten = xs ++ ys := by
    rw [List.nil_append, List.flatten_cons, List.flatten_cons, List.flatten_nil, List.append_nil]
  rw [hflat] at hfed hbytes
  have hlen : (xs ++ ys).length < 2 ^ 61 := by
    rw [List.length_append]
    exact h
  exact sha1Final_digest hfed (by rw [Nat.mod_eq_of_lt (by omega)] at hbytes; exact hbytes) hlen

/-- The key as `hmac_sha1` uses it is the key of the standard before it is filled up. -/
private theorem sha1_key (ctx : Sha1Ctx) {key : List Byte} (h : key.length < 2 ^ 61) :
    (if key.length > 64 then (sha1Final (sha1Update (sha1Init ctx) key)).1 else key) =
      if key.length > 64 then digest key else key := by
  obtain ⟨hfed, hbytes⟩ := sha1Update_fed key (sha1Init_fed ctx) rfl
  rw [List.nil_append] at hfed hbytes
  rw [sha1Final_digest hfed (by rw [Nat.mod_eq_of_lt (by omega)] at hbytes; exact hbytes) h]

/-- The pad of a key that was hashed when it was long. -/
private theorem keyPad_blockKey (c : Byte) (key : List Byte) :
    keyPad c (if key.length > 64 then digest key else key) =
      (blockKey digest 64 key).map (· ^^^ c) := by
  rw [keyPad_eq, blockKey]
  split
  · rw [length_digest]
    decide
  · omega

/-- The digest object holds the HMAC of what the key and the data object held before
    the call, also when the digest object is one of them. -/
theorem hmacSha1_spec (ctx : Sha1Ctx) (key data target : β) {keylen length : Nat}
    (hkey : keylen < 2 ^ 61) (hdata : 64 + length < 2 ^ 61) :
    (hmacSha1 ctx mem key keylen data length target target).read 20 =
        hmac digest 64 ((mem key).read keylen) ((mem data).read length) ∧
      ∀ o, o ≠ target → hmacSha1 ctx mem key keylen data length target o = mem o := by
  have hkeylen := TracedBuffer.length_read (mem key) keylen
  have hbytes := sha1_key ctx (show ((mem key).read keylen).length < 2 ^ 61 by omega)
  have hpad := fun c => keyPad_blockKey c ((mem key).read keylen)
  rw [hkeylen] at hbytes
  simp only [hkeylen] at hpad
  unfold hmacSha1
  dsimp only
  rw [hbytes]
  generalize (if keylen > 64 then digest ((mem key).read keylen) else (mem key).read keylen) = k
    at hpad ⊢
  generalize (if keylen > 64 then (sha1Final (sha1Update (sha1Init ctx) ((mem key).read keylen))).2
    else ctx) = ctx'
  have hpadlen : ∀ c, (keyPad c k).length = 64 := fun c => TracedBuffer.length_read ..
  -- all of the data is read before the digest is written
  have hinner := sha1_two ctx' (show (keyPad 0x36 k).length + ((mem data).read length).length <
      2 ^ 61 by rw [hpadlen, TracedBuffer.length_read]; exact hdata)
  generalize sha1Final (sha1Update (sha1Update (sha1Init ctx') (keyPad 0x36 k))
    ((mem data).read length)) = inner at hinner ⊢
  have hmid : (mem.store target 0 inner.1 target).read 20 = inner.1 :=
    read_store mem target (by rw [hinner, length_digest])
  have houter := sha1_two inner.2 (show (keyPad 0x5c k).length +
      ((mem.store target 0 inner.1 target).read 20).length < 2 ^ 61 by
    rw [hpadlen, TracedBuffer.length_read]
    decide)
  constructor
  · rw [read_store _ target (by rw [houter, length_digest]), houter, hmid, hinner, hpad, hpad, hmac]
  · intro o ho
    rw [store_of_ne _ ho, store_of_ne _ ho]

end

/-! ## `derive_pmk` -/

/-- The function that is iterated. -/
def hmacPrf : List Byte → List Byte → List Byte := hmac digest 64

section

variable {mem : Memory PmkObject} {passLen ssidLen : Nat} {pass ssid : List Byte}

/-- The objects in the iteration for block `i`, after `j + 1` results. -/
structure Iterating (passLen : Nat) (pass ssid : List Byte) (i j : Nat)
    (mem : Memory PmkObject) : Prop where
  key : (mem .pass).read passLen = pass
  u : (mem .u).read 20 = U hmacPrf pass ssid i j
  block : (mem .block).read 20 = T hmacPrf pass ssid i j

/-- The rounds, with `u` as the data and as the digest. -/
theorem pmkRounds_spec (ctx : Sha1Ctx) (hpass : passLen < 2 ^ 61) (n : Nat) {i j : Nat}
    (h : Iterating passLen pass ssid i j mem) :
    Iterating passLen pass ssid i (j + n) (pmkRounds ctx passLen n mem) ∧
      ∀ o, o ≠ .u → o ≠ .block → pmkRounds ctx passLen n mem o = mem o := by
  induction n generalizing mem j with
  | zero => exact ⟨h, fun _ _ _ => rfl⟩
  | succ n ih =>
    obtain ⟨hdigest, hframe⟩ := hmacSha1_spec mem ctx .pass .u .u hpass (show 64 + 20 < 2 ^ 61 by decide)
    rw [h.key, h.u] at hdigest
    rw [pmkRounds]
    generalize hmacSha1 ctx mem .pass passLen .u 20 .u = mem' at hdigest hframe ⊢
    -- one round: `u` is hashed in place and added to the block
    have hnext : Iterating passLen pass ssid i (j + 1)
        (mem'.set .block (xorInto (mem' .block) ((mem' .u).read 20))) := by
      refine ⟨?_, ?_, ?_⟩
      · rw [set_of_ne _ (show PmkObject.pass ≠ .block by decide),
          hframe .pass (by decide), h.key]
      · rw [set_of_ne _ (show PmkObject.u ≠ .block by decide), hdigest]
        rfl
      · have hlen := TracedBuffer.length_read (mem' .u) 20
        have hxor := read_xorInto (mem' .block) ((mem' .u).read 20)
        rw [hlen] at hxor
        rw [set_self, hxor, hframe .block (by decide), h.block, hdigest]
        rfl
    obtain ⟨hrest, hrestFrame⟩ := ih hnext
    refine ⟨?_, fun o hu hblock => ?_⟩
    · rwa [Nat.add_assoc, Nat.add_comm 1] at hrest
    · rw [hrestFrame o hu hblock, set_of_ne _ hblock, hframe o hu]

/-- The beginning of what is read. -/
private theorem read_take (b : TracedBuffer Byte) {k n : Nat} (h : k ≤ n) :
    b.read k = (b.read n).take k := by
  rw [TracedBuffer.read, TracedBuffer.read, ← List.map_take, List.take_range, Nat.min_eq_left h]

/-- The four bytes of an index, the highest first. -/
private theorem indexBytes_eq (index : Nat) :
    [BitVec.ofNat 8 (index >>> 24), BitVec.ofNat 8 (index >>> 16), BitVec.ofNat 8 (index >>> 8),
      BitVec.ofNat 8 index] = bigEndian 4 index := by
  simp only [Nat.shiftRight_eq_div_pow]
  exact congrArg (fun low => [_, _, _, BitVec.ofNat 8 low]) (Nat.div_one index).symm

/-- What one pass of the outer loop leaves: a block of the key at its place, and the
    password and the salt for the next one. -/
structure BlockDone (passLen ssidLen : Nat) (pass ssid block : List Byte) (offset : Nat)
    (mem : Memory PmkObject) (r : Memory PmkObject × Nat) : Prop where
  pmk : r.1 .pmk = (mem .pmk).puts offset (block.take (min 20 (32 - offset)))
  next : r.2 = offset + min 20 (32 - offset)
  len : block.length = 20
  key : (r.1 .pass).read passLen = pass
  salt : (r.1 .input).read ssidLen = ssid

/-- One block of the key is that of PBKDF2. -/
private theorem pmkBlock_spec (ctx : Sha1Ctx) (hpassLen : passLen < 2 ^ 61)
    (hssidLen : 64 + (ssidLen + 4) < 2 ^ 61)
    (hpass : (mem .pass).read passLen = pass) (hssid : (mem .input).read ssidLen = ssid)
    (iterations index offset : Nat) :
    BlockDone passLen ssidLen pass ssid (T hmacPrf pass ssid index (iterations - 1)) offset mem
      (pmkBlock ctx iterations passLen ssidLen index offset mem) := by
  have hcopy : (if 20 > 32 - offset then 32 - offset else 20) = min 20 (32 - offset) := by
    split <;> omega
  rw [pmkBlock, indexBytes_eq, hcopy]
  -- the index behind the salt
  have hinput := TracedBuffer.read_puts (mem .input) ssidLen (bigEndian 4 index)
  rw [length_bigEndian, hssid, ← store_self] at hinput
  have hsalt := congrArg (List.take ssidLen) hinput
  rw [← read_take _ (Nat.le_add_right ..), List.take_left' (hssid ▸ TracedBuffer.length_read ..)]
    at hsalt
  have hstore := fun o (ho : o ≠ PmkObject.input) => store_of_ne mem ho ssidLen (bigEndian 4 index)
  generalize mem.store .input ssidLen (bigEndian 4 index) = mem₁ at hinput hsalt hstore ⊢
  -- the first result
  obtain ⟨hdigest, hframe⟩ := hmacSha1_spec mem₁ ctx .pass .input .u hpassLen hssidLen
  rw [hstore .pass (by decide), hpass, hinput] at hdigest
  generalize hmacSha1 ctx mem₁ .pass passLen .input (ssidLen + 4) .u = mem₂ at hdigest hframe ⊢
  have hfirst : Iterating passLen pass ssid index 0 (mem₂.store .block 0 ((mem₂ .u).read 20)) := by
    refine ⟨?_, ?_, ?_⟩
    · rw [store_of_ne _ (show PmkObject.pass ≠ .block by decide), hframe .pass (by decide),
        hstore .pass (by decide), hpass]
    · rw [store_of_ne _ (show PmkObject.u ≠ .block by decide), hdigest]
      rfl
    · rw [read_store _ _ (TracedBuffer.length_read ..), hdigest]
      rfl
  -- the other rounds
  obtain ⟨hrounds, hroundsFrame⟩ := pmkRounds_spec ctx hpassLen (iterations - 1) hfirst
  rw [Nat.zero_add] at hrounds
  have hother : ∀ o, o ≠ .input → o ≠ .u → o ≠ .block →
      pmkRounds ctx passLen (iterations - 1) (mem₂.store .block 0 ((mem₂ .u).read 20)) o = mem o := by
    intro o hi hu hb
    rw [hroundsFrame o hu hb, store_of_ne _ hb, hframe o hu, hstore o hi]
  have hinputKept : pmkRounds ctx passLen (iterations - 1)
      (mem₂.store .block 0 ((mem₂ .u).read 20)) .input = mem₁ .input := by
    rw [hroundsFrame .input (by decide) (by decide), store_of_ne _ (by decide),
      hframe .input (by decide)]
  generalize pmkRounds ctx passLen (iterations - 1) (mem₂.store .block 0 ((mem₂ .u).read 20)) = mem₃
    at hrounds hother hinputKept ⊢
  refine ⟨?_, rfl, ?_, ?_, ?_⟩
  · dsimp only
    rw [store_self, hother .pmk (by decide) (by decide) (by decide),
      read_take _ (Nat.min_le_left 20 (32 - offset)), hrounds.block]
  · rw [← hrounds.block, TracedBuffer.length_read]
  · dsimp only
    rw [store_of_ne _ (show PmkObject.pass ≠ .pmk by decide), hrounds.key]
  · dsimp only
    rw [store_of_ne _ (show PmkObject.input ≠ .pmk by decide), hinputKept, hsalt]

/-- A string without a terminator in it has its length. -/
private theorem strlen_of_nul {s : List Byte} (h : 0 ∉ s) : strlen s = s.length := by
  rw [strlen, List.takeWhile_eq_self_iff.mpr]
  intro b hb
  exact decide_eq_true fun hzero => h (hzero ▸ hb)

/-- The buffer of a string holds it. -/
private theorem read_stringBuffer (s : List Byte) : (stringBuffer s).read s.length = s := by
  apply List.ext_getElem
  · rw [TracedBuffer.length_read]
  · intro i hi hi'
    simp only [stringBuffer, TracedBuffer.read, List.getElem_map, List.getElem_range]
    rw [List.getD_eq_getElem?_getD, List.getElem?_eq_getElem hi', Option.getD_some]

/-- Two blocks of 20 bytes cut to 32. -/
private theorem pbkdf2_two (prf : List Byte → List Byte → List Byte) (iterations : Nat)
    (hlen : (T prf pass ssid 1 (iterations - 1)).length = 20) :
    pbkdf2 prf pass ssid 20 iterations 32 =
      T prf pass ssid 1 (iterations - 1) ++ (T prf pass ssid 2 (iterations - 1)).take 12 := by
  have htwo : List.range ((32 + 20 - 1) / 20) = [0, 1] := rfl
  rw [pbkdf2, htwo, List.flatMap_cons, List.flatMap_cons, List.flatMap_nil, List.append_nil,
    Nat.zero_add, List.take_append, hlen, List.take_of_length_le (by omega)]

/-- The key is that of PBKDF2, for every number of rounds. -/
theorem derivePmkWith_pbkdf2 (iterations : Nat) (ctx : Sha1Ctx) (mem : Memory PmkObject)
    (hpass : pass.length ≤ 63) (hpassNul : 0 ∉ pass) (hssid : ssid.length ≤ 32)
    (hssidNul : 0 ∉ ssid) :
    (derivePmkWith iterations ctx mem pass ssid .pmk).read 32 =
      pbkdf2 hmacPrf pass ssid 20 iterations 32 := by
  rw [derivePmkWith, strlen_of_nul hpassNul, strlen_of_nul hssidNul]
  -- the salt in the input
  have hsalt : (pmkArguments mem pass ssid .ssid).read ssid.length = ssid := by
    rw [pmkArguments, set_self, read_stringBuffer]
  have hkey : (pmkArguments mem pass ssid .pass).read pass.length = pass := by
    rw [pmkArguments, set_of_ne _ (show PmkObject.pass ≠ .ssid by decide), set_self,
      read_stringBuffer]
  generalize pmkArguments mem pass ssid = mem₀ at hsalt hkey ⊢
  rw [hsalt]
  have hkey₁ : (mem₀.store .input 0 ssid .pass).read pass.length = pass := by
    rw [store_of_ne _ (show PmkObject.pass ≠ .input by decide), hkey]
  have hsalt₁ : (mem₀.store .input 0 ssid .input).read ssid.length = ssid := read_store _ _ rfl
  generalize mem₀.store .input 0 ssid = mem₁ at hkey₁ hsalt₁ ⊢
  -- the two blocks
  have hfirst := pmkBlock_spec ctx (by omega) (by omega) hkey₁ hsalt₁ iterations 1 0
  generalize pmkBlock ctx iterations pass.length ssid.length 1 0 mem₁ = first at hfirst ⊢
  have hsecond := pmkBlock_spec ctx (by omega) (by omega) hfirst.key hfirst.salt iterations 2 first.2
  generalize pmkBlock ctx iterations pass.length ssid.length 2 first.2 first.1 = second
    at hsecond ⊢
  have hnext : first.2 = 20 := hfirst.next
  have hlen := hfirst.len
  have hpmk := hfirst.pmk
  rw [show min 20 (32 - 0) = 20 by decide, List.take_of_length_le (by omega)] at hpmk
  rw [store_of_ne _ (show PmkObject.pmk ≠ .block by decide),
    store_of_ne _ (show PmkObject.pmk ≠ .u by decide),
    store_of_ne _ (show PmkObject.pmk ≠ .input by decide), hsecond.pmk, hpmk, hnext,
    show min 20 (32 - 20) = 12 by decide, pbkdf2_two _ _ hlen]
  have hfront := TracedBuffer.read_puts (mem₁ .pmk) 0 (T hmacPrf pass ssid 1 (iterations - 1))
  rw [hlen, Nat.zero_add] at hfront
  have hboth := TracedBuffer.read_puts ((mem₁ .pmk).puts 0 (T hmacPrf pass ssid 1 (iterations - 1)))
    20 ((T hmacPrf pass ssid 2 (iterations - 1)).take 12)
  rw [hfront, List.length_take_of_le (by rw [hsecond.len]; decide)] at hboth
  exact hboth

end

/-- `derive_pmk` is PBKDF2 with HMAC-SHA-1 and 4096 iterations, and `hmac_sha1` is
    HMAC-SHA-1 for all lengths, whichever of its objects are the same. -/
theorem derivePmk_pbkdf2 (ctx : Sha1Ctx) (mem : Memory PmkObject) {pass ssid : List Byte}
    (hpass : 1 ≤ pass.length ∧ pass.length ≤ 63) (hpassNul : 0 ∉ pass)
    (hssid : 1 ≤ ssid.length ∧ ssid.length ≤ 32) (hssidNul : 0 ∉ ssid) :
    (derivePmk ctx mem pass ssid .pmk).read 32 = pbkdf2 (hmac digest 64) pass ssid 20 4096 32 ∧
      ∀ (β : Type) [DecidableEq β] (mem : Memory β) (key data target : β) (keylen length : Nat),
        keylen < 2 ^ 61 → 64 + length < 2 ^ 61 →
        (hmacSha1 ctx mem key keylen data length target target).read 20 =
          hmac digest 64 ((mem key).read keylen) ((mem data).read length) := by
  refine ⟨derivePmkWith_pbkdf2 4096 ctx mem hpass.2 hpassNul hssid.2 hssidNul, ?_⟩
  intro β _ mem key data target keylen length hkey hdata
  exact (hmacSha1_spec mem ctx key data target hkey hdata).1

/-- The password `password` and the network `IEEE`. -/
theorem derivePmk_pbkdf2_ieee :
    (derivePmk ⟨H0, 0, ⟨fun _ => 0, []⟩⟩ ⟨fun _ => ⟨fun _ => 0, []⟩⟩
        [0x70, 0x61, 0x73, 0x73, 0x77, 0x6f, 0x72, 0x64] [0x49, 0x45, 0x45, 0x45] .pmk).read 32 =
      pbkdf2 (hmac digest 64) [0x70, 0x61, 0x73, 0x73, 0x77, 0x6f, 0x72, 0x64]
        [0x49, 0x45, 0x45, 0x45] 20 4096 32 :=
  (derivePmk_pbkdf2 _ _ (by decide) (by decide) (by decide) (by decide)).1

end EspS31.WifiConnect
