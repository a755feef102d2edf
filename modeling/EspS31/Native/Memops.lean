import EspS31.Native.Xespv

/-!
# Memory and string routines with vector instructions

The routines of `s31_xespv_memops.S`, block by block in the order of the file, and
the public operations of `esp_simd.c` that enter them.
-/

namespace EspS31.Xespv

open ByteMem

/-- The labels of the routines.  A label named `...Return` is the instruction after
    a call. -/
inductive Label where
  | s31XespvEq16
  | s31XespvMemcpy
  | Lmc64
  | Lmc16
  | LmcWord
  | LmcWordLoop
  | LmcByte
  | LmcDone
  | s31XespvMemset
  | LmsAlign
  | LmsPattern
  | Lms64
  | Lms16
  | LmsWordSetup
  | LmsWord
  | LmsByte
  | LmsDone
  | s31XespvMemmove
  | LmmBack64
  | LmmBack16
  | LmmBackByte
  | LmmForward
  | LmmDone
  | s31XespvMemchr
  | LmchAlign
  | LmchVecCheck
  | LmchHit
  | LmchTail
  | LmchNull
  | LmchDone
  | s31XespvMemrchr
  | LmrAlign
  | LmrVecCheck
  | LmrHit
  | LmrHitLoop
  | LmrTail
  | LmrNull
  | LmrDone
  | s31XespvMemcmp
  | LcmpAlign
  | LcmpByte
  | LcmpEqual
  | LcmpVec
  | memcmpReturn
  | LcmpDiff
  | s31XespvStrnlen
  | LsnAlign
  | LsnVec
  | LsnTail
  | LsnDone
  | s31XespvStrlen
  | s31XespvStrchrnul
  | LscAlign
  | LscByte
  | LscVec
  | LscDone
  | s31XespvStrchr
  | strchrReturn
  | LschDone
  | s31XespvStrcmp
  | LstcmpAlign
  | LstcmpByte
  | LstcmpVec
  | LstcmpDiff
  | LstcmpEqual
  | s31XespvStpcpy
  | LstpcAlign
  | LstpcByte
  | LstpcVec
  | LstpcDone
  | s31XespvStrcpy
  | strcpyReturn
  | s31XespvMemccpy
  | memccpySearchReturn
  | LmccCopy
  | memccpyCopyReturn
  | LmccNone
  | memccpyNoneReturn
  | LmccDone
  | s31XespvStpncpy
  | stpncpyLengthReturn
  | LstpnFull
  | LstpnCopy
  | stpncpyCopyReturn
  | stpncpyFillReturn
  | LstpnRetEnd
  | LstpnDone
  | s31XespvStrncpy
  | strncpyReturn
  | s31XespvStrlcpy
  | strlcpyLengthReturn
  | LslLenOk
  | strlcpyCopyReturn
  | LslDone
  | s31XespvAddSatU8
  | LvaVec
  | LvaByte
  | LvaStore
  | LvaDone
deriving DecidableEq, Repr

/-- The instructions of a block. -/
abbrev Code := List (Instr Label)

/-! ## `s31_xespv_eq16`: `out[16] = (a[16] == b[16])` lane masks -/

/-- Compares two blocks lane by lane and stores the mask. -/
def eq16Entry : Code := [
  .vld .q0 .a1 0,
  .vld .q1 .a2 0,
  .vcmpEqU8 .q2 .q0 .q1,
  .vst .q2 .a0 0,
  .ret]

/-! ## `void *s31_xespv_memcpy(void *d, const void *s, size_t n)` -/

/-- Takes the blocks only for 64 bytes or more, with both pointers at block boundaries. -/
def memcpyEntry : Code := [
  .mv .t6 .a0,
  .li .t0 64,
  .bltu .a2 .t0 .LmcWord,
  .or .t0 .a0 .a1,
  .andi .t0 .t0 15,
  .bnez .t0 .LmcWord]

/-- Copies four blocks a turn, each pointer going on by itself. -/
def memcpy64 : Code := [
  .vld .q0 .a1 16,
  .vld .q1 .a1 16,
  .vld .q2 .a1 16,
  .vld .q3 .a1 16,
  .vst .q0 .a0 16,
  .vst .q1 .a0 16,
  .vst .q2 .a0 16,
  .vst .q3 .a0 16,
  .addi .a2 .a2 (-64),
  .li .t0 64,
  .bgeu .a2 .t0 .Lmc64]

/-- Copies one block a turn. -/
def memcpy16 : Code := [
  .li .t0 16,
  .bltu .a2 .t0 .LmcWord,
  .vld .q0 .a1 16,
  .vst .q0 .a0 16,
  .addi .a2 .a2 (-16),
  .j .Lmc16]

/-- Goes on by words when both pointers are at word boundaries. -/
def memcpyWord : Code := [
  .or .t0 .a0 .a1,
  .andi .t0 .t0 3,
  .bnez .t0 .LmcByte]

/-- Copies one word a turn. -/
def memcpyWordLoop : Code := [
  .li .t0 4,
  .bltu .a2 .t0 .LmcByte,
  .lw .t1 0 .a1,
  .sw .t1 0 .a0,
  .addi .a0 .a0 4,
  .addi .a1 .a1 4,
  .addi .a2 .a2 (-4),
  .j .LmcWordLoop]

/-- Copies one byte a turn. -/
def memcpyByte : Code := [
  .beqz .a2 .LmcDone,
  .lbu .t0 0 .a1,
  .sb .t0 0 .a0,
  .addi .a0 .a0 1,
  .addi .a1 .a1 1,
  .addi .a2 .a2 (-1),
  .j .LmcByte]

/-- Returns the destination. -/
def memcpyDone : Code := [
  .mv .a0 .t6,
  .ret]

/-! ## `void *s31_xespv_memset(void *d, int c, size_t n)` -/

/-- Counts the bytes to the next block boundary; fewer than 64 bytes go to the words. -/
def memsetEntry : Code := [
  .mv .t6 .a0,
  .andi .a1 .a1 255,
  .li .t0 64,
  .bltu .a2 .t0 .LmsWordSetup,
  .andi .t0 .a0 15,
  .beqz .t0 .LmsPattern,
  .li .t1 16,
  .sub .t0 .t1 .t0]

/-- Stores single bytes up to the block boundary. -/
def memsetAlign : Code := [
  .sb .a1 0 .a0,
  .addi .a0 .a0 1,
  .addi .a2 .a2 (-1),
  .addi .t0 .t0 (-1),
  .bnez .t0 .LmsAlign]

/-- Makes a vector of the byte through the stack. -/
def memsetPattern : Code := [
  .li .t0 0x01010101,
  .mul .t1 .a1 .t0,
  .addi .sp .sp (-16),
  .sw .t1 0 .sp,
  .sw .t1 4 .sp,
  .sw .t1 8 .sp,
  .sw .t1 12 .sp,
  .mv .a3 .sp,
  .vld .q0 .a3 0,
  .addi .sp .sp 16]

/-- Stores four blocks a turn. -/
def memset64 : Code := [
  .li .t0 64,
  .bltu .a2 .t0 .Lms16,
  .vst .q0 .a0 16,
  .vst .q0 .a0 16,
  .vst .q0 .a0 16,
  .vst .q0 .a0 16,
  .addi .a2 .a2 (-64),
  .j .Lms64]

/-- Stores one block a turn. -/
def memset16 : Code := [
  .li .t0 16,
  .bltu .a2 .t0 .LmsWordSetup,
  .vst .q0 .a0 16,
  .addi .a2 .a2 (-16),
  .j .Lms16]

/-- Makes a word of the byte. -/
def memsetWordSetup : Code := [
  .li .t0 0x01010101,
  .mul .t1 .a1 .t0]

/-- Stores one word a turn, from a word boundary on. -/
def memsetWord : Code := [
  .li .t0 4,
  .bltu .a2 .t0 .LmsByte,
  .andi .t0 .a0 3,
  .bnez .t0 .LmsByte,
  .sw .t1 0 .a0,
  .addi .a0 .a0 4,
  .addi .a2 .a2 (-4),
  .j .LmsWord]

/-- Stores one byte a turn. -/
def memsetByte : Code := [
  .beqz .a2 .LmsDone,
  .sb .a1 0 .a0,
  .addi .a0 .a0 1,
  .addi .a2 .a2 (-1),
  .j .LmsByte]

/-- Returns the destination. -/
def memsetDone : Code := [
  .mv .a0 .t6,
  .ret]

/-! ## `void *s31_xespv_memmove(void *d, const void *s, size_t n)` -/

/-- Copies backwards only when the destination lies above, within the source. -/
def memmoveEntry : Code := [
  .mv .t6 .a0,
  .beq .a0 .a1 .LmmDone,
  .bltu .a0 .a1 .LmmForward,
  .add .t0 .a1 .a2,
  .bgeu .a0 .t0 .LmmForward,
  .add .a0 .a0 .a2,
  .add .a1 .a1 .a2,
  .li .t0 64,
  .bltu .a2 .t0 .LmmBackByte,
  .or .t0 .a0 .a1,
  .andi .t0 .t0 15,
  .bnez .t0 .LmmBackByte]

/-- Copies four blocks a turn from the end, when both ends are at block boundaries. -/
def memmoveBack64 : Code := [
  .li .t0 64,
  .bltu .a2 .t0 .LmmBack16,
  .addi .a1 .a1 (-64),
  .addi .a0 .a0 (-64),
  -- the block accesses advance copies of the two pointers
  .mv .a3 .a1,
  .mv .a4 .a0,
  .vld .q0 .a3 16,
  .vld .q1 .a3 16,
  .vld .q2 .a3 16,
  .vld .q3 .a3 16,
  .vst .q0 .a4 16,
  .vst .q1 .a4 16,
  .vst .q2 .a4 16,
  .vst .q3 .a4 16,
  .addi .a2 .a2 (-64),
  .j .LmmBack64]

/-- Copies one block a turn from the end. -/
def memmoveBack16 : Code := [
  .li .t0 16,
  .bltu .a2 .t0 .LmmBackByte,
  .addi .a1 .a1 (-16),
  .addi .a0 .a0 (-16),
  .mv .a3 .a1,
  .mv .a4 .a0,
  .vld .q0 .a3 0,
  .vst .q0 .a4 0,
  .addi .a2 .a2 (-16),
  .j .LmmBack16]

/-- Copies one byte a turn from the end. -/
def memmoveBackByte : Code := [
  .beqz .a2 .LmmDone,
  .addi .a0 .a0 (-1),
  .addi .a1 .a1 (-1),
  .lbu .t0 0 .a1,
  .sb .t0 0 .a0,
  .addi .a2 .a2 (-1),
  .j .LmmBackByte]

/-- Copies forwards by `memcpy`. -/
def memmoveForward : Code := [
  .mv .a0 .t6,
  .j .s31XespvMemcpy]

/-- Returns the destination. -/
def memmoveDone : Code := [
  .mv .a0 .t6,
  .ret]

/-! ## Byte patterns -/

/-- `BYTE_PATTERN`: sixteen times the low byte of a register in `q1`. -/
def bytePattern (reg : Reg) : Code := [
  .andi reg reg 255,
  .li .t0 0x01010101,
  .mul .t1 reg .t0,
  .addi .sp .sp (-16),
  .sw .t1 0 .sp,
  .sw .t1 4 .sp,
  .sw .t1 8 .sp,
  .sw .t1 12 .sp,
  .mv .a3 .sp,
  .vld .q1 .a3 0,
  .addi .sp .sp 16]

/-! ## `void *s31_xespv_memchr(const void *s, int c, size_t n)` -/

/-- Makes the vector of the byte that is looked for. -/
def memchrEntry : Code := bytePattern .a1

/-- Looks at single bytes up to a block boundary. -/
def memchrAlign : Code := [
  .beqz .a2 .LmchNull,
  .andi .t0 .a0 15,
  .beqz .t0 .LmchVecCheck,
  .lbu .t0 0 .a0,
  .beq .t0 .a1 .LmchDone,
  .addi .a0 .a0 1,
  .addi .a2 .a2 (-1),
  .j .LmchAlign]

/-- Compares one block a turn; the two registers are saved around it. -/
def memchrVecCheck : Code := [
  .li .t0 16,
  .bltu .a2 .t0 .LmchTail,
  .addi .sp .sp (-32),
  .sw .s0 16 .sp,
  .mv .s0 .a0,
  -- the mask goes through the frame into `t0`
  .vld .q0 .a0 0,
  .vcmpEqU8 .q2 .q0 .q1,
  .mv .a3 .sp,
  .vst .q2 .a3 0,
  .fence,
  .lw .t0 0 .sp,
  .lw .t1 4 .sp,
  .or .t0 .t0 .t1,
  .lw .t1 8 .sp,
  .or .t0 .t0 .t1,
  .lw .t1 12 .sp,
  .or .t0 .t0 .t1,
  .mv .a0 .s0,
  .lw .s0 16 .sp,
  .addi .sp .sp 32,
  .bnez .t0 .LmchHit,
  .addi .a0 .a0 16,
  .addi .a2 .a2 (-16),
  .j .LmchVecCheck]

/-- Looks for the byte in the block where it is. -/
def memchrHit : Code := [
  .lbu .t0 0 .a0,
  .beq .t0 .a1 .LmchDone,
  .addi .a0 .a0 1,
  .addi .a2 .a2 (-1),
  .j .LmchHit]

/-- Looks at the bytes after the last whole block. -/
def memchrTail : Code := [
  .beqz .a2 .LmchNull,
  .lbu .t0 0 .a0,
  .beq .t0 .a1 .LmchDone,
  .addi .a0 .a0 1,
  .addi .a2 .a2 (-1),
  .j .LmchTail]

/-- The byte is not there. -/
def memchrNull : Code := [
  .li .a0 0]

/-- Returns the address in `a0`. -/
def memchrDone : Code := [
  .ret]

/-! ## `void *s31_xespv_memrchr(const void *s, int c, size_t n)` -/

/-- Starts behind the last byte, with the vector of the byte that is looked for. -/
def memrchrEntry : Code := [
  .add .a0 .a0 .a2] ++
  bytePattern .a1

/-- Looks at single bytes from the end, down to a block boundary. -/
def memrchrAlign : Code := [
  .beqz .a2 .LmrNull,
  .andi .t0 .a0 15,
  .beqz .t0 .LmrVecCheck,
  .addi .a0 .a0 (-1),
  .lbu .t0 0 .a0,
  .beq .t0 .a1 .LmrDone,
  .addi .a2 .a2 (-1),
  .j .LmrAlign]

/-- Compares one block a turn, downwards. -/
def memrchrVecCheck : Code := [
  .li .t0 16,
  .bltu .a2 .t0 .LmrTail,
  .addi .a0 .a0 (-16),
  .addi .sp .sp (-32),
  .sw .s0 16 .sp,
  .mv .s0 .a0,
  -- the mask goes through the frame into `t0`
  .vld .q0 .a0 0,
  .vcmpEqU8 .q2 .q0 .q1,
  .mv .a3 .sp,
  .vst .q2 .a3 0,
  .fence,
  .lw .t0 0 .sp,
  .lw .t1 4 .sp,
  .or .t0 .t0 .t1,
  .lw .t1 8 .sp,
  .or .t0 .t0 .t1,
  .lw .t1 12 .sp,
  .or .t0 .t0 .t1,
  .mv .a0 .s0,
  .lw .s0 16 .sp,
  .addi .sp .sp 32,
  .bnez .t0 .LmrHit,
  .addi .a2 .a2 (-16),
  .j .LmrVecCheck]

/-- Goes to the end of the block where the byte is. -/
def memrchrHit : Code := [
  .addi .a0 .a0 16]

/-- Looks for the byte in that block, from its end. -/
def memrchrHitLoop : Code := [
  .addi .a0 .a0 (-1),
  .lbu .t0 0 .a0,
  .beq .t0 .a1 .LmrDone,
  .j .LmrHitLoop]

/-- Looks at the bytes below the last whole block. -/
def memrchrTail : Code := [
  .beqz .a2 .LmrNull,
  .addi .a0 .a0 (-1),
  .lbu .t0 0 .a0,
  .beq .t0 .a1 .LmrDone,
  .addi .a2 .a2 (-1),
  .j .LmrTail]

/-- The byte is not there. -/
def memrchrNull : Code := [
  .li .a0 0]

/-- Returns the address in `a0`. -/
def memrchrDone : Code := [
  .ret]

/-! ## `int s31_xespv_memcmp(const void *a, const void *b, size_t n)` -/

/-- Takes the blocks while both pointers are at block boundaries. -/
def memcmpAlign : Code := [
  .beqz .a2 .LcmpEqual,
  .or .t0 .a0 .a1,
  .andi .t0 .t0 15,
  .beqz .t0 .LcmpVec]

/-- Compares one byte. -/
def memcmpByte : Code := [
  .lbu .t0 0 .a0,
  .lbu .t1 0 .a1,
  .bne .t0 .t1 .LcmpDiff,
  .addi .a0 .a0 1,
  .addi .a1 .a1 1,
  .addi .a2 .a2 (-1),
  .bnez .a2 .LcmpAlign]

/-- No difference was found. -/
def memcmpEqual : Code := [
  .li .a0 0,
  .ret]

/-- Compares one block by a call of `s31_xespv_eq16`, with the registers saved. -/
def memcmpVec : Code := [
  .li .t0 16,
  .bltu .a2 .t0 .LcmpByte,
  .addi .sp .sp (-48),
  .sw .s0 32 .sp,
  .sw .s1 36 .sp,
  .sw .s2 40 .sp,
  .sw .ra 44 .sp,
  .mv .s0 .a0,
  .mv .s1 .a1,
  .mv .s2 .a2,
  .mv .a2 .a1,
  .mv .a1 .a0,
  .mv .a0 .sp,
  .call .s31XespvEq16 .memcmpReturn]

/-- Looks whether all lanes of the mask are ones. -/
def memcmpReturn : Code := [
  .lw .t0 0 .sp,
  .lw .t1 4 .sp,
  .and .t0 .t0 .t1,
  .lw .t1 8 .sp,
  .and .t0 .t0 .t1,
  .lw .t1 12 .sp,
  .and .t0 .t0 .t1,
  -- the arguments and the saved registers come back
  .mv .a0 .s0,
  .mv .a1 .s1,
  .mv .a2 .s2,
  .lw .s0 32 .sp,
  .lw .s1 36 .sp,
  .lw .s2 40 .sp,
  .lw .ra 44 .sp,
  .addi .sp .sp 48,
  -- every lane is ones where the blocks are equal
  .li .t1 (-1),
  .bne .t0 .t1 .LcmpByte,
  .addi .a0 .a0 16,
  .addi .a1 .a1 16,
  .addi .a2 .a2 (-16),
  .j .LcmpAlign]

/-- Returns the difference of the two bytes. -/
def memcmpDiff : Code := [
  .sub .a0 .t0 .t1,
  .ret]

/-! ## `size_t s31_xespv_strnlen(const char *s, size_t maxlen)` -/

/-- Makes a vector of zeros through the stack. -/
def strnlenEntry : Code := [
  .mv .t6 .a0,
  .addi .sp .sp (-16),
  .sw .zero 0 .sp,
  .sw .zero 4 .sp,
  .sw .zero 8 .sp,
  .sw .zero 12 .sp,
  .mv .a3 .sp,
  .vld .q1 .a3 0,
  .addi .sp .sp 16]

/-- Looks at single bytes up to a block boundary. -/
def strnlenAlign : Code := [
  .beqz .a1 .LsnDone,
  .andi .t0 .a0 15,
  .beqz .t0 .LsnVec,
  .lbu .t0 0 .a0,
  .beqz .t0 .LsnDone,
  .addi .a0 .a0 1,
  .addi .a1 .a1 (-1),
  .j .LsnAlign]

/-- Looks for a zero in one block a turn. -/
def strnlenVec : Code := [
  .li .t0 16,
  .bltu .a1 .t0 .LsnTail,
  .addi .sp .sp (-32),
  .sw .s0 16 .sp,
  .mv .s0 .a0,
  -- the mask of the zeros goes through the frame into `t0`
  .vld .q0 .a0 0,
  .vcmpEqU8 .q2 .q0 .q1,
  .mv .a3 .sp,
  .vst .q2 .a3 0,
  .fence,
  .lw .t0 0 .sp,
  .lw .t1 4 .sp,
  .or .t0 .t0 .t1,
  .lw .t1 8 .sp,
  .or .t0 .t0 .t1,
  .lw .t1 12 .sp,
  .or .t0 .t0 .t1,
  .mv .a0 .s0,
  .lw .s0 16 .sp,
  .addi .sp .sp 32,
  .bnez .t0 .LsnTail,
  .addi .a0 .a0 16,
  .addi .a1 .a1 (-16),
  .j .LsnVec]

/-- Looks at the bytes after the last whole block, or in the one with the zero. -/
def strnlenTail : Code := [
  .beqz .a1 .LsnDone,
  .lbu .t0 0 .a0,
  .beqz .t0 .LsnDone,
  .addi .a0 .a0 1,
  .addi .a1 .a1 (-1),
  .j .LsnTail]

/-- Returns the distance from the start. -/
def strnlenDone : Code := [
  .sub .a0 .a0 .t6,
  .ret]

/-! ## `size_t s31_xespv_strlen(const char *s)` -/

/-- `strnlen` without a bound. -/
def strlenEntry : Code := [
  .li .a1 (-1),
  .j .s31XespvStrnlen]

/-! ## `char *s31_xespv_strchrnul(const char *s, int c)` -/

/-- Makes the vectors of the byte that is looked for and of zeros. -/
def strchrnulEntry : Code := bytePattern .a1 ++ [
  .addi .sp .sp (-16),
  .sw .zero 0 .sp,
  .sw .zero 4 .sp,
  .sw .zero 8 .sp,
  .sw .zero 12 .sp,
  .mv .a3 .sp,
  .vld .q3 .a3 0,
  .addi .sp .sp 16]

/-- Takes the blocks at a block boundary. -/
def strchrnulAlign : Code := [
  .andi .t0 .a0 15,
  .beqz .t0 .LscVec]

/-- Looks at one byte. -/
def strchrnulByte : Code := [
  .lbu .t0 0 .a0,
  .beqz .t0 .LscDone,
  .beq .t0 .a1 .LscDone,
  .addi .a0 .a0 1,
  .j .LscAlign]

/-- Looks for the byte or a zero in one block. -/
def strchrnulVec : Code := [
  .addi .sp .sp (-48),
  .sw .s0 32 .sp,
  .mv .s0 .a0,
  .vld .q0 .a0 0,
  -- the mask of the byte, and that of the zeros
  .vcmpEqU8 .q2 .q0 .q1,
  .vcmpEqU8 .q4 .q0 .q3,
  .mv .a3 .sp,
  .vst .q4 .a3 16,
  .vst .q2 .a3 0,
  .fence,
  .lw .t0 0 .sp,
  .lw .t1 4 .sp,
  .or .t0 .t0 .t1,
  .lw .t1 8 .sp,
  .or .t0 .t0 .t1,
  .lw .t1 12 .sp,
  .or .t0 .t0 .t1,
  .lw .t1 16 .sp,
  .or .t0 .t0 .t1,
  .lw .t1 20 .sp,
  .or .t0 .t0 .t1,
  .lw .t1 24 .sp,
  .or .t0 .t0 .t1,
  .lw .t1 28 .sp,
  .or .t0 .t0 .t1,
  .mv .a0 .s0,
  .lw .s0 32 .sp,
  .addi .sp .sp 48,
  .bnez .t0 .LscByte,
  .addi .a0 .a0 16,
  .j .LscVec]

/-- Returns the address in `a0`. -/
def strchrnulDone : Code := [
  .ret]

/-! ## `char *s31_xespv_strchr(const char *s, int c)` -/

/-- Calls `strchrnul`; the argument is kept as it is. -/
def strchrEntry : Code := [
  .addi .sp .sp (-16),
  .sw .ra 12 .sp,
  .sw .s0 8 .sp,
  .mv .s0 .a1,
  .call .s31XespvStrchrnul .strchrReturn]

/-- The byte at the address found is compared with the whole argument. -/
def strchrReturn : Code := [
  .lbu .t0 0 .a0,
  .beq .t0 .s0 .LschDone,
  .li .a0 0]

/-- Restores the registers and returns. -/
def strchrDone : Code := [
  .lw .s0 8 .sp,
  .lw .ra 12 .sp,
  .addi .sp .sp 16,
  .ret]

/-! ## `int s31_xespv_strcmp(const char *a, const char *b)` -/

/-- Makes a vector of zeros when the pointers have one place within a block. -/
def strcmpEntry : Code := [
  .xor .t0 .a0 .a1,
  .andi .t0 .t0 15,
  .bnez .t0 .LstcmpByte,
  .addi .sp .sp (-16),
  .sw .zero 0 .sp,
  .sw .zero 4 .sp,
  .sw .zero 8 .sp,
  .sw .zero 12 .sp,
  .mv .a3 .sp,
  .vld .q3 .a3 0,
  .addi .sp .sp 16]

/-- Takes the blocks when the first pointer is at a block boundary. -/
def strcmpAlign : Code := [
  .andi .t0 .a0 15,
  .beqz .t0 .LstcmpVec]

/-- Compares one byte; the next turn tests the first pointer again. -/
def strcmpByte : Code := [
  .lbu .t0 0 .a0,
  .lbu .t1 0 .a1,
  .bne .t0 .t1 .LstcmpDiff,
  .beqz .t0 .LstcmpEqual,
  .addi .a0 .a0 1,
  .addi .a1 .a1 1,
  .j .LstcmpAlign]

/-- Compares one block of both strings and looks for a zero in it. -/
def strcmpVec : Code := [
  .addi .sp .sp (-48),
  .sw .s0 32 .sp,
  .sw .s1 36 .sp,
  .mv .s0 .a0,
  .mv .s1 .a1,
  .vld .q0 .a0 0,
  .vld .q1 .a1 0,
  -- where the blocks are equal, and where the first has a zero
  .vcmpEqU8 .q2 .q0 .q1,
  .vcmpEqU8 .q4 .q0 .q3,
  .mv .a3 .sp,
  .vst .q4 .a3 16,
  .vst .q2 .a3 0,
  .fence,
  .lw .t0 0 .sp,
  .lw .t1 4 .sp,
  .or .t0 .t0 .t1,
  .lw .t1 8 .sp,
  .or .t0 .t0 .t1,
  .lw .t1 12 .sp,
  .or .t0 .t0 .t1,
  -- all lanes must be equal, and none zero
  .lw .t2 16 .sp,
  .lw .t1 20 .sp,
  .and .t2 .t2 .t1,
  .lw .t1 24 .sp,
  .and .t2 .t2 .t1,
  .lw .t1 28 .sp,
  .and .t2 .t2 .t1,
  .mv .a0 .s0,
  .mv .a1 .s1,
  .lw .s0 32 .sp,
  .lw .s1 36 .sp,
  .addi .sp .sp 48,
  .li .t1 (-1),
  .bne .t2 .t1 .LstcmpByte,
  .bnez .t0 .LstcmpByte,
  .addi .a0 .a0 16,
  .addi .a1 .a1 16,
  .j .LstcmpVec]

/-- Returns the difference of the two bytes. -/
def strcmpDiff : Code := [
  .sub .a0 .t0 .t1,
  .ret]

/-- Both strings end here. -/
def strcmpEqual : Code := [
  .li .a0 0,
  .ret]

/-! ## `char *s31_xespv_stpcpy(char *d, const char *s)` -/

/-- Makes a vector of zeros when the pointers have one place within a block. -/
def stpcpyEntry : Code := [
  .xor .t0 .a0 .a1,
  .andi .t0 .t0 15,
  .bnez .t0 .LstpcByte,
  .addi .sp .sp (-16),
  .sw .zero 0 .sp,
  .sw .zero 4 .sp,
  .sw .zero 8 .sp,
  .sw .zero 12 .sp,
  .mv .a3 .sp,
  .vld .q1 .a3 0,
  .addi .sp .sp 16]

/-- Takes the blocks when the source is at a block boundary. -/
def stpcpyAlign : Code := [
  .andi .t0 .a1 15,
  .beqz .t0 .LstpcVec]

/-- Copies one byte; the next turn tests the source again. -/
def stpcpyByte : Code := [
  .lbu .t0 0 .a1,
  .sb .t0 0 .a0,
  .beqz .t0 .LstpcDone,
  .addi .a0 .a0 1,
  .addi .a1 .a1 1,
  .j .LstpcAlign]

/-- Copies a block without a zero. -/
def stpcpyVec : Code := [
  .addi .sp .sp (-32),
  .sw .s0 16 .sp,
  .sw .s1 20 .sp,
  .mv .s0 .a0,
  .mv .s1 .a1,
  -- the mask of the zeros goes through the frame into `t0`
  .vld .q0 .a1 0,
  .vcmpEqU8 .q2 .q0 .q1,
  .mv .a3 .sp,
  .vst .q2 .a3 0,
  .fence,
  .lw .t0 0 .sp,
  .lw .t1 4 .sp,
  .or .t0 .t0 .t1,
  .lw .t1 8 .sp,
  .or .t0 .t0 .t1,
  .lw .t1 12 .sp,
  .or .t0 .t0 .t1,
  .mv .a0 .s0,
  .mv .a1 .s1,
  .lw .s0 16 .sp,
  .lw .s1 20 .sp,
  .addi .sp .sp 32,
  .bnez .t0 .LstpcByte]

/-- The rest of the block at `.Lstpc_vec`: the whole vector is stored. -/
def stpcpyStore : Code := [
  .vst .q0 .a0 0,
  .addi .a0 .a0 16,
  .addi .a1 .a1 16,
  .j .LstpcVec]

/-- Returns the address of the terminator. -/
def stpcpyDone : Code := [
  .ret]

/-! ## `char *s31_xespv_strcpy(char *d, const char *s)` -/

/-- Calls `stpcpy` with the destination kept. -/
def strcpyEntry : Code := [
  .addi .sp .sp (-16),
  .sw .ra 12 .sp,
  .sw .s0 8 .sp,
  .mv .s0 .a0,
  .call .s31XespvStpcpy .strcpyReturn]

/-- Returns the destination. -/
def strcpyReturn : Code := [
  .mv .a0 .s0,
  .lw .s0 8 .sp,
  .lw .ra 12 .sp,
  .addi .sp .sp 16,
  .ret]

/-! ## `void *s31_xespv_memccpy(void *d, const void *s, int c, size_t n)` -/

/-- Looks for the byte in the source by `memchr`. -/
def memccpyEntry : Code := [
  .addi .sp .sp (-32),
  .sw .ra 28 .sp,
  .sw .s0 24 .sp,
  .sw .s1 20 .sp,
  .sw .s2 16 .sp,
  .mv .s0 .a0,
  .mv .s1 .a1,
  .mv .s2 .a3,
  .mv .a0 .a1,
  .mv .a1 .a2,
  .mv .a2 .a3,
  .call .s31XespvMemchr .memccpySearchReturn]

/-- The number of bytes up to the one found. -/
def memccpySearchReturn : Code := [
  .beqz .a0 .LmccNone,
  .sub .s2 .a0 .s1,
  .addi .s2 .s2 1]

/-- Copies them by `memcpy`. -/
def memccpyCopy : Code := [
  .mv .a0 .s0,
  .mv .a1 .s1,
  .mv .a2 .s2,
  .call .s31XespvMemcpy .memccpyCopyReturn]

/-- Returns the address behind the byte. -/
def memccpyCopyReturn : Code := [
  .add .a0 .s0 .s2,
  .j .LmccDone]

/-- Without the byte, everything is copied. -/
def memccpyNone : Code := [
  .beqz .s2 .LmccDone,
  .mv .a0 .s0,
  .mv .a1 .s1,
  .mv .a2 .s2,
  .call .s31XespvMemcpy .memccpyNoneReturn]

/-- Then the result is NULL. -/
def memccpyNoneReturn : Code := [
  .li .a0 0]

/-- Restores the registers and returns. -/
def memccpyDone : Code := [
  .lw .s2 16 .sp,
  .lw .s1 20 .sp,
  .lw .s0 24 .sp,
  .lw .ra 28 .sp,
  .addi .sp .sp 32,
  .ret]

/-! ## `char *s31_xespv_stpncpy(char *d, const char *s, size_t n)` -/

/-- Measures the source by `strnlen`. -/
def stpncpyEntry : Code := [
  .addi .sp .sp (-32),
  .sw .ra 28 .sp,
  .sw .s0 24 .sp,
  .sw .s1 20 .sp,
  .sw .s2 16 .sp,
  .sw .s3 12 .sp,
  .mv .s0 .a0,
  .mv .s1 .a1,
  .mv .s2 .a2,
  .mv .a0 .a1,
  .mv .a1 .a2,
  .call .s31XespvStrnlen .stpncpyLengthReturn]

/-- The terminator is copied when there is room for it. -/
def stpncpyLengthReturn : Code := [
  .mv .s3 .a0,
  .beq .s3 .s2 .LstpnFull,
  .addi .t1 .s3 1,
  .j .LstpnCopy]

/-- Without a terminator within the size. -/
def stpncpyFull : Code := [
  .mv .t1 .s3]

/-- Copies by `memcpy`. -/
def stpncpyCopy : Code := [
  .mv .a0 .s0,
  .mv .a1 .s1,
  .mv .a2 .t1,
  .call .s31XespvMemcpy .stpncpyCopyReturn]

/-- Fills what is left with zeros by `memset`. -/
def stpncpyCopyReturn : Code := [
  .beq .s3 .s2 .LstpnRetEnd,
  .add .s1 .s0 .s3,
  .addi .t1 .s3 1,
  .addi .a0 .s1 1,
  .sub .a2 .s2 .t1,
  .li .a1 0,
  .call .s31XespvMemset .stpncpyFillReturn]

/-- Returns the address of the terminator. -/
def stpncpyFillReturn : Code := [
  .mv .a0 .s1,
  .j .LstpnDone]

/-- Returns the end of the buffer. -/
def stpncpyRetEnd : Code := [
  .add .a0 .s0 .s2]

/-- Restores the registers and returns. -/
def stpncpyDone : Code := [
  .lw .s3 12 .sp,
  .lw .s2 16 .sp,
  .lw .s1 20 .sp,
  .lw .s0 24 .sp,
  .lw .ra 28 .sp,
  .addi .sp .sp 32,
  .ret]

/-! ## `char *s31_xespv_strncpy(char *d, const char *s, size_t n)` -/

/-- Calls `stpncpy` with the destination kept. -/
def strncpyEntry : Code := [
  .addi .sp .sp (-16),
  .sw .ra 12 .sp,
  .sw .s0 8 .sp,
  .mv .s0 .a0,
  .call .s31XespvStpncpy .strncpyReturn]

/-- Returns the destination. -/
def strncpyReturn : Code := [
  .mv .a0 .s0,
  .lw .s0 8 .sp,
  .lw .ra 12 .sp,
  .addi .sp .sp 16,
  .ret]

/-! ## `size_t s31_xespv_strlcpy(char *d, const char *s, size_t size)` -/

/-- Measures the source by `strlen`. -/
def strlcpyEntry : Code := [
  .addi .sp .sp (-32),
  .sw .ra 28 .sp,
  .sw .s0 24 .sp,
  .sw .s1 20 .sp,
  .sw .s2 16 .sp,
  .sw .s3 12 .sp,
  .sw .s4 8 .sp,
  .mv .s0 .a0,
  .mv .s1 .a1,
  .mv .s2 .a2,
  .mv .a0 .a1,
  .call .s31XespvStrlen .strlcpyLengthReturn]

/-- Copies as much as leaves room for the terminator, and nothing into no room. -/
def strlcpyLengthReturn : Code := [
  .mv .s3 .a0,
  .mv .s4 .s3,
  .beqz .s2 .LslDone,
  .addi .t1 .s2 (-1),
  .bltu .s4 .t1 .LslLenOk,
  .mv .s4 .t1]

/-- Copies by `memcpy`. -/
def strlcpyLenOk : Code := [
  .mv .a0 .s0,
  .mv .a1 .s1,
  .mv .a2 .s4,
  .call .s31XespvMemcpy .strlcpyCopyReturn]

/-- Stores the terminator. -/
def strlcpyCopyReturn : Code := [
  .add .t1 .s0 .s4,
  .sb .zero 0 .t1]

/-- Returns the length of the source. -/
def strlcpyDone : Code := [
  .mv .a0 .s3,
  .lw .s4 8 .sp,
  .lw .s3 12 .sp,
  .lw .s2 16 .sp,
  .lw .s1 20 .sp,
  .lw .s0 24 .sp,
  .lw .ra 28 .sp,
  .addi .sp .sp 32,
  .ret]

/-! ## `s31_xespv_add_sat_u8`: saturating unsigned byte add -/

/-- Takes the blocks only when all three pointers are at block boundaries. -/
def addSatU8Entry : Code := [
  .or .t0 .a0 .a1,
  .or .t0 .t0 .a2,
  .andi .t0 .t0 15,
  .bnez .t0 .LvaByte]

/-- Adds one block a turn. -/
def addSatU8Vec : Code := [
  .li .t0 16,
  .bltu .a3 .t0 .LvaByte,
  .vld .q0 .a1 16,
  .vld .q1 .a2 16,
  .vaddU8 .q2 .q0 .q1,
  .vst .q2 .a0 16,
  .addi .a3 .a3 (-16),
  .j .LvaVec]

/-- Adds one byte; a sum from 256 on becomes 255. -/
def addSatU8Byte : Code := [
  .beqz .a3 .LvaDone,
  .lbu .t0 0 .a1,
  .lbu .t1 0 .a2,
  .add .t0 .t0 .t1,
  .sltiu .t1 .t0 256,
  .bnez .t1 .LvaStore,
  .li .t0 255]

/-- Stores the sum and goes on. -/
def addSatU8Store : Code := [
  .sb .t0 0 .a0,
  .addi .a0 .a0 1,
  .addi .a1 .a1 1,
  .addi .a2 .a2 1,
  .addi .a3 .a3 (-1),
  .j .LvaByte]

/-- Returns. -/
def addSatU8Done : Code := [
  .ret]

/-! ## The program -/

/-- Each label's code, to the end of its function. -/
def memopsCode : Label → Code
  -- a label's code runs on into that of the labels behind it
  | .s31XespvEq16 => eq16Entry
  | .s31XespvMemcpy =>
    memcpyEntry ++ (memcpy64 ++ (memcpy16 ++ (memcpyWord ++ (memcpyWordLoop ++ (memcpyByte ++
      memcpyDone)))))
  | .Lmc64 =>
    memcpy64 ++ (memcpy16 ++ (memcpyWord ++ (memcpyWordLoop ++ (memcpyByte ++ memcpyDone))))
  | .Lmc16 => memcpy16 ++ (memcpyWord ++ (memcpyWordLoop ++ (memcpyByte ++ memcpyDone)))
  | .LmcWord => memcpyWord ++ (memcpyWordLoop ++ (memcpyByte ++ memcpyDone))
  | .LmcWordLoop => memcpyWordLoop ++ (memcpyByte ++ memcpyDone)
  | .LmcByte => memcpyByte ++ memcpyDone
  | .LmcDone => memcpyDone
  | .s31XespvMemset =>
    memsetEntry ++ (memsetAlign ++ (memsetPattern ++ (memset64 ++ (memset16 ++ (memsetWordSetup ++
      (memsetWord ++ (memsetByte ++ memsetDone)))))))
  | .LmsAlign =>
    memsetAlign ++ (memsetPattern ++ (memset64 ++ (memset16 ++ (memsetWordSetup ++ (memsetWord ++
      (memsetByte ++ memsetDone))))))
  | .LmsPattern =>
    memsetPattern ++ (memset64 ++ (memset16 ++ (memsetWordSetup ++ (memsetWord ++ (memsetByte ++
      memsetDone)))))
  | .Lms64 =>
    memset64 ++ (memset16 ++ (memsetWordSetup ++ (memsetWord ++ (memsetByte ++ memsetDone))))
  | .Lms16 => memset16 ++ (memsetWordSetup ++ (memsetWord ++ (memsetByte ++ memsetDone)))
  | .LmsWordSetup => memsetWordSetup ++ (memsetWord ++ (memsetByte ++ memsetDone))
  | .LmsWord => memsetWord ++ (memsetByte ++ memsetDone)
  | .LmsByte => memsetByte ++ memsetDone
  | .LmsDone => memsetDone
  | .s31XespvMemmove =>
    memmoveEntry ++ (memmoveBack64 ++ (memmoveBack16 ++ (memmoveBackByte ++ (memmoveForward ++
      memmoveDone))))
  | .LmmBack64 =>
    memmoveBack64 ++ (memmoveBack16 ++ (memmoveBackByte ++ (memmoveForward ++ memmoveDone)))
  | .LmmBack16 => memmoveBack16 ++ (memmoveBackByte ++ (memmoveForward ++ memmoveDone))
  | .LmmBackByte => memmoveBackByte ++ (memmoveForward ++ memmoveDone)
  | .LmmForward => memmoveForward ++ memmoveDone
  | .LmmDone => memmoveDone
  | .s31XespvMemchr =>
    memchrEntry ++ (memchrAlign ++ (memchrVecCheck ++ (memchrHit ++ (memchrTail ++ (memchrNull ++
      memchrDone)))))
  | .LmchAlign =>
    memchrAlign ++ (memchrVecCheck ++ (memchrHit ++ (memchrTail ++ (memchrNull ++ memchrDone))))
  | .LmchVecCheck => memchrVecCheck ++ (memchrHit ++ (memchrTail ++ (memchrNull ++ memchrDone)))
  | .LmchHit => memchrHit ++ (memchrTail ++ (memchrNull ++ memchrDone))
  | .LmchTail => memchrTail ++ (memchrNull ++ memchrDone)
  | .LmchNull => memchrNull ++ memchrDone
  | .LmchDone => memchrDone
  | .s31XespvMemrchr =>
    memrchrEntry ++ (memrchrAlign ++ (memrchrVecCheck ++ (memrchrHit ++ (memrchrHitLoop ++
      (memrchrTail ++ (memrchrNull ++ memrchrDone))))))
  | .LmrAlign =>
    memrchrAlign ++ (memrchrVecCheck ++ (memrchrHit ++ (memrchrHitLoop ++ (memrchrTail ++
      (memrchrNull ++ memrchrDone)))))
  | .LmrVecCheck =>
    memrchrVecCheck ++ (memrchrHit ++ (memrchrHitLoop ++ (memrchrTail ++ (memrchrNull ++
      memrchrDone))))
  | .LmrHit => memrchrHit ++ (memrchrHitLoop ++ (memrchrTail ++ (memrchrNull ++ memrchrDone)))
  | .LmrHitLoop => memrchrHitLoop ++ (memrchrTail ++ (memrchrNull ++ memrchrDone))
  | .LmrTail => memrchrTail ++ (memrchrNull ++ memrchrDone)
  | .LmrNull => memrchrNull ++ memrchrDone
  | .LmrDone => memrchrDone
  | .s31XespvMemcmp =>
    memcmpAlign ++ (memcmpByte ++ (memcmpEqual ++ (memcmpVec ++ (memcmpReturn ++ memcmpDiff))))
  | .LcmpAlign =>
    memcmpAlign ++ (memcmpByte ++ (memcmpEqual ++ (memcmpVec ++ (memcmpReturn ++ memcmpDiff))))
  | .LcmpByte => memcmpByte ++ (memcmpEqual ++ (memcmpVec ++ (memcmpReturn ++ memcmpDiff)))
  | .LcmpEqual => memcmpEqual ++ (memcmpVec ++ (memcmpReturn ++ memcmpDiff))
  | .LcmpVec => memcmpVec ++ (memcmpReturn ++ memcmpDiff)
  | .memcmpReturn => memcmpReturn ++ memcmpDiff
  | .LcmpDiff => memcmpDiff
  | .s31XespvStrnlen =>
    strnlenEntry ++ (strnlenAlign ++ (strnlenVec ++ (strnlenTail ++ strnlenDone)))
  | .LsnAlign => strnlenAlign ++ (strnlenVec ++ (strnlenTail ++ strnlenDone))
  | .LsnVec => strnlenVec ++ (strnlenTail ++ strnlenDone)
  | .LsnTail => strnlenTail ++ strnlenDone
  | .LsnDone => strnlenDone
  | .s31XespvStrlen => strlenEntry
  | .s31XespvStrchrnul =>
    strchrnulEntry ++ (strchrnulAlign ++ (strchrnulByte ++ (strchrnulVec ++ strchrnulDone)))
  | .LscAlign => strchrnulAlign ++ (strchrnulByte ++ (strchrnulVec ++ strchrnulDone))
  | .LscByte => strchrnulByte ++ (strchrnulVec ++ strchrnulDone)
  | .LscVec => strchrnulVec ++ strchrnulDone
  | .LscDone => strchrnulDone
  | .s31XespvStrchr => strchrEntry ++ (strchrReturn ++ strchrDone)
  | .strchrReturn => strchrReturn ++ strchrDone
  | .LschDone => strchrDone
  | .s31XespvStrcmp =>
    strcmpEntry ++ (strcmpAlign ++ (strcmpByte ++ (strcmpVec ++ (strcmpDiff ++ strcmpEqual))))
  | .LstcmpAlign => strcmpAlign ++ (strcmpByte ++ (strcmpVec ++ (strcmpDiff ++ strcmpEqual)))
  | .LstcmpByte => strcmpByte ++ (strcmpVec ++ (strcmpDiff ++ strcmpEqual))
  | .LstcmpVec => strcmpVec ++ (strcmpDiff ++ strcmpEqual)
  | .LstcmpDiff => strcmpDiff ++ strcmpEqual
  | .LstcmpEqual => strcmpEqual
  | .s31XespvStpcpy =>
    stpcpyEntry ++ (stpcpyAlign ++ (stpcpyByte ++ (stpcpyVec ++ (stpcpyStore ++ stpcpyDone))))
  | .LstpcAlign => stpcpyAlign ++ (stpcpyByte ++ (stpcpyVec ++ (stpcpyStore ++ stpcpyDone)))
  | .LstpcByte => stpcpyByte ++ (stpcpyVec ++ (stpcpyStore ++ stpcpyDone))
  | .LstpcVec => stpcpyVec ++ (stpcpyStore ++ stpcpyDone)
  | .LstpcDone => stpcpyDone
  | .s31XespvStrcpy => strcpyEntry ++ strcpyReturn
  | .strcpyReturn => strcpyReturn
  | .s31XespvMemccpy =>
    memccpyEntry ++ (memccpySearchReturn ++ (memccpyCopy ++ (memccpyCopyReturn ++ (memccpyNone ++
      (memccpyNoneReturn ++ memccpyDone)))))
  | .memccpySearchReturn =>
    memccpySearchReturn ++ (memccpyCopy ++ (memccpyCopyReturn ++ (memccpyNone ++ (memccpyNoneReturn
      ++ memccpyDone))))
  | .LmccCopy =>
    memccpyCopy ++ (memccpyCopyReturn ++ (memccpyNone ++ (memccpyNoneReturn ++ memccpyDone)))
  | .memccpyCopyReturn => memccpyCopyReturn ++ (memccpyNone ++ (memccpyNoneReturn ++ memccpyDone))
  | .LmccNone => memccpyNone ++ (memccpyNoneReturn ++ memccpyDone)
  | .memccpyNoneReturn => memccpyNoneReturn ++ memccpyDone
  | .LmccDone => memccpyDone
  | .s31XespvStpncpy =>
    stpncpyEntry ++ (stpncpyLengthReturn ++ (stpncpyFull ++ (stpncpyCopy ++ (stpncpyCopyReturn ++
      (stpncpyFillReturn ++ (stpncpyRetEnd ++ stpncpyDone))))))
  | .stpncpyLengthReturn =>
    stpncpyLengthReturn ++ (stpncpyFull ++ (stpncpyCopy ++ (stpncpyCopyReturn ++ (stpncpyFillReturn
      ++ (stpncpyRetEnd ++ stpncpyDone)))))
  | .LstpnFull =>
    stpncpyFull ++ (stpncpyCopy ++ (stpncpyCopyReturn ++ (stpncpyFillReturn ++ (stpncpyRetEnd ++
      stpncpyDone))))
  | .LstpnCopy =>
    stpncpyCopy ++ (stpncpyCopyReturn ++ (stpncpyFillReturn ++ (stpncpyRetEnd ++ stpncpyDone)))
  | .stpncpyCopyReturn => stpncpyCopyReturn ++ (stpncpyFillReturn ++ (stpncpyRetEnd ++ stpncpyDone))
  | .stpncpyFillReturn => stpncpyFillReturn ++ (stpncpyRetEnd ++ stpncpyDone)
  | .LstpnRetEnd => stpncpyRetEnd ++ stpncpyDone
  | .LstpnDone => stpncpyDone
  | .s31XespvStrncpy => strncpyEntry ++ strncpyReturn
  | .strncpyReturn => strncpyReturn
  | .s31XespvStrlcpy =>
    strlcpyEntry ++ (strlcpyLengthReturn ++ (strlcpyLenOk ++ (strlcpyCopyReturn ++ strlcpyDone)))
  | .strlcpyLengthReturn =>
    strlcpyLengthReturn ++ (strlcpyLenOk ++ (strlcpyCopyReturn ++ strlcpyDone))
  | .LslLenOk => strlcpyLenOk ++ (strlcpyCopyReturn ++ strlcpyDone)
  | .strlcpyCopyReturn => strlcpyCopyReturn ++ strlcpyDone
  | .LslDone => strlcpyDone
  | .s31XespvAddSatU8 =>
    addSatU8Entry ++ (addSatU8Vec ++ (addSatU8Byte ++ (addSatU8Store ++ addSatU8Done)))
  | .LvaVec => addSatU8Vec ++ (addSatU8Byte ++ (addSatU8Store ++ addSatU8Done))
  | .LvaByte => addSatU8Byte ++ (addSatU8Store ++ addSatU8Done)
  | .LvaStore => addSatU8Store ++ addSatU8Done
  | .LvaDone => addSatU8Done

/-- The program of `s31_xespv_strcmp`, `s31_xespv_stpcpy` and `s31_xespv_strcpy`: the
    only call among them is in `s31_xespv_strcpy` and returns to `returnAddr`. -/
def memops (returnAddr : Addr) : Program Label where
  code := memopsCode
  addr := fun _ => returnAddr
  returns := [.strcpyReturn]

/-- The instructions that calls of the routines return to. -/
def returnLabels : List Label :=
  [.memcmpReturn, .strchrReturn, .strcpyReturn, .memccpySearchReturn, .memccpyCopyReturn,
   .memccpyNoneReturn, .stpncpyLengthReturn, .stpncpyCopyReturn, .stpncpyFillReturn,
   .strncpyReturn, .strlcpyLengthReturn, .strlcpyCopyReturn]

/-- All routines, the instructions after their calls placed at `addr`. -/
def memopsAt (addr : Label → Addr) : Program Label where
  code := memopsCode
  addr := addr
  returns := returnLabels

/-- The public operations `esp_simd_*`. -/
inductive Operation where
  | memcpy
  | memset
  | memmove
  | memchr
  | memrchr
  | memcmp
  | memccpy
  | strlen
  | strnlen
  | strchrnul
  | strchr
  | strcmp
  | stpcpy
  | strcpy
  | stpncpy
  | strncpy
  | strlcpy
  | eqU8x16
  | addSatU8
deriving DecidableEq, Repr

/-- The routine an operation calls, with its own arguments in their order, once
    `esp_simd_init` has succeeded. -/
def Operation.routine : Operation → Label
  | .memcpy => .s31XespvMemcpy
  | .memset => .s31XespvMemset
  | .memmove => .s31XespvMemmove
  | .memchr => .s31XespvMemchr
  | .memrchr => .s31XespvMemrchr
  | .memcmp => .s31XespvMemcmp
  | .memccpy => .s31XespvMemccpy
  | .strlen => .s31XespvStrlen
  | .strnlen => .s31XespvStrnlen
  | .strchrnul => .s31XespvStrchrnul
  | .strchr => .s31XespvStrchr
  | .strcmp => .s31XespvStrcmp
  | .stpcpy => .s31XespvStpcpy
  | .strcpy => .s31XespvStrcpy
  | .stpncpy => .s31XespvStpncpy
  | .strncpy => .s31XespvStrncpy
  | .strlcpy => .s31XespvStrlcpy
  | .eqU8x16 => .s31XespvEq16
  | .addSatU8 => .s31XespvAddSatU8

end EspS31.Xespv
