import EspS31.ForStd.TracedBuffer
import EspS31.Native.Overlay

/-!
# `update_config` and its buffers

The function as the source has it: the text is copied to a buffer of its own, cut
into lines there, and the lines that stay are printed back one after the other,
each with a terminator that the next one overwrites.  `Overlay.updateConfig` is
the same function on texts.
-/

namespace EspS31.Overlay

open CText

/-- A buffer of characters, with the indices that were written. -/
abbrev CharBuffer := TracedBuffer Char

/-- The string in a buffer of `size` characters. -/
def bufferText (b : CharBuffer) (size : Nat) : Text := cstr (b.read size)

/-- Copies with the terminator. -/
def strcpy (b : CharBuffer) (s : Text) : CharBuffer := b.puts 0 (s ++ ['\x00'])

/-- Print `text` at offset `pos` where there is room for `room` characters, the
    terminator included; the length of the text is returned also if it is cut. -/
def snprintf (b : CharBuffer) (pos room : Nat) (text : Text) : CharBuffer × Nat :=
  (if room = 0 then b else b.puts pos (text.take (room - 1) ++ ['\x00']), text.length)

/-- The loop over the lines of the copy. -/
def keepLines (size : Nat) (name : Text) :
    List Text → CharBuffer → Nat → Option Errno × CharBuffer × Nat
  | [], config, used => (none, config, used)
  | line :: lines, config, used =>
    let nameLen := strcspn [' ', '\t'] line
    if name.length = nameLen ∧ line.take nameLen = name.take nameLen then
      keepLines size name lines config used
    else if used + line.length + 2 > size then (some .E2BIG, config, used)
    else
      let r := snprintf config used (size - used) (line ++ ['\n'])
      keepLines size name lines r.1 (used + r.2)

/-- The error, and what the function leaves in the caller's buffer and in its own. -/
structure UpdateResult where
  error : Option Errno
  config : CharBuffer
  old : CharBuffer

/-- `update_config`; `old` is the local buffer of `CONFIG_LEN` characters. -/
def updateConfigIn (config old : CharBuffer) (size : Nat) (name : Text)
    (replacement : Option Text) : UpdateResult :=
  let old := strcpy old (bufferText config size)
  match keepLines size name (strtok ['\n'] (bufferText old CONFIG_LEN)) (config.put 0 '\x00') 0 with
  | (some e, config, _) => ⟨some e, config, old⟩
  | (none, config, used) =>
    match replacement with
    | none => ⟨none, config, old⟩
    | some spec =>
      if used + spec.length + 2 > size then ⟨some .E2BIG, config, old⟩
      else ⟨none, (snprintf config used (size - used) (spec ++ ['\n'])).1, old⟩

end EspS31.Overlay
