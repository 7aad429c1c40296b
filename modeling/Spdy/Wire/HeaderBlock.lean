import Spdy.Wire.Decoder

/-!
# Header blocks

A header block is the number of headers, and then for each header its name and its value, each
with its length before it. Counts and lengths take two bytes in `SPDY/2` and four in `SPDY/3`.

* `HeaderBlock.layout` : the block of a header list;
* `HeaderBlock.refusal?` : why a header list does not fit in a block;
* `HeaderBlock.decode` : reads a block.
-/

namespace Spdy

namespace HeaderBlock

def textBytes (s : String) : Bytes := s.toUTF8.data.toList

def width : Version → Nat
  | .v2 => 2
  | .v3 => 4

/-- The names and values of the headers, each name before its value. -/
def fields (h : Headers) : List String := h.toList.flatMap fun e => [e.1, e.2]

def layoutField (v : Version) (s : String) : Bytes :=
  Bytes.ofNat (width v) s.utf8ByteSize ++ textBytes s

def layout (v : Version) (h : Headers) : Bytes :=
  Bytes.ofNat (width v) h.size ++ (fields h).flatMap (layoutField v)

/-- Why a header list does not fit in a block: only `SPDY/2` is too narrow for some. -/
def refusal? : Version → Headers → Option Refusal
  | .v3, _ => none
  | .v2, h =>
    if 0xffff < h.size then some (.tooManyHeaders .v2 h.size)
    else ((fields h).find? fun s => 0xffff < s.utf8ByteSize).map fun s =>
      .fieldTooLong .v2 s.utf8ByteSize

/-! ## Reading -/

def decodeLength (v : Version) : Decoder Nat := do
  let b ← Decoder.takeOr (width v) fun _ => .truncatedBlock
  return b.toNat

def decodeField (v : Version) : Decoder String := do
  let n ← decodeLength v
  let b ← Decoder.takeOr n fun _ => .fieldTooLong n
  match String.fromUTF8? ⟨b.toArray⟩ with
  | some s => return s
  | none => throw .notUnicode

/-- Reads `n` headers and adds them to those already read. -/
def decodeEntries (v : Version) : Nat → Headers → Decoder Headers
  | 0, h => return h
  | n + 1, h => do
    let name ← decodeField v
    if name.isEmpty then throw .emptyName
    let value ← decodeField v
    decodeEntries v n (h.add name value)

def decode (v : Version) : Decoder Headers := do
  let n ← decodeLength v
  decodeEntries v n .empty

end HeaderBlock

end Spdy
