import Spdy.Wire.HeaderBlock

/-!
# What is received

* `decodeBody` : reads the payload of a control frame of a known version and type;
* `Received` : what a complete frame amounts to, a frame or an exception;
* `Received.ofFrame?` : reads a complete frame, given as its header and its payload.
-/

namespace Spdy

def priorityOfByte : Version → UInt8 → UInt8
  | .v2, b => b >>> 6
  | .v3, b => b >>> 5

/-- An entry of a SETTINGS frame, given as its eight bytes. -/
def Setting.ofBytes (b : Bytes) : Setting where
  id := .ofCode (Bytes.word ((b.drop 1).take 3))
  flags := b.octet 0
  value := Bytes.word (b.drop 4)

def Setting.listOfBytes : Nat → Bytes → List Setting
  | 0, _ => []
  | n + 1, b => .ofBytes (b.take 8) :: listOfBytes n (b.drop 8)

def decodeId : Decoder UInt32 := low31 <$> Decoder.word

def skipBlockPadding : Version → Decoder Unit
  | .v2 => (fun _ => ()) <$> Decoder.take 2
  | .v3 => return ()

/-- Reads the payload of a control frame. Bytes beyond the frame's fields are left over. -/
def decodeBody (v : Version) (flags : UInt8) : FrameType → Decoder Body
  | .synStream => do
    let b ← Decoder.take 10
    let h ← HeaderBlock.decode v
    return .synStream flags (low31 (Bytes.word (b.take 4))) (low31 (Bytes.word ((b.drop 4).take 4)))
      (priorityOfByte v (b.octet 8)) h
  | .synReply => do
    let id ← decodeId
    skipBlockPadding v
    return .synReply flags id (← HeaderBlock.decode v)
  | .rstStream => do
    let b ← Decoder.take 8
    return .rstStream (low31 (Bytes.word (b.take 4))) (Bytes.word (b.drop 4))
  | .settings => do
    let n ← Bytes.toNat <$> Decoder.take 4
    let b ← Decoder.take (n * 8)
    return .settings flags (Setting.listOfBytes n b)
  | .noop => return .noop
  | .ping => .ping <$> Decoder.word
  | .goAway => do
    let last ← decodeId
    match v with
    | .v2 => return .goAway last 0
    | .v3 => return .goAway last (← Decoder.word)
  | .headers => do
    let id ← decodeId
    skipBlockPadding v
    return .headers flags id (← HeaderBlock.decode v)
  | .windowUpdate => do
    let b ← Decoder.take 8
    return .windowUpdate (low31 (Bytes.word (b.take 4))) (low31 (Bytes.word (b.drop 4)))

/-! ## Complete frames -/

/-- What a complete frame amounts to. -/
inductive Received
  | control (frame : ControlFrame)
  | data (frame : DataFrame)
  | streamException (e : StreamException)
  | sessionException (e : SessionException)
deriving DecidableEq, Inhabited

namespace Received

def isFatal : Received → Bool
  | sessionException _ => true
  | _ => false

def isStreamScoped : FrameType → Bool
  | .synStream | .synReply | .rstStream | .headers | .windowUpdate => true
  | .settings | .noop | .ping | .goAway => false

/-- The stream that a malformed payload is about, if it gets as far as telling one. -/
def culprit? (t : FrameType) (payload : Bytes) : Option UInt32 :=
  if isStreamScoped t && 4 ≤ (payload.take 4).length && low31 (Bytes.word (payload.take 4)) != 0 then
    some (low31 (Bytes.word (payload.take 4)))
  else none

/-- A fault in a control frame is an exception of its stream if it tells one, and otherwise of the
session. -/
def malformed (t : FrameType) (payload : Bytes) (fault : Fault) : Received :=
  match culprit? t payload with
  | some id => streamException ⟨id, .protocolError, .malformed t fault⟩
  | none => sessionException ⟨.protocolError, .malformed t fault⟩

/-- Reads a control frame; one of unknown type is passed over. -/
def ofControl? (header payload : Bytes) : Option Received :=
  let code := Bytes.toNat (header.take 2) % 0x8000
  match Version.ofCode? code with
  | none => some (sessionException ⟨.protocolError, .unsupportedVersion code⟩)
  | some v =>
    (FrameType.ofCode? (Bytes.toNat ((header.drop 2).take 2))).map fun t =>
      match decodeBody v (header.octet 4) t payload with
      | .ok (body, _) => control ⟨v, body⟩
      | .error fault => malformed t payload fault

def ofData (header payload : Bytes) : Received :=
  let id := low31 (Bytes.word (header.take 4))
  if id = 0 then sessionException ⟨.protocolError, .dataOnStreamZero⟩
  else data ⟨id, header.octet 4, .ofNat (Bytes.toNat (header.drop 5)), payload⟩

def ofFrame? (header payload : Bytes) : Option Received :=
  if header.octet 0 < 0x80 then some (ofData header payload) else ofControl? header payload

end Received

end Spdy
