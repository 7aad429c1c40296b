import Spdy.Message
import Spdy.Wire.HeaderBlock

/-!
# Encoding of frames

* `Body.layout` : the payload of a control frame, `Body.refusal?` : why it has none;
* `ControlFrame.encode` : a control frame with its header;
* `DataFrame.encode` : a data frame with its header;
* `Payload.encodeChunk` : the next data frame of a payload, as large as a window and a cap allow;
* `Encoder` : what a session needs of an encoder, and `Encoder.standard`.
-/

namespace Spdy

/-! ## Control frames -/

/-- The priority as the high bits of its byte: two bits in `SPDY/2` and three in `SPDY/3`. -/
def priorityByte : Version → UInt8 → UInt8
  | .v2, p => (p &&& 3) <<< 6
  | .v3, p => (p &&& 7) <<< 5

/-- Two unused bytes that `SPDY/2` has between a stream id and a header block. -/
def blockPadding : Version → Bytes
  | .v2 => [0, 0]
  | .v3 => []

def Setting.layout (e : Setting) : Bytes :=
  e.flags :: Bytes.ofNat 3 e.id.code.toNat ++ Bytes.ofNat 4 e.value.toNat

def layoutId (id : UInt32) : Bytes := Bytes.ofNat 4 (low31 id).toNat

def Body.layout (v : Version) : Body → Bytes
  | .synStream _ id associated priority h =>
    layoutId id ++ layoutId associated ++ [priorityByte v priority, 0] ++ HeaderBlock.layout v h
  | .synReply _ id h => layoutId id ++ blockPadding v ++ HeaderBlock.layout v h
  | .rstStream id status => layoutId id ++ Bytes.ofNat 4 status.toNat
  | .settings _ entries => Bytes.ofNat 4 entries.length ++ entries.flatMap Setting.layout
  | .noop => []
  | .ping id => Bytes.ofNat 4 id.toNat
  | .goAway last status =>
    layoutId last ++ (match v with | .v2 => [] | .v3 => Bytes.ofNat 4 status.toNat)
  | .headers _ id h => layoutId id ++ blockPadding v ++ HeaderBlock.layout v h
  | .windowUpdate id delta => layoutId id ++ layoutId delta

/-- The first field of a control frame that does not fit in its place. -/
def Body.refusal? (v : Version) : Body → Option Refusal
  | .synStream _ _ _ _ h => HeaderBlock.refusal? v h
  | .synReply _ _ h => HeaderBlock.refusal? v h
  | .headers _ _ h => HeaderBlock.refusal? v h
  | .settings _ entries =>
    (entries.find? fun e => 0xffffff < e.id.code).map fun e => .settingTooWide e.id.code
  | .rstStream .. | .noop | .ping .. | .goAway .. | .windowUpdate .. => none

namespace ControlFrame

/-- The header of a control frame whose payload has a given length. -/
def header (f : ControlFrame) (length : Nat) : Bytes :=
  Bytes.ofNat 2 (0x8000 + f.version.code) ++ Bytes.ofNat 2 f.type.code ++
    f.body.flags :: Bytes.ofNat 3 length

/-- The bytes of a control frame. -/
def encode (f : ControlFrame) : Except Refusal Bytes :=
  match f.body.refusal? f.version with
  | some r => .error r
  | none =>
    let payload := f.body.layout f.version
    if maxFrameLength < payload.length then .error (.payloadTooLarge f.type payload.length)
    else .ok (f.header payload.length ++ payload)

end ControlFrame

/-! ## Data frames -/

def DataFrame.encode (f : DataFrame) : Bytes :=
  layoutId f.streamId ++ f.flags :: Bytes.ofNat 3 f.payload.length ++ f.payload

/-- The next data frame of a payload and what remains; the frame that takes the last byte tells
whether anything follows. -/
def Payload.chunk (cap : Nat) (streamId : UInt32) (window : Int) (p : Payload) :
    DataFrame × Payload :=
  let n := min window.toNat cap
  let rest := p.drop n
  ({ streamId, flags := Flag.when (rest.isEmpty && p.close) Flag.fin, length := .ofNat (p.take n).length,
     payload := p.take n }, rest)

theorem Payload.length_chunk (cap : Nat) (streamId : UInt32) (window : Int) (p : Payload) :
    (p.chunk cap streamId window).1.payload.length = min (min window.toNat cap) p.bytes.length :=
  List.length_take ..

theorem Payload.length_of_chunk {cap : Nat} {streamId : UInt32} {window : Int} {p rest : Payload} {frame : DataFrame}
    (h : p.chunk cap streamId window = (frame, rest)) :
    frame.payload.length = min (min window.toNat cap) p.bytes.length := by
  rw [← length_chunk cap streamId window p, h]

theorem Payload.length_chunk_le {cap : Nat} (hcap : cap ≤ maxFrameLength) (streamId : UInt32) (window : Int)
    (p : Payload) : (p.chunk cap streamId window).1.payload.length ≤ maxFrameLength := by
  rw [length_chunk]
  omega

/-- The next data frame of a payload as bytes, and what remains. A negative window takes
nothing. -/
def Payload.encodeChunk (cap : Nat) (streamId : UInt32) (window : Int) (p : Payload) :
    Except Refusal (Bytes × Payload) :=
  if window < 0 then .error (.negativeWindow window streamId)
  else .ok ((p.chunk cap streamId window).1.encode, (p.chunk cap streamId window).2)

/-! ## Encoders -/

/-- What a session needs of an encoder: the bytes of a control frame, and those of the next data frame of a stream
within a window, with what remains of the data. -/
structure Encoder where
  control : ControlFrame → Except Refusal Bytes
  data : UInt32 → Int → Payload → Except Refusal (Bytes × Payload)

namespace Encoder

/-- The cap on a data frame that is used when a size is asked for. -/
def clampCap (size : Nat) : Nat := max 1 (min size maxFrameLength)

theorem clampCap_le_maxFrameLength (size : Nat) : clampCap size ≤ maxFrameLength := by
  have hmax : maxFrameLength = 16777215 := rfl
  rw [clampCap]
  omega

/-- The encoder of the wire format, with at most `size` bytes of data in a frame. -/
def standard (size : Nat) : Encoder where
  control := ControlFrame.encode
  data := fun id window p => p.encodeChunk (clampCap size) id window

end Encoder

end Spdy
