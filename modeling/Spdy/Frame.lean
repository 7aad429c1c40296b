import Spdy.Headers
import Spdy.Setting
import Spdy.Status
import Spdy.Bytes

/-!
# Frames

* `FrameType` : the nine types of control frames, with their numbers;
* `Flag` : the bits of a frame's flag byte;
* `Body`, `ControlFrame` : a control frame is a version and a body;
* `DataFrame` : a piece of a stream's data;
* `headerLength`, `maxFrameLength` : the sizes every frame obeys;
* `low31` : ids carry 31 bits on the wire.
-/

namespace Spdy

/-- Every frame begins with a header of eight bytes. -/
def headerLength : Nat := 8

def maxFrameLength : Nat := 0xffffff

/-- The low 31 bits, which are what the wire carries of an id. -/
def low31 (n : UInt32) : UInt32 := n &&& 0x7fffffff

/-! ## Types -/

/-- The types of control frames. -/
inductive FrameType
  | synStream
  | synReply
  | rstStream
  | settings
  | noop
  | ping
  | goAway
  | headers
  | windowUpdate
deriving DecidableEq, Inhabited

namespace FrameType

def name : FrameType → String
  | synStream => "SynStream"
  | synReply => "SynReply"
  | rstStream => "RstStream"
  | settings => "Settings"
  | noop => "Noop"
  | ping => "Ping"
  | goAway => "GoAway"
  | headers => "Headers"
  | windowUpdate => "WindowUpdate"

/-- The number of the type. -/
def code : FrameType → Nat
  | synStream => 1
  | synReply => 2
  | rstStream => 3
  | settings => 4
  | noop => 5
  | ping => 6
  | goAway => 7
  | headers => 8
  | windowUpdate => 9

/-- The type with a given number, if there is one. -/
def ofCode? : Nat → Option FrameType
  | 1 => some synStream
  | 2 => some synReply
  | 3 => some rstStream
  | 4 => some settings
  | 5 => some noop
  | 6 => some ping
  | 7 => some goAway
  | 8 => some headers
  | 9 => some windowUpdate
  | _ => none

theorem ofCode?_eq_some_iff {n : Nat} {t : FrameType} : ofCode? n = some t ↔ t.code = n := by
  constructor
  · intro h
    unfold ofCode? at h
    split at h <;> cases h <;> rfl
  · rintro rfl
    cases t <;> rfl

end FrameType

/-! ## Flags -/

namespace Flag

def fin : UInt8 := 1

def unidirectional : UInt8 := 2

def clearSettings : UInt8 := 1

def has (flags bit : UInt8) : Bool := flags &&& bit != 0

def when (wanted : Bool) (bit : UInt8) : UInt8 := if wanted then bit else 0

theorem has_when_fin (b : Bool) : has (when b fin) fin = b := by cases b <;> decide

end Flag

/-! ## Control frames -/

/-- What a control frame says. -/
inductive Body
  | synStream (flags : UInt8) (streamId associatedId : UInt32) (priority : UInt8)
      (headers : Headers)
  | synReply (flags : UInt8) (streamId : UInt32) (headers : Headers)
  | rstStream (streamId status : UInt32)
  | settings (flags : UInt8) (entries : List Setting)
  | noop
  | ping (id : UInt32)
  | goAway (lastStreamId status : UInt32)
  | headers (flags : UInt8) (streamId : UInt32) (headers : Headers)
  | windowUpdate (streamId delta : UInt32)
deriving DecidableEq, Inhabited

namespace Body

/-- The type of the frame. -/
def type : Body → FrameType
  | synStream .. => .synStream
  | synReply .. => .synReply
  | rstStream .. => .rstStream
  | settings .. => .settings
  | noop => .noop
  | ping .. => .ping
  | goAway .. => .goAway
  | headers .. => .headers
  | windowUpdate .. => .windowUpdate

/-- The stream that the frame is about, if it is about one. -/
def streamId? : Body → Option UInt32
  | synStream _ id _ _ _ => some id
  | synReply _ id _ => some id
  | rstStream id _ => some id
  | headers _ id _ => some id
  | windowUpdate id _ => some id
  | settings .. | noop | ping .. | goAway .. => none

/-- The flag byte; the frames without flags have none set. -/
def flags : Body → UInt8
  | synStream f .. => f
  | synReply f .. => f
  | settings f .. => f
  | headers f .. => f
  | rstStream .. | noop | ping .. | goAway .. | windowUpdate .. => 0

/-- Whether the frame is the last thing its sender says on the stream. -/
def closes : Body → Bool
  | synStream f .. => Flag.has f Flag.fin
  | synReply f .. => Flag.has f Flag.fin
  | headers f .. => Flag.has f Flag.fin
  | rstStream .. | settings .. | noop | ping .. | goAway .. | windowUpdate .. => false

end Body

/-- A control frame. -/
structure ControlFrame where
  version : Version
  body : Body
deriving DecidableEq, Inhabited

namespace ControlFrame

def type (f : ControlFrame) : FrameType := f.body.type

end ControlFrame

/-! ## Data frames -/

/-- A piece of a stream's data, with the length that its header tells. -/
structure DataFrame where
  streamId : UInt32
  flags : UInt8
  length : UInt32
  payload : Bytes
deriving DecidableEq, Inhabited

namespace DataFrame

def closes (f : DataFrame) : Bool := Flag.has f.flags Flag.fin

end DataFrame

end Spdy
