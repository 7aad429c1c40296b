import Spdy.Frame
import Spdy.Text.Quoted

/-!
# Errors

* `Refusal` : why a frame cannot be encoded, `ConfigFault` : why a configuration is invalid,
  `SocketFault` : what went wrong with the connection;
* `Error` : why a call fails, with its `Error.message`, made of an `ErrorKind` and a detail;
* `Fault`, `Reason` : what is wrong with received bytes;
* `StreamException`, `SessionException` : what the reader reports about received bytes.
-/

namespace Spdy

/-! ## Causes -/

/-- Why a frame cannot be encoded. -/
inductive Refusal
  | settingTooWide (id : UInt32)
  | tooManyHeaders (version : Version) (count : Nat)
  | fieldTooLong (version : Version) (length : Nat)
  | payloadTooLarge (type : FrameType) (length : Nat)
  | negativeWindow (window : Int) (streamId : UInt32)
  | statusMissing (status : StreamStatus) (version : Version)
  | declined (reason : String)
deriving DecidableEq, Inhabited

def Refusal.message : Refusal → String
  | settingTooWide id => s!"setting id {id} exceeds 24 bits"
  | tooManyHeaders v n => s!"too many headers for {v.text}: {n}"
  | fieldTooLong v n => s!"header field too long for {v.text}: {n}"
  | payloadTooLarge t n => s!"{t.name} payload too large: {n} bytes"
  | negativeWindow w id => s!"negative window {w} for stream {id}"
  | statusMissing s v => s!"{s.name} does not exist in {v.text}"
  | declined reason => reason

/-- Why a configuration is invalid. -/
inductive ConfigFault
  | initialStreamId (id : UInt32)
  | initialWindow (size : Int)
  | maxDataFrame (size : Nat)
deriving DecidableEq, Inhabited

def ConfigFault.message : ConfigFault → String
  | initialStreamId id => s!"initial stream id must be 1 or 2, got {id}"
  | initialWindow n => s!"initial window size must be positive, got {n}"
  | maxDataFrame n => s!"max data frame size must be in 1..=16777215, got {n}"

/-- What went wrong with the connection. -/
inductive SocketFault
  | brokenPipe (text : String)
  | connectionReset (text : String)
  | writeZero
deriving DecidableEq, Inhabited

def SocketFault.message : SocketFault → String
  | brokenPipe text => text
  | connectionReset text => text
  | writeZero => "write zero"

def SocketFault.text : SocketFault → String
  | brokenPipe text => s!"Custom \x7b kind: BrokenPipe, error: {Quoted.encode text} \x7d"
  | connectionReset text =>
    s!"Custom \x7b kind: ConnectionReset, error: {Quoted.encode text} \x7d"
  | writeZero => "Kind(WriteZero)"

/-! ## Errors of calls -/

inductive ErrorKind
  | streamCreation
  | unsupported
  | streamClosed
  | sessionClosed
  | generation
  | protocol
  | config
  | io
deriving DecidableEq, Inhabited

namespace ErrorKind

def name : ErrorKind → String
  | streamCreation => "StreamCreation"
  | unsupported => "Unsupported"
  | streamClosed => "StreamClosed"
  | sessionClosed => "SessionClosed"
  | generation => "Generation"
  | protocol => "Protocol"
  | config => "Config"
  | io => "Io"

/-- The wording of an error of the kind, given its detail. -/
def describe (detail : String) : ErrorKind → String
  | streamCreation => "Stream creation failed: " ++ detail
  | unsupported => "Unsupported operation: " ++ detail
  | streamClosed => "Stream " ++ detail ++ " is closed"
  | sessionClosed => "Session is closed"
  | generation => "Frame generation error: " ++ detail
  | protocol => "Protocol error: " ++ detail
  | config => "Invalid configuration: " ++ detail
  | io => "IO error: " ++ detail

end ErrorKind

/-- Why a call fails. -/
inductive Error
  | streamCreation (id : UInt32) (cause : Refusal)
  | unidirectional
  | streamClosed (id : UInt32)
  | sessionClosed
  | generation (cause : Refusal)
  | windowOverflow (id : UInt32) (window delta : Int)
  | config (cause : ConfigFault)
  | io (cause : SocketFault)
deriving DecidableEq, Inhabited

namespace Error

def kind : Error → ErrorKind
  | streamCreation .. => .streamCreation
  | unidirectional => .unsupported
  | streamClosed .. => .streamClosed
  | sessionClosed => .sessionClosed
  | generation .. => .generation
  | windowOverflow .. => .protocol
  | config .. => .config
  | io .. => .io

def detail : Error → String
  | streamCreation id cause => s!"stream {id}: {ErrorKind.generation.describe cause.message}"
  | unidirectional => "unidirectional streams"
  | streamClosed id => toString id
  | sessionClosed => ""
  | generation cause => cause.message
  | windowOverflow id w d => s!"window of stream {id} overflows: {w} + {d}"
  | config cause => cause.message
  | io cause => cause.message

def message (e : Error) : String := e.kind.describe e.detail

end Error

/-! ## Faults of received bytes -/

/-- Why the payload of a control frame cannot be read. -/
inductive Fault
  | tooShort (needed found : Nat)
  | truncatedBlock
  | fieldTooLong (length : Nat)
  | notUnicode
  | emptyName
deriving DecidableEq, Inhabited

def Fault.message : Fault → String
  | tooShort needed found => s!"expected {needed} more bytes, found {found}"
  | truncatedBlock => "truncated header block"
  | fieldTooLong n => s!"header field length {n} exceeds payload"
  | notUnicode => "header field is not UTF-8"
  | emptyName => "empty header name"

inductive Reason
  | unsupportedVersion (code : Nat)
  | malformed (type : FrameType) (fault : Fault)
  | dataOnStreamZero
  | stated (text : String)
deriving DecidableEq, Inhabited

def Reason.message : Reason → String
  | unsupportedVersion n => s!"unsupported version {n}"
  | malformed t fault => s!"malformed {t.name}: {fault.message}"
  | dataOnStreamZero => "data frame on stream 0"
  | stated text => text

/-- Received bytes break a rule of one stream, which is to be reset with the status. -/
structure StreamException where
  streamId : UInt32
  status : StreamStatus
  reason : Reason
deriving DecidableEq, Inhabited

def StreamException.message (e : StreamException) : String :=
  s!"Stream {e.streamId} error ({e.status.name}): {e.reason.message}"

/-- Received bytes break a rule of the whole session, which is to end with the status. -/
structure SessionException where
  status : SessionStatus
  reason : Reason
deriving DecidableEq, Inhabited

def SessionException.message (e : SessionException) : String :=
  s!"Session error ({e.status.name}): {e.reason.message}"

end Spdy
