import Spdy.Session.State

/-!
# What a session says to the outside

* `Notice` : what a listener is told;
* `Call` : a call to a listener or to the controller of the connection, which the session awaits;
* `Panic` : why a call breaks off instead of returning;
* `Note` : a line of the session's log, with its `Note.level` and `Note.text`.
-/

namespace Spdy

/-- What a listener is told. -/
inductive Notice
  | created (stream : StreamRef)
  | closed (stream : StreamRef)
  | reset (streamId : UInt32) (status : StreamStatus)
  | settings (message : SettingsMessage)
  | ping (id : UInt32)
  | goAway (lastStreamId : UInt32) (status : SessionStatus)
  | opened (stream : StreamRef) (opening : Opening)
  | reply (stream : StreamRef) (head : Head)
  | headers (stream : StreamRef) (head : Head)
  | data (stream : StreamRef) (payload : Payload)
deriving DecidableEq, Inhabited

namespace Notice

def label : Notice → String
  | created _ => "stream created"
  | closed _ => "stream closed"
  | reset .. => "rst"
  | settings _ => "settings"
  | ping _ => "ping"
  | goAway .. => "go away"
  | opened .. => "syn"
  | reply .. => "reply"
  | headers .. => "headers"
  | data .. => "data"

/-- The stream that the notice is about, if it names one of the session's streams. -/
def stream? : Notice → Option StreamRef
  | created r | closed r | opened r _ | reply r _ | headers r _ | data r _ => some r
  | reset .. | settings _ | ping _ | goAway .. => none

end Notice

/-- A call that the session makes and waits for. The controller is to write a frame and to report it through the
handler, or to close the connection, after what was written if `graceful`; a listener is told something. -/
inductive Call
  | write (bytes : Bytes) (handler : Handler)
  | close (graceful : Bool)
  | tell (listener : Listener) (notice : Notice)
deriving DecidableEq, Inhabited

/-- Why a call breaks off instead of returning. Code outside the session raises a text, or something else. -/
inductive Panic
  | cannotGenerate (type : FrameType) (cause : Refusal)
  | cannotGoAway (cause : Refusal)
  | raised (text : Option String)
deriving DecidableEq, Inhabited

def Panic.message : Panic → String
  | cannotGenerate t cause => s!"Cannot generate {t.name}: {(Error.generation cause).message}"
  | cannotGoAway cause => s!"Cannot generate GOAWAY: {(Error.generation cause).message}"
  | raised text => text.getD "listener panicked"

/-! ## The log -/

/-- How grave a line of the log is. -/
inductive Level
  | info
  | warn
  | error
deriving DecidableEq, Inhabited

def Level.name : Level → String
  | info => "info"
  | warn => "warn"
  | error => "error"

/-- A line of the session's log. Streams and parcels are told as they were at the time. -/
inductive Note
  | resetRefused (streamId : UInt32) (cause : Refusal)
  | dataRefused (stream : Stream) (cause : Refusal)
  | echoRefused (version : Version) (pingId : UInt32) (cause : Refusal)
  | goAwayRefused (cause : Refusal)
  | flowControl (stream : Stream) (error : Error)
  | writeFailed (parcel : String) (fault : SocketFault)
  | listenerPanicked (notice : Notice) (panic : Panic)
  | streamException (e : StreamException)
  | sessionException (e : SessionException)
deriving DecidableEq, Inhabited

namespace Note

def level : Note → Level
  | writeFailed .. | sessionException _ => .warn
  | resetRefused .. | dataRefused .. | echoRefused .. | goAwayRefused _ | flowControl ..
  | listenerPanicked .. | streamException _ => .info

def text : Note → String
  | resetRefused id cause => s!"Could not reset stream {id}: {(Error.generation cause).message}"
  | dataRefused stream cause =>
    s!"Could not generate data for {stream.text}: {(Error.generation cause).message}"
  | echoRefused v id cause =>
    s!"Could not echo Ping(PingFrame \x7b version: {v.tag}, ping_id: {id} \x7d): " ++
    (Error.generation cause).message
  | goAwayRefused cause => s!"Could not send GOAWAY: {(Error.generation cause).message}"
  | flowControl stream error => s!"Flow control error on {stream.text}: {error.message}"
  | writeFailed parcel fault => s!"Write of {parcel} failed: {fault.message}"
  | listenerPanicked notice panic =>
    s!"Exception while notifying {notice.label}: {panic.message}"
  | streamException e => s!"Stream exception: {e.message}"
  | sessionException e => s!"Session exception: {e.message}"

end Note

end Spdy
