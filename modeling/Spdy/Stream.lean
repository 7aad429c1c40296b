import Spdy.Message
import Spdy.Error

/-!
# Streams

* `Listener` : someone who is told what happens, known by name;
* `StreamRef` : names one stream of a session for good, whatever becomes of its id;
* `Stream` : ids, flags and send window of a stream;
* `Stream.credit` : moves the send window within the range of 32-bit integers.
-/

namespace Spdy

/-- Someone who is told what happens in a session. One name is one listener. -/
structure Listener where
  name : String
deriving DecidableEq, Inhabited

/-- Names one stream of a session by the number of streams that the session knew before. A peer may use an id again; a
serial number is used once. -/
structure StreamRef where
  serial : Nat
deriving DecidableEq, Inhabited

/-- One stream of a session. The window is what may be sent, and negative after the peer shrank it. A side that has
closed the stream says nothing more on it; a stream is reset if one side gave it up. -/
structure Stream where
  id : UInt32
  version : Version
  priority : UInt8
  window : Int
  localClosed : Bool := false
  remoteClosed : Bool := false
  reset : Bool := false
  listener : Option Listener := none
deriving DecidableEq, Inhabited

namespace Stream

/-- Neither side says anything more. -/
def isClosed (s : Stream) : Bool := s.localClosed && s.remoteClosed

def isHalfClosed (s : Stream) : Bool := s.localClosed || s.remoteClosed

/-- Whether data of the stream can be taken from the outbox: to be sent, or to be dropped. -/
def isReady (s : Stream) : Bool := s.reset || decide (0 < s.window)

/-! ## The send window -/

def maxWindow : Int := 2147483647

def minWindow : Int := -2147483648

/-- The stream with its window moved, unless the window would leave its range. -/
def credit (s : Stream) (delta : Int) : Except Error Stream :=
  if minWindow ≤ s.window + delta ∧ s.window + delta ≤ maxWindow then
    .ok { s with window := s.window + delta }
  else .error (.windowOverflow s.id s.window delta)

/-! ## Text -/

def text (s : Stream) : String :=
  s!"Stream \x7b id: {s.id}, version: {s.version.tag}, window: {s.window}, " ++
  s!"local_closed: {s.localClosed}, remote_closed: {s.remoteClosed}, reset: {s.reset} \x7d"

end Stream

end Spdy
