import Spdy.Rig

/-!
# Scripts

A rehearsal runs a session among players who act from a script: named listeners, a controller and
an application.

* `Step` : one thing to do, `Hook` : what a player does when it is called;
* `Stage` : what the controller and the encoder are told to do;
* `Result`, `Entry` : what is written down.
-/

namespace Spdy.Rehearsal

/-- How a step names a stream: the latest with an id, or the one that the call at hand is about. -/
inductive Target
  | id (n : UInt32)
  | this
deriving DecidableEq, Inhabited

/-- What a listener may be called for. -/
inductive Topic
  | created
  | closed
  | reset
  | settings
  | ping
  | goAway
  | opened
  | reply
  | headers
  | data
deriving DecidableEq, Inhabited

def Topic.of : Notice → Topic
  | .created _ => created
  | .closed _ => closed
  | .reset .. => reset
  | .settings _ => settings
  | .ping _ => ping
  | .goAway .. => goAway
  | .opened .. => opened
  | .reply .. => reply
  | .headers .. => headers
  | .data .. => data

/-- When a player acts: a listener is called, the controller is about to report a write or to return from one, or it is
asked to close the connection. -/
inductive Trigger
  | told (listener : Listener) (topic : Topic)
  | beforeReport
  | afterReport
  | closing
deriving DecidableEq, Inhabited

/-- Changes to what the controller and the encoder do; what is absent stays. -/
structure Change where
  deferred : Option Bool := none
  failWrites : Option Bool := none
  failData : Option Bool := none
  failTypes : Option (List FrameType) := none
  accept : Option (Option Listener) := none
deriving Inhabited

/-- What becomes of the other end of a socket: bytes arrive, and after them the end or an error; writing or shutting
down fails. -/
structure PeerAct where
  bytes : Bytes := []
  eof : Bool := false
  readError : Option String := none
  writeError : Option String := none
  shutdownError : Option String := none
deriving Inhabited

mutual

inductive Step
  | syn (version : Version) (opening : Opening) (listener : Option Listener)
  | reset (version : Version) (target : Target) (status : StreamStatus)
  | settings (version : Version) (message : SettingsMessage)
  | ping (version : Version)
  | goAway (version : Version)
  | reply (target : Target) (head : Head)
  | headers (target : Target) (head : Head)
  | data (target : Target) (payload : Payload)
  | sessionData (target : Target) (payload : Payload)
  | info (target : Target)
  | get (target : Target)
  | frame (f : ControlFrame)
  | dataFrame (f : DataFrame)
  | streamException (e : StreamException)
  | sessionException (e : SessionException)
  | recv (pieces : List Bytes)
  | complete (count : Nat)
  | fail (text : String)
  | dropPending
  | set (change : Change)
  | hook (h : Hook)
  | addStreamListener (listener : Listener)
  | addControlListener (listener : Listener)
  | removeStreamListener (listener : Listener)
  | removeControlListener (listener : Listener)
  | dropSession
  | panic (p : Panic)
  | both (steps : List Step)
  | peer (act : PeerAct)

/-- What a player does when it is called, as many times as `times` tells. -/
inductive Hook
  | mk (trigger : Trigger) (steps : List Step) (times : Nat)

end

instance : Inhabited Step := ⟨.dropPending⟩

instance : Inhabited Hook := ⟨.mk .closing [] 0⟩

namespace Step

/-- The word that a script uses for the step. -/
def word : Step → String
  | syn .. => "syn"
  | reset .. => "rst"
  | settings .. => "settings"
  | ping _ => "ping"
  | goAway _ => "go_away"
  | reply .. => "reply"
  | headers .. => "headers"
  | data .. => "data"
  | sessionData .. => "session_data"
  | info _ => "info"
  | get _ => "get"
  | frame _ => "frame"
  | dataFrame _ => "data_frame"
  | streamException _ => "stream_exception"
  | sessionException _ => "session_exception"
  | recv _ => "recv"
  | complete _ => "complete"
  | fail _ => "fail"
  | dropPending => "drop_pending"
  | set _ => "set"
  | hook _ => "hook"
  | addStreamListener _ => "add_stream_listener"
  | addControlListener _ => "add_control_listener"
  | removeStreamListener _ => "remove_stream_listener"
  | removeControlListener _ => "remove_control_listener"
  | dropSession => "drop_session"
  | panic _ => "panic"
  | both _ => "both"
  | peer _ => "peer"

end Step

namespace Hook

def trigger : Hook → Trigger
  | mk t _ _ => t

def steps : Hook → List Step
  | mk _ s _ => s

def times : Hook → Nat
  | mk _ _ n => n

def use : Hook → Hook
  | mk t s n => mk t s (n - 1)

/-- The first hook that a trigger sets off, and the hooks afterwards. -/
def select (t : Trigger) : List Hook → List Step × List Hook
  | [] => ([], [])
  | h :: rest =>
    if h.trigger = t ∧ 0 < h.times then (h.steps, h.use :: rest)
    else
      let (steps, rest) := select t rest
      (steps, h :: rest)

end Hook

/-- What the controller and the encoder are told to do: whether writes are reported later or fail, which frames cannot
be encoded, who is told of streams that the peer opens, the most data that one frame carries, and what the players do.
-/
structure Stage where
  deferred : Bool := false
  failWrites : Bool := false
  failData : Bool := false
  failTypes : List FrameType := []
  accept : Option Listener := none
  cap : Nat := Config.defaultMaxDataFrame
  hooks : List Hook := []
deriving Inhabited

namespace Stage

def change (s : Stage) (c : Change) : Stage :=
  { s with
    deferred := c.deferred.getD s.deferred
    failWrites := c.failWrites.getD s.failWrites
    failData := c.failData.getD s.failData
    failTypes := c.failTypes.getD s.failTypes
    accept := c.accept.getD s.accept }

def encoder (s : Stage) : Encoder where
  control f :=
    if f.type ∈ s.failTypes then .error (.declined ("refusing " ++ f.type.name))
    else (Encoder.standard s.cap).control f
  data id window payload :=
    if s.failData then .error (.declined "refusing data")
    else (Encoder.standard s.cap).data id window payload

end Stage

/-! ## What is written down -/

inductive Result
  | ok
  | failed (error : Error)
  | panicked (panic : Panic)
  | noStream
  | noSession
  | busy
  | stream (id : UInt32)
  | ping (id : UInt32)
  | read (failed : Bool)
  | completed (count : Nat)
  | reported (any : Bool)
  | dropped (handler : Option String)
  | bool (b : Bool)
  | stated (stream : Stream) (alive : Bool)
  | looked (stream : Option Stream)
deriving Inhabited

inductive Entry
  | note (n : Note)
  | readError (fault : SocketFault)
  | wrote (bytes : Bytes)
  | refusedWrite (bytes : Bytes)
  | closed (graceful : Bool)
  | told (listener : Listener) (streamId : UInt32) (notice : Notice)
  | step (word : String) (result : Result)
  | socketWrote (bytes : Bytes)
  | socketRefused
  | socketShut
deriving Inhabited

end Spdy.Rehearsal
