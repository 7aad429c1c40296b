import Spdy.Config
import Spdy.Outbox

/-!
# The state of a session

* `Handler` : the right to report one write;
* `Session` : streams, outbox, counters and listeners of one connection;
* `Session.stream`, `Session.find?` : streams by reference and by id;
* `Session.update`, `Session.register`, `Session.forget` : changes to the streams.
-/

namespace Spdy

/-- The right to report one write, with the number of the write and the parcel that is written. -/
structure Handler where
  seq : Nat
  parcel : Parcel
deriving DecidableEq, Inhabited

/-- One multiplexed connection, seen from one side.

`streams` are all there ever were, by serial number, and `table` the open ones, no two with the same id, in the order in
which they were opened. `lastStreamId` is the highest id among the peer's streams that ran to their end. `outstanding`
are the writes not reported yet, oldest first. `primary` is asked about streams that the peer opens and told of session
frames before those who are registered, who are told in order of registration. The session is `held` until the
application lets it go. -/
structure Session where
  config : Config
  primary : Option Listener
  streams : Array Stream := #[]
  table : List StreamRef := []
  nextStreamId : UInt32
  nextPingId : UInt32
  initialWindow : Int
  lastStreamId : UInt32 := 0
  goAwaySent : Bool := false
  goAwayReceived : Bool := false
  outbox : Outbox := {}
  outstanding : List Handler := []
  streamListeners : List Listener := []
  controlListeners : List Listener := []
  held : Bool := true
deriving Inhabited

namespace Session

/-- A session of a valid configuration. -/
def new (config : Config) (primary : Option Listener) : Except Error Session :=
  match config.fault? with
  | some fault => .error (.config fault)
  | none => .ok
    { config, primary, nextStreamId := config.initialStreamId,
      nextPingId := config.initialStreamId, initialWindow := config.initialWindow }

/-! ## Streams -/

def stream (s : Session) (r : StreamRef) : Stream := s.streams.getD r.serial default

def idOf (s : Session) (r : StreamRef) : UInt32 := (s.stream r).id

def find? (s : Session) (id : UInt32) : Option StreamRef := s.table.find? (s.idOf · == id)

def update (s : Session) (r : StreamRef) (f : Stream → Stream) : Session :=
  { s with streams := s.streams.modify r.serial f }

def nextRef (s : Session) : StreamRef := ⟨s.streams.size⟩

def forget (s : Session) (id : UInt32) : Session :=
  { s with table := s.table.filter (s.idOf · != id) }

/-- Enters a new stream into the table, in place of one with its id. -/
def register (s : Session) (t : Stream) : Session :=
  { s.forget t.id with
    streams := s.streams.push t
    table := (s.forget t.id).table ++ [s.nextRef] }

def closeLocal (s : Session) (r : StreamRef) : Session :=
  s.update r fun t => { t with localClosed := true }

def closeRemote (s : Session) (r : StreamRef) : Session :=
  s.update r fun t => { t with remoteClosed := true }

def markReset (s : Session) (r : StreamRef) : Session :=
  s.update r fun t => { t with reset := true }

/-! ## The outbox -/

def enqueue (s : Session) (p : Parcel) : Session := { s with outbox := s.outbox.enqueue p }

def take? (s : Session) : Option (Parcel × Session) :=
  (s.outbox.take? fun r => (s.stream r).isReady).map fun (p, o) => (p, { s with outbox := o })

/-- Puts the rest of a stream's data back, ahead of later data of the same id. -/
def putBack (s : Session) (r : StreamRef) (p : Parcel) : Session :=
  { s with outbox := s.outbox.putBack (s.idOf · == s.idOf r) p }

def finish (s : Session) : Session := { s with outbox := s.outbox.finish }

def dropHandler (s : Session) (seq : Nat) : Session :=
  { s with outstanding := s.outstanding.filter (·.seq != seq) }

/-! ## Listeners -/

def addStreamListener (s : Session) (l : Listener) : Session :=
  { s with streamListeners := s.streamListeners ++ [l] }

def addControlListener (s : Session) (l : Listener) : Session :=
  { s with controlListeners := s.controlListeners ++ [l] }

/-- Takes back the earliest registration of a listener for streams. -/
def removeStreamListener (s : Session) (l : Listener) : Session :=
  { s with streamListeners := s.streamListeners.erase l }

/-- Takes back the earliest registration of a listener for session frames. -/
def removeControlListener (s : Session) (l : Listener) : Session :=
  { s with controlListeners := s.controlListeners.erase l }

/-! ## Text -/

def text (s : Session) : String :=
  s!"Session \x7b initial_stream_id: {s.config.initialStreamId}, streams: {s.table.length}, " ++
  s!"queued: {s.outbox.size}, flushing: {s.outbox.busy}, go_away_sent: {s.goAwaySent}, " ++
  s!"go_away_received: {s.goAwayReceived} \x7d"

def handlerText (s : Session) (h : Handler) : String :=
  s!"WriteHandler \x7b unit: {h.parcel.text s.idOf} \x7d"

end Session

end Spdy
