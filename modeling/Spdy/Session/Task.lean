import Spdy.Session.Notice
import Spdy.Wire.Encoder

/-!
# The work of a session

An operation of a session is a list of tasks. A task either calls the outside and waits, or it
changes the session at once and leaves more tasks to be done in its place.

* `Task` : a piece of work, `Progress` : what it leaves;
* `Session.reset`, `Session.remove` : the ends of a stream;
* `Session.flush` : starts the next write;
* `Session.perform` : what each task does.
-/

namespace Spdy

/-- A piece of work.

A `call` is waited for. `flush` starts the next write if the outbox allows one, `endWrite` follows the call that made a
write, and `release` its report. `tell` goes through listeners one after another, `tellRegistered` through those who are
registered for session frames, and `announce` begins with the primary one. `reset` gives a stream up and lets the peer
know, `lose` follows the peer's giving it up, `overflow` gives up a stream whose window left its range, and `reclaim`
takes one out of the table if both sides are closed. `accept` asks the primary listener who is to be told of a stream
that the peer opened. -/
inductive Task
  | call (c : Call)
  | flush
  | endWrite (seq : Nat)
  | release
  | tell (listeners : List Listener) (notice : Notice)
  | announce (notice : Notice)
  | tellRegistered (notice : Notice)
  | reset (version : Version) (streamId : UInt32) (status : StreamStatus)
  | lose (streamId : UInt32)
  | overflow (stream : StreamRef) (error : Error)
  | reclaim (stream : StreamRef)
  | accept (stream : StreamRef) (opening : Opening)
deriving DecidableEq, Inhabited

/-- What a piece of work leaves: the session afterwards, the work that comes next, and lines of the log. -/
structure Progress where
  session : Session
  todo : List Task := []
  notes : List Note := []
deriving Inhabited

namespace Session

variable (enc : Encoder)

/-! ## The ends of a stream -/

def isRemote (s : Session) (id : UInt32) : Bool := !s.config.isLocal id

/-- The id of a peer's stream counts as done once both sides are closed. -/
def countDone (s : Session) (r : StreamRef) : Session :=
  let t := s.stream r
  if t.isClosed && s.isRemote t.id then { s with lastStreamId := max s.lastStreamId t.id } else s

/-- Takes the id of a stream out of the table, and lets the listeners know if it was there. -/
def remove (s : Session) (r : StreamRef) : Progress :=
  if (s.find? (s.idOf r)).isSome then
    let s := (s.forget (s.idOf r)).countDone r
    { session := s, todo := [.tell s.streamListeners (.closed r)] }
  else { session := s }

def encodeReset (version : Version) (id : UInt32) (status : StreamStatus) :
    Except Refusal Bytes :=
  match status.code? version with
  | none => .error (.statusMissing status version)
  | some n => enc.control ⟨version, .rstStream id (UInt32.ofNat n)⟩

/-- Gives a stream up and lets the peer know; nothing once the end of the session was announced.
The stream goes even if the frame cannot be encoded. -/
def reset (s : Session) (version : Version) (id : UInt32) (status : StreamStatus) : Progress :=
  if s.goAwaySent then { session := s }
  else
    let (s, notes) : Session × List Note :=
      match encodeReset enc version id status with
      | .ok bytes => (s.enqueue (.control .rstStream bytes none), [])
      | .error cause => (s, [.resetRefused id cause])
    match s.find? id with
    | none => { session := s, todo := [.flush], notes }
    | some r =>
      let gone := (s.markReset r).remove r
      { gone with todo := gone.todo ++ [.flush], notes }

/-! ## Writing -/

def write (s : Session) (bytes : Bytes) (p : Parcel) : Progress :=
  let outbox := s.outbox.beginWrite
  let handler : Handler := ⟨outbox.writes, p⟩
  { session := { s with outbox, outstanding := s.outstanding ++ [handler] }
    todo := [.call (.write bytes handler), .endWrite outbox.writes] }

/-- Starts the next write. Data is cut into a frame that fits the window, and data of a stream
that was given up is dropped. -/
def flush (s : Session) : Progress :=
  match s.take? with
  | none => { session := s }
  | some (.control t bytes r, s) => s.write bytes (.control t bytes r)
  | some (.data r payload _, s) =>
    let t := s.stream r
    if t.reset then { session := s.finish, todo := [.flush] }
    else
      match enc.data t.id t.window payload with
      | .ok (bytes, rest) => s.write bytes (.data r rest (bytes.length - headerLength))
      | .error cause =>
        { session := s.finish
          todo := [.reset t.version t.id .internalError]
          notes := [.dataRefused t cause] }

/-! ## Tasks -/

/-- What a task does at once; a call does nothing by itself. -/
def perform (s : Session) : Task → Progress
  | .call c => { session := s, todo := [.call c] }
  | .flush => s.flush enc
  | .endWrite seq =>
    let (go, outbox) := s.outbox.endWrite seq
    { session := { s with outbox }, todo := if go then [.flush] else [] }
  | .release =>
    let (go, outbox) := s.outbox.complete
    { session := { s with outbox }, todo := if go then [.flush] else [] }
  | .tell [] _ => { session := s }
  | .tell (l :: rest) notice => { session := s, todo := [.call (.tell l notice), .tell rest notice] }
  | .announce notice =>
    { session := s
      todo := s.primary.toList.map (fun l => .call (.tell l notice)) ++ [.tellRegistered notice] }
  | .tellRegistered notice => { session := s, todo := [.tell s.controlListeners notice] }
  | .reset version id status => s.reset enc version id status
  | .lose id =>
    match s.find? id with
    | none => { session := s }
    | some r => (s.markReset r).remove r
  | .overflow r error =>
    let t := s.stream r
    { session := s
      todo := [.reset t.version t.id .flowControlError]
      notes := [.flowControl t error] }
  | .reclaim r => if (s.stream r).isClosed then s.remove r else { session := s }
  | .accept r opening =>
    { session := s, todo := s.primary.toList.map fun l => .call (.tell l (.opened r opening)) }

end Session

end Spdy
