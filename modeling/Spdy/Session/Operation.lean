import Spdy.Session.Task
import Spdy.Wire.Received

/-!
# The operations of a session

* `Operation` : what the application, the reader and the controller may ask of a session;
* `Outcome` : what an operation returns;
* `Session.begin` : what an operation does at once, and the tasks it leaves; requests of the
  application, then what the reader read, then reports of writes.
-/

namespace Spdy

/-- What may be asked of a session: requests of the application, what the reader read, and the controller's reports of
writes. `sessionData` is data asked of the session itself, which then is known to be there. -/
inductive Operation
  | syn (version : Version) (opening : Opening) (listener : Option Listener)
  | reset (version : Version) (streamId : UInt32) (status : StreamStatus)
  | settings (version : Version) (message : SettingsMessage)
  | ping (version : Version)
  | goAway (version : Version)
  | reply (stream : StreamRef) (head : Head)
  | headers (stream : StreamRef) (head : Head)
  | data (stream : StreamRef) (payload : Payload)
  | sessionData (stream : StreamRef) (payload : Payload)
  | receive (received : Received)
  | complete (seq : Nat)
  | fail (seq : Nat) (fault : SocketFault)
deriving DecidableEq, Inhabited

inductive Outcome
  | done
  | opened (stream : StreamRef)
  | pinged (id : UInt32)
  | failed (error : Error)
  | panicked (panic : Panic)
deriving DecidableEq, Inhabited

/-- An operation that has begun: what it left, and what it returns once nothing is left to do. -/
structure Begun extends Progress where
  outcome : Outcome := .done
deriving Inhabited

namespace Session

variable (enc : Encoder)

/-! ## Requests of the application -/

/-- Opens a stream. The id is used up even if the frame cannot be encoded. -/
def beginSyn (s : Session) (version : Version) (opening : Opening) (listener : Option Listener) :
    Begun :=
  if opening.unidirectional then { session := s, outcome := .failed .unidirectional }
  else if s.goAwaySent then { session := s, outcome := .failed .sessionClosed }
  else
    let id := s.nextStreamId
    let s := { s with nextStreamId := id + 2 }
    match enc.control ⟨version, .synStream opening.flags id opening.associatedId opening.priority
        opening.headers⟩ with
    | .error cause => { session := s.forget id, outcome := .failed (.streamCreation id cause) }
    | .ok bytes =>
      let r := s.nextRef
      let s := s.register
        { id, version, priority := opening.priority, window := s.initialWindow,
          localClosed := opening.close, listener }
      { session := s.enqueue (.control .synStream bytes (some r))
        todo := [.tell s.streamListeners (.created r), .flush]
        outcome := .opened r }

/-- Sends a frame of the session itself; that it cannot be encoded is the caller's mistake. -/
def beginFrame (s : Session) (f : ControlFrame) (outcome : Outcome) : Begun :=
  match enc.control f with
  | .error cause => { session := s, outcome := .panicked (.cannotGenerate f.type cause) }
  | .ok bytes => { session := s.enqueue (.control f.type bytes none), todo := [.flush], outcome }

def beginPing (s : Session) (version : Version) : Begun :=
  let id := s.nextPingId
  { s with nextPingId := id + 2 }.beginFrame enc ⟨version, .ping id⟩ (.pinged id)

/-- Announces the end of the session, unless one of the sides did; also tells why the frame
cannot be encoded, if it cannot. -/
def announceEnd (s : Session) (version : Version) (status : SessionStatus) :
    Progress × Option Refusal :=
  if s.goAwaySent then ({ session := s }, none)
  else
    let s := { s with goAwaySent := true }
    if s.goAwayReceived then ({ session := s }, none)
    else
      match enc.control ⟨version, .goAway s.lastStreamId (UInt32.ofNat status.code)⟩ with
      | .error cause => ({ session := s }, some cause)
      | .ok bytes => ({ session := s.enqueue (.control .goAway bytes none), todo := [.flush] }, none)

/-- Announces the end of the session on the application's account. -/
def beginGoAway (s : Session) (version : Version) : Begun :=
  let (p, refusal) := s.announceEnd enc version .ok
  { p with outcome := (refusal.map fun cause => .panicked (.cannotGoAway cause)).getD .done }

/-- Sends a control frame on a stream. A frame that closes the stream closes it when it is
enqueued. -/
def beginOnStream (s : Session) (alive : Bool) (r : StreamRef) (body : Body) : Begun :=
  let t := s.stream r
  if t.localClosed then { session := s, outcome := .failed (.streamClosed t.id) }
  else if !alive then { session := s, outcome := .failed .sessionClosed }
  else
    match enc.control ⟨t.version, body⟩ with
    | .error cause => { session := s, outcome := .failed (.generation cause) }
    | .ok bytes =>
      let s := if body.closes then s.closeLocal r else s
      { session := s.enqueue (.control body.type bytes (some r)), todo := [.flush] }

/-- Sends data on a stream. The stream is closed once the last byte was written. -/
def beginData (s : Session) (alive : Bool) (r : StreamRef) (payload : Payload) : Begun :=
  let t := s.stream r
  if t.localClosed then { session := s, outcome := .failed (.streamClosed t.id) }
  else if !alive then { session := s, outcome := .failed .sessionClosed }
  else { session := s.enqueue (.data r payload 0), todo := [.flush] }

/-! ## What the reader read -/

/-- The task of telling a stream's listener, if it has one. -/
def tellListener (s : Session) (r : StreamRef) (notice : Notice) : List Task :=
  (s.stream r).listener.toList.map fun l => .call (.tell l notice)

def receiveSyn (s : Session) (version : Version) (id : UInt32) (opening : Opening) : Progress :=
  if id = 0 ∨ s.config.isLocal id then s.reset enc version id .protocolError
  else
    match s.find? id with
    | some r => s.reset enc (s.stream r).version id .protocolError
    | none =>
      let r := s.nextRef
      { session := s.register
          { id, version, priority := opening.priority, window := s.initialWindow,
            localClosed := opening.unidirectional, remoteClosed := opening.close }
        todo := [.tell s.streamListeners (.created r), .accept r opening, .flush, .reclaim r] }

def receiveOn (s : Session) (r : StreamRef) (close : Bool) (notice : Notice) : Progress :=
  let s := if close then s.closeRemote r else s
  { session := s, todo := s.tellListener r notice ++ [.flush, .reclaim r] }

def receiveHead (s : Session) (version : Version) (id : UInt32) (head : Head)
    (notice : StreamRef → Head → Notice) : Progress :=
  match s.find? id with
  | none => s.reset enc version id .protocolError
  | some r => s.receiveOn r head.close (notice r head)

def receiveReset (s : Session) (version : Version) (id code : UInt32) : Progress :=
  let status := (StreamStatus.ofCode? version code.toNat).getD .protocolError
  { session := s, todo := [.announce (.reset id status), .lose id] }

/-- Moves the windows of all open streams, and tells those whose window would leave its range. It goes through them in
the order in which they were opened. A table that is a hash map may be gone through in any other order, and as long as
the controller does not break off that comes to the same (see `Spdy.Proofs.TableOrder`). -/
def shiftWindows (s : Session) (delta : Int) : Session × List (StreamRef × Error) :=
  s.table.foldl (fun (s, failed) r =>
    match (s.stream r).credit delta with
    | .ok t => (s.update r fun _ => t, failed)
    | .error e => (s, failed ++ [(r, e)])) (s, [])

/-- The peer sends settings. A new initial window moves the windows of the open streams too. -/
def receiveSettings (s : Session) (message : SettingsMessage) : Progress :=
  let after : List Task := [.announce (.settings message), .flush]
  match message.get? .initialWindowSize with
  | none => { session := s, todo := after }
  | some n =>
    let size := min (n.toNat : Int) Stream.maxWindow
    let delta := size - s.initialWindow
    let s := { s with initialWindow := size }
    let (s, failed) := if delta = 0 then (s, []) else s.shiftWindows delta
    { session := s, todo := failed.map (fun (r, e) => .overflow r e) ++ after }

/-- The peer sends a ping: an answer to one of ours, or one of its own, which is sent back. -/
def receivePing (s : Session) (version : Version) (id : UInt32) : Progress :=
  if id % 2 = s.nextPingId % 2 then { session := s, todo := [.announce (.ping id), .flush] }
  else
    match enc.control ⟨version, .ping id⟩ with
    | .ok bytes => { session := s.enqueue (.control .ping bytes none), todo := [.flush] }
    | .error cause =>
      { session := s, todo := [.flush], notes := [.echoRefused version id cause] }

/-- The peer announces the end of the session; only the first time counts. -/
def receiveGoAway (s : Session) (last code : UInt32) : Progress :=
  if s.goAwayReceived then { session := s }
  else
    let status := (SessionStatus.ofCode? code.toNat).getD .protocolError
    { session := { s with goAwayReceived := true }
      todo := [.announce (.goAway last status), .flush, .call (.close true)] }

def receiveWindow (s : Session) (id delta : UInt32) : Progress :=
  match s.find? id with
  | none => { session := s, todo := [.flush] }
  | some r =>
    match (s.stream r).credit (min (delta.toNat : Int) Stream.maxWindow) with
    | .ok t => { session := s.update r fun _ => t, todo := [.flush] }
    | .error e => { session := s, todo := [.overflow r e] }

def receiveControl (s : Session) (f : ControlFrame) : Progress :=
  match f.body with
  | .synStream flags id associatedId priority headers =>
    s.receiveSyn enc f.version id
      { headers, close := Flag.has flags Flag.fin,
        unidirectional := Flag.has flags Flag.unidirectional, associatedId, priority }
  | .synReply flags id headers =>
    s.receiveHead enc f.version id ⟨headers, Flag.has flags Flag.fin⟩ .reply
  | .rstStream id code => s.receiveReset f.version id code
  | .settings flags entries => s.receiveSettings ⟨entries, Flag.has flags Flag.clearSettings⟩
  | .noop => { session := s }
  | .ping id => s.receivePing enc f.version id
  | .goAway last code => s.receiveGoAway last code
  | .headers flags id headers =>
    s.receiveHead enc f.version id ⟨headers, Flag.has flags Flag.fin⟩ .headers
  | .windowUpdate id delta => s.receiveWindow id delta

def receiveData (s : Session) (f : DataFrame) : Progress :=
  match s.find? f.streamId with
  | none => s.reset enc .lowest f.streamId .invalidStream
  | some r => s.receiveOn r f.closes (.data r ⟨f.payload, f.closes⟩)

def receiveStreamException (s : Session) (e : StreamException) : Progress :=
  let version := ((s.find? e.streamId).map fun r => (s.stream r).version).getD s.config.version
  let p := s.reset enc version e.streamId e.status
  { p with notes := .streamException e :: p.notes }

/-- Received bytes break a rule of the session: it ends. -/
def receiveSessionException (s : Session) (e : SessionException) : Progress :=
  if s.goAwaySent ∨ s.goAwayReceived then
    { session := s, todo := [.call (.close false)], notes := [.sessionException e] }
  else
    match s.announceEnd enc s.config.version e.status with
    | (p, none) => { p with notes := [.sessionException e] }
    | (p, some cause) =>
      { p with todo := [.call (.close false)]
               notes := [.sessionException e, .goAwayRefused cause] }

/-- The reader read something. Frames are passed over once the end of the session was
announced. -/
def receive (s : Session) : Received → Progress
  | .control f => if s.goAwaySent then { session := s } else s.receiveControl enc f
  | .data f => if s.goAwaySent then { session := s } else s.receiveData enc f
  | .streamException e => s.receiveStreamException enc e
  | .sessionException e => s.receiveSessionException enc e

/-! ## Reports of writes -/

/-- A frame was written: the end of the session follows its announcement, data makes the window
smaller, and a stream that said its last goes. -/
def wrote (s : Session) : Parcel → Progress
  | .control t _ r =>
    { session := s
      todo := (if t = .goAway then [.call (.close false)] else []) ++
        r.toList.map .reclaim ++ [.release] }
  | .data r payload written =>
    match (s.stream r).credit (-min (written : Int) Stream.maxWindow) with
    | .error e => { session := s, todo := [.overflow r e, .release] }
    | .ok t =>
      let s := s.update r fun _ => t
      if payload.isEmpty then
        { session := if payload.close then s.closeLocal r else s, todo := [.reclaim r, .release] }
      else { session := s.putBack r (.data r payload written), todo := [.release] }

def notWritten (s : Session) (p : Parcel) (fault : SocketFault) : Progress where
  session := { s with outbox := s.outbox.clear }
  todo := [.call (.close false)]
  notes := [.writeFailed (p.text s.idOf) fault]

/-- A report on an outstanding write uses its handler up; other reports do nothing. -/
def report (s : Session) (seq : Nat) (f : Session → Parcel → Progress) : Progress :=
  match s.outstanding.find? (·.seq == seq) with
  | none => { session := s }
  | some h => f (s.dropHandler seq) h.parcel

/-! ## All operations -/

/-- What an operation does at once. `alive` tells whether the session is still there for those who
only know one of its streams. -/
def begin (s : Session) (alive : Bool) : Operation → Begun
  | .syn version opening listener => s.beginSyn enc version opening listener
  | .reset version id status => { s.reset enc version id status with }
  | .settings version m => s.beginFrame enc ⟨version, .settings m.flags m.entries⟩ .done
  | .ping version => s.beginPing enc version
  | .goAway version => s.beginGoAway enc version
  | .reply r h => s.beginOnStream enc alive r (.synReply h.flags (s.idOf r) h.headers)
  | .headers r h => s.beginOnStream enc alive r (.headers h.flags (s.idOf r) h.headers)
  | .data r payload => s.beginData alive r payload
  | .sessionData r payload => s.beginData true r payload
  | .receive received => { s.receive enc received with }
  | .complete seq => { s.report seq wrote with }
  | .fail seq fault => { s.report seq (·.notWritten · fault) with }

end Session

end Spdy
