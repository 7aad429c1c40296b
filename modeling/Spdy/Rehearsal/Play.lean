import Spdy.Rehearsal.World

/-!
# Playing a script

* `World.doStep` : what a step does;
* `World.takeCall` : what the players do when the session calls them;
* `World.unwind` : what a panic does;
* `World.advance` : the next act; a step of the script is played by advancing until no act is
  left (`World.start`).
-/

namespace Spdy.Rehearsal

namespace World

/-- What an operation of the session comes to; `whenDone` if it returned nothing. -/
def resultOf (w : World) (whenDone : Result) : Result :=
  match w.outcome with
  | .done => whenDone
  | .opened r => .stream (w.session.idOf r)
  | .pinged id => .ping id
  | .failed e => .failed e
  | .panicked p => .panicked p

/-- Acts up to the next return from a call are passed over: the handlers that they had, and the acts after it. -/
def passOver : List Act → List Handler × Option (List Act)
  | [] => ([], none)
  | .answer :: rest => ([], some rest)
  | .report h :: rest | .reportFailure h _ :: rest =>
    let (lost, rest) := passOver rest
    (h :: lost, rest)
  | _ :: rest => passOver rest

/-- A panic ends the call that the session waits for, or else the step of the script. Handlers that nobody has any more
are given up. -/
def unwind (w : World) (p : Panic) : World :=
  match passOver w.acts with
  | (lost, some acts) => { w with acts := lost.map (.event <| .drop ·.seq) ++ .event (.panic p) :: acts }
  | (_, none) => w.done (.panicked p)

/-! ## Steps -/

/-- Asks the session for something, unless the application has given it up. -/
def ask (w : World) (op : Operation) : World :=
  if w.attached then w.invoke op [.conclude .ok] else w.done .noSession

def askStream (w : World) (r : Option StreamRef) (op : StreamRef → Operation) : World :=
  match r with
  | none => w.done .noStream
  | some r => w.invoke (op r) [.conclude .ok]

def edit (w : World) (r : Result) (e : Edit) : World :=
  if w.attached then (w.next [.event (.edit e)]).done r else w.done .noSession

/-- Feeds pieces to the reader of the application, unless it is at work already. -/
def recv (w : World) (pieces : List Bytes) : World :=
  if !w.attached then w.done .noSession
  else if w.reading then w.done .busy
  else
    match pieces with
    | [] => w.done (.read w.reader.failed)
    | p :: rest =>
      { w with reading := true, outcome := .done, reader := w.reader.push p }.next [.feed rest]

def act (s : Socket) (a : PeerAct) : Socket :=
  { s with
    arrived := s.arrived ++ a.bytes
    eof := s.eof || a.eof
    readError := a.readError <|> s.readError
    writeError := a.writeError <|> s.writeError
    shutdownError := a.shutdownError <|> s.shutdownError }

def doStep (w : World) (this : Option StreamRef) : Step → World
  | .syn version opening listener => w.ask (.syn version opening listener)
  | .reset version t status => w.ask (.reset version (w.targetId this t) status)
  | .settings version m => w.ask (.settings version m)
  | .ping version => w.ask (.ping version)
  | .goAway version => w.ask (.goAway version)
  | .reply t h => w.askStream (w.target? this t) (.reply · h)
  | .headers t h => w.askStream (w.target? this t) (.headers · h)
  | .data t payload => w.askStream (w.target? this t) (.data · payload)
  | .sessionData t payload =>
    if (w.target? this t).isSome && !w.attached then w.done .noSession
    else w.askStream (w.target? this t) (.sessionData · payload)
  | .info t =>
    match w.target? this t with
    | none => w.done .noStream
    | some r => w.done (.stated (w.session.stream r) w.machine.isAlive)
  | .get t =>
    if w.attached then w.done (.looked ((w.session.find? (w.targetId this t)).map w.session.stream))
    else w.done .noSession
  | .frame f => w.ask (.receive (.control f))
  | .dataFrame f => w.ask (.receive (.data f))
  | .streamException e => w.ask (.receive (.streamException e))
  | .sessionException e => w.ask (.receive (.sessionException e))
  | .recv pieces => w.recv pieces
  | .complete count => { w with outcome := .done }.next [.completeMore 0 count]
  | .fail text =>
    match w.pending with
    | [] => w.done (.reported false)
    | h :: pending =>
      { w with pending }.invoke (.fail h.seq (.brokenPipe text)) [.conclude (.reported true)]
  | .dropPending =>
    match w.pending with
    | [] => w.done (.dropped none)
    | h :: pending =>
      ({ w with pending }.next [.event (.drop h.seq)]).done (.dropped (some (w.session.handlerText h)))
  | .set c => { w with stage := w.stage.change c }.done .ok
  | .hook h => { w with stage := { w.stage with hooks := w.stage.hooks ++ [h] } }.done .ok
  | .addStreamListener l => w.edit .ok (.addStreamListener l)
  | .addControlListener l => w.edit .ok (.addControlListener l)
  | .removeStreamListener l =>
    w.edit (.bool (w.session.streamListeners.contains l)) (.removeStreamListener l)
  | .removeControlListener l =>
    w.edit (.bool (w.session.controlListeners.contains l)) (.removeControlListener l)
  | .dropSession =>
    -- a link holds on to its session
    ({ w with attached := false }.next (if w.linked then [] else [.event (.edit .release)])).done (.bool w.attached)
  | .panic p => w.unwind p
  | .both _ => w.done .ok
  | .peer a => { w with socket := act w.socket a }.done .ok

/-! ## Calls -/

def takeWrite (w : World) (bytes : Bytes) (h : Handler) : World :=
  let report : Act :=
    if w.stage.failWrites then .reportFailure h (.brokenPipe "write failed") else .report h
  let w :=
    if w.stage.failWrites then w.log (.refusedWrite bytes)
    else { w with sent := bytes :: w.sent }.log (.wrote bytes)
  w.next [.fire .beforeReport none, report, .fire .afterReport none, .answer]

/-- The controller that puts commands into the channel deals with what it is asked for. A write that it cannot put there
has failed. -/
def takeCommand (w : World) (c : Command) : World :=
  w.next (.link (.deals c) :: match w.rig.link.submit? c, c with
    | none, .write .. => [.run, .propagate, .answer]
    | _, _ => [.answer])

def takeCall (w : World) : Call → World
  | .write bytes h => if w.linked then w.takeCommand (.write bytes h) else w.takeWrite bytes h
  | .close graceful =>
    if w.linked then w.takeCommand (.close graceful)
    else (w.log (.closed graceful)).next [.fire .closing none, .answer]
  | .tell listener notice =>
    let id := (notice.stream?.map w.session.idOf).getD 0
    (w.log (.told listener id notice)).next
      [.fire (.told listener (.of notice)) notice.stream?, .answer]

def reply (w : World) : Option Listener :=
  match w.machine.awaited? with
  | some (.tell _ (.opened ..)) => w.stage.accept
  | _ => none

/-- Lets the innermost operation of the session go on. -/
def run (w : World) : World :=
  match w.machine.finished?, w.machine.awaited? with
  | some outcome, _ => { w with outcome }.next [.event .leave]
  | none, some c => (w.next [.run]).takeCall c
  | none, none => if w.machine.stack.isEmpty then w else w.next [.event .tick, .run]

/-! ## Reading and reporting -/

/-- Lets the session have what the application's reader reads, piece after piece. -/
def feed (w : World) (pieces : List Bytes) : World :=
  match w.panic? with
  | some p => { w with reading := false }.done (.panicked p)
  | none =>
    match w.reader.next? with
    | some (none, reader) => { w with reader }.next [.feed pieces]
    | some (some got, reader) => { w with reader }.invoke (.receive got) [.feed pieces]
    | none =>
      match pieces with
      | [] => { w with reading := false }.done (.read w.reader.failed)
      | p :: rest => { w with reader := w.reader.push p }.next [.feed rest]

def completeMore (w : World) (done : Nat) (left : Nat) : World :=
  match w.panic?, left, w.pending with
  | some p, _, _ => w.done (.panicked p)
  | none, left + 1, h :: pending =>
    { w with pending }.invoke (.complete h.seq) [.completeMore (done + 1) left]
  | none, _, _ => w.done (.completed done)

/-! ## The link -/

/-- Lets the reader of the link read what has arrived, in pieces as large as its buffer. At the end of it, or at a
fault, it asks for the connection to be closed. -/
def readSocket (w : World) : World :=
  if w.rig.link.reader ≠ .running then w
  else if !w.socket.arrived.isEmpty then
    let piece := w.socket.arrived.take 8192
    let socket := { w.socket with arrived := w.socket.arrived.drop 8192 }
    { w with socket, input := w.input.push piece }.next [.deliver, .readSocket]
  else
    match w.socket.readError with
    | some e =>
      let fault := .connectionReset e
      (w.next [.link (.hangsUp (some fault)), .link (.deals (.close false))]).log (.readError fault)
    | none =>
      if w.socket.eof then w.next [.link (.hangsUp none), .link (.deals (.close true))] else w

def deliver (w : World) : World :=
  match w.input.next? with
  | some (none, input) => { w with input }.next [.deliver]
  | some (some got, input) => { w with input }.invoke (.receive got) [.deliver]
  | none => w

/-- Lets the writer of the link go on until it has nothing to do. -/
def writeSocket (w : World) : World :=
  match w.rig.link.nextJob with
  | (.wait, _) => w
  | (.write bytes _, _) => w.next [.link .works, .push bytes, .writeSocket]
  | (.drain, _) | (.skip, _) => w.next [.link .works, .writeSocket]
  | (.shutdown, l) =>
    let fault := w.socket.shutdownError.map .connectionReset
    (w.next (.link .works :: .link (.shuts fault) :: l.handlers.map (.link <| .forgets ·))).log .socketShut

/-- Lets the writer of the link write the rest of a frame, as much at a time as the socket
takes. -/
def push (w : World) (rest : Bytes) : World :=
  match w.socket.writeError, w.socket.maxWrite with
  | some e, _ => (w.log .socketRefused).next [.link (.wrote (some (.connectionReset e))), .run]
  | none, some 0 => (w.log (.socketWrote [])).next [.link (.wrote (some .writeZero)), .run]
  | none, none => (w.log (.socketWrote rest)).next [.link (.wrote none), .run]
  | none, some n =>
    let w := w.log (.socketWrote (rest.take n))
    if (rest.drop n).isEmpty then w.next [.link (.wrote none), .run]
    else w.next [.push (rest.drop n)]

/-! ## Acts -/

def perform (w : World) : Act → World
  | .event e => w.happen e
  | .link a => w.move a
  | .step s this => w.doStep this s
  | .run => w.run
  | .conclude whenDone => w.done (w.resultOf whenDone)
  | .feed pieces => w.feed pieces
  | .completeMore done left => w.completeMore done left
  | .logStep word => w.log (.step word w.result)
  | .fire t this =>
    let (steps, hooks) := Hook.select t w.stage.hooks
    { w with stage := { w.stage with hooks } }.next
      (steps.flatMap fun s => [.step s this, .logStep s.word])
  | .report h =>
    if w.stage.deferred then { w with pending := w.pending ++ [h] }
    else w.invoke (.complete h.seq) [.propagate]
  | .reportFailure h fault => w.invoke (.fail h.seq fault) [.propagate]
  | .propagate =>
    match w.panic? with
    | some p => w.unwind p
    | none => w
  | .answer => w.happen (.answer w.reply)
  | .collect => { w with results := w.results.push w.result }
  | .readSocket => w.readSocket
  | .deliver => w.deliver
  | .writeSocket => w.writeSocket
  | .push rest => w.push rest

def advance (w : World) : Option World :=
  match w.acts with
  | [] => none
  | a :: acts => some ({ w with acts }.perform a)

/-- Begins a step of the script, with an empty record. On a link, its reader and its writer work
after the step. -/
def start (w : World) (s : Step) : World :=
  let steps := match s with
    | .both steps => steps
    | s => [s]
  { w with
    acts := steps.flatMap (fun s => [.step s none, .collect]) ++
      (if w.linked then [.readSocket, .writeSocket, .link .obeys] else [])
    results := #[]
    record := #[] }

def new (config : Config) (listener : Option Listener) (stage : Stage) (linked : Bool)
    (maxWrite : Option Nat) : Except Error World := do
  let session ← Session.new config listener
  return { rig := .new session, linked, stage, socket := { maxWrite } }

def takeSent (w : World) : Bytes × World := (w.sent.reverse.flatten, { w with sent := [] })

end World

end Spdy.Rehearsal
