import Spdy.Rehearsal.Script
import Spdy.Wire.Reader

/-!
# The world of a rehearsal

* `Socket` : the scripted end of a link, `World` : a session and its players;
* `Act` : what is to happen next; the acts of a world are a stack;
* `World.happen`, `World.move` : something happens to the session, or to its link;
* `World.log`, `World.remembered`, `World.invoke` : what acts are made of.
-/

namespace Spdy.Rehearsal

/-- A socket as the script has it: what has arrived and is not read yet, how reading ends after it, whether writing and
shutting down fail, and the most bytes that one write takes. -/
structure Socket where
  arrived : Bytes := []
  eof : Bool := false
  readError : Option String := none
  writeError : Option String := none
  shutdownError : Option String := none
  maxWrite : Option Nat := none
deriving Inhabited

/-- What is to happen next. `event` and `link` are what happens to the session and its link, the rest is the script's: a
step and its result, the players' acts (in a call about a stream if in any), the reports of the controller, and the
socket's reading and writing. -/
inductive Act
  | event (e : Event)
  | link (a : Rig.Act)
  | step (s : Step) (this : Option StreamRef)
  | run
  | conclude (whenDone : Result)
  | feed (pieces : List Bytes)
  | completeMore (done left : Nat)
  | logStep (word : String)
  | fire (t : Trigger) (this : Option StreamRef)
  | report (h : Handler)
  | reportFailure (h : Handler) (fault : SocketFault)
  | propagate
  | answer
  | collect
  | readSocket
  | deliver
  | writeSocket
  | push (rest : Bytes)

/-- A session and its players.

The session is on the link of the rig if it is `linked`; what has happened to them is not kept. The controller reports
the `pending` writes later, oldest first. `reader` is the application's and at work while it is `reading`; `input` is
the link's. `acts` are to happen, first to last. `sent` is what was written since the last delivery, latest first. -/
structure World where
  rig : Rig
  linked : Bool
  stage : Stage
  socket : Socket := {}
  input : Reader := .new
  attached : Bool := true
  pending : List Handler := []
  reader : Reader := .new
  reading : Bool := false
  acts : List Act := []
  result : Result := .ok
  outcome : Outcome := .done
  results : Array Result := #[]
  record : Array Entry := #[]
  sent : List Bytes := []
deriving Inhabited

namespace World

def log (w : World) (e : Entry) : World := { w with record := w.record.push e }

def logNotes (w : World) (notes : List Note) : World := notes.foldl (·.log <| .note ·) w

def next (w : World) (acts : List Act) : World := { w with acts := acts ++ w.acts }

def done (w : World) (r : Result) : World := { w with result := r }

/-- The session with its operations in progress. -/
def machine (w : World) : Machine := w.rig.machine

def session (w : World) : Session := w.machine.session

/-- The encoder of the session; only without a link it can be told to fail. -/
def encoder (w : World) : Encoder :=
  if w.linked then .standard w.stage.cap else w.stage.encoder

/-- Takes over what has become of the rig, and writes down what the session noted. -/
def take (w : World) (r : Rig) : World :=
  { w with rig := r.present }.logNotes (r.past.flatMap (Moment.notes w.encoder))

def move (w : World) (a : Rig.Act) : World :=
  if w.linked then (w.rig.next? w.stage.cap a).elim w w.take else w

def happen (w : World) (e : Event) : World :=
  if w.linked then w.move (.happens e)
  else (w.machine.next? w.stage.encoder e).elim w fun m => w.take { machine := m, past := [⟨w.machine, e, m⟩] }

def rememberedBelow (w : World) (id : UInt32) : Nat → Option StreamRef
  | 0 => none
  | n + 1 => if w.session.idOf ⟨n⟩ = id then some ⟨n⟩ else w.rememberedBelow id n

def remembered (w : World) (id : UInt32) : Option StreamRef :=
  w.rememberedBelow id w.session.streams.size

def target? (w : World) (this : Option StreamRef) : Target → Option StreamRef
  | .id n => w.remembered n
  | .this => this

def targetId (w : World) (this : Option StreamRef) : Target → UInt32
  | .id n => n
  | .this => (this.map w.session.idOf).getD 0

/-- Begins an operation of the session and lets it run before what follows. -/
def invoke (w : World) (op : Operation) (after : List Act) : World :=
  { w with outcome := .done }.next (.event (.invoke op) :: .run :: after)

def panic? (w : World) : Option Panic :=
  match w.outcome with
  | .panicked p => some p
  | _ => none

end World

end Spdy.Rehearsal
