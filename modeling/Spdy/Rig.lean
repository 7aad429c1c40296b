import Spdy.Link
import Spdy.Session.Event

/-!
# A session on a link

A session calls its controller, which puts commands into the channel of a link, and the writer of the link takes them
out and reports the writes to the session. In between the session, the writer and the reader go on in any order, and a
write may end in any way.

* `Chore`, `Rig` : what the writer is at; a session, its link and what is under way between the two;
* `Rig.Act`, `Rig.next?` : a thing that may happen, and what becomes of the rig;
* `Rig.present` : what a rig is, without what it has been.
-/

namespace Spdy

/-- The command that the controller makes of a call; a listener is not the controller. -/
def Call.command? : Call → Option Command
  | .write bytes h => some (.write bytes h)
  | .close graceful => some (.close graceful)
  | .tell .. => none

/-- Whether only a controller does this: it reports writes, and it does not break off or give a handler up unless the
link says so. -/
def Event.isControllers (m : Machine) : Event → Bool
  | .invoke op => op.isReport
  | .panic _ => m.awaited?.any (!·.isTell)
  | .drop _ => true
  | .tick | .answer _ | .leave | .edit _ => false

/-- What a writer is at: nothing, a frame, or shutting the socket down. -/
inductive Chore
  | idle
  | writing (h : Handler)
  | closing
deriving DecidableEq, Inhabited

/-- A session on a link. `asked` is what the controller was asked for and has not dealt with. Commands were `submitted`
to the channel before the writer began to shut the socket down, or too `late`; the handlers that were left in the
channel when the writer ended are `lost`. -/
structure Rig where
  machine : Machine
  past : List Moment := []
  link : Link := {}
  asked : List Command := []
  chore : Chore := .idle
  submitted : List Command := []
  late : List Command := []
  lost : List Handler := []
deriving Inhabited

namespace Rig

/-- A thing that may happen to a rig.

Anything `happens` to the session that is not up to its controller. The controller `deals` with what it was asked for.
The writer `works` on the next command, the socket has `wrote` a frame or has a fault, or it is shut down (`shuts`). The
writer `vanishes` when nobody is left who could ask for anything. The reader `hangsUp` at the end of what the peer sends
or at a fault, or `obeys` when it is told to end. A handler that was lost is given up (`forgets`). -/
inductive Act
  | happens (e : Event)
  | deals (c : Command)
  | works
  | wrote (fault : Option SocketFault)
  | shuts (fault : Option SocketFault)
  | vanishes
  | hangsUp (fault : Option SocketFault)
  | obeys
  | forgets (h : Handler)
deriving DecidableEq, Inhabited

def new (s : Session) : Rig := { machine := { session := s } }

/-- Something has happened to the session. What it asks of its controller is to be dealt with. -/
def log (r : Rig) (e : Event) (m : Machine) : Rig :=
  { r with
    machine := m
    past := r.past ++ [⟨r.machine, e, m⟩]
    asked := r.asked ++ (Moment.called? ⟨r.machine, e, m⟩ >>= Call.command?).toList }

def happen? (cap : Nat) (r : Rig) (e : Event) : Option Rig :=
  (r.machine.next? (.standard cap) e).map (r.log e)

def submit (r : Rig) (c : Command) (l : Link) : Rig :=
  match r.chore with
  | .closing => { r with link := l, late := r.late ++ [c] }
  | _ => { r with link := l, submitted := r.submitted ++ [c] }

/-- A command cannot be put into the channel: a write has failed, and nothing is left to be closed. -/
def refuse? (cap : Nat) (r : Rig) : Command → Option Rig
  | .write _ h => r.happen? cap (.invoke (.fail h.seq (.brokenPipe "writer task stopped")))
  | .close _ => some r

def report (h : Handler) : Option SocketFault → Operation
  | none => .complete h.seq
  | some fault => .fail h.seq fault

/-- What becomes of a rig, unless the act cannot happen to it. The encoder has a cap on data frames. -/
def next? (cap : Nat) (r : Rig) : Act → Option Rig
  | .happens e => if e.isControllers r.machine then none else r.happen? cap e
  | .deals c =>
    if c ∈ r.asked then
      let left := { r with asked := r.asked.erase c }
      match r.link.submit? c with
      | some l => some (left.submit c l)
      | none => left.refuse? cap c
    else none
  | .works =>
    match r.chore, r.link.nextJob with
    | .idle, (.write _ h, l) => some { r with link := l, chore := .writing h }
    | .idle, (.drain, l) | .idle, (.skip, l) => some { r with link := l }
    | .idle, (.shutdown, l) => some { r with link := l, chore := .closing }
    | _, _ => none
  | .wrote fault =>
    match r.chore with
    | .writing h => { r with chore := .idle }.happen? cap (.invoke (report h fault))
    | _ => none
  | .shuts fault =>
    match r.chore with
    | .closing =>
      some { r with link := r.link.stopWriter fault, chore := .idle, lost := r.lost ++ r.link.handlers }
    | _ => none
  | .vanishes =>
    if r.machine.isAlive = false ∧ r.link.reader ≠ .running ∧ r.asked = [] ∧ r.chore = .idle ∧
        r.link.writer = .running ∧ r.link.channel = [] then
      some { r with link := r.link.stopWriter none }
    else none
  | .hangsUp fault =>
    if r.link.reader = .running then
      some { r with link := r.link.stopReader fault, asked := r.asked ++ [.close fault.isNone] }
    else none
  | .obeys =>
    if r.link.reader = .running ∧ (r.link.readerStopped ∨ r.chore = .closing) then
      some { r with link := r.link.stopReader none }
    else none
  | .forgets h => if h ∈ r.lost then r.happen? cap (.drop h.seq) else none

/-- The rig as it is, without what has happened to it. Nothing that may happen depends on that. -/
def present (r : Rig) : Rig := { r with past := [], submitted := [], late := [] }

end Rig

end Spdy
