import Spdy.Session.Machine

/-!
# What may happen to a session

A session works when it is asked to, and waits whenever it calls the outside.

* `Event` : a thing that may happen; `Machine.next?` : what becomes of the machine, if it may;
* `Machine.yields` : code of the outside is running, between operations or inside a call;
* `Moment` : a thing that happened, with the call that the session makes (`Moment.called?`) and what it
  notes (`Moment.notes`).
-/

namespace Spdy

/-- A change that the application makes between the operations of a session: to the listeners, or it lets the session
go. -/
inductive Edit
  | addStreamListener (l : Listener)
  | addControlListener (l : Listener)
  | removeStreamListener (l : Listener)
  | removeControlListener (l : Listener)
  | release
deriving DecidableEq, Inhabited

def Edit.apply (s : Session) : Edit → Session
  | addStreamListener l => s.addStreamListener l
  | addControlListener l => s.addControlListener l
  | removeStreamListener l => s.removeStreamListener l
  | removeControlListener l => s.removeControlListener l
  | release => { s with held := false }

/-- A thing that may happen to a machine. The outside asks for an operation, the innermost operation does its next task,
the call that is waited for returns or breaks off, the innermost operation returns, the application makes a change, or a
handler is given up without a report. -/
inductive Event
  | invoke (op : Operation)
  | tick
  | answer (reply : Option Listener)
  | panic (p : Panic)
  | leave
  | edit (e : Edit)
  | drop (seq : Nat)
deriving DecidableEq, Inhabited

/-- Whether an operation can be asked for: its stream is one of the session's, its write is one that
is not reported yet. -/
def Operation.isPossible (s : Session) : Operation → Bool
  | .reply r _ | .headers r _ | .data r _ | .sessionData r _ => decide (r.serial < s.streams.size)
  | .complete seq | .fail seq _ => s.outstanding.any (·.seq == seq)
  | .syn .. | .reset .. | .settings .. | .ping _ | .goAway _ | .receive _ => true

namespace Machine

/-- Code of the outside is running: no operation is in progress, or the innermost one waits for a
call. -/
def yields (m : Machine) : Bool := m.stack.isEmpty || m.awaited?.isSome

/-- What becomes of a machine, unless the event cannot happen to it. -/
def next? (enc : Encoder) (m : Machine) : Event → Option Machine
  | .invoke op => if m.yields && op.isPossible m.session then some (m.invoke enc op).1 else none
  | .tick => (m.tick enc).map (·.1)
  | .answer reply => if m.awaited?.isSome then some (m.answer reply) else none
  | .panic p => if m.awaited?.isSome then some (m.panic p).1 else none
  | .leave => if m.finished?.isSome then some m.leave else none
  | .edit e => if m.yields then some { m with session := e.apply m.session } else none
  | .drop seq => if m.yields then some { m with session := m.session.dropHandler seq } else none

end Machine

def Call.isTell : Call → Bool
  | .tell .. => true
  | .write .. | .close _ => false

def Operation.isReport : Operation → Bool
  | .complete _ | .fail .. => true
  | _ => false

/-- A thing that happened, with the machine before and after. -/
structure Moment where
  before : Machine
  event : Event
  after : Machine
deriving Inhabited

namespace Moment

/-- The call that the session comes to wait for. -/
def called? (mo : Moment) : Option Call :=
  match mo.event with
  | .invoke _ | .tick | .answer _ | .panic _ => mo.after.awaited?
  | .leave | .edit _ | .drop _ => none

def notes (enc : Encoder) (mo : Moment) : List Note :=
  match mo.event with
  | .invoke op => (mo.before.invoke enc op).2
  | .tick => ((mo.before.tick enc).map (·.2)).getD []
  | .panic p => (mo.before.panic p).2
  | .answer _ | .leave | .edit _ | .drop _ => []

end Moment

end Spdy
