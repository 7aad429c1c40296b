import Spdy.Session.Operation

/-!
# Running a session

Code that a session calls may call the session again. So a session runs on a stack: each operation
in progress has an activation, and a call to the outside waits until the operations that it makes
have returned.

* `Activation`, `Machine` : the stack of operations in progress, innermost first;
* `Machine.invoke` : begins an operation, `Machine.tick` : does its next task;
* `Machine.awaited?` : the call that is waited for, `Machine.answer`, `Machine.panic` : how it
  ends;
* `Machine.finished?`, `Machine.leave` : an operation returns.
-/

namespace Spdy

/-- An operation in progress: what is left to do, and what it returns in the end. A call in front is being waited for.
-/
structure Activation where
  todo : List Task
  outcome : Outcome
deriving Inhabited

/-- A session and its operations in progress, innermost first. -/
structure Machine where
  session : Session
  stack : List Activation := []
deriving Inhabited

namespace Machine

/-- The session is there as long as someone holds on to it: the application, a handler, or an
operation in progress. -/
def isAlive (m : Machine) : Bool :=
  m.session.held || !m.session.outstanding.isEmpty || !m.stack.isEmpty

def awaited? (m : Machine) : Option Call :=
  match m.stack with
  | { todo := .call c :: _, .. } :: _ => some c
  | _ => none

/-- What the innermost operation returns, if nothing is left of it. -/
def finished? (m : Machine) : Option Outcome :=
  match m.stack with
  | { todo := [], outcome } :: _ => some outcome
  | _ => none

def invoke (enc : Encoder) (m : Machine) (op : Operation) : Machine × List Note :=
  let b := m.session.begin enc m.isAlive op
  ({ session := b.session, stack := ⟨b.todo, b.outcome⟩ :: m.stack }, b.notes)

/-- Does the next task of the innermost operation; nothing if it waits or is at its end. -/
def tick (enc : Encoder) (m : Machine) : Option (Machine × List Note) :=
  match m.stack with
  | [] => none
  | { todo := [], .. } :: _ => none
  | { todo := .call _ :: _, .. } :: _ => none
  | { todo := task :: rest, outcome } :: below =>
    let p := m.session.perform enc task
    some ({ session := p.session, stack := ⟨p.todo ++ rest, outcome⟩ :: below }, p.notes)

/-- The innermost operation returns. -/
def leave (m : Machine) : Machine := { m with stack := m.stack.tail }

/-- What the answer to a call changes: who is asked about a new stream names its listener. -/
def accept (s : Session) (c : Call) (reply : Option Listener) : Session :=
  match c with
  | .tell _ (.opened r _) => s.update r fun t => { t with listener := reply }
  | _ => s

def answer (m : Machine) (reply : Option Listener) : Machine :=
  match m.stack with
  | { todo := .call c :: rest, outcome } :: below =>
    { session := accept m.session c reply, stack := ⟨rest, outcome⟩ :: below }
  | _ => m

/-- The call that is waited for breaks off. A listener's panic is noted and is no more than an
empty answer; the controller's ends the operation. -/
def panic (m : Machine) (p : Panic) : Machine × List Note :=
  match m.awaited? with
  | some (.tell _ notice) => (m.answer none, [.listenerPanicked notice p])
  | some _ => ({ m with stack := ⟨[], .panicked p⟩ :: m.stack.tail }, [])
  | none => (m, [])

end Machine

end Spdy
