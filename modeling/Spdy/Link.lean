import Spdy.Session.Machine

/-!
# A session on a socket

A link carries the frames of a session over a socket. The session submits commands to a channel; a
writer takes them from it one by one, and a reader hands what arrives to the session.

* `Command`, `Link` : the channel, the writer and the reader;
* `Link.submit?` : what the session's calls to its controller become;
* `Link.nextJob` : what the writer does next; `Link.stopWriter`, `Link.stopReader` : how they end;
* `Link.result?` : how the link ended, once it has.
-/

namespace Spdy

/-- What the session asks of the writer. -/
inductive Command
  | write (bytes : Bytes) (handler : Handler)
  | close (graceful : Bool)
deriving DecidableEq, Inhabited

/-- How far one of the two loops is. A writer that drains empties the channel before it ends; a loop ends with a fault
or without. -/
inductive Phase
  | running
  | draining
  | ended (fault : Option SocketFault)
deriving DecidableEq, Inhabited

/-- The state of a link: the commands that the writer has not taken yet, how far the two loops are, and whether the
writer has asked the reader to end. -/
structure Link where
  channel : List Command := []
  writer : Phase := .running
  reader : Phase := .running
  readerStopped : Bool := false
deriving Inhabited

/-- What the writer does next: wait for a command, write a frame and report it, go on until the channel is empty and end
then, pass over a command that has no effect any more, or shut the socket down and end. -/
inductive Job
  | wait
  | write (bytes : Bytes) (handler : Handler)
  | drain
  | skip
  | shutdown
deriving DecidableEq, Inhabited

namespace Link

/-- Puts a command into the channel; there is none once the writer has ended. -/
def submit? (l : Link) (c : Command) : Option Link :=
  match l.writer with
  | .ended _ => none
  | _ => some { l with channel := l.channel ++ [c] }

/-- Takes the next command and tells what is to be done about it. -/
def nextJob (l : Link) : Job × Link :=
  match l.writer, l.channel with
  | .running, [] => (.wait, l)
  | .running, .write bytes h :: rest => (.write bytes h, { l with channel := rest })
  | .running, .close true :: rest => (.drain, { l with channel := rest, writer := .draining })
  | .running, .close false :: rest => (.shutdown, { l with channel := rest })
  | .draining, [] => (.shutdown, l)
  | .draining, .write bytes h :: rest => (.write bytes h, { l with channel := rest })
  | .draining, .close _ :: rest => (.skip, { l with channel := rest })
  | .ended _, _ => (.wait, l)

/-- The writer ends: the reader is asked to end, and what is left in the channel is lost. -/
def stopWriter (l : Link) (fault : Option SocketFault) : Link :=
  { l with channel := [], writer := .ended fault, readerStopped := true }

def stopReader (l : Link) (fault : Option SocketFault) : Link := { l with reader := .ended fault }

def handlers (l : Link) : List Handler :=
  l.channel.filterMap fun
    | .write _ h => some h
    | .close _ => none

/-- How the link ended, once both loops have; the reader's fault comes first. -/
def result? (l : Link) : Option (Option SocketFault) :=
  match l.reader, l.writer with
  | .ended (some fault), .ended _ => some (some fault)
  | .ended none, .ended fault => some fault
  | _, _ => none

end Link

end Spdy
