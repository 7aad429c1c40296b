import Spdy.Stream

/-!
# The outbox

Frames wait in the outbox and leave it one at a time.

* `Parcel` : a control frame as bytes, or a stream's data that is cut into frames when it leaves;
* `Outbox.take?` : takes the first parcel that is ready and marks the outbox busy;
* `Outbox.putBack` : the rest of a stream's data goes ahead of its later data;
* `Outbox.beginWrite`, `Outbox.endWrite`, `Outbox.complete` : settle who goes on after a write
  that is reported before the call that made it returns.
-/

namespace Spdy

/-- What waits to be sent: an encoded control frame, with the stream that it may close, or the unsent data of a stream;
`written` counts the bytes of the frame being written. -/
inductive Parcel
  | control (type : FrameType) (bytes : Bytes) (stream : Option StreamRef)
  | data (stream : StreamRef) (payload : Payload) (written : Nat)
deriving DecidableEq, Inhabited

namespace Parcel

def dataOf? : Parcel → Option StreamRef
  | control .. => none
  | data r _ _ => some r

/-- A control frame is always ready; data is ready if its stream is. -/
def isReady (ready : StreamRef → Bool) : Parcel → Bool
  | control .. => true
  | data r _ _ => ready r

def isDataOf (same : StreamRef → Bool) (p : Parcel) : Bool := p.dataOf?.any same

def text (idOf : StreamRef → UInt32) : Parcel → String
  | control t bytes _ => s!"{t.name} ({bytes.length} bytes)"
  | data r payload _ => s!"data on stream {idOf r} ({payload.available} bytes left)"

end Parcel

/-- Parcels in the order in which they are to leave, and the state of the write in progress. The outbox is busy from the
time a parcel leaves until its write is reported. `writes` counts the writes and numbers the latest, `inWrite` is that
number as long as the call that makes the write has not returned, and `reported` tells whether it was reported by then.
-/
structure Outbox where
  parcels : List Parcel := []
  busy : Bool := false
  writes : Nat := 0
  inWrite : Option Nat := none
  reported : Bool := false
deriving Inhabited

namespace Outbox

/-- The number of parcels that wait. -/
def size (o : Outbox) : Nat := o.parcels.length

def enqueue (o : Outbox) (p : Parcel) : Outbox := { o with parcels := o.parcels ++ [p] }

/-- Puts the rest of a stream's data ahead of the first data of the streams `same`, or last. -/
def putBack (o : Outbox) (same : StreamRef → Bool) (p : Parcel) : Outbox :=
  let before := o.parcels.takeWhile (!·.isDataOf same)
  let after := o.parcels.dropWhile (!·.isDataOf same)
  { o with parcels := before ++ p :: after }

/-- Takes the first parcel that is ready, unless the outbox is busy, and makes it busy. -/
def take? (o : Outbox) (ready : StreamRef → Bool) : Option (Parcel × Outbox) :=
  if o.busy then none
  else
    match o.parcels.dropWhile (!·.isReady ready) with
    | [] => none
    | p :: after =>
      let before := o.parcels.takeWhile (!·.isReady ready)
      some (p, { o with parcels := before ++ after, busy := true })

def finish (o : Outbox) : Outbox := { o with busy := false }

def beginWrite (o : Outbox) : Outbox :=
  { o with writes := o.writes + 1, inWrite := some (o.writes + 1), reported := false }

/-- The call that made a write returns; tells whether the write was reported before. -/
def endWrite (o : Outbox) (seq : Nat) : Bool × Outbox :=
  if o.inWrite = some seq then (o.reported, { o with inWrite := none, reported := false })
  else (false, o)

/-- A write is reported; tells whether the next parcel is to be taken now. If a call that makes a
write has not returned, it is left to that call. -/
def complete (o : Outbox) : Bool × Outbox :=
  if o.inWrite.isSome then (false, { o with busy := false, reported := true })
  else (true, { o with busy := false })

def clear (o : Outbox) : Outbox := { o with parcels := [], busy := false }

end Outbox

end Spdy
