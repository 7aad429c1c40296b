import Mathlib.Data.List.TakeWhile
import Spdy.Proofs.Post

/-!
# How parcels leave

* `Outbox.take?_eq_none_iff`, `Outbox.take?_eq_some` : which parcel is taken;
* `Outbox.putBack_parcels` : where the rest of a stream's data is put;
* `Framed` : the frame in which a parcel is sent, and what remains of the parcel;
* `Flushed`, `flush_cases` : what a flush comes to: nothing, a parcel that is dropped because its stream
  was reset, or a frame that is handed to the controller;
* `Wrote`, `wrote_cases` : what becomes of a parcel whose frame was written.
-/

namespace Spdy

/-! ## The outbox -/

namespace Outbox

theorem take?_eq_none_iff {o : Outbox} {ready : StreamRef → Bool} :
    o.take? ready = none ↔ o.busy ∨ ∀ q ∈ o.parcels, q.isReady ready = false := by
  unfold take?
  cases hb : o.busy with
  | true => simp
  | false =>
    simp only [Bool.false_eq_true, if_false, false_or]
    constructor
    · intro h
      split at h
      · rename_i hd
        intro q hq
        have := List.dropWhile_eq_nil_iff.1 hd q hq
        simpa using this
      · cases h
    · intro h
      have hd : o.parcels.dropWhile (!·.isReady ready) = [] :=
        List.dropWhile_eq_nil_iff.2 fun q hq => by simp [h q hq]
      rw [hd]

theorem take?_eq_some {o o' : Outbox} {ready : StreamRef → Bool} {p : Parcel}
    (h : o.take? ready = some (p, o')) :
    o.busy = false ∧ ∃ before after, o.parcels = before ++ p :: after ∧
      (∀ q ∈ before, q.isReady ready = false) ∧ p.isReady ready ∧
      o' = { o with parcels := before ++ after, busy := true } := by
  unfold take? at h
  split at h
  · cases h
  · rename_i hb
    split at h
    · cases h
    · rename_i p' after hd
      obtain ⟨rfl, rfl⟩ := Prod.mk.inj (Option.some.inj h)
      refine ⟨by simpa using hb, o.parcels.takeWhile (!·.isReady ready), after, ?_, ?_, ?_, rfl⟩
      · rw [← hd, List.takeWhile_append_dropWhile]
      · intro q hq
        simpa using List.mem_takeWhile_imp hq
      · have := List.head?_dropWhile_not (fun q : Parcel => !q.isReady ready) o.parcels
        rw [hd] at this
        simpa using this

/-- The rest of a stream's data has no data of the streams `same` before it, and all of it after. -/
theorem putBack_parcels (o : Outbox) (same : StreamRef → Bool) (p : Parcel) :
    ∃ before after, o.parcels = before ++ after ∧
      (∀ q ∈ before, q.isDataOf same = false) ∧
      o.putBack same p = { o with parcels := before ++ p :: after } := by
  refine ⟨_, _, (List.takeWhile_append_dropWhile).symm, ?_, rfl⟩
  intro q hq
  simpa using List.mem_takeWhile_imp hq

end Outbox

/-! ## Starting a write -/

theorem DataFrame.length_encode (f : DataFrame) :
    f.encode.length = headerLength + f.payload.length := by
  simp only [DataFrame.encode, layoutId, List.length_append, List.length_cons, Bytes.length_ofNat,
    headerLength]

theorem DataFrame.drop_encode (f : DataFrame) : f.encode.drop headerLength = f.payload := by
  have h : (layoutId f.streamId ++ f.flags :: Bytes.ofNat 3 f.payload.length).length = headerLength := by
    simp [layoutId, headerLength]
  rw [DataFrame.encode, ← h, List.drop_left]

/-- The frame in which a parcel is sent, and what remains of the parcel. -/
inductive Framed (cap : Nat) (s : Session) : Parcel → Bytes → Parcel → Prop
  | control (type : FrameType) (bytes : Bytes) (r : Option StreamRef) :
      Framed cap s (.control type bytes r) bytes (.control type bytes r)
  | data (r : StreamRef) (payload : Payload) (written : Nat) {frame : DataFrame} {rest : Payload}
      (alive : (s.stream r).reset = false) (window : 0 < (s.stream r).window)
      (chunk : payload.chunk (Encoder.clampCap cap) (s.idOf r) (s.stream r).window = (frame, rest)) :
      Framed cap s (.data r payload written) frame.encode (.data r rest frame.payload.length)

namespace Session

def isReady (s : Session) (q : Parcel) : Bool := q.isReady fun r => (s.stream r).isReady

/-- Data that is blocked is not data of a stream that is ready. -/
theorem dataOf?_ne_of_blocked {s : Session} {q : Parcel} {r : StreamRef} (blocked : s.isReady q = false)
    (ready : (s.stream r).isReady) : q.dataOf? ≠ some r := by
  intro hq
  cases q with
  | control => cases hq
  | data r' payload written =>
    cases hq
    rw [isReady, Parcel.isReady, ready] at blocked
    cases blocked

theorem stream_outbox (s : Session) (o : Outbox) (r : StreamRef) :
    ({ s with outbox := o } : Session).stream r = s.stream r := rfl

def holding (s : Session) (parcels : List Parcel) : Session :=
  { s with outbox := { s.outbox with parcels } }

theorem holding_of_free {s : Session} (h : s.outbox.busy = false) (parcels : List Parcel) :
    s.holding parcels = { s with outbox := { s.outbox with parcels, busy := false } } := by
  rw [← h]
  rfl

/-- The session once it has handed a frame to the controller, of which `q` remains. -/
def handing (s : Session) (parcels : List Parcel) (q : Parcel) : Session :=
  { s with
    outbox :=
      { parcels, busy := true, writes := s.outbox.writes + 1, inWrite := some (s.outbox.writes + 1),
        reported := false }
    outstanding := s.outstanding ++ [⟨s.outbox.writes + 1, q⟩] }

end Session

inductive Flushed (cap : Nat) (s : Session) : Progress → Prop
  | idle (h : s.outbox.busy ∨ ∀ q ∈ s.outbox.parcels, s.isReady q = false) :
      Flushed cap s { session := s }
  | drop {before after : List Parcel} {r : StreamRef} {payload : Payload} {written : Nat}
      (free : s.outbox.busy = false)
      (parcels : s.outbox.parcels = before ++ .data r payload written :: after)
      (reset : (s.stream r).reset) (blocked : ∀ x ∈ before, s.isReady x = false) :
      Flushed cap s { session := s.holding (before ++ after), todo := [.flush] }
  | hand {before after : List Parcel} {p q : Parcel} {bytes : Bytes}
      (free : s.outbox.busy = false) (parcels : s.outbox.parcels = before ++ p :: after)
      (blocked : ∀ x ∈ before, s.isReady x = false) (framed : Framed cap s p bytes q) :
      Flushed cap s
        { session := s.handing (before ++ after) q
          todo := [.call (.write bytes ⟨s.outbox.writes + 1, q⟩), .endWrite (s.outbox.writes + 1)] }

theorem Payload.encodeChunk_of_pos {cap : Nat} {id : UInt32} {window : Int} {payload rest : Payload}
    {frame : DataFrame} (hwindow : 0 < window)
    (hchunk : payload.chunk cap id window = (frame, rest)) :
    payload.encodeChunk cap id window = .ok (frame.encode, rest) := by
  rw [Payload.encodeChunk, if_neg (by omega), hchunk]

theorem flush_cases (cap : Nat) (s : Session) : Flushed cap s (s.flush (.standard cap)) := by
  cases ht : s.outbox.take? fun r => (s.stream r).isReady with
  | none =>
    have hflush : s.flush (.standard cap) = { session := s } := by
      simp only [Session.flush, Session.take?, ht, Option.map_none]
    rw [hflush]
    exact .idle (Outbox.take?_eq_none_iff.1 ht)
  | some taken =>
    obtain ⟨p, o⟩ := taken
    obtain ⟨hfree, before, after, hparcels, hblocked, hready, rfl⟩ := Outbox.take?_eq_some ht
    cases p with
    | control type bytes r =>
      have hflush : s.flush (.standard cap) =
          { session := s.handing (before ++ after) (.control type bytes r)
            todo := [.call (.write bytes ⟨s.outbox.writes + 1, .control type bytes r⟩),
              .endWrite (s.outbox.writes + 1)] } := by
        simp only [Session.flush, Session.take?, ht, Option.map_some]
        rfl
      rw [hflush]
      exact .hand hfree hparcels hblocked (.control type bytes r)
    | data r payload written =>
      by_cases hreset : (s.stream r).reset
      · have hflush : s.flush (.standard cap) =
            { session := s.holding (before ++ after), todo := [.flush] } := by
          rw [Session.holding_of_free hfree]
          simp only [Session.flush, Session.take?, ht, Option.map_some, Session.stream_outbox,
            hreset, if_true]
          rfl
        rw [hflush]
        exact .drop hfree hparcels hreset hblocked
      · have halive : (s.stream r).reset = false := by simpa using hreset
        have hwindow : 0 < (s.stream r).window := by
          simpa [Parcel.isReady, Stream.isReady, halive] using hready
        cases hchunk : payload.chunk (Encoder.clampCap cap) (s.idOf r) (s.stream r).window with
        | mk frame rest =>
          have hlength : frame.encode.length - headerLength = frame.payload.length := by
            rw [frame.length_encode]
            omega
          have hdata : (Encoder.standard cap).data (s.stream r).id (s.stream r).window payload =
              .ok (frame.encode, rest) := Payload.encodeChunk_of_pos hwindow hchunk
          have hflush : s.flush (.standard cap) =
              { session := s.handing (before ++ after) (.data r rest frame.payload.length)
                todo := [.call (.write frame.encode
                    ⟨s.outbox.writes + 1, .data r rest frame.payload.length⟩),
                  .endWrite (s.outbox.writes + 1)] } := by
            simp only [Session.flush, Session.take?, ht, Option.map_some, Session.stream_outbox,
              halive, Bool.false_eq_true, if_false, hdata, hlength]
            rfl
          rw [hflush]
          exact .hand hfree hparcels hblocked (.data r payload written halive hwindow hchunk)

/-! ## Reports of writes -/

/-- By how much a write moves the window of its stream. -/
def debit (written : Nat) : Int := -min (written : Int) Stream.maxWindow

/-- What becomes of a parcel whose frame was written. -/
inductive Wrote (s : Session) : Parcel → Progress → Prop
  | control {type : FrameType} {bytes : Bytes} {r : Option StreamRef} {todo : List Task}
      (plain : ∀ x ∈ todo, x.isPlain) :
      Wrote s (.control type bytes r) { session := s, todo := todo ++ [.release] }
  | stuck {r : StreamRef} {payload : Payload} {written : Nat} {e : Error}
      (credit : (s.stream r).credit (debit written) = .error e) :
      Wrote s (.data r payload written) { session := s, todo := [.overflow r e, .release] }
  | done {r : StreamRef} {payload : Payload} {written : Nat} {x : Stream}
      (credit : (s.stream r).credit (debit written) = .ok x) (empty : payload.bytes = []) :
      Wrote s (.data r payload written)
        { session :=
            if payload.close then (s.update r fun _ => x).closeLocal r else s.update r fun _ => x
          todo := [.reclaim r, .release] }
  | more {r : StreamRef} {payload : Payload} {written : Nat} {x : Stream} {before after : List Parcel}
      (credit : (s.stream r).credit (debit written) = .ok x) (left : payload.bytes ≠ [])
      (parcels : s.outbox.parcels = before ++ after) (clear : ∀ q ∈ before, q.dataOf? ≠ some r) :
      Wrote s (.data r payload written)
        { session := (s.update r fun _ => x).holding (before ++ .data r payload written :: after)
          todo := [.release] }

theorem wrote_cases (s : Session) (p : Parcel) : Wrote s p (s.wrote p) := by
  cases p with
  | control type bytes r =>
    have hplain : ∀ x ∈ (if type = .goAway then [Task.call (.close false)] else []) ++
        r.toList.map Task.reclaim, x.isPlain := by
      intro x hx
      rw [List.mem_append] at hx
      rcases hx with hx | hx
      · split at hx
        · rw [List.mem_singleton.1 hx]
          rfl
        · cases hx
      · obtain ⟨r', -, rfl⟩ := List.mem_map.1 hx
        rfl
    exact .control hplain
  | data r payload written =>
    cases hcredit : (s.stream r).credit (debit written) with
    | error e =>
      have hwrote : s.wrote (.data r payload written) =
          { session := s, todo := [.overflow r e, .release] } := by
        rw [Session.wrote, ← debit, hcredit]
      rw [hwrote]
      exact .stuck hcredit
    | ok x =>
      have hiff : payload.isEmpty ↔ payload.bytes = [] := List.isEmpty_iff
      by_cases hempty : payload.bytes = []
      · have hwrote : s.wrote (.data r payload written) =
            { session :=
                if payload.close then (s.update r fun _ => x).closeLocal r
                else s.update r fun _ => x
              todo := [.reclaim r, .release] } := by
          rw [Session.wrote, ← debit, hcredit]
          dsimp only
          rw [if_pos (hiff.2 hempty)]
        rw [hwrote]
        exact .done hcredit hempty
      · obtain ⟨before, after, hparcels, hclear, hput⟩ := Outbox.putBack_parcels s.outbox
          ((s.update r fun _ => x).idOf · == (s.update r fun _ => x).idOf r) (.data r payload written)
        have hwrote : s.wrote (.data r payload written) =
            { session := (s.update r fun _ => x).holding (before ++ .data r payload written :: after)
              todo := [.release] } := by
          rw [Session.holding, Session.wrote, ← debit, hcredit]
          dsimp only
          rw [if_neg (fun h => hempty (hiff.1 h)), Session.putBack]
          exact congrArg (fun o => ({ session := { s.update r fun _ => x with outbox := o },
                                      todo := [.release] } : Progress)) hput
        rw [hwrote]
        refine .more hcredit hempty hparcels fun q hq hr => ?_
        have := hclear q hq
        simp [Parcel.isDataOf, hr] at this

end Spdy
