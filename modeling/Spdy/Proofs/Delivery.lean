import Spdy.Proofs.Fin
import Spdy.Proofs.Cover

/-!
# Data is delivered

Data is cut where the window ends, the rest is put back, and data that is blocked is overtaken. Still the
data of a stream leaves as it was accepted.

* `Parcel.bytesOf` : the data of a stream that a parcel holds;
* `sentData`, `acceptedData` : the data that was handed over and the data that was accepted;
* `Session.unsentData`, `Session.queuedData` : the data to come;
* `Delivered`, `Delivered.next` : all data that was accepted is there, in order;
* `data_conserved` : so it is in every run.
-/

namespace Spdy

/-! ## Data of a stream -/

namespace Parcel

def bytesOf (r : StreamRef) : Parcel → Bytes
  | .control .. => []
  | .data r' payload _ => if r' = r then payload.bytes else []

theorem bytesOf_of_ne {r : StreamRef} {q : Parcel} (h : q.dataOf? ≠ some r) : q.bytesOf r = [] := by
  cases q with
  | control => rfl
  | data r' payload written => exact if_neg fun he => h (congrArg some he)

theorem flatMap_bytesOf_eq_nil {r : StreamRef} {l : List Parcel} (h : ∀ q ∈ l, q.dataOf? ≠ some r) :
    l.flatMap (·.bytesOf r) = [] :=
  List.flatMap_eq_nil_iff.2 fun q hq => bytesOf_of_ne (h q hq)

end Parcel

namespace Session

/-- The data of a stream that remains of the parcel that is being written. -/
def unsentData (s : Session) (r : StreamRef) : Bytes := s.outstanding.flatMap (·.parcel.bytesOf r)

def queuedData (s : Session) (r : StreamRef) : Bytes := s.outbox.parcels.flatMap (·.bytesOf r)

variable {s : Session} {r : StreamRef}

theorem unsentData_of_nil (h : s.outstanding = []) : s.unsentData r = [] := by
  rw [unsentData, h, List.flatMap_nil]

theorem unsentData_of_singleton {x : Handler} (h : s.outstanding = [x]) :
    s.unsentData r = x.parcel.bytesOf r := by
  rw [unsentData, h, List.flatMap_cons, List.flatMap_nil, List.append_nil]

theorem queuedData_of_append {before after : List Parcel}
    (h : s.outbox.parcels = before ++ after) :
    s.queuedData r = before.flatMap (·.bytesOf r) ++ after.flatMap (·.bytesOf r) := by
  rw [queuedData, h, List.flatMap_append]

theorem queuedData_of_cons {before after : List Parcel} {q : Parcel}
    (h : s.outbox.parcels = before ++ q :: after) :
    s.queuedData r =
      before.flatMap (·.bytesOf r) ++ (q.bytesOf r ++ after.flatMap (·.bytesOf r)) := by
  rw [queuedData_of_append h, List.flatMap_cons]

end Session

def dataIn (f : Bytes × Handler) : Bytes :=
  if f.2.parcel.dataOf?.isSome then f.1.drop headerLength else []

/-- The data in the frames that were handed over for a stream. -/
def sentData (r : StreamRef) (past : List Moment) : Bytes := (framesOf r past).flatMap dataIn

def dataSaid (r : StreamRef) : Option (StreamRef × Speech) → Bytes
  | some (r', .data payload) => if r' = r then payload.bytes else []
  | _ => []

def acceptedData (r : StreamRef) (past : List Moment) : Bytes :=
  past.flatMap fun mo => dataSaid r mo.said?

section Append

variable {r : StreamRef} {past : List Moment} {mo : Moment}

theorem sentData_append_of_none (h : mo.handed? = none) :
    sentData r (past ++ [mo]) = sentData r past := by
  rw [sentData, framesOf_append_of_none h, sentData]

theorem sentData_append_of_control {bytes bytes' : Bytes} {x : Handler} {type : FrameType}
    {r' : Option StreamRef} (h : mo.handed? = some (bytes, x))
    (hx : x.parcel = .control type bytes' r') : sentData r (past ++ [mo]) = sentData r past := by
  have hdata : dataIn (bytes, x) = [] := by rw [dataIn, hx]; rfl
  rw [sentData, framesOf_append_of_some h, List.flatMap_append, ← sentData]
  split
  · rw [List.flatMap_singleton, hdata, List.append_nil]
  · rw [List.flatMap_nil, List.append_nil]

theorem sentData_append_of_data {bytes : Bytes} {x : Handler} {r' : StreamRef} {payload : Payload}
    {written : Nat} (h : mo.handed? = some (bytes, x)) (hx : x.parcel = .data r' payload written) :
    sentData r (past ++ [mo]) = sentData r past ++ if r' = r then bytes.drop headerLength else [] := by
  have hstream : x.parcel.stream? = some r ↔ r' = r := by rw [hx, Parcel.stream?, Option.some.injEq]
  have hdata : dataIn (bytes, x) = bytes.drop headerLength := by rw [dataIn, hx]; rfl
  rw [sentData, framesOf_append_of_some h, List.flatMap_append, ← sentData]
  by_cases hr : r' = r
  · rw [if_pos (hstream.2 hr), if_pos hr, List.flatMap_singleton, hdata]
  · rw [if_neg (mt hstream.1 hr), if_neg hr, List.flatMap_nil]

theorem acceptedData_append (r : StreamRef) (past : List Moment) (mo : Moment) :
    acceptedData r (past ++ [mo]) = acceptedData r past ++ dataSaid r mo.said? := by
  rw [acceptedData, List.flatMap_append, List.flatMap_singleton, ← acceptedData]

theorem acceptedData_append_of_none (h : mo.said? = none) :
    acceptedData r (past ++ [mo]) = acceptedData r past := by
  rw [acceptedData_append, h]
  exact List.append_nil _

end Append

theorem Posted.bytesOf {enc : Encoder} {s t : Session} {said : Option (StreamRef × Speech)}
    {new : List Parcel} (h : Posted enc s t said new) (r : StreamRef) :
    new.flatMap (·.bytesOf r) = dataSaid r said := by
  cases h with
  | own hown =>
    refine Parcel.flatMap_bytesOf_eq_nil fun q hq hr => ?_
    rw [(hown q hq).2] at hr
    cases hr
  | head => rfl
  | data => rw [List.flatMap_singleton, Parcel.bytesOf, dataSaid]

/-- A frame takes the first bytes of a parcel, and the others remain. -/
theorem drop_encode_append_rest {cap : Nat} {id : UInt32} {window : Int} {payload rest : Payload}
    {frame : DataFrame} (h : payload.chunk cap id window = (frame, rest)) :
    frame.encode.drop headerLength ++ rest.bytes = payload.bytes := by
  obtain ⟨rfl, rfl⟩ := Prod.mk.inj h
  rw [DataFrame.drop_encode]
  exact payload.take_append_drop _

/-! ## Nothing is lost -/

/-- The data that was accepted on a stream was handed over, is being written or waits, in this order. -/
def Delivered (r : StreamRef) (past : List Moment) (s : Session) : Prop :=
  sentData r past ++ (s.unsentData r ++ s.queuedData r) = acceptedData r past

section Moment

variable {cap : Nat} {r : StreamRef} {past : List Moment} {mo : Moment}

theorem Delivered.of_silent (ih : Delivered r past mo.before.session) (silent : mo.Silent)
    (hsame : mo.after.session.unsentData r ++ mo.after.session.queuedData r =
      mo.before.session.unsentData r ++ mo.before.session.queuedData r) :
    Delivered r (past ++ [mo]) mo.after.session := by
  rw [Delivered, sentData_append_of_none silent.handed, acceptedData_append_of_none silent.said, hsame]
  exact ih

theorem Delivered.post {new : List Parcel} {enc : Encoder} (ih : Delivered r past mo.before.session)
    (parcels : mo.after.session.outbox.parcels = mo.before.session.outbox.parcels ++ new)
    (outstanding : mo.after.session.outstanding = mo.before.session.outstanding)
    (said : Posted enc mo.before.session mo.after.session mo.said? new) (handed : mo.handed? = none) :
    Delivered r (past ++ [mo]) mo.after.session := by
  have hunsent : mo.after.session.unsentData r = mo.before.session.unsentData r := by
    rw [Session.unsentData, outstanding, Session.unsentData]
  have hqueued : mo.after.session.queuedData r =
      mo.before.session.queuedData r ++ dataSaid r mo.said? := by
    rw [Session.queuedData_of_append parcels, said.bytesOf r, Session.queuedData]
  rw [Delivered, sentData_append_of_none handed, acceptedData_append, hunsent, hqueued, ← ih]
  simp only [List.append_assoc]

theorem Delivered.hand {before after : List Parcel} {p : Parcel} {bytes : Bytes} {h : Handler}
    (ih : Delivered r past mo.before.session)
    (parcels : mo.before.session.outbox.parcels = before ++ p :: after)
    (parcels' : mo.after.session.outbox.parcels = before ++ after)
    (outstanding : mo.before.session.outstanding = [])
    (outstanding' : mo.after.session.outstanding = [h])
    (blocked : ∀ x ∈ before, mo.before.session.isReady x = false)
    (framed : Framed cap mo.before.session p bytes h.parcel) (said : mo.said? = none)
    (handed : mo.handed? = some (bytes, h)) : Delivered r (past ++ [mo]) mo.after.session := by
  have hunsent : mo.before.session.unsentData r = [] := Session.unsentData_of_nil outstanding
  have hunsent' := Session.unsentData_of_singleton (r := r) outstanding'
  have hqueued := Session.queuedData_of_cons (r := r) parcels
  have hqueued' := Session.queuedData_of_append (r := r) parcels'
  rw [Delivered, hunsent, hqueued] at ih
  rw [Delivered, hunsent', hqueued', acceptedData_append_of_none said, ← ih]
  generalize hparcel : h.parcel = q at framed
  cases framed with
  | control type bytes r' =>
    rw [sentData_append_of_control handed hparcel]
    rfl
  | @data r' payload written frame rest alive window chunk =>
    rw [sentData_append_of_data handed hparcel, Parcel.bytesOf, Parcel.bytesOf]
    by_cases hr : r' = r
    · subst hr
      have hready : (mo.before.session.stream r').isReady := by
        rw [Stream.isReady, decide_eq_true window, Bool.or_true]
      have hbefore : before.flatMap (·.bytesOf r') = [] :=
        Parcel.flatMap_bytesOf_eq_nil fun q hq => Session.dataOf?_ne_of_blocked (blocked q hq) hready
      rw [if_pos rfl, if_pos rfl, if_pos rfl, hbefore, ← drop_encode_append_rest chunk]
      simp only [List.nil_append, List.append_assoc]
    · rw [if_neg hr, if_neg hr, if_neg hr]
      simp only [List.nil_append, List.append_nil]

theorem Delivered.more {before after : List Parcel} {h : Handler} {r' : StreamRef} {payload : Payload}
    {written : Nat} (ih : Delivered r past mo.before.session)
    (outstanding : mo.before.session.outstanding = [h])
    (outstanding' : mo.after.session.outstanding = [])
    (parcel : h.parcel = .data r' payload written)
    (parcels : mo.before.session.outbox.parcels = before ++ after)
    (parcels' : mo.after.session.outbox.parcels = before ++ h.parcel :: after)
    (clear : ∀ q ∈ before, q.dataOf? ≠ some r') (silent : mo.Silent) :
    Delivered r (past ++ [mo]) mo.after.session := by
  refine ih.of_silent silent ?_
  rw [Session.unsentData_of_nil outstanding', Session.unsentData_of_singleton outstanding,
    Session.queuedData_of_append parcels, Session.queuedData_of_cons parcels']
  by_cases hr : r' = r
  · subst hr
    rw [Parcel.flatMap_bytesOf_eq_nil clear, List.nil_append, List.nil_append, List.nil_append]
  · have hnone : h.parcel.bytesOf r = [] := by rw [parcel, Parcel.bytesOf, if_neg hr]
    rw [hnone, List.nil_append, List.nil_append, List.nil_append]

theorem Delivered.next {ops : List Operation} (ih : Delivered r past mo.before.session)
    (covered : Covered ops mo.before) (onward : mo.before.session.Onward mo.after.session)
    (hreset : (mo.after.session.stream r).reset = false)
    (hwritten : mo.isFailure = false ∧ mo.isDrop = false) (passage : Passage cap mo) :
    Delivered r (past ++ [mo]) mo.after.session := by
  have hsame : mo.after.session.outbox.parcels = mo.before.session.outbox.parcels →
      mo.after.session.queuedData r = mo.before.session.queuedData r := by
    intro hparcels
    rw [Session.queuedData, hparcels, Session.queuedData]
  cases passage with
  | post parcels outstanding said handed => exact ih.post parcels outstanding said handed
  | @drop before after r' payload written parcels parcels' outstanding reset silent =>
    have hr : r' ≠ r := by
      rintro rfl
      rw [onward.reset reset] at hreset
      cases hreset
    have hnone : (Parcel.data r' payload written).bytesOf r = [] := if_neg hr
    refine ih.of_silent silent ?_
    rw [Session.unsentData, outstanding, ← Session.unsentData, Session.queuedData_of_append parcels',
      Session.queuedData_of_cons parcels, hnone, List.nil_append]
  | hand parcels parcels' outstanding outstanding' blocked framed said handed =>
    exact ih.hand parcels parcels' outstanding outstanding' blocked framed said handed
  | @written h parcels outstanding outstanding' whole silent =>
    have hnone : h.parcel.bytesOf r = [] := by
      cases hparcel : h.parcel with
      | control => rfl
      | data r' payload written => rw [Parcel.bytesOf, whole r' payload written hparcel, ite_self]
    refine ih.of_silent silent ?_
    rw [Session.unsentData_of_nil outstanding', Session.unsentData_of_singleton outstanding, hnone,
      hsame parcels]
  | @stuck h r' payload written e parcels outstanding outstanding' parcel credit silent =>
    have hmem : h ∈ mo.before.session.outstanding := outstanding ▸ List.mem_cons_self
    exact absurd credit (never_stuck covered hmem parcel)
  | more outstanding outstanding' parcel left parcels parcels' clear silent =>
    exact ih.more outstanding outstanding' parcel parcels parcels' clear silent
  | failed fails =>
    rw [hwritten.1] at fails
    cases fails
  | dropped drops =>
    rw [hwritten.2] at drops
    cases drops

end Moment

/-- Of the data that is accepted on a stream nothing is lost, sent twice or sent out of order, as long as
the stream is not reset, no write fails and no handler is given up: what was handed to the controller, what
remains of the parcel that is being written and what waits make up all that was accepted. Operations may
begin within calls to listeners and to the controller, and writes be reported there or later. The windows
are 32-bit numbers from the beginning, and SETTINGS come from a reader that hands over one frame after
another (`settingsInTurn_of_outermost`). -/
theorem data_conserved {cap : Nat} {config : Config} {primary : Option Listener} {s : Session}
    {past : List Moment} {m : Machine} (hnew : Session.new config primary = .ok s)
    (hconfig : config.initialWindow ≤ Stream.maxWindow)
    (run : Run (.standard cap) { session := s } past m) (hturn : SettingsInTurn past)
    (hwritten : ∀ mo ∈ past, mo.isFailure = false ∧ mo.isDrop = false) {r : StreamRef}
    (hreset : (m.session.stream r).reset = false) :
    sentData r past ++ (m.session.unsentData r ++ m.session.queuedData r) = acceptedData r past := by
  show Delivered r past m.session
  induction run with
  | start =>
    obtain ⟨-, rfl⟩ := Session.new_eq_ok hnew
    rfl
  | @next past m e m' run h ih =>
    have turn := turn_of_next? h (placed_of_run run)
    have onward := later_of_turn turn
    obtain ⟨hpast, -⟩ := settingsInTurn_append.1 hturn
    have hbefore : (m.session.stream r).reset = false := by
      cases hr : (m.session.stream r).reset with
      | false => rfl
      | true =>
        rw [onward.reset hr] at hreset
        cases hreset
    have hold := ih hpast (fun mo hmo => hwritten mo (List.mem_append_left _ hmo)) hbefore
    exact hold.next (covered_of_run hnew hconfig run hpast) onward hreset
      (hwritten _ (List.mem_append_right _ List.mem_cons_self))
      (passage_of_turn turn (owed_le_of_new hnew run))

/-- The window ends within the data, and SETTINGS let it go on. -/
theorem data_conserved_across_settings : ∃ s past m,
    Session.new { Config.client with initialWindow := 2 } none = .ok s ∧
      Run (.standard 16384) { session := s } past m ∧ SettingsInTurn past ∧
      (∀ mo ∈ past, mo.isFailure = false ∧ mo.isDrop = false) ∧
      (m.session.stream ⟨0⟩).reset = false ∧ sentData ⟨0⟩ past = [1, 2, 3] ∧
      m.session.unsentData ⟨0⟩ = [4] ∧ m.session.queuedData ⟨0⟩ = [5] ∧
      sentData ⟨0⟩ past ++ (m.session.unsentData ⟨0⟩ ++ m.session.queuedData ⟨0⟩) =
        acceptedData ⟨0⟩ past := by
  have hnew : Session.new { Config.client with initialWindow := 2 } none =
      .ok (.fresh { Config.client with initialWindow := 2 } none) := rfl
  have hrun := Machine.run_of_replay? (.standard 16384)
    { session := .fresh { Config.client with initialWindow := 2 } none }
    [.invoke (.syn .v3 (.plain default false) none), .tick, .tick, .answer none, .tick, .leave,
      .invoke (.complete 1), .tick, .tick, .tick, .leave,
      .invoke (.data ⟨0⟩ ⟨[1, 2, 3, 4], false⟩), .tick, .invoke (.complete 2), .tick, .leave,
      .answer none, .tick, .tick, .leave,
      .invoke (.data ⟨0⟩ ⟨[5], true⟩), .tick, .leave,
      .invoke (.receive (.control ⟨.v3, .settings 0 [⟨.initialWindowSize, 0, 3⟩]⟩)), .tick, .tick,
      .tick, .tick] rfl
  exact ⟨_, _, _, hnew, hrun, by decide, by decide, by decide, by decide, by decide, by decide,
    data_conserved hnew (by decide) hrun (by decide) (by decide) (by decide)⟩

end Spdy
