import Spdy.Proofs.FlowControl
import Spdy.Proofs.Response

/-!
# Streams leave when they are done

A stream that is given up leaves the table at once. One that is closed on both sides leaves it when the work of the
operation that closed it is done, or when the write of one of its control frames is reported. So none of them stays, as
long as every write is done and the controller does not break off.

* `Stream.marks` : which sides closed a stream, and whether it was given up;
* `Session.Delivers`, `delivers_of_passage` : a control frame on a stream waits or is being written, until that is
  reported;
* `Machine.Tends`, `tends_of_next?` : the stream is going to be taken out of the table;
* `quits_of_deed`, `unreset_of_run` : streams that come to be reset, and are not in the table any more;
* `Machine.Clears`, `clears_of_befalls` : streams in the table that are closed are tended;
* `closed_streams_leave` : what is in the table when no operation is in progress.
-/

namespace Spdy

/-! ## The marks of a stream -/

/-- Which sides say nothing more on a stream, and whether it was given up. -/
def Stream.marks (x : Stream) : Bool × Bool × Bool := (x.localClosed, x.remoteClosed, x.reset)

theorem Stream.marks_eq_iff {x y : Stream} :
    x.marks = y.marks ↔ x.localClosed = y.localClosed ∧ x.remoteClosed = y.remoteClosed ∧ x.reset = y.reset := by
  simp [marks]

theorem Stream.marks_of_still {x y : Stream} (h : x.still = y.still) : x.marks = y.marks := map_of_still marks h

theorem Stream.isClosed_of_marks {x y : Stream} (h : x.marks = y.marks) : x.isClosed = y.isClosed := by
  obtain ⟨hlocal, hremote, -⟩ := marks_eq_iff.1 h
  rw [isClosed, isClosed, hlocal, hremote]

namespace Session

variable {s t : Session}

theorem Same.marks (h : s.Same t) (r : StreamRef) : (t.stream r).marks = (s.stream r).marks := h.map Stream.marks r

theorem mem_forget {id : UInt32} {r : StreamRef} : r ∈ (s.forget id).table ↔ r ∈ s.table ∧ s.idOf r ≠ id := by
  rw [forget, List.mem_filter, bne_iff_ne]

theorem Sheds.mem {id : UInt32} (h : s.Sheds t id) {r : StreamRef} : r ∈ t.table ↔ r ∈ s.table ∧ s.idOf r ≠ id := by
  rw [h.table, List.mem_filter, bne_iff_ne]

/-! ## Control frames on a stream -/

/-- A control frame on a stream waits or is being written. -/
def Delivers (s : Session) (r : StreamRef) : Prop :=
  ∃ type bytes, .control type bytes (some r) ∈ s.outbox.parcels ∨
    ∃ x ∈ s.outstanding, x.parcel = .control type bytes (some r)

end Session

/-- A control frame on a stream is handed over, and the stream is looked after once that is reported. -/
theorem delivers_of_passage {cap : Nat} {m m' : Machine} {e : Event} (passage : Passage cap ⟨m, e, m'⟩)
    (hwritten : Moment.isFailure ⟨m, e, m'⟩ = false)
    (report : ∀ x ∈ m.session.outstanding, x ∈ m'.session.outstanding ∨
      m'.session = ((m.session.dropHandler x.seq).wrote x.parcel).session ∧
        m'.tasks = ((m.session.dropHandler x.seq).wrote x.parcel).todo ++ m.tasks)
    {r : StreamRef} (hr : m.session.Delivers r) : .reclaim r ∈ m'.tasks ∨ m'.session.Delivers r := by
  obtain ⟨type, bytes, hwaits | ⟨x, hx, hparcel⟩⟩ := hr
  · rcases control_of_passage passage hwaits rfl with hwaits | ⟨bytes', x, -, hparcel, hx⟩ | fails
    · exact .inr ⟨type, bytes, .inl hwaits⟩
    · exact .inr ⟨type, bytes, .inr ⟨x, hx, hparcel⟩⟩
    · cases hwritten.symm.trans fails
  · rcases report x hx with hx | ⟨-, htasks⟩
    · exact .inr ⟨type, bytes, .inr ⟨x, hx, hparcel⟩⟩
    · left
      rw [htasks, hparcel]
      simp [Session.wrote]

/-! ## Streams that are tended -/

/-- A stream is going to be taken out of the table if it is closed: that is left to do, or a control frame on it waits
or is being written. -/
def Machine.Tends (m : Machine) (r : StreamRef) : Prop := .reclaim r ∈ m.tasks ∨ m.session.Delivers r

section Moment

variable {cap : Nat} {m m' : Machine} {e : Event}

/-- A closed stream that is going to be taken out stays so until it is out. -/
theorem tends_of_next? (h : m.next? (.standard cap) e = some m') (passage : Passage cap ⟨m, e, m'⟩)
    (hwritten : Moment.isFailure ⟨m, e, m'⟩ = false) (hbreak : Moment.isBreak ⟨m, e, m'⟩ = false)
    (report : ∀ x ∈ m.session.outstanding, x ∈ m'.session.outstanding ∨
      m'.session = ((m.session.dropHandler x.seq).wrote x.parcel).session ∧
        m'.tasks = ((m.session.dropHandler x.seq).wrote x.parcel).todo ++ m.tasks)
    {r : StreamRef} (hr : r ∈ m'.session.table) (hclosed : (m'.session.stream r).isClosed) (htends : m.Tends r) :
    m'.Tends r := by
  rcases htends with htask | hdelivers
  · rcases task?_of_gone h hbreak htask rfl with htask | htask
    · exact .inl htask
    · obtain ⟨hsession, -⟩ := session_of_task? h htask
      by_cases hbefore : (m.session.stream r).isClosed
      · rw [hsession] at hr
        exact absurd hr (Session.perform_reclaim hbefore)
      · have hsame : m'.session = m.session := by
          rw [hsession, Session.perform, if_neg hbefore]
        rw [hsame] at hclosed
        exact absurd hclosed hbefore
  · exact delivers_of_passage passage hwritten report hdelivers

/-! ## Streams that are reset -/

section Deed

variable {s : Session} {op : Option Operation} {task : Option Task} {p : Progress} {new : List Parcel} {r : StreamRef}

namespace Session

theorem reset_of_still {t : Session} (h : (t.stream r).still = (s.stream r).still) :
    (t.stream r).reset = (s.stream r).reset := Stream.map_of_still (·.reset) h

theorem reset_register (s : Session) {x : Stream} (hx : x.reset = false) (h : (s.stream r).reset = false) :
    ((s.register x).stream r).reset = false := by
  rcases Nat.lt_trichotomy r.serial s.streams.size with hlt | heq | hgt
  · rw [stream_register_of_lt _ hlt]
    exact h
  · obtain rfl : r = s.nextRef := congrArg StreamRef.mk heq
    rw [stream_register_nextRef]
    exact hx
  · rw [stream_eq, register, Array.getElem?_eq_none (by rw [Array.size_push]; omega)]
    rfl

theorem Abandons.mem_of_reset {t : Session} {id : UInt32} (h : s.Abandons t id) (before : (s.stream r).reset = false)
    (after : (t.stream r).reset = true) : r ∈ s.table ∧ s.idOf r = id := by
  by_contra hr
  have hsame := reset_of_still (h.others r (not_and_or.1 hr))
  rw [before, after] at hsame
  cases hsame

end Session

/-- Work by which a stream comes to be reset. -/
theorem quits_of_deed (deed : Deed (.standard cap) s op task p new) (before : (s.stream r).reset = false)
    (after : (p.session.stream r).reset = true) :
    r ∈ s.table ∧ r ∉ p.session.table ∧
      ((∃ version status bytes, Quits op task version (s.idOf r) status ∧
          Session.encodeReset (.standard cap) version (s.idOf r) status = .ok bytes ∧
          new = [.control .rstStream bytes none]) ∨
        (∃ version status refusal, Quits op task version (s.idOf r) status ∧
          Session.encodeReset (.standard cap) version (s.idOf r) status = .error refusal ∧ new = []) ∨
        task = some (.lose (s.idOf r)) ∧ new = []) := by
  have hnot : (p.session.stream r).reset = (s.stream r).reset → False := by
    intro h
    rw [before, after] at h
    cases h
  have hborn : ∀ (t : Session) {x : Stream}, (t.stream r).reset = false → x.reset = false →
      (t.register x).Same p.session → False := fun t x ht hx same =>
    hnot ((Session.reset_of_still (same.still r)).trans ((Session.reset_register t hx ht).trans before.symm))
  cases deed with
  | same same => exact (hnot (Session.reset_of_still (same.still r))).elim
  | data known same => exact (hnot (Session.reset_of_still (same.still r))).elim
  | said known isHead notOpening about encoded localOpen same => exact (hnot (same.map_of_mark (·.reset))).elim
  | opened asks bidirectional sent encoded hasId localClosed remoteClosed reset same =>
    exact (hborn { s with nextStreamId := s.nextStreamId + 2 } before reset same).elim
  | unopened asks bidirectional sent same => exact (hnot (Session.reset_of_still (same.still r))).elim
  | born asks sent valid remote absent hasId localClosed remoteClosed reset same => exact (hborn s before reset same).elim
  | heard asks about mem same => exact (hnot (same.map_of_mark (·.reset))).elim
  | quit cause encoded abandons =>
    obtain ⟨hmem, rfl⟩ := abandons.mem_of_reset before after
    exact ⟨hmem, fun hr => (abandons.mem.1 hr).2 rfl, .inl ⟨_, _, _, cause, encoded, rfl⟩⟩
  | muffled cause refused abandons =>
    obtain ⟨hmem, rfl⟩ := abandons.mem_of_reset before after
    exact ⟨hmem, fun hr => (abandons.mem.1 hr).2 rfl, .inr (.inl ⟨_, _, _, cause, refused, rfl⟩)⟩
  | lost does abandons =>
    obtain ⟨hmem, rfl⟩ := abandons.mem_of_reset before after
    exact ⟨hmem, fun hr => (abandons.mem.1 hr).2 rfl, .inr (.inr ⟨does, rfl⟩)⟩
  | reclaimed does closed sheds still => exact (hnot (Session.reset_of_still (still r))).elim

end Deed

/-- A stream that comes to be reset is not in the table any more. -/
theorem unreset_of_befalls (befalls : Befalls cap ⟨m, e, m'⟩)
    (old : ∀ r ∈ m'.session.table, r ∈ m.session.table ∨ m.session.streams.size ≤ r.serial)
    (h : ∀ r ∈ m.session.table, (m.session.stream r).reset = false) :
    ∀ r ∈ m'.session.table, (m'.session.stream r).reset = false := by
  intro r hr
  have before : (m.session.stream r).reset = false := (old r hr).elim (h r) fun hnew => by
    rw [Session.stream_of_size_le hnew]
    rfl
  cases befalls with
  | work deed session parcels todo =>
    rw [session] at hr ⊢
    exact Bool.eq_false_iff.2 fun after => (quits_of_deed deed before after).2.1 hr
  | still same => exact (Session.reset_of_still (same.still r)).trans before
  | @answered q reply opening listener waits same =>
    exact (Session.reset_of_still (same.still r)).trans ((m.session.map_stream_update (·.reset) q r rfl).trans before)
  | wrote mem same => exact (Session.reset_of_still (same.still r)).trans before
  | @closed x q payload written mem parcel empty close same reclaims =>
    exact (same.map_of_mark (b := true) (·.reset)).trans before

/-! ## The table is cleared -/

/-- Streams in the table that are closed on both sides are going to be taken out. -/
def Machine.Clears (m : Machine) : Prop := ∀ r ∈ m.session.table, (m.session.stream r).isClosed → m.Tends r

namespace Session

/-- A stream that is registered is new, or it has the marks that it had. -/
theorem marks_of_mem_register {s : Session} (tidy : s.Tidy) {x : Stream} {r : StreamRef}
    (hr : r ∈ (s.register x).table) :
    r ∈ s.table ∧ ((s.register x).stream r).marks = (s.stream r).marks ∨
      r = s.nextRef ∧ (s.register x).stream r = x := by
  rcases mem_table_register.1 hr with ⟨hmem, -⟩ | rfl
  · exact .inl ⟨hmem, by rw [stream_register_of_lt x (tidy.known r hmem)]⟩
  · exact .inr ⟨rfl, stream_register_nextRef s x⟩

end Session

theorem Machine.Clears.of_marks (h : m.Clears) {r : StreamRef} (hr : r ∈ m.session.table)
    (hmarks : (m'.session.stream r).marks = (m.session.stream r).marks)
    (htends : m.Tends r → m'.Tends r) (hclosed : (m'.session.stream r).isClosed) : m'.Tends r :=
  htends (h r hr (Stream.isClosed_of_marks hmarks ▸ hclosed))

theorem Machine.Clears.of_mark (h : m.Clears) {b : Bool} {q r : StreamRef} {f : Stream → Stream}
    (same : (if b then m.session.update q f else m.session).Same m'.session)
    (hr : r ∈ m'.session.table) (hq : m'.Tends q) (htends : m.Tends r → m'.Tends r)
    (hclosed : (m'.session.stream r).isClosed) : m'.Tends r := by
  rw [same.table_of_mark] at hr
  by_cases hne : r = q
  · exact hne ▸ hq
  · exact h.of_marks hr (Stream.marks_of_still (same.still_of_mark fun _ => hne)) htends hclosed

theorem clears_of_deed {p : Progress} {new : List Parcel} {op : Option Operation} {task : Option Task}
    (deed : Deed (.standard cap) m.session op task p new) (session : m'.session = p.session)
    (parcels : m'.session.outbox.parcels = m.session.outbox.parcels ++ new) (todo : ∀ x ∈ p.todo, x ∈ m'.tasks)
    (tidy : m.session.Tidy) (h : m.Clears)
    (htends : ∀ r ∈ m'.session.table, (m'.session.stream r).isClosed → m.Tends r → m'.Tends r) : m'.Clears := by
  intro r hr hclosed
  replace htends := htends r hr hclosed
  have old : r ∈ m.session.table → (m'.session.stream r).marks = (m.session.stream r).marks → m'.Tends r :=
    fun hmem hmarks => h.of_marks hmem hmarks htends hclosed
  have hr' := hr
  rw [session] at hr'
  cases deed with
  | same same announces =>
    rw [same.table] at hr'
    exact old hr' (session ▸ same.marks r)
  | data known same =>
    rw [same.table] at hr'
    exact old hr' (session ▸ same.marks r)
  | @said q f bytes known isHead notOpening about encoded localOpen same =>
    refine h.of_mark (session ▸ same) hr (.inr ⟨f.type, bytes, .inl ?_⟩) htends hclosed
    rw [parcels]
    exact List.mem_append_right _ List.mem_cons_self
  | @opened version opening listener bytes x asks bidirectional sent encoded hasId localClosed remoteClosed reset
      same =>
    rw [same.table] at hr'
    have hmarks := same.marks r
    rw [← session] at hmarks
    -- the id that is used up has nothing to do with the streams that are there
    have htidy : Session.Tidy { m.session with nextStreamId := m.session.nextStreamId + 2 } := ⟨tidy.known, tidy.nodup⟩
    rcases Session.marks_of_mem_register htidy hr' with ⟨hmem, hold⟩ | ⟨-, hnew⟩
    · exact old hmem (hmarks.trans hold)
    · rw [hnew] at hmarks
      rw [Stream.isClosed_of_marks hmarks, Stream.isClosed, remoteClosed, Bool.and_false] at hclosed
      cases hclosed
  | unopened asks bidirectional sent same =>
    rw [same.table, Session.mem_forget] at hr'
    exact old hr'.1 (session ▸ same.marks r)
  | @born version flags id associatedId priority headers opening x asks sent valid remote absent hasId localClosed
      remoteClosed reset same todo' =>
    rw [same.table] at hr'
    have hmarks := same.marks r
    rw [← session] at hmarks
    rcases Session.marks_of_mem_register tidy hr' with ⟨hmem, hold⟩ | ⟨rfl, hnew⟩
    · exact old hmem (hmarks.trans hold)
    · refine .inl (todo _ ?_)
      rw [todo']
      simp
  | @heard got q asks about mem same reclaims =>
    exact h.of_mark (session ▸ same) hr (.inl (todo _ reclaims)) htends hclosed
  | quit cause encoded abandons =>
    obtain ⟨hmem, hid⟩ := abandons.mem.1 hr'
    exact old hmem (session ▸ Stream.marks_of_still (abandons.others r (.inr hid)))
  | muffled cause refused abandons =>
    obtain ⟨hmem, hid⟩ := abandons.mem.1 hr'
    exact old hmem (session ▸ Stream.marks_of_still (abandons.others r (.inr hid)))
  | lost does abandons =>
    obtain ⟨hmem, hid⟩ := abandons.mem.1 hr'
    exact old hmem (session ▸ Stream.marks_of_still (abandons.others r (.inr hid)))
  | reclaimed does closed sheds still =>
    exact old (sheds.mem.1 hr').1 (session ▸ Stream.marks_of_still (still r))

theorem clears_of_befalls (befalls : Befalls cap ⟨m, e, m'⟩) (tidy : m.session.Tidy) (h : m.Clears)
    (htends : ∀ r ∈ m'.session.table, (m'.session.stream r).isClosed → m.Tends r → m'.Tends r) : m'.Clears := by
  have of_marks : m'.session.table = m.session.table →
      (∀ r, (m'.session.stream r).marks = (m.session.stream r).marks) → m'.Clears := fun htable hmarks r hr hclosed =>
    h.of_marks (htable ▸ hr) (hmarks r) (htends r hr hclosed) hclosed
  cases befalls with
  | work deed session parcels todo => exact clears_of_deed deed session parcels todo tidy h htends
  | still same => exact of_marks same.table same.marks
  | @answered q reply opening listener waits same =>
    exact of_marks same.table fun r => (same.marks r).trans (m.session.map_stream_update Stream.marks q r rfl)
  | wrote mem same => exact of_marks same.table same.marks
  | @closed x q payload written mem parcel empty close same reclaims =>
    exact fun r hr hclosed => h.of_mark (b := true) same hr (.inl reclaims) (htends r hr hclosed) hclosed

end Moment

section Run

variable {cap : Nat} {config : Config} {primary : Option Listener} {s : Session} {past : List Moment} {m : Machine}

theorem unreset_of_run (hnew : Session.new config primary = .ok s) (run : Run (.standard cap) { session := s } past m) :
    ∀ r ∈ m.session.table, (m.session.stream r).reset = false := by
  induction run with
  | start =>
    obtain ⟨-, rfl⟩ := Session.new_eq_ok hnew
    exact fun r hr => absurd hr List.not_mem_nil
  | next run h ih =>
    exact unreset_of_befalls (befalls_of_next? h (tidy_of_run hnew run))
      (forward_of_turn (turn_of_next? h (placed_of_run run))).table ih

theorem clears_of_run (hnew : Session.new config primary = .ok s)
    (run : Run (.standard cap) { session := s } past m)
    (hwritten : ∀ mo ∈ past, mo.isFailure = false ∧ mo.isDrop = false)
    (hunbroken : ∀ mo ∈ past, mo.isBreak = false) : m.Clears := by
  induction run with
  | start =>
    obtain ⟨-, rfl⟩ := Session.new_eq_ok hnew
    exact fun r hr => absurd hr List.not_mem_nil
  | @next past m m' e run h ih =>
    have hlast := hwritten ⟨m, e, m'⟩ (List.mem_append_right _ List.mem_cons_self)
    have hbreak := hunbroken ⟨m, e, m'⟩ (List.mem_append_right _ List.mem_cons_self)
    have tidy := tidy_of_run hnew run
    have clears := ih (fun mo hmo => hwritten mo (List.mem_append_left _ hmo))
      fun mo hmo => hunbroken mo (List.mem_append_left _ hmo)
    refine clears_of_befalls (befalls_of_next? h tidy) tidy clears fun r hr hclosed htends => ?_
    exact tends_of_next? h (passage_of_next? hnew run h) hlast.1 hbreak (fun x hx => report_of_gone hnew run h hlast hx)
      hr hclosed htends

end Run

/-- Once no operation is in progress, no stream in the table was given up, and each one that is closed on both sides has
a control frame that waits or is being written; so if nothing waits and nothing is being written, all streams in the
table are open on one side at least. Operations may begin within calls, and listeners may break off. No write fails, no
handler is given up, and the controller does not break off: what its operation had left to do would not be done. -/
theorem closed_streams_leave {cap : Nat} {config : Config} {primary : Option Listener} {s : Session}
    {past : List Moment} {m : Machine} (hnew : Session.new config primary = .ok s)
    (run : Run (.standard cap) { session := s } past m)
    (hwritten : ∀ mo ∈ past, mo.isFailure = false ∧ mo.isDrop = false)
    (hunbroken : ∀ mo ∈ past, mo.isBreak = false) (hstack : m.stack = []) :
    (∀ r ∈ m.session.table, (m.session.stream r).reset = false) ∧
      (∀ r ∈ m.session.table, (m.session.stream r).isClosed → m.session.Delivers r) ∧
      (m.session.outbox.parcels = [] → m.session.outstanding = [] →
        ∀ r ∈ m.session.table, (m.session.stream r).isClosed = false) := by
  have clears := clears_of_run hnew run hwritten hunbroken
  have hdelivers : ∀ r ∈ m.session.table, (m.session.stream r).isClosed → m.session.Delivers r := by
    intro r hr hclosed
    refine (clears r hr hclosed).resolve_left fun htask => ?_
    rw [Machine.tasks, hstack] at htask
    cases htask
  refine ⟨unreset_of_run hnew run, hdelivers, fun hparcels hout r hr => ?_⟩
  cases hclosed : (m.session.stream r).isClosed with
  | false => rfl
  | true =>
    obtain ⟨type, bytes, hwaits | ⟨x, hx, -⟩⟩ := hdelivers r hr hclosed
    · rw [hparcels] at hwaits
      cases hwaits
    · rw [hout] at hx
      cases hx

/-- The listener that is told of a new stream breaks off; the frame that closes the stream is being written. -/
theorem closed_streams_leave_after_write : ∃ s past m, Session.new .client (some ⟨"app"⟩) = .ok s ∧
    Run (.standard 16384) { session := s } past m ∧
      (∀ mo ∈ past, mo.isFailure = false ∧ mo.isDrop = false) ∧ (∀ mo ∈ past, mo.isBreak = false) ∧
      m.stack = [] ∧ m.session.table = [⟨0⟩] ∧ (m.session.stream ⟨0⟩).isClosed ∧ m.session.Delivers ⟨0⟩ := by
  have hnew : Session.new .client (some ⟨"app"⟩) = .ok (.fresh .client (some ⟨"app"⟩)) := rfl
  have hrun := Machine.run_of_replay? (.standard 16384) { session := .fresh .client (some ⟨"app"⟩) }
    [.invoke (.receive (.control ⟨.v3, .synStream 1 2 0 0 default⟩)), .tick, .tick, .panic (.raised none), .tick, .tick,
      .leave, .invoke (.reply ⟨0⟩ ⟨default, true⟩), .tick, .answer none, .tick, .leave] rfl
  exact ⟨_, _, _, hnew, hrun, by decide, by decide, rfl, rfl, rfl,
    (closed_streams_leave hnew hrun (by decide) (by decide) rfl).2.1 _ List.mem_cons_self rfl⟩

/-- Where the controller breaks off, a closed stream stays. While the first ping is written, the second one is asked
for, the first one is reported, and a stream comes that both sides say nothing more on; the controller breaks off as it
is to write the second ping, before the stream is taken out. -/
theorem closed_stream_stays : ∃ s past m, Session.new .client none = .ok s ∧
    Run (.standard 16384) { session := s } past m ∧ (∀ mo ∈ past, mo.isFailure = false ∧ mo.isDrop = false) ∧
      m.stack = [] ∧ m.session.outbox.parcels = [] ∧ m.session.outstanding = [] ∧
      ∃ r ∈ m.session.table, (m.session.stream r).isClosed := by
  have hrun := Machine.run_of_replay? (.standard 16384) { session := .fresh .client none }
    [.invoke (.ping .v3), .tick, .invoke (.ping .v3), .tick, .leave, .invoke (.complete 1), .tick, .leave,
      .invoke (.receive (.control ⟨.v3, .synStream 3 2 0 0 default⟩)), .tick, .tick, .tick, .panic (.raised none),
      .leave, .answer none, .tick, .leave, .invoke (.complete 2), .tick, .leave] rfl
  exact ⟨_, _, _, rfl, hrun, by decide, rfl, rfl, rfl, ⟨0⟩, List.mem_cons_self, rfl⟩

end Spdy
