import Spdy.Proofs.Panics
import Spdy.Proofs.Parting

/-!
# A session that is at its end closes its connection

The connection is closed once the announcement of the end was written, once a write failed, once the other side
announced the end, or once an exception is reported after that. An announcement may have to wait for other frames, go
with them when a write fails, or not be made because the other side was first; whichever it is, the connection is closed
in the end.

* `called?_of_failure`, `handed_of_goAway`, `closed_of_goAway` : where an announcement of this side goes;
* `Closes`, `closes_of_run` : the connection was closed or is going to be, once one of the sides announced the end;
* `closed_of_exception` : what an exception comes to;
* `finished_session_closes` : nothing is left of a session at its end but a closed connection.
-/

namespace Spdy

section Moment

variable {cap : Nat} {config : Config} {primary : Option Listener} {s : Session} {past : List Moment}
  {m m' : Machine} {e : Event}

/-! ## Where an announcement goes -/

theorem called?_of_fail {seq : Nat} {fault : SocketFault}
    (h : m.next? (.standard cap) (.invoke (.fail seq fault)) = some m') :
    Moment.called? ⟨m, .invoke (.fail seq fault), m'⟩ = some (.close false) := by
  refine called?_of_begin h ?_
  cases Machine.happens_of_next? h with
  | invoke op yields possible =>
    obtain ⟨x, -, -, heq⟩ := Session.report_of_possible (fun s p => s.notWritten p fault) possible
    rw [Session.begin, heq]
    rfl

theorem called?_of_failure (h : m.next? (.standard cap) e = some m') (fails : Moment.isFailure ⟨m, e, m'⟩) :
    Moment.called? ⟨m, e, m'⟩ = some (.close false) := by
  cases e with
  | invoke op =>
    cases op with
    | fail seq fault => exact called?_of_fail h
    | _ => cases fails
  | _ => cases fails

/-- An announcement that waits does so until it is handed over, or a write fails and the connection is closed. -/
theorem handed_of_goAway (hnew : Session.new config primary = .ok s)
    (run : Run (.standard cap) { session := s } past m) (h : m.next? (.standard cap) e = some m') {q : Parcel}
    (hq : q ∈ m.session.outbox.parcels) (goAway : q.isGoAway) :
    q ∈ m'.session.outbox.parcels ∨
      (∃ bytes x, Moment.handed? ⟨m, e, m'⟩ = some (bytes, x) ∧ x.parcel = q ∧ x ∈ m'.session.outstanding) ∨
      Moment.called? ⟨m, e, m'⟩ = some (.close false) := by
  have hcontrol : q.dataOf? = none := Option.isNone_iff_eq_none.1 (Parcel.isControl_of_isGoAway goAway)
  rcases control_of_passage (passage_of_next? hnew run h) hq hcontrol with hwaits | hhanded | fails
  · exact .inl hwaits
  · exact .inr (.inl hhanded)
  · exact .inr (.inr (called?_of_failure h fails))

/-- An announcement that is being written is so until the connection is closed, unless its handler is given up. -/
theorem closed_of_goAway (hnew : Session.new config primary = .ok s)
    (run : Run (.standard cap) { session := s } past m) (h : m.next? (.standard cap) e = some m')
    (undropped : Moment.isDrop ⟨m, e, m'⟩ = false) {x : Handler} (hx : x ∈ m.session.outstanding)
    (goAway : x.parcel.isGoAway) :
    x ∈ m'.session.outstanding ∨ Moment.called? ⟨m, e, m'⟩ = some (.close false) := by
  rcases event_of_gone hnew run h hx with hx' | rfl | ⟨fault, rfl⟩ | hdrop
  · exact .inl hx'
  · have hreport := report_of_outstanding hnew run hx Session.wrote
    generalize hparcel : x.parcel = q at goAway hreport
    unfold Parcel.isGoAway at goAway
    split at goAway
    · refine .inr (called?_of_begin h ?_)
      rw [Session.begin, hreport]
      rfl
    · cases goAway
  · exact .inr (called?_of_fail h)
  · cases undropped.symm.trans hdrop

/-! ## The connection is going to be closed -/

/-- The connection was closed, or it is going to be: that is ahead, or an announcement waits or is being written. -/
inductive Closes (past : List Moment) (m : Machine) : Prop
  | closed {graceful : Bool} (made : .close graceful ∈ calls past)
  | ahead {graceful : Bool} (mem : .call (.close graceful) ∈ m.ahead)
  | waits {q : Parcel} (mem : q ∈ m.session.outbox.parcels) (goAway : q.isGoAway)
  | leaves {x : Handler} (mem : x ∈ m.session.outstanding) (goAway : x.parcel.isGoAway)

theorem mem_calls_append {mo : Moment} {c : Call} (h : c ∈ calls past ∨ mo.called? = some c) :
    c ∈ calls (past ++ [mo]) := by
  rw [calls, List.filterMap_append, List.mem_append, ← calls]
  exact h.imp_right fun hmo => List.mem_filterMap.2 ⟨mo, List.mem_cons_self, hmo⟩

theorem Closes.of_called {mo : Moment} {graceful : Bool} (h : mo.called? = some (.close graceful)) :
    Closes (past ++ [mo]) mo.after := .closed (mem_calls_append (.inr h))

theorem Closes.step (hnew : Session.new config primary = .ok s) (run : Run (.standard cap) { session := s } past m)
    (h : m.next? (.standard cap) e = some m') (unbroken : Moment.isBreak ⟨m, e, m'⟩ = false)
    (undropped : Moment.isDrop ⟨m, e, m'⟩ = false) (closes : Closes past m) : Closes (past ++ [⟨m, e, m'⟩]) m' := by
  cases closes with
  | closed made => exact .closed (mem_calls_append (.inl made))
  | ahead mem =>
    rcases call_of_agenda (agenda_of_next? h) unbroken mem with hcalled | mem
    · exact .of_called hcalled
    · exact .ahead mem
  | waits mem goAway =>
    rcases handed_of_goAway hnew run h mem goAway with mem | ⟨bytes, x, -, rfl, leaves⟩ | hcalled
    · exact .waits mem goAway
    · exact .leaves leaves goAway
    · exact .of_called hcalled
  | leaves mem goAway =>
    rcases closed_of_goAway hnew run h undropped mem goAway with mem | hcalled
    · exact .leaves mem goAway
    · exact .of_called hcalled

/-- An announcement of this side that comes first is enqueued. -/
theorem Session.begin_announces {s : Session} (sent : s.goAwaySent = false) (received : s.goAwayReceived = false)
    (alive : Bool) {op : Operation} (asks : op.announces) :
    ∃ q ∈ (s.begin (.standard cap) alive op).session.outbox.parcels, q.isGoAway := by
  have hend : ∀ version status, ∃ bytes, s.announceEnd (.standard cap) version status =
      ({ session := { s with goAwaySent := true }.enqueue (.control .goAway bytes none), todo := [.flush] }, none) := by
    intro version status
    obtain ⟨bytes, hbytes⟩ := encode_goAway version s.lastStreamId (UInt32.ofNat status.code)
    refine ⟨bytes, ?_⟩
    rw [announceEnd, sent, if_neg Bool.false_ne_true]
    dsimp only
    rw [received, if_neg Bool.false_ne_true, Encoder.standard]
    dsimp only
    rw [hbytes]
  cases op with
  | goAway version =>
    obtain ⟨bytes, heq⟩ := hend version .ok
    refine ⟨.control .goAway bytes none, ?_, rfl⟩
    rw [begin, beginGoAway, heq]
    exact List.mem_append_right _ List.mem_cons_self
  | receive got =>
    cases got with
    | sessionException e =>
      obtain ⟨bytes, heq⟩ := hend s.config.version e.status
      refine ⟨.control .goAway bytes none, ?_, rfl⟩
      rw [begin, receive, receiveSessionException, if_neg (by simp [sent, received]), heq]
      exact List.mem_append_right _ List.mem_cons_self
    | _ => cases asks
  | _ => cases asks

/-- Where one of the sides announces the end for the first time, the connection is going to be closed. -/
theorem closes_of_parts (h : m.next? (.standard cap) e = some m')
    (before : m.session.goAwaySent = false ∧ m.session.goAwayReceived = false)
    (after : m'.session.goAwaySent ∨ m'.session.goAwayReceived) : Closes (past ++ [⟨m, e, m'⟩]) m' := by
  have of_keeps : ∀ {t : Session}, t.ending = m.session.ending → ¬(t.goAwaySent ∨ t.goAwayReceived) := by
    intro t hending hafter
    obtain ⟨hsent, hreceived, -⟩ := Session.ending_eq_iff.1 hending
    rw [hsent, hreceived, before.1, before.2] at hafter
    rcases hafter with hafter | hafter <;> cases hafter
  cases agenda_of_next? h with
  | @begins op asks session ahead =>
    cases m.session.begin_parts (.standard cap) m.isAlive op with
    | stays deaf stays => exact absurd after (of_keeps (session ▸ stays.ending))
    | ends announces ends =>
      obtain ⟨q, hq, goAway⟩ := @Session.begin_announces cap _ before.1 before.2 m.isAlive op announces
      apply Closes.waits _ goAway
      rw [session]
      exact hq
    | hears asks' session' todo =>
      -- closing comes last of what is done for the other side's announcement
      have hmem : .call (.close true) ∈ Moment.made ⟨m, e, m'⟩ ++ m'.ahead := by
        rw [ahead]
        apply List.mem_append_left
        rw [todo]
        simp
      rcases List.mem_append.1 hmem with hmade | hahead
      · exact .of_called (Moment.called?_of_made hmade)
      · exact .ahead hahead
  | performs unasked notCall session =>
    exact absurd after (of_keeps (session ▸ (m.session.perform_keeps _ _).ending))
  | returns unasked calm control =>
    refine absurd after (of_keeps ?_)
    rw [Session.ending, control.1, control.2.1, control.2.2, ← Session.ending]
  | breaks unasked broken session => exact absurd after (of_keeps (session ▸ rfl))
  | drops unasked dropped session => exact absurd after (of_keeps (session ▸ rfl))

/-- An exception makes the session announce its end, if none of the sides did. -/
theorem sent_of_exception {x : SessionException}
    (h : m.next? (.standard cap) (.invoke (.receive (.sessionException x))) = some m')
    (hopen : ¬(m.session.goAwaySent ∨ m.session.goAwayReceived)) : m'.session.goAwaySent := by
  have hsent : m.session.goAwaySent = false := by simpa using (not_or.1 hopen).1
  cases Machine.happens_of_next? h with
  | invoke op yields possible =>
    have hends := m.session.announceEnd_ends (.standard cap) m.session.config.version x.status hsent
    show (m.session.receiveSessionException (.standard cap) x).session.goAwaySent
    rw [Session.receiveSessionException, if_neg hopen]
    split
    · next heq =>
      rw [heq] at hends
      exact (Session.ending_eq_iff.1 hends.ending).1
    · next heq =>
      rw [heq] at hends
      exact (Session.ending_eq_iff.1 hends.ending).1

theorem closed_of_exception {x : SessionException}
    (h : m.next? (.standard cap) (.invoke (.receive (.sessionException x))) = some m') :
    m'.session.goAwaySent ∨ Moment.called? ⟨m, .invoke (.receive (.sessionException x)), m'⟩ = some (.close false) := by
  by_cases hended : m.session.goAwaySent ∨ m.session.goAwayReceived
  · right
    apply called?_of_begin h
    rw [Session.begin, Session.receive, Session.receiveSessionException, if_pos hended]
    rfl
  · exact .inl (sent_of_exception h hended)

end Moment

section Run

variable {cap : Nat} {config : Config} {primary : Option Listener} {s : Session} {past : List Moment} {m : Machine}

/-- Once one of the sides announced the end, the connection was closed or is going to be. -/
theorem closes_of_run (hnew : Session.new config primary = .ok s)
    (run : Run (.standard cap) { session := s } past m) (horderly : ∀ mo ∈ past, mo.isOrderly)
    (hended : m.session.goAwaySent ∨ m.session.goAwayReceived) : Closes past m := by
  induction run with
  | start =>
    obtain ⟨-, rfl⟩ := Session.new_eq_ok hnew
    rcases hended with hended | hended <;> cases hended
  | @next past m m' e run h ih =>
    have hlast := horderly ⟨m, e, m'⟩ (List.mem_append_right _ List.mem_cons_self)
    simp only [Moment.isOrderly, Bool.and_eq_true, Bool.not_eq_true'] at hlast
    by_cases hbefore : m.session.goAwaySent ∨ m.session.goAwayReceived
    · have hcloses := ih (fun mo hmo => horderly mo (List.mem_append_left _ hmo)) hbefore
      exact hcloses.step hnew run h hlast.2 hlast.1
    · exact closes_of_parts h (by simpa using hbefore) hended

/-- Once a session exception was reported, this side announced the end or the connection was closed. -/
theorem ended_of_exception (run : Run (.standard cap) { session := s } past m) {mo : Moment} (hmo : mo ∈ past)
    {x : SessionException} (hop : mo.op? = some (.receive (.sessionException x))) :
    m.session.goAwaySent ∨ .close false ∈ calls past := by
  obtain ⟨pre, post, rfl⟩ := List.append_of_mem hmo
  obtain ⟨-, hnext⟩ := run.of_append
  obtain ⟨before, event, after⟩ := mo
  cases event with
  | invoke op =>
    obtain rfl : op = .receive (.sessionException x) := Option.some.inj hop
    rcases closed_of_exception hnext with hsent | hcalled
    · exact .inl (goAwaySent_since run hsent)
    · right
      exact List.mem_filterMap.2 ⟨_, hmo, hcalled⟩
  | _ => cases hop

end Run

/-- A session that is at its end closes its connection: where this side announced the end, or a session exception was
reported, the controller was told to close the connection once no operation is in progress and no write is outstanding,
and no announcement waits then. An announcement that waits does so until it is handed over, and one that is being
written is written until its write is reported; otherwise a write failed, or was reported, and the controller is told
to close the connection in that moment. Operations may begin within calls, and writes may fail; the controller does not
break off, and reports all writes. -/
theorem finished_session_closes {cap : Nat} {config : Config} {primary : Option Listener} {s : Session}
    {past : List Moment} {m : Machine} (hnew : Session.new config primary = .ok s)
    (run : Run (.standard cap) { session := s } past m) (horderly : ∀ mo ∈ past, mo.isOrderly) :
    (m.stack = [] → m.session.outstanding = [] →
      (m.session.goAwaySent ∨ ∃ mo ∈ past, ∃ x, mo.op? = some (.receive (.sessionException x))) →
        ∃ graceful, .close graceful ∈ calls past) ∧
      (m.stack = [] → m.session.outstanding = [] → ∀ q ∈ m.session.outbox.parcels, q.isGoAway = false) ∧
      (∀ mo ∈ past, ∀ q ∈ mo.before.session.outbox.parcels, q.isGoAway →
        q ∈ mo.after.session.outbox.parcels ∨
          (∃ bytes x, mo.handed? = some (bytes, x) ∧ x.parcel = q ∧ x ∈ mo.after.session.outstanding) ∨
          mo.called? = some (.close false)) ∧
      ∀ mo ∈ past, ∀ x ∈ mo.before.session.outstanding, x.parcel.isGoAway →
        x ∈ mo.after.session.outstanding ∨ mo.called? = some (.close false) := by
  have hnone : m.stack = [] → m.session.outstanding = [] →
      ∀ q ∈ m.session.outbox.parcels, q.isGoAway = false := by
    intro hstack hout q hq
    refine Bool.eq_false_iff.2 fun goAway => ?_
    have hcontrol : q ∈ m.session.queuedControls := List.mem_filter.2 ⟨hq, Parcel.isControl_of_isGoAway goAway⟩
    rw [queuedControls_of_settled hnew run horderly hstack hout] at hcontrol
    cases hcontrol
  refine ⟨fun hstack hout hended => ?_, hnone, ?_, ?_⟩
  · -- where nothing is in progress, what was going to close the connection has done so
    have hsent : m.session.goAwaySent ∨ .close false ∈ calls past := by
      rcases hended with hsent | ⟨mo, hmo, x, hop⟩
      · exact .inl hsent
      · exact ended_of_exception run hmo hop
    rcases hsent with hsent | hclosed
    · cases closes_of_run hnew run horderly (.inl hsent) with
      | closed made => exact ⟨_, made⟩
      | ahead mem =>
        rw [Machine.ahead, hstack] at mem
        cases mem
      | waits mem goAway => cases (hnone hstack hout _ mem).symm.trans goAway
      | leaves mem goAway =>
        rw [hout] at mem
        cases mem
    · exact ⟨false, hclosed⟩
  · intro mo hmo q hq goAway
    obtain ⟨pre, -, hrun, hnext⟩ := run.of_mem hmo
    exact handed_of_goAway hnew hrun hnext hq goAway
  · intro mo hmo x hx goAway
    obtain ⟨pre, -, hrun, hnext⟩ := run.of_mem hmo
    have hlast := horderly mo hmo
    simp only [Moment.isOrderly, Bool.and_eq_true, Bool.not_eq_true'] at hlast
    exact closed_of_goAway hnew hrun hnext hlast.1 hx goAway

/-- The announcement of the end waits behind a ping, and goes with it when the write of the ping fails. -/
theorem finished_session_closes_after_failure : ∃ s past m, Session.new .client none = .ok s ∧
    Run (.standard 16384) { session := s } past m ∧ (∀ mo ∈ past, mo.isOrderly) ∧ m.stack = [] ∧
      m.session.outstanding = [] ∧ m.session.goAwaySent ∧ (past.map Moment.isFailure).count true = 1 ∧
      ∃ graceful, .close graceful ∈ calls past := by
  have hnew : Session.new .client none = .ok (.fresh .client none) := rfl
  have hrun := Machine.run_of_replay? (.standard 16384) { session := .fresh .client none }
    [.invoke (.ping .v3), .tick, .answer none, .tick, .leave,
      .invoke (.receive (.sessionException default)), .tick, .leave,
      .invoke (.fail 1 default), .answer none, .leave] rfl
  exact ⟨_, _, _, hnew, hrun, by decide, rfl, rfl, rfl, by decide,
    (finished_session_closes hnew hrun (by decide)).1 rfl rfl (.inl rfl)⟩

end Spdy
