import Spdy.Proofs.Answer
import Spdy.Proofs.Hearing
import Spdy.Proofs.Panics

/-!
# Pings of one side

A side gives its own pings ids of one parity. A ping that it receives is an answer to one of them, of which it tells its
listeners, or one of the other side, which it sends back. So the parity of an id settles all that becomes of a ping.

* `Received.ping?`, `Parcel.ping?`, `Task.ping?` : pings that are read, that wait, and that listeners are told of;
* `Enqueues`, `Session.Rings` : work that enqueues certain pings and tells nobody of one;
* `Session.heardPing?`, `Rung`, `begin_rung`, `perform_rings` : what operations and tasks have to do with pings;
* `pinged`, `heardPings`, `enqueuedPings`, `toldPings` : pings in a run;
* `enqueuedPings_of_run` : what is enqueued are this side's own pings, and those of the other side that were heard;
* `Attended`, `told_of_attended` : a listener that is there once is told of the pings that come back, in order.
-/

namespace Spdy

/-! ## Pings -/

def ControlFrame.ping? (f : ControlFrame) : Option UInt32 :=
  match f.body with
  | .ping id => some id
  | _ => none

def Received.ping? : Received → Option UInt32
  | control f => f.ping?
  | _ => none

def Parcel.ping? : Parcel → Option UInt32
  | control _ bytes _ => (Received.ofBytes? bytes).bind Received.ping?
  | data .. => none

def Notice.ping? : Notice → Option UInt32
  | ping id => some id
  | _ => none

def Task.ping? (x : Task) : Option UInt32 := x.notice?.bind Notice.ping?

def Task.isPing (x : Task) : Bool := x.ping?.isSome

/-- A control frame is read as a ping if it is one. -/
theorem ControlFrame.ping?_reading (f : ControlFrame) : f.reading.ping? = f.ping? := by
  obtain ⟨version, body⟩ := f
  have hpairs : ∀ got : Received, got = reading ⟨version, body⟩ → body.pairs = [] →
      got.ping? = ping? ⟨version, body⟩ := by
    rintro got rfl hnil
    rw [reading_of_pairs_eq_nil hnil]
    cases body <;> rfl
  have hhead : ∀ id, body.streamId? = some id → ping? ⟨version, body⟩ = none →
      (reading ⟨version, body⟩).ping? = none := by
    intro id hid hnone
    unfold reading
    split
    · cases body <;> first | rfl | cases hid
    · unfold emptyNameException
      split <;> rfl
  cases body with
  | synStream => exact hhead _ rfl rfl
  | synReply => exact hhead _ rfl rfl
  | headers => exact hhead _ rfl rfl
  | _ => exact hpairs _ rfl rfl

theorem DataFrame.ping?_reading (f : DataFrame) : f.reading.ping? = none := by
  unfold reading
  split <;> rfl

theorem Parcel.ping?_control {cap : Nat} {f : ControlFrame} {bytes : Bytes}
    (h : (Encoder.standard cap).control f = .ok bytes) (type : FrameType) (r : Option StreamRef) :
    (Parcel.control type bytes r).ping? = f.ping? := by
  rw [ping?, (ControlFrame.accepted_of_encode h).readsAs.ofBytes?, Option.bind_some, f.ping?_reading]

theorem ping?_of_reset {cap : Nat} {version : Version} {id : UInt32} {status : StreamStatus} {bytes : Bytes}
    (h : Session.encodeReset (.standard cap) version id status = .ok bytes) :
    (Parcel.control .rstStream bytes none).ping? = none := by
  obtain ⟨n, hn⟩ := encodeReset_eq_ok h
  have hcontrol : (Encoder.standard cap).control ⟨version, .rstStream id n⟩ = .ok bytes := hn
  exact Parcel.ping?_control hcontrol _ _

/-! ## Work and pings -/

/-- What comes to wait, if it are pings of certain ids and other parcels. -/
inductive Enqueues (s t : Session) : List UInt32 → Prop
  | posts {new : List Parcel} (parcels : t.outbox.parcels = s.outbox.parcels ++ new) :
      Enqueues s t (new.filterMap Parcel.ping?)
  | none (controls : t.queuedControls.length ≤ s.queuedControls.length) : Enqueues s t []

/-- Work that enqueues pings of certain ids, keeps the parity of this side's ids and tells nobody of a ping. -/
structure Session.Rings (s : Session) (p : Progress) (ids : List UInt32) : Prop where
  enqueues : Enqueues s p.session ids
  parity : p.session.nextPingId % 2 = s.nextPingId % 2
  quiet : Without Task.isPing p.todo

namespace Session

variable {cap : Nat} {s : Session} {p : Progress} {new : List Parcel} {ids : List UInt32} {born : Nat}

theorem Issues.nextPingId {t : Session} (h : Issues s t new born) : t.nextPingId = s.nextPingId :=
  congrArg Prod.fst h.standing

theorem Issues.rings (h : Issues s p.session new born) (quiet : Without Task.isPing p.todo) :
    s.Rings p (new.filterMap Parcel.ping?) :=
  ⟨.posts h.parcels, congrArg (· % 2) h.nextPingId, quiet⟩

theorem Rings.of_parcels (parcels : p.session.outbox.parcels = s.outbox.parcels)
    (next : p.session.nextPingId = s.nextPingId) (quiet : Without Task.isPing p.todo) : s.Rings p [] :=
  ⟨.posts (parcels.trans (List.append_nil _).symm), congrArg (· % 2) next, quiet⟩

theorem Rings.of_enqueue {q : Parcel} (parcels : p.session.outbox.parcels = s.outbox.parcels ++ [q])
    (next : p.session.nextPingId % 2 = s.nextPingId % 2) (quiet : Without Task.isPing p.todo) :
    s.Rings p q.ping?.toList := by
  have hids : [q].filterMap Parcel.ping? = q.ping?.toList := by
    cases h : q.ping? <;> simp [h]
  exact hids ▸ ⟨.posts parcels, next, quiet⟩

theorem filterMap_ping?_of_reset (cap : Nat) (h : new = [] ∨ ∃ version id status bytes,
    encodeReset (.standard cap) version id status = .ok bytes ∧ new = [.control .rstStream bytes none]) :
    new.filterMap Parcel.ping? = [] := by
  rcases h with rfl | ⟨version, id, status, bytes, hbytes, rfl⟩
  · rfl
  · rw [List.filterMap_cons_none (ping?_of_reset hbytes), List.filterMap_nil]

theorem without_ping_of_sublist {todo : List Task} {listeners : List Listener} {r : StreamRef} {rest : List Task}
    (h : todo.Sublist (.tell listeners (.closed r) :: rest)) (hrest : Without Task.isPing rest) :
    Without Task.isPing todo := by
  intro x hx
  rcases List.mem_cons.1 (h.subset hx) with rfl | hx
  · rfl
  · exact hrest x hx

theorem flush_without_ping : Without Task.isPing [.flush] := by simp [Task.isPing, Task.ping?, Task.notice?]

section Tasks

variable (cap s)

/-- A task that tells of a ping is left by one that tells of the same ping. -/
theorem perform_ping? {cap : Nat} {s : Session} {task x : Task} (notCall : task.isCall = false)
    (hx : x ∈ (s.perform (.standard cap) task).todo) (ping : x.isPing) : x.ping? = task.ping? := by
  cases perform_begets notCall hx with
  | mourns h => cases h <;> cases ping
  | write | endWrite | reset | opened => cases ping
  | first | others | primary | registered | round => rfl

/-- Nobody is told of a ping unless the task is to tell of one. -/
theorem perform_without_ping {task : Task} (notCall : task.isCall = false) (quiet : task.isPing = false) :
    Without Task.isPing (s.perform (.standard cap) task).todo := by
  intro x hx
  cases hping : x.isPing with
  | false => rfl
  | true =>
    have htask : task.isPing := by rwa [Task.isPing, ← perform_ping? notCall hx hping]
    cases quiet.symm.trans htask

theorem perform_rings {task : Task} (notCall : task.isCall = false) (quiet : task.isPing = false) :
    s.Rings (s.perform (.standard cap) task) [] := by
  have hquiet := s.perform_without_ping cap notCall quiet
  by_cases hflush : task = .flush
  · subst hflush
    refine ⟨.none (s.flush_subsides _).length_le, ?_, hquiet⟩
    rw [perform]
    have hcases := flush_cases cap s
    generalize s.flush (.standard cap) = p at hcases
    cases hcases <;> rfl
  · obtain ⟨new, issues, posted⟩ := s.perform_issues (.standard cap) hflush
    have hnew : new.filterMap Parcel.ping? = [] := by
      refine filterMap_ping?_of_reset cap (posted.imp_right ?_)
      rintro ⟨version, id, status, bytes, -, hbytes, rfl⟩
      exact ⟨version, id, status, bytes, hbytes, rfl⟩
    exact hnew ▸ issues.rings hquiet

theorem perform_of_isPing {task : Task} (ping : task.isPing) : (s.perform (.standard cap) task).session = s := by
  cases task with
  | call => rfl
  | tell listeners notice => cases listeners <;> rfl
  | announce => rfl
  | tellRegistered => rfl
  | _ => cases ping

end Tasks

/-! ## Operations -/

/-- The ping that a session hears of: one that it receives and does not pass over. -/
def heardPing? (s : Session) : Operation → Option UInt32
  | .receive got => if s.goAwaySent then none else got.ping?
  | _ => none

theorem isReceive_of_heardPing? {s : Session} {op : Operation} {id : UInt32} (h : s.heardPing? op = some id) :
    op.isReceive := by
  cases op <;> first | rfl | cases h

end Session

def Operation.isPing : Operation → Bool
  | .ping _ => true
  | _ => false

/-- What an operation has to do with pings. -/
inductive Rung (s : Session) (op : Operation) (b : Begun) : Prop
  | pings (asks : op.isPing) (outcome : b.outcome = .pinged s.nextPingId) (rings : s.Rings b.toProgress [s.nextPingId])
  | hears {id : UInt32} (heard : s.heardPing? op = some id) (own : id % 2 = s.nextPingId % 2)
      (session : b.session = s) (todo : b.todo = [.announce (.ping id), .flush])
  | echoes {id : UInt32} (heard : s.heardPing? op = some id) (foreign : id % 2 ≠ s.nextPingId % 2)
      (rings : s.Rings b.toProgress [id])
  | other (unasked : op.isPing = false) (unheard : s.heardPing? op = none) (rings : s.Rings b.toProgress [])

namespace Session

variable (cap : Nat) (s : Session)

theorem beginPing_rung (version : Version) : Rung s (.ping version) (s.beginPing (.standard cap) version) := by
  obtain ⟨bytes, hbytes⟩ := encode_ping version s.nextPingId
  have hcontrol : (Encoder.standard cap).control ⟨version, .ping s.nextPingId⟩ = .ok bytes := hbytes
  have hparity : (s.nextPingId + 2) % 2 = s.nextPingId % 2 := by
    rw [← UInt32.toNat_inj, UInt32.toNat_mod, UInt32.toNat_mod, UInt32.toNat_add]
    show (s.nextPingId.toNat + 2) % 2 ^ 32 % 2 = s.nextPingId.toNat % 2
    omega
  have hping : (Parcel.control .ping bytes none).ping? = some s.nextPingId := Parcel.ping?_control hcontrol _ _
  unfold beginPing beginFrame
  dsimp only
  rw [hcontrol]
  refine .pings rfl rfl ?_
  have hrings := Rings.of_enqueue (s := s)
    (p := { session := { s with nextPingId := s.nextPingId + 2 }.enqueue (.control .ping bytes none)
            todo := [.flush] })
    rfl hparity flush_without_ping
  rwa [hping] at hrings

/-- A request of the application that is for no ping: one other frame is enqueued at most. -/
structure Orders (s : Session) (p : Progress) : Prop where
  next : p.session.nextPingId = s.nextPingId
  quiet : Without Task.isPing p.todo
  posted : p.session.outbox.parcels = s.outbox.parcels ∨
    ∃ q, q.ping? = none ∧ p.session.outbox.parcels = s.outbox.parcels ++ [q]

theorem Orders.idle (notes : List Note) : s.Orders { session := s, notes } := ⟨rfl, without_nil, .inl rfl⟩

theorem Orders.rings {p : Progress} (h : s.Orders p) : s.Rings p [] := by
  rcases h.posted with parcels | ⟨q, hq, parcels⟩
  · exact .of_parcels parcels h.next h.quiet
  · have hrings := Rings.of_enqueue parcels (congrArg (· % 2) h.next) h.quiet
    rwa [hq] at hrings

theorem beginSyn_orders (version : Version) (opening : Opening) (listener : Option Listener) :
    s.Orders (s.beginSyn (.standard cap) version opening listener).toProgress := by
  unfold beginSyn
  split
  · exact .idle s []
  · split
    · exact .idle s []
    · dsimp only
      split
      · exact ⟨rfl, without_nil, .inl rfl⟩
      · next bytes hbytes =>
        refine ⟨rfl, ?_, .inr ⟨_, Parcel.ping?_control hbytes _ _, rfl⟩⟩
        simp [Task.isPing, Task.ping?, Task.notice?, Notice.ping?]

theorem beginFrame_orders (f : ControlFrame) (outcome : Outcome) (hf : f.ping? = none) :
    s.Orders (s.beginFrame (.standard cap) f outcome).toProgress := by
  unfold beginFrame
  split
  · exact .idle s []
  · next bytes hbytes => exact ⟨rfl, flush_without_ping, .inr ⟨_, (Parcel.ping?_control hbytes _ _).trans hf, rfl⟩⟩

theorem beginOnStream_orders (alive : Bool) (r : StreamRef) (body : Body)
    (hbody : ∀ version, ControlFrame.ping? ⟨version, body⟩ = none) :
    s.Orders (s.beginOnStream (.standard cap) alive r body).toProgress := by
  unfold beginOnStream
  dsimp only
  split
  · exact .idle s []
  · split
    · exact .idle s []
    · split
      · exact .idle s []
      · next bytes hbytes =>
        refine ⟨?_, flush_without_ping, .inr ⟨_, (Parcel.ping?_control hbytes body.type (some r)).trans (hbody _), ?_⟩⟩
        · show (if body.closes then s.closeLocal r else s).nextPingId = _
          split <;> rfl
        · show (if body.closes then s.closeLocal r else s).outbox.parcels ++ _ = _
          split <;> rfl

theorem beginData_orders (alive : Bool) (r : StreamRef) (payload : Payload) :
    s.Orders (s.beginData alive r payload).toProgress := by
  unfold beginData
  dsimp only
  split
  · exact .idle s []
  · split
    · exact .idle s []
    · exact ⟨rfl, flush_without_ping, .inr ⟨_, rfl, rfl⟩⟩

theorem announceEnd_orders (version : Version) (status : SessionStatus) :
    s.Orders (s.announceEnd (.standard cap) version status).1 := by
  unfold announceEnd
  split
  · exact .idle s []
  · dsimp only
    split
    · exact ⟨rfl, without_nil, .inl rfl⟩
    · split
      · exact ⟨rfl, without_nil, .inl rfl⟩
      · next bytes hbytes => exact ⟨rfl, flush_without_ping, .inr ⟨_, Parcel.ping?_control hbytes _ _, rfl⟩⟩

theorem report_rings (seq : Nat) {f : Session → Parcel → Progress}
    (hf : ∀ h ∈ s.outstanding, Subsides s (f (s.dropHandler seq) h.parcel).session ∧
      (f (s.dropHandler seq) h.parcel).session.nextPingId = s.nextPingId ∧
      Without Task.isPing (f (s.dropHandler seq) h.parcel).todo) : s.Rings (s.report seq f) [] := by
  unfold report
  split
  · exact .of_parcels rfl rfl without_nil
  · next h hfind =>
    obtain ⟨hsubsides, hnext, hquiet⟩ := hf h (List.mem_of_find?_eq_some hfind)
    exact ⟨.none hsubsides.length_le, congrArg (· % 2) hnext, hquiet⟩

theorem wrote_without_ping (q : Parcel) : Without Task.isPing (s.wrote q).todo := by
  intro x hx
  cases wrote_ensues hx <;> rfl

theorem wrote_nextPingId (q : Parcel) : (s.wrote q).session.nextPingId = s.nextPingId := by
  have hwrote := wrote_cases s q
  generalize s.wrote q = p at hwrote
  cases hwrote with
  | done =>
    dsimp only
    split <;> rfl
  | _ => rfl

/-- What is received, if it is no ping. -/
theorem answers_rings {got : Received} {p : Progress} (hping : got.ping? = none)
    (h : Answers (.standard cap) s got p) : s.Rings p [] := by
  cases h with
  | nothing session todo =>
    exact .of_parcels (by rw [session]) (by rw [session]) (by rw [todo]; exact without_nil)
  | resets matter issues posted todo =>
    have hnew := filterMap_ping?_of_reset cap (posted.imp_right fun ⟨bytes, h⟩ => ⟨_, _, _, bytes, h⟩)
    exact hnew ▸ issues.rings (without_ping_of_sublist todo flush_without_ping)
  | opens matter opens issues todo =>
    apply issues.rings
    rw [todo]
    simp [Task.isPing, Task.ping?, Task.notice?, Notice.ping?]
  | @hears _ _ r l? notice matter about issues todo =>
    apply issues.rings
    have hnotice : notice.ping? = none := by
      cases notice <;> first | rfl | cases about
    rw [todo]
    simp [Task.isPing, Task.ping?, Task.notice?, hnotice]
  | loses session todo =>
    refine .of_parcels (by rw [session]) (by rw [session]) ?_
    rw [todo]
    simp [Task.isPing, Task.ping?, Task.notice?, Notice.ping?]
  | settles issues few todo =>
    apply issues.rings
    rw [todo]
    simp [Task.isPing, Task.ping?, Task.notice?, Notice.ping?]
  | returns => cases hping
  | echoes => cases hping
  | parts issues todo =>
    apply issues.rings
    rw [todo]
    simp [Task.isPing, Task.ping?, Task.notice?, Notice.ping?]
  | widens issues todo =>
    apply issues.rings
    rcases todo with todo | ⟨r, e, todo⟩ <;> rw [todo] <;> simp [Task.isPing, Task.ping?, Task.notice?]
  | closes issues todo =>
    apply issues.rings
    intro x hx
    rw [List.mem_singleton.1 (todo.subset hx)]
    rfl
  | ends encoded issues todo =>
    have hbytes := Parcel.ping?_control encoded .goAway none
    have hrings := issues.rings (p := p) (by rw [todo]; exact flush_without_ping)
    rwa [List.filterMap_cons_none hbytes] at hrings

theorem receive_rung (alive : Bool) (got : Received) :
    Rung s (.receive got) (s.begin (.standard cap) alive (.receive got)) := by
  cases hping : got.ping? with
  | none =>
    refine .other rfl ?_ (s.answers_rings cap hping (s.receive_answers (.standard cap) got))
    rw [heardPing?, hping, ite_self]
  | some id =>
    obtain ⟨version, rfl⟩ : ∃ version, got = .control ⟨version, .ping id⟩ := by
      unfold Received.ping? ControlFrame.ping? at hping
      split at hping
      · next f =>
        obtain ⟨version, body⟩ := f
        split at hping
        · next hbody =>
          cases hping
          exact ⟨version, congrArg _ (congrArg _ hbody)⟩
        · cases hping
      · cases hping
    cases hsent : s.goAwaySent with
    | true =>
      have hunheard : s.heardPing? (.receive (.control ⟨version, .ping id⟩)) = none := by rw [heardPing?, if_pos hsent]
      refine .other rfl hunheard ?_
      rw [begin, receive, if_pos hsent]
      exact .of_parcels rfl rfl without_nil
    | false =>
      have hheard : s.heardPing? (.receive (.control ⟨version, .ping id⟩)) = some id := by
        rw [heardPing?, hsent]
        rfl
      obtain ⟨bytes, hbytes⟩ := encode_ping version id
      have hcontrol : (Encoder.standard cap).control ⟨version, .ping id⟩ = .ok bytes := hbytes
      have hbegin : s.begin (.standard cap) alive (.receive (.control ⟨version, .ping id⟩)) =
          { s.receivePing (.standard cap) version id with } := by
        rw [begin, receive, hsent]
        rfl
      rw [hbegin]
      by_cases hparity : id % 2 = s.nextPingId % 2
      · refine .hears hheard hparity ?_ ?_ <;> rw [receivePing, if_pos hparity]
      · refine .echoes hheard hparity ?_
        rw [receivePing, if_neg hparity, hcontrol]
        have hrings := Rings.of_enqueue (s := s) (q := .control .ping bytes none)
          (p := { session := s.enqueue (.control .ping bytes none), todo := [.flush] }) rfl rfl flush_without_ping
        rwa [Parcel.ping?_control hcontrol] at hrings

theorem begin_rung (alive : Bool) (op : Operation) : Rung s op (s.begin (.standard cap) alive op) := by
  cases op with
  | syn version opening listener => exact .other rfl rfl (s.beginSyn_orders cap version opening listener).rings
  | reset version id status =>
    obtain ⟨new, issues, posted, r, todo⟩ := s.reset_issues (.standard cap) version id status
    have hnew := filterMap_ping?_of_reset cap (posted.imp_right fun ⟨bytes, h⟩ => ⟨_, _, _, bytes, h⟩)
    refine .other rfl rfl ?_
    exact hnew ▸ issues.rings (without_ping_of_sublist todo flush_without_ping)
  | settings version message => exact .other rfl rfl (s.beginFrame_orders cap _ _ rfl).rings
  | ping version => exact s.beginPing_rung cap version
  | goAway version => exact .other rfl rfl (s.announceEnd_orders cap version .ok).rings
  | reply r head => exact .other rfl rfl (s.beginOnStream_orders cap alive r _ fun _ => rfl).rings
  | headers r head => exact .other rfl rfl (s.beginOnStream_orders cap alive r _ fun _ => rfl).rings
  | data r payload => exact .other rfl rfl (s.beginData_orders alive r payload).rings
  | sessionData r payload => exact .other rfl rfl (s.beginData_orders true r payload).rings
  | receive got => exact s.receive_rung cap alive got
  | complete seq =>
    refine .other rfl rfl (s.report_rings seq fun h hmem => ?_)
    exact ⟨s.wrote_subsides hmem rfl (wrote_cases _ _), wrote_nextPingId _ _, wrote_without_ping _ _⟩
  | fail seq fault =>
    refine .other rfl rfl (s.report_rings seq (f := fun t q => t.notWritten q fault) fun h hmem => ?_)
    exact ⟨.cleared rfl, rfl, by simp [notWritten, Task.isPing, Task.ping?, Task.notice?]⟩

end Session

/-! ## Pings in a run -/

namespace Moment

/-- The id that a ping of this side gets, as the call that asks for it returns it. -/
def pinged? (mo : Moment) : Option UInt32 :=
  match mo.op?, mo.outcome? with
  | some (.ping _), some (.pinged id) => some id
  | _, _ => none

def heardPing? (mo : Moment) : Option UInt32 := mo.op?.bind mo.before.session.heardPing?

def postedPings (mo : Moment) : List UInt32 := (mo.posted.filter (·.isControl)).filterMap Parcel.ping?

end Moment

/-- The ids that the pings of this side got, first the first. -/
def pinged (past : List Moment) : List UInt32 := past.filterMap Moment.pinged?

/-- The pings that were received and not passed over, first the first. -/
def heardPings (past : List Moment) : List UInt32 := past.filterMap Moment.heardPing?

/-- The pings that were enqueued, first the first. -/
def enqueuedPings (past : List Moment) : List UInt32 := (enqueuedControls past).filterMap Parcel.ping?

def Call.pingTo? (l : Listener) : Call → Option UInt32
  | .tell l' (.ping id) => if l' = l then some id else none
  | _ => none

/-- The pings that a listener was told of, first the first. -/
def toldPings (l : Listener) (past : List Moment) : List UInt32 := (calls past).filterMap (Call.pingTo? l)

theorem Call.ping?_of_pingTo? {l : Listener} {c : Call} {id : UInt32} (h : c.pingTo? l = some id) :
    (Task.call c).ping? = some id := by
  unfold pingTo? at h
  split at h
  · split at h
    · exact h
    · cases h
  · cases h

section Append

variable (past : List Moment) (mo : Moment)

theorem pinged_append : pinged (past ++ [mo]) = pinged past ++ mo.pinged?.toList := by
  rw [pinged, List.filterMap_append, ← pinged]
  cases h : mo.pinged? <;> simp [h]

theorem heardPings_append : heardPings (past ++ [mo]) = heardPings past ++ mo.heardPing?.toList := by
  rw [heardPings, List.filterMap_append, ← heardPings]
  cases h : mo.heardPing? <;> simp [h]

theorem enqueuedPings_append : enqueuedPings (past ++ [mo]) = enqueuedPings past ++ mo.postedPings := by
  rw [enqueuedPings, enqueuedControls_append, List.filterMap_append, ← enqueuedPings, Moment.postedPings]

end Append

theorem Moment.postedPings_of_enqueues {mo : Moment} {ids : List UInt32}
    (h : Enqueues mo.before.session mo.after.session ids) : mo.postedPings = ids := by
  unfold postedPings
  cases h with
  | posts parcels =>
    rw [posted_of_append parcels, List.filterMap_filter]
    refine List.filterMap_congr fun q _ => ?_
    cases q <;> rfl
  | none controls => rw [posted_of_length_le controls, List.filterMap_nil]

/-- What a moment does about pings: it enqueues one that this side asks for, or one of the other side that is heard of,
and keeps the parity of this side's ids. -/
structure Moment.Rings (mo : Moment) : Prop where
  parity : mo.after.session.nextPingId % 2 = mo.before.session.nextPingId % 2
  own : ∀ id ∈ mo.pinged?, id % 2 = mo.before.session.nextPingId % 2
  posted : mo.postedPings = mo.pinged?.toList ++
    mo.heardPing?.toList.filter fun id => id % 2 != mo.before.session.nextPingId % 2

theorem Moment.pinged?_of_not_isPing {mo : Moment} (h : ∀ op ∈ mo.op?, op.isPing = false) : mo.pinged? = none := by
  unfold pinged?
  split
  · next version id hop _ => cases h _ hop
  · rfl

theorem Moment.Rings.of_unasked {mo : Moment} (unasked : mo.op? = none)
    (parity : mo.after.session.nextPingId % 2 = mo.before.session.nextPingId % 2)
    (enqueues : Enqueues mo.before.session mo.after.session []) : mo.Rings := by
  have hpinged : mo.pinged? = none := pinged?_of_not_isPing (by simp [unasked])
  refine ⟨parity, by simp [hpinged], ?_⟩
  rw [postedPings_of_enqueues enqueues, hpinged, heardPing?, unasked]
  rfl

theorem Enqueues.of_eq {s t : Session} (h : t.outbox = s.outbox) : Enqueues s t [] := by
  have hparcels : t.outbox.parcels = s.outbox.parcels ++ [] := by rw [h, List.append_nil]
  exact .posts hparcels

section Step

variable {cap : Nat} {m m' : Machine} {e : Event}

theorem rings_of_invoke (op : Operation) : Moment.Rings ⟨m, .invoke op, (m.invoke (.standard cap) op).1⟩ := by
  have hheard : Moment.heardPing? ⟨m, .invoke op, (m.invoke (.standard cap) op).1⟩ = m.session.heardPing? op := rfl
  have hunpinged : op.isPing = false →
      Moment.pinged? ⟨m, .invoke op, (m.invoke (.standard cap) op).1⟩ = none := fun hop =>
    Moment.pinged?_of_not_isPing fun op' hop' => by rwa [← Option.some.inj hop']
  have hnotPing : ∀ {id}, m.session.heardPing? op = some id → op.isPing = false := by
    intro id h
    cases op <;> first | rfl | cases h
  cases m.session.begin_rung cap m.isAlive op with
  | pings asks outcome rings =>
    cases op with
    | ping version =>
      have hpinged : Moment.pinged? ⟨m, .invoke (.ping version), (m.invoke (.standard cap) (.ping version)).1⟩ =
          some m.session.nextPingId := by
        simp only [Moment.pinged?, Moment.op?, Moment.outcome?, Machine.invoke, List.head?_cons, Option.map_some,
          outcome]
      refine ⟨rings.parity, by simp [hpinged], ?_⟩
      rw [Moment.postedPings_of_enqueues rings.enqueues, hpinged, hheard]
      rfl
    | _ => cases asks
  | hears heard own session todo =>
    have hsession : (m.invoke (.standard cap) op).1.session = m.session := session
    have hpinged := hunpinged (hnotPing heard)
    refine ⟨by rw [hsession], by simp [hpinged], ?_⟩
    rw [Moment.postedPings_of_enqueues (.of_eq (congrArg _ hsession)), hpinged, hheard, heard]
    simp [own]
  | echoes heard foreign rings =>
    have hpinged := hunpinged (hnotPing heard)
    refine ⟨rings.parity, by simp [hpinged], ?_⟩
    rw [Moment.postedPings_of_enqueues rings.enqueues, hpinged, hheard, heard]
    simp [foreign]
  | other unasked unheard rings =>
    have hpinged := hunpinged unasked
    refine ⟨rings.parity, by simp [hpinged], ?_⟩
    rw [Moment.postedPings_of_enqueues rings.enqueues, hpinged, hheard, unheard]
    rfl

theorem rings_of_next? (h : m.next? (.standard cap) e = some m') : Moment.Rings ⟨m, e, m'⟩ := by
  have of_accept : ∀ (c : Call) (reply : Option Listener),
      (Machine.accept m.session c reply).nextPingId = m.session.nextPingId ∧
        (Machine.accept m.session c reply).outbox = m.session.outbox := by
    intro c reply
    unfold Machine.accept
    split <;> exact ⟨rfl, rfl⟩
  cases Machine.happens_of_next? h with
  | invoke op yields possible => exact rings_of_invoke op
  | @tick task rest outcome below stack notCall =>
    cases hping : task.isPing with
    | true =>
      have hsame := m.session.perform_of_isPing cap hping
      exact .of_unasked rfl (by rw [hsame]) (.of_eq (by rw [hsame]))
    | false =>
      have hrings := m.session.perform_rings cap notCall hping
      exact .of_unasked rfl hrings.parity hrings.enqueues
  | @answer reply c rest outcome below stack =>
    exact .of_unasked rfl (congrArg (· % 2) (of_accept c reply).1) (.of_eq (of_accept c reply).2)
  | @caught p c rest outcome below stack tell =>
    exact .of_unasked rfl (congrArg (· % 2) (of_accept c none).1) (.of_eq (of_accept c none).2)
  | broken p stack notTell => exact .of_unasked rfl rfl (.of_eq rfl)
  | leave stack => exact .of_unasked rfl rfl (.of_eq rfl)
  | edit e yields => exact .of_unasked rfl (by cases e <;> rfl) (.of_eq (by cases e <;> rfl))
  | drop seq yields => exact .of_unasked rfl rfl (.of_eq rfl)

end Step

/-! ## What is enqueued -/

section Run

variable {cap : Nat} {config : Config} {primary : Option Listener} {s : Session} {past : List Moment} {m : Machine}

theorem parity_of_run (hnew : Session.new config primary = .ok s) (run : Run (.standard cap) { session := s } past m) :
    m.session.nextPingId % 2 = config.initialStreamId % 2 := by
  induction run with
  | start =>
    obtain ⟨-, rfl⟩ := Session.new_eq_ok hnew
    rfl
  | next run h ih => exact (rings_of_next? h).parity.trans ih

/-- What is enqueued with ids of this side are its own pings, and what is enqueued with ids of the other side are the
pings of the other side that were heard, each once and in order. -/
theorem enqueuedPings_of_run (hnew : Session.new config primary = .ok s)
    (run : Run (.standard cap) { session := s } past m) :
    (enqueuedPings past).filter config.isLocal = pinged past ∧
      (enqueuedPings past).filter (fun id => !config.isLocal id) =
        (heardPings past).filter (fun id => !config.isLocal id) := by
  induction run with
  | start => exact ⟨rfl, rfl⟩
  | @next past m m' e run h ih =>
    have rings := rings_of_next? h
    have hparity : m.session.nextPingId % 2 = config.initialStreamId % 2 := parity_of_run hnew run
    have hown : ∀ id ∈ (Moment.pinged? ⟨m, e, m'⟩).toList, config.isLocal id := by
      intro id hid
      have := rings.own id (Option.mem_toList.1 hid)
      rw [Config.isLocal, this, beq_iff_eq]
      exact hparity
    have hposted := rings.posted
    have hforeign : (fun id => id % 2 != m.session.nextPingId % 2) = fun id => !config.isLocal id := by
      funext id
      rw [Config.isLocal, hparity]
      rfl
    rw [show (Moment.mk m e m').before.session.nextPingId = m.session.nextPingId from rfl, hforeign] at hposted
    have hnone : (Moment.pinged? ⟨m, e, m'⟩).toList.filter (fun id => !config.isLocal id) = [] :=
      List.filter_eq_nil_iff.2 fun id hid => by simp [hown id hid]
    rw [enqueuedPings_append, pinged_append, heardPings_append, hposted]
    simp only [List.filter_append, List.filter_filter, ih.1, ih.2]
    constructor
    · rw [List.filter_eq_self.2 hown]
      simp
    · rw [hnone]
      simp

/-- The pings that were handed over are those among the control frames that were. -/
theorem spokenPings_of_run (hnew : Session.new config primary = .ok s)
    (run : Run (.standard cap) { session := s } past m) :
    (spoken past).filterMap Received.ping? = (sentControls past).filterMap Parcel.ping? := by
  induction run with
  | start => rfl
  | @next past m m' e run h ih =>
    have hone : (Moment.spoken? ⟨m, e, m'⟩).toList.filterMap Received.ping? =
        (Moment.sentControl? ⟨m, e, m'⟩).toList.filterMap Parcel.ping? := by
      cases hhanded : Moment.handed? ⟨m, e, m'⟩ with
      | none => rw [Moment.spoken?_of_none hhanded, Moment.sentControl?_of_none hhanded, Option.toList_none]; rfl
      | some f =>
        obtain ⟨bytes, seq, q⟩ := f
        obtain ⟨got, reads, wording⟩ := wording_of_handed hnew run h hhanded
        rw [Moment.spoken?_of_handed hhanded reads, Moment.sentControl?, hhanded]
        cases wording with
        | @control f r accepted =>
          have hping : (Parcel.control f.type bytes r).ping? = f.reading.ping? := by
            rw [Parcel.ping?, reads.ofBytes?, Option.bind_some]
          show [f.reading].filterMap Received.ping? = [Parcel.control f.type bytes r].filterMap Parcel.ping?
          rw [List.filterMap_cons, List.filterMap_cons, hping]
          rfl
        | @data f r payload written encoded => simp [f.ping?_reading]
    rw [spoken_append, sentControls_append, List.filterMap_append, List.filterMap_append, ih, hone]

/-- The pings that were heard are the first that were received, and all of them up to the announcement of the end. -/
theorem heardPings_of_run (run : Run (.standard cap) { session := s } past m) :
    heardPings past <+: (taken past).filterMap Received.ping? ∧
      (m.session.goAwaySent = false → heardPings past = (taken past).filterMap Received.ping?) := by
  induction run with
  | start => exact ⟨List.prefix_rfl, fun _ => rfl⟩
  | @next past m m' e run h ih =>
    rw [heardPings_append, taken_append, List.filterMap_append]
    cases hsent : m.session.goAwaySent with
    | true =>
      have hnone : Moment.heardPing? ⟨m, e, m'⟩ = none := by
        unfold Moment.heardPing? Session.heardPing?
        rw [Option.bind_eq_none_iff]
        intro op _
        split
        · exact if_pos hsent
        · rfl
      have hlater := goAwaySent_of_parts (parts_of_agenda (agenda_of_next? h)) hsent
      rw [hnone, Option.toList_none, List.append_nil]
      exact ⟨ih.1.trans (List.prefix_append _ _), fun hopen => by cases hopen.symm.trans hlater⟩
    | false =>
      have hone : (Moment.heardPing? ⟨m, e, m'⟩).toList =
          (Moment.taken? ⟨m, e, m'⟩).toList.filterMap Received.ping? := by
        unfold Moment.heardPing? Moment.taken?
        cases Moment.op? ⟨m, e, m'⟩ with
        | none => rfl
        | some op =>
          cases op with
          | receive got =>
            rw [Option.bind_some, Session.heardPing?, if_neg (by simp [hsent])]
            cases hping : got.ping? <;> simp [hping]
          | _ => rfl
      rw [hone, ih.2 hsent]
      exact ⟨List.prefix_rfl, fun _ => rfl⟩

end Run

/-! ## What listeners are told -/

def returnedPings (config : Config) (past : List Moment) : List UInt32 := (heardPings past).filter config.isLocal

theorem returnedPings_append (config : Config) (past : List Moment) (mo : Moment) :
    returnedPings config (past ++ [mo]) = returnedPings config past ++ mo.heardPing?.toList.filter config.isLocal := by
  rw [returnedPings, heardPings_append, List.filter_append, ← returnedPings]

/-- The pings that a listener is told of by a task, if it is to be told `first` times before those are that are
registered for session frames, and `later` times with them. -/
def Task.pingsTo (l : Listener) (first later : Nat) : Task → List UInt32
  | .call c => (c.pingTo? l).toList
  | .tell listeners (.ping id) => List.replicate (listeners.count l) id
  | .announce (.ping id) => List.replicate (first + later) id
  | .tellRegistered (.ping id) => List.replicate later id
  | _ => []

section Told

variable {l : Listener} {first later : Nat}

theorem Task.pingsTo_of_not_isPing {x : Task} (h : x.isPing = false) : x.pingsTo l first later = [] := by
  cases x with
  | call c =>
    cases c with
    | tell l' n => cases n <;> first | rfl | cases h
    | _ => rfl
  | tell listeners n => cases n <;> first | rfl | cases h
  | announce n => cases n <;> first | rfl | cases h
  | tellRegistered n => cases n <;> first | rfl | cases h
  | _ => rfl

theorem pingsTo_of_without {todo : List Task} (h : Without Task.isPing todo) :
    todo.flatMap (Task.pingsTo l first later) = [] :=
  List.flatMap_eq_nil_iff.2 fun x hx => Task.pingsTo_of_not_isPing (h x hx)

theorem pingsTo_tells (listeners : List Listener) (id : UInt32) :
    (listeners.map fun l' => Task.call (.tell l' (.ping id))).flatMap (Task.pingsTo l first later) =
      List.replicate (listeners.count l) id := by
  induction listeners with
  | nil => rfl
  | cons l' listeners ih =>
    rw [List.map_cons, List.flatMap_cons, ih, List.count_cons, Nat.add_comm, List.replicate_add]
    congr 1
    by_cases hl : l' = l
    · simp [Task.pingsTo, Call.pingTo?, hl]
    · simp [Task.pingsTo, Call.pingTo?, hl]

variable {cap : Nat} {s : Session}

/-- What is left of a task that tells of a ping tells a listener as often as the task does. -/
theorem Session.perform_pingsTo (hfirst : s.primary.toList.count l = first)
    (hlater : s.controlListeners.count l = later) {task : Task} (notCall : task.isCall = false) (ping : task.isPing) :
    (s.perform (.standard cap) task).todo.flatMap (Task.pingsTo l first later) = task.pingsTo l first later := by
  have hid : ∀ n : Notice, n.ping?.isSome → ∃ id, n = .ping id := by
    intro n hn
    cases n <;> first | exact ⟨_, rfl⟩ | cases hn
  cases task with
  | call c => cases notCall
  | tell listeners n =>
    obtain ⟨id, rfl⟩ := hid n ping
    cases listeners with
    | nil => rfl
    | cons l' rest =>
      have htells := @pingsTo_tells l first later (l' :: rest) id
      rw [List.map_cons, List.flatMap_cons, pingsTo_tells] at htells
      rw [perform, List.flatMap_cons, List.flatMap_singleton]
      exact htells
  | announce n =>
    obtain ⟨id, rfl⟩ := hid n ping
    rw [perform, List.flatMap_append, pingsTo_tells, hfirst, List.flatMap_singleton]
    exact (List.replicate_add _ _ _).symm
  | tellRegistered n =>
    obtain ⟨id, rfl⟩ := hid n ping
    rw [perform, List.flatMap_singleton, Task.pingsTo, hlater]
    rfl
  | _ => cases ping

end Told

theorem toldPings_append (l : Listener) (first later : Nat) (past : List Moment) (mo : Moment) :
    toldPings l (past ++ [mo]) = toldPings l past ++ mo.made.flatMap (Task.pingsTo l first later) := by
  rw [toldPings, calls, List.filterMap_append, List.filterMap_append, ← calls, ← toldPings, Moment.made]
  cases hcalled : mo.called? with
  | none => simp [hcalled]
  | some c => cases hc : c.pingTo? l <;> simp [hcalled, Task.pingsTo, hc]

section Run

variable {cap : Nat} {config : Config} {primary : Option Listener} {s : Session} {past : List Moment} {m : Machine}

/-- Whoever is told of a ping, or is going to be, is told of one of this side that came back. -/
theorem mem_returnedPings (hnew : Session.new config primary = .ok s)
    (run : Run (.standard cap) { session := s } past m) {x : Task} (hx : x ∈ (calls past).map .call ++ m.ahead)
    {id : UInt32} (hid : x.ping? = some id) : id ∈ returnedPings config past := by
  induction run generalizing x with
  | start => cases hx
  | @next past m m' e run h ih =>
    rw [returnedPings_append, List.mem_append]
    rw [calls_append, List.append_assoc, List.mem_append] at hx
    have hahead : ∀ y ∈ m.ahead, y.ping? = some id → id ∈ returnedPings config past := fun y hy hyid =>
      ih (List.mem_append_right _ hy) hyid
    have hping : x.isPing := by rw [Task.isPing, hid]; rfl
    rcases hx with hx | hx
    · exact .inl (ih (List.mem_append_left _ hx) hid)
    · cases agenda_of_next? h with
      | @begins op asks session ahead =>
        rw [ahead, List.mem_append] at hx
        refine hx.elim (fun hx => ?_) fun hx => .inl (hahead x hx hid)
        have quiet : Without Task.isPing (m.session.begin (.standard cap) m.isAlive op).todo → False := fun quiet =>
          quiet.not_mem hping hx
        cases m.session.begin_rung cap m.isAlive op with
        | pings _ _ rings => exact (quiet rings.quiet).elim
        | @hears id' heard own session' todo =>
          rw [todo, List.mem_cons, List.mem_singleton] at hx
          obtain rfl : id' = id := by
            rcases hx with rfl | rfl
            · exact Option.some.inj hid
            · cases hid
          have hheard : Moment.heardPing? ⟨m, e, m'⟩ = some id' := by
            rw [Moment.heardPing?, asks, Option.bind_some]
            exact heard
          have hlocal : config.isLocal id' := by
            rw [Config.isLocal, own, parity_of_run hnew run, beq_iff_eq]
          rw [hheard, Option.toList_some, List.filter_cons_of_pos hlocal]
          exact .inr List.mem_cons_self
        | echoes _ _ rings => exact (quiet rings.quiet).elim
        | other _ _ rings => exact (quiet rings.quiet).elim
      | @performs task common unasked notCall session before ahead =>
        rw [ahead, List.mem_append] at hx
        refine .inl (hx.elim (fun hx => ?_) fun hx => hahead x (before ▸ List.mem_cons_of_mem _ hx) hid)
        refine hahead task (before ▸ List.mem_cons_self) ?_
        rw [← Session.perform_ping? notCall hx hping, hid]
      | returns unasked calm control ahead => exact .inl (hahead x (ahead ▸ hx) hid)
      | breaks unasked broken session made before =>
        rw [made, List.nil_append] at hx
        exact .inl (hahead x (before ▸ List.mem_append_right _ hx) hid)
      | drops unasked dropped session made ahead =>
        rw [made, List.nil_append] at hx
        exact .inl (hahead x (ahead ▸ hx) hid)

/-- Listeners are told of a ping while the frame that brought it is dealt with. -/
theorem ping_confined_of_run (run : Run (.standard cap) { session := s } past m) :
    Confined Task.isPing Operation.isReceive (inProgress past) m := by
  induction run with
  | start => exact fun a op hmem => absurd hmem List.not_mem_nil
  | @next past m m' e run h ih =>
    rw [inProgress_append]
    have hperform : ∀ {task x : Task}, task.isCall = false → x ∈ (m.session.perform (.standard cap) task).todo →
        x.isPing → task.isPing := by
      intro task x notCall hx hping
      rwa [Task.isPing, ← Session.perform_ping? notCall hx hping]
    refine ih.next (Machine.happens_of_next? h) (length_inProgress run) (fun {op x} hx hping => ?_) hperform
    have quiet : Without Task.isPing (m.session.begin (.standard cap) m.isAlive op).todo → False := fun quiet =>
      quiet.not_mem hping hx
    cases m.session.begin_rung cap m.isAlive op with
    | pings _ _ rings => exact (quiet rings.quiet).elim
    | hears heard => exact Session.isReceive_of_heardPing? heard
    | echoes _ _ rings => exact (quiet rings.quiet).elim
    | other _ _ rings => exact (quiet rings.quiet).elim

/-- A listener is there once for session frames whenever a ping of this side has come back. -/
def Attended (config : Config) (l : Listener) (past : List Moment) : Prop :=
  ∀ i, ∀ h : i < past.length, returnedPings config (past.take (i + 1)) ≠ [] →
    (past[i].before.session.primary.toList ++ past[i].before.session.controlListeners).count l = 1

theorem Attended.of_append {l : Listener} {mo : Moment} (h : Attended config l (past ++ [mo])) :
    Attended config l past := by
  intro i hi hreturned
  have hlt : i < (past ++ [mo]).length := by
    rw [List.length_append]
    omega
  have := h i hlt
  rw [List.getElem_append_left hi, List.take_append_of_le_length hi] at this
  exact this hreturned

theorem Attended.last {l : Listener} {mo : Moment} (h : Attended config l (past ++ [mo]))
    (hreturned : returnedPings config (past ++ [mo]) ≠ []) :
    (mo.before.session.primary.toList ++ mo.before.session.controlListeners).count l = 1 := by
  have := h past.length (by simp)
  rw [List.getElem_concat_length rfl, List.take_of_length_le (by simp)] at this
  exact this hreturned

/-- Once a ping has come back, the listener is there once: as the primary one, or among the others. -/
theorem Attended.counts (hnew : Session.new config primary = .ok s) (run : Run (.standard cap) { session := s } past m)
    {l : Listener} (attended : Attended config l (past ++ [⟨m, e, m'⟩]))
    (hreturned : returnedPings config (past ++ [⟨m, e, m'⟩]) ≠ []) :
    m.session.primary.toList.count l = primary.toList.count l ∧
      m.session.controlListeners.count l = 1 - primary.toList.count l ∧
        primary.toList.count l + (1 - primary.toList.count l) = 1 := by
  have hone : (m.session.primary.toList ++ m.session.controlListeners).count l = 1 := attended.last hreturned
  have hprimary : m.session.primary = primary := primary_of_run hnew run
  rw [List.count_append, hprimary] at hone
  refine ⟨by rw [hprimary], ?_, ?_⟩ <;> omega

theorem pingsTo_of_quiet {l : Listener} {first later : Nat} {ahead todo common : List Task}
    (quiet : Without Task.isPing todo) (hahead : ahead = todo ++ common) :
    ahead.flatMap (Task.pingsTo l first later) = common.flatMap (Task.pingsTo l first later) := by
  rw [hahead, List.flatMap_append, pingsTo_of_without quiet, List.nil_append]

/-- A listener that is there once is told of the pings that came back, in order, and is going to be told of the rest. -/
theorem told_of_attended (hnew : Session.new config primary = .ok s)
    (run : Run (.standard cap) { session := s } past m) (hturn : ReadsInTurn past)
    (hunbroken : ∀ mo ∈ past, mo.isBreak = false) {l : Listener} (attended : Attended config l past) :
    toldPings l past ++
        m.ahead.flatMap (Task.pingsTo l (primary.toList.count l) (1 - primary.toList.count l)) =
      returnedPings config past := by
  induction run with
  | start => rfl
  | @next past m m' e run h ih =>
    obtain ⟨hturn, hnow⟩ := readsInTurn_append.1 hturn
    have ih := ih hturn (fun mo hmo => hunbroken mo (List.mem_append_left _ hmo)) attended.of_append
    have hcount := attended.counts hnew run
    generalize primary.toList.count l = first at ih hcount ⊢
    rw [toldPings_append, List.append_assoc, ← List.flatMap_append, returnedPings_append]
    have of_quiet : ∀ {todo common : List Task}, Without Task.isPing todo →
        (Moment.heardPing? ⟨m, e, m'⟩).toList.filter config.isLocal = [] →
        Moment.made ⟨m, e, m'⟩ ++ m'.ahead = todo ++ common →
        common.flatMap (Task.pingsTo l first (1 - first)) = m.ahead.flatMap (Task.pingsTo l first (1 - first)) →
        toldPings l past ++ (Moment.made ⟨m, e, m'⟩ ++ m'.ahead).flatMap (Task.pingsTo l first (1 - first)) =
          returnedPings config past ++ (Moment.heardPing? ⟨m, e, m'⟩).toList.filter config.isLocal := by
      intro todo common quiet unheard ahead hcommon
      rw [pingsTo_of_quiet quiet ahead, hcommon, ih, unheard, List.append_nil]
    have of_unasked : Moment.op? ⟨m, e, m'⟩ = none →
        (Moment.heardPing? ⟨m, e, m'⟩).toList.filter config.isLocal = [] := by
      intro unasked
      rw [Moment.heardPing?, unasked]
      rfl
    cases agenda_of_next? h with
    | @begins op asks session ahead =>
      have hheard : Moment.heardPing? ⟨m, e, m'⟩ = m.session.heardPing? op := by
        rw [Moment.heardPing?, asks, Option.bind_some]
      have hforeign : ∀ id, id % 2 ≠ m.session.nextPingId % 2 → config.isLocal id = false := by
        intro id hid
        rw [Config.isLocal, ← parity_of_run hnew run]
        simpa using hid
      cases m.session.begin_rung cap m.isAlive op with
      | pings asks' outcome rings =>
        refine of_quiet rings.quiet ?_ ahead rfl
        rw [hheard]
        cases op <;> first | rfl | cases asks'
      | @hears id heard own session' todo =>
        have hlocal : config.isLocal id := by
          rw [Config.isLocal, own, parity_of_run hnew run, beq_iff_eq]
        have hreturned : (Moment.heardPing? ⟨m, e, m'⟩).toList.filter config.isLocal = [id] := by
          rw [hheard, heard, Option.toList_some, List.filter_cons_of_pos hlocal, List.filter_nil]
        obtain ⟨-, -, hone⟩ := hcount (by rw [returnedPings_append, hreturned]; simp)
        -- nobody is being told of another ping
        have hfree : m.ahead.flatMap (Task.pingsTo l first (1 - first)) = [] := by
          refine pingsTo_of_without fun x hx => ?_
          refine (ping_confined_of_run run).not_of_free run (hnow ?_) (Machine.mem_tasks_of_ahead hx)
          rw [asks]
          exact Session.isReceive_of_heardPing? heard
        rw [hfree, List.append_nil] at ih
        rw [ahead, todo, List.flatMap_append, hfree, hreturned, ← ih]
        simp [Task.pingsTo, hone]
      | @echoes id heard foreign rings =>
        refine of_quiet rings.quiet ?_ ahead rfl
        rw [hheard, heard, Option.toList_some, List.filter_cons_of_neg (by simp [hforeign id foreign]), List.filter_nil]
      | other unasked unheard rings =>
        refine of_quiet rings.quiet ?_ ahead rfl
        rw [hheard, unheard]
        rfl
    | @performs task common unasked notCall session before ahead =>
      cases htask : task.isPing with
      | false =>
        refine of_quiet (m.session.perform_without_ping cap notCall htask) (of_unasked unasked) ahead ?_
        rw [before, List.flatMap_cons, Task.pingsTo_of_not_isPing htask, List.nil_append]
      | true =>
        obtain ⟨id, hid⟩ := Option.isSome_iff_exists.1 htask
        have hmem : id ∈ returnedPings config past :=
          mem_returnedPings hnew run (List.mem_append_right _ (before ▸ List.mem_cons_self)) hid
        obtain ⟨hprimary, hcontrol, -⟩ := hcount (by
          rw [returnedPings_append]
          exact List.ne_nil_of_mem (List.mem_append_left _ hmem))
        rw [ahead, List.flatMap_append, Session.perform_pingsTo hprimary hcontrol notCall htask, ← List.flatMap_cons,
          ← before, ih, of_unasked unasked, List.append_nil]
    | returns unasked calm control ahead => exact of_quiet without_nil (of_unasked unasked) ahead rfl
    | breaks unasked broken =>
      cases (hunbroken _ (List.mem_append_right _ List.mem_cons_self)).symm.trans broken
    | drops unasked dropped session made ahead =>
      refine of_quiet without_nil (of_unasked unasked) ?_ rfl
      rw [made, List.nil_append, List.nil_append]
      exact ahead

end Run

end Spdy
