import Spdy.Proofs.Allotment
import Spdy.Proofs.Parting
import Spdy.Proofs.Renounce

/-!
# The last stream that was dealt with

A session remembers the highest id among the peer's streams that left its table closed on both sides, and tells the peer
when it announces its end. As long as the peer uses no id twice, this is just what it remembers, whatever streams leave
the table for, and in whatever order.

* `Moment.departed`, `doneIds` : the streams that leave the table, and the ids of those that count as done;
* `Session.Counted`, `counted_of_next?` : what work does to the peer's streams and to the highest id;
* `Moment.Raises`, `raises_of_counted` : how high the highest id comes in one moment;
* `openingIds`, `Foreign`, `Reckoned` : ids with which the peer opens streams, and what holds of them in a run
  (`reckoned_of_course`);
* `Session.Says`, `says_of_next?` : where frames that announce the end come from;
* `last_stream_exact` : the highest id in every run, and in the frame that announces the end.
-/

namespace Spdy

/-! ## Streams that leave the table -/

namespace Moment

def departed (mo : Moment) : List StreamRef := mo.before.session.table.filter (· ∉ mo.after.session.table)

/-- Whether a stream is one of the peer's and closed on both sides. -/
def isDone (mo : Moment) (r : StreamRef) : Bool :=
  (mo.before.session.stream r).isClosed && mo.before.session.isRemote (mo.before.session.idOf r)

/-- The ids of the peer's streams that leave the table closed on both sides. -/
def doneIds (mo : Moment) : List UInt32 := (mo.departed.filter mo.isDone).map mo.before.session.idOf

variable {mo : Moment} {r : StreamRef} {id : UInt32}

theorem mem_departed : r ∈ mo.departed ↔ r ∈ mo.before.session.table ∧ r ∉ mo.after.session.table := by
  rw [departed, List.mem_filter, decide_eq_true_iff]

theorem mem_doneIds : id ∈ mo.doneIds ↔ ∃ r ∈ mo.departed, (mo.before.session.stream r).isClosed ∧
    mo.before.session.isRemote (mo.before.session.idOf r) ∧ mo.before.session.idOf r = id := by
  simp only [doneIds, isDone, List.mem_map, List.mem_filter, Bool.and_eq_true]
  constructor
  · rintro ⟨r, ⟨hr, hclosed, hremote⟩, rfl⟩
    exact ⟨r, hr, hclosed, hremote, rfl⟩
  · rintro ⟨r, hr, hclosed, hremote, rfl⟩
    exact ⟨r, ⟨hr, hclosed, hremote⟩, rfl⟩

end Moment

/-- The ids of the peer's streams that left the table closed on both sides. -/
def doneIds (past : List Moment) : List UInt32 := past.flatMap Moment.doneIds

theorem doneIds_append (past : List Moment) (mo : Moment) : doneIds (past ++ [mo]) = doneIds past ++ mo.doneIds := by
  rw [doneIds, List.flatMap_append, ← doneIds, List.flatMap_singleton]

/-! ## What work does to the highest id -/

namespace Session

/-- The peer's streams stay, or all that have one id leave, and it is counted whether the stream that they leave for was
dealt with. -/
inductive Counted (s t : Session) : Prop
  | stays (kept : ∀ r ∈ s.table, s.isRemote (s.idOf r) → r ∈ t.table) (last : t.lastStreamId = s.lastStreamId)
  | leaves {r : StreamRef} (mem : ∃ q ∈ s.table, s.idOf q = s.idOf r)
      (table : t.table = s.table.filter (s.idOf · != s.idOf r)) (last : t.lastStreamId = s.ranTo s.lastStreamId r)

namespace Counted

variable {s t u : Session}

theorem of_table (table : t.table = s.table) (last : t.lastStreamId = s.lastStreamId) : Counted s t :=
  .stays (fun _ hr _ => table ▸ hr) last

theorem refl (s : Session) : Counted s s := .of_table rfl rfl

/-- What does not concern the streams that are open may come before. -/
theorem of_base (h : Counted t u) (table : t.table = s.table) (config : t.config = s.config) (idOf : t.idOf = s.idOf)
    (closed : ∀ r, (t.stream r).isClosed = (s.stream r).isClosed) (last : t.lastStreamId = s.lastStreamId) :
    Counted s u := by
  have hremote : ∀ id, t.isRemote id = s.isRemote id := fun id => by rw [isRemote, config, ← isRemote]
  cases h with
  | stays kept last' =>
    rw [table, idOf] at kept
    exact .stays (fun r hr hremote' => kept r hr ((hremote _).trans hremote')) (last'.trans last)
  | leaves mem table' last' =>
    rw [table, idOf] at mem table'
    refine .leaves mem table' (last'.trans ?_)
    rw [ranTo, closed, hremote, idOf, last, ← ranTo]

end Counted

variable (enc : Encoder) (s : Session)

/-! ### Tasks -/

theorem remove_counted (r : StreamRef) : s.Counted (s.remove r).session := by
  unfold remove
  split
  · next hfind =>
    rw [countDone_eq]
    exact .leaves (find?_isSome.1 hfind) rfl rfl
  · exact .refl s

theorem abandon_counted (r : StreamRef) : s.Counted ((s.markReset r).remove r).session := by
  exact ((s.markReset r).remove_counted r).of_base rfl rfl (s.idOf_markReset r)
    (fun q => s.map_stream_update (·.isClosed) r q rfl) rfl

theorem giveUp_counted (id : UInt32) (notes : List Note) : s.Counted (s.giveUp id notes).session := by
  unfold giveUp
  split
  · exact .refl s
  · exact s.abandon_counted _

theorem reset_counted (version : Version) (id : UInt32) (status : StreamStatus) :
    s.Counted (s.reset enc version id status).session := by
  rw [reset_eq]
  split
  · exact .refl s
  · split
    · exact ((s.post _).giveUp_counted id []).of_base rfl rfl rfl (fun _ => rfl) rfl
    · exact s.giveUp_counted id _

theorem flush_counted : s.Counted (s.flush enc).session := by
  unfold flush
  cases htake : s.take? with
  | none => exact .refl s
  | some taken =>
    obtain ⟨q, t⟩ := taken
    obtain ⟨⟨q', o⟩, -, heq⟩ := Option.map_eq_some_iff.1 htake
    obtain ⟨rfl, rfl⟩ := Prod.mk.inj heq
    cases q' with
    | control type bytes r => exact .of_table rfl rfl
    | data r payload written =>
      dsimp only
      split
      · exact .of_table rfl rfl
      · split <;> exact .of_table rfl rfl

theorem perform_counted (task : Task) : s.Counted (s.perform enc task).session := by
  cases task with
  | flush => exact s.flush_counted enc
  | tell listeners notice => cases listeners <;> exact .refl s
  | reset version id status => exact s.reset_counted enc version id status
  | lose id =>
    simp only [perform]
    split
    · exact .refl s
    · exact s.abandon_counted _
  | reclaim r =>
    simp only [perform]
    split
    · exact s.remove_counted r
    · exact .refl s
  | _ => exact .of_table rfl rfl

/-! ### Operations -/

theorem beginSyn_counted (own : s.config.isLocal s.nextStreamId) (version : Version) (opening : Opening)
    (listener : Option Listener) : s.Counted (s.beginSyn enc version opening listener).session := by
  have hkept : ∀ r ∈ s.table, s.isRemote (s.idOf r) → r ∈ s.table.filter (s.idOf · != s.nextStreamId) := by
    intro r hr hremote
    refine List.mem_filter.2 ⟨hr, bne_iff_ne.2 fun hid => ?_⟩
    rw [hid, isRemote, own] at hremote
    cases hremote
  unfold beginSyn
  split
  · exact .refl s
  · split
    · exact .refl s
    · dsimp only
      split
      · exact .stays hkept rfl
      · exact .stays (fun r hr hremote => List.mem_append_left _ (hkept r hr hremote)) rfl

theorem beginFrame_counted (f : ControlFrame) (outcome : Outcome) :
    s.Counted (s.beginFrame enc f outcome).session := by
  unfold beginFrame
  split <;> exact .of_table rfl rfl

theorem announceEnd_counted (version : Version) (status : SessionStatus) :
    s.Counted (s.announceEnd enc version status).1.session := by
  unfold announceEnd
  split
  · exact .refl s
  · dsimp only
    split
    · exact .of_table rfl rfl
    · split <;> exact .of_table rfl rfl

theorem beginOnStream_counted (alive : Bool) (r : StreamRef) (body : Body) :
    s.Counted (s.beginOnStream enc alive r body).session := by
  unfold beginOnStream
  dsimp only
  split
  · exact .refl s
  · split
    · exact .refl s
    · split
      · exact .refl s
      · split <;> exact .of_table rfl rfl

theorem beginData_counted (alive : Bool) (r : StreamRef) (payload : Payload) :
    s.Counted (s.beginData alive r payload).session := by
  unfold beginData
  dsimp only
  split
  · exact .refl s
  · split <;> exact .of_table rfl rfl

theorem receiveSyn_counted (version : Version) (id : UInt32) (opening : Opening) :
    s.Counted (s.receiveSyn enc version id opening).session := by
  unfold receiveSyn
  split
  · exact s.reset_counted enc _ _ _
  · split
    · exact s.reset_counted enc _ _ _
    · next hfind =>
      have htable : s.table.filter (s.idOf · != id) = s.table := filter_of_find?_eq_none hfind
      refine .stays (fun r hr _ => ?_) rfl
      rw [table_register, htable]
      exact List.mem_append_left _ hr

theorem receiveHead_counted (version : Version) (id : UInt32) (head : Head) (notice : StreamRef → Head → Notice) :
    s.Counted (s.receiveHead enc version id head notice).session := by
  unfold receiveHead receiveOn
  split
  · exact s.reset_counted enc _ _ _
  · dsimp only
    split <;> exact .of_table rfl rfl

theorem shiftWindows_last (delta : Int) : (s.shiftWindows delta).1.lastStreamId = s.lastStreamId := by
  have hstep : ∀ (p : Session × List (StreamRef × Error)) r,
      (shiftWindow delta p r).1.lastStreamId = p.1.lastStreamId := by
    intro p r
    unfold shiftWindow
    split <;> rfl
  suffices h : ∀ (l : List StreamRef) (p : Session × List (StreamRef × Error)),
      (l.foldl (shiftWindow delta) p).1.lastStreamId = p.1.lastStreamId by
    rw [shiftWindows_eq]
    exact h s.table (s, [])
  intro l
  induction l with
  | nil => exact fun p => rfl
  | cons r l ih => exact fun p => (ih _).trans (hstep p r)

theorem receiveSettings_counted (message : SettingsMessage) : s.Counted (s.receiveSettings message).session := by
  refine .of_table (s.receiveSettings_same message).table ?_
  unfold receiveSettings
  dsimp only
  split
  · rfl
  · split
    · rfl
    · exact shiftWindows_last _ _

theorem receivePing_counted (version : Version) (id : UInt32) : s.Counted (s.receivePing enc version id).session := by
  unfold receivePing
  split
  · exact .refl s
  · split <;> exact .of_table rfl rfl

theorem receiveGoAway_counted (last code : UInt32) : s.Counted (s.receiveGoAway last code).session := by
  unfold receiveGoAway
  split <;> exact .of_table rfl rfl

theorem receiveWindow_counted (id delta : UInt32) : s.Counted (s.receiveWindow id delta).session := by
  unfold receiveWindow
  split
  · exact .refl s
  · split <;> exact .of_table rfl rfl

theorem receiveControl_counted (f : ControlFrame) : s.Counted (s.receiveControl enc f).session := by
  obtain ⟨version, body⟩ := f
  cases body with
  | synStream flags id associatedId priority headers => exact s.receiveSyn_counted enc _ _ _
  | synReply flags id headers => exact s.receiveHead_counted enc _ _ _ _
  | rstStream id code => exact .refl s
  | settings flags entries => exact s.receiveSettings_counted _
  | noop => exact .refl s
  | ping id => exact s.receivePing_counted enc _ _
  | goAway last code => exact s.receiveGoAway_counted _ _
  | headers flags id headers => exact s.receiveHead_counted enc _ _ _ _
  | windowUpdate id delta => exact s.receiveWindow_counted _ _

theorem receiveData_counted (f : DataFrame) : s.Counted (s.receiveData enc f).session := by
  unfold receiveData receiveOn
  split
  · exact s.reset_counted enc _ _ _
  · dsimp only
    split <;> exact .of_table rfl rfl

theorem receiveSessionException_counted (e : SessionException) :
    s.Counted (s.receiveSessionException enc e).session := by
  have hend := s.announceEnd_counted enc s.config.version e.status
  unfold receiveSessionException
  split
  · exact .refl s
  · split
    · next heq =>
      rw [heq] at hend
      exact hend
    · next heq =>
      rw [heq] at hend
      exact hend

theorem receive_counted (got : Received) : s.Counted (s.receive enc got).session := by
  cases got with
  | control f =>
    rw [receive]
    split
    · exact .refl s
    · exact s.receiveControl_counted enc f
  | data f =>
    rw [receive]
    split
    · exact .refl s
    · exact s.receiveData_counted enc f
  | streamException e => exact s.reset_counted enc _ _ _
  | sessionException e => exact s.receiveSessionException_counted enc e

theorem wrote_counted (q : Parcel) : s.Counted (s.wrote q).session := by
  have hwrote := wrote_cases s q
  refine .of_table (sameIds_of_wrote hwrote).1.table ?_
  generalize s.wrote q = p at hwrote
  cases hwrote with
  | done =>
    dsimp only
    split <;> rfl
  | _ => rfl

theorem report_counted (seq : Nat) {f : Session → Parcel → Progress}
    (hf : ∀ (t : Session) q, t.Counted (f t q).session) : s.Counted (s.report seq f).session := by
  unfold report
  split
  · exact .refl s
  · exact (hf _ _).of_base rfl rfl rfl (fun _ => rfl) rfl

theorem begin_counted (own : s.config.isLocal s.nextStreamId) (alive : Bool) (op : Operation) :
    s.Counted (s.begin enc alive op).session := by
  cases op with
  | syn version opening listener => exact s.beginSyn_counted enc own _ _ _
  | reset version id status => exact s.reset_counted enc _ _ _
  | settings version message => exact s.beginFrame_counted enc _ _
  | ping version => exact (beginFrame_counted enc _ _ _).of_base rfl rfl rfl (fun _ => rfl) rfl
  | goAway version => exact s.announceEnd_counted enc _ _
  | reply r head => exact s.beginOnStream_counted enc _ _ _
  | headers r head => exact s.beginOnStream_counted enc _ _ _
  | data r payload => exact s.beginData_counted _ _ _
  | sessionData r payload => exact s.beginData_counted _ _ _
  | receive got => exact s.receive_counted enc got
  | complete seq => exact s.report_counted seq wrote_counted
  | fail seq fault => exact s.report_counted seq fun t q => .of_table rfl rfl

theorem le_ranTo (s : Session) (n : UInt32) (r : StreamRef) : n ≤ s.ranTo n r := by
  unfold ranTo
  split
  · show n ≤ if n ≤ s.idOf r then s.idOf r else n
    split
    · assumption
    · exact UInt32.le_refl n
  · exact UInt32.le_refl n

theorem idOf_le_ranTo {s : Session} {r : StreamRef} (closed : (s.stream r).isClosed) (remote : s.isRemote (s.idOf r))
    (n : UInt32) : s.idOf r ≤ s.ranTo n r := by
  rw [ranTo, closed, remote, Bool.and_true, if_pos rfl]
  show s.idOf r ≤ if n ≤ s.idOf r then s.idOf r else n
  split
  · exact UInt32.le_refl _
  · next h => exact (UInt32.le_total n (s.idOf r)).resolve_left h

theorem ranTo_cases (s : Session) (n : UInt32) (r : StreamRef) :
    s.ranTo n r = n ∨ (s.stream r).isClosed ∧ s.isRemote (s.idOf r) ∧ s.ranTo n r = s.idOf r := by
  unfold ranTo
  split
  · next h =>
    rw [Bool.and_eq_true] at h
    show (if n ≤ s.idOf r then s.idOf r else n) = n ∨ _ ∧ _ ∧ (if n ≤ s.idOf r then s.idOf r else n) = s.idOf r
    split
    · exact .inr ⟨h.1, h.2, rfl⟩
    · exact .inl rfl
  · exact .inl rfl

end Session

section Moment

variable {enc : Encoder} {m m' : Machine} {e : Event} {mo : Moment}

theorem counted_of_next? (h : m.next? enc e = some m') (own : m.session.config.isLocal m.session.nextStreamId) :
    m.session.Counted m'.session := by
  have haccept : ∀ (c : Call) (reply : Option Listener), m.session.Counted (Machine.accept m.session c reply) := by
    intro c reply
    unfold Machine.accept
    split <;> exact .of_table rfl rfl
  cases Machine.happens_of_next? h with
  | invoke op yields possible => exact m.session.begin_counted enc own _ op
  | tick stack notCall => exact m.session.perform_counted enc _
  | answer reply stack => exact haccept _ _
  | caught p stack tell => exact haccept _ _
  | broken p stack notTell => exact .refl _
  | leave stack => exact .refl _
  | edit e yields => cases e <;> exact .of_table rfl rfl
  | drop seq yields => exact .of_table rfl rfl

/-- What a moment is to the highest id: it goes up to that of a stream that leaves, and to no other one. -/
structure Moment.Raises (mo : Moment) : Prop where
  le : mo.before.session.lastStreamId ≤ mo.after.session.lastStreamId
  highest : ∀ id ∈ mo.doneIds, id ≤ mo.after.session.lastStreamId
  reached : mo.after.session.lastStreamId = mo.before.session.lastStreamId ∨ mo.after.session.lastStreamId ∈ mo.doneIds

theorem raises_of_counted (h : mo.before.session.Counted mo.after.session)
    (distinct : ∀ q ∈ mo.before.session.table, mo.before.session.isRemote (mo.before.session.idOf q) →
      ∀ r, mo.before.session.idOf r = mo.before.session.idOf q → r = q) : mo.Raises := by
  cases h with
  | stays kept last =>
    refine ⟨last ▸ UInt32.le_refl _, fun id hid => ?_, .inl last⟩
    obtain ⟨r, hr, -, hremote, -⟩ := Moment.mem_doneIds.1 hid
    obtain ⟨hmem, hgone⟩ := Moment.mem_departed.1 hr
    exact absurd (kept r hmem hremote) hgone
  | @leaves r mem table last =>
    refine ⟨last ▸ Session.le_ranTo _ _ _, fun id hid => ?_, ?_⟩
    · obtain ⟨q, hq, hclosed, hremote, rfl⟩ := Moment.mem_doneIds.1 hid
      obtain ⟨hmem, hgone⟩ := Moment.mem_departed.1 hq
      have hsame : mo.before.session.idOf q = mo.before.session.idOf r := by
        rw [table, List.mem_filter, bne_iff_ne] at hgone
        exact Classical.not_not.1 fun hne => hgone ⟨hmem, hne⟩
      rw [last, hsame]
      obtain rfl := distinct q hmem hremote r hsame.symm
      exact Session.idOf_le_ranTo hclosed hremote _
    · rw [last]
      refine (Session.ranTo_cases _ _ r).imp_right fun ⟨hclosed, hremote, hlast⟩ => ?_
      obtain ⟨q, hq, hid⟩ := mem
      obtain rfl := distinct q hq (hid ▸ hremote) r hid.symm
      rw [hlast]
      refine Moment.mem_doneIds.2 ⟨r, Moment.mem_departed.2 ⟨hq, fun hmem => ?_⟩, hclosed, hremote, rfl⟩
      rw [table, List.mem_filter] at hmem
      simp at hmem

/-! ## The peer's streams -/

def Moment.openingId? (mo : Moment) : Option UInt32 := mo.taken?.bind Received.opening?

/-- The ids with which the peer opened streams, or tried to. -/
def openingIds (past : List Moment) : List UInt32 := past.filterMap Moment.openingId?

theorem openingIds_append (past : List Moment) (mo : Moment) :
    openingIds (past ++ [mo]) = openingIds past ++ mo.openingId?.toList := by
  rw [openingIds, List.filterMap_append, ← openingIds]
  cases h : mo.openingId? <;> simp [h]

/-- A stream of the peer was there before, or the peer opens it just now. -/
theorem foreign_of_occurs (h : Occurs enc mo) (own : mo.before.session.config.isLocal mo.before.session.nextStreamId)
    {r : StreamRef} (hr : r.serial < mo.after.session.streams.size)
    (remote : mo.before.session.config.isLocal (mo.after.session.idOf r) = false) :
    r.serial < mo.before.session.streams.size ∧ mo.after.session.idOf r = mo.before.session.idOf r ∨
      r = mo.before.session.nextRef ∧ mo.after.session.idOf r ≠ 0 ∧
        mo.openingId? = some (mo.after.session.idOf r) := by
  by_cases hold : r.serial < mo.before.session.streams.size
  · exact .inl ⟨hold, (idOf_of_occurs h hold).2⟩
  · have hlast : mo.after.session.streams.size = mo.before.session.streams.size + 1 → r = mo.before.session.nextRef :=
      fun hsize => congrArg StreamRef.mk (show r.serial = mo.before.session.streams.size by omega)
    cases comes_of_occurs h with
    | none size => exact absurd (size ▸ hr) hold
    | own size hasId =>
      rw [hlast size, hasId, own] at remote
      cases remote
    | others size hasId taken opening valid =>
      obtain rfl := hlast size
      rw [hasId]
      exact .inr ⟨rfl, valid, by rw [Moment.openingId?, taken]; exact opening⟩

theorem absent_of_occurs (h : Occurs enc mo) {r : StreamRef} (hr : r.serial < mo.before.session.streams.size)
    (absent : r ∉ mo.before.session.table) : r ∉ mo.after.session.table := by
  cases h with
  | work deed steady session =>
    obtain ⟨t, more, ht, heq⟩ := steady
    rw [session, heq]
    exact fun hmem => (ht.table r hmem).elim absent (Nat.not_le.2 hr)
  | keeps same => rwa [same.table]
  | hands same => rwa [same.table]

end Moment

/-! ## Over a run -/

/-- The peer's streams have different ids, none of which is 0, and with which it opened them. -/
structure Foreign (past : List Moment) (m : Machine) : Prop where
  opened : ∀ r, r.serial < m.session.streams.size → m.session.isRemote (m.session.idOf r) →
    m.session.idOf r ≠ 0 ∧ m.session.idOf r ∈ openingIds past
  distinct : ∀ q r, q.serial < m.session.streams.size → r.serial < m.session.streams.size →
    m.session.isRemote (m.session.idOf q) → m.session.idOf r = m.session.idOf q → r = q

/-- What the highest id is, and which streams left the table. -/
structure Reckoned (past : List Moment) (m : Machine) : Prop where
  gone : ∀ mo ∈ past, ∀ r ∈ mo.departed, r.serial < m.session.streams.size ∧ r ∉ m.session.table
  done : ∀ id ∈ doneIds past, ∃ r, r.serial < m.session.streams.size ∧ r ∉ m.session.table ∧
    m.session.isRemote id ∧ m.session.idOf r = id
  highest : ∀ id ∈ doneIds past, id ≤ m.session.lastStreamId
  reached : m.session.lastStreamId = 0 ∨ m.session.lastStreamId ∈ doneIds past
  closed : ∀ mo ∈ past, ∀ r ∈ mo.departed, m.session.isRemote (m.session.idOf r) →
    m.session.idOf r ∈ doneIds past → (mo.before.session.stream r).isClosed

section Step

variable {enc : Encoder} {past : List Moment} {m m' : Machine} {e : Event}

theorem isRemote_of_occurs (h : Occurs enc ⟨m, e, m'⟩) (id : UInt32) :
    m'.session.isRemote id = m.session.isRemote id := by
  rw [Session.isRemote, show m'.session.config = m.session.config from config_of_occurs h, ← Session.isRemote]

/-- One id of the peer's names one stream, whether or not the session ever had the other one. -/
theorem Foreign.eq_of_idOf (h : Foreign past m) {q r : StreamRef} (hq : q.serial < m.session.streams.size)
    (remote : m.session.isRemote (m.session.idOf q)) (same : m.session.idOf r = m.session.idOf q) : r = q := by
  by_cases hr : r.serial < m.session.streams.size
  · exact h.distinct q r hq hr remote same
  · refine absurd ?_ (h.opened q hq remote).1
    rw [← same, Session.idOf, Session.stream_of_size_le (Nat.not_lt.1 hr)]
    rfl

theorem Foreign.raises (h : Foreign past m) (tidy : m.session.Tidy) (counted : m.session.Counted m'.session) :
    Moment.Raises ⟨m, e, m'⟩ :=
  raises_of_counted counted fun q hq remote _ same => h.eq_of_idOf (tidy.known q hq) remote same

theorem Foreign.step (h : Foreign past m) (own : m.session.config.isLocal m.session.nextStreamId)
    (occurs : Occurs enc ⟨m, e, m'⟩) (once : (openingIds (past ++ [⟨m, e, m'⟩])).Nodup) :
    Foreign (past ++ [⟨m, e, m'⟩]) m' := by
  have hcases : ∀ {r : StreamRef}, r.serial < m'.session.streams.size → m'.session.isRemote (m'.session.idOf r) →
      r.serial < m.session.streams.size ∧ m'.session.idOf r = m.session.idOf r ∨
        r = m.session.nextRef ∧ m'.session.idOf r ≠ 0 ∧ m'.session.idOf r ∉ openingIds past ∧
          m'.session.idOf r ∈ openingIds (past ++ [⟨m, e, m'⟩]) := by
    intro r hr remote
    rw [isRemote_of_occurs occurs, Session.isRemote, Bool.not_eq_true'] at remote
    refine (foreign_of_occurs occurs own hr remote).imp_right fun ⟨hnew, hzero, hopening⟩ => ?_
    rw [openingIds_append, hopening] at once ⊢
    refine ⟨hnew, hzero, fun hmem => ?_, List.mem_append_right _ List.mem_cons_self⟩
    exact (List.nodup_append.1 once).2.2 _ hmem _ List.mem_cons_self rfl
  have hold : ∀ {r : StreamRef}, r.serial < m.session.streams.size → m'.session.isRemote (m.session.idOf r) →
      m.session.idOf r ≠ 0 ∧ m.session.idOf r ∈ openingIds past :=
    fun hr remote => h.opened _ hr (isRemote_of_occurs occurs _ ▸ remote)
  constructor
  · intro r hr remote
    rcases hcases hr remote with ⟨hlt, hid⟩ | ⟨-, hzero, -, hmem⟩
    · rw [hid] at remote ⊢
      rw [openingIds_append]
      exact (hold hlt remote).imp_right (List.mem_append_left _)
    · exact ⟨hzero, hmem⟩
  · intro q r hq hr remote same
    rcases hcases hq remote with ⟨hqlt, hqid⟩ | ⟨hqnew, -, hqfresh, -⟩ <;>
      rcases hcases hr (same ▸ remote) with ⟨hrlt, hrid⟩ | ⟨hrnew, -, hrfresh, -⟩
    · rw [hqid] at remote same
      exact h.distinct q r hqlt hrlt (isRemote_of_occurs occurs _ ▸ remote) (hrid.symm.trans same)
    · rw [same, hqid] at hrfresh
      rw [hqid] at remote
      exact absurd (hold hqlt remote).2 hrfresh
    · rw [← same, hrid] at hqfresh
      rw [← same, hrid] at remote
      exact absurd (hold hrlt remote).2 hqfresh
    · rw [hqnew, hrnew]

/-- Whether the stream that an id names was closed when it left does not depend on what leaves later. -/
theorem Reckoned.closed_step (h : Reckoned past m) (foreign : Foreign past m) (tidy : m.session.Tidy)
    (occurs : Occurs enc ⟨m, e, m'⟩) : ∀ mo ∈ past ++ [⟨m, e, m'⟩], ∀ r ∈ mo.departed,
      m'.session.isRemote (m'.session.idOf r) → m'.session.idOf r ∈ doneIds (past ++ [⟨m, e, m'⟩]) →
      (mo.before.session.stream r).isClosed := by
  intro mo hmo r hr remote hmem
  have hnow : ∀ q ∈ Moment.departed ⟨m, e, m'⟩, q ∈ m.session.table := fun q hq => (Moment.mem_departed.1 hq).1
  have hlt : r.serial < m.session.streams.size := by
    rcases List.mem_append.1 hmo with hmo | hmo
    · exact (h.gone mo hmo r hr).1
    · obtain rfl := List.mem_singleton.1 hmo
      exact tidy.known r (hnow r hr)
  rw [show m'.session.idOf r = m.session.idOf r from (idOf_of_occurs occurs hlt).2] at remote hmem
  rw [isRemote_of_occurs occurs] at remote
  rw [doneIds_append] at hmem
  rcases List.mem_append.1 hmo with hmo | hmo <;> rcases List.mem_append.1 hmem with hmem | hmem
  · exact h.closed mo hmo r hr remote hmem
  · -- a stream that left before is not among those that leave now
    obtain ⟨q, hq, -, -, hid⟩ := Moment.mem_doneIds.1 hmem
    obtain rfl := foreign.eq_of_idOf hlt remote hid
    exact absurd (hnow q hq) (h.gone mo hmo q hr).2
  · obtain rfl := List.mem_singleton.1 hmo
    obtain ⟨q, -, habsent, -, hid⟩ := h.done _ hmem
    obtain rfl := foreign.eq_of_idOf hlt remote hid
    exact absurd (hnow q hr) habsent
  · obtain rfl := List.mem_singleton.1 hmo
    obtain ⟨q, -, hclosed, -, hid⟩ := Moment.mem_doneIds.1 hmem
    obtain rfl := foreign.eq_of_idOf hlt remote hid
    exact hclosed

theorem Reckoned.step (h : Reckoned past m) (foreign : Foreign past m) (tidy : m.session.Tidy)
    (counted : m.session.Counted m'.session) (occurs : Occurs enc ⟨m, e, m'⟩) :
    Reckoned (past ++ [⟨m, e, m'⟩]) m' := by
  have hraises : Moment.Raises ⟨m, e, m'⟩ := foreign.raises tidy counted
  have hkept : ∀ {r : StreamRef}, r.serial < m.session.streams.size → r ∉ m.session.table →
      r.serial < m'.session.streams.size ∧ r ∉ m'.session.table :=
    fun hr habsent => ⟨(idOf_of_occurs occurs hr).1, absent_of_occurs occurs hr habsent⟩
  have hleft : ∀ r ∈ Moment.departed ⟨m, e, m'⟩, r.serial < m.session.streams.size ∧
      r.serial < m'.session.streams.size ∧ r ∉ m'.session.table := fun r hr =>
    have hlt := tidy.known r (Moment.mem_departed.1 hr).1
    ⟨hlt, (idOf_of_occurs occurs hlt).1, (Moment.mem_departed.1 hr).2⟩
  refine ⟨?_, ?_, ?_, ?_, h.closed_step foreign tidy occurs⟩
  · intro mo hmo r hr
    rcases List.mem_append.1 hmo with hmo | hmo
    · exact hkept (h.gone mo hmo r hr).1 (h.gone mo hmo r hr).2
    · obtain rfl := List.mem_singleton.1 hmo
      exact (hleft r hr).2
  · intro id hid
    rw [doneIds_append] at hid
    rw [isRemote_of_occurs occurs]
    rcases List.mem_append.1 hid with hid | hid
    · obtain ⟨r, hlt, habsent, remote, rfl⟩ := h.done id hid
      exact ⟨r, (hkept hlt habsent).1, (hkept hlt habsent).2, remote, (idOf_of_occurs occurs hlt).2⟩
    · obtain ⟨r, hr, -, remote, rfl⟩ := Moment.mem_doneIds.1 hid
      obtain ⟨hlt, hknown, habsent⟩ := hleft r hr
      exact ⟨r, hknown, habsent, remote, (idOf_of_occurs occurs hlt).2⟩
  · intro id hid
    rw [doneIds_append] at hid
    rcases List.mem_append.1 hid with hid | hid
    · exact UInt32.le_trans (h.highest id hid) hraises.le
    · exact hraises.highest id hid
  · rw [doneIds_append]
    rcases hraises.reached with hsame | hnew
    · rw [show m'.session.lastStreamId = m.session.lastStreamId from hsame]
      exact h.reached.imp_right (List.mem_append_left _)
    · exact .inr (List.mem_append_right _ hnew)

end Step

section Course

variable {ok : Encoder → Prop} {enc : Encoder} {config : Config} {primary : Option Listener} {s : Session}
  {past : List Moment} {m m' : Machine} {e : Event}

/-- The next id of this side is one of this side, however many were used up. -/
theorem Tally.isLocal_next (h : Tally ok config past m) : m.session.config.isLocal m.session.nextStreamId := by
  have heven : 2 ∣ 2 ^ 32 := by decide
  rw [h.config, Config.isLocal_iff, h.next, Nat.mod_mod_of_dvd _ heven, Nat.add_mul_mod_self_left]

theorem reckoned_of_course (hnew : Session.new config primary = .ok s) (course : Course ok { session := s } past m)
    (once : (openingIds past).Nodup) : Foreign past m ∧ Reckoned past m := by
  induction course with
  | start =>
    obtain ⟨-, rfl⟩ := Session.new_eq_ok hnew
    refine ⟨⟨fun r hr => absurd hr (Nat.not_lt_zero _), fun q r hq => absurd hq (Nat.not_lt_zero _)⟩, ?_⟩
    exact
      { gone := fun _ h => absurd h List.not_mem_nil
        done := fun _ h => absurd h List.not_mem_nil
        highest := fun _ h => absurd h List.not_mem_nil
        reached := .inl rfl
        closed := fun _ h => absurd h List.not_mem_nil }
  | next course may h ih =>
    have hbefore := once
    rw [openingIds_append] at hbefore
    obtain ⟨tally, tidy⟩ := tally_of_course hnew course
    obtain ⟨foreign, reckoned⟩ := ih (List.nodup_append.1 hbefore).1
    have occurs := occurs_of_next? h tidy (placed_of_course course)
    exact ⟨foreign.step tally.isLocal_next occurs once,
      reckoned.step foreign tidy (counted_of_next? h tally.isLocal_next) occurs⟩

/-! ## Frames that announce the end -/

/-- A frame announces the end with the highest id as it is, and it is the first time that the session announces it. -/
def Session.Says (enc : Encoder) (s : Session) (q : Parcel) : Prop :=
  s.goAwaySent = false ∧ ∃ version code bytes, q = .control .goAway bytes none ∧
    enc.control ⟨version, .goAway s.lastStreamId code⟩ = .ok bytes

theorem Session.announceEnd_says (enc : Encoder) (s : Session) (version : Version) (status : SessionStatus) :
    ∀ q ∈ (s.announceEnd enc version status).1.session.outbox.parcels, q ∈ s.outbox.parcels ∨ s.Says enc q := by
  unfold announceEnd
  split
  · exact fun q hq => .inl hq
  · next hsent =>
    dsimp only
    split
    · exact fun q hq => .inl hq
    · split
      · exact fun q hq => .inl hq
      · next bytes hencoded =>
        intro q hq
        refine (List.mem_append.1 hq).imp_right fun hnew => ?_
        exact ⟨Bool.not_eq_true _ ▸ hsent, version, _, bytes, List.mem_singleton.1 hnew, hencoded⟩

theorem Session.begin_says (enc : Encoder) (s : Session) (alive : Bool) {op : Operation} (h : op.announces) :
    ∀ q ∈ (s.begin enc alive op).session.outbox.parcels, q ∈ s.outbox.parcels ∨ s.Says enc q := by
  unfold Operation.announces at h
  split at h
  · exact s.announceEnd_says enc _ .ok
  · next e =>
    have hend := s.announceEnd_says enc s.config.version e.status
    show ∀ q ∈ (s.receiveSessionException enc e).session.outbox.parcels, _
    unfold receiveSessionException
    split
    · exact fun q hq => .inl hq
    · split
      · next heq =>
        rw [heq] at hend
        exact hend
      · next heq =>
        rw [heq] at hend
        exact hend
  · cases h

/-- A frame that announces the end and waits did so before, or comes of a call that asks for it. -/
theorem says_of_next? (h : m.next? enc e = some m') (tidy : m.session.Tidy) (placed : m.Placed) {q : Parcel}
    (goAway : q.isGoAway) (hq : q ∈ m'.session.outbox.parcels) :
    q ∈ m.session.outbox.parcels ∨ (Moment.op? ⟨m, e, m'⟩).any Operation.announces ∧ m.session.Says enc q := by
  have hcontrol : ∀ {t : Session}, q ∈ t.queuedControls ↔ q ∈ t.outbox.parcels := fun {t} => by
    rw [Session.queuedControls, List.mem_filter, and_iff_left (Parcel.isControl_of_isGoAway goAway)]
  cases occurs_of_next? h tidy placed with
  | work deed steady session parcels =>
    by_cases hasks : (Moment.op? ⟨m, e, m'⟩).any Operation.announces
    · cases Machine.happens_of_next? h with
      | invoke op yields possible =>
        exact (m.session.begin_says enc m.isAlive hasks q hq).imp_right fun hsays => ⟨hasks, hsays⟩
      | _ => cases hasks
    · -- unless it is asked for, no announcement comes to wait
      have hle : m'.session.goAways ≤ m.session.goAways := by
        cases parts_of_agenda (agenda_of_next? h) with
        | keeps deaf keeps => exact keeps.goAways
        | ends asks => exact absurd asks hasks
        | hears asks received session => exact Nat.le_of_eq ((congrArg Session.goAways session).trans rfl)
      rw [show m'.session.outbox.parcels = _ from parcels] at hq
      refine .inl ((List.mem_append.1 hq).resolve_right fun hnew => ?_)
      rw [Session.goAways, show m'.session.outbox.parcels = _ from parcels, List.countP_append] at hle
      exact absurd (List.countP_pos_iff.2 ⟨q, hnew, goAway⟩) (Nat.not_lt.2 (Nat.le_of_add_le_add_left hle))
  | keeps same controls => exact .inl (hcontrol.1 (controls.subset (hcontrol.2 hq)))
  | hands same controls =>
    refine .inl (hcontrol.1 ?_)
    rw [show m.session.queuedControls = _ from controls]
    exact List.mem_cons_of_mem _ (hcontrol.2 hq)

/-- An announcement that waits comes of an earlier call, and has the highest id as it was when the call was made. -/
theorem said_of_course (hnew : Session.new config primary = .ok s) (course : Course ok { session := s } past m)
    {q : Parcel} (goAway : q.isGoAway) (hq : q ∈ m.session.outbox.parcels) :
    ∃ call ∈ past, call.op?.any Operation.announces ∧ ∃ enc, ok enc ∧ call.before.session.Says enc q := by
  induction course with
  | start =>
    obtain ⟨-, rfl⟩ := Session.new_eq_ok hnew
    cases hq
  | next course may h ih =>
    have hsaid := says_of_next? h (tally_of_course hnew course).2 (placed_of_course course) goAway hq
    rcases hsaid with hold | ⟨hasks, hsays⟩
    · obtain ⟨call, hmem, hcall⟩ := ih hold
      exact ⟨call, List.mem_append_left _ hmem, hcall⟩
    · exact ⟨_, List.mem_append_right _ List.mem_cons_self, hasks, _, may, hsays⟩

/-- The highest id on the wire, where a frame announces the end. -/
theorem toNat_last_of_encode {version : Version} {last code : UInt32} {bytes : Bytes}
    (h : ControlFrame.encode ⟨version, .goAway last code⟩ = .ok bytes) :
    Bytes.toNat ((bytes.drop headerLength).take 4) = last.toNat % 2 ^ 31 := by
  have hbytes := (ControlFrame.accepted_of_encode h).bytes
  have hlayout : ∃ rest, Body.layout version (.goAway last code) = layoutId last ++ rest := ⟨_, rfl⟩
  obtain ⟨rest, hrest⟩ := hlayout
  rw [hbytes, List.drop_left' (by simp [ControlFrame.header, headerLength]), hrest,
    List.take_left' (length_layoutId last), layoutId, toNat_ofNat_of_lt (low31 last).toNat_lt, toNat_low31]

end Course

/-- In a run in which the peer opens no two streams with the same id, the highest id of the session never goes down. It
is the greatest among the ids of the peer's streams that left the table while they were closed on both sides, all of
which the peer opened, or 0 if there is none; so it is no id of this side, and no id of a stream that left the table
while it was not closed on both sides. A frame that announces the end comes of a call that was made before, an
announcement that is asked for or an exception that ends the session, and has the highest id as it was when the call was
made, also on the wire if encoders write control frames as the standard one does. -/
theorem last_stream_exact {ok : Encoder → Prop} {config : Config} {primary : Option Listener} {s : Session}
    {past : List Moment} {m : Machine} (hnew : Session.new config primary = .ok s)
    (course : Course ok { session := s } past m) (once : (openingIds past).Nodup) :
    (∀ mo ∈ past, mo.before.session.lastStreamId ≤ mo.after.session.lastStreamId) ∧
      (doneIds past = [] ∧ m.session.lastStreamId = 0 ∨
        m.session.lastStreamId ∈ doneIds past ∧ ∀ id ∈ doneIds past, id ≤ m.session.lastStreamId) ∧
      (∀ id ∈ doneIds past, id ∈ openingIds past) ∧
      (m.session.lastStreamId = 0 ∨ config.isLocal m.session.lastStreamId = false) ∧
      (∀ mo ∈ past, ∀ r ∈ mo.departed, (mo.before.session.stream r).isClosed = false → m.session.idOf r ≠ 0 →
        m.session.lastStreamId ≠ m.session.idOf r) ∧
      ∀ pre mo post q, past = pre ++ mo :: post → mo.sentControl? = some q → q.isGoAway →
        ∃ call ∈ pre, call.op?.any Operation.announces ∧ call.before.session.goAwaySent = false ∧
          ∃ bytes, q = .control .goAway bytes none ∧
            (∃ enc version code, ok enc ∧
              enc.control ⟨version, .goAway call.before.session.lastStreamId code⟩ = .ok bytes) ∧
            ((∀ enc, ok enc → enc.control = ControlFrame.encode) →
              Bytes.toNat ((bytes.drop headerLength).take 4) = call.before.session.lastStreamId.toNat % 2 ^ 31) := by
  obtain ⟨foreign, reckoned⟩ := reckoned_of_course hnew course once
  have hconfig : m.session.config = config := (tally_of_course hnew course).1.config
  have hdone : ∀ id ∈ doneIds past, m.session.isRemote id ∧ id ∈ openingIds past := by
    intro id hid
    obtain ⟨r, hr, -, remote, rfl⟩ := reckoned.done id hid
    exact ⟨remote, (foreign.opened r hr remote).2⟩
  refine ⟨?_, ?_, fun id hid => (hdone id hid).2, ?_, ?_, ?_⟩
  · intro mo hmo
    obtain ⟨pre, post, rfl⟩ := List.append_of_mem hmo
    obtain ⟨hpre, enc, -, hnext⟩ := course.of_append
    obtain ⟨tally, tidy⟩ := tally_of_course hnew hpre
    have hbefore : (openingIds pre).Nodup := once.sublist ((List.sublist_append_left _ _).filterMap _)
    have hraises : mo.Raises :=
      (reckoned_of_course hnew hpre hbefore).1.raises tidy (counted_of_next? hnext tally.isLocal_next)
    exact hraises.le
  · rcases reckoned.reached with hzero | hmem
    · cases hids : doneIds past with
      | nil => exact .inl ⟨rfl, hzero⟩
      | cons id ids =>
        have hhighest := hids ▸ reckoned.highest
        have hid : id = m.session.lastStreamId := by
          have := UInt32.le_iff_toNat_le.1 (hhighest id List.mem_cons_self)
          rw [hzero] at this ⊢
          exact UInt32.toNat_inj.1 (Nat.le_zero.1 this)
        exact .inr ⟨hid ▸ List.mem_cons_self, hhighest⟩
    · exact .inr ⟨hmem, reckoned.highest⟩
  · refine reckoned.reached.imp_right fun hmem => ?_
    rw [← hconfig, ← Bool.not_eq_true']
    exact (hdone _ hmem).1
  · intro mo hmo r hr hopen hzero hlast
    have hmem : m.session.idOf r ∈ doneIds past :=
      hlast ▸ reckoned.reached.resolve_left fun h => hzero (hlast.symm.trans h)
    cases (reckoned.closed mo hmo r hr (hdone _ hmem).1 hmem).symm.trans hopen
  · rintro pre mo post q rfl hsent goAway
    obtain ⟨hpre, enc, -, hnext⟩ := course.of_append
    cases occurs_of_next? hnext (tally_of_course hnew hpre).2 (placed_of_course hpre) with
    | work deed steady session parcels handed => cases (Moment.sentControl?_of_none handed).symm.trans hsent
    | keeps same controls handed => cases handed.symm.trans hsent
    | @hands x same controls handed =>
      obtain rfl : x = q := Option.some.inj (handed.symm.trans hsent)
      have hwaits : x ∈ mo.before.session.queuedControls := controls ▸ List.mem_cons_self
      obtain ⟨call, hcall, hasks, enc', may, hfirst, version, code, bytes, rfl, encoded⟩ :=
        said_of_course hnew hpre goAway (List.mem_filter.1 hwaits).1
      refine ⟨call, hcall, hasks, hfirst, bytes, rfl, ⟨enc', version, code, may, encoded⟩, fun hstandard => ?_⟩
      rw [hstandard enc' may] at encoded
      exact toNat_last_of_encode encoded

/-- Streams 4 and 2 leave in this order, 6 is only reset, and 8 waits for the answer of this side to be written.
Meanwhile the end is announced, with the highest id of before. -/
theorem last_stream_exact_before_announcement : ∃ s past m, Session.new .client none = .ok s ∧
    Course (fun enc => enc = .standard 16384) { session := s } past m ∧ (openingIds past).Nodup ∧
      doneIds past = [4, 2, 8] ∧ past.flatMap Moment.departed = [⟨0⟩, ⟨2⟩, ⟨1⟩, ⟨3⟩] ∧ m.session.lastStreamId = 8 ∧
      (sentControls past).getLast? = some (.control .goAway [128, 3, 0, 7, 0, 0, 0, 8, 0, 0, 0, 4, 0, 0, 0, 0] none) ∧
      (∀ mo ∈ past, mo.before.session.lastStreamId ≤ mo.after.session.lastStreamId) ∧
      ∀ mo ∈ past, ∀ r ∈ mo.departed, (mo.before.session.stream r).isClosed = false → m.session.idOf r ≠ 0 →
        m.session.lastStreamId ≠ m.session.idOf r := by
  have hnew : Session.new .client none = .ok (.fresh .client none) := rfl
  have hcourse : Course (fun enc => enc = .standard 16384) _ _ _ :=
    (Machine.run_of_replay? (.standard 16384) { session := .fresh .client none }
      [.invoke (.receive (.control ⟨.v3, .synStream 3 4 0 0 default⟩)), .tick, .tick, .tick, .tick, .tick, .leave,
        .invoke (.receive (.control ⟨.v3, .synStream 0 6 0 0 default⟩)), .tick, .tick, .tick, .tick, .leave,
        .invoke (.receive (.control ⟨.v3, .synStream 3 2 0 0 default⟩)), .tick, .tick, .tick, .tick, .tick, .leave,
        .invoke (.receive (.control ⟨.v3, .rstStream 6 5⟩)), .tick, .tick, .tick, .tick, .tick, .leave,
        .invoke (.receive (.control ⟨.v3, .synStream 1 8 0 0 default⟩)), .tick, .tick, .tick, .tick, .leave,
        .invoke (.reply ⟨3⟩ ⟨default, true⟩), .tick, .answer none, .tick, .leave,
        .invoke (.goAway .v3), .tick, .leave,
        .invoke (.complete 1), .tick, .tick, .tick, .tick, .answer none, .tick, .leave] rfl).course rfl
  have hexact := last_stream_exact hnew hcourse (by decide)
  exact ⟨_, _, _, hnew, hcourse, by decide, rfl, rfl, rfl, rfl, hexact.1, hexact.2.2.2.2.1⟩

end Spdy
