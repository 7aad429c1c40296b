import Spdy.Proofs.Course
import Spdy.Proofs.Numbering
import Spdy.Proofs.Precedence

/-!
# Ids of streams of this side

A session uses up an id each time that it tries to open a stream, also if the encoder has no frame for it, and counts on in
steps of two. As long as not too many ids are used up none comes twice, whatever the peer opens, and the frames that open
streams leave in the order of their ids.

* `Moment.usedId?`, `usedIds` : the ids that the application is told of, with a stream or with an error;
* `Moment.openedId?`, `openedIds` : the ids of the streams that it gets;
* `Parcel.isOpening`, `sentOpenings` : frames that open streams, and those that are handed over;
* `Occurs`, `occurs_of_next?` : what a moment does to ids and to frames that open streams, whatever the encoder;
* `Tally`, `tally_of_course` : ids that are used up, ids of streams, and ids of frames that open streams;
* `ids_count_up` : all this in a run whose encoder may be another one at each moment.
-/

namespace Spdy

/-! ## Ids that are used up -/

def Outcome.usesId : Outcome → Bool
  | .opened _ | .failed (.streamCreation ..) => true
  | _ => false

namespace Moment

/-- The id that a call uses up, as the application is told: that of the stream that it gets, or that of the stream that
could not be opened. -/
def usedId? (mo : Moment) : Option UInt32 :=
  match mo.outcome? with
  | some (.opened r) => some (mo.after.session.idOf r)
  | some (.failed (.streamCreation id _)) => some id
  | _ => none

theorem usedId?_eq_none {mo : Moment} (h : ∀ o, mo.outcome? = some o → o.usesId = false) : mo.usedId? = none := by
  unfold usedId?
  split
  · next heq => cases h _ heq
  · next heq => cases h _ heq
  · rfl

def openedId? (mo : Moment) : Option UInt32 :=
  match mo.outcome? with
  | some (.opened r) => some (mo.after.session.idOf r)
  | _ => none

end Moment

/-- The ids that were used up, first the first. -/
def usedIds (past : List Moment) : List UInt32 := past.filterMap Moment.usedId?

/-- The ids of the streams that the application got, first the first. -/
def openedIds (past : List Moment) : List UInt32 := past.filterMap Moment.openedId?

theorem usedIds_append (past : List Moment) (mo : Moment) :
    usedIds (past ++ [mo]) = usedIds past ++ mo.usedId?.toList := by
  rw [usedIds, List.filterMap_append, ← usedIds]
  cases h : mo.usedId? <;> simp [h]

theorem openedIds_sublist (past : List Moment) : (openedIds past).Sublist (usedIds past) := by
  induction past with
  | nil => exact .slnil
  | cons mo past ih =>
    rw [openedIds, usedIds, List.filterMap_cons, List.filterMap_cons]
    have hsame : ∀ id, mo.openedId? = some id → mo.usedId? = some id := by
      intro id h
      unfold Moment.openedId? at h
      split at h
      · next r hr =>
        rw [Moment.usedId?, hr]
        exact h
      · cases h
    cases ho : mo.openedId? with
    | some id =>
      rw [hsame id ho]
      exact ih.cons_cons id
    | none =>
      cases mo.usedId? with
      | none => exact ih
      | some id => exact ih.cons id

/-! ## Frames that open streams -/

def Parcel.isOpening : Parcel → Bool
  | .control .synStream _ _ => true
  | _ => false

def Session.openings (s : Session) : List Parcel := s.queuedControls.filter (·.isOpening)

/-- The frames that opened streams and were handed over, first the first. -/
def sentOpenings (past : List Moment) : List Parcel := (sentControls past).filter (·.isOpening)

theorem sentOpenings_append (past : List Moment) (mo : Moment) :
    sentOpenings (past ++ [mo]) = sentOpenings past ++ mo.sentControl?.toList.filter (·.isOpening) := by
  rw [sentOpenings, sentControls_append, List.filter_append, ← sentOpenings]

/-- The ids of the streams that frames are for. -/
def Session.idsOf (s : Session) (frames : List Parcel) : List UInt32 := frames.filterMap fun q => q.stream?.map s.idOf

/-- A frame that opens a stream of this side, as one of the encoders that may be has encoded it. -/
structure OpeningOf (ok : Encoder → Prop) (s : Session) (q : Parcel) (bytes : Bytes) (r : StreamRef) : Prop where
  parcel : q = .control .synStream bytes (some r)
  known : r.serial < s.streams.size
  encoded : ∃ enc version flags associatedId priority headers, ok enc ∧
    enc.control ⟨version, .synStream flags (s.idOf r) associatedId priority headers⟩ = .ok bytes

/-! ## What a moment does -/

structure Session.SameIds (s t : Session) : Prop where
  table : t.table = s.table
  size : t.streams.size = s.streams.size
  idOf : t.idOf = s.idOf
  nextStreamId : t.nextStreamId = s.nextStreamId
  config : t.config = s.config

/-- What a moment does to ids and to the frames that open streams, whatever the encoder. -/
inductive Occurs (enc : Encoder) (mo : Moment) : Prop
  | work {p : Progress} {new : List Parcel} (deed : Deed enc mo.before.session mo.op? mo.task? p new)
      (steady : ∃ t more, Steady mo.before.session t ∧ p.session = t.post more) (session : mo.after.session = p.session)
      (parcels : mo.after.session.outbox.parcels = mo.before.session.outbox.parcels ++ new)
      (handed : mo.handed? = none)
  | keeps (same : mo.before.session.SameIds mo.after.session)
      (controls : mo.after.session.queuedControls.Sublist mo.before.session.queuedControls)
      (handed : mo.sentControl? = none)
  | hands {q : Parcel} (same : mo.before.session.SameIds mo.after.session)
      (controls : mo.before.session.queuedControls = q :: mo.after.session.queuedControls)
      (handed : mo.sentControl? = some q)

/-- Whether a moment uses up an id: it is the next one, and the application is told of it. -/
inductive Counts (mo : Moment) : Prop
  | none (used : mo.usedId? = none) (allots : mo.allots? = none)
      (next : mo.after.session.nextStreamId = mo.before.session.nextStreamId)
  | next (used : mo.usedId? = some mo.before.session.nextStreamId) (allots : mo.allots? = some mo.before.session.nextStreamId)
      (next : mo.after.session.nextStreamId = mo.before.session.nextStreamId + 2)

namespace Session.SameIds

variable {s t : Session}

theorem update (s : Session) (r : StreamRef) {f : Stream → Stream} (hf : (f (s.stream r)).id = (s.stream r).id) :
    s.SameIds (s.update r f) := ⟨rfl, size_update s r f, idOf_update s r hf, rfl, rfl⟩

theorem tidy (h : s.SameIds t) (hs : s.Tidy) : t.Tidy :=
  ⟨by rw [h.table, h.size]; exact hs.known, by rw [h.table, h.idOf]; exact hs.nodup⟩

end Session.SameIds

/-- What a flush comes to for control frames, whatever the encoder. -/
inductive Drains (s : Session) (p : Progress) : Prop
  | keeps (same : s.SameIds p.session) (controls : p.session.queuedControls = s.queuedControls)
      (handed : ∀ bytes h, p.handed? = some (bytes, h) → h.parcel.isControl = false)
  | hands {type : FrameType} {bytes : Bytes} {r : Option StreamRef} {seq : Nat} (same : s.SameIds p.session)
      (controls : s.queuedControls = .control type bytes r :: p.session.queuedControls)
      (handed : p.handed? = some (bytes, ⟨seq, .control type bytes r⟩))

namespace Session

theorem drains_of_flush (enc : Encoder) (s : Session) : Drains s (s.flush enc) := by
  have hnone : ∀ bytes h, (none : Option (Bytes × Handler)) = some (bytes, h) → h.parcel.isControl = false :=
    fun _ _ handed => absurd handed (Option.some_ne_none _).symm
  unfold flush
  cases htake : s.take? with
  | none => exact .keeps ⟨rfl, rfl, rfl, rfl, rfl⟩ rfl hnone
  | some taken =>
    obtain ⟨q, t⟩ := taken
    obtain ⟨⟨q', o⟩, hout, heq⟩ := Option.map_eq_some_iff.1 htake
    obtain ⟨rfl, rfl⟩ := Prod.mk.inj heq
    obtain ⟨-, before, after, hparcels, hblocked, -, rfl⟩ := Outbox.take?_eq_some hout
    have hfront : before.filter (·.isControl) = [] := filter_isControl_eq_nil (s := s) hblocked
    have hcontrols : s.queuedControls = [q'].filter (·.isControl) ++ (before ++ after).filter (·.isControl) := by
      rw [queuedControls, hparcels, List.filter_append, List.filter_append, hfront, List.nil_append, List.nil_append,
        ← List.filter_append, List.singleton_append]
    cases q' with
    | control type bytes r => exact .hands ⟨rfl, rfl, rfl, rfl, rfl⟩ hcontrols rfl
    | data r payload written =>
      have hdata : s.queuedControls = (before ++ after).filter (·.isControl) := hcontrols
      dsimp only
      split
      · exact .keeps ⟨rfl, rfl, rfl, rfl, rfl⟩ hdata.symm hnone
      · split
        · refine .keeps ⟨rfl, rfl, rfl, rfl, rfl⟩ hdata.symm fun bytes h handed => ?_
          obtain ⟨-, rfl⟩ := Prod.mk.inj (Option.some.inj handed)
          rfl
        · exact .keeps ⟨rfl, rfl, rfl, rfl, rfl⟩ hdata.symm hnone

/-- A report changes no ids and leaves the control frames that wait, unless it drops all. -/
theorem sameIds_of_wrote {s : Session} {q : Parcel} {p : Progress} (h : Wrote s q p) :
    s.SameIds p.session ∧ p.session.queuedControls = s.queuedControls := by
  cases h with
  | control => exact ⟨⟨rfl, rfl, rfl, rfl, rfl⟩, rfl⟩
  | stuck => exact ⟨⟨rfl, rfl, rfl, rfl, rfl⟩, rfl⟩
  | @done r payload written x credit =>
    have hcredit : s.SameIds (s.update r fun _ => x) := .update s r (Stream.Later.of_credit credit).id
    dsimp only
    split
    · exact ⟨⟨rfl, (size_update _ _ _).trans hcredit.size,
        (idOf_update _ r rfl).trans hcredit.idOf, rfl, rfl⟩, rfl⟩
    · exact ⟨hcredit, rfl⟩
  | @more r payload written x before after credit left parcels clear =>
    have hcredit : s.SameIds (s.update r fun _ => x) := .update s r (Stream.Later.of_credit credit).id
    refine ⟨⟨rfl, hcredit.size, hcredit.idOf, rfl, rfl⟩, ?_⟩
    rw [queuedControls, queuedControls, parcels]
    show (before ++ .data r payload written :: after).filter _ = _
    rw [List.filter_append, List.filter_append]
    rfl

end Session

section Moment

variable {enc : Encoder} {m m' : Machine} {e : Event}

theorem Moment.sentControl?_of_handed {mo : Moment}
    (h : ∀ bytes x, mo.handed? = some (bytes, x) → x.parcel.isControl = false) : mo.sentControl? = none := by
  unfold sentControl?
  split
  · next handed => cases h _ _ handed
  · rfl

theorem occurs_of_invoke {op : Operation} (tidy : m.session.Tidy) (possible : op.isPossible m.session) :
    Occurs enc ⟨m, .invoke op, (m.invoke enc op).1⟩ := by
  have hhanded := Moment.handed?_of_invoke enc m op
  cases hr : op.isReport with
  | false =>
    have does : Does enc m.session (some op) none (m.session.begin enc m.isAlive op).toProgress :=
      m.session.begin_does enc tidy m.isAlive hr possible
    obtain ⟨new, parcels, deed⟩ := does
    obtain ⟨more, -, hwork⟩ := m.session.begin_work enc m.isAlive hr possible
    obtain ⟨t, ht, heq⟩ := hwork.adds.session
    exact .work deed ⟨t, more, ht, heq⟩ rfl parcels hhanded
  | true =>
    cases op with
    | complete seq =>
      obtain ⟨h, -, rfl, heq⟩ := Session.report_of_possible Session.wrote possible
      have hsession : (m.invoke enc (.complete h.seq)).1.session =
          ((m.session.dropHandler h.seq).wrote h.parcel).session := congrArg Progress.session heq
      obtain ⟨same, controls⟩ := Session.sameIds_of_wrote (wrote_cases (m.session.dropHandler h.seq) h.parcel)
      rw [← hsession] at same controls
      exact .keeps ⟨same.table, same.size, same.idOf, same.nextStreamId, same.config⟩
        (controls ▸ List.Sublist.refl _) (Moment.sentControl?_of_none hhanded)
    | fail seq fault =>
      obtain ⟨h, -, rfl, heq⟩ := Session.report_of_possible (fun s p => s.notWritten p fault) possible
      have hsession : (m.invoke enc (.fail h.seq fault)).1.session =
          ((m.session.dropHandler h.seq).notWritten h.parcel fault).session := congrArg Progress.session heq
      refine .keeps (hsession ▸ ⟨rfl, rfl, rfl, rfl, rfl⟩) ?_ (Moment.sentControl?_of_none hhanded)
      rw [hsession]
      exact List.nil_sublist _
    | _ => cases hr

theorem occurs_of_tick {task : Task} {rest : List Task} {outcome : Outcome} {below : List Activation}
    (tidy : m.session.Tidy) (placed : m.Placed) (stack : m.stack = ⟨task :: rest, outcome⟩ :: below)
    (notCall : task.isCall = false) :
    Occurs enc ⟨m, .tick, ⟨(m.session.perform enc task).session,
      ⟨(m.session.perform enc task).todo ++ rest, outcome⟩ :: below⟩⟩ := by
  have htask : Moment.task? ⟨m, .tick, ⟨(m.session.perform enc task).session,
      ⟨(m.session.perform enc task).todo ++ rest, outcome⟩ :: below⟩⟩ = some task := by
    simp [Moment.task?, stack]
  have hhanded : Moment.handed? ⟨m, .tick, ⟨(m.session.perform enc task).session,
      ⟨(m.session.perform enc task).todo ++ rest, outcome⟩ :: below⟩⟩ = (m.session.perform enc task).handed? :=
    Moment.handed?_of_tick rfl (placed ⟨task :: rest, outcome⟩ (by rw [stack]; exact List.mem_cons_self))
  have hplain : task.isPlain → task ≠ .flush → Occurs enc ⟨m, .tick, ⟨(m.session.perform enc task).session,
      ⟨(m.session.perform enc task).todo ++ rest, outcome⟩ :: below⟩⟩ := by
    intro hp hf
    obtain ⟨new, parcels, deed⟩ := m.session.perform_does enc tidy hp hf notCall
    obtain ⟨more, -, hposts⟩ := m.session.perform_posts enc hp hf notCall
    obtain ⟨t, ht, heq⟩ := hposts.adds.session
    refine .work (htask ▸ deed) ⟨t, more, ht, heq⟩ rfl parcels ?_
    rw [hhanded]
    exact Progress.handed?_eq_none fun x hx => Task.not_write_of_plain (hposts.plain x hx)
  have hquiet : (∀ x ∈ (m.session.perform enc task).todo, x.isWrite = false) →
      Moment.sentControl? ⟨m, .tick, ⟨(m.session.perform enc task).session,
        ⟨(m.session.perform enc task).todo ++ rest, outcome⟩ :: below⟩⟩ = none := fun h =>
    Moment.sentControl?_of_none (hhanded.trans (Progress.handed?_eq_none h))
  cases task with
  | call c => cases notCall
  | flush =>
    cases m.session.drains_of_flush enc with
    | keeps same controls handed =>
      refine .keeps same (controls ▸ List.Sublist.refl _) (Moment.sentControl?_of_handed fun bytes x hx => ?_)
      rw [hhanded] at hx
      exact handed bytes x hx
    | hands same controls handed => exact .hands same controls (by rw [Moment.sentControl?, hhanded]; exact handed ▸ rfl)
  | endWrite seq =>
    refine .keeps ⟨rfl, rfl, rfl, rfl, rfl⟩ ?_ (hquiet ?_)
    · show ((m.session.outbox.endWrite seq).2.parcels.filter _).Sublist _
      rw [Outbox.parcels_endWrite]
      exact .refl _
    · simp only [Session.perform]
      split <;> simp [Task.isWrite]
  | release =>
    refine .keeps ⟨rfl, rfl, rfl, rfl, rfl⟩ ?_ (hquiet ?_)
    · show (m.session.outbox.complete.2.parcels.filter _).Sublist _
      rw [Outbox.parcels_complete]
      exact .refl _
    · simp only [Session.perform]
      split <;> simp [Task.isWrite]
  | _ => exact hplain rfl (by simp)

/-- Where the outside answers or makes a change, ids and what waits stay. -/
theorem occurs_of_calm {m' : Machine} (same : m.session.SameIds m'.session)
    (outbox : m'.session.outbox = m.session.outbox) (handed : Moment.handed? ⟨m, e, m'⟩ = none) :
    Occurs enc ⟨m, e, m'⟩ := by
  refine .keeps same ?_ (Moment.sentControl?_of_none handed)
  show (m'.session.outbox.parcels.filter _).Sublist _
  rw [outbox]
  exact List.Sublist.refl _

theorem sameIds_accept (s : Session) (c : Call) (reply : Option Listener) : s.SameIds (Machine.accept s c reply) := by
  unfold Machine.accept
  split
  · exact .update s _ rfl
  · exact ⟨rfl, rfl, rfl, rfl, rfl⟩

theorem occurs_of_next? (h : m.next? enc e = some m') (tidy : m.session.Tidy) (placed : m.Placed) :
    Occurs enc ⟨m, e, m'⟩ := by
  have hreturned : ∀ {c : Call} {reply : Option Listener} {rest : List Task} {outcome : Outcome}
      {below : List Activation} {e : Event}, m.stack = ⟨.call c :: rest, outcome⟩ :: below →
      Occurs enc ⟨m, e, ⟨Machine.accept m.session c reply, ⟨rest, outcome⟩ :: below⟩⟩ := by
    intro c reply rest outcome below e stack
    refine occurs_of_calm (sameIds_accept _ _ _) (Calm.accept _ _ _).outbox ?_
    refine Moment.handed?_eq_none rfl fun x hx => ?_
    exact placed ⟨.call c :: rest, outcome⟩ (by rw [stack]; exact List.mem_cons_self) x (List.mem_of_mem_head? hx)
  cases Machine.happens_of_next? h with
  | invoke op yields possible => exact occurs_of_invoke tidy possible
  | tick stack notCall => exact occurs_of_tick tidy placed stack notCall
  | answer reply stack => exact hreturned stack
  | caught p stack tell => exact hreturned stack
  | broken p stack notTell =>
    exact occurs_of_calm ⟨rfl, rfl, rfl, rfl, rfl⟩ rfl (Moment.handed?_eq_none rfl nofun)
  | leave stack => exact occurs_of_calm ⟨rfl, rfl, rfl, rfl, rfl⟩ rfl rfl
  | edit e yields => exact occurs_of_calm (by cases e <;> exact ⟨rfl, rfl, rfl, rfl, rfl⟩) (Calm.edit _ e).outbox rfl
  | drop seq yields => exact occurs_of_calm ⟨rfl, rfl, rfl, rfl, rfl⟩ rfl rfl

end Moment

/-! ## Ids after a moment -/

namespace Session

variable (enc : Encoder) (s : Session)

/-- A call that does not open a stream uses up no id. -/
theorem usesId_of_not_syn (alive : Bool) {op : Operation} (hop : ∀ v o l, op ≠ .syn v o l) :
    (s.begin enc alive op).outcome.usesId = false := by
  have hframe : ∀ (t : Session) (f : ControlFrame) {outcome : Outcome}, outcome.usesId = false →
      (t.beginFrame enc f outcome).outcome.usesId = false := by
    intro t f outcome h
    unfold beginFrame
    split
    · rfl
    · exact h
  have hstream : ∀ (r : StreamRef) (body : Body), (s.beginOnStream enc alive r body).outcome.usesId = false := by
    intro r body
    unfold beginOnStream
    dsimp only
    split
    · rfl
    · split
      · rfl
      · split <;> rfl
  have hdata : ∀ (alive : Bool) (r : StreamRef) (payload : Payload),
      (s.beginData alive r payload).outcome.usesId = false := by
    intro alive r payload
    unfold beginData
    dsimp only
    split
    · rfl
    · split <;> rfl
  cases op with
  | syn v o l => exact absurd rfl (hop v o l)
  | settings => exact hframe _ _ rfl
  | ping => exact hframe _ _ rfl
  | goAway version =>
    simp only [begin, beginGoAway]
    cases (s.announceEnd enc version .ok).2 <;> rfl
  | reply => exact hstream _ _
  | headers => exact hstream _ _
  | data => exact hdata _ _ _
  | sessionData => exact hdata _ _ _
  | _ => rfl

/-- An attempt to open a stream is refused beforehand, or uses up the next id whether or not a stream comes of it. -/
theorem beginSyn_counts (version : Version) (opening : Opening) (listener : Option Listener) :
    ((opening.unidirectional || s.goAwaySent) = true ∧
        (s.beginSyn enc version opening listener).outcome.usesId = false ∧
        (s.beginSyn enc version opening listener).session.nextStreamId = s.nextStreamId) ∨
      (opening.unidirectional || s.goAwaySent) = false ∧
        ((∃ r, (s.beginSyn enc version opening listener).outcome = .opened r ∧
            (s.beginSyn enc version opening listener).session.idOf r = s.nextStreamId) ∨
          ∃ cause, (s.beginSyn enc version opening listener).outcome =
            .failed (.streamCreation s.nextStreamId cause)) ∧
        (s.beginSyn enc version opening listener).session.nextStreamId = s.nextStreamId + 2 := by
  unfold beginSyn
  split
  · next huni => exact .inl ⟨by rw [huni]; rfl, rfl, rfl⟩
  · next huni =>
    split
    · next hsent => exact .inl ⟨by rw [hsent, Bool.or_true], rfl, rfl⟩
    · next hsent =>
      have hasked : (opening.unidirectional || s.goAwaySent) = false := by simp [huni, hsent]
      dsimp only
      split
      · exact .inr ⟨hasked, .inr ⟨_, rfl⟩, rfl⟩
      · exact .inr ⟨hasked, .inl ⟨_, rfl, congrArg Stream.id (stream_register_nextRef _ _)⟩, rfl⟩

end Session

section Moment

variable {ok : Encoder → Prop} {enc : Encoder} {m m' : Machine} {e : Event} {mo : Moment}

theorem tidy_of_occurs (h : Occurs enc mo) (tidy : mo.before.session.Tidy) : mo.after.session.Tidy := by
  cases h with
  | work deed steady session =>
    obtain ⟨t, more, ht, heq⟩ := steady
    rw [session, heq]
    exact ⟨(ht.tidy tidy).known, (ht.tidy tidy).nodup⟩
  | keeps same => exact same.tidy tidy
  | hands same => exact same.tidy tidy

theorem idOf_of_occurs (h : Occurs enc mo) {r : StreamRef} (hr : r.serial < mo.before.session.streams.size) :
    r.serial < mo.after.session.streams.size ∧ mo.after.session.idOf r = mo.before.session.idOf r := by
  cases h with
  | work deed steady session =>
    obtain ⟨t, more, ht, heq⟩ := steady
    rw [session, heq]
    exact ⟨Nat.lt_of_lt_of_le hr ht.size, (ht.later r hr).id⟩
  | keeps same => exact ⟨same.size ▸ hr, congrFun same.idOf r⟩
  | hands same => exact ⟨same.size ▸ hr, congrFun same.idOf r⟩

theorem config_of_occurs (h : Occurs enc mo) : mo.after.session.config = mo.before.session.config := by
  cases h with
  | work deed steady session => exact config_of_deed deed session
  | keeps same => exact same.config
  | hands same => exact same.config

theorem comes_of_occurs (h : Occurs enc mo) : Comes mo := by
  cases h with
  | work deed steady session => exact comes_of_deed deed session
  | keeps same => exact .none same.size
  | hands same => exact .none same.size

theorem counts_of_next? (h : m.next? enc e = some m') (occurs : Occurs enc ⟨m, e, m'⟩) : Counts ⟨m, e, m'⟩ := by
  by_cases hsyn : ∃ v o l, e = .invoke (.syn v o l)
  · obtain ⟨version, opening, listener, rfl⟩ := hsyn
    cases Machine.happens_of_next? h with
    | invoke op yields possible =>
      rcases m.session.beginSyn_counts enc version opening listener with
        ⟨hasked, hused, hnext⟩ | ⟨hasked, ⟨r, hr, hid⟩ | ⟨cause, hc⟩, hnext⟩
      · exact .none (Moment.usedId?_eq_none fun o ho => Option.some.inj ho ▸ hused) (if_pos hasked) hnext
      · refine .next ?_ (if_neg (by rw [hasked]; exact Bool.false_ne_true)) hnext
        simp only [Moment.usedId?, Moment.outcome?, Session.begin, hr, List.head?_cons, Option.map_some, hid]
      · refine .next ?_ (if_neg (by rw [hasked]; exact Bool.false_ne_true)) hnext
        simp only [Moment.usedId?, Moment.outcome?, Session.begin, hc, List.head?_cons, Option.map_some]
  · have hused : Moment.usedId? ⟨m, e, m'⟩ = none := by
      cases Machine.happens_of_next? h with
      | invoke op yields possible =>
        have hop : ∀ v o l, op ≠ .syn v o l := fun v o l heq => hsyn ⟨v, o, l, by rw [heq]⟩
        exact Moment.usedId?_eq_none fun o ho => Option.some.inj ho ▸ m.session.usesId_of_not_syn enc m.isAlive hop
      | _ => rfl
    have hallots : Moment.allots? ⟨m, e, m'⟩ = none := by
      unfold Moment.allots?
      split
      · next v o l hop =>
        cases e with
        | invoke op => exact absurd ⟨v, o, l, congrArg Event.invoke (Option.some.inj hop)⟩ hsyn
        | _ => cases hop
      · rfl
    refine .none hused hallots ?_
    cases occurs with
    | work deed steady session =>
      rcases nextStreamId_of_deed deed session with hnext | ⟨hnext, -⟩
      · exact hnext
      · cases hallots.symm.trans hnext
    | keeps same => exact same.nextStreamId
    | hands same => exact same.nextStreamId

theorem toNat_next (n : UInt32) : (n + 2).toNat = (n.toNat + 2) % 2 ^ 32 := UInt32.toNat_add n 2

theorem next_ne (n : UInt32) : n + 2 ≠ n := by
  intro h
  have hnat := congrArg UInt32.toNat h
  have hlt := n.toNat_lt
  rw [toNat_next] at hnat
  omega

/-- Of the frames that open streams one may leave, all may be dropped, or the frame of a new stream comes. -/
theorem openings_of_occurs (may : ok enc) (h : Occurs enc mo) (counts : Counts mo) :
    (mo.sentControl?.toList.filter (·.isOpening) ++ mo.after.session.openings).Sublist mo.before.session.openings ∨
      ∃ q bytes r, mo.sentControl? = none ∧ mo.after.session.openings = mo.before.session.openings ++ [q] ∧
        OpeningOf ok mo.after.session q bytes r ∧ mo.usedId? = some (mo.after.session.idOf r) := by
  cases h with
  | @work p new deed steady session parcels handed =>
    have hsent := Moment.sentControl?_of_none handed
    have hopenings : mo.after.session.openings =
        mo.before.session.openings ++ (new.filter (·.isControl)).filter (·.isOpening) := by
      rw [Session.openings, Session.queuedControls, parcels, List.filter_append, List.filter_append]
      rfl
    have hkept : (∀ q ∈ new, q.isOpening = false) →
        (mo.sentControl?.toList.filter (·.isOpening) ++ mo.after.session.openings).Sublist
          mo.before.session.openings := by
      intro hnew
      have hnone : (new.filter (·.isControl)).filter (·.isOpening) = [] :=
        List.filter_eq_nil_iff.2 fun q hq => by simp [hnew q (List.mem_filter.1 hq).1]
      rw [hsent, hopenings, hnone, List.append_nil]
      exact .refl _
    cases deed with
    | same same announces =>
      refine .inl (hkept fun q hq => ?_)
      obtain ⟨f, bytes, rfl, -, hid⟩ := announces q hq
      obtain ⟨version, body⟩ := f
      cases body with
      | synStream => cases hid
      | _ => rfl
    | data => exact .inl (hkept (by simp [Parcel.isOpening]))
    | @said r f bytes known isHead notOpening =>
      refine .inl (hkept ?_)
      have hne : ∀ t : FrameType, t ≠ .synStream → (Parcel.control t bytes (some r)).isOpening = false := by
        intro t ht
        cases t with
        | synStream => exact absurd rfl ht
        | _ => rfl
      simpa using hne f.type notOpening
    | @opened version opening listener bytes x asks bidirectional sent encoded hasId localClosed remoteClosed reset same =>
      have hnext : mo.after.session.nextStreamId = mo.before.session.nextStreamId + 2 := session ▸ same.nextStreamId
      have hid : mo.after.session.idOf mo.before.session.nextRef = mo.before.session.nextStreamId := by
        rw [session, same.idOf]
        exact (congrArg Stream.id (Session.stream_register_nextRef _ x)).trans hasId
      have hused : mo.usedId? = some mo.before.session.nextStreamId := by
        cases counts with
        | none used allots next => exact absurd (hnext.symm.trans next) (next_ne _)
        | next used allots next => exact used
      refine .inr ⟨_, bytes, mo.before.session.nextRef, hsent, hopenings, ⟨rfl, ?_, ?_⟩, hused.trans (by rw [hid])⟩
      · rw [session, same.size, Session.size_register]
        exact Nat.lt_succ_self _
      · exact ⟨enc, version, opening.flags, opening.associatedId, opening.priority, opening.headers, may,
          by rw [hid]; exact encoded⟩
    | unopened => exact .inl (hkept fun q hq => absurd hq List.not_mem_nil)
    | born => exact .inl (hkept fun q hq => absurd hq List.not_mem_nil)
    | heard => exact .inl (hkept fun q hq => absurd hq List.not_mem_nil)
    | quit => exact .inl (hkept (by simp [Parcel.isOpening]))
    | muffled => exact .inl (hkept fun q hq => absurd hq List.not_mem_nil)
    | lost => exact .inl (hkept fun q hq => absurd hq List.not_mem_nil)
    | reclaimed => exact .inl (hkept fun q hq => absurd hq List.not_mem_nil)
  | keeps same controls handed =>
    rw [handed]
    exact .inl (controls.filter _)
  | @hands q same controls handed =>
    refine .inl ?_
    rw [handed, Session.openings, Session.openings, controls]
    show ([q].filter _ ++ _).Sublist ([q] ++ mo.after.session.queuedControls |>.filter _)
    rw [List.filter_append]

end Moment

/-! ## Over a run -/

/-- What the ids of streams are: those that are used up count on from the first one, the streams of this side have ids
among them, and so do the frames that open streams, in the same order. -/
structure Tally (ok : Encoder → Prop) (c : Config) (past : List Moment) (m : Machine) : Prop where
  config : m.session.config = c
  next : m.session.nextStreamId.toNat = (c.initialStreamId.toNat + 2 * (usedIds past).length) % 2 ^ 32
  used : ∀ k id, (usedIds past)[k]? = some id → id.toNat = (c.initialStreamId.toNat + 2 * k) % 2 ^ 32
  own : ∀ r, r.serial < m.session.streams.size → c.isLocal (m.session.idOf r) → m.session.idOf r ∈ usedIds past
  frames : ∀ q ∈ sentOpenings past ++ m.session.openings, ∃ bytes r, OpeningOf ok m.session q bytes r
  order : (m.session.idsOf (sentOpenings past ++ m.session.openings)).Sublist (usedIds past)

section Tally

variable {ok : Encoder → Prop} {enc : Encoder} {config : Config} {past : List Moment} {m m' : Machine} {e : Event}

theorem OpeningOf.later {s t : Session} {q : Parcel} {bytes : Bytes} {r : StreamRef} (h : OpeningOf ok s q bytes r)
    (later : ∀ r, r.serial < s.streams.size → r.serial < t.streams.size ∧ t.idOf r = s.idOf r) :
    OpeningOf ok t q bytes r := by
  obtain ⟨hknown, hid⟩ := later r h.known
  exact ⟨h.parcel, hknown, hid ▸ h.encoded⟩

theorem idsOf_later {s t : Session} {frames : List Parcel}
    (hframes : ∀ q ∈ frames, ∃ bytes r, OpeningOf ok s q bytes r)
    (later : ∀ r, r.serial < s.streams.size → r.serial < t.streams.size ∧ t.idOf r = s.idOf r) :
    t.idsOf frames = s.idsOf frames := by
  refine List.filterMap_congr fun q hq => ?_
  obtain ⟨bytes, r, h⟩ := hframes q hq
  rw [h.parcel]
  exact congrArg some (later r h.known).2

/-- What the ids that are used up are after one more moment. -/
theorem Tally.used_step (h : Tally ok config past m) (counts : Counts ⟨m, e, m'⟩) :
    m'.session.nextStreamId.toNat =
        (config.initialStreamId.toNat + 2 * (usedIds (past ++ [⟨m, e, m'⟩])).length) % 2 ^ 32 ∧
      ∀ k id, (usedIds (past ++ [⟨m, e, m'⟩]))[k]? = some id →
        id.toNat = (config.initialStreamId.toNat + 2 * k) % 2 ^ 32 := by
  rw [usedIds_append]
  cases counts with
  | none used allots next =>
    rw [used, show m'.session.nextStreamId = _ from next, Option.toList_none, List.append_nil]
    exact ⟨h.next, h.used⟩
  | next used allots next =>
    rw [used, show m'.session.nextStreamId = _ from next, toNat_next, h.next, Option.toList_some, List.length_append,
      List.length_singleton]
    refine ⟨by omega, fun k id hk => ?_⟩
    rcases Nat.lt_trichotomy k (usedIds past).length with hlt | rfl | hgt
    · exact h.used k id (by rwa [List.getElem?_append_left hlt] at hk)
    · rw [List.getElem?_concat_length] at hk
      rw [← Option.some.inj hk, h.next]
    · rw [List.getElem?_eq_none (by simp; omega)] at hk
      cases hk

theorem Tally.own_step (h : Tally ok config past m) (occurs : Occurs enc ⟨m, e, m'⟩) (counts : Counts ⟨m, e, m'⟩)
    {r : StreamRef} (hr : r.serial < m'.session.streams.size) (hlocal : config.isLocal (m'.session.idOf r)) :
    m'.session.idOf r ∈ usedIds (past ++ [⟨m, e, m'⟩]) := by
  rw [usedIds_append]
  by_cases hold : r.serial < m.session.streams.size
  · have hid := (idOf_of_occurs occurs hold).2
    rw [hid] at hlocal ⊢
    exact List.mem_append_left _ (h.own r hold hlocal)
  · have hlast : m'.session.streams.size = m.session.streams.size + 1 → r = m.session.nextRef := fun hsize =>
      congrArg StreamRef.mk (show r.serial = m.session.streams.size by omega)
    cases comes_of_occurs occurs with
    | none size => exact absurd (size ▸ hr) hold
    | own size hasId allots next =>
      rw [hlast size, show m'.session.idOf m.session.nextRef = _ from hasId]
      refine List.mem_append_right _ ?_
      cases counts with
      | none used allots same => exact absurd (next.symm.trans same) (next_ne _)
      | next used allots next =>
        rw [used]
        exact List.mem_singleton_self _
    | others size hasId taken opening valid remote =>
      rw [hlast size, show m'.session.idOf m.session.nextRef = _ from hasId, ← h.config, remote] at hlocal
      cases hlocal

theorem Tally.step (h : Tally ok config past m) (may : ok enc) (hnext : m.next? enc e = some m')
    (occurs : Occurs enc ⟨m, e, m'⟩) : Tally ok config (past ++ [⟨m, e, m'⟩]) m' := by
  have counts := counts_of_next? hnext occurs
  have later : ∀ r : StreamRef, r.serial < m.session.streams.size →
      r.serial < m'.session.streams.size ∧ m'.session.idOf r = m.session.idOf r := fun r hr => idOf_of_occurs occurs hr
  obtain ⟨next, used⟩ := h.used_step counts
  suffices hframes : (∀ q ∈ sentOpenings (past ++ [⟨m, e, m'⟩]) ++ m'.session.openings,
      ∃ bytes r, OpeningOf ok m'.session q bytes r) ∧
      (m'.session.idsOf (sentOpenings (past ++ [⟨m, e, m'⟩]) ++ m'.session.openings)).Sublist
        (usedIds (past ++ [⟨m, e, m'⟩])) from
    ⟨(config_of_occurs occurs).trans h.config, next, used, fun r hr hlocal => h.own_step occurs counts hr hlocal,
      hframes.1, hframes.2⟩
  have hkept : (m'.session.idsOf (sentOpenings past ++ m.session.openings)).Sublist (usedIds past) :=
    idsOf_later h.frames later ▸ h.order
  rw [sentOpenings_append, List.append_assoc, usedIds_append]
  rcases openings_of_occurs may occurs counts with hsub | ⟨q, bytes, r, hsent, hopenings, opening, hused⟩
  · -- the frames that are left over are some of those that there were
    have hsub := hsub.append_left (sentOpenings past)
    refine ⟨fun q hq => ?_, ((hsub.filterMap _).trans hkept).trans (List.sublist_append_left _ _)⟩
    obtain ⟨bytes, r, hr⟩ := h.frames q (hsub.subset hq)
    exact ⟨bytes, r, hr.later later⟩
  · rw [hsent, hopenings, hused, Option.toList_none, List.filter_nil, List.nil_append, ← List.append_assoc]
    refine ⟨fun x hx => ?_, ?_⟩
    · rcases List.mem_append.1 hx with hx | hx
      · obtain ⟨bytes, r, hr⟩ := h.frames x hx
        exact ⟨bytes, r, hr.later later⟩
      · exact ⟨bytes, r, List.mem_singleton.1 hx ▸ opening⟩
    · have hlast : m'.session.idsOf [q] = [m'.session.idOf r] := by
        rw [Session.idsOf, opening.parcel]
        rfl
      rw [Session.idsOf, List.filterMap_append, ← Session.idsOf, ← Session.idsOf, hlast]
      exact hkept.append (.refl _)

end Tally

section Course

variable {ok : Encoder → Prop} {config : Config} {primary : Option Listener} {s : Session} {past : List Moment}
  {m : Machine}

theorem tally_new (ok : Encoder → Prop) (hnew : Session.new config primary = .ok s) :
    Tally ok config [] { session := s } := by
  obtain ⟨-, rfl⟩ := Session.new_eq_ok hnew
  refine ⟨rfl, ?_, nofun, fun r hr => absurd hr (Nat.not_lt_zero _), nofun, .slnil⟩
  exact (Nat.mod_eq_of_lt (UInt32.toNat_lt _)).symm

theorem tally_of_course (hnew : Session.new config primary = .ok s) (course : Course ok { session := s } past m) :
    Tally ok config past m ∧ m.session.Tidy := by
  induction course with
  | start =>
    refine ⟨tally_new ok hnew, ?_⟩
    obtain ⟨-, rfl⟩ := Session.new_eq_ok hnew
    exact ⟨nofun, .nil⟩
  | next course may h ih =>
    have occurs := occurs_of_next? h ih.2 (placed_of_course course)
    exact ⟨ih.1.step may h occurs, tidy_of_occurs occurs ih.2⟩

theorem usedIds_eq_allotted (hnew : Session.new config primary = .ok s)
    (course : Course ok { session := s } past m) : usedIds past = allotted past := by
  induction course with
  | start => rfl
  | next course may h ih =>
    have counts := counts_of_next? h (occurs_of_next? h (tally_of_course hnew course).2 (placed_of_course course))
    rw [usedIds_append, allotted_append, ih]
    cases counts with
    | none used allots => rw [used, allots]
    | next used allots => rw [used, allots]

end Course

/-! ## Ids that do not run out -/

section Few

variable {ok : Encoder → Prop} {config : Config} {past : List Moment} {m : Machine}

/-- As long as ids do not run out, the one used up as the k-th one is the first one and twice k more. -/
theorem Tally.toNat_used (h : Tally ok config past m) (hconfig : config.fault? = none)
    (few : (usedIds past).length < 2 ^ 30 - 1) {k : Nat} {id : UInt32} (hk : (usedIds past)[k]? = some id) :
    id.toNat = config.initialStreamId.toNat + 2 * k := by
  have hfirst := Config.initialStreamId_of_new hconfig
  have hlt := (List.getElem?_eq_some_iff.1 hk).1
  rw [h.used k id hk, Nat.mod_eq_of_lt (by omega)]

theorem Tally.increasing (h : Tally ok config past m) (hconfig : config.fault? = none)
    (few : (usedIds past).length < 2 ^ 30 - 1) : (usedIds past).Pairwise (· < ·) := by
  refine List.pairwise_iff_getElem.2 fun i j hi hj hij => UInt32.lt_iff_toNat_lt.2 ?_
  rw [h.toNat_used hconfig few (List.getElem?_eq_getElem hi), h.toNat_used hconfig few (List.getElem?_eq_getElem hj)]
  omega

/-- An id that is used up is one of this side, is not 0, and has 31 bits. -/
theorem Tally.valid (h : Tally ok config past m) (hconfig : config.fault? = none)
    (few : (usedIds past).length < 2 ^ 30 - 1) {id : UInt32} (hid : id ∈ usedIds past) :
    config.isLocal id ∧ id ≠ 0 ∧ low31 id = id := by
  obtain ⟨k, hk⟩ := List.mem_iff_getElem?.1 hid
  have hfirst := Config.initialStreamId_of_new hconfig
  have hnat := h.toNat_used hconfig few hk
  have hlt := (List.getElem?_eq_some_iff.1 hk).1
  refine ⟨(Config.isLocal_iff _ _).2 (by omega), fun h0 => ?_, low31_of_lt (by omega)⟩
  rw [h0] at hnat
  have : (0 : UInt32).toNat = 0 := rfl
  omega

theorem Tally.unused (h : Tally ok config past m) {id : UInt32} (increasing : (usedIds past ++ [id]).Pairwise (· < ·))
    (hlocal : config.isLocal id) {r : StreamRef} (hr : r.serial < m.session.streams.size) : m.session.idOf r ≠ id := by
  rintro rfl
  have hlt := (List.pairwise_append.1 increasing).2.2 _ (h.own r hr hlocal) _ (List.mem_singleton_self _)
  exact absurd hlt (UInt32.lt_irrefl _)

end Few

theorem toNat_id_of_encode {version : Version} {flags : UInt8} {id associatedId : UInt32} {priority : UInt8}
    {headers : Headers} {bytes : Bytes}
    (h : ControlFrame.encode ⟨version, .synStream flags id associatedId priority headers⟩ = .ok bytes)
    (hid : low31 id = id) : Bytes.toNat ((bytes.drop headerLength).take 4) = id.toNat := by
  have hbytes := (ControlFrame.accepted_of_encode h).bytes
  have hlayout : ∀ rest, (layoutId id ++ rest).take 4 = layoutId id := fun rest => by
    rw [← length_layoutId id, List.take_left]
  rw [hbytes, List.drop_left' (by simp [ControlFrame.header, headerLength]), Body.layout, List.append_assoc,
    List.append_assoc, hlayout, layoutId, toNat_ofNat_of_lt (low31 id).toNat_lt, hid]

/-- Each attempt to open a stream that is not refused beforehand uses up an id, of which the application is told whether
or not the encoder has a frame for the stream: at first the first one of the configuration, and each time two more,
modulo 2 ^ 32. As long as there are less than 2 ^ 30 - 1 of them, those of the streams that the application gets are
among them, all increase, are ids of this side, are not 0, and keep all their bits on the wire; before an id is used up
no stream has it, whatever the peer opened; and the frames that open streams are handed over in the order of their ids.
-/
theorem ids_count_up {ok : Encoder → Prop} {config : Config} {primary : Option Listener} {s : Session}
    {past : List Moment} {m : Machine} (hnew : Session.new config primary = .ok s)
    (course : Course ok { session := s } past m) :
    usedIds past = allotted past ∧
      (∀ k id, (usedIds past)[k]? = some id → id.toNat = (config.initialStreamId.toNat + 2 * k) % 2 ^ 32) ∧
      ((usedIds past).length < 2 ^ 30 - 1 →
        (usedIds past).Pairwise (· < ·) ∧ (openedIds past).Pairwise (· < ·) ∧
          (∀ id ∈ usedIds past, config.isLocal id ∧ id ≠ 0 ∧ low31 id = id) ∧
          (∀ id ∈ openedIds past, id ∈ usedIds past) ∧
          (∀ mo ∈ past, ∀ id, mo.usedId? = some id →
            ∀ r, r.serial < mo.before.session.streams.size → mo.before.session.idOf r ≠ id) ∧
          (m.session.idsOf (sentOpenings past)).Pairwise (· < ·) ∧
          ∀ q ∈ sentOpenings past, ∃ bytes r, OpeningOf ok m.session q bytes r ∧
            ((∀ enc, ok enc → enc.control = ControlFrame.encode) →
              Bytes.toNat ((bytes.drop headerLength).take 4) = (m.session.idOf r).toNat)) := by
  obtain ⟨hconfig, -⟩ := Session.new_eq_ok hnew
  obtain ⟨tally, -⟩ := tally_of_course hnew course
  refine ⟨usedIds_eq_allotted hnew course, tally.used, fun few => ?_⟩
  have increasing := tally.increasing hconfig few
  have hsent : (m.session.idsOf (sentOpenings past)).Sublist (usedIds past) :=
    ((List.sublist_append_left _ _).filterMap _).trans tally.order
  refine ⟨increasing, increasing.sublist (openedIds_sublist past), fun id hid => tally.valid hconfig few hid,
    fun id hid => (openedIds_sublist past).subset hid, ?_, increasing.sublist hsent, ?_⟩
  · intro mo hmo id hused r hr
    obtain ⟨pre, post, rfl⟩ := List.append_of_mem hmo
    have hpre := (tally_of_course hnew course.of_append.1).1
    have hsplit : usedIds (pre ++ mo :: post) = usedIds pre ++ [id] ++ usedIds post := by
      rw [List.append_cons, usedIds, List.filterMap_append, ← usedIds, usedIds_append, hused]
      rfl
    rw [hsplit] at increasing
    refine hpre.unused (List.pairwise_append.1 increasing).1 ?_ hr
    exact (tally.valid hconfig few (by rw [hsplit]; simp)).1
  · intro q hq
    obtain ⟨bytes, r, opening⟩ := tally.frames q (List.mem_append_left _ hq)
    refine ⟨bytes, r, opening, fun hstandard => ?_⟩
    obtain ⟨enc, version, flags, associatedId, priority, headers, may, encoded⟩ := opening.encoded
    rw [hstandard enc may] at encoded
    have hmem : m.session.idOf r ∈ m.session.idsOf (sentOpenings past) :=
      List.mem_filterMap.2 ⟨q, hq, by rw [opening.parcel]; rfl⟩
    exact toNat_id_of_encode encoded (tally.valid hconfig few (hsent.subset hmem)).2.2

/-- An encoder that has no frame for anything but data. -/
def Encoder.mute (cap : Nat) (cause : Refusal) : Encoder := { Encoder.standard cap with control := fun _ => .error cause }

/-- Of three attempts the second fails. The peer opens a stream, and tries to open one with an id of this side. -/
theorem ids_count_up_by_two : ∃ s past m, Session.new .client none = .ok s ∧
    Course (fun enc => enc = .standard 16384 ∨ enc = .mute 16384 (.declined "no frame")) { session := s } past m ∧
      usedIds past = [1, 3, 5] ∧ openedIds past = [1, 5] ∧ m.session.table.map m.session.idOf = [1, 2, 5] ∧
      m.session.idsOf (sentOpenings past) = [1, 5] ∧ (usedIds past).length < 2 ^ 30 - 1 ∧
      (∀ k id, (usedIds past)[k]? = some id → id.toNat = (1 + 2 * k) % 2 ^ 32) ∧
      (openedIds past).Pairwise (· < ·) ∧ (m.session.idsOf (sentOpenings past)).Pairwise (· < ·) ∧
      ∀ mo ∈ past, ∀ id, mo.usedId? = some id →
        ∀ r, r.serial < mo.before.session.streams.size → mo.before.session.idOf r ≠ id := by
  have hnew : Session.new .client none = .ok (.fresh .client none) := rfl
  have hpre := Machine.run_of_replay? (.standard 16384) { session := .fresh .client none }
    [.invoke (.syn .v3 (.plain default false) none), .tick, .tick, .answer none, .tick, .leave,
      .invoke (.receive (.control ⟨.v3, .synStream 0 2 0 0 default⟩)), .tick, .tick, .tick, .tick, .leave,
      .invoke (.receive (.control ⟨.v3, .synStream 0 3 0 0 default⟩)), .tick, .leave] rfl
  have hfirst : Course (fun enc => enc = .standard 16384 ∨ enc = .mute 16384 (.declined "no frame")) _ _ _ :=
    hpre.course (.inl rfl)
  have hsecond := hfirst.extend (.inr rfl) (Machine.run_of_replay? (.mute 16384 (.declined "no frame")) _
    [.invoke (.syn .v3 (.plain default false) none), .leave] rfl)
  have hcourse := hsecond.extend (.inl rfl) (Machine.run_of_replay? (.standard 16384) _
    [.invoke (.syn .v3 (.plain default false) none), .tick, .tick, .leave,
      .invoke (.complete 1), .tick, .tick, .tick, .answer none, .tick, .leave,
      .invoke (.complete 2), .tick, .tick, .answer none, .tick, .leave] rfl)
  obtain ⟨-, hcount, hfew⟩ := ids_count_up hnew hcourse
  obtain ⟨-, hopened, -, -, hunused, hsent, -⟩ := hfew (by decide)
  exact ⟨_, _, _, hnew, hcourse, rfl, rfl, rfl, rfl, by decide, hcount, hopened, hsent, hunused⟩

end Spdy
