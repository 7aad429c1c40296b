import Spdy.Proofs.Course
import Spdy.Proofs.Response
import Spdy.Proofs.Wakeful

/-!
# Data that is refused

An encoder may have no frame for data that has its turn. Then the data is lost, and its stream is to be given up: the
peer is told, the stream is gone for good, and all others go on as before. But a session that announced its end gives
nothing up any more: there the stream stays as it is, and nobody flushes what waits behind its data.

* `Encoder.Reluctant` : an encoder that writes like the standard one, if it does not refuse data;
* `Moment.Declines`, `Declined` : data is refused, and what this comes to;
* `Machine.Coherent`, `coherent_of_course` : what holds whatever is refused;
* `Moment.Resets`, `resets_of_next?` : a stream is given up, and no other one is;
* `Machine.Recovering`, `wakeful_of_course` : someone is going to flush as long as something can be sent;
* `refusal_hurts_one_stream`, `refusal_after_goAway` : all this in a run, and what becomes of it after the end was
  announced.
-/

namespace Spdy

/-! ## Encoders that refuse data -/

/-- An encoder that writes like the standard one, but may refuse data. -/
structure Encoder.Reluctant (cap : Nat) (enc : Encoder) : Prop where
  control : enc.control = ControlFrame.encode
  data : ∀ id window p, enc.data id window p = (Encoder.standard cap).data id window p ∨
    ∃ cause, enc.data id window p = .error cause

def Encoder.refusing (cap : Nat) (cause : Refusal) : Encoder :=
  { Encoder.standard cap with data := fun _ _ _ => .error cause }

theorem Encoder.reluctant_standard (cap : Nat) : (Encoder.standard cap).Reluctant cap := ⟨rfl, fun _ _ _ => .inl rfl⟩

theorem Encoder.reluctant_refusing (cap : Nat) (cause : Refusal) : (Encoder.refusing cap cause).Reluctant cap :=
  ⟨rfl, fun _ _ _ => .inr ⟨cause, rfl⟩⟩

/-- Data of a stream that was not given up has its turn, and the encoder has no frame for it. -/
structure Machine.Refused (m : Machine) (enc : Encoder) (r : StreamRef) (payload : Payload) (written : Nat) : Prop where
  flushes : ∃ rest outcome below, m.stack = ⟨.flush :: rest, outcome⟩ :: below
  takes : ∃ s, m.session.take? = some (.data r payload written, s)
  alive : (m.session.stream r).reset = false
  refused : ∃ cause, enc.data (m.session.idOf r) (m.session.stream r).window payload = .error cause

def Moment.Declines (mo : Moment) (r : StreamRef) (payload : Payload) (written : Nat) : Prop :=
  ∃ enc, mo.before.Refused enc r payload written ∧ mo.before.next? enc mo.event = some mo.after

/-- What becomes of a machine when data is refused: the data is lost, and its stream is to be given up next. -/
inductive Declined (m : Machine) (r : StreamRef) (payload : Payload) (written : Nat) (m' : Machine) : Prop
  | intro {front back : List Parcel} {rest : List Task} {outcome : Outcome} {below : List Activation}
      (stack : m.stack = ⟨.flush :: rest, outcome⟩ :: below)
      (parcels : m.session.outbox.parcels = front ++ .data r payload written :: back)
      (session : m'.session = m.session.holding (front ++ back))
      (stack' : m'.stack =
        ⟨.reset (m.session.stream r).version (m.session.idOf r) .internalError :: rest, outcome⟩ :: below)

section Steps

variable {cap : Nat} {enc : Encoder} {m m' : Machine} {e : Event} {r : StreamRef} {payload : Payload} {written : Nat}

/-- Data that is refused is lost, and its stream is to be given up next. -/
theorem Machine.Refused.next? (h : m.Refused enc r payload written) (hnext : m.next? enc e = some m') :
    e = .tick ∧ Declined m r payload written m' := by
  obtain ⟨⟨rest, outcome, below, hstack⟩, ⟨s, htake⟩, alive, cause, hrefused⟩ := h
  obtain ⟨⟨q, o⟩, hout, heq⟩ := Option.map_eq_some_iff.1 htake
  obtain ⟨rfl, rfl⟩ := Prod.mk.inj heq
  obtain ⟨free, front, back, parcels, -, -, rfl⟩ := Outbox.take?_eq_some hout
  have hflush : m.session.flush enc =
      { session := m.session.holding (front ++ back)
        todo := [.reset (m.session.stream r).version (m.session.idOf r) .internalError]
        notes := [.dataRefused (m.session.stream r) cause] } := by
    rw [Session.holding_of_free free]
    rw [Session.idOf] at hrefused
    simp only [Session.flush, htake, Session.stream_outbox, alive, Bool.false_eq_true, if_false, hrefused]
    rfl
  obtain ⟨rfl, rfl⟩ := Machine.tick_of_stack hstack rfl hnext
  rw [Session.perform, hflush]
  exact ⟨rfl, .intro hstack parcels rfl rfl⟩

theorem Moment.Declines.declined {mo : Moment} (h : mo.Declines r payload written) :
    mo.event = .tick ∧ Declined mo.before r payload written mo.after := by
  obtain ⟨enc, refused, hnext⟩ := h
  exact refused.next? hnext

theorem Session.begin_of_control {enc' : Encoder} (h : enc.control = enc'.control) (s : Session) (alive : Bool)
    (op : Operation) : s.begin enc alive op = s.begin enc' alive op := by
  obtain ⟨control, data⟩ := enc
  obtain ⟨control', data'⟩ := enc'
  obtain rfl : control = control' := h
  cases op <;> rfl

theorem Session.perform_of_control {enc' : Encoder} (h : enc.control = enc'.control) (s : Session) {task : Task}
    (hflush : task ≠ .flush) : s.perform enc task = s.perform enc' task := by
  obtain ⟨control, data⟩ := enc
  obtain ⟨control', data'⟩ := enc'
  obtain rfl : control = control' := h
  cases task with
  | flush => exact absurd rfl hflush
  | tell listeners notice => cases listeners <;> rfl
  | _ => rfl

/-- A reluctant encoder does as the standard one does, unless it refuses data. -/
theorem Encoder.Reluctant.flush (h : enc.Reluctant cap) (s : Session) :
    s.flush enc = s.flush (.standard cap) ∨
      ∃ r payload written s', s.take? = some (.data r payload written, s') ∧ (s.stream r).reset = false ∧
        ∃ cause, enc.data (s.idOf r) (s.stream r).window payload = .error cause := by
  cases htake : s.take? with
  | none => exact .inl (by simp only [Session.flush, htake])
  | some taken =>
    obtain ⟨q, t⟩ := taken
    have hstream : t.streams = s.streams := by
      obtain ⟨⟨q', o⟩, -, heq⟩ := Option.map_eq_some_iff.1 htake
      obtain ⟨rfl, rfl⟩ := Prod.mk.inj heq
      rfl
    have hsame : t.stream = s.stream := by
      funext r
      rw [Session.stream, hstream, ← Session.stream]
    cases q with
    | control => exact .inl (by simp only [Session.flush, htake])
    | data r payload written =>
      cases hreset : (s.stream r).reset with
      | true => exact .inl (by simp only [Session.flush, htake, hsame, hreset, if_true])
      | false =>
        rcases h.data (s.idOf r) (s.stream r).window payload with hdata | hrefused
        · refine .inl ?_
          rw [Session.idOf] at hdata
          simp only [Session.flush, htake, hsame, hdata]
        · exact .inr ⟨r, payload, written, t, rfl, hreset, hrefused⟩

theorem Encoder.Reluctant.next? (henc : enc.Reluctant cap) (h : m.next? enc e = some m') :
    m.next? (.standard cap) e = some m' ∨ ∃ r payload written, m.Refused enc r payload written := by
  have hcontrol : enc.control = (Encoder.standard cap).control := henc.control
  cases e with
  | invoke op =>
    refine .inl (h ▸ ?_)
    simp only [Machine.next?, Machine.invoke, Session.begin_of_control hcontrol]
  | tick =>
    cases Machine.happens_of_next? h with
    | @tick task rest outcome below stack notCall =>
      have hperform : m.session.perform enc task = m.session.perform (.standard cap) task →
          m.next? (.standard cap) .tick = m.next? enc .tick := by
        intro heq
        cases task with
        | call c => cases notCall
        | _ => simp only [Machine.next?, Machine.tick, stack, heq]
      by_cases htask : task = .flush
      · subst htask
        rcases henc.flush m.session with hflush | ⟨r, payload, written, s, htake, alive, hrefused⟩
        · exact .inl ((hperform hflush).trans h)
        · exact .inr ⟨r, payload, written, ⟨rest, outcome, below, stack⟩, ⟨s, htake⟩, alive, hrefused⟩
      · exact .inl ((hperform (m.session.perform_of_control hcontrol htask)).trans h)
  | answer reply => exact .inl h
  | panic p => exact .inl h
  | leave => exact .inl h
  | edit e => exact .inl h
  | drop seq => exact .inl h

end Steps

/-! ## What holds whatever is refused -/

/-- What holds of a machine whatever its encoder refuses. -/
structure Machine.Coherent (m : Machine) : Prop where
  placed : m.Placed
  known : m.session.Known
  tidy : m.session.Tidy
  owed : m.owed ≤ m.session.outbox.busy.toNat

section Steps

variable {cap : Nat} {enc : Encoder} {m m' : Machine} {e : Event} {r : StreamRef} {payload : Payload} {written : Nat}

theorem Declined.tasks (h : Declined m r payload written m') :
    ∃ common, m.tasks = .flush :: common ∧
      m'.tasks = .reset (m.session.stream r).version (m.session.idOf r) .internalError :: common := by
  cases h with
  | intro stack parcels session stack' =>
    exact ⟨_, Machine.tasks_of_stack stack, Machine.tasks_of_stack stack'⟩

theorem Declined.busy (h : Declined m r payload written m') :
    m'.session.outbox.busy = m.session.outbox.busy := by
  cases h with
  | intro stack parcels session => rw [session]; rfl

theorem Declined.owed (h : Declined m r payload written m') : m'.owed = m.owed := by
  obtain ⟨common, hbefore, hafter⟩ := h.tasks
  have hout : m'.session.outstanding = m.session.outstanding := by
    cases h with
    | intro stack parcels session => rw [session]; rfl
  rw [Machine.owed, Machine.owed, hout, hbefore, hafter, List.count_cons_of_ne (by simp),
    List.count_cons_of_ne (by simp)]

theorem Declined.handed? (h : Declined m r payload written m') : Moment.handed? ⟨m, .tick, m'⟩ = none := by
  cases h with
  | intro stack parcels session stack' =>
    refine Moment.handed?_eq_none stack' fun x hx => ?_
    rw [← Option.some.inj hx]
    rfl

/-- The stream of data that is refused stays as it is until its turn comes. -/
theorem Declined.awaits (h : Declined m r payload written m') :
    m'.session.table = m.session.table ∧ m'.session.goAwaySent = m.session.goAwaySent ∧
      ∃ rest outcome below, m'.stack =
        ⟨.reset (m'.session.stream r).version (m'.session.idOf r) .internalError :: rest, outcome⟩ :: below := by
  cases h with
  | intro stack parcels session stack' =>
    rw [session]
    exact ⟨rfl, rfl, _, _, _, stack'⟩

theorem Machine.Coherent.of_declined (hm : m.Coherent) (h : Declined m r payload written m') (placed : m'.Placed) :
    m'.Coherent := by
  refine ⟨placed, ?_, ?_, by rw [h.owed, h.busy]; exact hm.owed⟩
  · cases h with
    | @intro front back rest outcome below stack parcels session =>
      rw [session]
      refine hm.known.of_subset (fun q hq => ?_) fun x hx => hx
      rw [parcels]
      rcases List.mem_append.1 hq with hq | hq
      · exact List.mem_append_left _ hq
      · exact List.mem_append_right _ (List.mem_cons_of_mem _ hq)
  · cases h with
    | intro stack parcels session =>
      rw [session]
      exact ⟨hm.tidy.known, hm.tidy.nodup⟩

theorem Machine.Coherent.of_turn (hm : m.Coherent) (turn : Turn cap ⟨m, e, m'⟩) (placed : m'.Placed) : m'.Coherent where
  placed := placed
  known := concerns_of_turn turn
    (hm.known.mono fun _ hr => Nat.lt_of_lt_of_le hr (later_of_turn turn).size) fun _ _ hx => hx.known
  tidy := (forward_of_turn turn).tidy hm.tidy
  owed := owed_le_of_turn turn hm.owed

theorem Machine.Coherent.next (hm : m.Coherent) (henc : enc.Reluctant cap) (h : m.next? enc e = some m') :
    m'.Coherent := by
  have placed := placed_of_happens (Machine.happens_of_next? h) hm.placed
  rcases henc.next? h with hstandard | ⟨r, payload, written, refused⟩
  · exact hm.of_turn (turn_of_next? hstandard hm.placed) placed
  · exact hm.of_declined (refused.next? h).2 placed

theorem coherent_of_course {config : Config} {primary : Option Listener} {s : Session} {past : List Moment}
    (hnew : Session.new config primary = .ok s) (course : Course (Encoder.Reluctant cap) { session := s } past m) :
    m.Coherent := by
  induction course with
  | start =>
    obtain ⟨-, rfl⟩ := Session.new_eq_ok hnew
    exact ⟨by simp [Machine.Placed], ⟨nofun, nofun⟩, ⟨nofun, .nil⟩, Nat.zero_le _⟩
  | next _ may h ih => exact ih.next may h

end Steps

/-! ## A stream is given up -/

/-- A stream is given up: the peer is told of it with a status, it goes out of the table, and no other stream is
touched. -/
structure Session.Resets (s t : Session) (r : StreamRef) (status : StreamStatus) : Prop where
  tells : ∃ n bytes, status.code? (s.stream r).version = some n ∧
    ControlFrame.encode ⟨(s.stream r).version, .rstStream (s.idOf r) (UInt32.ofNat n)⟩ = .ok bytes ∧
    t.outbox.parcels = s.outbox.parcels ++ [.control .rstStream bytes none]
  stream : t.stream r = { s.stream r with reset := true }
  table : t.table = s.table.filter (· ≠ r)
  size : t.streams.size = s.streams.size
  others : ∀ q, q ≠ r → t.stream q = s.stream q

namespace Session

variable {s : Session} {r : StreamRef} {status : StreamStatus}

theorem giveUp_stream {id : UInt32} (hfind : s.find? id = some r) (notes : List Note) (q : StreamRef) :
    (s.giveUp id notes).session.stream q = (s.markReset r).stream q := by
  unfold giveUp
  rw [hfind]
  exact ((s.markReset r).remove_sheds r).2 q

/-- The streams with the id of an open stream are this stream alone. -/
theorem filter_idOf_of_mem (tidy : s.Tidy) (hr : r ∈ s.table) :
    s.table.filter (s.idOf · != s.idOf r) = s.table.filter (· ≠ r) := by
  refine List.filter_congr fun q hq => ?_
  by_cases hqr : q = r
  · simp [hqr]
  · have hid : s.idOf q ≠ s.idOf r := fun h => hqr (List.inj_on_of_nodup_map tidy.nodup hq hr h)
    simp [hqr, hid]

/-- What comes of a reset that is due for an open stream. -/
theorem reset_resets (cap : Nat) (tidy : s.Tidy) (sent : s.goAwaySent = false) (hr : r ∈ s.table)
    (hstatus : (status.code? (s.stream r).version).isSome) :
    s.Resets (s.reset (.standard cap) (s.stream r).version (s.idOf r) status).session r status := by
  obtain ⟨n, hn⟩ := Option.isSome_iff_exists.1 hstatus
  obtain ⟨bytes, hbytes⟩ := encode_reset (s.stream r).version (s.idOf r) (UInt32.ofNat n)
  have hencoded : encodeReset (.standard cap) (s.stream r).version (s.idOf r) status = .ok bytes := by
    unfold encodeReset
    rw [hn]
    exact hbytes
  have hfind : (s.post [.control .rstStream bytes none]).find? (s.idOf r) = some r := find?_of_mem tidy hr
  have habandons := ((s.post [.control .rstStream bytes none]).giveUp_abandons ⟨tidy.known, tidy.nodup⟩
    (s.idOf r) []).of_post
  rw [reset_eq, if_neg (by simp [sent]), hencoded]
  refine ⟨⟨n, bytes, hn, hbytes, ?_⟩, ?_, ?_, habandons.size, fun q hq => ?_⟩
  · show ((s.post _).giveUp (s.idOf r) []).session.outbox.parcels = _
    rw [giveUp_outbox]
    rfl
  · exact (giveUp_stream hfind [] r).trans (stream_update_self _ (tidy.known r hr))
  · exact habandons.table.trans (filter_idOf_of_mem tidy hr)
  · exact (giveUp_stream hfind [] q).trans (stream_update_of_ne _ hq)

end Session

/-- A stream that was given up for good: it is reset and not open, and never will be. -/
structure Session.Gone (s : Session) (r : StreamRef) : Prop where
  known : r.serial < s.streams.size
  reset : (s.stream r).reset
  absent : r ∉ s.table

theorem dataOf?_ne_of_reset {cap : Nat} {mo : Moment} (turn : Turn cap mo) {r : StreamRef}
    (reset : (mo.before.session.stream r).reset) {bytes : Bytes} {h : Handler} (handed : mo.handed? = some (bytes, h)) :
    h.parcel.dataOf? ≠ some r := by
  obtain ⟨p, -, framed⟩ := (handing_of_turn turn handed).framed
  intro hr
  generalize h.parcel = q at framed hr
  cases framed with
  | control => cases hr
  | data q payload written alive window chunk =>
    cases hr
    rw [alive] at reset
    cases reset

section Steps

variable {cap : Nat} {enc : Encoder} {m m' : Machine} {e : Event} {r q : StreamRef} {payload : Payload} {written : Nat}

theorem Session.Gone.next (hg : m.session.Gone q) (placed : m.Placed) (henc : enc.Reluctant cap)
    (h : m.next? enc e = some m') :
    m'.session.Gone q ∧ ∀ bytes x, Moment.handed? ⟨m, e, m'⟩ = some (bytes, x) → x.parcel.dataOf? ≠ some q := by
  rcases henc.next? h with hstandard | ⟨r, payload, written, refused⟩
  · have turn := turn_of_next? hstandard placed
    have onward : m.session.Onward m'.session := later_of_turn turn
    refine ⟨⟨Nat.lt_of_lt_of_le hg.known onward.size, onward.reset hg.reset, fun hmem => ?_⟩, fun bytes x handed =>
      dataOf?_ne_of_reset turn hg.reset handed⟩
    have hknown := hg.known
    rcases (forward_of_turn turn).table q hmem with hq | hq
    · exact hg.absent hq
    · dsimp only at hq
      omega
  · obtain ⟨rfl, declined⟩ := refused.next? h
    refine ⟨?_, fun bytes x handed => ?_⟩
    · cases declined with
      | intro stack parcels session =>
        rw [session]
        exact ⟨hg.known, hg.reset, hg.absent⟩
    · rw [declined.handed?] at handed
      cases handed

/-- A task in front that is neither a call nor settles who writes next hands nothing over. -/
theorem handed?_of_plain {x : Task} {rest : List Task} {outcome : Outcome} {below : List Activation}
    (h : m.next? enc e = some m') (placed : m.Placed) (stack : m.stack = ⟨x :: rest, outcome⟩ :: below)
    (plain : x.isPlain) (notFlush : x ≠ .flush) (notCall : x.isCall = false) :
    Moment.handed? ⟨m, e, m'⟩ = none := by
  obtain ⟨rfl, rfl⟩ := Machine.tick_of_stack stack notCall h
  obtain ⟨new, -, hposts⟩ := m.session.perform_posts enc plain notFlush notCall
  rw [Moment.handed?_of_tick rfl (placed ⟨_ :: rest, outcome⟩ (by rw [stack]; exact List.mem_cons_self))]
  exact Progress.handed?_eq_none fun x hx => Task.not_write_of_plain (hposts.plain x hx)

/-- A task in front that gives an open stream up does so, and hands nothing over. -/
theorem resets_of_next? (henc : enc.Reluctant cap) (h : m.next? enc e = some m') (placed : m.Placed)
    (tidy : m.session.Tidy) (hr : r ∈ m.session.table) (sent : m.session.goAwaySent = false) {status : StreamStatus}
    (hstatus : (status.code? (m.session.stream r).version).isSome) {rest : List Task} {outcome : Outcome}
    {below : List Activation}
    (stack : m.stack = ⟨.reset (m.session.stream r).version (m.session.idOf r) status :: rest, outcome⟩ :: below) :
    m.session.Resets m'.session r status ∧ m'.session.Gone r ∧ Moment.handed? ⟨m, e, m'⟩ = none := by
  have hhanded := handed?_of_plain h placed stack rfl nofun rfl
  obtain ⟨rfl, rfl⟩ := Machine.tick_of_stack stack rfl h
  have hcontrol : enc.control = (Encoder.standard cap).control := henc.control
  rw [Session.perform_of_control hcontrol _ (by simp)] at hhanded ⊢
  have hresets := Session.reset_resets cap tidy sent hr hstatus
  exact ⟨hresets, ⟨hresets.size ▸ tidy.known r hr, congrArg Stream.reset hresets.stream, hresets.table ▸ by simp⟩, hhanded⟩

end Steps

/-! ## Someone is going to flush -/

/-- Data was refused, and its stream is to be given up next. -/
structure Machine.Recovering (m : Machine) : Prop where
  returns : ∀ seq, m.session.outbox.inWrite = some seq → .endWrite seq ∈ m.tasks
  sent : m.session.goAwaySent = false
  next : ∃ version id rest outcome below, m.stack = ⟨.reset version id .internalError :: rest, outcome⟩ :: below

section Steps

variable {cap : Nat} {enc : Encoder} {m m' : Machine} {e : Event} {r : StreamRef} {payload : Payload} {written : Nat}

theorem Machine.Wakeful.declined (hm : m.Wakeful) (sent : m.session.goAwaySent = false)
    (h : Declined m r payload written m') : m'.Recovering := by
  obtain ⟨common, hbefore, hafter⟩ := h.tasks
  cases h with
  | intro stack parcels session stack' =>
    refine ⟨fun seq hseq => ?_, by rw [session]; exact sent, _, _, _, _, _, stack'⟩
    rw [session] at hseq
    have hmem := hm.returns seq hseq
    rw [hbefore] at hmem
    rw [hafter]
    exact List.mem_cons_of_mem _ ((List.mem_cons.1 hmem).resolve_left (by simp))

theorem Session.flush_mem_reset (s : Session) (version : Version) (id : UInt32) (status : StreamStatus)
    (sent : s.goAwaySent = false) : .flush ∈ (s.reset enc version id status).todo := by
  have hgiveUp : ∀ (t : Session) notes, .flush ∈ (t.giveUp id notes).todo := by
    intro t notes
    unfold giveUp
    split <;> simp
  rw [reset_eq, sent, if_neg Bool.false_ne_true]
  split <;> exact hgiveUp _ _

theorem Machine.Recovering.next? (hm : m.Recovering) (h : m.next? enc e = some m') : m'.Wakeful := by
  obtain ⟨version, id, rest, outcome, below, hstack⟩ := hm.next
  obtain ⟨-, rfl⟩ := Machine.tick_of_stack hstack rfl h
  obtain ⟨new, -, hposts⟩ := m.session.reset_posts enc version id .internalError
  constructor
  · intro seq hseq
    have hin : (m.session.reset enc version id .internalError).session.outbox.inWrite = m.session.outbox.inWrite := by
      rw [hposts.adds.outbox]
    have hmem := hm.returns seq (hin ▸ hseq)
    rw [Machine.tasks_of_stack hstack] at hmem
    rw [Machine.tasks_of_stack rfl, List.append_assoc]
    exact mem_of_not_gone [.reset version id .internalError] (by simp) hmem
  · intro _
    rw [Machine.tasks_of_stack rfl]
    exact .inr (.inl (List.mem_append_left _ (List.mem_append_left _ (m.session.flush_mem_reset version id _ hm.sent))))

end Steps

/-- Nothing is refused after the end of the session was announced. -/
def RefusedInTime (past : List Moment) : Prop :=
  ∀ mo ∈ past, ∀ r payload written, mo.Declines r payload written → mo.before.session.goAwaySent = false

theorem refusedInTime_of_unannounced {past : List Moment} (h : ∀ mo ∈ past, mo.before.session.goAwaySent = false) :
    RefusedInTime past :=
  fun mo hmo _ _ _ _ => h mo hmo

section Course

variable {cap : Nat} {config : Config} {primary : Option Listener} {s : Session} {past : List Moment} {m : Machine}

theorem owed_eq_of_course (hnew : Session.new config primary = .ok s)
    (course : Course (Encoder.Reluctant cap) { session := s } past m) (horderly : ∀ mo ∈ past, mo.isOrderly) :
    m.owed = m.session.outbox.busy.toNat := by
  induction course with
  | start =>
    obtain ⟨-, rfl⟩ := Session.new_eq_ok hnew
    rfl
  | next course may h ih =>
    have ih := ih fun mo hmo => horderly mo (List.mem_append_left _ hmo)
    rcases may.next? h with hstandard | ⟨r, payload, written, refused⟩
    · exact owed_eq_of_turn (turn_of_next? hstandard (placed_of_course course))
        (horderly _ (List.mem_append_right _ List.mem_cons_self)) ih
    · obtain ⟨-, declined⟩ := refused.next? h
      rw [declined.owed, declined.busy, ih]

theorem wakeful_of_course (hnew : Session.new config primary = .ok s)
    (course : Course (Encoder.Reluctant cap) { session := s } past m) (horderly : ∀ mo ∈ past, mo.isOrderly)
    (htime : RefusedInTime past) : m.Wakeful ∨ m.Recovering := by
  induction course with
  | start =>
    obtain ⟨-, rfl⟩ := Session.new_eq_ok hnew
    exact .inl ⟨nofun, fun ⟨_, hq, _⟩ => nomatch hq⟩
  | @next past m m' e enc course may h ih =>
    have hm := coherent_of_course hnew course
    have horderly' := horderly ⟨m, e, m'⟩ (List.mem_append_right _ List.mem_cons_self)
    rcases ih (fun mo hmo => horderly mo (List.mem_append_left _ hmo))
      fun mo hmo => htime mo (List.mem_append_left _ hmo) with hwake | hrecovering
    · rcases may.next? h with hstandard | ⟨r, payload, written, refused⟩
      · exact .inl (wakeful_of_turn (turn_of_next? hstandard hm.placed) (Moment.isBreak_of_isOrderly horderly')
          hm.known hm.owed hwake)
      · have sent := htime ⟨m, e, m'⟩ (List.mem_append_right _ List.mem_cons_self) r payload written ⟨enc, refused, h⟩
        exact .inr (hwake.declined sent (refused.next? h).2)
    · exact .inl (hrecovering.next? h)

/-- What follows a refusal on an open stream, if the end of the session was not announced. -/
theorem gone_since_declined {pre later : List Moment} {mo x : Moment} {r : StreamRef} {payload : Payload} {written : Nat}
    (hnew : Session.new config primary = .ok s)
    (course : Course (Encoder.Reluctant cap) { session := s } (pre ++ mo :: x :: later) m)
    (declines : mo.Declines r payload written) (hr : r ∈ mo.before.session.table)
    (sent : mo.before.session.goAwaySent = false) :
    mo.after.session.Resets x.after.session r .internalError ∧ m.session.Gone r ∧
      ∀ y ∈ x :: later, y.after.session.Gone r ∧
        ∀ bytes h, y.handed? = some (bytes, h) → h.parcel.dataOf? ≠ some r := by
  have hcode : (StreamStatus.internalError.code? (mo.after.session.stream r).version).isSome := by
    cases (mo.after.session.stream r).version <;> rfl
  obtain ⟨-, declined⟩ := declines.declined
  obtain ⟨htable, hsent, rest, outcome, below, hstack⟩ := declined.awaits
  rw [List.append_cons] at course
  -- the reset is the next task, and from then on the stream is gone
  refine course.since (P := fun later m => mo.after.session.Resets x.after.session r .internalError ∧ m.session.Gone r ∧
    ∀ y ∈ x :: later, y.after.session.Gone r ∧ ∀ bytes h, y.handed? = some (bytes, h) → h.parcel.dataOf? ≠ some r) ?_ ?_
  · intro enc may hpre hx
    have hm := coherent_of_course hnew hpre
    have hlast := hpre.eq_after
    rw [hlast] at hm hx
    obtain ⟨hresets, hgone, hhanded⟩ :=
      resets_of_next? may hx hm.placed hm.tidy (htable ▸ hr) (hsent.trans sent) hcode hstack
    refine ⟨hresets, hgone, fun y hy => ?_⟩
    rw [List.mem_singleton.1 hy]
    refine ⟨hgone, fun bytes h handed => ?_⟩
    rw [← hlast, handed] at hhanded
    cases hhanded
  · intro later m m' e enc may course h ⟨hresets, hgone, hall⟩
    obtain ⟨hgone', hquiet⟩ := hgone.next (placed_of_course course) may h
    refine ⟨hresets, hgone', fun y hy => ?_⟩
    rw [← List.cons_append] at hy
    rcases List.mem_append.1 hy with hy | hy
    · exact hall y hy
    · rw [List.mem_singleton.1 hy]
      exact ⟨hgone', hquiet⟩

end Course

/-- A parcel is lost without a frame, and all else stays as it was. -/
def Moment.Loses (mo : Moment) (q : Parcel) : Prop :=
  mo.handed? = none ∧ ∃ front back, mo.before.session.outbox.parcels = front ++ q :: back ∧
    mo.after.session = mo.before.session.holding (front ++ back)

theorem Moment.Declines.loses {mo : Moment} {r : StreamRef} {payload : Payload} {written : Nat}
    (h : mo.Declines r payload written) : mo.Loses (.data r payload written) := by
  obtain ⟨hevent, declined⟩ := h.declined
  obtain ⟨before, event, after⟩ := mo
  obtain rfl : event = .tick := hevent
  refine ⟨declined.handed?, ?_⟩
  cases declined with
  | intro stack parcels session => exact ⟨_, _, parcels, session⟩

/-- The encoder may refuse data at any time. What it refuses is lost, and nothing else is. If the stream is open and the
end of the session was not announced, then the next thing that happens is that the peer is told of an internal error;
the stream is reset and goes out of the table for good, no data of it is handed over any more, and no other stream is
touched. And if nothing is refused after the announcement, then once no operation is in progress and no write is
outstanding, there waits no control frame, and only data of streams that were given up or have no window left.
Operations may begin within calls, and writes may be reported there or later. -/
theorem refusal_hurts_one_stream {cap : Nat} {config : Config} {primary : Option Listener} {s : Session}
    {past : List Moment} {m : Machine} (hnew : Session.new config primary = .ok s)
    (course : Course (Encoder.Reluctant cap) { session := s } past m) :
    (∀ pre mo post r payload written, past = pre ++ mo :: post → mo.Declines r payload written →
      mo.Loses (.data r payload written) ∧
        (r ∈ mo.before.session.table → mo.before.session.goAwaySent = false → ∀ x later, post = x :: later →
          mo.after.session.Resets x.after.session r .internalError ∧
            ∀ y ∈ post, y.after.session.Gone r ∧
              ∀ bytes h, y.handed? = some (bytes, h) → h.parcel.dataOf? ≠ some r)) ∧
      ((∀ mo ∈ past, mo.isOrderly) → RefusedInTime past → m.stack = [] → m.session.outstanding = [] →
        ∀ q ∈ m.session.outbox.parcels, ∃ r payload written, q = .data r payload written ∧
          ((m.session.stream r).reset ∨ (m.session.stream r).window ≤ 0)) := by
  constructor
  · rintro pre mo post r payload written rfl declines
    refine ⟨declines.loses, ?_⟩
    rintro hr sent x later rfl
    obtain ⟨hresets, -, hall⟩ := gone_since_declined hnew course declines hr sent
    exact ⟨hresets, hall⟩
  · intro horderly htime hstack hout q hq
    rcases wakeful_of_course hnew course horderly htime with hwake | hrecovering
    · exact Session.data_of_canSend (hwake.settled (owed_eq_of_course hnew course horderly) hstack hout q hq)
    · obtain ⟨version, id, rest, outcome, below, hnext⟩ := hrecovering.next
      rw [hstack] at hnext
      cases hnext

/-- Data of the first stream is refused while that of the second is sent, which has no window left for its last byte. -/
theorem refusal_hurts_one_stream_of_two : ∃ s pre mo x later m,
    Session.new { Config.client with initialWindow := 2 } none = .ok s ∧
      Course (Encoder.Reluctant 16384) { session := s } (pre ++ [mo] ++ x :: later) m ∧
      mo.before.session.table = [⟨0⟩, ⟨1⟩] ∧ mo.before.session.goAwaySent = false ∧
      mo.Loses (.data ⟨0⟩ ⟨[97], false⟩ 0) ∧ mo.after.session.Resets x.after.session ⟨0⟩ .internalError ∧
      (∀ y ∈ x :: later, y.after.session.Gone ⟨0⟩ ∧
        ∀ bytes h, y.handed? = some (bytes, h) → h.parcel.dataOf? ≠ some ⟨0⟩) ∧
      m.stack = [] ∧ m.session.outstanding = [] ∧ m.session.outbox.parcels = [.data ⟨1⟩ ⟨[3], false⟩ 2] ∧
      ∀ q ∈ m.session.outbox.parcels, ∃ r payload written, q = .data r payload written ∧
        ((m.session.stream r).reset ∨ (m.session.stream r).window ≤ 0) := by
  have hnew : Session.new { Config.client with initialWindow := 2 } none =
      .ok (.fresh { Config.client with initialWindow := 2 } none) := rfl
  have hpre := Machine.run_of_replay? (.standard 16384)
    { session := .fresh { Config.client with initialWindow := 2 } none }
    [.invoke (.syn .v3 (.plain default false) none), .tick, .tick, .answer none, .tick, .leave,
      .invoke (.complete 1), .tick, .tick, .tick, .leave,
      .invoke (.syn .v3 (.plain default false) none), .tick, .tick, .answer none, .tick, .leave,
      .invoke (.complete 2), .tick, .tick, .tick, .leave,
      .invoke (.ping .v3), .tick, .answer none, .tick, .leave,
      .invoke (.data ⟨0⟩ ⟨[97], false⟩), .tick, .leave, .invoke (.data ⟨1⟩ ⟨[1, 2, 3], false⟩), .tick, .leave,
      .invoke (.complete 3), .tick] rfl
  have hrefused := (hpre.course (Encoder.reluctant_standard 16384)).next (e := .tick)
    (Encoder.reluctant_refusing 16384 (.declined "refusing data")) rfl
  have hcourse := hrefused.extend (Encoder.reluctant_standard 16384) (Machine.run_of_replay? (.standard 16384) _
    [.tick, .tick, .tick, .answer none, .tick, .leave, .invoke (.complete 4), .tick, .tick, .answer none, .tick, .leave,
      .invoke (.complete 5), .tick, .tick, .leave] rfl)
  obtain ⟨hlost, hrest⟩ := refusal_hurts_one_stream hnew hcourse
  obtain ⟨hloses, hgone⟩ := hlost _ _ _ ⟨0⟩ ⟨[97], false⟩ 0 (List.append_cons _ _ _).symm
    ⟨.refusing 16384 (.declined "refusing data"), ⟨⟨_, _, _, rfl⟩, ⟨_, rfl⟩, rfl, _, rfl⟩, rfl⟩
  obtain ⟨hresets, hall⟩ := hgone (by decide) rfl _ _ rfl
  have hwait := hrest (by decide) (refusedInTime_of_unannounced (by decide)) rfl rfl
  exact ⟨_, _, _, _, _, _, hnew, hcourse, rfl, rfl, hloses, hresets, hall, rfl, rfl, rfl, hwait⟩

/-- Data is refused while the announcement of the end waits behind it. Then the stream stays open, and the announcement
waits although nothing is in progress. It goes only when the application sends more on the stream, which goes too. -/
theorem refusal_after_goAway : ∃ s pre mo post m more m', Session.new .client none = .ok s ∧
    Course (Encoder.Reluctant 16384) { session := s } (pre ++ [mo] ++ post) m ∧
      (∀ x ∈ pre ++ [mo] ++ post, x.isOrderly) ∧ mo.Declines ⟨0⟩ ⟨[97], false⟩ 0 ∧
      mo.before.session.table = [⟨0⟩] ∧ mo.before.session.goAwaySent ∧ m.stack = [] ∧ m.session.outstanding = [] ∧
      m.session.table = [⟨0⟩] ∧ (m.session.stream ⟨0⟩).reset = false ∧
      (∃ bytes, m.session.outbox.parcels = [.control .goAway bytes none]) ∧
      Run (.standard 16384) m more m' ∧ ∃ y ∈ more, y.handed?.any fun x => x.2.parcel.dataOf? == some ⟨0⟩ := by
  have hnew : Session.new .client none = .ok (.fresh .client none) := rfl
  have hpre := Machine.run_of_replay? (.standard 16384) { session := .fresh .client none }
    [.invoke (.syn .v3 (.plain default false) none), .tick, .tick, .answer none, .tick, .leave,
      .invoke (.complete 1), .tick, .tick, .tick, .leave, .invoke (.ping .v3), .tick, .answer none, .tick, .leave,
      .invoke (.data ⟨0⟩ ⟨[97], false⟩), .tick, .leave, .invoke (.goAway .v3), .tick, .leave,
      .invoke (.complete 2), .tick] rfl
  have hrefused := (hpre.course (Encoder.reluctant_standard 16384)).next (e := .tick)
    (Encoder.reluctant_refusing 16384 (.declined "refusing data")) rfl
  have hcourse := hrefused.extend (Encoder.reluctant_standard 16384)
    (Machine.run_of_replay? (.standard 16384) _ [.tick, .leave] rfl)
  exact ⟨_, _, _, _, _, _, _, hnew, hcourse, by decide,
    ⟨.refusing 16384 (.declined "refusing data"), ⟨⟨_, _, _, rfl⟩, ⟨_, rfl⟩, rfl, _, rfl⟩, rfl⟩, rfl, rfl, rfl, rfl, rfl, rfl,
    ⟨_, rfl⟩,
    Machine.run_of_replay? (.standard 16384) _ [.invoke (.data ⟨0⟩ ⟨[98], false⟩), .tick, .answer none, .tick, .leave,
      .invoke (.complete 3), .answer none, .tick, .tick] rfl,
    by decide⟩

end Spdy
