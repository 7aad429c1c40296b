import Spdy.Proofs.Reclaim

/-!
# What a moment does to a stream

A stream that was there keeps its marks, or one of them is set, or it leaves the table; and it can be told from the
letters why. This is so as long as the session is dealt with in a civil way.

* `Civil` : what is taken for granted of what a session receives and of what its application and its controller do;
* `opened_of_run` : a side opens streams that it knows, and waits for an answer;
* `Session.Finishes`, `finished_of_run` : the last of the data of a stream is being written;
* `Scene`, `scene_of_run` : what is known of a moment of a civil run;
* `Scene.cases_of_assured`, `Scene.of_reset`, `Scene.of_last` : the letters that are newly certain;
* `Affects`, `Scene.affects` : what a moment does to a stream that was there; `Newcomer`, `Scene.newcomer` : and to one
  that comes.
-/

namespace Spdy

/-! ## What is taken for granted -/

/-- What is taken for granted of what a session receives, and of what its application and its controller do: nothing
that is received ends the session, streams are opened by the side to which their ids belong, and not one-way, the
application announces no end and gives streams up for reasons that exist, and writes are done. -/
structure Civil (c : Config) (past : List Moment) : Prop extends Heeds true c past where
  calm : ∀ got ∈ taken past, got.isFatal = false
  opens : ∀ got ∈ taken past, ∀ id, got.opening? = some id → id ≠ 0 ∧ c.isLocal id = false ∧ got.isOneWay = false
  stays : ∀ mo ∈ past, ∀ version, mo.op? ≠ some (.goAway version)
  named : ∀ mo ∈ past, ∀ version id status, mo.op? = some (.reset version id status) → (status.code? version).isSome
  written : ∀ mo ∈ past, mo.isFailure = false ∧ mo.isDrop = false
  unbroken : ∀ mo ∈ past, mo.isBreak = false

theorem Civil.of_append {c : Config} {past : List Moment} {mo : Moment} (h : Civil c (past ++ [mo])) :
    Civil c past where
  toHeeds := h.toHeeds.of_append
  calm := fun got hgot => h.calm got (by rw [taken_append]; exact List.mem_append_left _ hgot)
  opens := fun got hgot => h.opens got (by rw [taken_append]; exact List.mem_append_left _ hgot)
  stays := fun x hx => h.stays x (List.mem_append_left _ hx)
  named := fun x hx => h.named x (List.mem_append_left _ hx)
  written := fun x hx => h.written x (List.mem_append_left _ hx)
  unbroken := fun x hx => h.unbroken x (List.mem_append_left _ hx)

theorem Civil.announces {c : Config} {past : List Moment} {mo : Moment} (h : Civil c (past ++ [mo])) :
    mo.op?.any Operation.announces = false := by
  have hmo : mo ∈ past ++ [mo] := List.mem_append_right _ List.mem_cons_self
  cases hop : mo.op? with
  | none => rfl
  | some op =>
    cases op with
    | goAway version => exact absurd hop (h.stays mo hmo version)
    | receive got =>
      have hcalm := h.calm got (Moment.taken?_mem (Moment.taken?_of_receive hop))
      cases got with
      | sessionException e => cases hcalm
      | _ => rfl
    | _ => rfl

/-! ## Letters of frames -/

section Letters

variable {f : ControlFrame} {id : UInt32} {past : List Moment} {s : Session}

theorem Received.closes_of_reset? {got : Received} {id : UInt32} (h : got.reset? = some id) : got.closes = false := by
  unfold reset? at h
  split at h
  · rfl
  · cases h

/-- A frame that closes its stream says so, if it can be read. -/
theorem ControlFrame.bears_of_closes (h : f.body.streamId? = some id) (hid : id ≠ 0) (hlow : low31 id = id)
    (hcloses : f.body.closes) : f.reading.bears .last id ∨ f.reading.bears .fault id := by
  rcases reading_of_head h hid hlow with ⟨hreading, hstream⟩ | hreading
  · left
    rw [hreading]
    have hcloses' : f.normal.body.closes := f.closes_normal.trans hcloses
    simp [Received.bears, Received.closes, Received.streamId?, hcloses', hstream]
  · right
    rw [hreading]
    simp [Received.bears]

/-- A frame that opens a stream says so, if it can be read. -/
theorem ControlFrame.bears_of_opens {version : Version} {flags : UInt8} {associatedId : UInt32} {priority : UInt8}
    {headers : Headers} (hid : id ≠ 0) (hlow : low31 id = id) :
    (reading ⟨version, .synStream flags id associatedId priority headers⟩).bears .opening id ∨
      (reading ⟨version, .synStream flags id associatedId priority headers⟩).bears .fault id := by
  rcases reading_of_head (f := ⟨version, .synStream flags id associatedId priority headers⟩) rfl hid hlow with
    ⟨hreading, -⟩ | hreading
  · left
    rw [hreading]
    show ((Received.control _).opening? == some id) = true
    exact beq_iff_eq.2 (congrArg some hlow)
  · right
    rw [hreading]
    simp [Received.bears]

theorem reading_mem_assured {type : FrameType} {bytes : Bytes} {r : Option StreamRef}
    (hmem : .control type bytes r ∈ s.outbox.parcels) (h : f.encode = .ok bytes) : f.reading ∈ assured past s :=
  mem_assured.2 (.inr ⟨List.mem_append_right _ (List.mem_filterMap.2 ⟨_, hmem, letter?_of_encode h⟩),
    f.isData_reading⟩)

theorem bears_of_encodeReset {cap : Nat} {version : Version} {status : StreamStatus} {type : FrameType} {bytes : Bytes}
    {r : Option StreamRef} (hmem : .control type bytes r ∈ s.outbox.parcels)
    (h : Session.encodeReset (.standard cap) version id status = .ok bytes) (hlow : low31 id = id) :
    Bears (assured past s) .reset id := by
  obtain ⟨n, hencoded⟩ := encodeReset_eq_ok h
  refine ⟨_, reading_mem_assured hmem hencoded, ?_⟩
  rw [ControlFrame.reading_of_reset, hlow]
  simp [Received.bears, Received.reset?]

end Letters

/-! ## Streams that are opened -/

section Opened

variable {cap : Nat} {resets : Bool} {config : Config} {primary : Option Listener} {s : Session} {past : List Moment}
  {m : Machine}

end Opened

/-! ## The last of the data of a stream -/

def Session.Finishes (s : Session) (r : StreamRef) : Prop :=
  ∃ x ∈ s.outstanding, ∃ rest written, x.parcel = .data r rest written ∧ rest.isEmpty ∧ rest.close

section Finishes

variable {cap : Nat} {config : Config} {primary : Option Listener} {s : Session} {past : List Moment} {m m' : Machine}
  {e : Event}

/-- What finishes a stream is handed over at the moment, or was before. -/
theorem Hands.finishes {mo : Moment} (h : Hands mo) {r : StreamRef} (hr : mo.after.session.Finishes r) :
    mo.before.session.Finishes r ∨ r.serial < mo.before.session.streams.size ∧
      ∃ frame, mo.spoken? = some (.data frame) ∧ frame.closes ∧ frame.streamId = mo.before.session.idOf r := by
  obtain ⟨x, hx, rest, written, hparcel, hempty, hclose⟩ := hr
  cases h with
  | nothing silent sublist => exact .inl ⟨x, sublist.subset hx, rest, written, hparcel, hempty, hclose⟩
  | control spoken isData outstanding parcel =>
    rw [outstanding, List.mem_singleton] at hx
    subst hx
    cases parcel.symm.trans hparcel
  | data spoken outstanding parcel known about closes =>
    rw [outstanding, List.mem_singleton] at hx
    subst hx
    cases parcel.symm.trans hparcel
    refine .inr ⟨known, _, spoken, ?_, about⟩
    rw [closes, hempty, hclose]
    rfl

end Finishes

/-! ## A moment of a civil run -/

/-- What is known of a moment of a civil run. -/
structure Scene (cap : Nat) (c : Config) (past : List Moment) (m : Machine) (e : Event) (m' : Machine) : Prop where
  next : m.next? (.standard cap) e = some m'
  befalls : Befalls cap ⟨m, e, m'⟩
  utters : Utters cap ⟨m, e, m'⟩
  passage : Passage cap ⟨m, e, m'⟩
  hands : Hands ⟨m, e, m'⟩
  onward : m.session.Onward m'.session
  tidy : m.session.Tidy
  aims : m.Aims
  numbered : Numbered c past m
  valid : m.session.nextStreamId ≠ 0 ∧ low31 m.session.nextStreamId = m.session.nextStreamId
  sound : m.session.Sound
  distinct : m'.session.Distinct
  sent : m.session.goAwaySent = false
  civil : Civil c (past ++ [⟨m, e, m'⟩])
  report : ∀ x ∈ m.session.outstanding, x ∈ m'.session.outstanding ∨
    m'.session = ((m.session.dropHandler x.seq).wrote x.parcel).session ∧
      m'.tasks = ((m.session.dropHandler x.seq).wrote x.parcel).todo ++ m.tasks
  unstuck : ∀ x ∈ m.session.outstanding, ∀ r payload written, x.parcel = .data r payload written →
    ∃ y, (m.session.stream r).credit (debit written) = .ok y
  finished : ∀ r, m.session.Finishes r →
    r.serial < m.session.streams.size ∧ Bears (assured past m.session) .last (m.session.idOf r)
  unsaid : m'.session.streams.size = m.session.streams.size + 1 →
    ∀ got, got ∈ assured past m.session ∨ got ∈ taken past → got.streamId? ≠ some (m'.session.idOf m.session.nextRef)

section Run

variable {cap : Nat} {config : Config} {primary : Option Listener} {s : Session} {past : List Moment} {m m' : Machine}
  {e : Event}

end Run

namespace Scene

variable {cap : Nat} {c : Config} {past : List Moment} {m m' : Machine} {e : Event}

theorem idOf (h : Scene cap c past m e m') {r : StreamRef} (hr : r.serial < m.session.streams.size) :
    m'.session.idOf r = m.session.idOf r :=
  (h.onward.later r hr).id

theorem eq_of_idOf (h : Scene cap c past m e m') {r q : StreamRef} (hr : r.serial < m.session.streams.size)
    (hq : q.serial < m.session.streams.size) (hid : m.session.idOf r = m.session.idOf q) : r = q :=
  h.distinct r q (Nat.lt_of_lt_of_le hr h.onward.size) (Nat.lt_of_lt_of_le hq h.onward.size)
    ((h.idOf hr).trans (hid.trans (h.idOf hq).symm))

theorem idOf_ne_next (h : Scene cap c past m e m') {r : StreamRef} (hr : r.serial < m.session.streams.size) :
    m.session.idOf r ≠ m.session.nextStreamId := by
  intro heq
  have := (h.numbered.own r hr (heq ▸ h.numbered.isLocal_next)).2
  rw [heq] at this
  exact Nat.lt_irrefl _ this

/-! ## Why streams are given up -/

section Quits

variable {version : Version} {id : UInt32} {status : StreamStatus}

theorem low31_of_quits (h : Scene cap c past m e m')
    (cause : Quits (Moment.op? ⟨m, e, m'⟩) (Moment.task? ⟨m, e, m'⟩) version id status) : low31 id = id := by
  have hmo : (⟨m, e, m'⟩ : Moment) ∈ past ++ [⟨m, e, m'⟩] := List.mem_append_right _ List.mem_cons_self
  cases cause with
  | asked hop =>
    obtain ⟨r, hr, rfl⟩ := h.civil.asks rfl _ hmo _ _ _ hop
    exact (h.sound r (h.tidy.known r hr)).2
  | heard hop about => exact low31_of_isRead (h.civil.read _ (Moment.taken?_mem (Moment.taken?_of_receive hop))) about
  | due htask =>
    obtain ⟨-, r, hr, rfl⟩ := h.aims.reset _ _ _ (Moment.task?_mem htask)
    exact (h.sound r hr).2

theorem code?_of_quits (h : Scene cap c past m e m')
    (cause : Quits (Moment.op? ⟨m, e, m'⟩) (Moment.task? ⟨m, e, m'⟩) version id status) :
    (status.code? version).isSome := by
  cases cause with
  | asked hop => exact h.civil.named _ (List.mem_append_right _ List.mem_cons_self) _ _ _ hop
  | heard hop about hstatus =>
    rcases hstatus with rfl | rfl | ⟨e, rfl, rfl⟩
    · exact Session.code?_protocolError _
    · cases version <;> rfl
    · rw [status_of_isRead (h.civil.read _ (Moment.taken?_mem (Moment.taken?_of_receive hop)))]
      exact Session.code?_protocolError _
  | due htask =>
    rw [(h.aims.reset _ _ _ (Moment.task?_mem htask)).1]
    cases version <;> rfl

end Quits

/-! ## Letters that are newly certain -/

theorem assured_mono (h : Scene cap c past m e m') {got : Received} (hgot : got ∈ assured past m.session) :
    got ∈ assured (past ++ [⟨m, e, m'⟩]) m'.session :=
  h.utters.assured_mono (h.civil.written _ (List.mem_append_right _ List.mem_cons_self)) hgot

theorem bears_mono (h : Scene cap c past m e m') {w : Word} {id : UInt32}
    (hbears : Bears (assured past m.session) w id) : Bears (assured (past ++ [⟨m, e, m'⟩]) m'.session) w id :=
  hbears.mono fun _ => h.assured_mono

/-- A letter is certain since before, or it is data that is handed over, or it is new. -/
theorem cases_of_assured (h : Scene cap c past m e m') {got : Received}
    (hgot : got ∈ assured (past ++ [⟨m, e, m'⟩]) m'.session) :
    got ∈ assured past m.session ∨ got.isData ∧ Moment.spoken? ⟨m, e, m'⟩ = some got ∨
      got.isData = false ∧ ∃ p, m'.session = p.session ∧
        Voices (.standard cap) m.session (Moment.op? ⟨m, e, m'⟩) (Moment.task? ⟨m, e, m'⟩) p got := by
  rcases h.utters.of_assured hgot with hgot | hgot | ⟨hdata, p, new, deed, session, hletter⟩
  · exact .inl hgot
  · exact .inr (.inl hgot)
  · exact .inr (.inr ⟨hdata, p, session, voices_of_deed deed h.sound h.valid hletter⟩)

/-- Where it is newly certain that a stream is given up, the stream is gone. -/
theorem of_reset (h : Scene cap c past m e m') {id : UInt32}
    (hbears : Bears (assured (past ++ [⟨m, e, m'⟩]) m'.session) .reset id) :
    Bears (assured past m.session) .reset id ∨ m.session.Abandons m'.session id := by
  obtain ⟨got, hgot, hreset⟩ := hbears
  have hreset' : got.reset? = some id := by simpa [Received.bears] using hreset
  have hsome : ∀ {x : Option UInt32}, got.reset? = x → x ≠ none := by
    rintro x rfl hnone
    cases hreset'.symm.trans hnone
  rcases h.cases_of_assured hgot with hgot | ⟨hdata, -⟩ | ⟨hdata, p, session, voices⟩
  · exact .inl ⟨got, hgot, hreset⟩
  · exact absurd rfl (hsome (Received.reset?_of_isData hdata))
  · right
    cases voices with
    | whole whole => cases whole.symm.trans (Received.streamId?_of_bears hreset)
    | data known same letter =>
      rw [letter] at hdata
      cases hdata
    | said known size about opening reset => exact absurd rfl (hsome reset)
    | opened asks size hasId next about reset => exact absurd rfl (hsome reset)
    | quit cause reset about abandons =>
      rw [h.low31_of_quits cause, hreset'] at reset
      obtain rfl := Option.some.inj reset
      exact session ▸ abandons

/-- Where it is newly certain that a side says nothing more on a stream, it has closed the stream, or does so once the
data is written. -/
theorem of_last (h : Scene cap c past m e m') {id : UInt32}
    (hbears : Bears (assured (past ++ [⟨m, e, m'⟩]) m'.session) .last id) :
    Bears (assured past m.session) .last id ∨ ∃ r, r.serial < m'.session.streams.size ∧ m'.session.idOf r = id ∧
      ((m'.session.stream r).localClosed ∨ m'.session.Finishes r) := by
  obtain ⟨got, hgot, hlast⟩ := hbears
  obtain ⟨hcloses, hstream⟩ : got.closes = true ∧ got.streamId? = some id := by simpa [Received.bears] using hlast
  rcases h.cases_of_assured hgot with hgot | ⟨hdata, hspoken⟩ | ⟨hdata, p, session, voices⟩
  · exact .inl ⟨got, hgot, hlast⟩
  · right
    cases h.hands with
    | nothing silent => cases silent.symm.trans hspoken
    | control spoken isData =>
      obtain rfl := Option.some.inj (spoken.symm.trans hspoken)
      cases isData.symm.trans hdata
    | @data x r rest written frame spoken outstanding parcel known about closes =>
      obtain rfl := Option.some.inj (spoken.symm.trans hspoken)
      obtain ⟨hempty, hclose⟩ : rest.isEmpty ∧ rest.close := by
        rw [← Bool.and_eq_true, ← closes]
        exact hcloses
      refine ⟨r, Nat.lt_of_lt_of_le known h.onward.size, ?_, .inr ⟨x, ?_, rest, written, parcel, hempty, hclose⟩⟩
      · exact (h.idOf known).trans (about.symm.trans (Option.some.inj hstream))
      · rw [show m'.session.outstanding = [x] from outstanding]
        exact List.mem_cons_self
  · right
    cases voices with
    | whole whole => cases whole.symm.trans hstream
    | data known same letter =>
      rw [letter] at hdata
      cases hdata
    | @said r known size about opening reset isData closes =>
      refine ⟨r, Nat.lt_of_lt_of_le known h.onward.size, ?_, .inl (session ▸ closes hcloses)⟩
      exact (h.idOf known).trans (Option.some.inj (about.symm.trans hstream))
    | opened asks size hasId next about reset isData oneWay closes =>
      refine ⟨m.session.nextRef, ?_, ?_, .inl (session ▸ closes hcloses)⟩
      · rw [session, size]
        exact Nat.lt_succ_self _
      · rw [session, hasId]
        exact Option.some.inj (about.symm.trans hstream)
    | quit cause reset => cases (Received.closes_of_reset? reset).symm.trans hcloses

/-! ## Streams that were there -/

/-- A control frame on a stream is handed over, and the stream is looked after once that is reported. -/
theorem delivers (h : Scene cap c past m e m') {r : StreamRef} (hr : m.session.Delivers r) :
    .reclaim r ∈ m'.tasks ∨ m'.session.Delivers r :=
  delivers_of_passage h.passage (h.civil.written _ (List.mem_append_right _ List.mem_cons_self)).1 h.report hr

end Scene

/-- What a moment does to a stream that was there. -/
inductive Affects (past : List Moment) (mo : Moment) (r : StreamRef) : Prop
  | nothing (table : r ∈ mo.after.session.table ↔ r ∈ mo.before.session.table)
      (marks : (mo.after.session.stream r).marks = (mo.before.session.stream r).marks)
  | closesLocal (table : r ∈ mo.after.session.table ↔ r ∈ mo.before.session.table)
      (marks : (mo.after.session.stream r).marks = { mo.before.session.stream r with localClosed := true }.marks)
      (bears : Bears (assured (past ++ [mo]) mo.after.session) .last (mo.before.session.idOf r) ∨
        Bears (assured (past ++ [mo]) mo.after.session) .fault (mo.before.session.idOf r))
      (leaves : .reclaim r ∈ mo.after.tasks ∨ mo.after.session.Delivers r)
  | closesRemote {got : Received} (table : r ∈ mo.after.session.table ↔ r ∈ mo.before.session.table)
      (marks : (mo.after.session.stream r).marks = { mo.before.session.stream r with remoteClosed := true }.marks)
      (taken : mo.taken? = some got) (last : got.bears .last (mo.before.session.idOf r))
      (reclaims : .reclaim r ∈ mo.after.tasks)
  | given (gone : r ∉ mo.after.session.table)
      (marks : (mo.after.session.stream r).marks = { mo.before.session.stream r with reset := true }.marks)
      (cause : Bears (assured (past ++ [mo]) mo.after.session) .reset (mo.before.session.idOf r) ∨
        mo.task? = some (.lose (mo.before.session.idOf r)))
  | reclaimed (gone : r ∉ mo.after.session.table) (closed : (mo.before.session.stream r).isClosed)
      (marks : (mo.after.session.stream r).marks = (mo.before.session.stream r).marks)

namespace Affects

variable {past : List Moment} {mo : Moment} {r : StreamRef}

theorem of_same (h : mo.before.session.Same mo.after.session) : Affects past mo r :=
  .nothing (by rw [h.table]) (h.marks r)

theorem of_mark {b : Bool} {q : StreamRef} {f : Stream → Stream}
    (h : (if b then mo.before.session.update q f else mo.before.session).Same mo.after.session) (hne : b → r ≠ q) :
    Affects past mo r :=
  .nothing (by rw [h.table_of_mark]) (Stream.marks_of_still (h.still_of_mark hne))

theorem of_register {s : Session} {x : Stream} (h : (s.register x).Same mo.after.session)
    (hstreams : s.streams = mo.before.session.streams) (htable : s.table = mo.before.session.table)
    (hne : mo.before.session.idOf r ≠ x.id) (hr : r.serial < mo.before.session.streams.size) : Affects past mo r := by
  have hstream : s.stream r = mo.before.session.stream r := by rw [Session.stream, hstreams]; rfl
  have hlt : r.serial < s.streams.size := hstreams ▸ hr
  refine .nothing ?_ ?_
  · rw [h.table, Session.mem_table_register, htable, Session.idOf, hstream]
    refine ⟨fun hmem => hmem.elim And.left fun heq => ?_, fun hmem => .inl ⟨hmem, hne⟩⟩
    rw [heq] at hlt
    exact absurd hlt (Nat.lt_irrefl _)
  · rw [h.marks, Session.stream_register_of_lt x hlt, hstream]

theorem of_abandons {id : UInt32} (h : mo.before.session.Abandons mo.after.session id)
    (cause : mo.before.session.idOf r = id →
      Bears (assured (past ++ [mo]) mo.after.session) .reset (mo.before.session.idOf r) ∨
        mo.task? = some (.lose (mo.before.session.idOf r))) : Affects past mo r := by
  by_cases hmem : r ∈ mo.before.session.table ∧ mo.before.session.idOf r = id
  · refine .given (fun hgone => (h.mem.1 hgone).2 hmem.2) ?_ (cause hmem.2)
    exact Stream.marks_of_still (h.given r hmem.1 hmem.2)
  · refine .nothing ?_ (Stream.marks_of_still (h.others r (not_and_or.1 hmem)))
    exact h.mem.trans ⟨And.left, fun hr => ⟨hr, fun heq => hmem ⟨hr, heq⟩⟩⟩

theorem of_closeLocal (h : (mo.before.session.closeLocal r).Same mo.after.session)
    (hr : r.serial < mo.before.session.streams.size)
    (bears : Bears (assured (past ++ [mo]) mo.after.session) .last (mo.before.session.idOf r) ∨
      Bears (assured (past ++ [mo]) mo.after.session) .fault (mo.before.session.idOf r))
    (leaves : .reclaim r ∈ mo.after.tasks ∨ mo.after.session.Delivers r) : Affects past mo r := by
  refine .closesLocal ?_ ?_ bears leaves
  · rw [h.table]
    rfl
  · rw [h.marks, Session.closeLocal, Session.stream_update_self _ hr]

end Affects

namespace Scene

variable {cap : Nat} {c : Config} {past : List Moment} {m m' : Machine} {e : Event}

theorem affects (h : Scene cap c past m e m') {r : StreamRef} (hr : r.serial < m.session.streams.size) :
    Affects past ⟨m, e, m'⟩ r := by
  have hnext := h.idOf_ne_next hr
  obtain ⟨hid, hlow⟩ := h.sound r hr
  cases h.befalls with
  | @work p new deed session parcels todo =>
    have posted : ∀ {q : Parcel}, q ∈ new → q ∈ m'.session.outbox.parcels := by
      intro q hq
      rw [show m'.session.outbox.parcels = _ from parcels]
      exact List.mem_append_right _ hq
    cases deed with
    | same hsame announces => exact .of_same (session ▸ hsame)
    | data known hsame => exact .of_same (session ▸ hsame)
    | @said q f bytes known isHead notOpening about encoded localOpen hsame =>
      by_cases hq : f.body.closes ∧ r = q
      · obtain ⟨hcloses, rfl⟩ := hq
        rw [if_pos hcloses] at hsame
        have hmem := posted (List.mem_singleton.2 rfl)
        have hreading : f.reading ∈ assured (past ++ [⟨m, e, m'⟩]) m'.session := reading_mem_assured hmem encoded
        refine .of_closeLocal (session ▸ hsame) hr ?_ (.inr ⟨_, _, .inl hmem⟩)
        exact (f.bears_of_closes about hid hlow hcloses).imp (⟨_, hreading, ·⟩) (⟨_, hreading, ·⟩)
      · exact .of_mark (session ▸ hsame) fun hcloses heq => hq ⟨hcloses, heq⟩
    | opened asks bidirectional sent encoded hasId localClosed remoteClosed reset hsame =>
      rw [← session] at hsame
      exact .of_register hsame rfl rfl (hasId ▸ hnext) hr
    | unopened asks bidirectional sent hsame =>
      refine .nothing ?_ ?_
      · show r ∈ m'.session.table ↔ r ∈ m.session.table
        rw [session, hsame.table, Session.mem_forget]
        exact ⟨And.left, fun hmem => ⟨hmem, hnext⟩⟩
      · exact session ▸ hsame.marks r
    | @born _ _ _ _ _ _ _ x asks sent valid remote absent hasId localClosed remoteClosed reset hsame =>
      refine .of_register (session ▸ hsame) rfl rfl (fun heq => ?_) hr
      have hsize : m'.session.streams.size = m.session.streams.size + 1 := by
        rw [session, hsame.size, Session.size_register]
      have hnew : m'.session.idOf m.session.nextRef = x.id := by
        rw [session, hsame.idOf, Session.idOf, Session.stream_register_nextRef]
      have hlt : m.session.nextRef.serial < m'.session.streams.size := hsize ▸ Nat.lt_succ_self _
      have := h.distinct r m.session.nextRef (Nat.lt_of_lt_of_le hr h.onward.size) hlt
        ((h.idOf hr).trans (heq.trans hnew.symm))
      rw [this] at hr
      exact Nat.lt_irrefl _ hr
    | @heard got q asks about mem hsame reclaims =>
      by_cases hq : got.closes ∧ r = q
      · obtain ⟨hcloses, rfl⟩ := hq
        rw [if_pos hcloses] at hsame
        refine .closesRemote ?_ ?_ (Moment.taken?_of_receive asks) ?_ (todo _ reclaims)
        · show r ∈ m'.session.table ↔ r ∈ m.session.table
          rw [session, hsame.table]
          rfl
        · show (m'.session.stream r).marks = _
          rw [session, hsame.marks, Session.closeRemote, Session.stream_update_self _ hr]
        · simp [Received.bears, hcloses, about]
      · exact .of_mark (session ▸ hsame) fun hcloses heq => hq ⟨hcloses, heq⟩
    | quit cause encoded habandons =>
      refine .of_abandons (session ▸ habandons) fun heq => .inl ?_
      rw [heq]
      exact bears_of_encodeReset (posted (List.mem_singleton.2 rfl)) encoded (h.low31_of_quits cause)
    | muffled cause refused habandons =>
      obtain ⟨bytes, hencoded⟩ := Session.encodeReset_of_code? (h.code?_of_quits cause)
      cases refused.symm.trans hencoded
    | lost does habandons =>
      exact .of_abandons (session ▸ habandons) fun heq => .inr (heq ▸ does)
    | @reclaimed q does closed sheds still =>
      have hmarks : (m'.session.stream r).marks = (m.session.stream r).marks := by
        rw [session]
        exact Stream.marks_of_still (still r)
      by_cases hq : r ∈ m.session.table ∧ m.session.idOf r = m.session.idOf q
      · obtain ⟨hmem, heq⟩ := hq
        have hknown : q.serial < m.session.streams.size := by
          by_contra hle
          rw [Session.stream_of_size_le (Nat.le_of_not_lt hle)] at closed
          cases closed
        obtain rfl := h.eq_of_idOf hr hknown heq
        refine .reclaimed (fun hgone => ?_) closed hmarks
        rw [show m'.session = p.session from session, sheds.mem] at hgone
        exact hgone.2 rfl
      · refine .nothing ?_ hmarks
        show r ∈ m'.session.table ↔ r ∈ m.session.table
        rw [session, sheds.mem]
        exact ⟨And.left, fun hmem => ⟨hmem, fun heq => hq ⟨hmem, heq⟩⟩⟩
  | still hsame => exact .of_same hsame
  | @answered q reply opening listener waits hsame =>
    refine .nothing (by rw [hsame.table]; rfl) ((hsame.marks r).trans ?_)
    exact m.session.map_stream_update Stream.marks q r rfl
  | wrote mem hsame => exact .of_same hsame
  | @closed x q payload written mem parcel empty close hsame reclaims =>
    by_cases hq : r = q
    · subst hq
      refine .of_closeLocal hsame hr (.inl ?_) (.inl reclaims)
      refine h.bears_mono (h.finished r ⟨x, mem, payload, written, parcel, ?_, close⟩).2
      rw [Payload.isEmpty, empty]
      rfl
    · exact .of_mark (b := true) hsame fun _ => hq

end Scene

/-! ## Streams that come -/

/-- How a stream comes: this side opens it and says so, or the other side has opened it. -/
inductive Newcomer (c : Config) (past : List Moment) (mo : Moment) (r : StreamRef) : Prop
  | own (mem : r ∈ mo.after.session.table) (remoteClosed : (mo.after.session.stream r).remoteClosed = false)
      (reset : (mo.after.session.stream r).reset = false)
      (opens : Bears (assured (past ++ [mo]) mo.after.session) .opening (mo.after.session.idOf r) ∨
        Bears (assured (past ++ [mo]) mo.after.session) .fault (mo.after.session.idOf r))
      (closes : (mo.after.session.stream r).localClosed →
        Bears (assured (past ++ [mo]) mo.after.session) .last (mo.after.session.idOf r) ∨
          Bears (assured (past ++ [mo]) mo.after.session) .fault (mo.after.session.idOf r))
  | other {got : Received} (mem : r ∈ mo.after.session.table) (taken : mo.taken? = some got)
      (opening : got.opening? = some (mo.after.session.idOf r)) (remote : c.isLocal (mo.after.session.idOf r) = false)
      (localClosed : (mo.after.session.stream r).localClosed = false)
      (remoteClosed : (mo.after.session.stream r).remoteClosed = got.closes)
      (reset : (mo.after.session.stream r).reset = false) (reclaims : .reclaim r ∈ mo.after.tasks)

namespace Scene

variable {cap : Nat} {c : Config} {past : List Moment} {m m' : Machine} {e : Event}

theorem newcomer (h : Scene cap c past m e m') (hsize : m'.session.streams.size = m.session.streams.size + 1) :
    Newcomer c past ⟨m, e, m'⟩ m.session.nextRef := by
  have same : m'.session.streams.size = m.session.streams.size → Newcomer c past ⟨m, e, m'⟩ m.session.nextRef :=
    fun heq => absurd (hsize.symm.trans heq) (Nat.succ_ne_self _)
  have comes : ∀ {s t : Session} {x : Stream}, (s.register x).Same t → s.streams = m.session.streams → m'.session = t →
      m.session.nextRef ∈ m'.session.table ∧ m'.session.idOf m.session.nextRef = x.id ∧
        (m'.session.stream m.session.nextRef).marks = x.marks := by
    rintro s t x hsame hstreams rfl
    have href : s.nextRef = m.session.nextRef := by rw [Session.nextRef, hstreams]; rfl
    refine ⟨?_, ?_, ?_⟩
    · rw [hsame.table, Session.mem_table_register, href]
      exact .inr rfl
    · rw [hsame.idOf, Session.idOf, ← href, Session.stream_register_nextRef]
    · rw [hsame.marks, ← href, Session.stream_register_nextRef]
  cases h.befalls with
  | @work p new deed session parcels todo =>
    have hof : p.session.streams.size = m.session.streams.size → Newcomer c past ⟨m, e, m'⟩ m.session.nextRef :=
      fun heq => same (session ▸ heq)
    cases deed with
    | same hsame => exact hof hsame.size
    | data known hsame => exact hof hsame.size
    | said known isHead notOpening about encoded localOpen hsame =>
      exact hof hsame.size_of_mark
    | @opened version opening listener bytes x asks bidirectional sent encoded hasId localClosed remoteClosed reset
        hsame =>
      obtain ⟨hmem, hid, hmarks⟩ := comes hsame rfl session
      obtain ⟨hlocal, hremote, hreset⟩ := Stream.marks_eq_iff.1 hmarks
      obtain ⟨hvalid, hlow⟩ := h.valid
      have hparcel : .control .synStream bytes (some m.session.nextRef) ∈ m'.session.outbox.parcels := by
        rw [show m'.session.outbox.parcels = _ from parcels]
        exact List.mem_append_right _ List.mem_cons_self
      have hsaid := @reading_mem_assured _ (past ++ [⟨m, e, m'⟩]) _ _ _ _ hparcel encoded
      rw [hasId] at hid
      refine .own hmem (hremote.trans remoteClosed) (hreset.trans reset) ?_ fun hclosed => ?_
      · show Bears _ _ (m'.session.idOf m.session.nextRef) ∨ Bears _ _ (m'.session.idOf m.session.nextRef)
        rw [hid]
        exact (ControlFrame.bears_of_opens hvalid hlow).imp (⟨_, hsaid, ·⟩) (⟨_, hsaid, ·⟩)
      · show Bears _ _ (m'.session.idOf m.session.nextRef) ∨ Bears _ _ (m'.session.idOf m.session.nextRef)
        rw [hid]
        refine (ControlFrame.bears_of_closes rfl hvalid hlow ?_).imp (⟨_, hsaid, ·⟩) (⟨_, hsaid, ·⟩)
        show Flag.has opening.flags Flag.fin
        rw [opening.has_fin_flags, ← localClosed, ← hlocal]
        exact hclosed
    | unopened asks bidirectional sent hsame => exact hof hsame.size
    | @born version flags id associatedId priority headers opening x asks sent valid remote absent hasId localClosed
        remoteClosed reset hsame todo' =>
      obtain ⟨hmem, hid, hmarks⟩ := comes hsame rfl session
      obtain ⟨hlocal, hremote, hreset⟩ := Stream.marks_eq_iff.1 hmarks
      rw [hasId] at hid
      have htaken := Moment.taken?_of_receive asks
      obtain ⟨-, -, honeWay⟩ := h.civil.opens _ (Moment.taken?_mem htaken) id rfl
      refine .other hmem htaken (congrArg some hid.symm) ?_ (hlocal.trans (localClosed.trans honeWay))
        (hremote.trans remoteClosed) (hreset.trans reset) (todo _ ?_)
      · show c.isLocal (m'.session.idOf m.session.nextRef) = false
        rw [hid, ← h.numbered.config]
        exact remote
      · rw [todo']
        simp
    | heard asks about mem hsame =>
      exact hof hsame.size_of_mark
    | quit cause encoded habandons => exact hof habandons.size
    | muffled cause refused habandons => exact hof habandons.size
    | lost does habandons => exact hof habandons.size
    | reclaimed does closed sheds => exact hof sheds.size
  | still hsame => exact same hsame.size
  | answered waits hsame => exact same (hsame.size.trans (Session.size_update _ _ _))
  | wrote mem hsame => exact same hsame.size
  | closed mem parcel empty close hsame => exact same (hsame.size.trans (Session.size_update _ _ _))

end Scene

end Spdy
