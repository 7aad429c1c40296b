import Spdy.Proofs.Scene

/-!
# What a stream has come to, and what was said of it

Whether a stream is open, closed on a side or given up can be told from what is certain to be said of it and from what
was received about it, as long as the session is dealt with in a civil way.

* `Affects.table`, `Affects.reset` and so on : what follows from what a moment does to a stream;
* `Stands` : what a stream has come to; `Stands.step`, `Stands.birth` : a moment and a stream that was there or comes;
* `Standing`, `standing_of_run` : so it is for all streams, and what is received is answered.
-/

namespace Spdy

/-! ## What follows from what a moment does to a stream -/

namespace Affects

variable {past : List Moment} {mo : Moment} {r : StreamRef}

theorem table (h : Affects past mo r) (hr : r ∈ mo.after.session.table) : r ∈ mo.before.session.table := by
  cases h with
  | nothing table => exact table.1 hr
  | closesLocal table => exact table.1 hr
  | closesRemote table => exact table.1 hr
  | given gone => exact absurd hr gone
  | reclaimed gone => exact absurd hr gone

/-- A stream leaves the table when it is closed or given up. -/
theorem kept (h : Affects past mo r) (hr : r ∈ mo.before.session.table) :
    r ∈ mo.after.session.table ∨ (mo.after.session.stream r).isClosed ∨ (mo.after.session.stream r).reset := by
  cases h with
  | nothing table => exact .inl (table.2 hr)
  | closesLocal table => exact .inl (table.2 hr)
  | closesRemote table => exact .inl (table.2 hr)
  | given gone marks => exact .inr (.inr (Stream.marks_eq_iff.1 marks).2.2)
  | reclaimed gone closed marks =>
    obtain ⟨hlocal, hremote, -⟩ := Stream.marks_eq_iff.1 marks
    rw [Stream.isClosed, hlocal, hremote]
    exact .inr (.inl closed)

/-- A stream is given up when this side says so, or the other side has. -/
theorem reset (h : Affects past mo r) (hr : (mo.after.session.stream r).reset) :
    (mo.before.session.stream r).reset ∨
      Bears (assured (past ++ [mo]) mo.after.session) .reset (mo.before.session.idOf r) ∨
      mo.task? = some (.lose (mo.before.session.idOf r)) := by
  cases h with
  | nothing table marks => exact .inl ((Stream.marks_eq_iff.1 marks).2.2 ▸ hr)
  | closesLocal table marks => exact .inl ((Stream.marks_eq_iff.1 marks).2.2.symm.trans hr)
  | closesRemote table marks => exact .inl ((Stream.marks_eq_iff.1 marks).2.2.symm.trans hr)
  | given gone marks cause => exact .inr cause
  | reclaimed gone closed marks => exact .inl ((Stream.marks_eq_iff.1 marks).2.2 ▸ hr)

theorem localClosed (h : Affects past mo r) (hr : (mo.after.session.stream r).localClosed) :
    (mo.before.session.stream r).localClosed ∨
      Bears (assured (past ++ [mo]) mo.after.session) .last (mo.before.session.idOf r) ∨
      Bears (assured (past ++ [mo]) mo.after.session) .fault (mo.before.session.idOf r) := by
  cases h with
  | nothing table marks => exact .inl ((Stream.marks_eq_iff.1 marks).1 ▸ hr)
  | closesLocal table marks bears => exact .inr bears
  | closesRemote table marks => exact .inl ((Stream.marks_eq_iff.1 marks).1.symm.trans hr)
  | given gone marks => exact .inl ((Stream.marks_eq_iff.1 marks).1.symm.trans hr)
  | reclaimed gone closed marks => exact .inl ((Stream.marks_eq_iff.1 marks).1 ▸ hr)

theorem remoteClosed (h : Affects past mo r) (hr : (mo.after.session.stream r).remoteClosed) :
    (mo.before.session.stream r).remoteClosed ∨
      ∃ got, mo.taken? = some got ∧ got.bears .last (mo.before.session.idOf r) := by
  cases h with
  | nothing table marks => exact .inl ((Stream.marks_eq_iff.1 marks).2.1 ▸ hr)
  | closesLocal table marks => exact .inl ((Stream.marks_eq_iff.1 marks).2.1.symm.trans hr)
  | closesRemote table marks taken last => exact .inr ⟨_, taken, last⟩
  | given gone marks => exact .inl ((Stream.marks_eq_iff.1 marks).2.1.symm.trans hr)
  | reclaimed gone closed marks => exact .inl ((Stream.marks_eq_iff.1 marks).2.1 ▸ hr)

/-- A stream that comes to be closed will be looked after. -/
theorem leaves (h : Affects past mo r) (hr : r ∈ mo.after.session.table)
    (hclosed : (mo.after.session.stream r).isClosed) :
    (mo.before.session.stream r).isClosed ∨ .reclaim r ∈ mo.after.tasks ∨ mo.after.session.Delivers r := by
  cases h with
  | nothing table marks =>
    obtain ⟨hlocal, hremote, -⟩ := Stream.marks_eq_iff.1 marks
    rw [Stream.isClosed, hlocal, hremote] at hclosed
    exact .inl hclosed
  | closesLocal table marks bears leaves => exact .inr leaves
  | closesRemote table marks taken last reclaims => exact .inr (.inl reclaims)
  | given gone => exact absurd hr gone
  | reclaimed gone => exact absurd hr gone

end Affects

/-! ## One stream -/

theorem bears_taken_append {past : List Moment} {mo : Moment} {w : Word} {id : UInt32} :
    Bears (taken (past ++ [mo])) w id ↔ Bears (taken past) w id ∨ ∃ got, mo.taken? = some got ∧ got.bears w id := by
  rw [taken_append, bears_append]
  simp only [Bears, Option.mem_toList]

/-- What a stream has come to, by what is certain to be said of it and by what was received about it. A side that closes
it or gives it up says so, unless that cannot be read, and the other side knows once it has heard; then the stream is
gone or soon will be. -/
structure Stands (c : Config) (past : List Moment) (m : Machine) (r : StreamRef) : Prop where
  kept : r ∈ m.session.table ∨ (m.session.stream r).isClosed ∨ (m.session.stream r).reset
  reset : (m.session.stream r).reset →
    Bears (assured past m.session) .reset (m.session.idOf r) ∨ Bears (taken past) .reset (m.session.idOf r)
  holds : r ∈ m.session.table → ¬Bears (assured past m.session) .reset (m.session.idOf r)
  loses : r ∈ m.session.table → Bears (taken past) .reset (m.session.idOf r) → .lose (m.session.idOf r) ∈ m.tasks
  said : (m.session.stream r).localClosed →
    Bears (assured past m.session) .last (m.session.idOf r) ∨ Bears (assured past m.session) .fault (m.session.idOf r)
  closed : Bears (assured past m.session) .last (m.session.idOf r) →
    (m.session.stream r).localClosed ∨ m.session.Finishes r
  heard : (m.session.stream r).remoteClosed → Bears (taken past) .last (m.session.idOf r)
  heeds : r ∈ m.session.table → Bears (taken past) .last (m.session.idOf r) → (m.session.stream r).remoteClosed
  leaves : r ∈ m.session.table → (m.session.stream r).isClosed → .reclaim r ∈ m.tasks ∨ m.session.Delivers r
  opened : c.isLocal (m.session.idOf r) → Bears (assured past m.session) .opening (m.session.idOf r) ∨
    Bears (assured past m.session) .fault (m.session.idOf r)

section Step

variable {cap : Nat} {c : Config} {past : List Moment} {m m' : Machine} {e : Event} {r : StreamRef}

namespace Scene

/-- The last of the data is being written until it has been, and then the stream is closed. -/
theorem finishes (h : Scene cap c past m e m') (hr : r.serial < m.session.streams.size)
    (hfinishes : m.session.Finishes r) : (m'.session.stream r).localClosed ∨ m'.session.Finishes r := by
  obtain ⟨x, hx, rest, written, hparcel, hempty, hclose⟩ := hfinishes
  rcases h.report x hx with hx' | ⟨hsession, -⟩
  · exact .inr ⟨x, hx', rest, written, hparcel, hempty, hclose⟩
  · left
    obtain ⟨y, hy⟩ := h.unstuck x hx r rest written hparcel
    have hstream : (m.session.dropHandler x.seq).stream r = m.session.stream r := rfl
    have hdebit : -min (written : Int) Stream.maxWindow = debit written := rfl
    rw [hsession, hparcel, Session.wrote, hstream, hdebit, hy]
    dsimp only
    rw [if_pos hempty, if_pos hclose, Session.closeLocal,
      Session.stream_update_self _ (show r.serial < _ by rw [Session.size_update]; exact hr)]

theorem loses (h : Scene cap c past m e m') (hr : r ∈ m'.session.table) (hid : m'.session.idOf r = m.session.idOf r)
    (htask : .lose (m.session.idOf r) ∈ m.tasks) : .lose (m.session.idOf r) ∈ m'.tasks := by
  rcases task?_of_gone h.next (h.civil.unbroken _ (List.mem_append_right _ List.mem_cons_self)) htask rfl with
    htask | htask
  · exact htask
  · obtain ⟨hsession, -⟩ := session_of_task? h.next htask
    rw [hsession] at hr hid
    exact absurd hid (Session.perform_lose h.tidy hr)

theorem reclaims (h : Scene cap c past m e m') (hr : r ∈ m'.session.table) (hclosed : (m.session.stream r).isClosed)
    (htask : .reclaim r ∈ m.tasks) : .reclaim r ∈ m'.tasks := by
  rcases task?_of_gone h.next (h.civil.unbroken _ (List.mem_append_right _ List.mem_cons_self)) htask rfl with
    htask | htask
  · exact htask
  · obtain ⟨hsession, -⟩ := session_of_task? h.next htask
    rw [hsession] at hr
    exact absurd hr (Session.perform_reclaim hclosed)

end Scene

theorem Stands.step (stands : Stands c past m r) (h : Scene cap c past m e m') (hr : r.serial < m.session.streams.size)
    (losing : ∀ id, .lose id ∈ m.tasks → Bears (taken past) .reset id) :
    Stands c (past ++ [⟨m, e, m'⟩]) m' r := by
  have affects := h.affects hr
  have hid := h.idOf hr
  have later := h.onward.later r hr
  have htaken : ∀ {w : Word} {id : UInt32}, Bears (taken past) w id → Bears (taken (past ++ [⟨m, e, m'⟩])) w id :=
    fun hbears => bears_taken_append.2 (.inl hbears)
  constructor
  case kept =>
    rcases stands.kept with hmem | hclosed | hreset
    · exact affects.kept hmem
    · obtain ⟨hlocal, hremote⟩ := Bool.and_eq_true_iff.1 hclosed
      exact .inr (.inl (Bool.and_eq_true_iff.2 ⟨later.localClosed hlocal, later.remoteClosed hremote⟩))
    · exact .inr (.inr (later.reset hreset))
  case reset =>
    intro hreset
    rw [hid]
    rcases affects.reset hreset with hreset | hbears | htask
    · exact (stands.reset hreset).imp h.bears_mono htaken
    · exact .inl hbears
    · exact .inr (htaken (losing _ (Moment.task?_mem htask)))
  case holds =>
    intro hmem hbears
    rw [hid] at hbears
    rcases h.of_reset hbears with hbears | habandons
    · exact stands.holds (affects.table hmem) hbears
    · exact (habandons.mem.1 hmem).2 rfl
  case loses =>
    intro hmem hbears
    rw [hid] at hbears ⊢
    rcases bears_taken_append.1 hbears with hbears | ⟨got, hgot, hreset⟩
    · exact h.loses hmem hid (stands.loses (affects.table hmem) hbears)
    · exact (session_of_taken? h.next hgot).2 _ (Session.receive_reset _ h.sent hreset)
  case said =>
    intro hclosed
    rw [hid]
    rcases affects.localClosed hclosed with hclosed | hbears
    · exact (stands.said hclosed).imp h.bears_mono h.bears_mono
    · exact hbears
  case closed =>
    intro hbears
    rw [hid] at hbears
    rcases h.of_last hbears with hbears | ⟨q, hq, hqid, hlast⟩
    · rcases stands.closed hbears with hclosed | hfinishes
      · exact .inl (later.localClosed hclosed)
      · exact h.finishes hr hfinishes
    · obtain rfl := h.distinct q r hq (Nat.lt_of_lt_of_le hr h.onward.size) (hqid.trans hid.symm)
      exact hlast
  case heard =>
    intro hclosed
    rw [hid, bears_taken_append]
    exact (affects.remoteClosed hclosed).imp_left stands.heard
  case heeds =>
    intro hmem hbears
    rw [hid] at hbears
    rcases bears_taken_append.1 hbears with hbears | ⟨got, hgot, hlast⟩
    · exact later.remoteClosed (stands.heeds (affects.table hmem) hbears)
    · obtain ⟨hsession, -⟩ := session_of_taken? h.next hgot
      rw [hsession] at hmem hid ⊢
      exact Session.receive_last h.tidy h.sent hlast hmem hid
  case leaves =>
    intro hmem hclosed
    rcases affects.leaves hmem hclosed with hclosed | hleaves
    · rcases stands.leaves (affects.table hmem) hclosed with htask | hdelivers
      · exact .inl (h.reclaims hmem hclosed htask)
      · exact h.delivers hdelivers
    · exact hleaves
  case opened =>
    intro hlocal
    rw [hid] at hlocal ⊢
    exact (stands.opened hlocal).imp h.bears_mono h.bears_mono

theorem Stands.birth (h : Scene cap c past m e m') (hsize : m'.session.streams.size = m.session.streams.size + 1) :
    Stands c (past ++ [⟨m, e, m'⟩]) m' m.session.nextRef := by
  have newcomer := h.newcomer hsize
  have unsaid : ∀ {w : Word}, ¬(Bears (assured past m.session) w (m'.session.idOf m.session.nextRef) ∨
      Bears (taken past) w (m'.session.idOf m.session.nextRef)) := by
    rintro w (⟨got, hgot, hbears⟩ | ⟨got, hgot, hbears⟩)
    · exact h.unsaid hsize got (.inl hgot) (Received.streamId?_of_bears hbears)
    · exact h.unsaid hsize got (.inr hgot) (Received.streamId?_of_bears hbears)
  have hlt : m.session.nextRef.serial < m'.session.streams.size := hsize ▸ Nat.lt_succ_self _
  constructor
  case kept =>
    cases newcomer with
    | own mem => exact .inl mem
    | other mem => exact .inl mem
  case reset =>
    intro hreset
    cases newcomer with
    | own mem remoteClosed reset => cases reset.symm.trans hreset
    | other mem taken opening remote localClosed remoteClosed reset => cases reset.symm.trans hreset
  case holds =>
    intro hmem hbears
    rcases h.of_reset hbears with hbears | habandons
    · exact unsaid (.inl hbears)
    · exact Nat.succ_ne_self _ (hsize.symm.trans habandons.size)
  case loses =>
    intro hmem hbears
    rcases bears_taken_append.1 hbears with hbears | ⟨got, hgot, hreset⟩
    · exact absurd (.inr hbears) unsaid
    · exact (session_of_taken? h.next hgot).2 _ (Session.receive_reset _ h.sent hreset)
  case said =>
    intro hclosed
    cases newcomer with
    | own mem remoteClosed reset opens closes => exact closes hclosed
    | other mem taken opening remote localClosed => cases localClosed.symm.trans hclosed
  case closed =>
    intro hbears
    rcases h.of_last hbears with hbears | ⟨q, hq, hqid, hlast⟩
    · exact absurd (.inl hbears) unsaid
    · obtain rfl := h.distinct q m.session.nextRef hq hlt hqid
      exact hlast
  case heard =>
    intro hclosed
    cases newcomer with
    | own mem remoteClosed => cases remoteClosed.symm.trans hclosed
    | other mem taken opening remote localClosed remoteClosed =>
      refine bears_taken_append.2 (.inr ⟨_, taken, ?_⟩)
      have hcloses := remoteClosed.symm.trans hclosed
      simp [Received.bears, hcloses, (Received.reset?_of_opening? opening).2]
  case heeds =>
    intro hmem hbears
    rcases bears_taken_append.1 hbears with hbears | ⟨got, hgot, hlast⟩
    · exact absurd (.inr hbears) unsaid
    · obtain ⟨hsession, -⟩ := session_of_taken? h.next hgot
      rw [hsession] at hmem hlast ⊢
      exact Session.receive_last h.tidy h.sent hlast hmem rfl
  case leaves =>
    intro hmem hclosed
    cases newcomer with
    | own mem remoteClosed =>
      obtain ⟨-, hremote⟩ := Bool.and_eq_true_iff.1 hclosed
      cases remoteClosed.symm.trans hremote
    | other mem taken opening remote localClosed remoteClosed reset reclaims => exact .inl reclaims
  case opened =>
    intro hlocal
    cases newcomer with
    | own mem remoteClosed reset opens => exact opens
    | other mem taken opening remote => cases remote.symm.trans hlocal

end Step

/-! ## All streams -/

/-- What all streams have come to, and how what is received is answered. -/
structure Standing (c : Config) (past : List Moment) (m : Machine) : Prop where
  streams : ∀ r, r.serial < m.session.streams.size → Stands c past m r
  losing : ∀ id, .lose id ∈ m.tasks → Bears (taken past) .reset id
  answered : ∀ id, Bears (taken past) .fault id → Bears (assured past m.session) .reset id
  met : ∀ id, Bears (taken past) .opening id → ∃ r, r.serial < m.session.streams.size ∧ m.session.idOf r = id

section Run

variable {cap : Nat} {config : Config} {primary : Option Listener} {s : Session} {past : List Moment} {m m' : Machine}
  {e : Event}

theorem Standing.step {c : Config} (standing : Standing c past m) (h : Scene cap c past m e m') :
    Standing c (past ++ [⟨m, e, m'⟩]) m' := by
  constructor
  case streams =>
    intro r hr
    by_cases hold : r.serial < m.session.streams.size
    · exact (standing.streams r hold).step h hold standing.losing
    · have hsize : m'.session.streams.size = m.session.streams.size + 1 := by
        cases comes_of_befalls h.befalls with
        | none size => exact absurd (size ▸ hr) hold
        | own size => exact size
        | others size => exact size
      obtain rfl : r = m.session.nextRef := by
        have hserial : r.serial = m.session.streams.size := by omega
        cases r
        exact congrArg StreamRef.mk hserial
      exact .birth h hsize
  case losing =>
    intro id hmem
    rw [bears_taken_append]
    exact (lose_of_next? h.next hmem).imp_left (standing.losing id)
  case answered =>
    intro id hbears
    rcases bears_taken_append.1 hbears with hbears | ⟨got, hgot, hfault⟩
    · exact h.bears_mono (standing.answered id hbears)
    · cases got with
      | streamException e =>
        obtain rfl : e.streamId = id := by simpa [Received.bears] using hfault
        have hread := h.civil.read _ (Moment.taken?_mem hgot)
        obtain ⟨version, bytes, n, hencoded, hmem⟩ := @Session.receive_fault cap _ h.sent _ (status_of_isRead hread)
        rw [← (session_of_taken? h.next hgot).1] at hmem
        refine ⟨_, reading_mem_assured hmem hencoded, ?_⟩
        rw [ControlFrame.reading_of_reset, low31_of_isRead hread rfl]
        simp [Received.bears, Received.reset?]
      | _ => cases hfault
  case met =>
    intro id hbears
    rcases bears_taken_append.1 hbears with hbears | ⟨got, hgot, hopening⟩
    · obtain ⟨r, hr, hid⟩ := standing.met id hbears
      exact ⟨r, Nat.lt_of_lt_of_le hr h.onward.size, (h.idOf hr).trans hid⟩
    · obtain ⟨hvalid, hremote, -⟩ := h.civil.opens got (Moment.taken?_mem hgot) id
        (by simpa [Received.bears] using hopening)
      rw [(session_of_taken? h.next hgot).1]
      exact Session.receive_opening h.tidy h.sent hvalid (h.numbered.config ▸ hremote) hopening

end Run

end Spdy
