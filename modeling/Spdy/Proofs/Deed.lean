import Mathlib.Data.List.Nodup
import Spdy.Proofs.Pair
import Spdy.Proofs.Tidings

/-!
# What work does to streams

A piece of work opens a stream, says something on one, hears something on one, or takes one out of the table; or it has
to do with windows and with the session as a whole only.

* `Stream.still`, `Session.Same` : streams apart from their windows, and a session in which nothing else moved;
* `Session.Sheds` : all streams of an id go out of the table;
* `Announces`, `Quits` : control frames of the session as a whole, and why a stream is given up;
* `Deed` : what a piece of work does to the streams, and what it posts for it;
* `Session.begin_does`, `Session.perform_does` : what operations and tasks do;
* `Moment.allots?` : the id that is used up for a stream of this side;
* `Befalls`, `befalls_of_next?` : what a moment does to the streams.
-/

namespace Spdy

/-! ## Streams apart from their windows -/

def Stream.still (x : Stream) : Stream := { x with window := 0 }

/-- Whatever of a stream has nothing to do with its window is told by the rest. -/
theorem Stream.map_of_still {α : Type} (g : Stream → α) {x y : Stream} (h : x.still = y.still)
    (hg : ∀ z : Stream, g z.still = g z := by intro z; rfl) : g x = g y := by
  rw [← hg x, h, hg]

theorem Stream.still_of_credit {x y : Stream} {delta : Int} (h : x.credit delta = .ok y) : y.still = x.still := by
  rw [(Stream.credit_eq_ok h).1]
  rfl

namespace Session

/-- Of the streams nothing but windows changed. -/
structure Same (s t : Session) : Prop where
  table : t.table = s.table
  size : t.streams.size = s.streams.size
  still : ∀ r, (t.stream r).still = (s.stream r).still
  nextStreamId : t.nextStreamId = s.nextStreamId
  config : t.config = s.config

namespace Same

variable {s t u : Session}

theorem refl (s : Session) : Same s s := ⟨rfl, rfl, fun _ => rfl, rfl, rfl⟩

theorem trans (h : Same s t) (h' : Same t u) : Same s u where
  table := h'.table.trans h.table
  size := h'.size.trans h.size
  still := fun r => (h'.still r).trans (h.still r)
  nextStreamId := h'.nextStreamId.trans h.nextStreamId
  config := h'.config.trans h.config

theorem of_streams (hstreams : t.streams = s.streams) (htable : t.table = s.table)
    (hnext : t.nextStreamId = s.nextStreamId) (hconfig : t.config = s.config) : Same s t where
  table := htable
  size := by rw [hstreams]
  still := fun r => by rw [stream, hstreams, ← stream]
  nextStreamId := hnext
  config := hconfig

theorem update (s : Session) (r : StreamRef) {f : Stream → Stream}
    (hf : (f (s.stream r)).still = (s.stream r).still) : Same s (s.update r f) where
  table := rfl
  size := size_update s r f
  still := fun q => s.map_stream_update Stream.still r q hf
  nextStreamId := rfl
  config := rfl

theorem enqueue (s : Session) (q : Parcel) : Same s (s.enqueue q) := of_streams rfl rfl rfl rfl

/-- A stream that closes on this side does so whatever its window is. -/
theorem closeLocal (h : Same s t) (r : StreamRef) : Same (s.closeLocal r) (t.closeLocal r) where
  table := h.table
  size := by rw [Session.closeLocal, size_update, Session.closeLocal, size_update, h.size]
  still := fun q => by
    have hq := h.still q
    rw [Session.closeLocal, Session.closeLocal, stream_update, stream_update, h.size]
    split
    · next hr =>
      rw [hr.1] at hq
      exact congrArg (fun x : Stream => { x with localClosed := true }) hq
    · exact hq
  nextStreamId := h.nextStreamId
  config := h.config

theorem map {α : Type} (g : Stream → α) (h : Same s t) (r : StreamRef)
    (hg : ∀ z : Stream, g z.still = g z := by intro z; rfl) : g (t.stream r) = g (s.stream r) :=
  Stream.map_of_still g (h.still r) hg

theorem idOf (h : Same s t) (r : StreamRef) : t.idOf r = s.idOf r := h.map (·.id) r

/-! ### One stream may be marked -/

variable {b : Bool} {r q : StreamRef} {f : Stream → Stream}

theorem table_of_mark (h : Same (if b then s.update r f else s) t) : t.table = s.table := by
  rw [h.table]
  cases b <;> rfl

theorem size_of_mark (h : Same (if b then s.update r f else s) t) : t.streams.size = s.streams.size := by
  rw [h.size]
  cases b with
  | false => rfl
  | true => exact size_update s r f

theorem nextStreamId_of_mark (h : Same (if b then s.update r f else s) t) : t.nextStreamId = s.nextStreamId := by
  rw [h.nextStreamId]
  cases b <;> rfl

theorem config_of_mark (h : Same (if b then s.update r f else s) t) : t.config = s.config := by
  rw [h.config]
  cases b <;> rfl

theorem still_of_mark (h : Same (if b then s.update r f else s) t) (hq : b → q ≠ r) :
    (t.stream q).still = (s.stream q).still := by
  rw [h.still]
  cases b with
  | false => rfl
  | true => exact congrArg Stream.still (stream_update_of_ne f (hq rfl))

theorem map_of_mark {α : Type} (g : Stream → α) (h : Same (if b then s.update r f else s) t)
    (hf : ∀ x, g (f x) = g x := by intro x; rfl) (hg : ∀ z : Stream, g z.still = g z := by intro z; rfl) :
    g (t.stream q) = g (s.stream q) := by
  rw [h.map g q hg]
  cases b with
  | false => rfl
  | true => exact s.map_stream_update g r q (hf _)

end Same

/-- All streams of an id go out of the table. -/
structure Sheds (s t : Session) (id : UInt32) : Prop where
  table : t.table = s.table.filter (s.idOf · != id)
  size : t.streams.size = s.streams.size
  nextStreamId : t.nextStreamId = s.nextStreamId
  config : t.config = s.config

/-- All streams of an id go out of the table, given up. -/
structure Abandons (s t : Session) (id : UInt32) : Prop extends Sheds s t id where
  others : ∀ r, r ∉ s.table ∨ s.idOf r ≠ id → (t.stream r).still = (s.stream r).still
  given : ∀ r ∈ s.table, s.idOf r = id → (t.stream r).still = { s.stream r with reset := true }.still

theorem Abandons.map {α : Type} (g : Stream → α) {s t : Session} {id : UInt32} (h : s.Abandons t id) (r : StreamRef)
    (hf : ∀ x : Stream, g { x with reset := true } = g x := by intro x; rfl)
    (hg : ∀ z : Stream, g z.still = g z := by intro z; rfl) : g (t.stream r) = g (s.stream r) := by
  by_cases hr : r ∈ s.table ∧ s.idOf r = id
  · exact (Stream.map_of_still g (h.given r hr.1 hr.2) hg).trans (hf _)
  · exact Stream.map_of_still g (h.others r (not_and_or.1 hr)) hg

end Session

/-! ## What work does -/

def Announces (enc : Encoder) (q : Parcel) : Prop :=
  ∃ (f : ControlFrame) (bytes : Bytes), q = .control f.type bytes none ∧ enc.control f = .ok bytes ∧
    f.body.streamId? = none

namespace Received

/-- The stream that a frame or an exception is about. -/
def streamId? : Received → Option UInt32
  | control f => f.body.streamId?
  | data f => some f.streamId
  | streamException e => some e.streamId
  | sessionException _ => none

def opening? : Received → Option UInt32
  | control ⟨_, .synStream _ id ..⟩ => some id
  | _ => none

/-- Whether a frame is the last thing its sender says on the stream. -/
def closes : Received → Bool
  | control f => f.body.closes
  | data f => f.closes
  | streamException _ | sessionException _ => false

def reset? : Received → Option UInt32
  | control ⟨_, .rstStream id _⟩ => some id
  | _ => none

end Received

/-- Why a stream is given up: the application asks for it, something is wrong with what is heard of the stream, or the
session has come to it. -/
inductive Quits (op : Option Operation) (task : Option Task) (version : Version) (id : UInt32)
    (status : StreamStatus) : Prop
  | asked (h : op = some (.reset version id status))
  | heard {got : Received} (h : op = some (.receive got)) (about : got.streamId? = some id)
      (status : status = .protocolError ∨ status = .invalidStream ∨
        ∃ e, got = .streamException e ∧ status = e.status)
  | due (h : task = some (.reset version id status))

/-- What a piece of work does to the streams, and what it posts for it. -/
inductive Deed (enc : Encoder) (s : Session) (op : Option Operation) (task : Option Task) (p : Progress) :
    List Parcel → Prop
  | same {new : List Parcel} (same : s.Same p.session) (announces : ∀ q ∈ new, Announces enc q) :
      Deed enc s op task p new
  | data {r : StreamRef} {payload : Payload} (known : r.serial < s.streams.size) (same : s.Same p.session) :
      Deed enc s op task p [.data r payload 0]
  | said {r : StreamRef} {f : ControlFrame} {bytes : Bytes} (known : r.serial < s.streams.size)
      (isHead : f.body.isHead) (notOpening : f.type ≠ .synStream) (about : f.body.streamId? = some (s.idOf r))
      (encoded : enc.control f = .ok bytes) (localOpen : (s.stream r).localClosed = false)
      (same : (if f.body.closes then s.closeLocal r else s).Same p.session) :
      Deed enc s op task p [.control f.type bytes (some r)]
  | opened {version : Version} {opening : Opening} {listener : Option Listener} {bytes : Bytes} {x : Stream}
      (asks : op = some (.syn version opening listener)) (bidirectional : opening.unidirectional = false)
      (sent : s.goAwaySent = false)
      (encoded : enc.control ⟨version, .synStream opening.flags s.nextStreamId opening.associatedId
        opening.priority opening.headers⟩ = .ok bytes)
      (hasId : x.id = s.nextStreamId) (localClosed : x.localClosed = opening.close)
      (remoteClosed : x.remoteClosed = false) (reset : x.reset = false)
      (same : ({ s with nextStreamId := s.nextStreamId + 2 }.register x).Same p.session) :
      Deed enc s op task p [.control .synStream bytes (some s.nextRef)]
  | unopened {version : Version} {opening : Opening} {listener : Option Listener}
      (asks : op = some (.syn version opening listener)) (bidirectional : opening.unidirectional = false)
      (sent : s.goAwaySent = false)
      (same : ({ s with nextStreamId := s.nextStreamId + 2 }.forget s.nextStreamId).Same p.session) :
      Deed enc s op task p []
  | born {version : Version} {flags : UInt8} {id associatedId : UInt32} {priority : UInt8} {headers : Headers}
      {opening : Opening} {x : Stream}
      (asks : op = some (.receive (.control ⟨version, .synStream flags id associatedId priority headers⟩)))
      (sent : s.goAwaySent = false) (valid : id ≠ 0) (remote : s.config.isLocal id = false)
      (absent : s.find? id = none) (hasId : x.id = id)
      (localClosed : x.localClosed = Flag.has flags Flag.unidirectional)
      (remoteClosed : x.remoteClosed = Flag.has flags Flag.fin) (reset : x.reset = false)
      (same : (s.register x).Same p.session)
      (todo : p.todo = [.tell s.streamListeners (.created s.nextRef), .accept s.nextRef opening, .flush,
        .reclaim s.nextRef]) : Deed enc s op task p []
  | heard {got : Received} {r : StreamRef} (asks : op = some (.receive got))
      (about : got.streamId? = some (s.idOf r)) (mem : r ∈ s.table)
      (same : (if got.closes then s.closeRemote r else s).Same p.session) (reclaims : .reclaim r ∈ p.todo) :
      Deed enc s op task p []
  | quit {version : Version} {id : UInt32} {status : StreamStatus} {bytes : Bytes}
      (cause : Quits op task version id status) (encoded : Session.encodeReset enc version id status = .ok bytes)
      (abandons : s.Abandons p.session id) : Deed enc s op task p [.control .rstStream bytes none]
  | muffled {version : Version} {id : UInt32} {status : StreamStatus} {refusal : Refusal}
      (cause : Quits op task version id status) (refused : Session.encodeReset enc version id status = .error refusal)
      (abandons : s.Abandons p.session id) : Deed enc s op task p []
  | lost {id : UInt32} (does : task = some (.lose id)) (abandons : s.Abandons p.session id) :
      Deed enc s op task p []
  | reclaimed {r : StreamRef} (does : task = some (.reclaim r)) (closed : (s.stream r).isClosed)
      (sheds : s.Sheds p.session (s.idOf r)) (still : ∀ q, (p.session.stream q).still = (s.stream q).still) :
      Deed enc s op task p []

/-- What a piece of work does to the streams; it posts at the end of the outbox. -/
def Does (enc : Encoder) (s : Session) (op : Option Operation) (task : Option Task) (p : Progress) : Prop :=
  ∃ new, p.session.outbox.parcels = s.outbox.parcels ++ new ∧ Deed enc s op task p new

namespace Does

variable {enc : Encoder} {s : Session} {op : Option Operation} {task : Option Task} {p : Progress}

theorem of_same (h : s.Same p.session) (houtbox : p.session.outbox = s.outbox) : Does enc s op task p :=
  ⟨[], by rw [houtbox, List.append_nil], .same h fun _ hq => absurd hq List.not_mem_nil⟩

theorem of_eq (h : Does enc s op task p) {q : Progress} (hs : q.session = p.session) (ht : q.todo = p.todo) :
    Does enc s op task q := by
  obtain ⟨new, parcels, deed⟩ := h
  refine ⟨new, hs ▸ parcels, ?_⟩
  cases deed with
  | same same announces => exact .same (hs ▸ same) announces
  | data known same => exact .data known (hs ▸ same)
  | said known isHead notOpening id encoded localOpen same =>
    exact .said known isHead notOpening id encoded localOpen (hs ▸ same)
  | opened op bidirectional sent encoded id localClosed remoteClosed reset same =>
    exact .opened op bidirectional sent encoded id localClosed remoteClosed reset (hs ▸ same)
  | unopened op bidirectional sent same => exact .unopened op bidirectional sent (hs ▸ same)
  | born op sent valid remote absent id localClosed remoteClosed reset same todo =>
    exact .born op sent valid remote absent id localClosed remoteClosed reset (hs ▸ same) (ht.trans todo)
  | heard op about mem same reclaims => exact .heard op about mem (hs ▸ same) (ht ▸ reclaims)
  | quit cause encoded abandons => exact .quit cause encoded (hs ▸ abandons)
  | muffled cause refused abandons => exact .muffled cause refused (hs ▸ abandons)
  | lost task abandons => exact .lost task (hs ▸ abandons)
  | reclaimed task closed sheds still => exact .reclaimed task closed (hs ▸ sheds) (hs ▸ still)

end Does

namespace Session

variable (enc : Encoder) (s : Session) {op : Option Operation} {task : Option Task}

/-! ## The ends of a stream -/

theorem filter_of_find?_eq_none {s : Session} {id : UInt32} (h : s.find? id = none) :
    s.table.filter (s.idOf · != id) = s.table := by
  rw [List.filter_eq_self]
  intro r hr
  have := List.find?_eq_none.1 h r hr
  simpa using this

theorem remove_sheds (r : StreamRef) :
    s.Sheds (s.remove r).session (s.idOf r) ∧ ∀ q, (s.remove r).session.stream q = s.stream q := by
  have h := s.remove_cases r
  generalize s.remove r = p at h
  cases h with
  | gone => exact ⟨⟨rfl, rfl, rfl, rfl⟩, fun _ => rfl⟩
  | absent absent => exact ⟨⟨(filter_of_find?_eq_none absent).symm, rfl, rfl, rfl⟩, fun _ => rfl⟩

theorem remove_outbox (r : StreamRef) : (s.remove r).session.outbox = s.outbox := (Calm.remove s r).outbox

theorem find?_of_mem {s : Session} (tidy : s.Tidy) {r : StreamRef} (hr : r ∈ s.table) :
    s.find? (s.idOf r) = some r := by
  cases hfind : s.find? (s.idOf r) with
  | none => exact absurd (List.find?_eq_none.1 hfind r hr) (by simp)
  | some x =>
    have hid : s.idOf x = s.idOf r := by simpa using List.find?_some hfind
    rw [List.inj_on_of_nodup_map tidy.nodup (List.mem_of_find?_eq_some hfind) hr hid]

/-- Giving up the stream that has an id gives up all that have it. -/
theorem abandons_remove {s : Session} (tidy : s.Tidy) {id : UInt32} {r : StreamRef} (hfind : s.find? id = some r) :
    s.Abandons ((s.markReset r).remove r).session id := by
  have hmem : r ∈ s.table := List.mem_of_find?_eq_some hfind
  have hid : s.idOf r = id := by simpa using List.find?_some hfind
  obtain ⟨sheds, hstream⟩ := (s.markReset r).remove_sheds r
  rw [s.idOf_markReset, hid] at sheds
  have hmark : (s.markReset r).stream r = { s.stream r with reset := true } :=
    stream_update_self _ (tidy.known r hmem)
  refine ⟨⟨sheds.table.trans ?_, ?_, sheds.nextStreamId, sheds.config⟩, ?_, ?_⟩
  · rw [s.idOf_markReset]
    rfl
  · rw [sheds.size, markReset, size_update]
  · intro q hq
    have hne : q ≠ r := by
      rintro rfl
      exact hq.elim (fun h => h hmem) (fun h => h hid)
    rw [hstream, markReset, stream_update_of_ne _ hne]
  · intro q hq hqid
    obtain rfl : q = r := List.inj_on_of_nodup_map tidy.nodup hq hmem (hqid.trans hid.symm)
    rw [hstream, hmark]

theorem abandons_of_find?_eq_none {s : Session} {id : UInt32} (hfind : s.find? id = none) : s.Abandons s id where
  table := (filter_of_find?_eq_none hfind).symm
  size := rfl
  nextStreamId := rfl
  config := rfl
  others := fun _ _ => rfl
  given := by
    intro r hr hid
    have := List.find?_eq_none.1 hfind r hr
    simp [hid] at this

theorem giveUp_abandons (tidy : s.Tidy) (id : UInt32) (notes : List Note) :
    s.Abandons (s.giveUp id notes).session id := by
  unfold giveUp
  split
  · next hfind => exact abandons_of_find?_eq_none hfind
  · next hfind => exact abandons_remove tidy hfind

theorem giveUp_outbox (id : UInt32) (notes : List Note) : (s.giveUp id notes).session.outbox = s.outbox := by
  unfold giveUp
  split
  · rfl
  · exact remove_outbox _ _

/-- What waits to be sent has nothing to do with giving a stream up. -/
theorem Abandons.of_post {t : Session} {id : UInt32} {new : List Parcel} (h : (s.post new).Abandons t id) :
    s.Abandons t id :=
  ⟨⟨h.table, h.size, h.nextStreamId, h.config⟩, h.others, h.given⟩

theorem reset_does (tidy : s.Tidy) {version : Version} {id : UInt32} {status : StreamStatus}
    (cause : Quits op task version id status) : Does enc s op task (s.reset enc version id status) := by
  rw [reset_eq]
  split
  · exact .of_same (.refl s) rfl
  · split
    · next bytes hencoded =>
      refine ⟨[.control .rstStream bytes none], ?_, .quit cause hencoded ?_⟩
      · rw [giveUp_outbox]
        rfl
      · exact (giveUp_abandons (s.post _) ⟨tidy.known, tidy.nodup⟩ id []).of_post
    · next refusal hrefused =>
      refine ⟨[], ?_, .muffled cause hrefused (s.giveUp_abandons tidy id _)⟩
      rw [giveUp_outbox, List.append_nil]

/-! ## Tasks -/

/-- What a task does to the streams, unless it concerns the writes in progress. -/
theorem perform_does (tidy : s.Tidy) {task : Task} (hplain : task.isPlain) (hflush : task ≠ .flush)
    (hcall : task.isCall = false) : Does enc s none (some task) (s.perform enc task) := by
  cases task with
  | call c => cases hcall
  | flush => exact absurd rfl hflush
  | endWrite seq => cases hplain
  | release => cases hplain
  | tell listeners notice => cases listeners <;> exact .of_same (.refl s) rfl
  | announce notice => exact .of_same (.refl s) rfl
  | tellRegistered notice => exact .of_same (.refl s) rfl
  | reset version id status => exact s.reset_does enc tidy (.due rfl)
  | lose id =>
    simp only [perform]
    split
    · exact .of_same (.refl s) rfl
    · next hfind =>
      refine ⟨[], ?_, .lost rfl (abandons_remove tidy hfind)⟩
      rw [remove_outbox, List.append_nil]
      rfl
  | overflow r error => exact .of_same (.refl s) rfl
  | reclaim r =>
    simp only [perform]
    split
    · next hclosed =>
      obtain ⟨sheds, hstream⟩ := s.remove_sheds r
      refine ⟨[], ?_, .reclaimed rfl hclosed sheds fun q => by rw [hstream]⟩
      rw [remove_outbox, List.append_nil]
    · exact .of_same (.refl s) rfl
  | accept r opening => exact .of_same (.refl s) rfl

/-! ## Requests of the application -/

theorem beginSyn_does (version : Version) (opening : Opening) (listener : Option Listener) :
    Does enc s (some (.syn version opening listener)) task (s.beginSyn enc version opening listener).toProgress := by
  unfold beginSyn
  by_cases huni : opening.unidirectional
  · rw [if_pos huni]
    exact .of_same (.refl s) rfl
  · rw [if_neg huni]
    by_cases hsent : s.goAwaySent
    · rw [if_pos hsent]
      exact .of_same (.refl s) rfl
    · rw [if_neg hsent]
      rw [Bool.not_eq_true] at huni hsent
      dsimp only
      split
      · exact ⟨[], (List.append_nil _).symm, .unopened rfl huni hsent (.refl _)⟩
      · next bytes hencoded =>
        exact ⟨[.control .synStream bytes (some s.nextRef)], rfl,
          .opened rfl huni hsent hencoded rfl rfl rfl rfl (.enqueue _ _)⟩

theorem beginFrame_does {t : Session} (h : s.Same t) (houtbox : t.outbox = s.outbox) {f : ControlFrame}
    (hf : f.body.streamId? = none) (outcome : Outcome) :
    Does enc s op task (t.beginFrame enc f outcome).toProgress := by
  unfold beginFrame
  split
  · exact .of_same h houtbox
  · next bytes hencoded =>
    refine ⟨[.control f.type bytes none], ?_, .same (h.trans (.of_streams rfl rfl rfl rfl)) ?_⟩
    · rw [← houtbox]
      rfl
    · intro q hq
      exact ⟨f, bytes, List.mem_singleton.1 hq, hencoded, hf⟩

theorem beginPing_does (version : Version) : Does enc s op task (s.beginPing enc version).toProgress :=
  s.beginFrame_does enc (t := { s with nextPingId := s.nextPingId + 2 }) (.of_streams rfl rfl rfl rfl) rfl
    (f := ⟨version, .ping s.nextPingId⟩) rfl _

theorem announceEnd_same (version : Version) (status : SessionStatus) :
    ∃ new, (s.announceEnd enc version status).1.session.outbox.parcels = s.outbox.parcels ++ new ∧
      s.Same (s.announceEnd enc version status).1.session ∧ ∀ q ∈ new, Announces enc q := by
  unfold announceEnd
  by_cases hsent : s.goAwaySent
  · rw [if_pos hsent]
    exact ⟨[], (List.append_nil _).symm, .refl s, nofun⟩
  · rw [if_neg hsent]
    dsimp only
    split
    · exact ⟨[], (List.append_nil _).symm, .of_streams rfl rfl rfl rfl, nofun⟩
    · split
      · exact ⟨[], (List.append_nil _).symm, .of_streams rfl rfl rfl rfl, nofun⟩
      · next bytes hencoded =>
        refine ⟨[.control .goAway bytes none], rfl, .of_streams rfl rfl rfl rfl, ?_⟩
        intro q hq
        exact ⟨⟨version, .goAway s.lastStreamId (UInt32.ofNat status.code)⟩, bytes, List.mem_singleton.1 hq, hencoded,
          rfl⟩

theorem beginGoAway_does (version : Version) : Does enc s op task (s.beginGoAway enc version).toProgress := by
  obtain ⟨new, parcels, same, announces⟩ := s.announceEnd_same enc version .ok
  exact ⟨new, parcels, .same same announces⟩

theorem beginOnStream_does (alive : Bool) {r : StreamRef} {body : Body} (known : r.serial < s.streams.size)
    (hhead : body.isHead) (hopening : body.type ≠ .synStream) (hid : body.streamId? = some (s.idOf r)) :
    Does enc s op task (s.beginOnStream enc alive r body).toProgress := by
  unfold beginOnStream
  dsimp only
  by_cases hclosed : (s.stream r).localClosed
  · rw [if_pos hclosed]
    exact .of_same (.refl s) rfl
  · rw [if_neg hclosed]
    rw [Bool.not_eq_true] at hclosed
    by_cases halive : !alive
    · rw [if_pos halive]
      exact .of_same (.refl s) rfl
    · rw [if_neg halive]
      split
      · exact .of_same (.refl s) rfl
      · next bytes hencoded =>
        refine ⟨[.control body.type bytes (some r)], ?_,
          .said (f := ⟨(s.stream r).version, body⟩) known hhead hopening hid hencoded hclosed ?_⟩
        · split <;> rfl
        · exact .of_streams rfl rfl rfl rfl

theorem beginData_does (alive : Bool) {r : StreamRef} (known : r.serial < s.streams.size) (payload : Payload) :
    Does enc s op task (s.beginData alive r payload).toProgress := by
  unfold beginData
  dsimp only
  by_cases hclosed : (s.stream r).localClosed
  · rw [if_pos hclosed]
    exact .of_same (.refl s) rfl
  · rw [if_neg hclosed]
    by_cases halive : !alive
    · rw [if_pos halive]
      exact .of_same (.refl s) rfl
    · rw [if_neg halive]
      exact ⟨[.data r payload 0], rfl, .data known (.of_streams rfl rfl rfl rfl)⟩

/-! ## What the reader read -/

theorem receiveOn_does {got : Received} {r : StreamRef} (hmem : r ∈ s.table)
    (about : got.streamId? = some (s.idOf r)) (notice : Notice) :
    Does enc s (some (.receive got)) task (s.receiveOn r got.closes notice) := by
  refine ⟨[], ?_, .heard rfl about hmem (.refl _) ?_⟩
  · unfold receiveOn
    dsimp only
    split <;> exact (List.append_nil _).symm
  · simp [receiveOn]

theorem receiveHead_does (tidy : s.Tidy) {got : Received} (version : Version) {id : UInt32} {head : Head}
    (about : got.streamId? = some id) (hclose : head.close = got.closes) (notice : StreamRef → Head → Notice) :
    Does enc s (some (.receive got)) task (s.receiveHead enc version id head notice) := by
  unfold receiveHead
  split
  · exact s.reset_does enc tidy (.heard rfl about (.inl rfl))
  · next r hfind =>
    have hid : s.idOf r = id := by simpa using List.find?_some hfind
    rw [hclose]
    exact s.receiveOn_does enc (List.mem_of_find?_eq_some hfind) (about.trans (by rw [hid])) _

theorem receiveSyn_does (tidy : s.Tidy) (sent : s.goAwaySent = false) (version : Version) (flags : UInt8)
    (id associatedId : UInt32) (priority : UInt8) (headers : Headers) {opening : Opening}
    (hclose : opening.close = Flag.has flags Flag.fin)
    (huni : opening.unidirectional = Flag.has flags Flag.unidirectional) :
    Does enc s (some (.receive (.control ⟨version, .synStream flags id associatedId priority headers⟩))) task
      (s.receiveSyn enc version id opening) := by
  unfold receiveSyn
  by_cases hid : id = 0 ∨ s.config.isLocal id
  · rw [if_pos hid]
    exact s.reset_does enc tidy (.heard rfl rfl (.inl rfl))
  · rw [if_neg hid]
    rw [not_or, Bool.not_eq_true] at hid
    split
    · exact s.reset_does enc tidy (.heard rfl rfl (.inl rfl))
    · next hfind =>
      exact ⟨[], (List.append_nil _).symm,
        .born rfl sent hid.1 hid.2 hfind rfl huni hclose rfl (.refl _) rfl⟩

theorem shiftWindow_same (delta : Int) (p : Session × List (StreamRef × Error)) (r : StreamRef) :
    p.1.Same (shiftWindow delta p r).1 := by
  unfold shiftWindow
  split
  · next hcredit => exact .update _ r (Stream.still_of_credit hcredit)
  · exact .refl _

theorem shiftWindows_same (delta : Int) : s.Same (s.shiftWindows delta).1 := by
  rw [shiftWindows_eq]
  suffices h : ∀ (l : List StreamRef) (p : Session × List (StreamRef × Error)),
      p.1.Same (l.foldl (shiftWindow delta) p).1 from h s.table (s, [])
  intro l
  induction l with
  | nil => exact fun p => .refl _
  | cons r l ih => exact fun p => (shiftWindow_same delta p r).trans (ih _)

theorem receiveSettings_same (message : SettingsMessage) : s.Same (s.receiveSettings message).session := by
  unfold receiveSettings
  dsimp only
  split
  · exact .refl s
  · split
    · exact .of_streams rfl rfl rfl rfl
    · next n _ _ =>
      have h : s.Same { s with initialWindow := min (n.toNat : Int) Stream.maxWindow } := .of_streams rfl rfl rfl rfl
      exact h.trans (shiftWindows_same _ _)

theorem receiveSettings_outbox (message : SettingsMessage) :
    (s.receiveSettings message).session.outbox = s.outbox :=
  (receiveSettings_moves s message).session.outbox

theorem receivePing_does (version : Version) (id : UInt32) : Does enc s op task (s.receivePing enc version id) := by
  unfold receivePing
  split
  · exact .of_same (.refl s) rfl
  · split
    · next bytes hencoded =>
      refine ⟨[.control .ping bytes none], rfl, .same (.of_streams rfl rfl rfl rfl) ?_⟩
      intro q hq
      exact ⟨⟨version, .ping id⟩, bytes, List.mem_singleton.1 hq, hencoded, rfl⟩
    · exact .of_same (.refl s) rfl

theorem receiveGoAway_does (last code : UInt32) : Does enc s op task (s.receiveGoAway last code) := by
  unfold receiveGoAway
  split
  · exact .of_same (.refl s) rfl
  · exact .of_same (.of_streams rfl rfl rfl rfl) rfl

theorem receiveWindow_does (id delta : UInt32) : Does enc s op task (s.receiveWindow id delta) := by
  unfold receiveWindow
  split
  · exact .of_same (.refl s) rfl
  · split
    · next hcredit => exact .of_same (.update s _ (Stream.still_of_credit hcredit)) rfl
    · exact .of_same (.refl s) rfl

theorem receiveControl_does (tidy : s.Tidy) (sent : s.goAwaySent = false) (f : ControlFrame) :
    Does enc s (some (.receive (.control f))) task (s.receiveControl enc f) := by
  obtain ⟨version, body⟩ := f
  cases body with
  | synStream flags id associatedId priority headers => exact s.receiveSyn_does enc tidy sent _ _ _ _ _ _ rfl rfl
  | synReply flags id headers => exact s.receiveHead_does enc tidy _ rfl rfl _
  | rstStream id code => exact .of_same (.refl s) rfl
  | settings flags entries => exact .of_same (s.receiveSettings_same _) (s.receiveSettings_outbox _)
  | noop => exact .of_same (.refl s) rfl
  | ping id => exact s.receivePing_does enc version id
  | goAway last code => exact s.receiveGoAway_does enc last code
  | headers flags id headers => exact s.receiveHead_does enc tidy _ rfl rfl _
  | windowUpdate id delta => exact s.receiveWindow_does enc id delta

theorem receiveData_does (tidy : s.Tidy) (f : DataFrame) :
    Does enc s (some (.receive (.data f))) task (s.receiveData enc f) := by
  unfold receiveData
  split
  · exact s.reset_does enc tidy (.heard rfl rfl (.inr (.inl rfl)))
  · next r hfind =>
    have hid : s.idOf r = f.streamId := by simpa using List.find?_some hfind
    have about : (Received.data f).streamId? = some (s.idOf r) := by
      rw [hid]
      rfl
    exact s.receiveOn_does enc (List.mem_of_find?_eq_some hfind) about _

theorem receiveSessionException_does (e : SessionException) :
    Does enc s op task (s.receiveSessionException enc e) := by
  unfold receiveSessionException
  split
  · exact .of_same (.refl s) rfl
  · obtain ⟨new, parcels, same, announces⟩ := s.announceEnd_same enc s.config.version e.status
    split
    · next heq =>
      rw [heq] at parcels same
      exact ⟨new, parcels, .same same announces⟩
    · next heq =>
      rw [heq] at parcels same
      exact ⟨new, parcels, .same same announces⟩

theorem receive_does (tidy : s.Tidy) (got : Received) :
    Does enc s (some (.receive got)) task (s.receive enc got) := by
  cases got with
  | control f =>
    rw [receive]
    split
    · exact .of_same (.refl s) rfl
    · next hsent => exact s.receiveControl_does enc tidy (Bool.not_eq_true _ ▸ hsent) f
  | data f =>
    rw [receive]
    split
    · exact .of_same (.refl s) rfl
    · exact s.receiveData_does enc tidy f
  | streamException e =>
    exact (s.reset_does enc tidy (.heard rfl rfl (.inr (.inr ⟨e, rfl, rfl⟩)))).of_eq rfl rfl
  | sessionException e => exact s.receiveSessionException_does enc e

/-! ## All operations -/

/-- What an operation does to the streams, unless it reports a write. -/
theorem begin_does (tidy : s.Tidy) (alive : Bool) {op : Operation} (hop : op.isReport = false)
    (possible : op.isPossible s) : Does enc s (some op) task (s.begin enc alive op).toProgress := by
  cases op with
  | syn version opening listener => exact s.beginSyn_does enc version opening listener
  | reset version id status => exact (s.reset_does enc tidy (.asked rfl)).of_eq rfl rfl
  | settings version m => exact s.beginFrame_does enc (.refl s) rfl rfl _
  | ping version => exact s.beginPing_does enc version
  | goAway version => exact s.beginGoAway_does enc version
  | reply r h => exact s.beginOnStream_does enc alive (by simpa [Operation.isPossible] using possible) rfl nofun rfl
  | headers r h => exact s.beginOnStream_does enc alive (by simpa [Operation.isPossible] using possible) rfl nofun rfl
  | data r payload => exact s.beginData_does enc alive (by simpa [Operation.isPossible] using possible) payload
  | sessionData r payload => exact s.beginData_does enc true (by simpa [Operation.isPossible] using possible) payload
  | receive got => exact (s.receive_does enc tidy got).of_eq rfl rfl
  | complete seq => cases hop
  | fail seq fault => cases hop

end Session

/-! ## Moments -/

namespace Moment

def task? (mo : Moment) : Option Task :=
  match mo.event with
  | .tick => mo.before.stack.head?.bind (·.todo.head?)
  | _ => none

/-- The id that is used up for a stream of this side, even if none comes of it. -/
def allots? (mo : Moment) : Option UInt32 :=
  match mo.op? with
  | some (.syn version opening listener) => (Operation.syn version opening listener).opens? mo.before.session
  | _ => none

end Moment

def Moment.PostsNothing (mo : Moment) : Prop :=
  ∀ new, mo.after.session.outbox.parcels = mo.before.session.outbox.parcels ++ new →
    mo.after.session.outstanding = mo.before.session.outstanding → new = []

theorem Moment.postsNothing_of_length_le {mo : Moment}
    (h : mo.after.session.outbox.parcels.length ≤ mo.before.session.outbox.parcels.length) : mo.PostsNothing := by
  intro new hnew _
  rw [hnew, List.length_append] at h
  exact List.eq_nil_of_length_eq_zero (by omega)

theorem Moment.postsNothing_of_same {mo : Moment}
    (h : mo.after.session.outbox.parcels = mo.before.session.outbox.parcels) : mo.PostsNothing :=
  postsNothing_of_length_le (by rw [h])

/-- The ids that were used up for streams of this side. -/
def allotted (past : List Moment) : List UInt32 := past.filterMap Moment.allots?

/-- Nothing is received, no id is used up, and nothing is posted. -/
structure Moment.Unasked (mo : Moment) : Prop where
  taken : mo.taken? = none
  allots : mo.allots? = none
  posts : mo.PostsNothing

/-- What a moment does to the streams. -/
inductive Befalls (cap : Nat) (mo : Moment) : Prop
  | work {p : Progress} {new : List Parcel} (deed : Deed (.standard cap) mo.before.session mo.op? mo.task? p new)
      (session : mo.after.session = p.session)
      (parcels : mo.after.session.outbox.parcels = mo.before.session.outbox.parcels ++ new)
      (todo : ∀ x ∈ p.todo, x ∈ mo.after.tasks)
  | still (same : mo.before.session.Same mo.after.session) (unasked : mo.Unasked)
  | answered {r : StreamRef} {reply : Option Listener} {opening : Opening} {listener : Listener}
      (waits : .call (.tell listener (.opened r opening)) ∈ mo.before.tasks)
      (same : (mo.before.session.update r fun x => { x with listener := reply }).Same mo.after.session)
      (unasked : mo.Unasked)
  | wrote {h : Handler} (mem : h ∈ mo.before.session.outstanding)
      (same : mo.before.session.Same mo.after.session)
      (reclaims : ∀ type bytes r, h.parcel = .control type bytes (some r) → .reclaim r ∈ mo.after.tasks)
      (unasked : mo.Unasked)
  | closed {h : Handler} {r : StreamRef} {payload : Payload} {written : Nat}
      (mem : h ∈ mo.before.session.outstanding) (parcel : h.parcel = .data r payload written)
      (empty : payload.bytes = []) (close : payload.close)
      (same : (mo.before.session.closeLocal r).Same mo.after.session) (reclaims : .reclaim r ∈ mo.after.tasks)
      (unasked : mo.Unasked)

theorem same_of_flush {cap : Nat} {s : Session} {p : Progress} (h : Flushed cap s p) :
    s.Same p.session ∧ p.session.outbox.parcels.length ≤ s.outbox.parcels.length := by
  cases h with
  | idle => exact ⟨.refl s, Nat.le_refl _⟩
  | drop free parcels reset =>
    refine ⟨.of_streams rfl rfl rfl rfl, ?_⟩
    rw [parcels]
    simp [Session.holding]
  | hand free parcels blocked framed =>
    refine ⟨.of_streams rfl rfl rfl rfl, ?_⟩
    rw [parcels]
    simp [Session.handing]

/-- A report of a write closes a stream if that was the last of it. -/
theorem befalls_of_complete {cap : Nat} {m m' : Machine} {h : Handler} (hmem : h ∈ m.session.outstanding)
    {p : Progress} (hp : p = (m.session.dropHandler h.seq).wrote h.parcel) (hsession : m'.session = p.session)
    (htasks : m'.tasks = p.todo ++ m.tasks) : Befalls cap ⟨m, .invoke (.complete h.seq), m'⟩ := by
  have hdrop : m.session.Same (m.session.dropHandler h.seq) := .of_streams rfl rfl rfl rfl
  have htodo : ∀ x ∈ p.todo, x ∈ m'.tasks := fun x hx => htasks ▸ List.mem_append_left _ hx
  have hwrote := wrote_cases (m.session.dropHandler h.seq) h.parcel
  rw [← hp] at hwrote
  -- the handler is used up, which does not happen where something is posted
  have hunasked : Moment.Unasked ⟨m, .invoke (.complete h.seq), m'⟩ := by
    refine ⟨rfl, rfl, fun new _ hout => ?_⟩
    have hkept : m.session.outstanding = m.session.outstanding.filter (·.seq != h.seq) :=
      calc m.session.outstanding = m'.session.outstanding := hout.symm
        _ = p.session.outstanding := by rw [hsession]
        _ = _ := hwrote.outstanding
    have hmem' := hmem
    rw [hkept, List.mem_filter] at hmem'
    simp at hmem'
  cases hparcel : h.parcel with
  | control type bytes r =>
    rw [hparcel] at hp
    refine .wrote hmem (hsession ▸ hp ▸ hdrop) ?_ hunasked
    intro type' bytes' r' heq
    rw [hparcel] at heq
    obtain ⟨rfl, rfl, rfl⟩ := Parcel.control.inj heq
    refine htodo _ ?_
    rw [hp]
    simp [Session.wrote]
  | data r payload written =>
    rw [hparcel] at hwrote
    have hnever : ∀ type bytes q, h.parcel = .control type bytes (some q) → .reclaim q ∈ m'.tasks := by
      intro type bytes q heq
      rw [hparcel] at heq
      cases heq
    cases hwrote with
    | stuck credit => exact .wrote hmem (hsession ▸ hdrop) hnever hunasked
    | @done _ _ _ x credit empty =>
      have hcredit := hdrop.trans (.update _ r (f := fun _ => x) (Stream.still_of_credit credit))
      by_cases hclose : payload.close
      · refine .closed hmem hparcel empty hclose ?_ (htodo _ List.mem_cons_self) hunasked
        rw [hsession]
        simp only [hclose, if_true]
        exact hcredit.closeLocal r
      · refine .wrote hmem ?_ hnever hunasked
        rw [hsession]
        simp only [hclose, Bool.false_eq_true, if_false]
        exact hcredit
    | @more _ _ _ x before after credit left parcels clear =>
      refine .wrote hmem ?_ hnever hunasked
      rw [hsession]
      exact (hdrop.trans (.update _ r (f := fun _ => x) (Stream.still_of_credit credit))).trans
        (.of_streams rfl rfl rfl rfl)

theorem befalls_of_invoke {cap : Nat} {m : Machine} (tidy : m.session.Tidy) {op : Operation}
    (possible : op.isPossible m.session) : Befalls cap ⟨m, .invoke op, (m.invoke (.standard cap) op).1⟩ := by
  have htasks := m.tasks_invoke (.standard cap) op
  cases hr : op.isReport with
  | false =>
    have does : Does (.standard cap) m.session (some op) none
        (m.session.begin (.standard cap) m.isAlive op).toProgress :=
      m.session.begin_does (.standard cap) tidy m.isAlive hr possible
    obtain ⟨new, parcels, deed⟩ := does
    exact .work deed rfl parcels fun x hx => htasks ▸ List.mem_append_left _ hx
  | true =>
    cases op with
    | complete seq =>
      obtain ⟨h, hmem, rfl, heq⟩ := Session.report_of_possible Session.wrote possible
      refine befalls_of_complete hmem rfl ?_ ?_
      · exact congrArg Progress.session heq
      · rw [htasks, ← heq]
        rfl
    | fail seq fault =>
      obtain ⟨h, -, rfl, heq⟩ := Session.report_of_possible (fun s p => s.notWritten p fault) possible
      have hsession : (m.invoke (.standard cap) (.fail h.seq fault)).1.session =
          ((m.session.dropHandler h.seq).notWritten h.parcel fault).session := by
        show (m.session.begin (.standard cap) m.isAlive (.fail h.seq fault)).session = _
        rw [Session.begin, heq]
      refine .still ?_ ⟨rfl, rfl, Moment.postsNothing_of_length_le ?_⟩
      · rw [hsession]
        exact .of_streams rfl rfl rfl rfl
      · rw [hsession]
        exact Nat.zero_le _
    | _ => cases hr

theorem befalls_of_tick {cap : Nat} {m m' : Machine} (tidy : m.session.Tidy) {task : Task} {rest : List Task}
    {outcome : Outcome} {below : List Activation} (stack : m.stack = ⟨task :: rest, outcome⟩ :: below)
    (notCall : task.isCall = false)
    (hm' : m' = ⟨(m.session.perform (.standard cap) task).session,
      ⟨(m.session.perform (.standard cap) task).todo ++ rest, outcome⟩ :: below⟩) :
    Befalls cap ⟨m, .tick, m'⟩ := by
  have htask : Moment.task? ⟨m, .tick, m'⟩ = some task := by simp [Moment.task?, stack]
  have hsession : m'.session = (m.session.perform (.standard cap) task).session := by rw [hm']
  have hplain : task.isPlain → task ≠ .flush → Befalls cap ⟨m, .tick, m'⟩ := by
    intro hp hf
    obtain ⟨new, parcels, deed⟩ := m.session.perform_does (.standard cap) tidy hp hf notCall
    refine .work (htask ▸ deed) hsession (hsession ▸ parcels) fun x hx => ?_
    rw [hm', Machine.tasks_of_stack rfl]
    exact List.mem_append_left _ (List.mem_append_left _ hx)
  -- tasks that settle who writes next do not concern the streams
  have hstill : m.session.Same m'.session → m'.session.outbox.parcels.length ≤ m.session.outbox.parcels.length →
      Befalls cap ⟨m, .tick, m'⟩ :=
    fun hsame hlen => .still hsame ⟨rfl, rfl, Moment.postsNothing_of_length_le hlen⟩
  cases task with
  | call c => cases notCall
  | flush =>
    have hflush := same_of_flush (flush_cases cap m.session)
    exact hstill (hsession ▸ hflush.1) (hsession ▸ hflush.2)
  | endWrite seq =>
    refine hstill (hsession ▸ .of_streams rfl rfl rfl rfl) ?_
    rw [hsession]
    exact Nat.le_of_eq (congrArg List.length (Outbox.parcels_endWrite _ seq))
  | release =>
    refine hstill (hsession ▸ .of_streams rfl rfl rfl rfl) ?_
    rw [hsession]
    exact Nat.le_of_eq (congrArg List.length (Outbox.parcels_complete _))
  | _ => exact hplain rfl (by simp)

theorem befalls_of_returned {cap : Nat} {m m' : Machine} {e : Event} {c : Call} {reply : Option Listener}
    {rest : List Task} {outcome : Outcome} {below : List Activation}
    (stack : m.stack = ⟨.call c :: rest, outcome⟩ :: below) (hm' : m'.session = Machine.accept m.session c reply)
    (htaken : Moment.taken? ⟨m, e, m'⟩ = none) (hallots : Moment.allots? ⟨m, e, m'⟩ = none) :
    Befalls cap ⟨m, e, m'⟩ := by
  have hmem : .call c ∈ m.tasks := by
    rw [Machine.tasks_of_stack stack]
    exact List.mem_cons_self
  have hunasked : Moment.Unasked ⟨m, e, m'⟩ := by
    refine ⟨htaken, hallots, Moment.postsNothing_of_same ?_⟩
    rw [hm']
    exact congrArg Outbox.parcels (Calm.accept m.session c reply).outbox
  unfold Machine.accept at hm'
  split at hm'
  · next listener r opening =>
    have hsame : (m.session.update r fun x => { x with listener := reply }).Same m'.session := by
      rw [hm']
      exact .refl _
    exact .answered hmem hsame hunasked
  · refine .still ?_ hunasked
    rw [hm']
    exact .refl _

theorem befalls_of_next? {cap : Nat} {m m' : Machine} {e : Event} (h : m.next? (.standard cap) e = some m')
    (tidy : m.session.Tidy) : Befalls cap ⟨m, e, m'⟩ := by
  cases Machine.happens_of_next? h with
  | invoke op yields possible => exact befalls_of_invoke tidy possible
  | tick stack notCall => exact befalls_of_tick tidy stack notCall rfl
  | answer reply stack => exact befalls_of_returned stack rfl rfl rfl
  | caught p stack tell => exact befalls_of_returned stack rfl rfl rfl
  | broken p stack notTell => exact .still (.refl _) ⟨rfl, rfl, Moment.postsNothing_of_same rfl⟩
  | leave stack => exact .still (.refl _) ⟨rfl, rfl, Moment.postsNothing_of_same rfl⟩
  | edit e yields =>
    cases e <;> exact .still (.of_streams rfl rfl rfl rfl) ⟨rfl, rfl, Moment.postsNothing_of_same rfl⟩
  | drop seq yields => exact .still (.of_streams rfl rfl rfl rfl) ⟨rfl, rfl, Moment.postsNothing_of_same rfl⟩

/-- What is posted is posted for what work does to the streams. -/
theorem Befalls.posts {cap : Nat} {mo : Moment} {new : List Parcel} (h : Befalls cap mo)
    (parcels : mo.after.session.outbox.parcels = mo.before.session.outbox.parcels ++ new)
    (outstanding : mo.after.session.outstanding = mo.before.session.outstanding) :
    new = [] ∨ ∃ p, Deed (.standard cap) mo.before.session mo.op? mo.task? p new ∧ mo.after.session = p.session := by
  cases h with
  | work deed session parcels' =>
    rw [parcels] at parcels'
    obtain rfl := List.append_cancel_left parcels'
    exact .inr ⟨_, deed, session⟩
  | still same unasked => exact .inl (unasked.posts new parcels outstanding)
  | answered waits same unasked => exact .inl (unasked.posts new parcels outstanding)
  | wrote mem same reclaims unasked => exact .inl (unasked.posts new parcels outstanding)
  | closed mem parcel empty close same reclaims unasked => exact .inl (unasked.posts new parcels outstanding)

end Spdy
