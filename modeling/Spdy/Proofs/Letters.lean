import Spdy.Proofs.Delivery
import Spdy.Proofs.Numbering
import Spdy.Proofs.RoundTrip

/-!
# What a session writes, as it will be read

A session hands one complete frame after another to its controller, and a reader reads each of them as a frame or as an
exception of a stream. The same goes for the frames that still wait.

* `ReadsAs` : bytes are one complete frame, which is read as something;
* `ControlFrame.reading` of frames of the session as a whole, of frames about a stream, of frames that give one up;
* `Parcel.Spelled`, `spelled_of_run` : the control frames that wait, by the streams that they speak for;
* `spoken`, `readsAs_of_handed` : what the frames are read as that were handed over;
* `Wording`, `wording_of_handed` : what it is that was handed over, whatever ids streams have;
* `frames_of_run`, `framing_of_run` : all bytes that were handed over, as complete frames;
* `Session.letters` : what the parcels that wait are going to be read as.
-/

namespace Spdy

/-! ## Single frames -/

def ReadsAs (bytes : Bytes) (got : Received) : Prop :=
  ∃ header payload, bytes = header ++ payload ∧ header.length = headerLength ∧
    payload.length = Bytes.toNat (header.drop 5) ∧ Received.ofFrame? header payload = some got

def Received.ofBytes? (bytes : Bytes) : Option Received :=
  ofFrame? (bytes.take headerLength) (bytes.drop headerLength)

theorem ReadsAs.ofBytes? {bytes : Bytes} {got : Received} (h : ReadsAs bytes got) :
    Received.ofBytes? bytes = some got := by
  obtain ⟨header, payload, rfl, hlength, -, hgot⟩ := h
  rw [Received.ofBytes?, ← hlength, List.take_left, List.drop_left, hgot]

theorem ReadsAs.isRead {bytes : Bytes} {got : Received} (h : ReadsAs bytes got) : got.IsRead := by
  obtain ⟨header, payload, -, -, -, hgot⟩ := h
  exact ⟨header, payload, hgot⟩

theorem ReadsAs.framing {bytes bs : Bytes} {got : Received} (h : ReadsAs bytes got) {frames : List (Bytes × Bytes)}
    (hbs : Framing bs frames []) : ∃ header payload, Received.ofFrame? header payload = some got ∧
      Framing (bs ++ bytes) (frames ++ [(header, payload)]) [] := by
  obtain ⟨header, payload, rfl, hlength, hpayload, hgot⟩ := h
  refine ⟨header, payload, hgot, hbs.append ?_⟩
  have hempty : Framing [] [] [] := .rest (.inl (by decide))
  have := Framing.frame hlength hpayload hempty
  rwa [List.append_nil] at this

theorem ControlFrame.Accepted.readsAs {f : ControlFrame} {bytes : Bytes} (h : f.Accepted bytes) :
    ReadsAs bytes f.reading :=
  ofFrame?_control h

theorem DataFrame.readsAs {f : DataFrame} (hlength : f.payload.length ≤ maxFrameLength)
    (hcount : f.length = .ofNat f.payload.length) (hid : f.streamId ≠ 0) (hlow : low31 f.streamId = f.streamId) :
    ReadsAs f.encode (.data f) := by
  have := ofFrame?_data hlength (by rwa [hlow])
  rwa [normal, hlow, ← hcount] at this

/-- A piece of data is read as it is, if its stream has a valid id. -/
theorem readsAs_of_chunk {cap : Nat} {id : UInt32} {window : Int} {payload rest : Payload} {frame : DataFrame}
    (chunk : payload.chunk (Encoder.clampCap cap) id window = (frame, rest)) (hid : id ≠ 0) (hlow : low31 id = id) :
    frame.streamId = id ∧ ReadsAs frame.encode (.data frame) := by
  have hcap := Encoder.clampCap_le_maxFrameLength cap
  have hlength := Payload.length_of_chunk chunk
  obtain ⟨rfl, -⟩ := Prod.mk.inj chunk
  exact ⟨rfl, DataFrame.readsAs (by omega) rfl hid hlow⟩

/-! ## What control frames are read as -/

namespace ControlFrame

variable {f : ControlFrame} {id : UInt32}

theorem reading_of_pairs_eq_nil (h : f.body.pairs = []) : f.reading = .control f.normal := by
  rw [reading, h]
  exact if_pos HeaderBlock.named_nil

theorem streamId?_normal (f : ControlFrame) : f.normal.body.streamId? = f.body.streamId?.map low31 := by
  obtain ⟨version, body⟩ := f
  cases body <;> rfl

theorem reading_of_streamId?_eq_none (h : f.body.streamId? = none) :
    f.reading = .control f.normal ∧ f.normal.body.streamId? = none := by
  refine ⟨reading_of_pairs_eq_nil ?_, by rw [streamId?_normal, h, Option.map_none]⟩
  generalize f.body = body at h
  cases body <;> first | rfl | cases h

theorem reading_of_reset (version : Version) (id status : UInt32) :
    reading ⟨version, .rstStream id status⟩ = .control ⟨version, .rstStream (low31 id) status⟩ :=
  reading_of_pairs_eq_nil rfl

/-- A frame about a stream is read as one about the same stream, if not as an exception of the stream. -/
theorem reading_of_head (h : f.body.streamId? = some id) (hid : id ≠ 0) (hlow : low31 id = id) :
    f.reading = .control f.normal ∧ f.normal.body.streamId? = some id ∨
      f.reading = .streamException ⟨id, .protocolError, .malformed f.type .emptyName⟩ := by
  unfold reading
  split
  · refine .inl ⟨rfl, ?_⟩
    rw [streamId?_normal, h, Option.map_some, hlow]
  · refine .inr ?_
    rw [h, Option.getD_some, emptyNameException, if_neg (by rwa [hlow]), hlow]

theorem opening?_normal (f : ControlFrame) (hopening : f.type ≠ .synStream) :
    (Received.control f.normal).opening? = none := by
  obtain ⟨version, body⟩ := f
  cases body with
  | synStream => exact absurd rfl hopening
  | _ => rfl

theorem closes_normal (f : ControlFrame) : f.normal.body.closes = f.body.closes := by
  obtain ⟨version, body⟩ := f
  cases body <;> rfl

theorem reset?_normal_of_isHead (h : f.body.isHead) : (Received.control f.normal).reset? = none := by
  obtain ⟨version, body⟩ := f
  cases body <;> first | rfl | cases h

end ControlFrame

/-! ## Frames that wait -/

/-- What a control frame is that waits: it speaks for a stream that it opens or on which it carries headers, or it
gives a stream up, or it is of the session as a whole. -/
def Parcel.Spelled (idOf : StreamRef → UInt32) : Parcel → Prop
  | .control type bytes none => ∃ f : ControlFrame, f.Accepted bytes ∧ f.type = type ∧
      (f.body.streamId? = none ∨ ∃ id status, f.body = .rstStream id status)
  | .control type bytes (some r) => ∃ f : ControlFrame, f.Accepted bytes ∧ f.type = type ∧ f.body.isHead ∧
      f.body.streamId? = some (idOf r)
  | .data .. => True

def Session.Spelled (s : Session) : Prop := ∀ q ∈ s.outbox.parcels, q.Spelled s.idOf

theorem Parcel.Spelled.of_idOf {idOf idOf' : StreamRef → UInt32} {q : Parcel} (h : q.Spelled idOf)
    (hid : ∀ r, q.stream? = some r → idOf' r = idOf r) : q.Spelled idOf' := by
  cases q with
  | control type bytes r =>
    cases r with
    | none => exact h
    | some r =>
      obtain ⟨f, haccepted, htype, hhead, hstream⟩ := h
      exact ⟨f, haccepted, htype, hhead, by rw [hid r rfl, hstream]⟩
  | data r payload written => trivial

section Spelled

variable {cap : Nat} {s : Session} {op : Option Operation} {task : Option Task} {p : Progress} {new : List Parcel}

theorem encodeReset_eq_ok {version : Version} {id : UInt32} {status : StreamStatus} {bytes : Bytes}
    (h : Session.encodeReset (.standard cap) version id status = .ok bytes) :
    ∃ n, ControlFrame.encode ⟨version, .rstStream id n⟩ = .ok bytes := by
  unfold Session.encodeReset at h
  split at h
  · cases h
  · exact ⟨_, h⟩

theorem spelled_of_deed (h : Deed (.standard cap) s op task p new) : ∀ q ∈ new, q.Spelled p.session.idOf := by
  have none_of_nil : ∀ q ∈ ([] : List Parcel), q.Spelled p.session.idOf := nofun
  cases h with
  | same same announces =>
    intro q hq
    obtain ⟨f, bytes, rfl, hencoded, hstream⟩ := announces q hq
    exact ⟨f, ControlFrame.accepted_of_encode hencoded, rfl, .inl hstream⟩
  | data known same =>
    intro q hq
    rw [List.mem_singleton.1 hq]
    trivial
  | @said r f bytes known isHead notOpening about encoded localOpen same =>
    intro q hq
    rw [List.mem_singleton.1 hq]
    refine ⟨f, ControlFrame.accepted_of_encode encoded, rfl, isHead, ?_⟩
    rw [about, show p.session.idOf r = s.idOf r from same.map_of_mark (·.id)]
  | @opened version opening listener bytes x asks bidirectional sent encoded hasId _ _ _ same =>
    intro q hq
    rw [List.mem_singleton.1 hq]
    refine ⟨_, ControlFrame.accepted_of_encode encoded, rfl, rfl, ?_⟩
    have hid : p.session.idOf s.nextRef = s.nextStreamId := by
      rw [same.idOf, ← hasId]
      exact congrArg Stream.id (Session.stream_register_nextRef _ _)
    rw [hid]
    rfl
  | unopened => exact none_of_nil
  | born => exact none_of_nil
  | heard => exact none_of_nil
  | quit cause encoded abandons =>
    intro q hq
    rw [List.mem_singleton.1 hq]
    obtain ⟨n, hn⟩ := encodeReset_eq_ok encoded
    exact ⟨_, ControlFrame.accepted_of_encode hn, rfl, .inr ⟨_, _, rfl⟩⟩
  | muffled => exact none_of_nil
  | lost => exact none_of_nil
  | reclaimed => exact none_of_nil

theorem Session.Onward.idOf_of_known {s t : Session} (h : s.Onward t) (known : s.Known) {q : Parcel}
    (hq : q ∈ s.outbox.parcels) (r : StreamRef) (hr : q.stream? = some r) : t.idOf r = s.idOf r :=
  (h.later r (known.waiting q hq r hr)).id

theorem Session.Spelled.step {mo : Moment} (h : mo.before.session.Spelled) (known : mo.before.session.Known)
    (befalls : Befalls cap mo) (passage : Passage cap mo) (onward : mo.before.session.Onward mo.after.session) :
    mo.after.session.Spelled := by
  have hold : ∀ q ∈ mo.before.session.outbox.parcels, q.Spelled mo.after.session.idOf :=
    fun q hq => (h q hq).of_idOf (onward.idOf_of_known known hq)
  -- nothing new waits but the rest of data
  have hfew : (∀ q ∈ mo.after.session.outbox.parcels, q ∈ mo.before.session.outbox.parcels) →
      mo.after.session.Spelled := fun hsub q hq => hold q (hsub q hq)
  cases passage with
  | @post new parcels outstanding said handed =>
    rcases befalls.posts parcels outstanding with rfl | ⟨p, deed, hsession⟩
    · exact hfew fun q hq => by rwa [parcels, List.append_nil] at hq
    · intro q hq
      rw [parcels, List.mem_append] at hq
      rcases hq with hq | hq
      · exact hold q hq
      · rw [hsession]
        exact spelled_of_deed deed q hq
  | drop parcels parcels' =>
    refine hfew fun q hq => ?_
    rw [parcels', List.mem_append] at hq
    rw [parcels, List.mem_append]
    exact hq.imp_right (List.mem_cons_of_mem _)
  | hand parcels parcels' =>
    refine hfew fun q hq => ?_
    rw [parcels', List.mem_append] at hq
    rw [parcels, List.mem_append]
    exact hq.imp_right (List.mem_cons_of_mem _)
  | written parcels => exact hfew fun q hq => parcels ▸ hq
  | stuck parcels => exact hfew fun q hq => parcels ▸ hq
  | more outstanding outstanding' parcel left parcels parcels' =>
    intro q hq
    rw [parcels', List.mem_append, List.mem_cons] at hq
    rcases hq with hq | rfl | hq
    · exact hold q (parcels ▸ List.mem_append_left _ hq)
    · rw [parcel]
      trivial
    · exact hold q (parcels ▸ List.mem_append_right _ hq)
  | failed fails parcels =>
    intro q hq
    rw [parcels] at hq
    cases hq
  | dropped drops parcels => exact hfew fun q hq => parcels ▸ hq

end Spelled

section Run

variable {cap : Nat} {config : Config} {primary : Option Listener} {s : Session} {past : List Moment}
  {m m' : Machine} {e : Event}

theorem passage_of_next? (hnew : Session.new config primary = .ok s)
    (run : Run (.standard cap) { session := s } past m) (h : m.next? (.standard cap) e = some m') :
    Passage cap ⟨m, e, m'⟩ :=
  passage_of_turn (turn_of_next? h (placed_of_run run)) (owed_le_of_new hnew run)

theorem spelled_of_run (hnew : Session.new config primary = .ok s)
    (run : Run (.standard cap) { session := s } past m) : m.session.Spelled := by
  induction run with
  | start =>
    obtain ⟨-, rfl⟩ := Session.new_eq_ok hnew
    exact nofun
  | next run h ih =>
    exact ih.step (known_of_run hnew run) (befalls_of_next? h (tidy_of_run hnew run)) (passage_of_next? hnew run h)
      (onward_of_next? run h)

end Run

/-! ## Frames that were handed over -/

def Moment.spoken? (mo : Moment) : Option Received := mo.handed?.bind fun f => Received.ofBytes? f.1

/-- What the frames are read as that were handed over, first the first. -/
def spoken (past : List Moment) : List Received := past.filterMap Moment.spoken?

theorem spoken_append (past : List Moment) (mo : Moment) :
    spoken (past ++ [mo]) = spoken past ++ mo.spoken?.toList := by
  rw [spoken, List.filterMap_append, ← spoken, List.filterMap_cons, List.filterMap_nil]
  cases mo.spoken? <;> rfl

theorem Parcel.Spelled.accepted {idOf : StreamRef → UInt32} {type : FrameType} {bytes : Bytes} {r : Option StreamRef}
    (h : (Parcel.control type bytes r).Spelled idOf) : ∃ f : ControlFrame, f.Accepted bytes ∧ f.type = type := by
  cases r with
  | none => exact h.imp fun _ hf => ⟨hf.1, hf.2.1⟩
  | some r => exact h.imp fun _ hf => ⟨hf.1, hf.2.1⟩

/-- What the bytes of a parcel that is handed over are: those of a control frame, or of a data frame. -/
inductive Wording (bytes : Bytes) : Parcel → Received → Prop
  | control {f : ControlFrame} {r : Option StreamRef} (accepted : f.Accepted bytes) :
      Wording bytes (.control f.type bytes r) f.reading
  | data {f : DataFrame} {r : StreamRef} {payload : Payload} {written : Nat} (encoded : bytes = f.encode) :
      Wording bytes (.data r payload written) f.reading

/-- A parcel that is handed over is one complete frame, whatever ids streams have. -/
theorem wording_of_framed {cap : Nat} {s : Session} {p q : Parcel} {bytes : Bytes} (h : Framed cap s p bytes q)
    (spelled : p.Spelled s.idOf) : ∃ got, ReadsAs bytes got ∧ Wording bytes q got := by
  cases h with
  | control type bytes r =>
    obtain ⟨f, haccepted, rfl⟩ := spelled.accepted
    exact ⟨f.reading, haccepted.readsAs, .control haccepted⟩
  | @data r payload written frame rest alive window chunk =>
    have hcap := Encoder.clampCap_le_maxFrameLength cap
    have hlength := Payload.length_of_chunk chunk
    exact ⟨frame.reading, ofFrame?_dataFrame (by omega), .data rfl⟩

/-- What a parcel that is handed over is read as, if streams have valid ids: a control frame as it was spelled, and data
as data. -/
theorem readsAs_of_framed {cap : Nat} {s : Session} {p q : Parcel} {bytes : Bytes} (h : Framed cap s p bytes q)
    (spelled : p.Spelled s.idOf) (known : ∀ r, p.stream? = some r → r.serial < s.streams.size) (sound : s.Sound) :
    ∃ got, ReadsAs bytes got ∧ got.isFatal = false := by
  cases h with
  | control type bytes r =>
    cases r with
    | none =>
      obtain ⟨f, haccepted, -, hkind⟩ := spelled
      refine ⟨f.reading, haccepted.readsAs, ?_⟩
      rcases hkind with hstream | ⟨id, status, hbody⟩
      · rw [(ControlFrame.reading_of_streamId?_eq_none hstream).1]
        rfl
      · rw [ControlFrame.reading_of_pairs_eq_nil (by rw [hbody]; rfl)]
        rfl
    | some r =>
      obtain ⟨f, haccepted, -, hhead, hstream⟩ := spelled
      refine ⟨f.reading, haccepted.readsAs, ?_⟩
      obtain ⟨hne, hlow⟩ := sound r (known r rfl)
      rcases ControlFrame.reading_of_head hstream hne hlow with ⟨heq, -⟩ | heq <;> rw [heq] <;> rfl
  | @data r payload written frame rest alive window chunk =>
    obtain ⟨hne, hlow⟩ := sound r (known r rfl)
    exact ⟨.data frame, (readsAs_of_chunk chunk hne hlow).2, rfl⟩

section Handed

variable {cap : Nat} {config : Config} {primary : Option Listener} {s : Session} {past : List Moment}
  {m m' : Machine} {e : Event}

theorem Moment.written_of_none {mo : Moment} (h : mo.handed? = none) : mo.written = [] := by
  rw [written, h]

theorem Moment.spoken?_of_none {mo : Moment} (h : mo.handed? = none) : mo.spoken? = none := by
  rw [spoken?, h]
  rfl

/-- What is handed over is a complete frame, which does not end the session that reads it. -/
theorem readsAs_of_handed (hnew : Session.new config primary = .ok s)
    (run : Run (.standard cap) { session := s } past m) (h : m.next? (.standard cap) e = some m')
    (sound : m.session.Sound) {bytes : Bytes} {x : Handler} (handed : Moment.handed? ⟨m, e, m'⟩ = some (bytes, x)) :
    ∃ got, ReadsAs bytes got ∧ got.isFatal = false := by
  obtain ⟨p, hp, framed⟩ := (handing_of_turn (turn_of_next? h (placed_of_run run)) handed).framed
  exact readsAs_of_framed framed (spelled_of_run hnew run p hp) ((known_of_run hnew run).waiting p hp) sound

theorem wording_of_handed (hnew : Session.new config primary = .ok s)
    (run : Run (.standard cap) { session := s } past m) (h : m.next? (.standard cap) e = some m') {bytes : Bytes}
    {x : Handler} (handed : Moment.handed? ⟨m, e, m'⟩ = some (bytes, x)) :
    ∃ got, ReadsAs bytes got ∧ Wording bytes x.parcel got := by
  obtain ⟨p, hp, framed⟩ := (handing_of_turn (turn_of_next? h (placed_of_run run)) handed).framed
  exact wording_of_framed framed (spelled_of_run hnew run p hp)

theorem Moment.spoken?_of_handed {mo : Moment} {bytes : Bytes} {x : Handler} {got : Received}
    (handed : mo.handed? = some (bytes, x)) (reads : ReadsAs bytes got) : mo.spoken? = some got := by
  rw [spoken?, handed]
  exact reads.ofBytes?

/-- All that a session hands over is complete frames. -/
theorem frames_of_run (hnew : Session.new config primary = .ok s)
    (run : Run (.standard cap) { session := s } past m) :
    ∃ frames, Framing (written past) frames [] ∧
      frames.map (fun f => Received.ofFrame? f.1 f.2) = (spoken past).map some := by
  induction run with
  | start => exact ⟨[], .rest (.inl (by decide)), rfl⟩
  | @next past m m' e run h ih =>
    obtain ⟨frames, hframing, hmap⟩ := ih
    rw [written_append, spoken_append]
    cases hhanded : Moment.handed? ⟨m, e, m'⟩ with
    | none =>
      rw [Moment.written_of_none hhanded, Moment.spoken?_of_none hhanded, List.append_nil]
      exact ⟨frames, hframing, by simpa using hmap⟩
    | some f =>
      obtain ⟨bytes, x⟩ := f
      obtain ⟨got, hreads, -⟩ := wording_of_handed hnew run h hhanded
      obtain ⟨header, payload, hgot, hmore⟩ := hreads.framing hframing
      have hwritten : Moment.written ⟨m, e, m'⟩ = bytes := by rw [Moment.written, hhanded]
      rw [hwritten, Moment.spoken?_of_handed hhanded hreads]
      refine ⟨frames ++ [(header, payload)], hmore, ?_⟩
      rw [List.map_append, List.map_append, hmap]
      simp [hgot]

/-- None of the frames that a session hands over ends the session that reads them, as long as streams have valid ids. -/
theorem calm_of_run (hnew : Session.new config primary = .ok s)
    (run : Run (.standard cap) { session := s } past m) (hfew : Few past)
    (hread : ∀ got ∈ taken past, got.IsRead) : ∀ got ∈ spoken past, got.IsRead ∧ got.isFatal = false := by
  induction run with
  | start => exact nofun
  | @next past m m' e run h ih =>
    have hread' : ∀ got ∈ taken past, got.IsRead := by
      intro got hgot
      rw [taken_append] at hread
      exact hread got (List.mem_append_left _ hgot)
    obtain ⟨hconfig, -⟩ := Session.new_eq_ok hnew
    have sound := (numbered_of_run hnew run hfew.of_append).sound hconfig hfew.of_append hread'
    rw [spoken_append]
    intro got hgot
    rcases List.mem_append.1 hgot with hgot | hgot
    · exact ih hfew.of_append hread' got hgot
    · cases hhanded : Moment.handed? ⟨m, e, m'⟩ with
      | none =>
        rw [Moment.spoken?_of_none hhanded] at hgot
        cases hgot
      | some f =>
        obtain ⟨bytes, x⟩ := f
        obtain ⟨got', hreads, hfatal⟩ := readsAs_of_handed hnew run h sound hhanded
        rw [Moment.spoken?_of_handed hhanded hreads, Option.toList_some, List.mem_singleton] at hgot
        rw [hgot]
        exact ⟨hreads.isRead, hfatal⟩

/-- All that a session hands over is complete frames, none of which ends the session that reads them. -/
theorem framing_of_run (hnew : Session.new config primary = .ok s)
    (run : Run (.standard cap) { session := s } past m) (hfew : Few past)
    (hread : ∀ got ∈ taken past, got.IsRead) :
    ∃ frames, Framing (written past) frames [] ∧
      frames.map (fun f => Received.ofFrame? f.1 f.2) = (spoken past).map some ∧
      ∀ got ∈ spoken past, got.IsRead ∧ got.isFatal = false := by
  obtain ⟨frames, hframing, hmap⟩ := frames_of_run hnew run
  exact ⟨frames, hframing, hmap, calm_of_run hnew run hfew hread⟩

end Handed

/-! ## Frames to come -/

namespace Parcel

def dataLetter (id : UInt32) (payload : Payload) : Received :=
  .data ⟨id, Flag.when payload.close Flag.fin, .ofNat payload.bytes.length, payload.bytes⟩

/-- What a parcel is going to be read as, if its data goes into one frame. -/
def letter? (idOf : StreamRef → UInt32) : Parcel → Option Received
  | .control _ bytes _ => Received.ofBytes? bytes
  | .data r payload _ => some (dataLetter (idOf r) payload)

/-- What the rest of a parcel is going to be read as, of which a frame has been handed over. -/
def rest? (idOf : StreamRef → UInt32) : Parcel → Option Received
  | .control .. => none
  | .data r payload _ => if payload.bytes = [] then none else some (dataLetter (idOf r) payload)

theorem letter?_congr {idOf idOf' : StreamRef → UInt32} {q : Parcel}
    (h : ∀ r, q.stream? = some r → idOf' r = idOf r) : q.letter? idOf' = q.letter? idOf := by
  cases q with
  | control => rfl
  | data r payload written => rw [letter?, letter?, h r rfl]

theorem rest?_congr {idOf idOf' : StreamRef → UInt32} {q : Parcel}
    (h : ∀ r, q.stream? = some r → idOf' r = idOf r) : q.rest? idOf' = q.rest? idOf := by
  cases q with
  | control => rfl
  | data r payload written => rw [rest?, rest?, h r rfl]

end Parcel

namespace Session

/-- What is going to be read of the parcel that is being written and of those that wait. -/
def letters (s : Session) : List Received :=
  s.outstanding.filterMap (·.parcel.rest? s.idOf) ++ s.outbox.parcels.filterMap (·.letter? s.idOf)

end Session

end Spdy
