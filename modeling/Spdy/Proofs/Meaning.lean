import Spdy.Proofs.Pieces
import Spdy.Proofs.Recognition

/-!
# What a complete frame amounts to

A reader tells of a complete frame what the grammar says, and goes on with the bytes after it: a frame that is
malformed takes no byte of the next one.

* `WireFrame.NamesStream` : a payload tells a stream although it may be malformed;
* `WireFrame.Means` : what is to be told of a frame, one clause for each way in which a frame may be made;
* `WireFrame.means_ofFrame?` : the reading of a frame is what it means;
* `Reader.events`, `Reader.fails` : what a new reader makes of some bytes;
* `WireFrame.told_by_grammar` : a frame with any bytes after it.
-/

namespace Spdy

namespace WireFrame

/-- A payload is about a stream, though it may be malformed: the type begins with a stream id, the payload is long
enough to hold it, and the id is not 0. -/
def NamesStream (t : FrameType) (payload : Bytes) (id : UInt32) : Prop :=
  t ∈ [FrameType.synStream, .synReply, .rstStream, .headers, .windowUpdate] ∧
    ∃ front rest, payload = front ++ rest ∧ front.length = 4 ∧ id = front.id31 ∧ id ≠ 0

/-- What is to be told of a frame, and whether the session ends with it: data on no stream (`stray`), data, a control
frame of a foreign version whatever its type, one of an unknown type, one that begins with a well-formed body, and a
malformed one that tells its stream or does not. -/
structure Means (w : WireFrame) (told : List Received) (failed : Bool) : Prop where
  stray : ¬ w.IsControl → w.streamId = 0 →
    told = [.sessionException ⟨.protocolError, .dataOnStreamZero⟩] ∧ failed = true
  data : ¬ w.IsControl → w.streamId ≠ 0 → ∃ length : UInt32, length.toNat = w.length.toNat ∧
    told = [.data ⟨w.streamId, w.flags, length, w.payload⟩] ∧ failed = false
  foreign : w.IsControl → (∀ v : Version, v.code ≠ w.versionCode) →
    told = [.sessionException ⟨.protocolError, .unsupportedVersion w.versionCode⟩] ∧ failed = true
  unknown : w.IsControl → (∃ v : Version, v.code = w.versionCode) → (∀ t : FrameType, t.code ≠ w.typeCode) →
    told = [] ∧ failed = false
  wellFormed : ∀ (v : Version) (t : FrameType) (b : Body), w.IsControl → v.code = w.versionCode →
    t.code = w.typeCode → Body.Begins v w.flags t w.payload b → told = [.control ⟨v, b⟩] ∧ failed = false
  ofStream : ∀ (v : Version) (t : FrameType) (id : UInt32), w.IsControl → v.code = w.versionCode →
    t.code = w.typeCode → (∀ b, ¬ Body.Begins v w.flags t w.payload b) → NamesStream t w.payload id →
    ∃ fault, told = [.streamException ⟨id, .protocolError, .malformed t fault⟩] ∧ failed = false
  ofSession : ∀ (v : Version) (t : FrameType), w.IsControl → v.code = w.versionCode → t.code = w.typeCode →
    (∀ b, ¬ Body.Begins v w.flags t w.payload b) → (∀ id, ¬ NamesStream t w.payload id) →
    ∃ fault, told = [.sessionException ⟨.protocolError, .malformed t fault⟩] ∧ failed = true

/-! ## The reading of a frame -/

section Reading

variable {w : WireFrame}

theorem isControl_iff (w : WireFrame) : w.IsControl ↔ ¬ w.header.octet 0 < 0x80 := by
  obtain ⟨lead, flags, length, payload, hlead, -, -⟩ := w
  match lead, hlead with
  | [a, b, c, d], _ =>
    show 2 ^ 31 ≤ Bytes.toNat [a, b, c, d] ↔ ¬ a < 0x80
    have ha := a.toNat_lt
    have hb := b.toNat_lt
    have hc := c.toNat_lt
    have hd := d.toNat_lt
    have hvalue : Bytes.toNat [a, b, c, d] =
        ((a.toNat * 256 + b.toNat) * 256 + c.toNat) * 256 + d.toNat := by simp [Bytes.toNat]
    have hfirst : (0x80 : UInt8).toNat = 128 := rfl
    rw [hvalue, UInt8.lt_iff_toNat_lt, hfirst]
    omega

theorem fields_header (w : WireFrame) : w.header.take 4 = w.lead ∧ w.header.octet 4 = w.flags ∧
    w.header.drop 5 = w.length ∧ w.header.take 2 = w.lead.take 2 ∧ (w.header.drop 2).take 2 = w.lead.drop 2 := by
  obtain ⟨lead, flags, length, payload, hlead, -, -⟩ := w
  match lead, hlead with
  | [a, b, c, d], _ => exact ⟨rfl, rfl, rfl, rfl, rfl⟩

theorem toNat_length (w : WireFrame) : (UInt32.ofNat w.length.toNat).toNat = w.length.toNat := by
  have hlt : w.length.toNat < Nat.pow 256 3 := w.length_length ▸ Bytes.toNat_lt w.length
  rw [UInt32.toNat_ofNat', Nat.mod_eq_of_lt (Nat.lt_trans hlt (by decide))]

theorem ofFrame?_of_data (h : ¬ w.IsControl) : Received.ofFrame? w.header w.payload =
    some (if w.streamId = 0 then .sessionException ⟨.protocolError, .dataOnStreamZero⟩
      else .data ⟨w.streamId, w.flags, .ofNat w.length.toNat, w.payload⟩) := by
  obtain ⟨hlead, hflags, hlength, -, -⟩ := w.fields_header
  rw [isControl_iff, Decidable.not_not] at h
  rw [Received.ofFrame?, if_pos h, Received.ofData, hlead, hflags, hlength, low31_word w.length_lead, streamId]

theorem ofFrame?_of_control (h : w.IsControl) : Received.ofFrame? w.header w.payload =
    match Version.ofCode? w.versionCode with
    | none => some (.sessionException ⟨.protocolError, .unsupportedVersion w.versionCode⟩)
    | some v => (FrameType.ofCode? w.typeCode).map fun t =>
      match decodeBody v w.flags t w.payload with
      | .ok (b, _) => .control ⟨v, b⟩
      | .error fault => .malformed t w.payload fault := by
  obtain ⟨-, hflags, -, hversion, htype⟩ := w.fields_header
  rw [Received.ofFrame?, if_neg ((isControl_iff w).1 h), Received.ofControl?, hflags, hversion, htype]
  rfl

theorem ofFrame?_of_known {v : Version} {t : FrameType} (h : w.IsControl) (hv : v.code = w.versionCode)
    (ht : t.code = w.typeCode) : Received.ofFrame? w.header w.payload =
      some (match decodeBody v w.flags t w.payload with
        | .ok (b, _) => .control ⟨v, b⟩
        | .error fault => .malformed t w.payload fault) := by
  rw [ofFrame?_of_control h, Version.ofCode?_eq_some_iff.2 hv, FrameType.ofCode?_eq_some_iff.2 ht]
  rfl

theorem decodeBody_of_begins {v : Version} {flags : UInt8} {t : FrameType} {payload : Bytes} {b : Body}
    (h : Body.Begins v flags t payload b) : ∃ rest, decodeBody v flags t payload = .ok (b, rest) := by
  obtain ⟨front, rest, rfl, hb⟩ := h
  exact ⟨rest, (Body.obeys_decodeBody v flags t _ _ _).2 ⟨front, rfl, hb⟩⟩

theorem begins_of_decodeBody {v : Version} {flags : UInt8} {t : FrameType} {payload rest : Bytes} {b : Body}
    (h : decodeBody v flags t payload = .ok (b, rest)) : Body.Begins v flags t payload b := by
  obtain ⟨front, hpayload, hb⟩ := (Body.obeys_decodeBody v flags t _ _ _).1 h
  exact ⟨front, rest, hpayload, hb⟩

theorem decodeBody_of_not_begins {v : Version} {flags : UInt8} {t : FrameType} {payload : Bytes}
    (h : ∀ b, ¬ Body.Begins v flags t payload b) : ∃ fault, decodeBody v flags t payload = .error fault := by
  cases hd : decodeBody v flags t payload with
  | error fault => exact ⟨fault, rfl⟩
  | ok p => exact absurd (begins_of_decodeBody hd) (h p.1)

theorem culprit?_eq_some_iff {t : FrameType} {payload : Bytes} {id : UInt32} :
    Received.culprit? t payload = some id ↔ NamesStream t payload id := by
  have hscoped : Received.isStreamScoped t = true ↔
      t ∈ [FrameType.synStream, .synReply, .rstStream, .headers, .windowUpdate] := by cases t <;> decide
  rw [Received.culprit?, NamesStream, ← hscoped]
  constructor
  · intro h
    split at h
    · next hguard =>
      obtain rfl := Option.some.inj h
      simp only [Bool.and_eq_true, decide_eq_true_eq, bne_iff_ne, ne_eq, List.length_take] at hguard
      obtain ⟨⟨ht, hlen⟩, hid⟩ := hguard
      have hfront : (payload.take 4).length = 4 := by
        rw [List.length_take]
        omega
      exact ⟨ht, _, _, (List.take_append_drop 4 payload).symm, hfront, low31_word hfront, hid⟩
    · cases h
  · rintro ⟨ht, front, rest, rfl, hfront, rfl, hid⟩
    have htake : (front ++ rest).take 4 = front := by rw [← hfront, List.take_left]
    rw [htake, low31_word hfront, if_pos (by simp [ht, hfront, hid])]

/-- The reading of a frame is what it means. -/
theorem means_ofFrame? (w : WireFrame) : w.Means (Received.ofFrame? w.header w.payload).toList
    ((Received.ofFrame? w.header w.payload).any Received.isFatal) where
  stray hdata hid := by
    rw [ofFrame?_of_data hdata, if_pos hid]
    exact ⟨rfl, rfl⟩
  data hdata hid := by
    rw [ofFrame?_of_data hdata, if_neg hid]
    exact ⟨_, w.toNat_length, rfl, rfl⟩
  foreign hcontrol hversion := by
    have hnone : Version.ofCode? w.versionCode = none := by
      rw [Option.eq_none_iff_forall_ne_some]
      exact fun v hv => hversion v (Version.ofCode?_eq_some_iff.1 hv)
    rw [ofFrame?_of_control hcontrol, hnone]
    exact ⟨rfl, rfl⟩
  unknown hcontrol hversion htype := by
    obtain ⟨v, hv⟩ := hversion
    have hnone : FrameType.ofCode? w.typeCode = none := by
      rw [Option.eq_none_iff_forall_ne_some]
      exact fun t ht => htype t (FrameType.ofCode?_eq_some_iff.1 ht)
    rw [ofFrame?_of_control hcontrol, Version.ofCode?_eq_some_iff.2 hv, hnone]
    exact ⟨rfl, rfl⟩
  wellFormed v t b hcontrol hv ht hb := by
    obtain ⟨rest, hd⟩ := decodeBody_of_begins hb
    rw [ofFrame?_of_known hcontrol hv ht, hd]
    exact ⟨rfl, rfl⟩
  ofStream v t id hcontrol hv ht hb hid := by
    obtain ⟨fault, hd⟩ := decodeBody_of_not_begins hb
    rw [ofFrame?_of_known hcontrol hv ht, hd]
    refine ⟨fault, ?_⟩
    simp only [Received.malformed, culprit?_eq_some_iff.2 hid]
    exact ⟨rfl, rfl⟩
  ofSession v t hcontrol hv ht hb hid := by
    obtain ⟨fault, hd⟩ := decodeBody_of_not_begins hb
    have hnone : Received.culprit? t w.payload = none := by
      rw [Option.eq_none_iff_forall_ne_some]
      exact fun id h => hid id (culprit?_eq_some_iff.1 h)
    rw [ofFrame?_of_known hcontrol hv ht, hd]
    refine ⟨fault, ?_⟩
    simp only [Received.malformed, hnone]
    exact ⟨rfl, rfl⟩

end Reading

end WireFrame

/-! ## Readers -/

theorem Received.ofFrames_of_some {header payload : Bytes} {frames : List (Bytes × Bytes)} {got : Received}
    (h : ofFrame? header payload = some got) :
    ofFrames ((header, payload) :: frames) = got :: if got.isFatal then [] else ofFrames frames := by
  rw [ofFrames, h]
  cases hfatal : got.isFatal <;> simp [hfatal]

namespace Reader

def events (bs : Bytes) : List Received := (new.feed bs).1.toList

/-- Whether a new reader has failed after some bytes. -/
def fails (bs : Bytes) : Bool := (new.feed bs).2.failed

theorem events_of_framing {bs rest : Bytes} {frames : List (Bytes × Bytes)} (h : Framing bs frames rest) :
    events bs = Received.ofFrames frames ∧ fails bs = Received.endsIn frames := by
  have hread := hasRead_new.feed bs
  rw [List.nil_append, List.nil_append] at hread
  exact ⟨hread.told h, hread.failed h⟩

end Reader

namespace WireFrame

theorem framing (w : WireFrame) {bs rest : Bytes} {frames : List (Bytes × Bytes)} (h : Framing bs frames rest) :
    Framing (w.bytes ++ bs) ((w.header, w.payload) :: frames) rest :=
  .frame w.length_header w.length_payload_eq h

theorem framing_bytes (w : WireFrame) : Framing w.bytes [(w.header, w.payload)] [] := by
  have h := w.framing (.rest (.inl (by decide)) : Framing [] [] [])
  rwa [List.append_nil] at h

theorem ofFrames_singleton (header payload : Bytes) :
    Received.ofFrames [(header, payload)] = (Received.ofFrame? header payload).toList := by
  cases hgot : Received.ofFrame? header payload with
  | none =>
    rw [Received.ofFrames, hgot]
    rfl
  | some got =>
    rw [Received.ofFrames_of_some hgot]
    cases got.isFatal <;> rfl

theorem endsIn_singleton (header payload : Bytes) :
    Received.endsIn [(header, payload)] = (Received.ofFrame? header payload).any Received.isFatal :=
  Bool.or_false _

/-- A complete frame is read by the grammar, and alone: what a new reader tells of it is what it means, and bytes
that follow are read as if they came first, unless the frame ended the session. -/
theorem told_by_grammar (w : WireFrame) (bs : Bytes) :
    w.Means (Reader.events w.bytes) (Reader.fails w.bytes) ∧
      (Reader.fails w.bytes = false → Reader.events (w.bytes ++ bs) = Reader.events w.bytes ++ Reader.events bs ∧
        Reader.fails (w.bytes ++ bs) = Reader.fails bs) ∧
      (Reader.fails w.bytes = true → Reader.events (w.bytes ++ bs) = Reader.events w.bytes ∧
        Reader.fails (w.bytes ++ bs) = true) := by
  obtain ⟨frames, rest, hbs⟩ := framing_exists bs
  obtain ⟨hevents, hfails⟩ := Reader.events_of_framing w.framing_bytes
  obtain ⟨hmore, hmoreFails⟩ := Reader.events_of_framing hbs
  obtain ⟨hall, hallFails⟩ := Reader.events_of_framing (w.framing hbs)
  have happend := Received.ofFrames_append [(w.header, w.payload)] frames
  have hends := Received.endsIn_append [(w.header, w.payload)] frames
  rw [List.singleton_append, ← hall, ← hevents, ← hfails, ← hmore] at happend
  rw [List.singleton_append, ← hallFails, ← hfails, ← hmoreFails] at hends
  refine ⟨?_, fun hlive => ?_, fun hdead => ?_⟩
  · rw [hevents, hfails, ofFrames_singleton, endsIn_singleton]
    exact w.means_ofFrame?
  · rw [happend, hends, hlive]
    exact ⟨rfl, rfl⟩
  · rw [happend, hends, hdead]
    exact ⟨List.append_nil _, rfl⟩

/-- A reset that ends before its status, and whatever comes behind it. -/
theorem told_by_grammar_short_reset : ∃ fault, ∀ bs : Bytes,
    Reader.events ([0x80, 3, 0, 3, 0, 0, 0, 4, 0, 0, 0, 1] ++ bs) =
      .streamException ⟨1, .protocolError, .malformed .rstStream fault⟩ :: Reader.events bs := by
  let w : WireFrame := ⟨[0x80, 3, 0, 3], 0, [0, 0, 4], [0, 0, 0, 1], rfl, rfl, rfl⟩
  have hshort : ∀ b, ¬ Body.Begins .v3 0 .rstStream w.payload b := by
    rintro b ⟨front, rest, hpayload, pairs, hwritten, -, ht⟩
    cases hwritten <;> cases ht
    next id status hid hstatus =>
      have hlen := congrArg List.length hpayload
      simp [w, hid, hstatus] at hlen
  have hid : NamesStream .rstStream w.payload 1 := ⟨by decide, [0, 0, 0, 1], [], rfl, rfl, rfl, by decide⟩
  obtain ⟨fault, htold, hlive⟩ :=
    (told_by_grammar w []).1.ofStream .v3 .rstStream 1 (w.isControl_iff.2 (by decide)) (by decide) (by decide) hshort hid
  refine ⟨fault, fun bs => ?_⟩
  have hmore := ((told_by_grammar w bs).2.1 hlive).1
  rw [htold] at hmore
  exact hmore

end WireFrame

end Spdy
