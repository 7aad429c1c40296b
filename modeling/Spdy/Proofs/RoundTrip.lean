import Spdy.Proofs.Fields
import Spdy.Proofs.Pieces

/-!
# What is encoded is read back

* `Body.normal`, `ControlFrame.normal` : a frame without what the wire does not carry;
* `Body.reads_layout`, `Body.stops_layout` : the payload of a control frame is read back, type by type;
* `Accepted` : what acceptance by the encoder says about a control frame (`accepted_of_encode`);
* `ofFrame?_control`, `ofFrame?_data` : what one encoded frame amounts to;
* `Outgoing` : what an encoder is asked for, and `Outgoing.reading` : what its answer is read as;
* `read_back` : any number of encoded frames, cut into pieces anywhere.
-/

namespace Spdy

/-! ## What the wire carries -/

namespace Body

def pairs : Body → List (String × String)
  | synStream _ _ _ _ h => h.toList
  | synReply _ _ h => h.toList
  | headers _ _ h => h.toList
  | rstStream .. | settings .. | noop | ping .. | goAway .. | windowUpdate .. => []

/-- The body as it is read: ids, the last stream and a delta in 31 bits, a priority in the bits that the version
has for it, no status of GOAWAY in `SPDY/2`, and known settings by their names. -/
def normal (v : Version) : Body → Body
  | synStream flags id associated priority h =>
    synStream flags (low31 id) (low31 associated) (clipPriority v priority) h
  | synReply flags id h => synReply flags (low31 id) h
  | rstStream id status => rstStream (low31 id) status
  | settings flags entries => settings flags (entries.map Setting.normal)
  | noop => noop
  | ping id => ping id
  | goAway last status => goAway (low31 last) (match v with | .v2 => 0 | .v3 => status)
  | headers flags id h => headers flags (low31 id) h
  | windowUpdate id delta => windowUpdate (low31 id) (low31 delta)

end Body

def ControlFrame.normal (f : ControlFrame) : ControlFrame := ⟨f.version, f.body.normal f.version⟩

/-! ## Payloads of control frames -/

namespace Body

open Decoder HeaderBlock

variable {v : Version} {b : Body}

/-- A header block has room for its headers if the frame that ends with it is accepted. -/
theorem fits_of_length {h : Headers} {bs front : Bytes} (hrefusal : HeaderBlock.refusal? v h = none)
    (hlen : bs.length ≤ maxFrameLength) (hbs : bs = front ++ HeaderBlock.layout v h) : Fits v h := by
  apply fits_of_accepted hrefusal
  rw [hbs, List.length_append] at hlen
  omega

def synFront (v : Version) (id associated : UInt32) (priority : UInt8) : Bytes :=
  layoutId id ++ layoutId associated ++ [priorityByte v priority, 0]

theorem length_synFront (id associated : UInt32) (priority : UInt8) :
    (synFront v id associated priority).length = 10 := by
  simp [synFront, length_layoutId]

theorem synFront_fields (id associated : UInt32) (priority : UInt8) :
    (synFront v id associated priority).take 4 = layoutId id ∧
      ((synFront v id associated priority).drop 4).take 4 = layoutId associated ∧
      (synFront v id associated priority).octet 8 = priorityByte v priority := ⟨rfl, rfl, rfl⟩

/-- What is done with the fixed fields of a SYN_STREAM frame: its headers are read next. -/
theorem decodeBody_synStream (flags : UInt8) (id associated : UInt32) (priority : UInt8) :
    ∃ f : Bytes → Decoder Body, decodeBody v flags .synStream = take 10 >>= f ∧
      f (synFront v id associated priority) = (do
        let h ← HeaderBlock.decode v
        return .synStream flags (low31 id) (low31 associated) (clipPriority v priority) h) := by
  refine ⟨_, rfl, ?_⟩
  obtain ⟨hid, hassociated, hpriority⟩ := synFront_fields (v := v) id associated priority
  simp only [hid, hassociated, hpriority, low31_word_layoutId, priorityOfByte_priorityByte]

theorem reads_decodeHead {α : Type} {id : UInt32} {h : Headers} {f : UInt32 → Headers → α}
    (hfit : Fits v h) (hnamed : Named h.toList) :
    Reads (do
        let id ← decodeId
        skipBlockPadding v
        return f id (← HeaderBlock.decode v))
      (layoutId id ++ blockPadding v ++ HeaderBlock.layout v h) (f (low31 id) h) := by
  rw [List.append_assoc]
  refine (reads_decodeId id).bind ((reads_skipBlockPadding v).bind ?_)
  exact (HeaderBlock.reads_layout hfit hnamed).map (f (low31 id))

theorem stops_decodeHead {α : Type} {id : UInt32} {h : Headers} {f : UInt32 → Headers → α}
    (hfit : Fits v h) (hnamed : ¬ Named h.toList) :
    Stops (do
        let id ← decodeId
        skipBlockPadding v
        return f id (← HeaderBlock.decode v))
      (layoutId id ++ blockPadding v ++ HeaderBlock.layout v h) .emptyName := by
  rw [List.append_assoc]
  refine (reads_decodeId id).stops ((reads_skipBlockPadding v).stops ?_)
  exact (HeaderBlock.stops_layout hfit hnamed).bind _

/-- The payload of a control frame whose names are not empty is read as the frame's body. -/
theorem reads_layout (hrefusal : b.refusal? v = none) (hlen : (b.layout v).length ≤ maxFrameLength)
    (hnamed : Named b.pairs) : Reads (decodeBody v b.flags b.type) (b.layout v) (b.normal v) := by
  cases b with
  | synStream flags id associated priority h =>
    have hfit := fits_of_length hrefusal hlen rfl
    obtain ⟨f, hf, hnext⟩ := decodeBody_synStream (v := v) flags id associated priority
    show Reads (decodeBody v flags .synStream) (synFront v id associated priority ++ HeaderBlock.layout v h) _
    rw [hf]
    refine (reads_take (length_synFront id associated priority)).bind ?_
    rw [hnext]
    exact (HeaderBlock.reads_layout hfit hnamed).map _
  | synReply flags id h =>
    exact reads_decodeHead (f := synReply flags) (fits_of_length hrefusal hlen rfl) hnamed
  | rstStream id status =>
    have htake : Reads (take 8) (layoutId id ++ Bytes.ofNat 4 status.toNat) _ := reads_take rfl
    have hread := htake.map fun b => rstStream (low31 (Bytes.word (b.take 4))) (Bytes.word (b.drop 4))
    have hid : (layoutId id ++ Bytes.ofNat 4 status.toNat).take 4 = layoutId id := rfl
    have hstatus : (layoutId id ++ Bytes.ofNat 4 status.toNat).drop 4 = Bytes.ofNat 4 status.toNat := rfl
    rw [hid, hstatus, low31_word_layoutId, word_ofNat] at hread
    exact hread
  | settings flags entries =>
    have hcount : entries.length < Nat.pow 256 4 := by
      have hmax : maxFrameLength = 16777215 := rfl
      have hpow : Nat.pow 256 4 = 4294967296 := rfl
      have hall : (Bytes.ofNat 4 entries.length ++ entries.flatMap Setting.layout).length ≤ maxFrameLength := hlen
      rw [List.length_append, Bytes.length_ofNat, Setting.length_flatMap_layout] at hall
      omega
    have hids : ∀ e ∈ entries, e.id.code ≤ 0xffffff := by
      intro e he
      have hfind := List.find?_eq_none.1 (Option.map_eq_none_iff.1 hrefusal) e he
      rw [decide_eq_true_eq, UInt32.not_lt] at hfind
      exact hfind
    have hread := (reads_take (Bytes.length_ofNat 4 entries.length)).map Bytes.toNat
    rw [toNat_ofNat_of_lt hcount] at hread
    have hentries := (reads_take (Setting.length_flatMap_layout entries)).map fun b =>
      settings flags (Setting.listOfBytes entries.length b)
    rw [Setting.listOfBytes_flatMap_layout hids] at hentries
    exact hread.bind hentries
  | noop => exact Reads.pure noop
  | ping id => exact (reads_word id).map ping
  | goAway last status =>
    refine (reads_decodeId last).bind ?_
    cases v with
    | v2 => exact Reads.pure (goAway (low31 last) 0)
    | v3 => exact (reads_word status).map (goAway (low31 last))
  | headers flags id h =>
    exact reads_decodeHead (f := headers flags) (fits_of_length hrefusal hlen rfl) hnamed
  | windowUpdate id delta =>
    have htake : Reads (take 8) (layoutId id ++ layoutId delta) _ := reads_take rfl
    have hread := htake.map fun b =>
      windowUpdate (low31 (Bytes.word (b.take 4))) (low31 (Bytes.word (b.drop 4)))
    have hid : (layoutId id ++ layoutId delta).take 4 = layoutId id := rfl
    have hdelta : (layoutId id ++ layoutId delta).drop 4 = layoutId delta := rfl
    rw [hid, hdelta, low31_word_layoutId, low31_word_layoutId] at hread
    exact hread

/-- The payload of a control frame with an empty name cannot be read. -/
theorem stops_layout (hrefusal : b.refusal? v = none) (hlen : (b.layout v).length ≤ maxFrameLength)
    (hnamed : ¬ Named b.pairs) : Stops (decodeBody v b.flags b.type) (b.layout v) .emptyName := by
  cases b with
  | synStream flags id associated priority h =>
    have hfit := fits_of_length hrefusal hlen rfl
    obtain ⟨f, hf, hnext⟩ := decodeBody_synStream (v := v) flags id associated priority
    show Stops (decodeBody v flags .synStream) (synFront v id associated priority ++ HeaderBlock.layout v h) _
    rw [hf]
    refine (reads_take (length_synFront id associated priority)).stops ?_
    rw [hnext]
    exact (HeaderBlock.stops_layout hfit hnamed).bind _
  | synReply flags id h =>
    exact stops_decodeHead (f := synReply flags) (fits_of_length hrefusal hlen rfl) hnamed
  | headers flags id h =>
    exact stops_decodeHead (f := headers flags) (fits_of_length hrefusal hlen rfl) hnamed
  | rstStream | settings | noop | ping | goAway | windowUpdate => exact absurd named_nil hnamed

/-- A frame with headers begins with the id of its stream. -/
theorem culprit?_layout (hnamed : ¬ Named b.pairs) :
    ∃ id, b.streamId? = some id ∧
      Received.culprit? b.type (b.layout v) = if low31 id = 0 then none else some (low31 id) := by
  have hfront : ∀ (t : FrameType) (id : UInt32) (rest : Bytes), Received.isStreamScoped t = true →
      Received.culprit? t (layoutId id ++ rest) = if low31 id = 0 then none else some (low31 id) := by
    intro t id rest ht
    have htake : (layoutId id ++ rest).take 4 = layoutId id := by
      rw [← length_layoutId id, List.take_left]
    rw [Received.culprit?, htake, ht, low31_word_layoutId, length_layoutId]
    by_cases hid : low31 id = 0 <;> simp [hid]
  cases b with
  | synStream flags id associated priority h =>
    refine ⟨id, rfl, ?_⟩
    have h' := hfront .synStream id
      (layoutId associated ++ ([priorityByte v priority, 0] ++ HeaderBlock.layout v h)) rfl
    rw [← List.append_assoc, ← List.append_assoc] at h'
    exact h'
  | synReply flags id h =>
    refine ⟨id, rfl, ?_⟩
    have h' := hfront .synReply id (blockPadding v ++ HeaderBlock.layout v h) rfl
    rw [← List.append_assoc] at h'
    exact h'
  | headers flags id h =>
    refine ⟨id, rfl, ?_⟩
    have h' := hfront .headers id (blockPadding v ++ HeaderBlock.layout v h) rfl
    rw [← List.append_assoc] at h'
    exact h'
  | rstStream | settings | noop | ping | goAway | windowUpdate => exact absurd named_nil hnamed

end Body

/-! ## Frames -/

/-- What acceptance by the encoder says about a control frame and its bytes. -/
structure ControlFrame.Accepted (f : ControlFrame) (bs : Bytes) : Prop where
  refusal : f.body.refusal? f.version = none
  length : (f.body.layout f.version).length ≤ maxFrameLength
  bytes : bs = f.header (f.body.layout f.version).length ++ f.body.layout f.version

theorem ControlFrame.accepted_of_encode {f : ControlFrame} {bs : Bytes} (h : f.encode = .ok bs) :
    f.Accepted bs := by
  simp only [ControlFrame.encode] at h
  split at h
  · cases h
  next hrefusal =>
  split at h
  · cases h
  next hlen => exact ⟨hrefusal, Nat.not_lt.1 hlen, (Except.ok.inj h).symm⟩

theorem toNat_ofNat_length {n : Nat} (h : n ≤ maxFrameLength) : (Bytes.ofNat 3 n).toNat = n := by
  have hmax : maxFrameLength = 16777215 := rfl
  have hpow : Nat.pow 256 3 = 16777216 := rfl
  exact toNat_ofNat_of_lt (by omega)

/-- The exception that an empty name amounts to: of the stream that the frame names, or else of the session. -/
def emptyNameException (t : FrameType) (id : UInt32) : Received :=
  if low31 id = 0 then .sessionException ⟨.protocolError, .malformed t .emptyName⟩
  else .streamException ⟨low31 id, .protocolError, .malformed t .emptyName⟩

/-- What an accepted control frame is read as. -/
def ControlFrame.reading (f : ControlFrame) : Received :=
  if HeaderBlock.Named f.body.pairs then .control f.normal
  else emptyNameException f.type (f.body.streamId?.getD 0)

theorem ofFrame?_header (f : ControlFrame) (length : Nat) (payload : Bytes) :
    Received.ofFrame? (f.header length) payload =
      some (match decodeBody f.version f.body.flags f.type payload with
        | .ok (body, _) => .control ⟨f.version, body⟩
        | .error fault => .malformed f.type payload fault) := by
  obtain ⟨v, b⟩ := f
  have hfirst : ¬ ((ControlFrame.mk v b).header length).octet 0 < 0x80 := by
    show ¬ UInt8.ofNat ((0x8000 + v.code) / 256) < 0x80
    cases v <;> decide
  have hversion : Bytes.toNat (((ControlFrame.mk v b).header length).take 2) % 0x8000 = v.code := by
    show (Bytes.ofNat 2 (0x8000 + v.code)).toNat % 0x8000 = _
    cases v <;> decide
  have htype : Bytes.toNat ((((ControlFrame.mk v b).header length).drop 2).take 2) = b.type.code := by
    show (Bytes.ofNat 2 b.type.code).toNat = _
    apply toNat_ofNat_of_lt
    cases b.type <;> decide
  rw [Received.ofFrame?, if_neg hfirst, Received.ofControl?, hversion, htype,
    Version.ofCode?_eq_some_iff.2 rfl, FrameType.ofCode?_eq_some_iff.2 rfl]
  rfl

/-- An accepted control frame is complete, and is read as itself or as an exception. -/
theorem ofFrame?_control {f : ControlFrame} {bs : Bytes} (h : f.Accepted bs) :
    ∃ header payload, bs = header ++ payload ∧ header.length = headerLength ∧
      payload.length = Bytes.toNat (header.drop 5) ∧ Received.ofFrame? header payload = some f.reading := by
  refine ⟨_, _, h.bytes, by simp [ControlFrame.header, headerLength], (toNat_ofNat_length h.length).symm, ?_⟩
  rw [ofFrame?_header, Option.some_inj, ControlFrame.reading]
  by_cases hnamed : HeaderBlock.Named f.body.pairs
  · have hread := Body.reads_layout h.refusal h.length hnamed []
    rw [List.append_nil] at hread
    rw [if_pos hnamed, ControlFrame.type, hread]
    rfl
  · have hstop := Body.stops_layout h.refusal h.length hnamed []
    rw [List.append_nil] at hstop
    obtain ⟨id, hid, hculprit⟩ := Body.culprit?_layout (v := f.version) hnamed
    rw [if_neg hnamed, ControlFrame.type, hstop, hid, Option.getD_some, emptyNameException]
    show Received.malformed _ _ _ = _
    rw [Received.malformed, hculprit]
    by_cases hzero : low31 id = 0 <;> simp [hzero]

/-- The data frame with its id and its length as the wire carries them. -/
def DataFrame.normal (f : DataFrame) : DataFrame :=
  { f with streamId := low31 f.streamId, length := .ofNat f.payload.length }

/-- What a data frame is read as: no data is on stream 0. -/
def DataFrame.reading (f : DataFrame) : Received :=
  if low31 f.streamId = 0 then .sessionException ⟨.protocolError, .dataOnStreamZero⟩ else .data f.normal

theorem ofFrame?_dataFrame {f : DataFrame} (hlen : f.payload.length ≤ maxFrameLength) :
    ∃ header payload, f.encode = header ++ payload ∧ header.length = headerLength ∧
      payload.length = Bytes.toNat (header.drop 5) ∧ Received.ofFrame? header payload = some f.reading := by
  refine ⟨layoutId f.streamId ++ f.flags :: Bytes.ofNat 3 f.payload.length, f.payload, rfl, ?_,
    (toNat_ofNat_length hlen).symm, ?_⟩
  · simp [length_layoutId, headerLength]
  · have hfirst : (layoutId f.streamId ++ f.flags :: Bytes.ofNat 3 f.payload.length).octet 0 < 0x80 := by
      show UInt8.ofNat ((low31 f.streamId).toNat / Nat.pow 256 3) < 0x80
      rw [UInt8.lt_iff_toNat_lt, UInt8.toNat_ofNat', toNat_low31]
      show f.streamId.toNat % 2 ^ 31 / 16777216 % 2 ^ 8 < 128
      omega
    have hfield : (layoutId f.streamId ++ f.flags :: Bytes.ofNat 3 f.payload.length).take 4 =
        layoutId f.streamId := rfl
    have hcount : Bytes.toNat ((layoutId f.streamId ++ f.flags :: Bytes.ofNat 3 f.payload.length).drop 5) =
        f.payload.length := toNat_ofNat_length hlen
    rw [Received.ofFrame?, if_pos hfirst, Received.ofData, hfield, hcount, low31_word_layoutId]
    rfl

theorem ofFrame?_data {f : DataFrame} (hlen : f.payload.length ≤ maxFrameLength) (hid : low31 f.streamId ≠ 0) :
    ∃ header payload, f.encode = header ++ payload ∧ header.length = headerLength ∧
      payload.length = Bytes.toNat (header.drop 5) ∧
      Received.ofFrame? header payload = some (.data f.normal) := by
  have hframe := ofFrame?_dataFrame hlen
  rwa [DataFrame.reading, if_neg hid] at hframe

/-! ## Any number of frames -/

/-- What an encoder is asked for: a control frame, or the next data frame of a payload within a window. -/
inductive Outgoing
  | control (frame : ControlFrame)
  | data (streamId : UInt32) (window : Int) (payload : Payload)

namespace Outgoing

def encode (enc : Encoder) : Outgoing → Except Refusal Bytes
  | control f => enc.control f
  | data id window p => (enc.data id window p).map Prod.fst

/-- What the bytes are read as, with at most `size` bytes of data in a frame. -/
def reading (size : Nat) : Outgoing → Received
  | control f => f.reading
  | data id window p => .data (p.chunk (Encoder.clampCap size) id window).1.normal

/-- The frame itself, as it is read if it can be read. -/
def itself (size : Nat) : Outgoing → Received
  | control f => .control f.normal
  | data id window p => .data (p.chunk (Encoder.clampCap size) id window).1.normal

def Numbered : Outgoing → Prop
  | control _ => True
  | data id _ _ => low31 id ≠ 0

def Named : Outgoing → Prop
  | control f => HeaderBlock.Named f.body.pairs
  | data .. => True

instance : DecidablePred Numbered
  | control _ => .isTrue trivial
  | data id _ _ => inferInstanceAs (Decidable (low31 id ≠ 0))

instance : DecidablePred Named
  | control f => inferInstanceAs (Decidable (HeaderBlock.Named f.body.pairs))
  | data .. => .isTrue trivial

variable {size : Nat} {o : Outgoing} {bs : Bytes}

theorem ofFrame?_reading (h : o.encode (.standard size) = .ok bs) (ho : o.Numbered) :
    ∃ header payload, bs = header ++ payload ∧ header.length = headerLength ∧
      payload.length = Bytes.toNat (header.drop 5) ∧
      Received.ofFrame? header payload = some (o.reading size) := by
  cases o with
  | control f => exact ofFrame?_control (ControlFrame.accepted_of_encode h)
  | data id window p =>
    have hchunk : bs = (p.chunk (Encoder.clampCap size) id window).1.encode := by
      simp only [encode, Encoder.standard, Payload.encodeChunk] at h
      split at h
      · cases h
      · exact (Except.ok.inj h).symm
    rw [hchunk]
    exact ofFrame?_data (p.length_chunk_le (Encoder.clampCap_le_maxFrameLength size) id window) ho

theorem reading_of_named (h : o.Named) : o.reading size = o.itself size := by
  cases o with
  | control f => exact if_pos h
  | data => rfl

theorem length_of_itself {f : DataFrame} (h : o.itself size = .data f) : f.length.toNat = f.payload.length := by
  cases o with
  | control => cases h
  | data id window p =>
    obtain rfl := Received.data.inj h
    have hlen := p.length_chunk_le (Encoder.clampCap_le_maxFrameLength size) id window
    have hmax : maxFrameLength < 2 ^ 32 := by decide
    show (UInt32.ofNat (p.chunk (Encoder.clampCap size) id window).1.payload.length).toNat = _
    rw [UInt32.toNat_ofNat', Nat.mod_eq_of_lt (Nat.lt_of_le_of_lt hlen hmax)]
    rfl

theorem not_isFatal_itself (o : Outgoing) : (o.itself size).isFatal = false := by
  cases o <;> rfl

end Outgoing

/-- What is told of what was read: nothing after an exception of the session. -/
def Received.upToFatal : List Received → List Received
  | [] => []
  | got :: more => if got.isFatal then [got] else got :: upToFatal more

theorem Received.upToFatal_of_calm {got : List Received} (h : ∀ g ∈ got, g.isFatal = false) :
    upToFatal got = got := by
  induction got with
  | nil => rfl
  | cons g got ih =>
    have hg : ¬ g.isFatal = true := by simp [h g List.mem_cons_self]
    rw [upToFatal, if_neg hg, ih fun g' hg' => h g' (List.mem_cons_of_mem _ hg')]

theorem Received.upToFatal_prefix (got : List Received) : upToFatal got <+: got := by
  induction got with
  | nil => exact List.prefix_rfl
  | cons g got ih =>
    rw [upToFatal]
    split
    · exact List.prefix_append [g] got
    · exact (List.prefix_cons_inj g).2 ih

theorem Received.mem_upToFatal {got : List Received} {g : Received} (h : g ∈ got) (hg : g.isFatal) :
    ∃ e ∈ upToFatal got, e.isFatal := by
  induction got with
  | nil => cases h
  | cons x got ih =>
    rw [upToFatal]
    split
    · next hx => exact ⟨x, List.mem_cons_self, hx⟩
    · next hx =>
      rcases List.mem_cons.1 h with rfl | h
      · exact absurd hg hx
      · obtain ⟨e, he, hfatal⟩ := ih h
        exact ⟨e, List.mem_cons_of_mem _ he, hfatal⟩

/-- The encoded frames one after another are complete frames with nothing left over. -/
theorem framing_of_encoded {size : Nat} {sent : List Outgoing} {encoded : List Bytes}
    (h : sent.map (Outgoing.encode (.standard size)) = encoded.map .ok)
    (hnumbered : ∀ o ∈ sent, o.Numbered) :
    ∃ frames, Framing encoded.flatten frames [] ∧
      frames.map (fun f => Received.ofFrame? f.1 f.2) = (sent.map (Outgoing.reading size)).map some := by
  induction sent generalizing encoded with
  | nil =>
    rw [List.map_eq_nil_iff.1 h.symm]
    exact ⟨[], .rest (.inl (by decide)), rfl⟩
  | cons o sent ih =>
    cases encoded with
    | nil => cases h
    | cons bs encoded =>
      rw [List.map_cons, List.map_cons] at h
      obtain ⟨ho, hrest⟩ := List.cons.inj h
      obtain ⟨frames, hframes, hmeans⟩ := ih hrest fun o' ho' => hnumbered o' (List.mem_cons_of_mem _ ho')
      obtain ⟨header, payload, hbs, hheader, hpayload, hmean⟩ :=
        Outgoing.ofFrame?_reading ho (hnumbered o List.mem_cons_self)
      refine ⟨(header, payload) :: frames, ?_, ?_⟩
      · rw [List.flatten_cons, hbs]
        exact .frame hheader hpayload hframes
      · rw [List.map_cons, List.map_cons, List.map_cons, hmeans, hmean]

theorem Received.ofFrames_of_means {frames : List (Bytes × Bytes)} {got : List Received}
    (h : frames.map (fun f => ofFrame? f.1 f.2) = got.map some) :
    ofFrames frames = upToFatal got ∧ endsIn frames = got.any isFatal := by
  induction frames generalizing got with
  | nil =>
    cases got with
    | nil => exact ⟨rfl, rfl⟩
    | cons => cases h
  | cons f frames ih =>
    cases got with
    | nil => cases h
    | cons g got =>
      rw [List.map_cons, List.map_cons] at h
      obtain ⟨hf, hrest⟩ := List.cons.inj h
      obtain ⟨htold, hends⟩ := ih hrest
      have hcons : endsIn (f :: frames) = ((ofFrame? f.1 f.2).any isFatal || endsIn frames) := rfl
      rw [hcons, ofFrames, hf, htold, hends, upToFatal]
      exact ⟨rfl, rfl⟩

/-- Frames that the encoder accepts, with data on no stream 0, are read back in order however their bytes are cut into
pieces. If no header has an empty name, each frame is read as itself, data with the length of its payload, nothing else
is told, the reader has not failed and no byte is left over. In general a control frame with an empty name is read as an
exception, of its stream if it names one and else of the session, and this is the only change: what is told is the
reading of each frame, up to an exception of the session. -/
theorem read_back {size : Nat} {sent : List Outgoing} {encoded pieces : List Bytes}
    (h : sent.map (Outgoing.encode (.standard size)) = encoded.map .ok)
    (hnumbered : ∀ o ∈ sent, o.Numbered) (hpieces : pieces.flatten = encoded.flatten) :
    ((∀ o ∈ sent, o.Named) →
        (Reader.new.feedAll pieces).1 = sent.map (Outgoing.itself size) ∧
          (∀ f : DataFrame, .data f ∈ (Reader.new.feedAll pieces).1 → f.length.toNat = f.payload.length) ∧
          (Reader.new.feedAll pieces).2.failed = false ∧
          (Reader.new.feedAll pieces).2.buffer.toList = []) ∧
      (Reader.new.feedAll pieces).1 = Received.upToFatal (sent.map (Outgoing.reading size)) := by
  obtain ⟨frames, hframes, hmeans⟩ := framing_of_encoded h hnumbered
  have hread := Reader.hasRead_new.feedAll pieces
  rw [List.nil_append, List.nil_append, hpieces] at hread
  obtain ⟨htold, hends⟩ := Received.ofFrames_of_means hmeans
  refine ⟨fun hnamed => ?_, (hread.told hframes).trans htold⟩
  have hitself : sent.map (Outgoing.reading size) = sent.map (Outgoing.itself size) :=
    List.map_congr_left fun o ho => Outgoing.reading_of_named (hnamed o ho)
  have hcalm : ∀ g ∈ sent.map (Outgoing.itself size), g.isFatal = false := by
    intro g hg
    obtain ⟨o, -, rfl⟩ := List.mem_map.1 hg
    exact o.not_isFatal_itself
  rw [hitself] at htold hends
  have hlive : (Reader.new.feedAll pieces).2.failed = false := by
    rw [hread.failed hframes, hends, List.any_eq_false]
    intro g hg
    simp [hcalm g hg]
  have hsame : (Reader.new.feedAll pieces).1 = sent.map (Outgoing.itself size) := by
    rw [hread.told hframes, htold, Received.upToFatal_of_calm hcalm]
  refine ⟨hsame, fun f hf => ?_, hlive, hread.kept hframes hlive⟩
  obtain ⟨o, -, ho⟩ := List.mem_map.1 (hsame ▸ hf)
  exact Outgoing.length_of_itself ho

/-- A setting whose number is known and a piece of data whose id has a bit too many, cut within the first frame. -/
theorem read_back_settings_data :
    (Reader.new.feedAll [[0x80, 2, 0, 4, 0, 0, 0, 12, 0, 0],
        [0, 1, 0, 0, 0, 7, 0, 0, 0, 9, 0, 0, 0, 3, 0, 0, 0, 4, 1, 2, 3, 4]]).1 =
      [.control ⟨.v2, .settings 0 [⟨.initialWindowSize, 0, 9⟩]⟩, .data ⟨3, 0, 4, [1, 2, 3, 4]⟩] :=
  ((@read_back 100
    [.control ⟨.v2, .settings 0 [⟨.unknown 7, 0, 9⟩]⟩, .data 0x80000003 4 ⟨[1, 2, 3, 4, 5, 6], true⟩]
    [[0x80, 2, 0, 4, 0, 0, 0, 12, 0, 0, 0, 1, 0, 0, 0, 7, 0, 0, 0, 9], [0, 0, 0, 3, 0, 0, 0, 4, 1, 2, 3, 4]]
    _ rfl (by decide) (by decide)).1 (by decide)).1

end Spdy
