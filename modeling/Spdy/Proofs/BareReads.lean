import Spdy.Proofs.Pieces

/-!
# Reads without a look

A parser works on machine strings: reading, skipping and splitting are undefined beyond the end, so whatever it
reads must be known to be there. Here is the reader with such reads, each behind the looks that it takes, and
every read is where bytes are: it does not trap, and reads the same.

* `BareDecoder` : decoders whose `BareDecoder.get` traps beyond the end, and whose `BareDecoder.needOr` looks;
* `Guards e d` : a bare decoder never traps and reads what a decoder reads (`Guards.bind`, `guards_takeOr`);
* `BareDecoder.body`, `BareDecoder.frame` : payloads of control frames, complete frames (`guards_body`,
  `frame_eq`);
* `BareReader` : a reader that cuts frames off its buffer (`BareReader.feedAll_eq`).
-/

namespace Spdy

/-- Why a bare decoder stops: it sees a fault, or it reads bytes that are not there. -/
inductive Halt
  | fault (f : Fault)
  | trap
deriving DecidableEq

abbrev BareDecoder := StateT Bytes (Except Halt)

namespace BareDecoder

def get (n : Nat) : BareDecoder Bytes := fun bs =>
  if bs.length < n then .error .trap else .ok (bs.take n, bs.drop n)

def peek (n : Nat) : BareDecoder Bytes := fun bs =>
  if bs.length < n then .error .trap else .ok (bs.take n, bs)

def has (n : Nat) : BareDecoder Bool := fun bs => .ok (decide (n ≤ bs.length), bs)

/-- Looks for `n` bytes; the fault is told how many there are if they are too few. -/
def needOr (n : Nat) (fault : Nat → Fault) : BareDecoder Unit := fun bs =>
  if bs.length < n then .error (.fault (fault bs.length)) else .ok ((), bs)

def need (n : Nat) : BareDecoder Unit := needOr n (.tooShort n)

def byte : BareDecoder UInt8 := (·.octet 0) <$> get 1

def word : BareDecoder UInt32 := Bytes.word <$> get 4

def id : BareDecoder UInt32 := low31 <$> word

/-! ## Payloads of control frames -/

def blockLength (v : Version) : BareDecoder Nat := do
  needOr (HeaderBlock.width v) fun _ => .truncatedBlock
  Bytes.toNat <$> get (HeaderBlock.width v)

def blockField (v : Version) : BareDecoder String := do
  let n ← blockLength v
  needOr n fun _ => .fieldTooLong n
  let b ← get n
  match String.fromUTF8? ⟨b.toArray⟩ with
  | some s => return s
  | none => throw (.fault .notUnicode)

def blockEntries (v : Version) : Nat → Headers → BareDecoder Headers
  | 0, h => return h
  | n + 1, h => do
    let name ← blockField v
    if name.isEmpty then throw (.fault .emptyName)
    let value ← blockField v
    blockEntries v n (h.add name value)

def block (v : Version) : BareDecoder Headers := do
  let n ← blockLength v
  blockEntries v n .empty

/-- So many entries of a SETTINGS frame. -/
def entries : Nat → BareDecoder (List Setting)
  | 0 => return []
  | n + 1 => do
    let flags ← byte
    let code ← Bytes.word <$> get 3
    let value ← word
    let rest ← entries n
    return ⟨.ofCode code, flags, value⟩ :: rest

/-- The fixed fields of a SYN_STREAM frame: two ids, a priority and an unused byte. -/
def synFront (v : Version) : BareDecoder (UInt32 × UInt32 × UInt8) := do
  need 10
  let streamId ← id
  let associated ← id
  let priority ← priorityOfByte v <$> byte
  let _ ← get 1
  return (streamId, associated, priority)

def headFront (v : Version) : BareDecoder UInt32 := do
  need 4
  let streamId ← id
  match v with
  | .v2 => do
    need 2
    let _ ← get 2
    return streamId
  | .v3 => return streamId

/-- The payload of a control frame. -/
def body (v : Version) (flags : UInt8) : FrameType → BareDecoder Body
  | .synStream => do
    let (streamId, associated, priority) ← synFront v
    return .synStream flags streamId associated priority (← block v)
  | .synReply => do
    let streamId ← headFront v
    return .synReply flags streamId (← block v)
  | .rstStream => do
    need 8
    let streamId ← id
    return .rstStream streamId (← word)
  | .settings => do
    need 4
    let n ← Bytes.toNat <$> get 4
    need (n * 8)
    return .settings flags (← entries n)
  | .noop => return .noop
  | .ping => do
    need 4
    .ping <$> word
  | .goAway => do
    need 4
    let last ← id
    match v with
    | .v2 => return .goAway last 0
    | .v3 => do
      need 4
      return .goAway last (← word)
  | .headers => do
    let streamId ← headFront v
    return .headers flags streamId (← block v)
  | .windowUpdate => do
    need 8
    let streamId ← id
    return .windowUpdate streamId (low31 (← word))

/-! ## Complete frames -/

/-- The stream id that a payload begins with, if the type has one and the payload is long enough. -/
def streamId? (t : FrameType) : BareDecoder (Option UInt32) := do
  if Received.isStreamScoped t && (← has 4) then
    let b ← peek 4
    return some (low31 (Bytes.word b))
  else return none

def exception (t : FrameType) (stream : Option UInt32) (fault : Fault) : Received :=
  match stream with
  | some 0 | none => .sessionException ⟨.protocolError, .malformed t fault⟩
  | some streamId => .streamException ⟨streamId, .protocolError, .malformed t fault⟩

def told (d : BareDecoder Received) (onFault : Fault → Received) : BareDecoder Received := fun bs =>
  match d bs with
  | .error (.fault f) => .ok (onFault f, bs)
  | r => r

/-- The payload of a control frame of a known version and type. -/
def known (v : Version) (flags : UInt8) (t : FrameType) : BareDecoder Received := do
  let stream ← streamId? t
  told (body v flags t >>= fun b => return .control ⟨v, b⟩) (exception t stream)

def afterHeader (code type : Nat) (flags : UInt8) : BareDecoder (Option Received) :=
  match Version.ofCode? code with
  | none => return some (.sessionException ⟨.protocolError, .unsupportedVersion code⟩)
  | some v =>
    match FrameType.ofCode? type with
    | none => return none
    | some t => some <$> known v flags t

def control : BareDecoder (Option Received) := do
  let code ← (fun b => Bytes.toNat b % 0x8000) <$> get 2
  let type ← Bytes.toNat <$> get 2
  let flags ← byte
  let _ ← get 3
  afterHeader code type flags

def data : BareDecoder Received := do
  let streamId ← id
  let flags ← byte
  let length ← Bytes.toNat <$> peek 3
  let _ ← get 3
  if streamId = 0 then return .sessionException ⟨.protocolError, .dataOnStreamZero⟩
  else return .data ⟨streamId, flags, .ofNat length, ← get length⟩

def frame : BareDecoder (Option Received) := do
  let first ← (·.octet 0) <$> peek 1
  if first < 0x80 then some <$> data else control

end BareDecoder

/-! ## Guarded reads -/

def Guards {α : Type} (e : BareDecoder α) (d : Decoder α) : Prop :=
  ∀ bs, e bs = (d bs).mapError .fault

namespace Guards

open BareDecoder

variable {α β : Type} {e : BareDecoder α} {d : Decoder α}

theorem pure (a : α) : Guards (Pure.pure a) (Pure.pure a) := fun _ => rfl

theorem throw (fault : Fault) :
    Guards (α := α) (MonadExcept.throw (Halt.fault fault)) (MonadExcept.throw fault) := fun _ => rfl

theorem bind {f : α → BareDecoder β} {g : α → Decoder β} (h : Guards e d) (hf : ∀ a, Guards (f a) (g a)) :
    Guards (e >>= f) (d >>= g) := by
  intro bs
  show (e bs >>= fun p => f p.1 p.2) = (d bs >>= fun p => g p.1 p.2).mapError .fault
  rw [h bs]
  cases d bs with
  | error fault => rfl
  | ok p => exact hf p.1 p.2

theorem map (f : α → β) (h : Guards e d) : Guards (f <$> e) (f <$> d) := by
  intro bs
  show (e bs >>= fun p => Pure.pure (f p.1, p.2)) = (d bs >>= fun p => Pure.pure (f p.1, p.2)).mapError .fault
  rw [h bs]
  cases d bs <;> rfl

end Guards

namespace BareDecoder

variable {α β : Type}

theorem get_of_le {n : Nat} {bs : Bytes} (h : n ≤ bs.length) : get n bs = .ok (bs.take n, bs.drop n) :=
  if_neg (Nat.not_lt.2 h)

theorem peek_of_le {n : Nat} {bs : Bytes} (h : n ≤ bs.length) : peek n bs = .ok (bs.take n, bs) :=
  if_neg (Nat.not_lt.2 h)

theorem run_bind_of_ok {e : BareDecoder α} {f : α → BareDecoder β} {bs rest : Bytes} {a : α}
    (h : e bs = .ok (a, rest)) : (e >>= f) bs = f a rest := by
  show (e bs >>= fun p => f p.1 p.2) = _
  rw [h]
  rfl

theorem run_map_of_ok {e : BareDecoder α} {f : α → β} {bs rest : Bytes} {a : α}
    (h : e bs = .ok (a, rest)) : (f <$> e) bs = .ok (f a, rest) := by
  show (e bs >>= fun p => Pure.pure (f p.1, p.2)) = _
  rw [h]
  rfl

theorem byte_of_le {bs : Bytes} (h : 1 ≤ bs.length) : byte bs = .ok (Bytes.octet (bs.take 1) 0, bs.drop 1) :=
  run_map_of_ok (get_of_le h)

theorem word_of_le {bs : Bytes} (h : 4 ≤ bs.length) : word bs = .ok (Bytes.word (bs.take 4), bs.drop 4) :=
  run_map_of_ok (get_of_le h)

theorem id_of_le {bs : Bytes} (h : 4 ≤ bs.length) :
    id bs = .ok (low31 (Bytes.word (bs.take 4)), bs.drop 4) :=
  run_map_of_ok (word_of_le h)

/-- Reads behind a look are guarded if they read the bytes that were looked for, and no more. -/
theorem guards_of_look {n : Nat} {fault : Nat → Fault} {e : BareDecoder α} {f : Bytes → α}
    (h : ∀ bs : Bytes, n ≤ bs.length → e bs = .ok (f (bs.take n), bs.drop n)) :
    Guards (needOr n fault >>= fun _ => e) (f <$> Decoder.takeOr n fault) := by
  intro bs
  show (needOr n fault bs >>= fun p => e p.2) =
    (Decoder.takeOr n fault bs >>= fun p => Pure.pure (f p.1, p.2)).mapError .fault
  rw [needOr, Decoder.run_takeOr]
  by_cases hlen : bs.length < n
  · rw [if_pos hlen, if_pos hlen]
    rfl
  · rw [if_neg hlen, if_neg hlen]
    exact h bs (Nat.not_lt.1 hlen)

theorem guards_takeOr (n : Nat) (fault : Nat → Fault) :
    Guards (needOr n fault >>= fun _ => get n) (Decoder.takeOr n fault) := by
  have h : Guards (needOr n fault >>= fun _ => get n) ((fun b => b) <$> Decoder.takeOr n fault) :=
    guards_of_look fun _ hlen => get_of_le hlen
  rwa [id_map'] at h

/-! ### Header blocks -/

theorem guards_blockLength (v : Version) : Guards (blockLength v) (HeaderBlock.decodeLength v) :=
  guards_of_look fun _ hlen => run_map_of_ok (get_of_le hlen)

theorem guards_blockField (v : Version) : Guards (blockField v) (HeaderBlock.decodeField v) := by
  refine (guards_blockLength v).bind fun n => ?_
  rw [← bind_assoc]
  refine (guards_takeOr n _).bind fun b => ?_
  cases String.fromUTF8? ⟨b.toArray⟩ with
  | some s => exact Guards.pure s
  | none => exact Guards.throw .notUnicode

theorem guards_blockEntries (v : Version) (n : Nat) (h : Headers) :
    Guards (blockEntries v n h) (HeaderBlock.decodeEntries v n h) := by
  induction n generalizing h with
  | zero => exact Guards.pure h
  | succ n ih =>
    refine (guards_blockField v).bind fun name => ?_
    have hrest : Guards (blockField v >>= fun value => blockEntries v n (h.add name value))
        (HeaderBlock.decodeField v >>= fun value => HeaderBlock.decodeEntries v n (h.add name value)) :=
      (guards_blockField v).bind fun value => ih (h.add name value)
    cases name.isEmpty with
    | true => exact fun _ => rfl
    | false => exact hrest

theorem guards_block (v : Version) : Guards (block v) (HeaderBlock.decode v) :=
  (guards_blockLength v).bind fun n => guards_blockEntries v n .empty

/-! ### Control frames -/

theorem entries_of_le {n : Nat} {bs : Bytes} (h : n * 8 ≤ bs.length) :
    entries n bs = .ok (Setting.listOfBytes n (bs.take (n * 8)), bs.drop (n * 8)) := by
  induction n generalizing bs with
  | zero => rfl
  | succ n ih =>
    have h1 : 1 ≤ bs.length := by omega
    have h3 : 3 ≤ (bs.drop 1).length := by rw [List.length_drop]; omega
    have h4 : 4 ≤ ((bs.drop 1).drop 3).length := by simp only [List.length_drop]; omega
    have hrest : n * 8 ≤ (((bs.drop 1).drop 3).drop 4).length := by simp only [List.length_drop]; omega
    rw [entries, run_bind_of_ok (byte_of_le h1), run_bind_of_ok (run_map_of_ok (get_of_le h3)),
      run_bind_of_ok (word_of_le h4), run_bind_of_ok (ih hrest)]
    simp only [List.drop_drop]
    show Except.ok _ = Except.ok _
    have hcount : (n + 1) * 8 = 8 + n * 8 := by omega
    rw [hcount, Setting.listOfBytes, List.take_take, List.drop_take, Setting.ofBytes]
    have hmin : min 8 (8 + n * 8) = 8 := by omega
    have hsub : 8 + n * 8 - 8 = n * 8 := by omega
    rw [hmin, hsub, Nat.add_comm 8]
    simp only [List.drop_take, List.take_take, Bytes.octet, List.getD_eq_getElem?_getD,
      List.getElem?_take, Nat.zero_lt_succ, if_true]
    rfl

theorem guards_synFront (v : Version) :
    Guards (synFront v) ((fun b => (low31 (Bytes.word (b.take 4)), low31 (Bytes.word ((b.drop 4).take 4)),
      priorityOfByte v (Bytes.octet b 8))) <$> Decoder.take 10) := by
  refine guards_of_look fun bs hlen => ?_
  have h4 : 4 ≤ bs.length := by omega
  have h4' : 4 ≤ (bs.drop 4).length := by rw [List.length_drop]; omega
  have h1 : 1 ≤ ((bs.drop 4).drop 4).length := by simp only [List.length_drop]; omega
  have h1' : 1 ≤ (((bs.drop 4).drop 4).drop 1).length := by simp only [List.length_drop]; omega
  rw [run_bind_of_ok (id_of_le h4), run_bind_of_ok (id_of_le h4'),
    run_bind_of_ok (run_map_of_ok (byte_of_le h1)), run_bind_of_ok (get_of_le h1')]
  simp only [List.drop_drop, List.take_take, List.drop_take, Bytes.octet, List.getD_eq_getElem?_getD,
    List.getElem?_take, List.getElem?_drop]
  rfl

theorem guards_word : Guards (need 4 >>= fun _ => word) Decoder.word :=
  guards_of_look fun _ hlen => word_of_le hlen

theorem guards_id : Guards (need 4 >>= fun _ => id) decodeId := by
  have h := guards_word.map low31
  rw [map_bind] at h
  exact h

theorem guards_headFront (v : Version) :
    Guards (headFront v) (decodeId >>= fun streamId => skipBlockPadding v >>= fun _ => Pure.pure streamId) := by
  rw [headFront, ← bind_assoc]
  refine guards_id.bind fun streamId => ?_
  cases v with
  | v2 =>
    have h := (guards_takeOr 2 (.tooShort 2)).bind fun _ => Guards.pure streamId
    rw [bind_assoc] at h
    rw [skipBlockPadding, bind_map_left]
    exact h
  | v3 => exact Guards.pure streamId

theorem guards_words {α : Type} (f : UInt32 → UInt32 → α) :
    Guards (need 8 >>= fun _ => id >>= fun a => word >>= fun b => Pure.pure (f a b))
      ((fun b => f (low31 (Bytes.word (b.take 4))) (Bytes.word (b.drop 4))) <$> Decoder.take 8) := by
  refine guards_of_look fun bs hlen => ?_
  have h4 : 4 ≤ bs.length := by omega
  have h4' : 4 ≤ (bs.drop 4).length := by rw [List.length_drop]; omega
  rw [run_bind_of_ok (id_of_le h4), run_bind_of_ok (word_of_le h4'), List.take_take, List.drop_take,
    List.drop_drop]
  rfl

theorem guards_settings (flags : UInt8) :
    Guards (body .v3 flags .settings) (decodeBody .v3 flags .settings) := by
  show Guards (need 4 >>= fun _ => (Bytes.toNat <$> get 4) >>= fun n => need (n * 8) >>= fun _ =>
      entries n >>= fun es => Pure.pure (Body.settings flags es))
    ((Bytes.toNat <$> Decoder.take 4) >>= fun n => Decoder.take (n * 8) >>= fun b =>
      Pure.pure (Body.settings flags (Setting.listOfBytes n b)))
  have hcount : Guards (need 4 >>= fun _ => Bytes.toNat <$> get 4) (Bytes.toNat <$> Decoder.take 4) :=
    guards_of_look fun _ hlen => run_map_of_ok (get_of_le hlen)
  rw [← bind_assoc]
  refine hcount.bind fun n => ?_
  have hentries : Guards (need (n * 8) >>= fun _ => entries n)
      (Setting.listOfBytes n <$> Decoder.take (n * 8)) := guards_of_look fun _ hlen => entries_of_le hlen
  have h := hentries.bind fun es => Guards.pure (Body.settings flags es)
  rw [bind_assoc, bind_map_left] at h
  exact h

/-- The payload of a control frame is read without a trap. -/
theorem guards_body (v : Version) (flags : UInt8) (t : FrameType) :
    Guards (body v flags t) (decodeBody v flags t) := by
  cases t with
  | synStream =>
    have h := (guards_synFront v).bind fun f => (guards_block v).bind fun h =>
      Guards.pure (Body.synStream flags f.1 f.2.1 f.2.2 h)
    rw [bind_map_left] at h
    exact h
  | synReply =>
    have h := (guards_headFront v).bind fun streamId => (guards_block v).bind fun h =>
      Guards.pure (Body.synReply flags streamId h)
    simp only [bind_assoc, pure_bind] at h
    exact h
  | rstStream => exact guards_words Body.rstStream
  | settings => exact guards_settings flags
  | noop => exact Guards.pure Body.noop
  | ping =>
    have h := guards_word.map Body.ping
    rw [map_bind] at h
    exact h
  | goAway =>
    show Guards (need 4 >>= fun _ => id >>= _) (decodeId >>= _)
    rw [← bind_assoc]
    refine guards_id.bind fun last => ?_
    cases v with
    | v2 => exact Guards.pure (Body.goAway last 0)
    | v3 =>
      have h := guards_word.bind fun status => Guards.pure (Body.goAway last status)
      rw [bind_assoc] at h
      exact h
  | headers =>
    have h := (guards_headFront v).bind fun streamId => (guards_block v).bind fun h =>
      Guards.pure (Body.headers flags streamId h)
    simp only [bind_assoc, pure_bind] at h
    exact h
  | windowUpdate => exact guards_words fun streamId delta => Body.windowUpdate streamId (low31 delta)

/-! ### Complete frames -/

/-- A stream id that a payload begins with is read without a trap, and a fault in the payload is told of the
stream that it names. -/
theorem streamId?_eq (t : FrameType) (payload : Bytes) :
    ∃ stream, streamId? t payload = .ok (stream, payload) ∧
      ∀ fault, exception t stream fault = Received.malformed t payload fault := by
  have hhas : has 4 payload = .ok (decide (4 ≤ payload.length), payload) := rfl
  have hlook : 4 ≤ (payload.take 4).length ↔ 4 ≤ payload.length := by rw [List.length_take]; omega
  rw [streamId?, run_bind_of_ok hhas]
  cases hscoped : Received.isStreamScoped t with
  | false =>
    refine ⟨none, rfl, fun fault => ?_⟩
    rw [exception, Received.malformed, Received.culprit?, hscoped]
    rfl
  | true =>
    by_cases hlen : 4 ≤ payload.length
    · refine ⟨some (low31 (Bytes.word (payload.take 4))), ?_, fun fault => ?_⟩
      · simp only [hlen, decide_true, Bool.and_self, if_true]
        rw [run_bind_of_ok (peek_of_le hlen)]
        rfl
      · simp only [Received.malformed, Received.culprit?, hscoped, hlook, hlen, decide_true, Bool.true_and]
        by_cases hzero : low31 (Bytes.word (payload.take 4)) = 0
        · simp [exception, hzero]
        · simp [exception, hzero]
    · refine ⟨none, ?_, fun fault => ?_⟩
      · simp only [hlen, decide_false, Bool.and_false]
        rfl
      · simp only [Received.malformed, Received.culprit?, hscoped, hlook, hlen, decide_false, Bool.and_false,
          Bool.false_and]
        rfl

theorem known_eq (v : Version) (flags : UInt8) (t : FrameType) (payload : Bytes) :
    ∃ rest, known v flags t payload = .ok (match decodeBody v flags t payload with
      | .ok (body, _) => .control ⟨v, body⟩
      | .error fault => .malformed t payload fault, rest) := by
  obtain ⟨stream, hstream, hexception⟩ := streamId?_eq t payload
  have hbody := ((guards_body v flags t).bind fun b => Guards.pure (Received.control ⟨v, b⟩)) payload
  have hdecode : (decodeBody v flags t >>= fun b => Pure.pure (Received.control ⟨v, b⟩)) payload =
      (decodeBody v flags t payload >>= fun p => Except.ok (Received.control ⟨v, p.1⟩, p.2)) := rfl
  rw [hdecode] at hbody
  rw [known, run_bind_of_ok hstream, told, hbody]
  cases decodeBody v flags t payload with
  | ok p => exact ⟨p.2, rfl⟩
  | error fault => exact ⟨payload, congrArg (fun x => Except.ok (x, payload)) (hexception fault)⟩

theorem control_eq {header payload : Bytes} (hheader : header.length = headerLength) :
    ∃ rest, control (header ++ payload) = .ok (Received.ofControl? header payload, rest) := by
  match header, hheader with
  | [a, b, c, d, flags, e, f, g], _ =>
    have hrun : control ([a, b, c, d, flags, e, f, g] ++ payload) =
        afterHeader (Bytes.toNat [a, b] % 0x8000) (Bytes.toNat [c, d]) flags payload := by
      rw [control, run_bind_of_ok (run_map_of_ok (get_of_le (by simp))),
        run_bind_of_ok (run_map_of_ok (get_of_le (by simp))), run_bind_of_ok (byte_of_le (by simp)),
        run_bind_of_ok (get_of_le (by simp))]
      rfl
    rw [hrun, afterHeader, Received.ofControl?]
    show ∃ rest, _ = Except.ok (match Version.ofCode? (Bytes.toNat [a, b] % 0x8000) with
        | none => some (Received.sessionException
            ⟨.protocolError, .unsupportedVersion (Bytes.toNat [a, b] % 0x8000)⟩)
        | some v => (FrameType.ofCode? (Bytes.toNat [c, d])).map fun t =>
          match decodeBody v flags t payload with
          | .ok (body, _) => .control ⟨v, body⟩
          | .error fault => .malformed t payload fault, rest)
    cases Version.ofCode? (Bytes.toNat [a, b] % 0x8000) with
    | none => exact ⟨payload, rfl⟩
    | some v =>
      cases FrameType.ofCode? (Bytes.toNat [c, d]) with
      | none => exact ⟨payload, rfl⟩
      | some t =>
        obtain ⟨rest, hknown⟩ := known_eq v flags t payload
        exact ⟨rest, run_map_of_ok hknown⟩

theorem data_eq {header payload : Bytes} (hheader : header.length = headerLength)
    (hpayload : payload.length = Bytes.toNat (header.drop 5)) :
    ∃ rest, data (header ++ payload) = .ok (Received.ofData header payload, rest) := by
  match header, hheader with
  | [a, b, c, d, flags, e, f, g], _ =>
    have hlen : payload.length = Bytes.toNat [e, f, g] := hpayload
    have hget : get (Bytes.toNat [e, f, g]) payload = .ok (payload, []) := by
      rw [← hlen, get_of_le (Nat.le_refl _), List.take_length, List.drop_length]
    rw [data, run_bind_of_ok (id_of_le (by simp)), run_bind_of_ok (byte_of_le (by simp)),
      run_bind_of_ok (run_map_of_ok (peek_of_le (by simp))), run_bind_of_ok (get_of_le (by simp))]
    show ∃ rest, (if low31 (Bytes.word [a, b, c, d]) = 0 then
        Pure.pure (Received.sessionException ⟨.protocolError, .dataOnStreamZero⟩)
      else get (Bytes.toNat [e, f, g]) >>= fun p =>
        Pure.pure (Received.data ⟨low31 (Bytes.word [a, b, c, d]), flags, .ofNat (Bytes.toNat [e, f, g]), p⟩) :
          BareDecoder Received) payload = _
    by_cases hid : low31 (Bytes.word [a, b, c, d]) = 0
    · have hmeans : Received.ofData [a, b, c, d, flags, e, f, g] payload =
          .sessionException ⟨.protocolError, .dataOnStreamZero⟩ := if_pos hid
      rw [if_pos hid, hmeans]
      exact ⟨payload, rfl⟩
    · have hmeans : Received.ofData [a, b, c, d, flags, e, f, g] payload =
          .data ⟨low31 (Bytes.word [a, b, c, d]), flags, .ofNat (Bytes.toNat [e, f, g]), payload⟩ := if_neg hid
      rw [if_neg hid, hmeans, run_bind_of_ok hget]
      exact ⟨[], rfl⟩

theorem frame_eq {header payload : Bytes} (hheader : header.length = headerLength)
    (hpayload : payload.length = Bytes.toNat (header.drop 5)) :
    ∃ rest, frame (header ++ payload) = .ok (Received.ofFrame? header payload, rest) := by
  have hlen : 1 ≤ (header ++ payload).length := by
    rw [List.length_append, hheader]
    exact Nat.le_add_right_of_le (by decide)
  have hfirst : Bytes.octet ((header ++ payload).take 1) 0 = Bytes.octet header 0 := by
    match header, hheader with
    | _ :: _, _ => rfl
  rw [frame, run_bind_of_ok (run_map_of_ok (peek_of_le hlen)), hfirst, Received.ofFrame?]
  by_cases hcontrol : Bytes.octet header 0 < 0x80
  · obtain ⟨rest, hdata⟩ := data_eq hheader hpayload
    rw [if_pos hcontrol, if_pos hcontrol]
    exact ⟨rest, run_map_of_ok hdata⟩
  · rw [if_neg hcontrol, if_neg hcontrol]
    exact control_eq hheader

end BareDecoder

/-! ## Readers -/

/-- A reader that cuts frames off its buffer. -/
structure BareReader where
  buffer : Bytes
  failed : Bool

namespace BareReader

open BareDecoder

def new : BareReader := ⟨[], false⟩

/-- Cuts the first frame off, if it is complete: the length stands in the last bytes of the header. -/
def cut : BareDecoder (Option Bytes) := do
  if ← has headerLength then
    let length ← (fun b => Bytes.toNat (b.drop 5)) <$> peek headerLength
    if ← has (headerLength + length) then some <$> get (headerLength + length)
    else return none
  else return none

/-- Cuts frames off and reads them, as long as there are complete ones and none ends the session. At most
`bound` frames are read. -/
def drain : Nat → Bytes → List Received → Except Halt (List Received × BareReader)
  | 0, buffer, before => .ok (before, ⟨buffer, false⟩)
  | bound + 1, buffer, before => do
    let (first, rest) ← cut buffer
    match first with
    | none => return (before, ⟨rest, false⟩)
    | some bytes =>
      let (got, _) ← frame bytes
      if got.any Received.isFatal then return (before ++ got.toList, ⟨[], true⟩)
      else drain bound rest (before ++ got.toList)

/-- Takes a piece and reads all complete frames. -/
def feed (r : BareReader) (piece : Bytes) : Except Halt (List Received × BareReader) :=
  if r.failed then .ok ([], r)
  else drain (r.buffer ++ piece).length (r.buffer ++ piece) []

def feedAll (r : BareReader) : List Bytes → Except Halt (List Received × BareReader)
  | [] => .ok ([], r)
  | piece :: pieces => do
    let (told, r) ← r.feed piece
    let (more, r) ← r.feedAll pieces
    return (told ++ more, r)

structure Shows (b : BareReader) (r : Reader) : Prop where
  failed : b.failed = r.failed
  buffer : r.failed = false → b.buffer = r.buffer.toList

theorem cut_of_short {bs : Bytes} (short : bs.length < headerLength ∨
    bs.length < headerLength + Bytes.toNat ((bs.take headerLength).drop 5)) : cut bs = .ok (none, bs) := by
  have hhas : ∀ n, has n bs = .ok (decide (n ≤ bs.length), bs) := fun _ => rfl
  rw [cut, run_bind_of_ok (hhas headerLength)]
  by_cases hheader : headerLength ≤ bs.length
  · have hrest : ¬ headerLength + Bytes.toNat ((bs.take headerLength).drop 5) ≤ bs.length := by omega
    simp only [hheader, decide_true, if_true]
    rw [run_bind_of_ok (run_map_of_ok (peek_of_le hheader)), run_bind_of_ok (hhas _)]
    simp only [hrest, decide_false]
    rfl
  · simp only [hheader, decide_false]
    rfl

theorem cut_of_frame {header payload bs : Bytes} (hheader : header.length = headerLength)
    (hpayload : payload.length = Bytes.toNat (header.drop 5)) :
    cut (header ++ payload ++ bs) = .ok (some (header ++ payload), bs) := by
  have hhas : ∀ n, has n (header ++ payload ++ bs) =
      .ok (decide (n ≤ (header ++ payload ++ bs).length), header ++ payload ++ bs) := fun _ => rfl
  have htotal : headerLength + Bytes.toNat (header.drop 5) = (header ++ payload).length := by
    rw [List.length_append, hheader, hpayload]
  have hall : (header ++ payload).length ≤ (header ++ payload ++ bs).length :=
    (List.prefix_append _ _).length_le
  have hfront : headerLength ≤ (header ++ payload ++ bs).length := by omega
  rw [cut, run_bind_of_ok (hhas headerLength)]
  simp only [hfront, decide_true, if_true]
  rw [run_bind_of_ok (run_map_of_ok (peek_of_le hfront)), take_frame bs hheader, run_bind_of_ok (hhas _), htotal]
  simp only [hall, decide_true, if_true]
  rw [run_map_of_ok (get_of_le hall), List.take_left, List.drop_left]

/-- All complete frames are read without a trap, up to one that ends the session. -/
theorem drain_framing {bound : Nat} {buffer rest : Bytes} {frames : List (Bytes × Bytes)}
    (before : List Received) (h : Framing buffer frames rest) (hbound : buffer.length ≤ bound) :
    ∃ b, drain bound buffer before = .ok (before ++ Received.ofFrames frames, b) ∧
      b.failed = Received.endsIn frames ∧ (b.failed = false → b.buffer = rest) := by
  induction h generalizing bound before with
  | @rest bs short =>
    refine ⟨⟨bs, false⟩, ?_, rfl, fun _ => rfl⟩
    rw [Received.ofFrames, List.append_nil]
    cases bound with
    | zero => rfl
    | succ bound =>
      rw [drain, cut_of_short short]
      rfl
  | @frame header payload bs rest frames hheader hpayload h ih =>
    obtain ⟨left, hframe⟩ := frame_eq hheader hpayload
    have hpos : 0 < headerLength := by decide
    rw [List.length_append, List.length_append, hheader] at hbound
    cases bound with
    | zero => omega
    | succ bound =>
      have hdrain : drain (bound + 1) (header ++ payload ++ bs) before =
          if (Received.ofFrame? header payload).any Received.isFatal then
            .ok (before ++ (Received.ofFrame? header payload).toList, ⟨[], true⟩)
          else drain bound bs (before ++ (Received.ofFrame? header payload).toList) := by
        rw [drain, cut_of_frame hheader hpayload]
        show (frame (header ++ payload) >>= _) = _
        rw [hframe]
        rfl
      rw [hdrain, Received.ofFrames, Received.endsIn_cons]
      cases hgot : Received.ofFrame? header payload with
      | none =>
        obtain ⟨b, hb, hfailed, hbuffer⟩ := ih before (by omega : bs.length ≤ bound)
        refine ⟨b, ?_, hfailed, hbuffer⟩
        rw [Option.any_none, if_neg (by decide), Option.toList_none, List.append_nil]
        exact hb
      | some got =>
        cases hfatal : got.isFatal with
        | true => exact ⟨⟨[], true⟩, by simp [hfatal], by simp [hfatal], fun hlive => by cases hlive⟩
        | false =>
          obtain ⟨b, hb, hfailed, hbuffer⟩ := ih (before ++ [got]) (by omega : bs.length ≤ bound)
          refine ⟨b, ?_, by simp [hfatal, hfailed], hbuffer⟩
          simpa [hfatal] using hb

theorem feed_eq {b : BareReader} {r : Reader} (h : b.Shows r) (piece : Bytes) :
    ∃ b' : BareReader, b.feed piece = .ok ((r.feed piece).1.toList, b') ∧ b'.Shows (r.feed piece).2 := by
  cases hr : r.failed with
  | true =>
    have hfeed : r.feed piece = (#[], r) := by
      rw [Reader.feed, Reader.push, if_pos hr]
      exact Reader.drain_of_next?_eq_none (by rw [Reader.next?, if_pos hr])
    rw [hfeed, feed, if_pos (h.failed.trans hr)]
    exact ⟨b, rfl, h⟩
  | false =>
    obtain ⟨frames, rest, hframes⟩ := framing_exists (r.buffer.toList ++ piece)
    have hpush : (r.push piece).failed = false ∧ (r.push piece).buffer.toList = r.buffer.toList ++ piece := by
      rw [Reader.push, if_neg (by simp [hr])]
      exact ⟨hr, Buffer.toList_append r.buffer piece⟩
    have hfeed := Reader.drain_framing #[] hpush.1 (hpush.2 ▸ hframes)
    obtain ⟨b', hb', hfailed, hbuffer⟩ := drain_framing [] hframes (Nat.le_refl _)
    refine ⟨b', ?_, ⟨hfailed.trans hfeed.2.1.symm, fun hlive => ?_⟩⟩
    · rw [feed, if_neg (by simp [h.failed, hr]), h.buffer hr, hb']
      show _ = Except.ok (((r.push piece).drain #[]).1.toList, b')
      rw [hfeed.1]
    · exact (hbuffer (hfailed.trans (hfeed.2.1.symm.trans hlive))).trans (hfeed.2.2 hlive).symm

/-- Whatever bytes arrive, in whatever pieces, nothing is read beyond the end, and what is told is what the
reader tells. -/
theorem feedAll_eq {b : BareReader} {r : Reader} (h : b.Shows r) (pieces : List Bytes) :
    ∃ b' : BareReader, b.feedAll pieces = .ok ((r.feedAll pieces).1, b') ∧ b'.Shows (r.feedAll pieces).2 := by
  induction pieces generalizing b r with
  | nil => exact ⟨b, rfl, h⟩
  | cons piece pieces ih =>
    obtain ⟨b', hfeed, hb'⟩ := feed_eq h piece
    obtain ⟨b'', hmore, hb''⟩ := ih hb'
    refine ⟨b'', ?_, hb''⟩
    rw [feedAll, hfeed]
    show (b'.feedAll pieces >>= _) = _
    rw [hmore]
    rfl

end BareReader

end Spdy
