import Spdy.Proofs.Assured

/-!
# How a session responds

A frame that arrives changes the session at once, or leaves a task that will; and a task that is done changes it at
once.

* `Word`, `Bears` : what letters say of a stream;
* `Session.reset_abandons`, `Session.mem_reset` : a stream is given up, and the peer is told;
* `Session.receive_reset`, `Session.receive_last`, `Session.receive_fault`, `Session.receive_opening` : what follows
  from each word at once;
* `Session.perform_lose`, `Session.perform_reclaim` : the tasks that take a stream out of the table;
* `lose_of_next?` : such a task is there only if the peer gave the stream up.
-/

namespace Spdy

/-! ## What letters say of a stream -/

/-- What a letter may say of a stream: that it is opened, that nothing more is said on it, that it is given up, or that
something about it could not be read. -/
inductive Word
  | opening
  | last
  | reset
  | fault
deriving DecidableEq, Inhabited

def Received.bears (w : Word) (id : UInt32) (got : Received) : Bool :=
  match w, got with
  | .opening, got => got.opening? == some id
  | .last, got => got.closes && got.streamId? == some id
  | .reset, got => got.reset? == some id
  | .fault, streamException e => e.streamId == id
  | .fault, _ => false

def Bears (letters : List Received) (w : Word) (id : UInt32) : Prop := ∃ got ∈ letters, got.bears w id

section Bears

variable {w : Word} {id : UInt32} {got : Received} {letters more : List Received}

theorem Received.streamId?_of_bears (h : got.bears w id) : got.streamId? = some id := by
  cases w with
  | opening =>
    obtain h : got.opening? = some id := by simpa [bears] using h
    exact (reset?_of_opening? h).2
  | last =>
    obtain h : got.closes = true ∧ got.streamId? = some id := by simpa [bears] using h
    exact h.2
  | reset =>
    obtain h : got.reset? = some id := by simpa [bears] using h
    unfold reset? at h
    split at h
    · exact h
    · cases h
  | fault =>
    unfold bears at h
    split at h
    · next hw => cases hw
    · next hw => cases hw
    · next hw => cases hw
    · exact congrArg some (by simpa using h)
    · cases h

theorem Bears.mono (h : Bears letters w id) (hsub : ∀ got ∈ letters, got ∈ more) : Bears more w id :=
  h.imp fun got ⟨hgot, hbears⟩ => ⟨hsub got hgot, hbears⟩

theorem bears_append : Bears (letters ++ more) w id ↔ Bears letters w id ∨ Bears more w id := by
  simp only [Bears, List.mem_append, or_and_right, exists_or]

end Bears

namespace Session

variable {cap : Nat} {s : Session} {version : Version} {id : UInt32} {status : StreamStatus}

/-! ## A stream is given up -/

theorem encode_reset (version : Version) (id n : UInt32) :
    ∃ bytes, ControlFrame.encode ⟨version, .rstStream id n⟩ = .ok bytes := ⟨_, rfl⟩

/-- The frame that gives a stream up can be encoded if the version has the status. -/
theorem encodeReset_of_code? (hstatus : (status.code? version).isSome) :
    ∃ bytes, encodeReset (.standard cap) version id status = .ok bytes := by
  obtain ⟨n, hn⟩ := Option.isSome_iff_exists.1 hstatus
  unfold encodeReset
  rw [hn]
  exact encode_reset version id _

theorem reset_abandons (tidy : s.Tidy) (sent : s.goAwaySent = false) (version : Version) (id : UInt32)
    (status : StreamStatus) : s.Abandons (s.reset (.standard cap) version id status).session id := by
  rw [reset_eq, sent, if_neg Bool.false_ne_true]
  split
  · exact (giveUp_abandons (s.post _) ⟨tidy.known, tidy.nodup⟩ id []).of_post
  · exact s.giveUp_abandons tidy id _

theorem Abandons.idOf {t : Session} (h : s.Abandons t id) (r : StreamRef) : t.idOf r = s.idOf r := h.map (·.id) r

theorem Abandons.idOf_ne {t : Session} (h : s.Abandons t id) {r : StreamRef} (hr : r ∈ t.table) : t.idOf r ≠ id := by
  rw [h.table, List.mem_filter] at hr
  rw [h.idOf]
  simpa using hr.2

theorem mem_reset (sent : s.goAwaySent = false) (hstatus : (status.code? version).isSome) :
    ∃ bytes n, .control .rstStream bytes none ∈ (s.reset (.standard cap) version id status).session.outbox.parcels ∧
      ControlFrame.encode ⟨version, .rstStream id n⟩ = .ok bytes := by
  obtain ⟨bytes, hencoded⟩ : ∃ bytes, encodeReset (.standard cap) version id status = .ok bytes :=
    encodeReset_of_code? hstatus
  obtain ⟨n, hn⟩ := encodeReset_eq_ok hencoded
  refine ⟨bytes, n, ?_, hn⟩
  rw [reset_eq, sent, if_neg Bool.false_ne_true, hencoded]
  show _ ∈ ((s.post [.control .rstStream bytes none]).giveUp id []).session.outbox.parcels
  rw [giveUp_outbox]
  exact List.mem_append_right _ List.mem_cons_self

/-! ## What follows from a word -/

variable {got : Received}

theorem receive_reset (enc : Encoder) (sent : s.goAwaySent = false) (h : got.bears .reset id) :
    .lose id ∈ (s.receive enc got).todo := by
  obtain h : got.reset? = some id := by simpa [Received.bears] using h
  unfold Received.reset? at h
  split at h
  · next version id' code =>
    obtain rfl := Option.some.inj h
    simp [receive, sent, receiveControl, receiveReset]
  · cases h

/-- The end of what is said on a stream that is there closes it. -/
theorem receiveOn_last (tidy : s.Tidy) {r q : StreamRef} (hfind : s.find? id = some r) (notice : Notice)
    (hq : q ∈ (s.receiveOn r true notice).session.table) (hid : (s.receiveOn r true notice).session.idOf q = id) :
    ((s.receiveOn r true notice).session.stream q).remoteClosed := by
  have hmem : r ∈ s.table := List.mem_of_find?_eq_some hfind
  have hrid : s.idOf r = id := by simpa using List.find?_some hfind
  have hqid : (s.closeRemote r).idOf q = id := hid
  rw [closeRemote, s.idOf_update r rfl] at hqid
  obtain rfl : q = r := List.inj_on_of_nodup_map tidy.nodup hq hmem (hqid.trans hrid.symm)
  show ((s.closeRemote q).stream q).remoteClosed
  rw [closeRemote, stream_update_self _ (tidy.known q hmem)]

theorem receiveHead_last (tidy : s.Tidy) (sent : s.goAwaySent = false) {head : Head} (hclose : head.close)
    {notice : StreamRef → Head → Notice} {q : StreamRef}
    (hq : q ∈ (s.receiveHead (.standard cap) version id head notice).session.table)
    (hid : (s.receiveHead (.standard cap) version id head notice).session.idOf q = id) :
    ((s.receiveHead (.standard cap) version id head notice).session.stream q).remoteClosed := by
  unfold receiveHead at hq hid ⊢
  cases hfind : s.find? id with
  | none =>
    simp only [hfind] at hq hid
    exact absurd hid ((reset_abandons tidy sent _ _ _).idOf_ne hq)
  | some r =>
    simp only [hfind, hclose] at hq hid ⊢
    exact receiveOn_last tidy hfind _ hq hid

theorem receiveSyn_last (tidy : s.Tidy) (sent : s.goAwaySent = false) {opening : Opening} (hclose : opening.close)
    {q : StreamRef} (hq : q ∈ (s.receiveSyn (.standard cap) version id opening).session.table)
    (hid : (s.receiveSyn (.standard cap) version id opening).session.idOf q = id) :
    ((s.receiveSyn (.standard cap) version id opening).session.stream q).remoteClosed := by
  unfold receiveSyn at hq hid ⊢
  by_cases hbad : id = 0 ∨ s.config.isLocal id
  · rw [if_pos hbad] at hq hid
    exact absurd hid ((reset_abandons tidy sent _ _ _).idOf_ne hq)
  · rw [if_neg hbad] at hq hid ⊢
    cases hfind : s.find? id with
    | some r =>
      simp only [hfind] at hq hid
      exact absurd hid ((reset_abandons tidy sent _ _ _).idOf_ne hq)
    | none =>
      simp only [hfind] at hq hid ⊢
      rcases mem_table_register.1 hq with ⟨hold, hne⟩ | rfl
      · refine absurd ?_ hne
        rw [idOf, stream_register_of_lt _ (tidy.known q hold)] at hid
        exact hid
      · rw [stream_register_nextRef]
        exact hclose

/-- A stream on which nothing more is said is closed on that side, if it is still there. -/
theorem receive_last (tidy : s.Tidy) (sent : s.goAwaySent = false) (h : got.bears .last id) {q : StreamRef}
    (hq : q ∈ (s.receive (.standard cap) got).session.table)
    (hid : (s.receive (.standard cap) got).session.idOf q = id) :
    ((s.receive (.standard cap) got).session.stream q).remoteClosed := by
  obtain ⟨hcloses, habout⟩ : got.closes = true ∧ got.streamId? = some id := by simpa [Received.bears] using h
  cases got with
  | control f =>
    obtain ⟨version, body⟩ := f
    rw [receive_control _ sent] at hq hid ⊢
    cases body with
    | synStream flags id' associatedId priority headers =>
      obtain rfl := Option.some.inj habout
      exact receiveSyn_last tidy sent hcloses hq hid
    | synReply flags id' headers =>
      obtain rfl := Option.some.inj habout
      exact receiveHead_last tidy sent hcloses hq hid
    | headers flags id' headers =>
      obtain rfl := Option.some.inj habout
      exact receiveHead_last tidy sent hcloses hq hid
    | _ => cases hcloses
  | data f =>
    obtain rfl := Option.some.inj habout
    rw [receive_data _ sent, receiveData] at hq hid ⊢
    cases hfind : s.find? f.streamId with
    | none =>
      simp only [hfind] at hq hid
      exact absurd hid ((reset_abandons tidy sent _ _ _).idOf_ne hq)
    | some r =>
      obtain hcloses : f.closes = true := hcloses
      simp only [hfind, hcloses] at hq hid ⊢
      exact receiveOn_last tidy hfind _ hq hid
  | streamException e => cases hcloses
  | sessionException e => cases hcloses

theorem code?_protocolError (version : Version) : (StreamStatus.protocolError.code? version).isSome := by
  cases version <;> rfl

theorem receive_fault (sent : s.goAwaySent = false) {e : StreamException} (hstatus : e.status = .protocolError) :
    ∃ version bytes n, ControlFrame.encode ⟨version, .rstStream e.streamId n⟩ = .ok bytes ∧
      .control .rstStream bytes none ∈ (s.receive (.standard cap) (.streamException e)).session.outbox.parcels := by
  obtain ⟨bytes, n, hmem, hencoded⟩ := @mem_reset cap s _ e.streamId _ sent
    (code?_protocolError (((s.find? e.streamId).map fun r => (s.stream r).version).getD s.config.version))
  refine ⟨_, bytes, n, hencoded, ?_⟩
  rw [← hstatus] at hmem
  exact hmem

/-- A stream that is opened is there, or was. -/
theorem receive_opening (tidy : s.Tidy) (sent : s.goAwaySent = false) (valid : id ≠ 0)
    (remote : s.config.isLocal id = false) (h : got.bears .opening id) :
    ∃ r, r.serial < (s.receive (.standard cap) got).session.streams.size ∧
      (s.receive (.standard cap) got).session.idOf r = id := by
  obtain h : got.opening? = some id := by simpa [Received.bears] using h
  unfold Received.opening? at h
  split at h
  · next version flags id' associatedId priority headers _ =>
    obtain rfl := Option.some.inj h
    rw [receive_control _ sent, receiveControl]
    dsimp only
    unfold receiveSyn
    rw [if_neg (by simp [valid, remote])]
    cases hfind : s.find? id' with
    | none =>
      refine ⟨s.nextRef, ?_, ?_⟩
      · rw [size_register]
        exact Nat.lt_succ_self _
      · exact congrArg Stream.id (stream_register_nextRef _ _)
    | some r =>
      have habandons : s.Abandons (s.reset (.standard cap) (s.stream r).version id' .protocolError).session id' :=
        reset_abandons tidy sent _ _ _
      refine ⟨r, ?_, ?_⟩
      · rw [habandons.size]
        exact tidy.known r (List.mem_of_find?_eq_some hfind)
      · rw [habandons.idOf]
        simpa using List.find?_some hfind
  · cases h

/-! ## Tasks that take a stream out of the table -/

theorem perform_lose (tidy : s.Tidy) {r : StreamRef}
    (hr : r ∈ (s.perform (.standard cap) (.lose id)).session.table) :
    (s.perform (.standard cap) (.lose id)).session.idOf r ≠ id := by
  simp only [perform] at hr ⊢
  cases hfind : s.find? id with
  | none =>
    simp only [hfind] at hr ⊢
    have := List.find?_eq_none.1 hfind r hr
    simpa using this
  | some q =>
    simp only [hfind] at hr ⊢
    exact (abandons_remove tidy hfind).idOf_ne hr

theorem perform_reclaim {r : StreamRef} (hclosed : (s.stream r).isClosed) :
    r ∉ (s.perform (.standard cap) (.reclaim r)).session.table := by
  simp only [perform, hclosed, if_true]
  rw [(s.remove_sheds r).1.table, List.mem_filter]
  simp

end Session

/-! ## Where the task comes from that takes a stream out for the peer -/

/-- The task is there only if the peer gave the stream up. -/
theorem lose_of_next? {cap : Nat} {m m' : Machine} {e : Event} (h : m.next? (.standard cap) e = some m') {id : UInt32}
    (hx : .lose id ∈ m'.tasks) :
    .lose id ∈ m.tasks ∨ ∃ got, Moment.taken? ⟨m, e, m'⟩ = some got ∧ got.bears .reset id := by
  cases stems_of_next? h hx with
  | stays mem => exact .inl mem
  | begins possible mem =>
    cases Session.begin_leaves mem with
    | mourns h | wrote _ h => cases h
    | lose => exact .inr ⟨_, rfl, by simp [Received.bears, Received.reset?]⟩
  | performs known notCall mem =>
    cases Session.perform_begets notCall mem with
    | mourns h => cases h

end Spdy
