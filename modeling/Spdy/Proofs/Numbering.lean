import Spdy.Proofs.Deed
import Spdy.Proofs.Fields
import Spdy.Proofs.Life

/-!
# The ids of streams

A side numbers the streams that it opens, and the other side numbers the others. As long as there are not too many, an
id is not 0, fits in 31 bits, and names one stream only.

* `Received.IsRead`, `low31_of_isRead`, `status_of_isRead` : what was read, and the stream that it is about;
* `Numbered`, `numbered_of_run` : where the ids of streams come from;
* `Session.Sound`, `Numbered.sound` : ids are not 0 and fit in 31 bits;
* `OpensFirst` : a frame that opens a stream comes before all that is said on it;
* `Session.Distinct`, `distinct_of_run` : different streams have different ids.
-/

namespace Spdy

/-! ## Ids that are read -/

def Received.IsRead (got : Received) : Prop := ∃ header payload, Received.ofFrame? header payload = some got

namespace Decoder

variable {α β : Type}

theorem bind_eq_ok {d : Decoder α} {f : α → Decoder β} {bs rest : Bytes} {b : β}
    (h : (d >>= f) bs = .ok (b, rest)) : ∃ a mid, d bs = .ok (a, mid) ∧ f a mid = .ok (b, rest) := by
  change (d bs >>= fun p => f p.1 p.2) = _ at h
  cases hd : d bs with
  | error fault =>
    rw [hd] at h
    cases h
  | ok p =>
    rw [hd] at h
    exact ⟨p.1, p.2, rfl, h⟩

theorem pure_eq_ok {bs rest : Bytes} {a b : α} (h : (pure a : Decoder α) bs = .ok (b, rest)) : b = a := by
  cases h
  rfl

theorem map_eq_ok {d : Decoder α} {f : α → β} {bs rest : Bytes} {b : β} (h : (f <$> d) bs = .ok (b, rest)) :
    ∃ a, b = f a := by
  obtain ⟨a, mid, -, ha⟩ := bind_eq_ok (d := d) (f := fun a => pure (f a)) (by simpa using h)
  exact ⟨a, pure_eq_ok ha⟩

end Decoder

open Decoder in
/-- The id of a stream has 31 bits. -/
theorem low31_of_decodeBody {v : Version} {flags : UInt8} {t : FrameType} {payload rest : Bytes} {body : Body}
    (h : decodeBody v flags t payload = .ok (body, rest)) {id : UInt32} (hstream : body.streamId? = some id) :
    low31 id = id := by
  -- the id is masked by the reader, before a header block or along with the other fixed fields
  have hmasked : ∀ {n : UInt32}, body.streamId? = some (low31 n) → low31 id = id := by
    intro n hn
    rw [hn] at hstream
    rw [← Option.some.inj hstream, low31_low31]
  have hfirst : ∀ {n : UInt32} {bs mid : Bytes}, decodeId bs = .ok (n, mid) → ∃ w, n = low31 w :=
    fun hn => map_eq_ok hn
  cases t with
  | synStream =>
    obtain ⟨b, mid, -, hb⟩ := bind_eq_ok h
    obtain ⟨headers, mid', -, hh⟩ := bind_eq_ok hb
    obtain rfl := pure_eq_ok hh
    exact hmasked rfl
  | synReply =>
    obtain ⟨n, mid, hn, h⟩ := bind_eq_ok h
    obtain ⟨w, rfl⟩ := hfirst hn
    obtain ⟨_, _, -, h⟩ := bind_eq_ok h
    obtain ⟨_, _, -, h⟩ := bind_eq_ok h
    obtain rfl := pure_eq_ok h
    exact hmasked rfl
  | headers =>
    obtain ⟨n, mid, hn, h⟩ := bind_eq_ok h
    obtain ⟨w, rfl⟩ := hfirst hn
    obtain ⟨_, _, -, h⟩ := bind_eq_ok h
    obtain ⟨_, _, -, h⟩ := bind_eq_ok h
    obtain rfl := pure_eq_ok h
    exact hmasked rfl
  | rstStream =>
    obtain ⟨_, _, -, h⟩ := bind_eq_ok h
    obtain rfl := pure_eq_ok h
    exact hmasked rfl
  | windowUpdate =>
    obtain ⟨_, _, -, h⟩ := bind_eq_ok h
    obtain rfl := pure_eq_ok h
    exact hmasked rfl
  | settings =>
    obtain ⟨_, _, -, h⟩ := bind_eq_ok h
    obtain ⟨_, _, -, h⟩ := bind_eq_ok h
    obtain rfl := pure_eq_ok h
    cases hstream
  | noop =>
    obtain rfl := pure_eq_ok h
    cases hstream
  | ping =>
    obtain ⟨_, rfl⟩ := map_eq_ok h
    cases hstream
  | goAway =>
    obtain ⟨_, _, -, h⟩ := bind_eq_ok h
    cases v with
    | v2 =>
      obtain rfl := pure_eq_ok h
      cases hstream
    | v3 =>
      obtain ⟨_, _, -, h⟩ := bind_eq_ok h
      obtain rfl := pure_eq_ok h
      cases hstream

namespace Received

theorem reset?_of_opening? {got : Received} {id : UInt32} (h : got.opening? = some id) :
    got.reset? = none ∧ got.streamId? = some id := by
  unfold opening? at h
  split at h
  · exact ⟨rfl, h⟩
  · cases h

/-- What is read is a control frame, data, an exception of a stream, or one of the session. -/
theorem cases_of_isRead {got : Received} (h : got.IsRead) :
    (∃ v flags t payload body rest, got = .control ⟨v, body⟩ ∧ decodeBody v flags t payload = .ok (body, rest)) ∨
      (∃ f : DataFrame, got = .data f ∧ ∃ n, f.streamId = low31 n) ∨
      (∃ e : StreamException, got = .streamException e ∧ e.status = .protocolError ∧ ∃ n, e.streamId = low31 n) ∨
      ∃ e, got = .sessionException e := by
  obtain ⟨header, payload, h⟩ := h
  unfold ofFrame? at h
  split at h
  · unfold ofData at h
    dsimp only at h
    split at h
    · exact .inr (.inr (.inr ⟨_, (Option.some.inj h).symm⟩))
    · exact .inr (.inl ⟨_, (Option.some.inj h).symm, _, rfl⟩)
  · unfold ofControl? at h
    dsimp only at h
    split at h
    · exact .inr (.inr (.inr ⟨_, (Option.some.inj h).symm⟩))
    · obtain ⟨t, -, ht⟩ := Option.map_eq_some_iff.1 h
      split at ht
      · next body rest hdecode => exact .inl ⟨_, _, _, _, body, rest, ht.symm, hdecode⟩
      · unfold malformed at ht
        split at ht
        · next id hid =>
          unfold culprit? at hid
          split at hid
          · exact .inr (.inr (.inl ⟨_, ht.symm, rfl, _, (Option.some.inj hid).symm⟩))
          · cases hid
        · exact .inr (.inr (.inr ⟨_, ht.symm⟩))

end Received

theorem low31_of_isRead {got : Received} (h : got.IsRead) {id : UInt32} (hstream : got.streamId? = some id) :
    low31 id = id := by
  rcases Received.cases_of_isRead h with
    ⟨v, flags, t, payload, body, rest, rfl, hdecode⟩ | ⟨f, rfl, n, hn⟩ | ⟨e, rfl, -, n, hn⟩ | ⟨e, rfl⟩
  · exact low31_of_decodeBody hdecode hstream
  · rw [← Option.some.inj hstream, hn, low31_low31]
  · rw [← Option.some.inj hstream, hn, low31_low31]
  · cases hstream

/-- An exception of a stream that was read breaks the protocol. -/
theorem status_of_isRead {e : StreamException} (h : (Received.streamException e).IsRead) :
    e.status = .protocolError := by
  rcases Received.cases_of_isRead h with ⟨_, _, _, _, _, _, heq, -⟩ | ⟨_, heq, -⟩ | ⟨_, heq, hstatus, -⟩ | ⟨_, heq⟩
  · cases heq
  · cases heq
  · cases heq
    exact hstatus
  · cases heq

/-! ## Where ids come from -/

inductive Comes (mo : Moment) : Prop
  | none (size : mo.after.session.streams.size = mo.before.session.streams.size)
  | own (size : mo.after.session.streams.size = mo.before.session.streams.size + 1)
      (hasId : mo.after.session.idOf mo.before.session.nextRef = mo.before.session.nextStreamId)
      (allots : mo.allots? = some mo.before.session.nextStreamId)
      (next : mo.after.session.nextStreamId = mo.before.session.nextStreamId + 2)
  | others {got : Received} {id : UInt32}
      (size : mo.after.session.streams.size = mo.before.session.streams.size + 1)
      (hasId : mo.after.session.idOf mo.before.session.nextRef = id) (taken : mo.taken? = some got)
      (opening : got.opening? = some id) (valid : id ≠ 0) (remote : mo.before.session.config.isLocal id = false)

theorem Moment.allots?_of_syn {mo : Moment} {version : Version} {opening : Opening} {listener : Option Listener}
    (h : mo.op? = some (.syn version opening listener)) (bidirectional : opening.unidirectional = false)
    (sent : mo.before.session.goAwaySent = false) : mo.allots? = some mo.before.session.nextStreamId := by
  simp [allots?, h, Operation.opens?, bidirectional, sent]

theorem Moment.taken?_of_receive {mo : Moment} {got : Received} (h : mo.op? = some (.receive got)) :
    mo.taken? = some got := by
  simp [taken?, h]

section Moment

variable {cap : Nat} {enc : Encoder} {mo : Moment} {p : Progress} {new : List Parcel}

theorem config_of_deed (deed : Deed enc mo.before.session mo.op? mo.task? p new)
    (session : mo.after.session = p.session) : mo.after.session.config = mo.before.session.config := by
  rw [session]
  cases deed with
  | same same => exact same.config
  | data known same => exact same.config
  | said known isHead notOpening about encoded localOpen same =>
    exact same.config_of_mark
  | opened asks bidirectional sent encoded hasId localClosed remoteClosed reset same => exact same.config
  | unopened asks bidirectional sent same => exact same.config
  | born asks sent valid remote absent hasId localClosed remoteClosed reset same => exact same.config
  | heard asks about mem same =>
    exact same.config_of_mark
  | quit cause encoded abandons => exact abandons.config
  | muffled cause refused abandons => exact abandons.config
  | lost does abandons => exact abandons.config
  | reclaimed does closed sheds => exact sheds.config

theorem nextStreamId_of_deed (deed : Deed enc mo.before.session mo.op? mo.task? p new)
    (session : mo.after.session = p.session) :
    mo.after.session.nextStreamId = mo.before.session.nextStreamId ∨
      mo.allots? = some mo.before.session.nextStreamId ∧
        mo.after.session.nextStreamId = mo.before.session.nextStreamId + 2 := by
  rw [session]
  cases deed with
  | same same => exact .inl same.nextStreamId
  | data known same => exact .inl same.nextStreamId
  | said known isHead notOpening about encoded localOpen same =>
    exact .inl same.nextStreamId_of_mark
  | opened asks bidirectional sent encoded hasId localClosed remoteClosed reset same =>
    exact .inr ⟨Moment.allots?_of_syn asks bidirectional sent, same.nextStreamId⟩
  | unopened asks bidirectional sent same =>
    exact .inr ⟨Moment.allots?_of_syn asks bidirectional sent, same.nextStreamId⟩
  | born asks sent valid remote absent hasId localClosed remoteClosed reset same => exact .inl same.nextStreamId
  | heard asks about mem same =>
    exact .inl same.nextStreamId_of_mark
  | quit cause encoded abandons => exact .inl abandons.nextStreamId
  | muffled cause refused abandons => exact .inl abandons.nextStreamId
  | lost does abandons => exact .inl abandons.nextStreamId
  | reclaimed does closed sheds => exact .inl sheds.nextStreamId

theorem comes_of_deed (deed : Deed enc mo.before.session mo.op? mo.task? p new)
    (session : mo.after.session = p.session) : Comes mo := by
  have hregister : ∀ {s t : Session} {x : Stream}, (s.register x).Same t →
      t.streams.size = s.streams.size + 1 ∧ t.idOf s.nextRef = x.id := by
    intro s t x same
    refine ⟨same.size.trans (Session.size_register s x), ?_⟩
    rw [same.idOf, Session.idOf, Session.stream_register_nextRef]
  cases deed with
  | same same => exact .none (session ▸ same.size)
  | data known same => exact .none (session ▸ same.size)
  | said known isHead notOpening about encoded localOpen same =>
    exact .none (session ▸ same.size_of_mark)
  | opened asks bidirectional sent encoded hasId localClosed remoteClosed reset same =>
    obtain ⟨hsize, hid⟩ := hregister same
    refine .own (session ▸ hsize) ?_ (Moment.allots?_of_syn asks bidirectional sent) (session ▸ same.nextStreamId)
    exact session ▸ hid.trans hasId
  | unopened asks bidirectional sent same => exact .none (session ▸ same.size)
  | born asks sent valid remote absent hasId localClosed remoteClosed reset same =>
    obtain ⟨hsize, hid⟩ := hregister same
    exact .others (session ▸ hsize) (session ▸ hid.trans hasId) (Moment.taken?_of_receive asks) rfl valid remote
  | heard asks about mem same =>
    exact .none (session ▸ same.size_of_mark)
  | quit cause encoded abandons => exact .none (session ▸ abandons.size)
  | muffled cause refused abandons => exact .none (session ▸ abandons.size)
  | lost does abandons => exact .none (session ▸ abandons.size)
  | reclaimed does closed sheds => exact .none (session ▸ sheds.size)

theorem config_of_befalls (h : Befalls cap mo) : mo.after.session.config = mo.before.session.config := by
  cases h with
  | work deed session => exact config_of_deed deed session
  | still same => exact same.config
  | answered waits same => exact same.config
  | wrote mem same => exact same.config
  | closed mem parcel empty close same => exact same.config

theorem nextStreamId_of_befalls (h : Befalls cap mo) :
    mo.after.session.nextStreamId = mo.before.session.nextStreamId ∨
      mo.allots? = some mo.before.session.nextStreamId ∧
        mo.after.session.nextStreamId = mo.before.session.nextStreamId + 2 := by
  cases h with
  | work deed session => exact nextStreamId_of_deed deed session
  | still same => exact .inl same.nextStreamId
  | answered waits same => exact .inl same.nextStreamId
  | wrote mem same => exact .inl same.nextStreamId
  | closed mem parcel empty close same => exact .inl same.nextStreamId

theorem comes_of_befalls (h : Befalls cap mo) : Comes mo := by
  cases h with
  | work deed session => exact comes_of_deed deed session
  | still same => exact .none same.size
  | answered waits same => exact .none (same.size.trans (Session.size_update _ _ _))
  | wrote mem same => exact .none same.size
  | closed mem parcel empty close same => exact .none (same.size.trans (Session.size_update _ _ _))

end Moment

/-! ## Runs -/

theorem allotted_append (past : List Moment) (mo : Moment) :
    allotted (past ++ [mo]) = allotted past ++ mo.allots?.toList := by
  rw [allotted, List.filterMap_append, ← allotted, List.filterMap_cons, List.filterMap_nil]
  cases mo.allots? <;> rfl

theorem Config.isLocal_iff (c : Config) (id : UInt32) :
    c.isLocal id ↔ id.toNat % 2 = c.initialStreamId.toNat % 2 := by
  rw [isLocal, beq_iff_eq, ← UInt32.toNat_inj, UInt32.toNat_mod, UInt32.toNat_mod]
  rfl

/-- Where the ids of streams come from: this side counts on from its first id, and the other ids are those of frames
that were received. -/
structure Numbered (c : Config) (past : List Moment) (m : Machine) : Prop where
  config : m.session.config = c
  next : ∃ k ≤ (allotted past).length, m.session.nextStreamId.toNat = c.initialStreamId.toNat + 2 * k
  own : ∀ r, r.serial < m.session.streams.size → c.isLocal (m.session.idOf r) →
    0 < (m.session.idOf r).toNat ∧ (m.session.idOf r).toNat < m.session.nextStreamId.toNat
  others : ∀ r, r.serial < m.session.streams.size → c.isLocal (m.session.idOf r) = false →
    m.session.idOf r ≠ 0 ∧ ∃ got ∈ taken past, got.opening? = some (m.session.idOf r)

def Few (past : List Moment) : Prop := (allotted past).length < 2 ^ 30 - 1

instance (past : List Moment) : Decidable (Few past) := inferInstanceAs (Decidable (_ < _))

theorem Few.of_append {past : List Moment} {mo : Moment} (h : Few (past ++ [mo])) : Few past := by
  rw [Few, allotted_append, List.length_append] at h
  rw [Few]
  omega

theorem Config.initialStreamId_of_new {config : Config} (h : config.fault? = none) :
    config.initialStreamId.toNat = 1 ∨ config.initialStreamId.toNat = 2 := by
  unfold fault? at h
  split at h
  · cases h
  · next hid =>
    rw [not_and_or, not_not, not_not] at hid
    rcases hid with hid | hid <;> rw [hid]
    · exact .inl rfl
    · exact .inr rfl

section Numbered

variable {cap : Nat} {config : Config} {past : List Moment} {m m' : Machine} {e : Event}

theorem Numbered.isLocal_next (h : Numbered config past m) : config.isLocal m.session.nextStreamId := by
  obtain ⟨k, -, hk⟩ := h.next
  rw [Config.isLocal_iff, hk]
  omega

theorem Numbered.next_pos (h : Numbered config past m) (hconfig : config.fault? = none) :
    0 < m.session.nextStreamId.toNat := by
  obtain ⟨k, -, hk⟩ := h.next
  have := Config.initialStreamId_of_new hconfig
  omega

theorem Numbered.next_lt (h : Numbered config past m) (hconfig : config.fault? = none) (hfew : Few past) :
    m.session.nextStreamId.toNat < 2 ^ 31 := by
  obtain ⟨k, hle, hk⟩ := h.next
  have := Config.initialStreamId_of_new hconfig
  rw [Few] at hfew
  omega

theorem toNat_add_two {n : UInt32} (h : n.toNat < 2 ^ 31) : (n + 2).toNat = n.toNat + 2 := by
  rw [UInt32.toNat_add]
  show (n.toNat + 2) % 2 ^ 32 = _
  omega

theorem nextStreamId_le_of_befalls {mo : Moment} (h : Befalls cap mo)
    (hlt : mo.before.session.nextStreamId.toNat < 2 ^ 31) :
    mo.before.session.nextStreamId.toNat ≤ mo.after.session.nextStreamId.toNat := by
  rcases nextStreamId_of_befalls h with heq | ⟨-, heq⟩ <;> rw [heq]
  rw [toNat_add_two hlt]
  exact Nat.le_add_right _ _

theorem Numbered.step (h : Numbered config past m) (hconfig : config.fault? = none)
    (hfew : Few (past ++ [⟨m, e, m'⟩])) (befalls : Befalls cap ⟨m, e, m'⟩)
    (onward : m.session.Onward m'.session) : Numbered config (past ++ [⟨m, e, m'⟩]) m' := by
  have hlt := h.next_lt hconfig hfew.of_append
  have hmono : m.session.nextStreamId.toNat ≤ m'.session.nextStreamId.toNat := nextStreamId_le_of_befalls befalls hlt
  have hid : ∀ r, r.serial < m.session.streams.size → m'.session.idOf r = m.session.idOf r :=
    fun r hr => (onward.later r hr).id
  have htaken : ∀ got ∈ taken past, got ∈ taken (past ++ [⟨m, e, m'⟩]) := by
    intro got hgot
    rw [taken_append]
    exact List.mem_append_left _ hgot
  have hnew : ∀ r : StreamRef, m'.session.streams.size = m.session.streams.size + 1 →
      r.serial < m'.session.streams.size → ¬ r.serial < m.session.streams.size → r = m.session.nextRef := by
    intro r hsize hr hnot
    obtain ⟨n⟩ := r
    have : n = m.session.streams.size := by
      dsimp only at hr hnot
      omega
    rw [this]
    rfl
  refine ⟨(config_of_befalls befalls).trans h.config, ?_, ?_, ?_⟩
  · obtain ⟨k, hle, hk⟩ := h.next
    rw [allotted_append, List.length_append]
    rcases nextStreamId_of_befalls befalls with heq | ⟨hallots, heq⟩ <;> rw [show m'.session.nextStreamId = _ from heq]
    · exact ⟨k, by omega, hk⟩
    · refine ⟨k + 1, ?_, ?_⟩
      · rw [hallots]
        exact Nat.succ_le_succ hle
      · rw [toNat_add_two hlt, hk]
        omega
  · intro r hr hlocal
    by_cases hold : r.serial < m.session.streams.size
    · rw [hid r hold] at hlocal ⊢
      have := h.own r hold hlocal
      omega
    · cases comes_of_befalls befalls with
      | none size => exact absurd (size ▸ hr) hold
      | own size hasId allots next =>
        rw [hnew r size hr hold, show m'.session.idOf m.session.nextRef = _ from hasId,
          show m'.session.nextStreamId = _ from next, toNat_add_two hlt]
        exact ⟨h.next_pos hconfig, Nat.lt_add_of_pos_right Nat.two_pos⟩
      | others size hasId taken opening valid remote =>
        rw [hnew r size hr hold, show m'.session.idOf m.session.nextRef = _ from hasId, ← h.config] at hlocal
        rw [show m.session.config.isLocal _ = false from remote] at hlocal
        cases hlocal
  · intro r hr hremote
    by_cases hold : r.serial < m.session.streams.size
    · rw [hid r hold] at hremote ⊢
      obtain ⟨hne, got, hgot, hopening⟩ := h.others r hold hremote
      exact ⟨hne, got, htaken got hgot, hopening⟩
    · cases comes_of_befalls befalls with
      | none size => exact absurd (size ▸ hr) hold
      | own size hasId allots next =>
        rw [hnew r size hr hold, show m'.session.idOf m.session.nextRef = _ from hasId, h.isLocal_next] at hremote
        cases hremote
      | @others got _ size hasId taken opening valid remote =>
        rw [hnew r size hr hold, show m'.session.idOf m.session.nextRef = _ from hasId]
        refine ⟨valid, got, ?_, opening⟩
        rw [taken_append, taken]
        exact List.mem_append_right _ List.mem_cons_self

end Numbered

/-! ## Ids that are valid -/

def Session.Sound (s : Session) : Prop :=
  ∀ r, r.serial < s.streams.size → s.idOf r ≠ 0 ∧ low31 (s.idOf r) = s.idOf r

theorem low31_of_lt {id : UInt32} (h : id.toNat < 2 ^ 31) : low31 id = id := by
  apply UInt32.toNat_inj.1
  rw [toNat_low31, Nat.mod_eq_of_lt h]

theorem Numbered.sound {config : Config} {past : List Moment} {m : Machine} (h : Numbered config past m)
    (hconfig : config.fault? = none) (hfew : Few past) (hread : ∀ got ∈ taken past, got.IsRead) :
    m.session.Sound := by
  intro r hr
  cases hlocal : config.isLocal (m.session.idOf r) with
  | true =>
    have hrange := h.own r hr hlocal
    have hlt := h.next_lt hconfig hfew
    refine ⟨fun h0 => ?_, low31_of_lt (by omega)⟩
    rw [h0] at hrange
    exact Nat.lt_irrefl _ hrange.1
  | false =>
    obtain ⟨hne, got, hgot, hopening⟩ := h.others r hr hlocal
    exact ⟨hne, low31_of_isRead (hread got hgot) (Received.reset?_of_opening? hopening).2⟩

/-! ## Ids that are used once -/

/-- A frame that opens a stream comes before everything else that counts as said on the stream. -/
def OpensFirst (mention? : Received → Option UInt32) (letters : List Received) : Prop :=
  letters.Pairwise fun a b => ∀ id, b.opening? = some id → mention? a ≠ some id

def Session.Distinct (s : Session) : Prop :=
  ∀ r q : StreamRef, r.serial < s.streams.size → q.serial < s.streams.size → s.idOf r = s.idOf q → r = q

theorem Session.Distinct.grow {s t : Session} (h : s.Distinct) (onward : s.Onward t)
    (hsize : t.streams.size = s.streams.size + 1)
    (hnew : ∀ r : StreamRef, r.serial < s.streams.size → s.idOf r ≠ t.idOf s.nextRef) : t.Distinct := by
  have hid : ∀ r, r.serial < s.streams.size → t.idOf r = s.idOf r := fun r hr => (onward.later r hr).id
  have hlast : ∀ r : StreamRef, r.serial < t.streams.size → ¬ r.serial < s.streams.size → r = s.nextRef := by
    intro r hr hnot
    obtain ⟨n⟩ := r
    have : n = s.streams.size := by
      dsimp only at hr hnot
      omega
    rw [this]
    rfl
  intro r q hr hq heq
  by_cases hr' : r.serial < s.streams.size <;> by_cases hq' : q.serial < s.streams.size
  · exact h r q hr' hq' (by rw [← hid r hr', ← hid q hq', heq])
  · rw [hid r hr', hlast q hq hq'] at heq
    exact absurd heq (hnew r hr')
  · rw [hid q hq', hlast r hr hr'] at heq
    exact absurd heq.symm (hnew q hq')
  · rw [hlast r hr hr', hlast q hq hq']

section Run

variable {cap : Nat} {config : Config} {primary : Option Listener} {s : Session} {past : List Moment} {m : Machine}

theorem onward_of_next? {m' : Machine} {e : Event} (run : Run (.standard cap) { session := s } past m)
    (h : m.next? (.standard cap) e = some m') : m.session.Onward m'.session :=
  later_of_turn (turn_of_next? h (placed_of_run run))

theorem numbered_of_run (hnew : Session.new config primary = .ok s)
    (run : Run (.standard cap) { session := s } past m) (hfew : Few past) : Numbered config past m := by
  obtain ⟨hconfig, rfl⟩ := Session.new_eq_ok hnew
  induction run with
  | start => exact ⟨rfl, ⟨0, Nat.le_refl _, rfl⟩, nofun, nofun⟩
  | next run h ih =>
    exact (ih hfew.of_append).step hconfig hfew (befalls_of_next? h (tidy_of_run hnew run)) (onward_of_next? run h)

theorem distinct_of_run {mention? : Received → Option UInt32}
    (hmention : ∀ {got : Received} {id : UInt32}, got.opening? = some id → mention? got = some id)
    (hnew : Session.new config primary = .ok s) (run : Run (.standard cap) { session := s } past m)
    (hfew : Few past) (hfirst : OpensFirst mention? (taken past)) : m.session.Distinct := by
  induction run with
  | start =>
    obtain ⟨-, rfl⟩ := Session.new_eq_ok hnew
    exact fun r q hr => absurd hr (Nat.not_lt_zero _)
  | @next past m m' e run h ih =>
    have hpast : OpensFirst mention? (taken past) := by
      rw [taken_append, OpensFirst, List.pairwise_append] at hfirst
      exact hfirst.1
    have hbefore := ih hfew.of_append hpast
    have hnumbered := numbered_of_run hnew run hfew.of_append
    have onward := onward_of_next? run h
    cases comes_of_befalls (befalls_of_next? h (tidy_of_run hnew run)) with
    | none size =>
      intro r q hr hq heq
      rw [show m'.session.streams.size = _ from size] at hr hq
      rw [Session.idOf, Session.idOf, (onward.later r hr).id, (onward.later q hq).id] at heq
      exact hbefore r q hr hq heq
    | own size hasId allots next =>
      refine hbefore.grow onward size fun r hr heq => ?_
      rw [show m'.session.idOf m.session.nextRef = _ from hasId] at heq
      have hlocal := hnumbered.isLocal_next
      rw [← heq] at hlocal
      have := (hnumbered.own r hr hlocal).2
      rw [heq] at this
      exact Nat.lt_irrefl _ this
    | @others got id size hasId htaken opening valid remote =>
      refine hbefore.grow onward size fun r hr heq => ?_
      rw [show m'.session.idOf m.session.nextRef = _ from hasId] at heq
      rw [hnumbered.config, ← heq] at remote
      obtain ⟨-, got', hgot', hopening⟩ := hnumbered.others r hr remote
      rw [taken_append, htaken, OpensFirst, List.pairwise_append] at hfirst
      rw [heq] at hopening
      exact hfirst.2.2 got' hgot' got List.mem_cons_self id opening (hmention hopening)

end Run

end Spdy
