import Spdy.Proofs.Discard
import Spdy.Proofs.Precedence
import Spdy.Proofs.Reclaim
import Spdy.Proofs.Renounce

/-!
# Sessions side by side

Two sessions give the same streams up, each in an order of its own. Apart from that they do the same: at every step they
differ at most in which of these streams has had its turn.

* `Twins` : two things are the same, or both are of one kind;
* `Session.Spared`, `Abreast` : what becomes of a session apart from streams that are given up, and two sessions of
  which that is the same;
* `Chores` : what two operations have left to do, and the streams that they are to give up;
* `Docile` : nothing leaves that has to do with streams that are given up;
* `Abreast.perform`, `Abreast.wrote` : what one task, or the report of a write, comes to for both sessions.
-/

namespace Spdy

def Twins {α : Type} (kind : α → Prop) (x y : α) : Prop := x = y ∨ kind x ∧ kind y

theorem Twins.refl {α : Type} (kind : α → Prop) (x : α) : Twins kind x x := .inl rfl

/-- What is in front of two lists as long as two tests agree, and what follows. -/
theorem forall₂_span {α β : Type} {R : α → β → Prop} {f : α → Bool} {g : β → Bool} {l : List α} {l' : List β}
    (h : List.Forall₂ R l l') (agree : ∀ x ∈ l, ∀ y, R x y → f x = g y) :
    List.Forall₂ R (l.takeWhile f) (l'.takeWhile g) ∧ List.Forall₂ R (l.dropWhile f) (l'.dropWhile g) := by
  induction h with
  | nil => exact ⟨.nil, .nil⟩
  | @cons x y l l' hxy h ih =>
    obtain ⟨htake, hdrop⟩ := ih fun z hz => agree z (List.mem_cons_of_mem _ hz)
    have hhead := agree x List.mem_cons_self y hxy
    cases hf : f x with
    | true =>
      have hg : g y = true := hhead.symm.trans hf
      rw [List.takeWhile_cons_of_pos hf, List.takeWhile_cons_of_pos hg, List.dropWhile_cons_of_pos hf,
        List.dropWhile_cons_of_pos hg]
      exact ⟨.cons hxy htake, hdrop⟩
    | false =>
      have hg : ¬g y = true := by rw [← hhead, hf]; exact Bool.false_ne_true
      have hf : ¬f x = true := by rw [hf]; exact Bool.false_ne_true
      rw [List.takeWhile_cons_of_neg hf, List.takeWhile_cons_of_neg hg, List.dropWhile_cons_of_neg hf,
        List.dropWhile_cons_of_neg hg]
      exact ⟨.nil, .cons hxy h⟩

/-! ## Sessions -/

namespace Session

/-- A frame that tells the peer that one of some streams is given up. -/
def TellsAny (b : Session) (lost : List StreamRef) (q : Parcel) : Prop := ∃ r ∈ lost, b.Tells r q

/-- What has become of a session apart from some of its streams, which are still open. -/
structure Spared (b : Session) (lost : List StreamRef) (c : Session) : Prop where
  tidy : c.Tidy
  sent : c.goAwaySent = false
  size : c.streams.size = b.streams.size
  ids : c.idOf = b.idOf
  reset : ∀ r, (c.stream r).reset = (b.stream r).reset
  same : ∀ r, r ∈ lost ∨ r ∉ b.table → c.stream r = b.stream r
  held : ∀ r ∈ lost, r ∈ c.table
  table : ∀ r ∈ c.table, r ∈ b.table
  left : ∀ r ∈ b.table, r ∈ c.table ∨ (c.stream r).isClosed

/-- The session with its table in another order, and with other parcels. -/
def recast (c : Session) (table : List StreamRef) (parcels : List Parcel) (outstanding : List Handler) : Session :=
  { c with table, outbox := { c.outbox with parcels }, outstanding }

end Session

/-- Handlers of the same write of the two sessions. -/
def Handler.Mirrors (b : Session) (lost : List StreamRef) (x y : Handler) : Prop :=
  x.seq = y.seq ∧ Twins (b.TellsAny lost) x.parcel y.parcel

/-- Two sessions that have become the same apart from some streams, of which each has given up some. -/
inductive Abreast (b : Session) (lost gone gone' : List StreamRef) : Session → Session → Prop
  | intro {c : Session} {table : List StreamRef} {parcels : List Parcel} {outstanding : List Handler}
      (spared : b.Spared lost c) (perm : table.Perm c.table)
      (waiting : List.Forall₂ (Twins (b.TellsAny lost)) c.outbox.parcels parcels)
      (leaving : List.Forall₂ (Handler.Mirrors b lost) c.outstanding outstanding) :
      Abreast b lost gone gone' (c.renounce gone) ((c.recast table parcels outstanding).renounce gone')

/-- The parcel may be handed over: it tells of a stream that is given up, or it is data of an open stream that is
not. -/
def Parcel.MayLeave (b : Session) (lost : List StreamRef) : Parcel → Prop
  | .control type _ r => type = .rstStream ∧ r = none
  | .data r _ _ => r ∈ b.table ∧ r ∉ lost

/-- The parcel may wait: it may be handed over, or it is data of which nothing is handed over. -/
def Parcel.MayWait (b : Session) (lost : List StreamRef) (q : Parcel) : Prop :=
  q.MayLeave b lost ∨ ∃ r payload written, q = .data r payload written ∧ r ∉ lost ∧ r ∉ b.table ∧
    ((b.stream r).reset ∨ (b.stream r).window ≤ 0)

/-- Nothing that has to do with some streams waits or leaves, apart from telling that they are given up. -/
structure Docile (b : Session) (lost : List StreamRef) (s : Session) : Prop where
  waiting : ∀ q ∈ s.outbox.parcels, q.MayWait b lost
  leaving : ∀ x ∈ s.outstanding, x.parcel.MayLeave b lost

/-! ## Work -/

def Notice.asks : Notice → Bool
  | .opened .. => true
  | _ => false

/-- A frame is to be written, or a listener is told something that needs no answer. -/
def Call.isMere : Call → Bool
  | .write .. => true
  | .close _ => false
  | .tell _ notice => !notice.asks

/-- A task that may have to be done while streams are given up, and has nothing to do with them. -/
def Task.IsMere (b : Session) (lost : List StreamRef) : Task → Prop
  | .flush | .endWrite _ | .release => True
  | .tell _ notice | .announce notice | .tellRegistered notice => notice.asks = false
  | .reclaim r => r ∈ b.table ∧ r ∉ lost
  | .call _ | .reset .. | .lose _ | .overflow .. | .accept .. => False

/-- A task that makes the outbox free, or lets someone else do so. -/
def Task.frees : Task → Bool
  | .release | .call (.write ..) => true
  | _ => false

theorem Task.frees_of_isPlain {x : Task} (h : x.isPlain) : x.frees = false := by
  cases x with
  | call c => cases c <;> first | rfl | cases h
  | release => cases h
  | _ => rfl

/-- A task that is neither a flush nor there to free the outbox leaves it busy, and nothing that would free it. -/
theorem Session.perform_busy (enc : Encoder) (s : Session) {x : Task} (notFlush : x ≠ .flush)
    (notCall : x.isCall = false) (frees : x.frees = false) (busy : s.outbox.busy) :
    (s.perform enc x).session.outbox.busy ∧ Without Task.frees (s.perform enc x).todo := by
  by_cases hplain : x.isPlain
  · obtain ⟨new, -, posts⟩ := s.perform_posts enc hplain notFlush notCall
    refine ⟨?_, fun y hy => Task.frees_of_isPlain (posts.plain y hy)⟩
    rw [posts.adds.outbox]
    exact busy
  · cases x with
    | endWrite seq =>
      refine ⟨(s.outbox.busy_endWrite seq).trans busy, ?_⟩
      simp only [perform]
      split <;> simp [Task.frees]
    | release => cases frees
    | call c => cases notCall
    | _ => exact absurd rfl hplain

/-- Calls of the two sessions: the same, or they have to do with streams that are given up, each with its own. -/
inductive Call.Mirrors (b : Session) (lost : List StreamRef) : Call → Call → Prop
  | same (c : Call) : Call.Mirrors b lost c c
  | write {bytes bytes' : Bytes} (seq : Nat) (tells : b.TellsAny lost (.control .rstStream bytes none))
      (tells' : b.TellsAny lost (.control .rstStream bytes' none)) :
      Call.Mirrors b lost (.write bytes ⟨seq, .control .rstStream bytes none⟩)
        (.write bytes' ⟨seq, .control .rstStream bytes' none⟩)
  | told {r r' : StreamRef} (l : Listener) (hr : r ∈ lost) (hr' : r' ∈ lost) :
      Call.Mirrors b lost (.tell l (.closed r)) (.tell l (.closed r'))

/-- What the two sessions have left to do, with the streams that each is to give up. -/
inductive Chores (b : Session) (lost : List StreamRef) :
    List StreamRef → List StreamRef → List Task → List Task → Prop
  | nil : Chores b lost [] [] [] []
  | mere {due due' : List StreamRef} {l l' : List Task} {x : Task} (mere : x.IsMere b lost)
      (rest : Chores b lost due due' l l') : Chores b lost due due' (x :: l) (x :: l')
  | call {due due' : List StreamRef} {l l' : List Task} {c c' : Call} (mirrors : Call.Mirrors b lost c c')
      (mere : c.isMere) (rest : Chores b lost due due' l l') :
      Chores b lost due due' (.call c :: l) (.call c' :: l')
  | told {due due' : List StreamRef} {l l' : List Task} {r r' : StreamRef} (listeners : List Listener)
      (hr : r ∈ lost) (hr' : r' ∈ lost) (rest : Chores b lost due due' l l') :
      Chores b lost due due' (.tell listeners (.closed r) :: l) (.tell listeners (.closed r') :: l')
  | overflow {due due' : List StreamRef} {l l' : List Task} {r r' : StreamRef} (e e' : Error)
      (rest : Chores b lost due due' l l') :
      Chores b lost (r :: due) (r' :: due') (.overflow r e :: l) (.overflow r' e' :: l')
  | reset {due due' : List StreamRef} {l l' : List Task} (r r' : StreamRef)
      (rest : Chores b lost due due' l l') :
      Chores b lost (r :: due) (r' :: due')
        (.reset (b.stream r).version (b.idOf r) .flowControlError :: l)
        (.reset (b.stream r').version (b.idOf r') .flowControlError :: l')

theorem Chores.append {b : Session} {lost due due' more more' : List StreamRef} {l l' k k' : List Task}
    (h : Chores b lost due due' l l') (hk : Chores b lost more more' k k') :
    Chores b lost (due ++ more) (due' ++ more') (l ++ k) (l' ++ k') := by
  induction h with
  | nil => exact hk
  | mere mere _ ih => exact .mere mere ih
  | call mirrors mere _ ih => exact .call mirrors mere ih
  | told listeners hr hr' _ ih => exact .told listeners hr hr' ih
  | overflow e e' _ ih => exact .overflow e e' ih
  | reset r r' _ ih => exact .reset r r' ih

/-- What a piece of work that gives no stream up comes to for both sessions. -/
structure Alike (b : Session) (lost gone gone' : List StreamRef) (s : Session) (p p' : Progress) : Prop where
  abreast : Abreast b lost gone gone' p.session p'.session
  todo : Chores b lost [] [] p.todo p'.todo
  docile : Docile b lost s → Docile b lost p.session

/-- What it comes to when each session gives up the next one of its streams, and tells the peer by a parcel. -/
structure TurnOf (b : Session) (lost gone gone' : List StreamRef) (r r' : StreamRef) (q q' : Parcel) (s s' : Session)
    (p p' : Progress) : Prop where
  abreast : Abreast b lost (gone ++ [r]) (gone' ++ [r']) p.session p'.session
  todo : p.todo = [.tell s.streamListeners (.closed r), .flush]
  todo' : p'.todo = [.tell s.streamListeners (.closed r'), .flush]
  outbox : p.session.outbox = s.outbox.enqueue q
  outbox' : p'.session.outbox = s'.outbox.enqueue q'
  outstanding : p.session.outstanding = s.outstanding

/-! ## What stays the same -/

section Spared

variable {b c : Session} {lost gone gone' : List StreamRef} {q r : StreamRef}

namespace Session

theorem Spared.known (h : b.Spared lost c) (hgone : gone ⊆ lost) : ∀ r ∈ gone, r.serial < c.streams.size :=
  fun r hr => h.tidy.known r (h.held r (hgone hr))

theorem Spared.stream_renounce (h : b.Spared lost c) (hgone : gone ⊆ lost) (hr : r ∉ lost) :
    (c.renounce gone).stream r = c.stream r :=
  stream_renounce_of_not_mem (h.known hgone) fun h => hr (hgone h)

theorem Spared.idOf_ne (h : b.Spared lost c) (tidy : b.Tidy) (hgone : gone ⊆ lost) (hq : q ∈ b.table)
    (hlost : q ∉ lost) : ∀ r ∈ gone, c.idOf r ≠ c.idOf q := by
  intro r hr hid
  rw [h.ids] at hid
  have hmem : r ∈ b.table := h.table r (h.held r (hgone hr))
  exact hlost (List.inj_on_of_nodup_map tidy.nodup hmem hq hid ▸ hgone hr)

theorem Spared.of_streams {d : Session} (h : b.Spared lost c) (hstreams : d.streams = c.streams)
    (htable : d.table = c.table) (hsent : d.goAwaySent = c.goAwaySent) : b.Spared lost d := by
  have hstream : d.stream = c.stream := funext fun r => by rw [stream, hstreams, ← stream]
  have hids : d.idOf = c.idOf := funext fun r => congrArg Stream.id (congrFun hstream r)
  exact
    { tidy := ⟨by rw [hstreams, htable]; exact h.tidy.known, by rw [hids, htable]; exact h.tidy.nodup⟩
      sent := hsent.trans h.sent
      size := by rw [hstreams]; exact h.size
      ids := hids.trans h.ids
      reset := by rw [hstream]; exact h.reset
      same := by rw [hstream]; exact h.same
      held := by rw [htable]; exact h.held
      table := by rw [htable]; exact h.table
      left := by rw [hstream, htable]; exact h.left }

/-- An open stream that is not one of those that are given up changes. -/
theorem Spared.update (h : b.Spared lost c) {f : Stream → Stream} (hr : r ∈ b.table) (hlost : r ∉ lost)
    (hid : (f (c.stream r)).id = (c.stream r).id) (hreset : (f (c.stream r)).reset = (c.stream r).reset)
    (hclosed : (c.stream r).isClosed → (f (c.stream r)).isClosed) : b.Spared lost (c.update r f) := by
  have hids : (c.update r f).idOf = c.idOf := idOf_update c r hid
  exact
    { tidy := ⟨fun q hq => by rw [size_update]; exact h.tidy.known q hq, by rw [hids]; exact h.tidy.nodup⟩
      sent := h.sent
      size := (size_update c r f).trans h.size
      ids := hids.trans h.ids
      reset := fun q => (c.map_stream_update (·.reset) r q hreset).trans (h.reset q)
      same := fun q hq => by
        rw [stream_update_of_ne _ fun he => ?_]
        · exact h.same q hq
        · exact hq.elim (he ▸ hlost) fun hq => hq (he ▸ hr)
      held := h.held
      table := h.table
      left := fun q hq => (h.left q hq).imp_right
        (c.rel_stream_update (R := fun x y => x.isClosed → y.isClosed) r (fun _ => id) hclosed q) }

/-- An open stream that is not one of those that are given up goes once it is closed. -/
theorem Spared.remove (h : b.Spared lost c) (tidy : b.Tidy) (hr : r ∈ b.table) (hlost : r ∉ lost)
    (hclosed : (c.stream r).isClosed) : b.Spared lost (c.remove r).session := by
  obtain ⟨sheds, hstream⟩ := c.remove_sheds r
  have hstream : (c.remove r).session.stream = c.stream := funext hstream
  have hids : (c.remove r).session.idOf = c.idOf := funext fun q => congrArg Stream.id (congrFun hstream q)
  have hne := h.idOf_ne tidy (fun _ h => h) hr hlost
  exact
    { tidy :=
        { known := fun q hq => by rw [sheds.size]; exact h.tidy.known q (sheds.mem.1 hq).1
          nodup := by
            rw [hids, sheds.table]
            exact h.tidy.nodup.sublist (List.filter_sublist.map _) }
      sent := (c.remove_stays r).goAwaySent.trans h.sent
      size := sheds.size.trans h.size
      ids := hids.trans h.ids
      reset := by rw [hstream]; exact h.reset
      same := by rw [hstream]; exact h.same
      held := fun q hq => sheds.mem.2 ⟨h.held q hq, hne q hq⟩
      table := fun q hq => h.table q (sheds.mem.1 hq).1
      left := fun q hq => by
        rw [hstream]
        by_cases hqr : q = r
        · exact .inr (hqr ▸ hclosed)
        · refine (h.left q hq).imp_left fun hmem => sheds.mem.2 ⟨hmem, fun hid => hqr ?_⟩
          rw [h.ids] at hid
          exact List.inj_on_of_nodup_map tidy.nodup hq hr hid }

end Session

end Spared

/-! ## The next write -/

namespace Session

variable {s : Session} {l : List Parcel}

theorem flush_of_control (enc : Encoder) {type : FrameType} {bytes : Bytes} {r : Option StreamRef}
    (take : s.outbox.take? (fun r => (s.stream r).isReady) =
      some (.control type bytes r, { s.outbox with parcels := l, busy := true })) :
    s.flush enc =
      { session := s.handing l (.control type bytes r)
        todo := [.call (.write bytes ⟨s.outbox.writes + 1, .control type bytes r⟩),
          .endWrite (s.outbox.writes + 1)] } := by
  simp only [flush, Session.take?, take, Option.map_some]
  rfl

/-- Data of a stream that was reset is dropped when it has its turn. -/
theorem flush_of_reset (enc : Encoder) {r : StreamRef} {payload : Payload} {written : Nat}
    (take : s.outbox.take? (fun r => (s.stream r).isReady) =
      some (.data r payload written, { s.outbox with parcels := l, busy := true }))
    (reset : (s.stream r).reset) :
    s.flush enc =
      { session := { s with outbox := { s.outbox with parcels := l, busy := false } }, todo := [.flush] } := by
  simp only [flush, Session.take?, take, Option.map_some, stream_outbox, reset, if_true]
  rfl

/-- Data that has its turn is cut into a frame, which is handed over. -/
theorem flush_of_data (enc : Encoder) {r : StreamRef} {payload rest : Payload} {written : Nat} {bytes : Bytes}
    (take : s.outbox.take? (fun r => (s.stream r).isReady) =
      some (.data r payload written, { s.outbox with parcels := l, busy := true }))
    (alive : (s.stream r).reset = false)
    (chunk : enc.data (s.stream r).id (s.stream r).window payload = .ok (bytes, rest)) :
    s.flush enc =
      { session := s.handing l (.data r rest (bytes.length - headerLength))
        todo := [.call (.write bytes ⟨s.outbox.writes + 1, .data r rest (bytes.length - headerLength)⟩),
          .endWrite (s.outbox.writes + 1)] } := by
  simp only [flush, Session.take?, take, Option.map_some, stream_outbox, alive, Bool.false_eq_true, if_false, chunk]
  rfl

theorem flush_sublist (cap : Nat) (s : Session) :
    (s.flush (.standard cap)).session.outbox.parcels.Sublist s.outbox.parcels := by
  have h := flush_cases cap s
  generalize s.flush (.standard cap) = p at h
  cases h with
  | idle => exact .refl _
  | drop free parcels =>
    rw [parcels]
    exact List.Sublist.append_left (List.sublist_cons_self _ _) _
  | hand free parcels =>
    rw [parcels]
    exact List.Sublist.append_left (List.sublist_cons_self _ _) _

theorem flush_of_none (enc : Encoder) (take : s.outbox.take? (fun r => (s.stream r).isReady) = none) :
    s.flush enc = { session := s } := by
  simp only [flush, Session.take?, take, Option.map_none]

end Session

/-- The standard encoder has a frame for data whose stream has a window. -/
theorem data_standard (cap : Nat) (id : UInt32) {window : Int} (hwindow : 0 < window) (payload : Payload) :
    ∃ bytes rest, (Encoder.standard cap).data id window payload = .ok (bytes, rest) :=
  ⟨_, _, Payload.encodeChunk_of_pos hwindow rfl⟩

/-- From outboxes that differ in parcels of one kind only, parcels are taken that do so too. -/
theorem Outbox.take?_twins {kind : Parcel → Prop} {o o' : Outbox} {f g : StreamRef → Bool} (free : o.busy = false)
    (free' : o'.busy = false) (parcels : List.Forall₂ (Twins kind) o.parcels o'.parcels)
    (agree : ∀ q ∈ o.parcels, ∀ q', Twins kind q q' → q.isReady f = q'.isReady g) :
    (o.take? f = none ∧ o'.take? g = none) ∨
      ∃ q q' l l', o.take? f = some (q, { o with parcels := l, busy := true }) ∧
        o'.take? g = some (q', { o' with parcels := l', busy := true }) ∧ Twins kind q q' ∧
        List.Forall₂ (Twins kind) l l' ∧ q ∈ o.parcels ∧ q.isReady f := by
  obtain ⟨hbefore, hrest⟩ := forall₂_span (f := fun q : Parcel => !q.isReady f) (g := fun q : Parcel => !q.isReady g)
    parcels fun q hq q' h => congrArg Bool.not (agree q hq q' h)
  unfold take?
  rw [free, free']
  simp only [Bool.false_eq_true, if_false]
  have hsplit := List.takeWhile_append_dropWhile (p := fun q : Parcel => !q.isReady f) (l := o.parcels)
  cases hdrop : o.parcels.dropWhile (fun q => !q.isReady f) with
  | nil =>
    rw [hdrop] at hrest
    rw [List.forall₂_nil_left_iff.1 hrest]
    exact .inl ⟨rfl, rfl⟩
  | cons q after =>
    rw [hdrop] at hrest hsplit
    cases hdrop' : o'.parcels.dropWhile (fun q => !q.isReady g) with
    | nil =>
      rw [hdrop'] at hrest
      cases hrest
    | cons q' after' =>
      rw [hdrop'] at hrest
      cases hrest with
      | cons hq hafter =>
        refine .inr ⟨q, q', _, _, rfl, rfl, hq, List.rel_append hbefore hafter, ?_, ?_⟩
        · rw [← hsplit]
          exact List.mem_append_right _ List.mem_cons_self
        · have hhead := List.head?_dropWhile_not (fun q : Parcel => !q.isReady f) o.parcels
          rw [hdrop] at hhead
          simpa using hhead

section Abreast

variable {b s s' : Session} {lost gone gone' : List StreamRef} {cap : Nat}

theorem Twins.data {r : StreamRef} {payload : Payload} {written : Nat} {q : Parcel}
    (h : Twins (b.TellsAny lost) (.data r payload written) q) : q = .data r payload written := by
  rcases h with heq | ⟨⟨_, _, _, _, heq⟩, -⟩
  · exact heq.symm
  · cases heq

/-- The twin of a frame that tells that a stream is given up is such a frame, too. -/
theorem Twins.told {bytes : Bytes} {q : Parcel} (h : Twins (b.TellsAny lost) (.control .rstStream bytes none) q) :
    ∃ bytes', q = .control .rstStream bytes' none ∧
      ∀ seq, Call.Mirrors b lost (.write bytes ⟨seq, .control .rstStream bytes none⟩) (.write bytes' ⟨seq, q⟩) := by
  rcases h with rfl | ⟨htells, htells'⟩
  · exact ⟨bytes, rfl, fun seq => .same _⟩
  · obtain ⟨r, -, bytes', -, rfl⟩ := id htells'
    exact ⟨bytes', rfl, fun seq => .write seq htells htells'⟩

section MayWait

variable {r : StreamRef} {payload : Payload} {written : Nat}

theorem Parcel.MayWait.not_mem (h : (Parcel.data r payload written).MayWait b lost) : r ∉ lost := by
  rcases h with h | ⟨_, _, _, heq, hlost, -⟩
  · exact h.2
  · cases heq
    exact hlost

theorem Parcel.MayWait.mayLeave {c : Session} (h : (Parcel.data r payload written).MayWait b lost)
    (spared : b.Spared lost c) (alive : (c.stream r).reset = false) (window : 0 < (c.stream r).window) :
    (Parcel.data r payload written).MayLeave b lost := by
  refine h.resolve_right ?_
  rintro ⟨_, _, _, heq, -, hmem, hblocked⟩
  cases heq
  rw [← spared.same r (.inr hmem), alive] at hblocked
  exact absurd window (Int.not_lt.2 (hblocked.resolve_left Bool.false_ne_true))

end MayWait

/-- Parcels that differ agree on whether they have their turn. -/
theorem isReady_twins {c : Session} (h : b.Spared lost c) (hgone : gone ⊆ lost) (hgone' : gone' ⊆ lost) {q q' : Parcel}
    (hq : q.MayWait b lost) (htwins : Twins (b.TellsAny lost) q q') :
    q.isReady (fun r => ((c.renounce gone).stream r).isReady) =
      q'.isReady fun r => ((c.renounce gone').stream r).isReady := by
  rcases htwins with rfl | ⟨⟨r, -, bytes, -, rfl⟩, r', -, bytes', -, rfl⟩
  · cases q with
    | control => rfl
    | data r payload written =>
      have hlost := hq.not_mem
      rw [Parcel.isReady, Parcel.isReady, h.stream_renounce hgone hlost, h.stream_renounce hgone' hlost]
  · rfl

theorem Docile.flushed (h : Docile b lost s) (cap : Nat)
    (leaves : ∀ x ∈ (s.flush (.standard cap)).session.outstanding, x ∈ s.outstanding ∨ x.parcel.MayLeave b lost) :
    Docile b lost (s.flush (.standard cap)).session :=
  ⟨fun q hq => h.waiting q ((s.flush_sublist cap).subset hq), fun x hx => (leaves x hx).elim (h.leaving x) id⟩

section Take

variable {c : Session} {table : List StreamRef} {parcels l l' : List Parcel} {outstanding : List Handler}
  {q q' : Parcel} (spared : b.Spared lost c) (perm : table.Perm c.table)
  (leaving : List.Forall₂ (Handler.Mirrors b lost) c.outstanding outstanding)
  (waiting : List.Forall₂ (Twins (b.TellsAny lost)) l l')

include spared perm leaving waiting

theorem abreast_handing (twins : Twins (b.TellsAny lost) q q') :
    Abreast b lost gone gone' ((c.renounce gone).handing l q)
      (((c.recast table parcels outstanding).renounce gone').handing l' q') := by
  have h : Abreast b lost gone gone' ((c.handing l q).renounce gone)
      (((c.handing l q).recast table l' (outstanding ++ [⟨c.outbox.writes + 1, q'⟩])).renounce gone') :=
    .intro (spared.of_streams rfl rfl rfl) perm waiting (List.rel_append leaving (.cons ⟨rfl, twins⟩ .nil))
  exact h

theorem abreast_freed :
    Abreast b lost gone gone'
      { c.renounce gone with outbox := { (c.renounce gone).outbox with parcels := l, busy := false } }
      { (c.recast table parcels outstanding).renounce gone' with
        outbox :=
          { ((c.recast table parcels outstanding).renounce gone').outbox with parcels := l', busy := false } } := by
  have h : Abreast b lost gone gone'
      (({ c with outbox := { c.outbox with parcels := l, busy := false } } : Session).renounce gone)
      ((({ c with outbox := { c.outbox with parcels := l, busy := false } } : Session).recast table l'
        outstanding).renounce gone') :=
    .intro (spared.of_streams rfl rfl rfl) perm waiting leaving
  exact h

variable (cap : Nat)
  (take : (c.renounce gone).outbox.take? (fun r => ((c.renounce gone).stream r).isReady) =
    some (q, { (c.renounce gone).outbox with parcels := l, busy := true }))
  (take' : ((c.recast table parcels outstanding).renounce gone').outbox.take?
      (fun r => (((c.recast table parcels outstanding).renounce gone').stream r).isReady) =
    some (q', { ((c.recast table parcels outstanding).renounce gone').outbox with parcels := l', busy := true }))

include take take'

/-- Both sessions hand over a frame that tells that a stream is given up. -/
theorem alike_of_control {bytes : Bytes} (hq : q = .control .rstStream bytes none)
    (twins : Twins (b.TellsAny lost) q q') :
    Alike b lost gone gone' (c.renounce gone) ((c.renounce gone).flush (.standard cap))
      (((c.recast table parcels outstanding).renounce gone').flush (.standard cap)) := by
  subst hq
  obtain ⟨bytes', rfl, hcall⟩ := twins.told
  have hflush := Session.flush_of_control (.standard cap) take
  have hflush' := Session.flush_of_control (.standard cap) take'
  refine ⟨?_, ?_, fun hd => hd.flushed cap fun x hx => ?_⟩
  · rw [hflush, hflush']
    exact abreast_handing spared perm leaving waiting twins
  · rw [hflush, hflush']
    exact .call (hcall _) rfl (.mere trivial .nil)
  · rw [hflush] at hx
    refine (List.mem_append.1 hx).imp_right fun hx => ?_
    rw [List.mem_singleton.1 hx]
    exact ⟨rfl, rfl⟩

/-- Both sessions drop data of a stream that was reset, or hand over data of an open one. -/
theorem alike_of_data {r : StreamRef} {payload : Payload} {written : Nat} (hq : q = .data r payload written)
    (twins : Twins (b.TellsAny lost) q q') (hgone : gone ⊆ lost) (hgone' : gone' ⊆ lost) (wait : q.MayWait b lost)
    (ready : q.isReady fun r => ((c.renounce gone).stream r).isReady) :
    Alike b lost gone gone' (c.renounce gone) ((c.renounce gone).flush (.standard cap))
      (((c.recast table parcels outstanding).renounce gone').flush (.standard cap)) := by
  subst hq
  obtain rfl := twins.data
  have hstream : (c.renounce gone).stream r = c.stream r := spared.stream_renounce hgone wait.not_mem
  have hstream' : ((c.recast table parcels outstanding).renounce gone').stream r = c.stream r :=
    spared.stream_renounce hgone' wait.not_mem
  cases hreset : (c.stream r).reset with
  | true =>
    have hflush := Session.flush_of_reset (.standard cap) take (by rw [hstream, hreset])
    have hflush' := Session.flush_of_reset (.standard cap) take' (by rw [hstream', hreset])
    refine ⟨?_, ?_, fun hd => hd.flushed cap fun x hx => ?_⟩
    · rw [hflush, hflush']
      exact abreast_freed spared perm leaving waiting
    · rw [hflush, hflush']
      exact .mere trivial .nil
    · rw [hflush] at hx
      exact .inl hx
  | false =>
    have hwindow : 0 < (c.stream r).window := by
      rw [Parcel.isReady, hstream, Stream.isReady, hreset, Bool.false_or, decide_eq_true_eq] at ready
      exact ready
    obtain ⟨bytes, rest, hchunk⟩ := data_standard cap (c.stream r).id hwindow payload
    have hflush := Session.flush_of_data (.standard cap) take (by rw [hstream, hreset]) (by rw [hstream]; exact hchunk)
    have hflush' := Session.flush_of_data (.standard cap) take' (by rw [hstream', hreset])
      (by rw [hstream']; exact hchunk)
    refine ⟨?_, ?_, fun hd => hd.flushed cap fun x hx => ?_⟩
    · rw [hflush, hflush']
      exact abreast_handing spared perm leaving waiting (.refl _ _)
    · rw [hflush, hflush']
      exact .call (.same _) rfl (.mere trivial .nil)
    · rw [hflush] at hx
      refine (List.mem_append.1 hx).imp_right fun hx => ?_
      rw [List.mem_singleton.1 hx]
      exact wait.mayLeave spared hreset hwindow

end Take

/-- Both sessions start the next write, or neither does. -/
theorem Abreast.flush (h : Abreast b lost gone gone' s s') (hgone : gone ⊆ lost) (hgone' : gone' ⊆ lost)
    (hphase : s.outbox.busy ∨ Docile b lost s) :
    Alike b lost gone gone' s (s.flush (.standard cap)) (s'.flush (.standard cap)) := by
  cases h with
  | @intro c table parcels outstanding spared perm waiting leaving =>
  have hidle : (c.renounce gone).outbox.take? (fun r => ((c.renounce gone).stream r).isReady) = none →
      ((c.recast table parcels outstanding).renounce gone').outbox.take?
        (fun r => (((c.recast table parcels outstanding).renounce gone').stream r).isReady) = none →
      Alike b lost gone gone' (c.renounce gone) ((c.renounce gone).flush (.standard cap))
        (((c.recast table parcels outstanding).renounce gone').flush (.standard cap)) := by
    intro hnone hnone'
    rw [Session.flush_of_none _ hnone, Session.flush_of_none _ hnone']
    exact ⟨.intro spared perm waiting leaving, .nil, id⟩
  cases hbusy : c.outbox.busy with
  | true =>
    have htake : ∀ (o : Outbox) f, o.busy = true → o.take? f = none := fun o f ho => by rw [Outbox.take?, if_pos ho]
    exact hidle (htake _ _ hbusy) (htake _ _ hbusy)
  | false =>
    have hdocile : Docile b lost (c.renounce gone) := hphase.resolve_left fun h => by
      have h : c.outbox.busy = true := h
      rw [hbusy] at h
      cases h
    have hother : ((c.recast table parcels outstanding).renounce gone').outbox.busy = false := hbusy
    rcases Outbox.take?_twins (o := (c.renounce gone).outbox) hbusy hother waiting fun q hq q' htwins =>
        isReady_twins spared hgone hgone' (hdocile.waiting q hq) htwins with
      ⟨hnone, hnone'⟩ | ⟨q, q', l, l', htake, htake', htwins, hl, hq, hready⟩
    · exact hidle hnone hnone'
    · have hwait := hdocile.waiting q hq
      cases q with
      | control type bytes r =>
        obtain ⟨rfl, rfl⟩ : type = .rstStream ∧ r = none := hwait.resolve_right fun ⟨_, _, _, heq, _⟩ => by cases heq
        exact alike_of_control spared perm leaving hl cap htake htake' rfl htwins
      | data r payload written =>
        exact alike_of_data spared perm leaving hl cap htake htake' rfl htwins hgone hgone' hwait hready

/-- Both sessions settle who starts the next write in the same way. -/
theorem Abreast.settle (h : Abreast b lost gone gone' s s') (f : Outbox → Bool × Outbox)
    (hf : ∀ o l, f { o with parcels := l } = ((f o).1, { (f o).2 with parcels := l })) :
    Alike b lost gone gone' s
      { session := { s with outbox := (f s.outbox).2 }, todo := if (f s.outbox).1 then [.flush] else [] }
      { session := { s' with outbox := (f s'.outbox).2 }, todo := if (f s'.outbox).1 then [.flush] else [] } := by
  cases h with
  | @intro c table parcels outstanding spared perm waiting leaving =>
  have hkept : ∀ o : Outbox, (f o).2.parcels = o.parcels := fun o =>
    congrArg (fun x : Bool × Outbox => x.2.parcels) (hf o o.parcels)
  have hother := hf c.outbox parcels
  refine ⟨?_, ?_, fun hd => ⟨fun q hq => hd.waiting q ?_, hd.leaving⟩⟩
  · have h : Abreast b lost gone gone' (({ c with outbox := (f c.outbox).2 } : Session).renounce gone)
        ((({ c with outbox := (f c.outbox).2 } : Session).recast table parcels outstanding).renounce gone') := by
      refine .intro (spared.of_streams rfl rfl rfl) perm ?_ leaving
      rw [hkept]
      exact waiting
    have hright : ((({ c with outbox := (f c.outbox).2 } : Session).recast table parcels outstanding).renounce gone') =
        { (c.recast table parcels outstanding).renounce gone' with
          outbox := (f ((c.recast table parcels outstanding).renounce gone').outbox).2 } := by
      show _ = ({ (c.recast table parcels outstanding).renounce gone' with
        outbox := (f { c.outbox with parcels }).2 } : Session)
      rw [hother]
      rfl
    rw [← hright]
    exact h
  · show Chores b lost [] [] (if (f c.outbox).1 then [.flush] else [])
      (if (f { c.outbox with parcels }).1 then [.flush] else [])
    rw [hother]
    cases (f c.outbox).1 with
    | true => exact .mere trivial .nil
    | false => exact .nil
  · rw [← hkept (c.renounce gone).outbox]
    exact hq

theorem find?_recast {c : Session} {table : List StreamRef} {parcels : List Parcel} {outstanding : List Handler}
    (perm : table.Perm c.table) (id : UInt32) :
    ((c.recast table parcels outstanding).find? id).isSome ↔ (c.find? id).isSome := by
  rw [Session.find?_isSome, Session.find?_isSome]
  exact exists_congr fun q => and_congr_left fun _ => perm.mem_iff

/-- Where a stream goes, it goes whatever the order of the table. -/
theorem remove_recast {c : Session} {table : List StreamRef} (parcels : List Parcel) (outstanding : List Handler)
    (perm : table.Perm c.table) (r : StreamRef) :
    ∃ table', table'.Perm (c.remove r).session.table ∧
      (c.recast table parcels outstanding).remove r =
        { c.remove r with session := (c.remove r).session.recast table' parcels outstanding } := by
  have hid : (c.recast table parcels outstanding).idOf = c.idOf := rfl
  unfold Session.remove
  rw [hid]
  by_cases h : (c.find? (c.idOf r)).isSome
  · rw [if_pos h, if_pos ((find?_recast perm _).2 h)]
    refine ⟨table.filter (c.idOf · != c.idOf r), ?_, ?_⟩
    · obtain ⟨n, hn⟩ := (c.forget (c.idOf r)).countDone_cases r
      rw [hn]
      exact perm.filter _
    · dsimp only
      rw [Session.countDone_eq, Session.countDone_eq]
      rfl
  · rw [if_neg h, if_neg (mt (find?_recast perm _).1 h)]
    exact ⟨table, perm, rfl⟩

theorem chores_remove (c : Session) (r : StreamRef) : Chores b lost [] [] (c.remove r).todo (c.remove r).todo := by
  have h := c.remove_cases r
  generalize c.remove r = p at h
  cases h with
  | gone => exact .mere rfl .nil
  | absent => exact .nil

/-- Both sessions take a closed stream out of the table. -/
theorem Abreast.reclaim (h : Abreast b lost gone gone' s s') (tidy : b.Tidy) (hgone : gone ⊆ lost)
    (hgone' : gone' ⊆ lost) {r : StreamRef} (hr : r ∈ b.table) (hlost : r ∉ lost) :
    Alike b lost gone gone' s (s.perform (.standard cap) (.reclaim r)) (s'.perform (.standard cap) (.reclaim r)) := by
  cases h with
  | @intro c table parcels outstanding spared perm waiting leaving =>
  have hstream : (c.renounce gone).stream r = c.stream r := spared.stream_renounce hgone hlost
  have hstream' : ((c.recast table parcels outstanding).renounce gone').stream r = c.stream r :=
    spared.stream_renounce hgone' hlost
  simp only [Session.perform, hstream, hstream']
  by_cases hclosed : (c.stream r).isClosed
  · obtain ⟨table', perm', hremove⟩ := remove_recast parcels outstanding perm r
    have hknown' : ∀ q ∈ gone', q.serial < (c.recast table parcels outstanding).streams.size := spared.known hgone'
    rw [if_pos hclosed, if_pos hclosed,
      Session.remove_renounce (spared.known hgone) (spared.idOf_ne tidy hgone hr hlost),
      Session.remove_renounce hknown' (spared.idOf_ne tidy hgone' hr hlost), hremove]
    have hcalm := Calm.remove c r
    refine ⟨.intro (spared.remove tidy hr hlost hclosed) perm' ?_ ?_, chores_remove c r,
      fun hd => ⟨fun q hq => hd.waiting q ?_, fun x hx => hd.leaving x ?_⟩⟩
    · rw [hcalm.outbox]
      exact waiting
    · rw [hcalm.outstanding]
      exact leaving
    · exact congrArg Outbox.parcels hcalm.outbox ▸ hq
    · exact hcalm.outstanding ▸ hx
  · rw [if_neg hclosed, if_neg hclosed]
    exact ⟨.intro spared perm waiting leaving, .nil, id⟩

theorem chores_tell (l : List Listener) {notice : Notice} (h : notice.asks = false) :
    Chores b lost [] [] (l.map fun x => .call (.tell x notice)) (l.map fun x => .call (.tell x notice)) := by
  induction l with
  | nil => exact .nil
  | cons x l ih => exact .call (.same _) (by rw [Call.isMere, h]; rfl) ih

/-- A task that has nothing to do with streams that are given up does the same in both sessions. -/
theorem Abreast.perform (h : Abreast b lost gone gone' s s') (cap : Nat) (tidy : b.Tidy) (hgone : gone ⊆ lost)
    (hgone' : gone' ⊆ lost) (hphase : s.outbox.busy ∨ Docile b lost s) {x : Task} (mere : x.IsMere b lost) :
    Alike b lost gone gone' s (s.perform (.standard cap) x) (s'.perform (.standard cap) x) := by
  have hsame : s'.primary = s.primary ∧ s'.controlListeners = s.controlListeners := by
    cases h
    exact ⟨rfl, rfl⟩
  cases x with
  | flush => exact h.flush hgone hgone' hphase
  | endWrite seq =>
    refine h.settle (·.endWrite seq) fun o l => ?_
    unfold Outbox.endWrite
    dsimp only
    split <;> rfl
  | release =>
    refine h.settle Outbox.complete fun o l => ?_
    unfold Outbox.complete
    dsimp only
    split <;> rfl
  | tell listeners notice =>
    cases listeners with
    | nil => exact ⟨h, .nil, id⟩
    | cons l rest =>
      have hmere : (Call.tell l notice).isMere := by rw [Call.isMere, show notice.asks = false from mere]; rfl
      exact ⟨h, .call (.same _) hmere (.mere mere .nil), id⟩
  | announce notice =>
    refine ⟨h, ?_, id⟩
    simp only [Session.perform, hsame.1]
    exact (chores_tell _ mere).append (.mere mere .nil)
  | tellRegistered notice =>
    refine ⟨h, ?_, id⟩
    simp only [Session.perform, hsame.2]
    exact .mere mere .nil
  | reclaim r => exact h.reclaim tidy hgone hgone' mere.1 mere.2
  | call c => exact mere.elim
  | reset version id status => exact mere.elim
  | lose id => exact mere.elim
  | overflow r e => exact mere.elim
  | accept r opening => exact mere.elim

theorem tells_congr {c : Session} {r : StreamRef} (h : c.stream r = b.stream r) {q : Parcel} :
    c.Tells r q ↔ b.Tells r q := by
  rw [Session.Tells, Session.Tells, Session.idOf, Session.idOf, h]

/-- Each session gives up the next one of its streams. -/
theorem Abreast.reset (h : Abreast b lost gone gone' s s') (cap : Nat) (hgone : gone ⊆ lost) (hgone' : gone' ⊆ lost)
    {r r' : StreamRef} (hr : r ∈ lost) (hnew : r ∉ gone) (hr' : r' ∈ lost) (hnew' : r' ∉ gone') :
    ∃ q q', b.Tells r q ∧ b.Tells r' q' ∧
      TurnOf b lost gone gone' r r' q q' s s'
        (s.reset (.standard cap) (b.stream r).version (b.idOf r) .flowControlError)
        (s'.reset (.standard cap) (b.stream r').version (b.idOf r') .flowControlError) := by
  cases h with
  | @intro c table parcels outstanding spared perm waiting leaving =>
  have hstream : ∀ t ∈ lost, c.stream t = b.stream t := fun t ht => spared.same t (.inl ht)
  have hne : ∀ {l : List StreamRef} {t : StreamRef}, l ⊆ lost → t ∈ lost → t ∉ l → ∀ q ∈ l, c.idOf t ≠ c.idOf q := by
    intro l t hl ht hnot q hq hid
    exact hnot (List.inj_on_of_nodup_map spared.tidy.nodup (spared.held t ht) (spared.held q (hl hq)) hid ▸ hq)
  obtain ⟨q, htells, hreset⟩ := Session.reset_renounce cap spared.tidy spared.sent (spared.held r hr)
    (spared.known hgone) (hne hgone hr hnew)
  have tidy' : (c.recast table parcels outstanding).Tidy :=
    ⟨(spared.tidy.ordered perm).known, (spared.tidy.ordered perm).nodup⟩
  obtain ⟨q', htells', hreset'⟩ := Session.reset_renounce (s := c.recast table parcels outstanding) cap tidy'
    spared.sent (perm.mem_iff.2 (spared.held r' hr')) (spared.known hgone') (hne hgone' hr' hnew')
  have htells := (tells_congr (hstream r hr)).1 htells
  have htells' : b.Tells r' q' := (tells_congr (c := c.recast table parcels outstanding) (hstream r' hr')).1 htells'
  have hstream' : (c.recast table parcels outstanding).stream r' = b.stream r' := hstream r' hr'
  have hid' : (c.recast table parcels outstanding).idOf r' = b.idOf r' := congrFun spared.ids r'
  rw [hstream r hr, spared.ids] at hreset
  rw [hstream', hid'] at hreset'
  refine ⟨q, q', htells, htells', ?_⟩
  rw [hreset, hreset']
  refine ⟨?_, rfl, rfl, rfl, rfl, rfl⟩
  have h : Abreast b lost (gone ++ [r]) (gone' ++ [r']) ((c.post [q]).renounce (gone ++ [r]))
      (((c.post [q]).recast table (parcels ++ [q']) outstanding).renounce (gone' ++ [r'])) :=
    .intro (spared.of_streams rfl rfl rfl) perm
      (List.rel_append waiting (.cons (.inr ⟨⟨r, hr, htells⟩, r', hr', htells'⟩) .nil)) leaving
  exact h

/-! ## Reports of writes -/

/-- Of a stream that is not given up both sessions know the same. -/
theorem Abreast.stream (h : Abreast b lost gone gone' s s') (hgone : gone ⊆ lost) (hgone' : gone' ⊆ lost)
    {r : StreamRef} (hlost : r ∉ lost) : s'.stream r = s.stream r := by
  cases h with
  | @intro c table parcels outstanding spared perm waiting leaving =>
  rw [spared.stream_renounce hgone hlost]
  exact spared.stream_renounce hgone' hlost

/-- An open stream that is not given up changes in both sessions. -/
theorem Abreast.update (h : Abreast b lost gone gone' s s') (hgone : gone ⊆ lost) (hgone' : gone' ⊆ lost)
    {r : StreamRef} (hr : r ∈ b.table) (hlost : r ∉ lost) {f : Stream → Stream}
    (hid : (f (s.stream r)).id = (s.stream r).id) (hreset : (f (s.stream r)).reset = (s.stream r).reset)
    (hclosed : (s.stream r).isClosed → (f (s.stream r)).isClosed) :
    Abreast b lost gone gone' (s.update r f) (s'.update r f) := by
  cases h with
  | @intro c table parcels outstanding spared perm waiting leaving =>
  rw [spared.stream_renounce hgone hlost] at hid hreset hclosed
  have h : Abreast b lost gone gone' ((c.update r f).renounce gone)
      (((c.recast table parcels outstanding).update r f).renounce gone') :=
    .intro (c := c.update r f) (spared.update hr hlost hid hreset hclosed) perm waiting leaving
  have hknown' : ∀ t ∈ gone', t.serial < (c.recast table parcels outstanding).streams.size := spared.known hgone'
  rwa [Session.update_renounce hid (spared.known hgone) fun h => hlost (hgone h),
    Session.update_renounce (s := c.recast table parcels outstanding) hid hknown' fun h => hlost (hgone' h)] at h

theorem putBack_renounce {c : Session} (known : ∀ r ∈ gone, r.serial < c.streams.size) (r : StreamRef) (q : Parcel) :
    (c.renounce gone).putBack r q = (c.putBack r q).renounce gone := by
  rw [Session.putBack, Session.idOf_renounce known]
  rfl

theorem Abreast.putBack (h : Abreast b lost gone gone' s s') (hgone : gone ⊆ lost) (hgone' : gone' ⊆ lost)
    (r : StreamRef) (q : Parcel) : Abreast b lost gone gone' (s.putBack r q) (s'.putBack r q) := by
  cases h with
  | @intro c table parcels outstanding spared perm waiting leaving =>
  have hknown' : ∀ t ∈ gone', t.serial < (c.recast table parcels outstanding).streams.size := spared.known hgone'
  rw [putBack_renounce (spared.known hgone), putBack_renounce hknown']
  obtain ⟨hbefore, hafter⟩ := forall₂_span (f := fun p : Parcel => !p.isDataOf (c.idOf · == c.idOf r))
    (g := fun p : Parcel => !p.isDataOf (c.idOf · == c.idOf r)) waiting fun p _ p' h => by
      rcases h with rfl | ⟨⟨_, _, _, _, rfl⟩, _, _, _, _, rfl⟩ <;> rfl
  have h : Abreast b lost gone gone' ((c.putBack r q).renounce gone)
      (((c.putBack r q).recast table
        (parcels.takeWhile (fun p => !p.isDataOf (c.idOf · == c.idOf r)) ++
          q :: parcels.dropWhile (fun p => !p.isDataOf (c.idOf · == c.idOf r))) outstanding).renounce gone') :=
    .intro (spared.of_streams rfl rfl rfl) perm (List.rel_append hbefore (.cons (.refl _ _) hafter)) leaving
  exact h

/-- What comes of data that was written, if the window of its stream makes up for it. -/
theorem wrote_of_credit {r : StreamRef} {written : Nat} {x : Stream} (payload : Payload)
    (h : (s.stream r).credit (debit written) = .ok x) :
    s.wrote (.data r payload written) =
      if payload.isEmpty then
        { session := if payload.close then (s.update r fun _ => x).closeLocal r else s.update r fun _ => x
          todo := [.reclaim r, .release] }
      else { session := (s.update r fun _ => x).putBack r (.data r payload written), todo := [.release] } := by
  rw [Session.wrote, ← debit, h]

theorem Docile.putBack (h : Docile b lost s) (r : StreamRef) {q : Parcel} (hq : q.MayLeave b lost) :
    Docile b lost (s.putBack r q) := by
  obtain ⟨before, after, hparcels, -, hput⟩ := Outbox.putBack_parcels s.outbox (s.idOf · == s.idOf r) q
  refine ⟨fun z hz => ?_, h.leaving⟩
  rw [Session.putBack, hput] at hz
  rcases List.mem_append.1 hz with hz | hz
  · exact h.waiting z (hparcels ▸ List.mem_append_left _ hz)
  · rcases List.mem_cons.1 hz with rfl | hz
    · exact .inl hq
    · exact h.waiting z (hparcels ▸ List.mem_append_right _ hz)

/-- The report of a write comes to the same in both sessions. -/
theorem Abreast.wrote (h : Abreast b lost gone gone' s s') (hgone : gone ⊆ lost) (hgone' : gone' ⊆ lost)
    {q q' : Parcel} (twins : Twins (b.TellsAny lost) q q') (leave : q.MayLeave b lost)
    (unstuck : ∀ r payload written, q = .data r payload written →
      ∃ x, (s.stream r).credit (debit written) = .ok x) :
    Alike b lost gone gone' s (s.wrote q) (s'.wrote q') := by
  cases q with
  | control type bytes r =>
    obtain ⟨rfl, rfl⟩ := leave
    obtain ⟨bytes', rfl, -⟩ := twins.told
    exact ⟨h, .mere trivial .nil, id⟩
  | data r payload written =>
    obtain rfl := twins.data
    obtain ⟨hr, hlost⟩ := id leave
    obtain ⟨x, hx⟩ := unstuck r payload written rfl
    have hx' : (s'.stream r).credit (debit written) = .ok x := by
      rw [h.stream hgone hgone' hlost]
      exact hx
    obtain ⟨hxeq, -, -⟩ := Stream.credit_eq_ok hx
    have hpaid : Abreast b lost gone gone' (s.update r fun _ => x) (s'.update r fun _ => x) :=
      h.update hgone hgone' hr hlost (by rw [hxeq]) (by rw [hxeq]) (by rw [hxeq]; exact id)
    rw [wrote_of_credit payload hx, wrote_of_credit payload hx']
    by_cases hempty : payload.isEmpty
    · rw [if_pos hempty, if_pos hempty]
      refine ⟨?_, .mere ⟨hr, hlost⟩ (.mere trivial .nil), fun hd => ?_⟩
      · by_cases hclose : payload.close
        · rw [if_pos hclose, if_pos hclose]
          refine hpaid.update hgone hgone' hr hlost rfl rfl fun hclosed => ?_
          rw [Stream.isClosed, Bool.and_eq_true] at hclosed
          rw [Stream.isClosed, hclosed.2]
          rfl
        · rw [if_neg hclose, if_neg hclose]
          exact hpaid
      · cases payload.close <;> exact ⟨hd.waiting, hd.leaving⟩
    · rw [if_neg hempty, if_neg hempty]
      have hdocile : Docile b lost s → Docile b lost (s.update r fun _ => x) := fun hd => ⟨hd.waiting, hd.leaving⟩
      exact ⟨hpaid.putBack hgone hgone' r _, .mere trivial .nil, fun hd => (hdocile hd).putBack r leave⟩

end Abreast

end Spdy
