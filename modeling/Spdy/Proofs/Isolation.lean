import Spdy.Proofs.Life
import Spdy.Proofs.Lockstep
import Spdy.Proofs.Meanwhile

/-!
# Streams do not disturb each other

What the reader reads about one stream changes no other one. All that it sets going ends in a flush of the outbox that all
streams share, so nothing of another stream may be ready to leave when it begins. Between operations that is so: a write is
in progress, or nothing waits that could be sent.

* `Session.Confined` : what happened is confined to the streams of one id;
* `Task.IsAbout`, `Session.Deals` : work that has to do with the streams of one id only;
* `deals_perform`, `deals_receive` : what tasks and received frames do;
* `Session.besides` : what waits for streams with other ids; `Session.Devoted` : nothing of it can leave;
* `Session.Minds`, `Undisturbed`, `undisturbed_of_next?` : what stays so while an operation is being done;
* `streams_are_isolated` : what is received about one stream leaves all others as they are.
-/

namespace Spdy

/-! ## Streams of one id -/

/-- What happened is confined to the streams of an id: those of other ids are as they were, in the table or out of it,
and all new streams have that id. -/
structure Session.Confined (id : UInt32) (s t : Session) : Prop where
  size : s.streams.size ≤ t.streams.size
  idOf : ∀ r, r.serial < s.streams.size → t.idOf r = s.idOf r
  fresh : ∀ r, s.streams.size ≤ r.serial → r.serial < t.streams.size → t.idOf r = id
  stream : ∀ r, r.serial < s.streams.size → s.idOf r ≠ id → t.stream r = s.stream r
  table : ∀ r, r.serial < s.streams.size → s.idOf r ≠ id → (r ∈ t.table ↔ r ∈ s.table)

def Session.Has (s : Session) (id : UInt32) (r : StreamRef) : Prop := r.serial < s.streams.size ∧ s.idOf r = id

namespace Session.Confined

variable {id : UInt32} {s t u : Session} {r : StreamRef}

theorem of_streams (hstreams : t.streams = s.streams) (htable : t.table = s.table) : Confined id s t := by
  have hstream : ∀ r, t.stream r = s.stream r := fun r => by rw [Session.stream, hstreams, ← Session.stream]
  exact
    { size := Nat.le_of_eq (by rw [hstreams])
      idOf := fun r _ => congrArg Stream.id (hstream r)
      fresh := fun r hr hr' => absurd hr' (Nat.not_lt.2 (by rw [hstreams]; exact hr))
      stream := fun r _ _ => hstream r
      table := fun r _ _ => by rw [htable] }

theorem refl (id : UInt32) (s : Session) : Confined id s s := of_streams rfl rfl

theorem post (id : UInt32) (s : Session) (new : List Parcel) : Confined id s (s.post new) := of_streams rfl rfl

theorem trans (h : Confined id s t) (h' : Confined id t u) : Confined id s u := by
  have hother : ∀ r, r.serial < s.streams.size → s.idOf r ≠ id → r.serial < t.streams.size ∧ t.idOf r ≠ id :=
    fun r hr hid => ⟨Nat.lt_of_lt_of_le hr h.size, by rwa [h.idOf r hr]⟩
  refine ⟨Nat.le_trans h.size h'.size, fun r hr => ?_, fun r hr hr' => ?_, fun r hr hid => ?_, fun r hr hid => ?_⟩
  · rw [h'.idOf r (Nat.lt_of_lt_of_le hr h.size), h.idOf r hr]
  · by_cases hlt : r.serial < t.streams.size
    · rw [h'.idOf r hlt]
      exact h.fresh r hr hlt
    · exact h'.fresh r (Nat.not_lt.1 hlt) hr'
  · obtain ⟨hr', hid'⟩ := hother r hr hid
    rw [h'.stream r hr' hid', h.stream r hr hid]
  · obtain ⟨hr', hid'⟩ := hother r hr hid
    rw [h'.table r hr' hid', h.table r hr hid]

theorem has (h : Confined id s t) (hr : s.Has id r) : t.Has id r :=
  ⟨Nat.lt_of_lt_of_le hr.1 h.size, (h.idOf r hr.1).trans hr.2⟩

theorem update {f : Stream → Stream} (hr : s.idOf r = id) (hf : (f (s.stream r)).id = (s.stream r).id) :
    Confined id s (s.update r f) where
  size := Nat.le_of_eq (size_update s r f).symm
  idOf := fun q _ => congrFun (s.idOf_update r hf) q
  fresh := fun q hq hq' => absurd hq' (Nat.not_lt.2 (by rwa [size_update]))
  stream := fun q _ hq => stream_update_of_ne f fun h => hq (h ▸ hr)
  table := fun _ _ _ => Iff.rfl

theorem forget (id : UInt32) (s : Session) : Confined id s (s.forget id) where
  size := Nat.le_refl _
  idOf := fun _ _ => rfl
  fresh := fun r hr hr' => absurd hr' (Nat.not_lt.2 hr)
  stream := fun _ _ _ => rfl
  table := fun r _ hr => by
    rw [Session.forget, List.mem_filter, bne_iff_ne]
    exact and_iff_left hr

theorem remove (hr : s.idOf r = id) : Confined id s (s.remove r).session := by
  have h := s.remove_cases r
  generalize s.remove r = p at h
  cases h with
  | gone => exact hr ▸ (forget (s.idOf r) s).trans (of_streams rfl rfl)
  | absent => exact refl id s

/-- A stream of the id is opened, in place of another one. -/
theorem register (s : Session) {x : Stream} (hx : x.id = id) : Confined id s (s.register x) where
  size := by
    rw [size_register]
    exact Nat.le_succ _
  idOf := fun r hr => congrArg Stream.id (stream_register_of_lt x hr)
  fresh := fun r hr hr' => by
    rw [size_register] at hr'
    obtain rfl : r = s.nextRef := by
      cases r
      exact congrArg StreamRef.mk (Nat.le_antisymm (Nat.le_of_lt_succ hr') hr)
    exact (congrArg Stream.id (s.stream_register_nextRef x)).trans hx
  stream := fun r hr _ => stream_register_of_lt x hr
  table := fun r hr hid => by
    rw [mem_table_register]
    refine ⟨fun h => h.elim And.left fun h => ?_, fun h => .inl ⟨h, hx ▸ hid⟩⟩
    rw [h] at hr
    exact absurd hr (Nat.lt_irrefl _)

end Session.Confined

theorem Session.has_of_find? {s : Session} (tidy : s.Tidy) {id : UInt32} {r : StreamRef} (h : s.find? id = some r) :
    s.Has id r := ⟨tidy.known r (List.mem_of_find?_eq_some h), by simpa using List.find?_some h⟩

/-! ## Work that has to do with the streams of one id -/

/-- A task that has to do with the streams of an id, or with none. -/
def Task.IsAbout (id : UInt32) (s : Session) : Task → Prop
  | .call (.tell _ (.opened r _)) | .overflow r _ | .reclaim r | .accept r _ => s.Has id r
  | .call _ | .flush | .endWrite _ | .release => True
  | .tell _ notice | .announce notice | .tellRegistered notice => notice.asks = false
  | .reset _ streamId _ | .lose streamId => streamId = id

/-- Work that has to do with the streams of an id only, and leaves more of its kind. -/
structure Session.Deals (id : UInt32) (s : Session) (p : Progress) : Prop where
  confined : s.Confined id p.session
  about : ∀ x ∈ p.todo, x.IsAbout id p.session

theorem Task.IsAbout.later {id : UInt32} {s t : Session} {x : Task} (h : x.IsAbout id s) (confined : s.Confined id t) :
    x.IsAbout id t := by
  cases x with
  | call c =>
    cases c with
    | tell l notice =>
      cases notice with
      | opened r opening => exact confined.has h
      | _ => trivial
    | _ => trivial
  | overflow r error => exact confined.has h
  | reclaim r => exact confined.has h
  | accept r opening => exact confined.has h
  | _ => exact h

namespace Session

variable {id : UInt32} {s : Session} {r : StreamRef}

theorem Deals.idle (notes : List Note) : s.Deals id { session := s, notes } := ⟨.refl id s, nofun⟩

theorem Deals.flush (notes : List Note) : s.Deals id { session := s, todo := [.flush], notes } :=
  ⟨.refl id s, fun x hx => by rw [List.mem_singleton.1 hx]; trivial⟩

theorem Deals.after {t : Session} {p : Progress} (confined : s.Confined id t) (h : t.Deals id p) : s.Deals id p :=
  ⟨confined.trans h.confined, h.about⟩

theorem deals_remove (hr : s.idOf r = id) : s.Deals id (s.remove r) := by
  refine ⟨.remove hr, fun x hx => ?_⟩
  cases remove_mourns hx with
  | flush => trivial
  | closed => rfl

theorem deals_giveUp (notes : List Note) : s.Deals id (s.giveUp id notes) := by
  unfold giveUp
  split
  · exact .flush notes
  · next r hfind =>
    have hr : (s.markReset r).idOf r = id := by
      rw [idOf_markReset]
      simpa using List.find?_some hfind
    have hgone := (deals_remove hr).after (.update (by rwa [idOf_markReset] at hr) rfl)
    refine ⟨hgone.confined, fun x hx => ?_⟩
    rcases List.mem_append.1 hx with hx | hx
    · exact hgone.about x hx
    · rw [List.mem_singleton.1 hx]
      trivial

theorem deals_reset (enc : Encoder) (version : Version) (status : StreamStatus) :
    s.Deals id (s.reset enc version id status) := by
  rw [reset_eq]
  split
  · exact .idle []
  · split
    · exact (deals_giveUp []).after (.post id s _)
    · exact deals_giveUp _

/-- A task does what it is about, unless it starts or settles a write. -/
theorem deals_perform (enc : Encoder) {x : Task} (about : x.IsAbout id s) (hflush : x ≠ .flush) :
    s.Deals id (s.perform enc x) := by
  cases x with
  | call c => exact ⟨.refl id s, fun y hy => by rw [List.mem_singleton.1 hy]; exact about⟩
  | flush => exact absurd rfl hflush
  | endWrite seq =>
    refine ⟨.of_streams rfl rfl, fun y hy => ?_⟩
    replace hy : y ∈ if (s.outbox.endWrite seq).1 then [Task.flush] else [] := hy
    split at hy
    · rw [List.mem_singleton.1 hy]
      trivial
    · cases hy
  | release =>
    refine ⟨.of_streams rfl rfl, fun y hy => ?_⟩
    replace hy : y ∈ if (s.outbox.complete).1 then [Task.flush] else [] := hy
    split at hy
    · rw [List.mem_singleton.1 hy]
      trivial
    · cases hy
  | tell l notice =>
    cases l with
    | nil => exact .idle []
    | cons l rest =>
      refine ⟨.refl id s, fun y hy => ?_⟩
      rw [perform, List.mem_cons, List.mem_singleton] at hy
      rcases hy with rfl | rfl
      · cases notice <;> trivial
      · exact about
  | announce notice =>
    refine ⟨.refl id s, fun y hy => ?_⟩
    simp only [perform, List.mem_append, List.mem_map, List.mem_singleton] at hy
    rcases hy with ⟨l, -, rfl⟩ | rfl
    · cases notice <;> trivial
    · exact about
  | tellRegistered notice => exact ⟨.refl id s, fun y hy => by rw [List.mem_singleton.1 hy]; exact about⟩
  | reset version streamId status =>
    obtain rfl : streamId = id := about
    exact deals_reset enc version status
  | lose streamId =>
    obtain rfl : streamId = id := about
    simp only [perform]
    split
    · exact .idle []
    · next r hfind =>
      have hr : s.idOf r = streamId := by simpa using List.find?_some hfind
      exact (deals_remove ((congrFun (s.idOf_markReset r) r).trans hr)).after (.update hr rfl)
  | overflow r error => exact ⟨.refl id s, fun y hy => by rw [List.mem_singleton.1 hy]; exact about.2⟩
  | reclaim r =>
    simp only [perform]
    split
    · exact deals_remove about.2
    · exact .idle []
  | accept r opening =>
    refine ⟨.refl id s, fun y hy => ?_⟩
    obtain ⟨l, -, rfl⟩ := List.mem_map.1 hy
    exact about

theorem confined_accept {c : Call} (about : (Task.call c).IsAbout id s) (reply : Option Listener) :
    s.Confined id (Machine.accept s c reply) := by
  cases c with
  | tell l notice =>
    cases notice with
    | opened r opening => exact .update about.2 rfl
    | _ => exact .refl id s
  | _ => exact .refl id s

/-! ## What is received -/

theorem deals_receiveOn (has : s.Has id r) (close : Bool) {notice : Notice} (asks : notice.asks = false) :
    s.Deals id (s.receiveOn r close notice) := by
  have hconfined : s.Confined id (if close then s.closeRemote r else s) := by
    split
    · exact .update has.2 rfl
    · exact .refl id s
  refine ⟨hconfined, fun x hx => ?_⟩
  simp only [receiveOn, tellListener, List.mem_append, List.mem_map, List.mem_cons, List.not_mem_nil, or_false] at hx
  rcases hx with ⟨l, -, rfl⟩ | rfl | rfl
  · cases notice <;> trivial
  · trivial
  · exact hconfined.has has

theorem deals_receiveHead (enc : Encoder) (tidy : s.Tidy) (version : Version) (head : Head)
    {notice : StreamRef → Head → Notice} (asks : ∀ r h, (notice r h).asks = false) :
    s.Deals id (s.receiveHead enc version id head notice) := by
  unfold receiveHead
  split
  · exact deals_reset enc _ _
  · next r hfind => exact deals_receiveOn (has_of_find? tidy hfind) _ (asks r head)

theorem deals_receiveSyn (enc : Encoder) (version : Version) (opening : Opening) :
    s.Deals id (s.receiveSyn enc version id opening) := by
  unfold receiveSyn
  split
  · exact deals_reset enc _ _
  · split
    · exact deals_reset enc _ _
    · have hnew : ∀ {x : Stream}, x.id = id → (s.register x).Has id s.nextRef := fun hx =>
        ⟨by rw [size_register]; exact Nat.lt_succ_self _, (congrArg Stream.id (s.stream_register_nextRef _)).trans hx⟩
      refine ⟨.register s rfl, fun x hx => ?_⟩
      simp only [List.mem_cons, List.not_mem_nil, or_false] at hx
      rcases hx with rfl | rfl | rfl | rfl
      · rfl
      · exact hnew rfl
      · trivial
      · exact hnew rfl

theorem deals_receiveWindow (tidy : s.Tidy) (delta : UInt32) : s.Deals id (s.receiveWindow id delta) := by
  unfold receiveWindow
  split
  · exact .flush []
  · next r hfind =>
    have has := has_of_find? tidy hfind
    split
    · next x hx => exact (Deals.flush []).after (.update has.2 (by rw [(Stream.credit_eq_ok hx).1]))
    · exact ⟨.refl id s, fun y hy => by rw [List.mem_singleton.1 hy]; exact has⟩

/-- What is received about a stream is dealt with for its id. -/
theorem deals_receive (enc : Encoder) (tidy : s.Tidy) {got : Received} (about : got.streamId? = some id) :
    s.Deals id (s.receive enc got) := by
  cases got with
  | control f =>
    simp only [receive]
    split
    · exact .idle []
    · obtain ⟨version, body⟩ := f
      cases body with
      | synStream flags streamId associatedId priority headers =>
        obtain rfl := Option.some.inj about
        exact deals_receiveSyn enc _ _
      | synReply flags streamId headers =>
        obtain rfl := Option.some.inj about
        exact deals_receiveHead enc tidy _ _ fun _ _ => rfl
      | rstStream streamId code =>
        obtain rfl := Option.some.inj about
        refine ⟨.refl _ s, fun x hx => ?_⟩
        simp only [receiveControl, receiveReset, List.mem_cons, List.not_mem_nil, or_false] at hx
        rcases hx with rfl | rfl <;> rfl
      | headers flags streamId headers =>
        obtain rfl := Option.some.inj about
        exact deals_receiveHead enc tidy _ _ fun _ _ => rfl
      | windowUpdate streamId delta =>
        obtain rfl := Option.some.inj about
        exact deals_receiveWindow tidy _
      | _ => cases about
  | data f =>
    obtain rfl := Option.some.inj about
    simp only [receive]
    split
    · exact .idle []
    · unfold receiveData
      split
      · exact deals_reset enc _ _
      · next r hfind => exact deals_receiveOn (has_of_find? tidy hfind) _ rfl
  | streamException e =>
    obtain rfl := Option.some.inj about
    have h : s.Deals e.streamId (s.reset enc
        (((s.find? e.streamId).map fun r => (s.stream r).version).getD s.config.version) e.streamId e.status) :=
      deals_reset enc _ e.status
    exact ⟨h.confined, h.about⟩
  | sessionException e => cases about

end Session

/-! ## What waits -/

def Session.isBeside (s : Session) (id : UInt32) (q : Parcel) : Bool :=
  q.dataOf?.any fun r => s.idOf r != id && !(s.stream r).reset

/-- What waits for streams with other ids that were not given up, in order. -/
def Session.besides (s : Session) (id : UInt32) : List Parcel := s.outbox.parcels.filter (s.isBeside id)

/-- A parcel that has to do with the streams of an id, or with none. -/
def Parcel.IsAbout (id : UInt32) (s : Session) : Parcel → Prop
  | .control _ _ r => r = none
  | .data r _ _ => s.Has id r

/-- Nothing can leave that has to do with streams of other ids. -/
structure Session.Devoted (id : UInt32) (s : Session) : Prop where
  waiting : ∀ q ∈ s.outbox.parcels, s.canSend q → q.IsAbout id s
  leaving : ∀ x ∈ s.outstanding, x.parcel.IsAbout id s

/-- Only streams of an id changed, and what waits for them. -/
structure Session.Minds (id : UInt32) (s t : Session) : Prop where
  confined : s.Confined id t
  kept : t.outbox.parcels.filter (s.isBeside id) = s.besides id
  waiting : ∀ q ∈ t.outbox.parcels, q ∈ s.outbox.parcels ∨ q.IsAbout id s
  leaving : ∀ x ∈ t.outstanding, x ∈ s.outstanding ∨ x.parcel.IsAbout id s

section Waiting

variable {id : UInt32} {s t : Session} {q : Parcel}

theorem Parcel.IsAbout.later (h : q.IsAbout id s) (confined : s.Confined id t) : q.IsAbout id t := by
  cases q with
  | control => exact h
  | data r payload written => exact confined.has h

theorem Parcel.IsAbout.not_beside (h : q.IsAbout id s) : s.isBeside id q = false := by
  cases q with
  | control => rfl
  | data r payload written =>
    have hid : s.idOf r = id := h.2
    simp [Session.isBeside, Parcel.dataOf?, hid]

theorem isAbout_of_own {new : List Parcel} (own : Own new) (hq : q ∈ new) : q.IsAbout id s := by
  obtain ⟨hstream, hdata⟩ := own q hq
  cases q with
  | control => exact hstream
  | data => cases hdata

theorem Session.Confined.isBeside (confined : s.Confined id t)
    (known : ∀ r, q.dataOf? = some r → r.serial < s.streams.size) :
    t.isBeside id q = s.isBeside id q := by
  cases q with
  | control => rfl
  | data r payload written =>
    have hr := known r rfl
    show (t.idOf r != id && !(t.stream r).reset) = (s.idOf r != id && !(s.stream r).reset)
    rw [confined.idOf r hr]
    by_cases hid : s.idOf r = id
    · rw [hid, bne_self_eq_false, Bool.false_and, Bool.false_and]
    · rw [confined.stream r hr hid]

/-- Nothing becomes ready to leave that has to do with a stream of another id. -/
theorem Session.Confined.canSend (confined : s.Confined id t)
    (known : ∀ r, q.dataOf? = some r → r.serial < s.streams.size) (sends : t.canSend q) : s.canSend q ∨ q.IsAbout id s := by
  cases q with
  | control => exact .inl rfl
  | data r payload written =>
    have hr := known r rfl
    by_cases hid : s.idOf r = id
    · exact .inr ⟨hr, hid⟩
    · rw [Session.canSend, confined.stream r hr hid] at sends
      exact .inl sends

theorem dataOf?_known (known : s.Known) (hq : q ∈ s.outbox.parcels ∨ q.IsAbout id s) :
    ∀ r, q.dataOf? = some r → r.serial < s.streams.size := by
  intro r hr
  cases q with
  | control => cases hr
  | data r' payload written =>
    cases hr
    exact hq.elim (fun hq => known.waiting _ hq r rfl) And.left

namespace Session.Minds

theorem of_same (confined : s.Confined id t) (parcels : t.outbox.parcels = s.outbox.parcels)
    (outstanding : ∀ x ∈ t.outstanding, x ∈ s.outstanding) : s.Minds id t where
  confined := confined
  kept := by rw [parcels, besides]
  waiting := fun q hq => .inl (parcels ▸ hq)
  leaving := fun x hx => .inl (outstanding x hx)

theorem of_own {new : List Parcel} (confined : s.Confined id t) (own : Own new)
    (parcels : t.outbox.parcels = s.outbox.parcels ++ new) (outstanding : t.outstanding = s.outstanding) : s.Minds id t where
  confined := confined
  kept := by
    have hnew : new.filter (s.isBeside id) = [] :=
      List.filter_eq_nil_iff.2 fun q hq => by rw [(isAbout_of_own own hq).not_beside]; exact Bool.false_ne_true
    rw [parcels, List.filter_append, hnew, List.append_nil, besides]
  waiting := fun q hq => by
    rw [parcels] at hq
    exact (List.mem_append.1 hq).imp_right (isAbout_of_own own)
  leaving := fun x hx => .inl (outstanding ▸ hx)

theorem of_leaving {before after : List Parcel} (confined : s.Confined id t)
    (parcels : s.outbox.parcels = before ++ q :: after) (beside : s.isBeside id q = false)
    (left : t.outbox.parcels = before ++ after)
    (outstanding : ∀ x ∈ t.outstanding, x ∈ s.outstanding ∨ x.parcel.IsAbout id s) : s.Minds id t where
  confined := confined
  kept := by
    rw [besides, parcels, left, List.filter_append, List.filter_append, List.filter_cons, beside]
    rfl
  waiting := fun q hq => by
    rw [left] at hq
    rw [parcels]
    exact .inl ((List.mem_append.1 hq).elim (List.mem_append_left _) fun hq =>
      List.mem_append_right _ (List.mem_cons_of_mem _ hq))
  leaving := outstanding

theorem of_back {before after : List Parcel} (confined : s.Confined id t) (parcels : s.outbox.parcels = before ++ after)
    (about : q.IsAbout id s) (back : t.outbox.parcels = before ++ q :: after)
    (outstanding : ∀ x ∈ t.outstanding, x ∈ s.outstanding) : s.Minds id t where
  confined := confined
  kept := by
    rw [besides, parcels, back, List.filter_append, List.filter_append, List.filter_cons, about.not_beside]
    rfl
  waiting := fun x hx => by
    rw [back] at hx
    rw [parcels]
    rcases List.mem_append.1 hx with hx | hx
    · exact .inl (List.mem_append_left _ hx)
    · rcases List.mem_cons.1 hx with rfl | hx
      · exact .inr about
      · exact .inl (List.mem_append_right _ hx)
  leaving := fun x hx => .inl (outstanding x hx)

theorem besides_eq (h : s.Minds id t) (known : s.Known) : t.besides id = s.besides id := by
  rw [besides, ← h.kept]
  exact List.filter_congr fun q hq => h.confined.isBeside (dataOf?_known known (h.waiting q hq))

theorem devoted (h : s.Minds id t) (known : s.Known) (devoted : s.Devoted id) : t.Devoted id where
  waiting := fun q hq sends => by
    have hq := h.waiting q hq
    rcases h.confined.canSend (dataOf?_known known hq) sends with hsends | about
    · exact (hq.elim (fun hq => devoted.waiting q hq hsends) fun about => about).later h.confined
    · exact about.later h.confined
  leaving := fun x hx => ((h.leaving x hx).elim (devoted.leaving x) fun about => about).later h.confined

end Session.Minds

end Waiting

/-! ## One step -/

/-- While an operation is being done that has to do with the streams of an id, others are as they were in `b`: a write
is in progress and stays so, or nothing can leave that has to do with them. -/
structure Undisturbed (id : UInt32) (b : Session) (m : Machine) : Prop where
  confined : b.Confined id m.session
  besides : m.session.besides id = b.besides id
  about : ∀ x ∈ m.tasks, x.IsAbout id m.session
  phase : m.session.outbox.busy = true ∧ Without Task.frees m.tasks ∨ m.session.Devoted id

section Steps

variable {cap : Nat} {id : UInt32} {b s : Session} {m m' : Machine} {e : Event}

theorem Undisturbed.step (h : Undisturbed id b m) (known : m.session.Known) (minds : m.session.Minds id m'.session)
    (about : ∀ x ∈ m'.tasks, x ∈ m.tasks ∨ x.IsAbout id m'.session)
    (phase : m.session.outbox.busy = true → Without Task.frees m.tasks →
      m'.session.outbox.busy = true ∧ Without Task.frees m'.tasks) : Undisturbed id b m' where
  confined := h.confined.trans minds.confined
  besides := (minds.besides_eq known).trans h.besides
  about := fun x hx => (about x hx).elim (fun hx => (h.about x hx).later minds.confined) fun about => about
  phase := h.phase.imp (fun h => phase h.1 h.2) (minds.devoted known)

/-- What a task does to the outbox, unless it is a flush. -/
theorem minds_perform (enc : Encoder) {x : Task} (about : x.IsAbout id s) (notCall : x.isCall = false)
    (hflush : x ≠ .flush) :
    s.Minds id (s.perform enc x).session ∧
      (x.frees = false → s.outbox.busy = true →
        (s.perform enc x).session.outbox.busy = true ∧ Without Task.frees (s.perform enc x).todo) := by
  have hconfined := (Session.deals_perform enc about hflush).confined
  refine ⟨?_, s.perform_busy enc hflush notCall⟩
  by_cases hplain : x.isPlain
  · obtain ⟨new, own, posts⟩ := s.perform_posts enc hplain hflush notCall
    exact .of_own hconfined own (by rw [posts.adds.outbox]) posts.adds.outstanding
  · cases x with
    | endWrite seq => exact .of_same hconfined (Outbox.parcels_endWrite _ seq) fun _ hx => hx
    | release => exact .of_same hconfined (Outbox.parcels_complete _) fun _ hx => hx
    | call c => cases notCall
    | _ => exact absurd rfl hplain

/-- A flush takes nothing but what has to do with the streams of the id, and data of streams that were given up. -/
theorem minds_flush {p : Progress} (work : Flushed cap s p) (devoted : s.Devoted id) :
    s.Minds id p.session ∧ ∀ x ∈ p.todo, x.IsAbout id p.session := by
  cases work with
  | idle => exact ⟨.of_same (.refl id s) rfl fun _ hx => hx, nofun⟩
  | @drop before after r payload written _ parcels reset blocked =>
    refine ⟨.of_leaving (.of_streams rfl rfl) parcels ?_ rfl fun _ hx => .inl hx, fun x hx => ?_⟩
    · simp [Session.isBeside, Parcel.dataOf?, reset]
    · rw [List.mem_singleton.1 hx]
      trivial
  | @hand before after q left bytes _ parcels blocked framed =>
    have hmem : q ∈ s.outbox.parcels := parcels ▸ List.mem_append_right _ List.mem_cons_self
    have habout : q.IsAbout id s := by
      refine devoted.waiting q hmem ?_
      cases framed with
      | control => rfl
      | data r payload written alive window =>
        rw [Session.canSend, alive, decide_eq_true window]
        rfl
    have hleft : left.IsAbout id s := by
      cases framed with
      | control => exact habout
      | data => exact habout
    refine ⟨.of_leaving (.of_streams rfl rfl) parcels habout.not_beside rfl fun x hx => ?_, fun x hx => ?_⟩
    · rcases List.mem_append.1 hx with hx | hx
      · exact .inl hx
      · rw [List.mem_singleton.1 hx]
        exact .inr hleft
    · simp only [List.mem_cons, List.not_mem_nil, or_false] at hx
      rcases hx with rfl | rfl <;> trivial

/-- The report of a write is dealt with for the id of its parcel. -/
theorem minds_wrote {q : Parcel} (about : q.IsAbout id s) :
    s.Minds id (s.wrote q).session ∧ ∀ x ∈ (s.wrote q).todo, x.IsAbout id (s.wrote q).session := by
  cases q with
  | control type bytes r =>
    obtain rfl : r = none := about
    refine ⟨.of_same (.refl id s) rfl fun _ hx => hx, fun x hx => ?_⟩
    simp only [Session.wrote, Option.toList_none, List.map_nil, List.append_nil, List.mem_append, List.mem_singleton] at hx
    rcases hx with hx | rfl
    · split at hx
      · rw [List.mem_singleton.1 hx]
        trivial
      · cases hx
    · trivial
  | data r payload written =>
    cases hcredit : (s.stream r).credit (debit written) with
    | error e =>
      rw [Session.wrote, ← debit, hcredit]
      refine ⟨.of_same (.refl id s) rfl fun _ hx => hx, fun x hx => ?_⟩
      simp only [List.mem_cons, List.not_mem_nil, or_false] at hx
      rcases hx with rfl | rfl
      · exact about
      · trivial
    | ok y =>
      have hconfined : s.Confined id (s.update r fun _ => y) :=
        .update about.2 (by rw [(Stream.credit_eq_ok hcredit).1])
      rw [wrote_of_credit payload hcredit]
      split
      · have hclosed : s.Confined id
            (if payload.close then (s.update r fun _ => y).closeLocal r else s.update r fun _ => y) := by
          split
          · exact hconfined.trans (.update (hconfined.has about).2 rfl)
          · exact hconfined
        refine ⟨.of_same hclosed ?_ ?_, fun x hx => ?_⟩
        · dsimp only
          split <;> rfl
        · dsimp only
          split <;> exact fun _ hx => hx
        · simp only [List.mem_cons, List.not_mem_nil, or_false] at hx
          rcases hx with rfl | rfl
          · exact hclosed.has about
          · trivial
      · obtain ⟨before, after, hparcels, -, hput⟩ := Outbox.putBack_parcels (s.update r fun _ => y).outbox
          ((s.update r fun _ => y).idOf · == (s.update r fun _ => y).idOf r) (.data r payload written)
        refine ⟨.of_back (hconfined.trans (.of_streams rfl rfl)) hparcels about ?_ fun _ hx => hx, fun x hx => ?_⟩
        · exact congrArg Outbox.parcels hput
        · rw [List.mem_singleton.1 hx]
          trivial

theorem Session.Minds.of_dropHandler {t : Session} {seq : Nat} (h : (s.dropHandler seq).Minds id t) : s.Minds id t where
  confined := (show s.Confined id (s.dropHandler seq) from .of_streams rfl rfl).trans h.confined
  kept := h.kept
  waiting := h.waiting
  leaving := fun x hx => (h.leaving x hx).imp_left fun hx => (List.mem_filter.1 hx).1

theorem undisturbed_of_flush (h : Undisturbed id b m) (known : m.session.Known) {common : List Task}
    (before : m.tasks = .flush :: common)
    (session : m'.session = (m.session.flush (.standard cap)).session)
    (after : m'.tasks = (m.session.flush (.standard cap)).todo ++ common) : Undisturbed id b m' := by
  have hwork := flush_cases cap m.session
  generalize m.session.flush (.standard cap) = p at hwork session after
  have hcommon : ∀ x ∈ common, x ∈ m.tasks := fun x hx => before ▸ List.mem_cons_of_mem _ hx
  by_cases hbusy : m.session.outbox.busy = true
  · -- a write is in progress, so nothing is done
    cases hwork with
    | idle =>
      refine h.step known (session ▸ .of_same (.refl id _) rfl fun _ hx => hx) (fun x hx => .inl (hcommon x ?_))
        fun _ hfrees => ⟨session ▸ hbusy, fun x hx => hfrees x (hcommon x ?_)⟩
      · rwa [after] at hx
      · rwa [after] at hx
    | drop free => rw [hbusy] at free; cases free
    | hand free => rw [hbusy] at free; cases free
  · have hdevoted := h.phase.resolve_left fun hphase => hbusy hphase.1
    obtain ⟨hminds, habout⟩ := minds_flush hwork hdevoted
    rw [← session] at hminds habout
    refine h.step known hminds (fun x hx => ?_) fun hbusy' => absurd hbusy' hbusy
    rw [after] at hx
    exact (List.mem_append.1 hx).elim (fun hx => .inr (habout x hx)) fun hx => .inl (hcommon x hx)

theorem undisturbed_of_complete (h : Undisturbed id b m) (known : m.session.Known) {seq : Nat} {bytes : Bytes} {x : Handler}
    (writes : .call (.write bytes x) ∈ m.tasks) (possible : m.session.outstanding.any (·.seq == seq)) :
    Undisturbed id b (m.invoke (.standard cap) (.complete seq)).1 := by
  have hdevoted := h.phase.resolve_left fun hphase => nomatch hphase.2 _ writes
  obtain ⟨y, hy, -, hreport⟩ := Session.report_of_possible Session.wrote possible
  obtain ⟨hminds, habout⟩ := minds_wrote (s := m.session.dropHandler seq) (hdevoted.leaving y hy)
  rw [← hreport] at hminds habout
  refine h.step known hminds.of_dropHandler (fun z hz => ?_) fun _ hfrees => nomatch hfrees _ writes
  rw [Machine.tasks_invoke] at hz
  exact (List.mem_append.1 hz).elim (fun hz => .inr (habout z hz)) .inl

/-- A task that is done leaves other streams alone. -/
theorem undisturbed_of_tick (h : Undisturbed id b m) (known : m.session.Known) {x : Task} {rest : List Task}
    {outcome : Outcome} {below : List Activation} (stack : m.stack = ⟨x :: rest, outcome⟩ :: below)
    (notCall : x.isCall = false) :
    Undisturbed id b ⟨(m.session.perform (.standard cap) x).session,
      ⟨(m.session.perform (.standard cap) x).todo ++ rest, outcome⟩ :: below⟩ := by
  have htasks := Machine.tasks_of_stack stack
  dsimp only at htasks
  have hafter : ∀ (s : Session) todo, Machine.tasks ⟨s, ⟨todo ++ rest, outcome⟩ :: below⟩ =
      todo ++ (rest ++ below.flatMap Activation.todo) := fun s todo =>
    (Machine.tasks_of_stack rfl).trans (List.append_assoc ..)
  have hx : x ∈ m.tasks := htasks ▸ List.mem_cons_self
  have hrest : ∀ y ∈ rest ++ below.flatMap Activation.todo, y ∈ m.tasks := fun y hy =>
    htasks ▸ List.mem_cons_of_mem _ hy
  by_cases hflush : x = .flush
  · subst hflush
    exact undisturbed_of_flush h known htasks rfl (hafter _ _)
  · obtain ⟨hminds, hphase⟩ := minds_perform (.standard cap) (h.about x hx) notCall hflush
    have habout := (Session.deals_perform (.standard cap) (h.about x hx) hflush).about
    refine h.step known hminds (fun y hy => ?_) fun hbusy hfrees => ?_
    · rw [hafter] at hy
      exact (List.mem_append.1 hy).elim (fun hy => .inr (habout y hy)) fun hy => .inl (hrest y hy)
    · obtain ⟨hbusy', hfrees'⟩ := hphase (hfrees x hx) hbusy
      refine ⟨hbusy', ?_⟩
      rw [hafter, without_append]
      exact ⟨hfrees', fun y hy => hfrees y (hrest y hy)⟩

theorem undisturbed_of_answer (h : Undisturbed id b m) (known : m.session.Known) {c : Call} {rest : List Task}
    {outcome : Outcome} {below : List Activation} (stack : m.stack = ⟨.call c :: rest, outcome⟩ :: below)
    (reply : Option Listener) : Undisturbed id b ⟨Machine.accept m.session c reply, ⟨rest, outcome⟩ :: below⟩ := by
  have htasks := Machine.tasks_of_stack stack
  have hrest : ∀ y ∈ rest ++ below.flatMap Activation.todo, y ∈ m.tasks := fun y hy =>
    htasks ▸ List.mem_cons_of_mem _ hy
  have hcalm := Calm.accept m.session c reply
  have hconfined := Session.confined_accept (h.about (.call c) (htasks ▸ List.mem_cons_self)) reply
  have hminds : m.session.Minds id (Machine.accept m.session c reply) :=
    .of_same hconfined (by rw [hcalm.outbox]) (by rw [hcalm.outstanding]; exact fun _ hx => hx)
  refine h.step known hminds (fun y hy => .inl (hrest y ?_)) fun hbusy hfrees => ?_
  · rwa [Machine.tasks_of_stack rfl] at hy
  · rw [hcalm.outbox, Machine.tasks_of_stack rfl]
    exact ⟨hbusy, fun y hy => hfrees y (hrest y hy)⟩

/-- Tasks that are not done any more, and handlers that are given up, leave other streams alone. -/
theorem Undisturbed.of_less (h : Undisturbed id b m) (known : m.session.Known) (seq? : Option Nat)
    (session : m'.session = seq?.elim m.session m.session.dropHandler) (tasks : ∀ x ∈ m'.tasks, x ∈ m.tasks) :
    Undisturbed id b m' := by
  have hminds : m.session.Minds id m'.session := by
    rw [session]
    cases seq? with
    | none => exact .of_same (.refl id _) rfl fun _ hx => hx
    | some seq => exact .of_same (.of_streams rfl rfl) rfl fun _ hx => List.mem_of_mem_filter hx
  refine h.step known hminds (fun x hx => .inl (tasks x hx)) fun hbusy hfrees => ⟨?_, fun x hx => hfrees x (tasks x hx)⟩
  rw [session]
  cases seq? <;> exact hbusy

/-- While nothing else begins, what is done about a stream leaves others alone. -/
theorem undisturbed_of_next? (h : Undisturbed id b m) (known : m.session.Known)
    (hnext : m.next? (.standard cap) e = some m') (within : Moment.isWithin ⟨m, e, m'⟩) : Undisturbed id b m' := by
  have same : ∀ {l : List Activation}, (∀ x ∈ Machine.tasks ⟨m.session, l⟩, x ∈ m.tasks) →
      Undisturbed id b ⟨m.session, l⟩ := h.of_less known none rfl
  cases Machine.happens_of_next? hnext with
  | invoke op yields possible =>
    cases op with
    | complete seq =>
      obtain ⟨bytes, x, hwrites⟩ := Moment.awaits_of_isWithin within
      obtain ⟨rest, outcome, below, stack⟩ := Machine.stack_of_awaited? hwrites
      have hmem : .call (.write bytes x) ∈ m.tasks := by
        rw [Machine.tasks_of_stack stack]
        exact List.mem_cons_self
      exact undisturbed_of_complete h known hmem possible
    | _ => cases (Bool.and_eq_true_iff.1 within).2
  | tick stack notCall => exact undisturbed_of_tick h known stack notCall
  | answer reply stack => exact undisturbed_of_answer h known stack reply
  | caught p stack tell => exact undisturbed_of_answer h known stack none
  | @broken p c rest outcome below stack notTell =>
    refine same fun x hx => ?_
    rw [Machine.tasks_of_stack stack]
    exact List.mem_append_right _ hx
  | leave stack =>
    refine same fun x hx => ?_
    rw [Machine.tasks_of_stack stack]
    exact hx
  | edit e yields => cases (Bool.and_eq_true_iff.1 within).2
  | drop seq yields => exact h.of_less known (some seq) rfl fun x hx => hx

end Steps

/-! ## What is received about a stream -/

section Received

variable {cap : Nat} {config : Config} {primary : Option Listener} {s : Session} {past later : List Moment}
  {m n last : Machine} {id : UInt32} {got : Received}

/-- Between operations, what is received about a stream is taken up without disturbing others. -/
theorem undisturbed_of_receive (hnew : Session.new config primary = .ok s)
    (run : Run (.standard cap) { session := s } past m) (unbroken : ∀ mo ∈ past, mo.isBreak = false) (hstack : m.stack = [])
    (about : got.streamId? = some id) (next : m.next? (.standard cap) (.invoke (.receive got)) = some n) :
    Undisturbed id m.session n := by
  have known := known_of_run hnew run
  have hdeals := Session.deals_receive (.standard cap) (tidy_of_run hnew run) about
  obtain ⟨new, own, work⟩ := m.session.receive_work (.standard cap) got
  have hadds := work.adds
  have hminds : m.session.Minds id (m.session.receive (.standard cap) got).session :=
    .of_own hdeals.confined own (by rw [hadds.outbox]) hadds.outstanding
  cases Machine.happens_of_next? next with
  | invoke op yields possible =>
    have htasks : Machine.tasks ⟨(m.session.receive (.standard cap) got).session,
        ⟨(m.session.receive (.standard cap) got).todo, .done⟩ :: m.stack⟩ =
          (m.session.receive (.standard cap) got).todo := by
      rw [Machine.tasks_of_stack rfl, hstack]
      exact List.append_nil _
    refine ⟨hdeals.confined, hminds.besides_eq known, fun x hx => hdeals.about x (htasks ▸ hx), ?_⟩
    rcases (wakeful_of_run hnew run unbroken).idle (owed_le_of_new hnew run) hstack with
      hbusy | ⟨settled, blocked⟩
    · refine .inl ⟨?_, fun x hx => Task.frees_of_isPlain (hadds.plain x (htasks ▸ hx))⟩
      exact (congrArg Outbox.busy hadds.outbox).trans hbusy
    · refine .inr (hminds.devoted known ⟨fun q hq sends => ?_, fun x hx => ?_⟩)
      · rw [blocked q hq] at sends
        cases sends
      · rw [settled] at hx
        cases hx

/-- What waits for one stream is among what waits besides another id. -/
theorem Session.filter_besides {s : Session} {r : StreamRef} (hid : s.idOf r ≠ id) (unreset : (s.stream r).reset = false) :
    (s.besides id).filter (·.dataOf? == some r) = s.outbox.parcels.filter (·.dataOf? == some r) := by
  rw [besides, List.filter_filter]
  refine List.filter_congr fun q _ => ?_
  by_cases hq : q.dataOf? = some r
  · have hbeside : s.isBeside id q = true := by simp [isBeside, hq, hid, unreset]
    rw [hbeside, Bool.and_true]
  · rw [beq_eq_false_iff_ne.2 hq, Bool.false_and]

/-- What is received about one stream between operations, a frame that is valid or not or a broken rule, changes no
stream with another id while it is dealt with, as long as nothing else begins: it stays in the table or out of it, its
window and its flags stay as they are, and so does what waits for it, in the same order, if it was not given up. The
past may be any in which the controller never broke off. -/
theorem streams_are_isolated (hnew : Session.new config primary = .ok s)
    (run : Run (.standard cap) { session := s } past m) (unbroken : ∀ mo ∈ past, mo.isBreak = false) (hstack : m.stack = [])
    (about : got.streamId? = some id) (next : m.next? (.standard cap) (.invoke (.receive got)) = some n) :
    n.Settles cap ∧ ∀ later last, Run (.standard cap) n later last → (∀ x ∈ later, x.isWithin) →
      (∀ r, r.serial < m.session.streams.size → m.session.idOf r ≠ id →
        last.session.stream r = m.session.stream r ∧ (r ∈ last.session.table ↔ r ∈ m.session.table) ∧
          ((m.session.stream r).reset = false → last.session.outbox.parcels.filter (·.dataOf? == some r) =
            m.session.outbox.parcels.filter (·.dataOf? == some r))) ∧
      last.session.besides id = m.session.besides id := by
  have hrun := run.next next
  refine ⟨settles_of_run hrun, fun later last more within => ?_⟩
  have hundisturbed : Undisturbed id m.session last := by
    induction more with
    | start => exact undisturbed_of_receive hnew run unbroken hstack about next
    | next more h ih =>
      exact undisturbed_of_next? (ih fun x hx => within x (List.mem_append_left _ hx))
        (known_of_run hnew (hrun.append more)) h (within _ (List.mem_append_right _ List.mem_cons_self))
  refine ⟨fun r hr hid => ?_, hundisturbed.besides⟩
  have hstream := hundisturbed.confined.stream r hr hid
  refine ⟨hstream, hundisturbed.confined.table r hr hid, fun unreset => ?_⟩
  have hid' : last.session.idOf r ≠ id := by rwa [hundisturbed.confined.idOf r hr]
  rw [← Session.filter_besides hid unreset, ← hundisturbed.besides, Session.filter_besides hid' (hstream ▸ unreset)]

end Received

/-- Data arrives for a stream that is not there while a byte waits for another one whose window is used up. The peer is
told, and the controller reports the write at once. -/
theorem streams_are_isolated_from_strays : ∃ s past m n later last,
    Session.new { Config.client with initialWindow := 2 } none = .ok s ∧ Run (.standard 16384) { session := s } past m ∧
      (∀ mo ∈ past, mo.isBreak = false) ∧ m.stack = [] ∧ m.session.table.map m.session.idOf = [1] ∧
      m.next? (.standard 16384) (.invoke (.receive (.data ⟨5, 0, 1, [9]⟩))) = some n ∧ Run (.standard 16384) n later last ∧
      (∀ x ∈ later, x.isWithin) ∧ last.stack = [] ∧
      (later.filterMap Moment.handed?).map (·.1) = [[128, 2, 0, 3, 0, 0, 0, 8, 0, 0, 0, 5, 0, 0, 0, 2]] ∧
      last.session.stream ⟨0⟩ = m.session.stream ⟨0⟩ ∧ (⟨0⟩ ∈ last.session.table ↔ ⟨0⟩ ∈ m.session.table) ∧
      last.session.besides 5 = m.session.besides 5 ∧ m.session.besides 5 = [.data ⟨0⟩ ⟨[7], false⟩ 2] := by
  have hnew : Session.new { Config.client with initialWindow := 2 } none =
      .ok (.fresh { Config.client with initialWindow := 2 } none) := rfl
  have hrun := Machine.run_of_replay? (.standard 16384)
    { session := .fresh { Config.client with initialWindow := 2 } none }
    [.invoke (.syn .v3 (.plain default false) none), .tick, .tick, .answer none, .tick, .leave,
      .invoke (.complete 1), .tick, .tick, .tick, .leave, .invoke (.data ⟨0⟩ ⟨[5, 6, 7], false⟩), .tick, .answer none, .tick,
      .leave, .invoke (.complete 2), .tick, .tick, .leave] rfl
  have hrun' := hrun.next (show Machine.next? (.standard 16384) _ (.invoke (.receive (.data ⟨5, 0, 1, [9]⟩))) = some _ from rfl)
  have hmore := hrun'.continue_of_replay?
    [.tick, .invoke (.complete 3), .tick, .leave, .answer none, .tick, .tick, .leave] rfl
  obtain ⟨-, h⟩ := streams_are_isolated hnew hrun (by decide) rfl
    (show Received.streamId? (.data ⟨5, 0, 1, [9]⟩) = some _ from rfl) rfl
  obtain ⟨hothers, hbesides⟩ := h _ _ hmore (by decide)
  obtain ⟨hstream, htable, -⟩ := hothers ⟨0⟩ (by decide) (by decide)
  exact ⟨_, _, _, _, _, _, hnew, hrun, by decide, rfl, rfl, rfl, hmore, by decide, rfl, by decide, hstream, htable,
    hbesides, rfl⟩

/-- Where the controller has broken off, data of another stream waits that could be sent, and WINDOW_UPDATE for the
first one sends it. -/
theorem disturbed_after_break : ∃ s past m n later last, Session.new .client none = .ok s ∧
    Run (.standard 16384) { session := s } past m ∧
      (∀ mo ∈ past, mo.reenters = false ∧ mo.isFailure = false ∧ mo.isDrop = false) ∧ m.stack = [] ∧
      m.next? (.standard 16384) (.invoke (.receive (.control ⟨.v3, .windowUpdate 1 5⟩))) = some n ∧
      Run (.standard 16384) n later last ∧ (∀ x ∈ later, x.isWithin ∧ x.isOrderly) ∧ last.stack = [] ∧
      m.session.idOf ⟨1⟩ = 3 ∧ (m.session.stream ⟨1⟩).reset = false ∧
      m.session.outbox.parcels = [.data ⟨1⟩ ⟨[7], false⟩ 0] ∧ last.session.outbox.parcels = [] ∧
      (m.session.stream ⟨1⟩).window = 65536 ∧ (last.session.stream ⟨1⟩).window = 65535 := by
  have hrun := Machine.run_of_replay? (.standard 16384) { session := .fresh .client none }
    [.invoke (.syn .v3 (.plain default false) none), .tick, .tick, .answer none, .tick, .leave,
      .invoke (.complete 1), .tick, .tick, .tick, .leave,
      .invoke (.syn .v3 (.plain default false) none), .tick, .tick, .answer none, .tick, .leave,
      .invoke (.complete 2), .tick, .tick, .tick, .leave, .invoke (.ping .v3), .tick, .panic (.raised none), .leave,
      .invoke (.data ⟨1⟩ ⟨[7], false⟩), .tick, .leave, .invoke (.complete 3), .tick, .leave] rfl
  have hrun' := hrun.next (show Machine.next? (.standard 16384) _
    (.invoke (.receive (.control ⟨.v3, .windowUpdate 1 5⟩))) = some _ from rfl)
  have hmore := hrun'.continue_of_replay?
    [.tick, .invoke (.complete 4), .tick, .tick, .leave, .answer none, .tick, .tick, .leave] rfl
  exact ⟨_, _, _, _, _, _, rfl, hrun, by decide, rfl, rfl, hmore, by decide, rfl, rfl, rfl, rfl, rfl, rfl, rfl⟩

end Spdy
