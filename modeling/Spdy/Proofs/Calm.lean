import Spdy.Proofs.Run

/-!
# Work that leaves the outbox alone

Most of what a session does has nothing to do with writing: streams come, close and go, counters move.

* `stream_update`, `rel_stream_update`, `stream_register_nextRef` : streams after a change; `size_*` : how many there are;
* `Session.post` : several parcels are appended to the outbox;
* `Removed`, `Session.remove_cases` : what becomes of the table where a stream goes;
* `Session.Tidy` : the open streams have different ids;
* `Stream.Later` : a stream that has at most closed, been reset or had its window moved;
* `Steady s t` : from `s` to `t` nothing happened to the outbox and to the writes in progress;
* `Calm s t` : nor to the windows; `refl`, `trans`, and a lemma for each kind of change.
-/

namespace Spdy

/-! ## Streams after a change -/

namespace Session

/-- A session at its beginning, without streams and with nothing to send. -/
def fresh (config : Config) (primary : Option Listener) : Session :=
  { config, primary, nextStreamId := config.initialStreamId, nextPingId := config.initialStreamId,
    initialWindow := config.initialWindow }

theorem new_eq_ok {config : Config} {primary : Option Listener} {s : Session}
    (h : Session.new config primary = .ok s) :
    config.fault? = none ∧ s = fresh config primary := by
  unfold Session.new at h
  split at h
  · cases h
  · rename_i hfault
    exact ⟨hfault, (Except.ok.inj h).symm⟩

theorem stream_eq (s : Session) (r : StreamRef) : s.stream r = (s.streams[r.serial]?).getD default := by
  simp [stream]

theorem stream_of_size_le {s : Session} {r : StreamRef} (h : s.streams.size ≤ r.serial) :
    s.stream r = default := by
  rw [stream_eq, Array.getElem?_eq_none h, Option.getD_none]

theorem stream_nextRef (s : Session) : s.stream s.nextRef = default :=
  stream_of_size_le (Nat.le_refl _)

@[simp] theorem size_update (s : Session) (r : StreamRef) (f : Stream → Stream) :
    (s.update r f).streams.size = s.streams.size := by
  simp [update]

theorem stream_update (s : Session) (r q : StreamRef) (f : Stream → Stream) :
    (s.update r f).stream q =
      if q = r ∧ r.serial < s.streams.size then f (s.stream r) else s.stream q := by
  have hq : q = r ↔ r.serial = q.serial := by
    cases q; cases r; simp [eq_comm]
  rw [stream_eq, update, Array.getElem?_modify]
  by_cases h : r.serial = q.serial
  · rw [if_pos h, hq.2 h]
    by_cases hlt : r.serial < s.streams.size
    · rw [if_pos ⟨rfl, hlt⟩, stream_eq, Array.getElem?_eq_getElem hlt]
      rfl
    · rw [if_neg (fun hc => hlt hc.2), stream_eq, Array.getElem?_eq_none (by omega)]
      rfl
  · rw [if_neg h, if_neg (fun hc => h (hq.1 hc.1)), stream_eq]

theorem stream_update_self {s : Session} {r : StreamRef} (f : Stream → Stream)
    (h : r.serial < s.streams.size) : (s.update r f).stream r = f (s.stream r) := by
  rw [stream_update, if_pos ⟨rfl, h⟩]

theorem stream_update_of_ne {s : Session} {r q : StreamRef} (f : Stream → Stream) (h : q ≠ r) :
    (s.update r f).stream q = s.stream q := by
  rw [stream_update, if_neg (fun hc => h hc.1)]

/-- A stream that changes is related to what it was, and so are all others. -/
theorem rel_stream_update {R : Stream → Stream → Prop} (s : Session) (r : StreamRef) {f : Stream → Stream}
    (hR : ∀ x, R x x) (hf : R (s.stream r) (f (s.stream r))) (q : StreamRef) :
    R (s.stream q) ((s.update r f).stream q) := by
  rw [stream_update]
  split
  · next h => rw [h.1]; exact hf
  · exact hR _

/-- What a change of one stream leaves as it was is as it was in all streams. -/
theorem map_stream_update {α : Type} (g : Stream → α) (s : Session) (r q : StreamRef) {f : Stream → Stream}
    (hf : g (f (s.stream r)) = g (s.stream r)) : g ((s.update r f).stream q) = g (s.stream q) :=
  s.rel_stream_update (R := fun x y => g y = g x) r (fun _ => rfl) hf q

/-- What holds of all streams, and of one that changes, holds of all afterwards. -/
theorem forall_stream_update {P : Stream → Prop} {s : Session} {r : StreamRef} {f : Stream → Stream}
    (h : ∀ q, P (s.stream q)) (hf : P (f (s.stream r))) (q : StreamRef) : P ((s.update r f).stream q) := by
  rw [stream_update]
  split
  · exact hf
  · exact h q

theorem idOf_update (s : Session) (r : StreamRef) {f : Stream → Stream} (hf : (f (s.stream r)).id = (s.stream r).id) :
    (s.update r f).idOf = s.idOf := funext fun q => s.map_stream_update (·.id) r q hf

@[simp] theorem size_register (s : Session) (x : Stream) :
    (s.register x).streams.size = s.streams.size + 1 := by
  simp [register]

theorem stream_register_nextRef (s : Session) (x : Stream) : (s.register x).stream s.nextRef = x := by
  rw [stream_eq]
  simp [register, nextRef]

theorem stream_register_of_lt {s : Session} (x : Stream) {r : StreamRef}
    (h : r.serial < s.streams.size) : (s.register x).stream r = s.stream r := by
  rw [stream_eq, stream_eq]
  simp [register, Array.getElem?_push, Nat.ne_of_lt h]

theorem table_register (s : Session) (x : Stream) :
    (s.register x).table = s.table.filter (s.idOf · != x.id) ++ [s.nextRef] := rfl

theorem mem_table_register {s : Session} {x : Stream} {r : StreamRef} :
    r ∈ (s.register x).table ↔ r ∈ s.table ∧ s.idOf r ≠ x.id ∨ r = s.nextRef := by
  rw [table_register, List.mem_append, List.mem_filter, List.mem_singleton, bne_iff_ne]

@[simp] theorem size_enqueue (s : Session) (p : Parcel) :
    (s.enqueue p).streams.size = s.streams.size := rfl

@[simp] theorem stream_enqueue (s : Session) (p : Parcel) (r : StreamRef) :
    (s.enqueue p).stream r = s.stream r := rfl

def post (s : Session) (new : List Parcel) : Session :=
  { s with outbox := { s.outbox with parcels := s.outbox.parcels ++ new } }

@[simp] theorem post_nil (s : Session) : s.post [] = s := by
  simp [post]

theorem post_singleton (s : Session) (p : Parcel) : s.post [p] = s.enqueue p := rfl

@[simp] theorem stream_post (s : Session) (new : List Parcel) (r : StreamRef) :
    (s.post new).stream r = s.stream r := rfl

theorem countDone_cases (s : Session) (r : StreamRef) : ∃ n, s.countDone r = { s with lastStreamId := n } := by
  unfold countDone
  dsimp only
  split
  · exact ⟨_, rfl⟩
  · exact ⟨s.lastStreamId, rfl⟩

end Session

/-- What taking a stream out of the table comes to: its id goes if it is there, and may count as done. -/
inductive Removed (s : Session) (r : StreamRef) : Progress → Prop
  | gone {n : UInt32} (found : (s.find? (s.idOf r)).isSome) :
      Removed s r
        { session := { s.forget (s.idOf r) with lastStreamId := n }
          todo := [.tell s.streamListeners (.closed r)] }
  | absent (absent : s.find? (s.idOf r) = none) : Removed s r { session := s }

theorem Session.remove_cases (s : Session) (r : StreamRef) : Removed s r (s.remove r) := by
  unfold remove
  split
  · next found =>
    obtain ⟨n, hn⟩ := (s.forget (s.idOf r)).countDone_cases r
    rw [hn]
    exact .gone found
  · next absent => exact .absent (Option.not_isSome_iff_eq_none.1 absent)

/-! ## Streams later on -/

/-- A stream later on: it may have closed, been reset or had its window moved. -/
structure Stream.Later (x y : Stream) : Prop where
  id : y.id = x.id
  version : y.version = x.version
  localClosed : x.localClosed → y.localClosed
  remoteClosed : x.remoteClosed → y.remoteClosed
  reset : x.reset → y.reset

theorem Stream.Later.refl (x : Stream) : x.Later x := ⟨rfl, rfl, fun h => h, fun h => h, fun h => h⟩

theorem Stream.Later.trans {x y z : Stream} (h : x.Later y) (h' : y.Later z) : x.Later z where
  id := h'.id.trans h.id
  version := h'.version.trans h.version
  localClosed := fun hx => h'.localClosed (h.localClosed hx)
  remoteClosed := fun hx => h'.remoteClosed (h.remoteClosed hx)
  reset := fun hx => h'.reset (h.reset hx)

/-- The open streams are streams of the session and have different ids. -/
structure Session.Tidy (s : Session) : Prop where
  known : ∀ r ∈ s.table, r.serial < s.streams.size
  nodup : (s.table.map s.idOf).Nodup

/-! ## Steady work -/

/-- A session later on, if nothing was written and nothing was posted. -/
structure Steady (s t : Session) : Prop where
  config : t.config = s.config
  outbox : t.outbox = s.outbox
  outstanding : t.outstanding = s.outstanding
  size : s.streams.size ≤ t.streams.size
  later : ∀ r, r.serial < s.streams.size → (s.stream r).Later (t.stream r)
  table : ∀ r ∈ t.table, r ∈ s.table ∨ s.streams.size ≤ r.serial
  remote : ∀ r, r.serial < s.streams.size → r ∉ s.table → (t.stream r).remoteClosed →
    (s.stream r).remoteClosed
  tidy : s.Tidy → t.Tidy
  goAwaySent : s.goAwaySent → t.goAwaySent

namespace Steady

variable {s t u : Session}

theorem refl (s : Session) : Steady s s where
  config := rfl
  outbox := rfl
  outstanding := rfl
  size := Nat.le_refl _
  later := fun _ _ => .refl _
  table := fun _ h => .inl h
  remote := fun _ _ _ h => h
  tidy := id
  goAwaySent := id

theorem trans (h : Steady s t) (h' : Steady t u) : Steady s u where
  config := h'.config.trans h.config
  outbox := h'.outbox.trans h.outbox
  outstanding := h'.outstanding.trans h.outstanding
  size := Nat.le_trans h.size h'.size
  later := fun r hr => (h.later r hr).trans (h'.later r (Nat.lt_of_lt_of_le hr h.size))
  table := by
    intro r hr
    rcases h'.table r hr with ht | ht
    · exact h.table r ht
    · exact .inr (Nat.le_trans h.size ht)
  remote := fun r hr hs hu => h.remote r hr hs <| h'.remote r (Nat.lt_of_lt_of_le hr h.size)
    (fun ht => (h.table r ht).elim hs (Nat.not_le.2 hr)) hu
  tidy := fun hs => h'.tidy (h.tidy hs)
  goAwaySent := fun hs => h'.goAwaySent (h.goAwaySent hs)

theorem update (s : Session) (r : StreamRef) (f : Stream → Stream)
    (hf : (s.stream r).Later (f (s.stream r)))
    (hopen : r ∉ s.table → (f (s.stream r)).remoteClosed → (s.stream r).remoteClosed) :
    Steady s (s.update r f) := by
  have hlater : ∀ q, (s.stream q).Later ((s.update r f).stream q) := s.rel_stream_update r (fun _ => .refl _) hf
  have hid : (s.update r f).idOf = s.idOf := funext fun q => (hlater q).id
  exact
    { config := rfl
      outbox := rfl
      outstanding := rfl
      size := by simp
      later := fun q _ => hlater q
      table := fun _ h => .inl h
      remote := by
        intro q _ hq hclosed
        rw [Session.stream_update] at hclosed
        split at hclosed
        · rename_i heq
          rw [heq.1] at hq ⊢
          exact hopen hq hclosed
        · exact hclosed
      tidy := fun h =>
        ⟨fun q hq => by rw [Session.size_update]; exact h.known q hq, by rw [hid]; exact h.nodup⟩
      goAwaySent := id }

theorem forget (s : Session) (id : UInt32) : Steady s (s.forget id) where
  config := rfl
  outbox := rfl
  outstanding := rfl
  size := Nat.le_refl _
  later := fun _ _ => .refl _
  table := fun _ h => .inl (List.mem_filter.1 h).1
  remote := fun _ _ _ h => h
  tidy := fun h =>
    ⟨fun r hr => h.known r (List.mem_filter.1 hr).1, h.nodup.sublist (List.filter_sublist.map _)⟩
  goAwaySent := fun h => h

theorem register (s : Session) (x : Stream) : Steady s (s.register x) where
  config := rfl
  outbox := rfl
  outstanding := rfl
  size := by simp
  later := by
    intro r hr
    rw [Session.stream_register_of_lt x hr]
    exact .refl _
  table := by
    intro r hr
    rcases Session.mem_table_register.1 hr with ⟨hr, -⟩ | rfl
    · exact .inl hr
    · exact .inr (Nat.le_refl _)
  remote := by
    intro r hr _ hclosed
    rw [Session.stream_register_of_lt x hr] at hclosed
    exact hclosed
  tidy := by
    intro h
    have hid : ∀ r ∈ s.table, (s.register x).idOf r = s.idOf r := fun r hr =>
      congrArg Stream.id (Session.stream_register_of_lt x (h.known r hr))
    refine ⟨fun r hr => ?_, ?_⟩
    · rw [Session.size_register]
      rcases Session.mem_table_register.1 hr with ⟨hr, -⟩ | rfl
      · exact Nat.lt_succ_of_lt (h.known r hr)
      · exact Nat.lt_succ_self _
    · rw [Session.table_register, List.map_append, List.nodup_append]
      refine ⟨?_, by simp, ?_⟩
      · rw [List.map_congr_left fun r hr => hid r (List.mem_filter.1 hr).1]
        exact h.nodup.sublist (List.filter_sublist.map _)
      · intro id hold id' hnew
        obtain ⟨r, hr, rfl⟩ := List.mem_map.1 hold
        obtain ⟨hr, hne⟩ := List.mem_filter.1 hr
        rw [List.map_singleton, List.mem_singleton, Session.idOf, Session.stream_register_nextRef]
          at hnew
        rw [hid r hr, hnew]
        simpa using hne
  goAwaySent := id

theorem of_same (hconfig : t.config = s.config) (houtbox : t.outbox = s.outbox)
    (houtstanding : t.outstanding = s.outstanding) (hstreams : t.streams = s.streams)
    (htable : t.table = s.table) (hsent : s.goAwaySent → t.goAwaySent) : Steady s t := by
  have hstream : ∀ r, t.stream r = s.stream r := fun r => by
    rw [Session.stream, Session.stream, hstreams]
  have hid : t.idOf = s.idOf := funext fun r => congrArg Stream.id (hstream r)
  exact
    { config := hconfig
      outbox := houtbox
      outstanding := houtstanding
      size := Nat.le_of_eq (by rw [hstreams])
      later := fun r _ => by rw [hstream]; exact .refl _
      table := fun _ h => .inl (htable ▸ h)
      remote := fun r _ _ h => hstream r ▸ h
      tidy := fun h => ⟨by rw [hstreams, htable]; exact h.known, by rw [hid, htable]; exact h.nodup⟩
      goAwaySent := hsent }

end Steady

/-! ## Calm work -/

/-- A session later on, if nothing was written, nothing was posted and no window was moved. -/
structure Calm (s t : Session) : Prop extends Steady s t where
  initialWindow : t.initialWindow = s.initialWindow
  window : ∀ r, r.serial < s.streams.size → (t.stream r).window = (s.stream r).window
  fresh : ∀ r, s.streams.size ≤ r.serial → r.serial < t.streams.size →
    (t.stream r).window = s.initialWindow

namespace Calm

variable {s t u : Session}

theorem refl (s : Session) : Calm s s where
  toSteady := .refl s
  initialWindow := rfl
  window := fun _ _ => rfl
  fresh := fun _ h h' => absurd h (Nat.not_le.2 h')

theorem trans (h : Calm s t) (h' : Calm t u) : Calm s u where
  toSteady := h.toSteady.trans h'.toSteady
  initialWindow := h'.initialWindow.trans h.initialWindow
  window := fun r hr => (h'.window r (Nat.lt_of_lt_of_le hr h.size)).trans (h.window r hr)
  fresh := by
    intro r hr hu
    by_cases ht : r.serial < t.streams.size
    · rw [h'.window r ht, h.fresh r hr ht]
    · rw [h'.fresh r (Nat.le_of_not_lt ht) hu, h.initialWindow]

theorem update (s : Session) (r : StreamRef) (f : Stream → Stream)
    (hf : (s.stream r).Later (f (s.stream r)))
    (hopen : r ∉ s.table → (f (s.stream r)).remoteClosed → (s.stream r).remoteClosed)
    (hw : (f (s.stream r)).window = (s.stream r).window) : Calm s (s.update r f) where
  toSteady := .update s r f hf hopen
  initialWindow := rfl
  window := fun q _ => s.map_stream_update (·.window) r q hw
  fresh := by
    intro q hq hlt
    rw [Session.size_update] at hlt
    omega

theorem closeLocal (s : Session) (r : StreamRef) : Calm s (s.closeLocal r) :=
  update s r _ ⟨rfl, rfl, fun _ => rfl, id, id⟩ (fun _ => id) rfl

theorem closeRemote {s : Session} {r : StreamRef} (hr : r ∈ s.table) : Calm s (s.closeRemote r) :=
  update s r _ ⟨rfl, rfl, id, fun _ => rfl, id⟩ (absurd hr) rfl

theorem markReset (s : Session) (r : StreamRef) : Calm s (s.markReset r) :=
  update s r _ ⟨rfl, rfl, id, id, fun _ => rfl⟩ (fun _ => id) rfl

theorem forget (s : Session) (id : UInt32) : Calm s (s.forget id) where
  toSteady := .forget s id
  initialWindow := rfl
  window := fun _ _ => rfl
  fresh := fun _ h h' => absurd h (Nat.not_le.2 h')

theorem register (s : Session) (x : Stream) (hx : x.window = s.initialWindow) :
    Calm s (s.register x) where
  toSteady := .register s x
  initialWindow := rfl
  window := fun r hr => by rw [Session.stream_register_of_lt x hr]
  fresh := by
    intro r hr hlt
    rw [Session.size_register] at hlt
    have : r = s.nextRef := by
      cases r
      simp only [Session.nextRef, StreamRef.mk.injEq]
      simp only at hr hlt
      omega
    rw [this, Session.stream_register_nextRef, hx]

theorem of_same (hconfig : t.config = s.config) (houtbox : t.outbox = s.outbox)
    (houtstanding : t.outstanding = s.outstanding) (hstreams : t.streams = s.streams)
    (htable : t.table = s.table) (hsent : s.goAwaySent → t.goAwaySent)
    (hwindow : t.initialWindow = s.initialWindow) : Calm s t where
  toSteady := .of_same hconfig houtbox houtstanding hstreams htable hsent
  initialWindow := hwindow
  window := fun r _ => by rw [Session.stream, Session.stream, hstreams]
  fresh := by
    intro r hr hlt
    rw [hstreams] at hlt
    omega

theorem countDone (s : Session) (r : StreamRef) : Calm s (s.countDone r) := by
  unfold Session.countDone
  dsimp only
  split
  · exact of_same rfl rfl rfl rfl rfl id rfl
  · exact refl s

theorem remove (s : Session) (r : StreamRef) : Calm s (s.remove r).session := by
  unfold Session.remove
  split
  · exact (forget s _).trans (countDone _ r)
  · exact refl s

theorem accept (s : Session) (c : Call) (reply : Option Listener) :
    Calm s (Machine.accept s c reply) := by
  unfold Machine.accept
  split
  · exact update s _ _ ⟨rfl, rfl, id, id, id⟩ (fun _ => id) rfl
  · exact refl s

theorem edit (s : Session) (e : Edit) : Calm s (e.apply s) := by
  cases e <;> exact of_same rfl rfl rfl rfl rfl id rfl

end Calm

end Spdy
