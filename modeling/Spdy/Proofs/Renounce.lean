import Spdy.Proofs.Refusals
import Spdy.Proofs.Resize

/-!
# Streams that are given up one after another

* `Session.ranTo`, `Session.renounce` : what becomes of a session when some of its streams are given up;
* `Session.renounce_perm` : the order in which they are given up does not matter;
* `Session.update_renounce`, `Session.remove_renounce` : nor does it matter when other streams change or go;
* `Session.Tells`, `Session.reset_renounce` : how the next stream is given up.
-/

namespace Spdy

namespace Session

/-! ## Several streams -/

/-- The highest id among the peer's streams that ran to their end, once another stream is through. -/
def ranTo (s : Session) (n : UInt32) (r : StreamRef) : UInt32 :=
  if (s.stream r).isClosed && s.isRemote (s.idOf r) then max n (s.idOf r) else n

def renounce (s : Session) (gone : List StreamRef) : Session :=
  { s with
    streams := gone.foldl (fun a r => a.modify r.serial fun t => { t with reset := true }) s.streams
    table := s.table.filter fun q => gone.all fun r => s.idOf q != s.idOf r
    lastStreamId := gone.foldl s.ranTo s.lastStreamId }

variable {s : Session} {gone gone' : List StreamRef} {q r : StreamRef}

@[simp] theorem renounce_nil (s : Session) : s.renounce [] = s := by
  simp [renounce]

theorem streams_renounce (s : Session) (gone : List StreamRef) :
    (s.renounce gone).streams = (gone.foldl markReset s).streams := by
  induction gone generalizing s with
  | nil => rfl
  | cons r gone ih => exact ih (s.markReset r)

theorem size_renounce (s : Session) (gone : List StreamRef) : (s.renounce gone).streams.size = s.streams.size := by
  rw [streams_renounce]
  induction gone generalizing s with
  | nil => rfl
  | cons r gone ih =>
    rw [List.foldl_cons, ih, markReset, size_update]

/-- The streams that are given up are reset, the others stay as they are. -/
theorem stream_renounce (known : ∀ r ∈ gone, r.serial < s.streams.size) (q : StreamRef) :
    (s.renounce gone).stream q = if q ∈ gone then { s.stream q with reset := true } else s.stream q := by
  rw [stream, streams_renounce, ← stream]
  induction gone generalizing s with
  | nil => rfl
  | cons r gone ih =>
    have hknown : ∀ t ∈ gone, t.serial < (s.markReset r).streams.size := fun t ht => by
      rw [markReset, size_update]
      exact known t (List.mem_cons_of_mem _ ht)
    have hmark : (s.markReset r).stream q = if q = r then { s.stream q with reset := true } else s.stream q := by
      rw [markReset, stream_update]
      by_cases hq : q = r
      · rw [if_pos ⟨hq, known r List.mem_cons_self⟩, if_pos hq, hq]
      · rw [if_neg fun h => hq h.1, if_neg hq]
    rw [List.foldl_cons, ih hknown, hmark]
    by_cases hq : q = r
    · subst hq
      rw [if_pos rfl, if_pos List.mem_cons_self, ite_self]
    · rw [if_neg hq]
      exact if_congr (by rw [List.mem_cons, or_iff_right hq]) rfl rfl

theorem stream_renounce_of_not_mem (known : ∀ r ∈ gone, r.serial < s.streams.size) (hq : q ∉ gone) :
    (s.renounce gone).stream q = s.stream q := by
  rw [stream_renounce known, if_neg hq]

theorem idOf_renounce (known : ∀ r ∈ gone, r.serial < s.streams.size) : (s.renounce gone).idOf = s.idOf := by
  funext q
  rw [idOf, stream_renounce known]
  split <;> rfl

theorem isClosed_renounce (known : ∀ r ∈ gone, r.serial < s.streams.size) (q : StreamRef) :
    ((s.renounce gone).stream q).isClosed = (s.stream q).isClosed := by
  rw [stream_renounce known]
  split <;> rfl

theorem mem_renounce : q ∈ (s.renounce gone).table ↔ q ∈ s.table ∧ ∀ r ∈ gone, s.idOf q ≠ s.idOf r := by
  rw [renounce, List.mem_filter, List.all_eq_true]
  simp only [bne_iff_ne]

theorem tidy_renounce (tidy : s.Tidy) (known : ∀ r ∈ gone, r.serial < s.streams.size) : (s.renounce gone).Tidy where
  known := fun q hq => by
    rw [size_renounce]
    exact tidy.known q (mem_renounce.1 hq).1
  nodup := by
    rw [idOf_renounce known]
    exact tidy.nodup.sublist (List.filter_sublist.map _)

/-- Sessions are the same if they agree on their streams and on all else. -/
theorem eq_of_parts {t u : Session} (streams : t.streams = u.streams) (table : t.table = u.table)
    (last : t.lastStreamId = u.lastStreamId)
    (rest : { t with streams := #[], table := [], lastStreamId := 0 } =
      { u with streams := #[], table := [], lastStreamId := 0 }) : t = u := by
  cases t
  cases u
  cases streams
  cases table
  cases last
  cases rest
  rfl

/-! ## The order does not matter -/

theorem max_right_comm (a b c : UInt32) : max (max a b) c = max (max a c) b := by
  have hmax : ∀ x y : UInt32, max x y = if x ≤ y then y else x := fun _ _ => rfl
  simp only [hmax]
  grind

theorem ranTo_comm (s : Session) (n : UInt32) (q r : StreamRef) :
    s.ranTo (s.ranTo n q) r = s.ranTo (s.ranTo n r) q := by
  unfold ranTo
  split <;> split <;> first | rfl | exact max_right_comm _ _ _

theorem markReset_comm (s : Session) (q r : StreamRef) :
    (s.markReset q).markReset r = (s.markReset r).markReset q := by
  have hstreams : ((s.markReset q).markReset r).streams = ((s.markReset r).markReset q).streams := by
    refine streams_ext (by simp [markReset]) fun t => ?_
    simp only [markReset, stream_update, size_update]
    by_cases hqr : q = r
    · rw [hqr]
    · grind
  exact congrArg (fun a => { s with streams := a }) hstreams

theorem renounce_perm (perm : gone.Perm gone') (s : Session) : s.renounce gone = s.renounce gone' := by
  refine eq_of_parts ?_ (List.filter_congr fun q _ => perm.all_eq)
    (perm.foldl_eq' (fun q _ r _ n => s.ranTo_comm n q r) s.lastStreamId) rfl
  rw [streams_renounce, streams_renounce, perm.foldl_eq' fun q _ r _ t => markReset_comm t q r]

/-! ## Other streams -/

/-- Another stream may change before or afterwards. -/
theorem update_renounce {f : Stream → Stream} (hid : (f (s.stream q)).id = (s.stream q).id)
    (known : ∀ r ∈ gone, r.serial < s.streams.size) (hq : q ∉ gone) :
    (s.update q f).renounce gone = (s.renounce gone).update q f := by
  have hids : (s.update q f).idOf = s.idOf := idOf_update s q hid
  have hknown : ∀ r ∈ gone, r.serial < (s.update q f).streams.size := fun r hr => by
    rw [size_update]
    exact known r hr
  have hother : ∀ r ∈ gone, (s.update q f).stream r = s.stream r := fun r hr =>
    stream_update_of_ne _ fun h => hq (h ▸ hr)
  refine eq_of_parts (streams_ext (by simp [size_renounce]) fun t => ?_) ?_ ?_ rfl
  · by_cases ht : t = q
    · subst ht
      rw [stream_renounce_of_not_mem hknown hq, stream_update, stream_update, size_renounce,
        stream_renounce_of_not_mem known hq]
    · rw [stream_renounce hknown, stream_update_of_ne _ ht, stream_update_of_ne _ ht, stream_renounce known]
  · simp only [renounce, hids]
    rfl
  · refine List.foldl_ext _ _ _ fun n r hr => ?_
    rw [ranTo, ranTo, hother r hr, hids]
    rfl

theorem countDone_eq (s : Session) (r : StreamRef) :
    s.countDone r = { s with lastStreamId := s.ranTo s.lastStreamId r } := by
  unfold countDone ranTo idOf
  dsimp only
  by_cases h : (s.stream r).isClosed && s.isRemote (s.stream r).id
  · rw [if_pos h, if_pos h]
  · rw [if_neg h, if_neg h]

theorem ranTo_foldl (s : Session) (gone : List StreamRef) (n : UInt32) (q : StreamRef) :
    gone.foldl s.ranTo (s.ranTo n q) = s.ranTo (gone.foldl s.ranTo n) q := by
  induction gone generalizing n with
  | nil => rfl
  | cons r gone ih => rw [List.foldl_cons, List.foldl_cons, s.ranTo_comm, ih]

theorem find?_isSome {id : UInt32} : (s.find? id).isSome ↔ ∃ q ∈ s.table, s.idOf q = id := by
  rw [find?, List.find?_isSome]
  simp only [beq_iff_eq]

/-- A stream with another id may go before or afterwards. -/
theorem remove_renounce (known : ∀ r ∈ gone, r.serial < s.streams.size) (hq : ∀ r ∈ gone, s.idOf r ≠ s.idOf q) :
    (s.renounce gone).remove q = { s.remove q with session := (s.remove q).session.renounce gone } := by
  have hids := idOf_renounce (s := s) known
  have hfind : ((s.renounce gone).find? (s.idOf q)).isSome ↔ (s.find? (s.idOf q)).isSome := by
    rw [find?_isSome, find?_isSome, hids]
    constructor
    · rintro ⟨t, ht, hid⟩
      exact ⟨t, (mem_renounce.1 ht).1, hid⟩
    · rintro ⟨t, ht, hid⟩
      exact ⟨t, mem_renounce.2 ⟨ht, fun r hr h => hq r hr (h.symm.trans hid)⟩, hid⟩
  unfold remove
  rw [hids]
  by_cases hsome : (s.find? (s.idOf q)).isSome
  · have hsession : ((s.renounce gone).forget (s.idOf q)).countDone q =
        ((s.forget (s.idOf q)).countDone q).renounce gone := by
      rw [countDone_eq, countDone_eq]
      refine eq_of_parts rfl ?_ ?_ rfl
      · show (s.renounce gone).table.filter _ = _
        rw [hids, renounce, List.filter_filter]
        refine (List.filter_congr fun t _ => Bool.and_comm _ _).trans ?_
        exact List.filter_filter.symm
      · show (s.renounce gone).ranTo (s.renounce gone).lastStreamId q =
          gone.foldl s.ranTo (s.ranTo s.lastStreamId q)
        rw [ranTo_foldl, ranTo, hids, isClosed_renounce known]
        rfl
    rw [if_pos (hfind.2 hsome), if_pos hsome]
    dsimp only
    rw [hsession]
    rfl
  · rw [if_neg (mt hfind.1 hsome), if_neg hsome]

/-! ## The next stream -/

/-- A frame that tells the peer that a stream is given up because of flow control, in the version of the stream. -/
def Tells (s : Session) (r : StreamRef) (q : Parcel) : Prop :=
  ∃ bytes, ControlFrame.encode ⟨(s.stream r).version, .rstStream (s.idOf r) 7⟩ = .ok bytes ∧
    q = .control .rstStream bytes none

theorem encodeReset_flowControlError (cap : Nat) (version : Version) (id : UInt32) :
    encodeReset (.standard cap) version id .flowControlError = ControlFrame.encode ⟨version, .rstStream id 7⟩ := by
  cases version <;> rfl

theorem renounce_snoc (known : ∀ q ∈ gone, q.serial < s.streams.size) (r : StreamRef) :
    (((s.renounce gone).markReset r).forget (s.idOf r)).countDone r = s.renounce (gone ++ [r]) := by
  have hids : ((s.renounce gone).markReset r).idOf = s.idOf := by
    rw [idOf_markReset, idOf_renounce known]
  have hclosed : (((s.renounce gone).markReset r).stream r).isClosed = (s.stream r).isClosed := by
    rw [← isClosed_renounce known]
    exact (s.renounce gone).map_stream_update (·.isClosed) r r rfl
  rw [countDone_eq]
  refine eq_of_parts ?_ ?_ ?_ rfl
  · rw [streams_renounce, List.foldl_append, List.foldl_cons, List.foldl_nil]
    exact congrArg (fun a => a.modify r.serial fun t : Stream => { t with reset := true }) (streams_renounce s gone)
  · show (s.renounce gone).table.filter _ = _
    rw [hids]
    refine List.filter_filter.trans (List.filter_congr fun q _ => ?_)
    rw [List.all_append, List.all_cons, List.all_nil, Bool.and_true, Bool.and_comm]
  · refine Eq.trans ?_ List.foldl_append.symm
    show ((s.renounce gone).markReset r).ranTo (gone.foldl s.ranTo s.lastStreamId) r =
      s.ranTo (gone.foldl s.ranTo s.lastStreamId) r
    rw [ranTo, ranTo, hids, hclosed]
    rfl

theorem giveUp_of_mem (tidy : s.Tidy) (hr : r ∈ s.table) :
    s.giveUp (s.idOf r) [] =
      { session := ((s.markReset r).forget (s.idOf r)).countDone r
        todo := [.tell s.streamListeners (.closed r), .flush] } := by
  have hsome : ((s.markReset r).find? (s.idOf r)).isSome := by
    rw [find?_isSome, idOf_markReset]
    exact ⟨r, hr, rfl⟩
  rw [giveUp, find?_of_mem tidy hr]
  dsimp only
  rw [remove, idOf_markReset, if_pos hsome, countDone_eq]
  rfl

/-- The next stream is given up: the peer is told, and it is as if it were given up with those before. -/
theorem reset_renounce (cap : Nat) (tidy : s.Tidy) (sent : s.goAwaySent = false) (hr : r ∈ s.table)
    (known : ∀ q ∈ gone, q.serial < s.streams.size) (hgone : ∀ q ∈ gone, s.idOf r ≠ s.idOf q) :
    ∃ q, s.Tells r q ∧
      (s.renounce gone).reset (.standard cap) (s.stream r).version (s.idOf r) .flowControlError =
        { session := (s.post [q]).renounce (gone ++ [r])
          todo := [.tell s.streamListeners (.closed r), .flush] } := by
  obtain ⟨bytes, hbytes⟩ := encode_reset (s.stream r).version (s.idOf r) 7
  refine ⟨_, ⟨bytes, hbytes, rfl⟩, ?_⟩
  have hsent : ¬(s.renounce gone).goAwaySent := by
    show ¬s.goAwaySent
    simp [sent]
  rw [reset_eq, if_neg hsent, encodeReset_flowControlError, hbytes]
  show ((s.post [.control .rstStream bytes none]).renounce gone).giveUp (s.idOf r) [] = _
  have htidy : (s.post [.control .rstStream bytes none]).Tidy := ⟨tidy.known, tidy.nodup⟩
  have hid : ((s.post [.control .rstStream bytes none]).renounce gone).idOf r = s.idOf r := by
    rw [idOf_renounce (s := s.post [.control .rstStream bytes none]) known]
    rfl
  have hmem : r ∈ ((s.post [.control .rstStream bytes none]).renounce gone).table := mem_renounce.2 ⟨hr, hgone⟩
  rw [← hid, giveUp_of_mem (tidy_renounce htidy known) hmem, hid]
  exact congrArg (fun u => ({ session := u, todo := [.tell s.streamListeners (.closed r), .flush] } : Progress))
    (renounce_snoc (s := s.post [.control .rstStream bytes none]) known r)

end Session

end Spdy
