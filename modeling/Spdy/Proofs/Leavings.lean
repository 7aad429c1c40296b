import Spdy.Proofs.Write

/-!
# What work leaves to be done

Each task that is left tells where it comes from: another task, or an operation and what that was about. To know which
tasks of some kind there may be, it is enough to go through these cases.

* `Session.Mourns` : the tasks that are left where a stream goes (`remove_mourns`, `giveUp_mourns`, `reset_mourns`);
* `Session.Begets`, `perform_begets` : the tasks that a task leaves;
* `Session.Ensues`, `wrote_ensues` : the tasks that the report of a write leaves;
* `Session.Leaves`, `begin_leaves` : the tasks that an operation leaves.
-/

namespace Spdy

namespace Session

/-! ## Where a stream goes -/

/-- A task that is left where a stream goes, if it was there. -/
inductive Mourns (s : Session) : Task → Prop
  | flush : s.Mourns .flush
  | closed (r : StreamRef) : s.Mourns (.tell s.streamListeners (.closed r))

section Mourns

variable {enc : Encoder} {s : Session} {x : Task}

theorem remove_mourns {r : StreamRef} (hx : x ∈ (s.remove r).todo) : s.Mourns x := by
  have h := s.remove_cases r
  generalize s.remove r = p at h hx
  cases h with
  | gone found =>
    rw [List.mem_singleton.1 hx]
    exact .closed r
  | absent => cases hx

theorem remove_markReset_mourns {r : StreamRef} (hx : x ∈ ((s.markReset r).remove r).todo) : s.Mourns x := by
  cases remove_mourns hx with
  | flush => exact .flush
  | closed r => exact .closed r

theorem giveUp_mourns {id : UInt32} {notes : List Note} (hx : x ∈ (s.giveUp id notes).todo) : s.Mourns x := by
  unfold giveUp at hx
  split at hx
  · rw [List.mem_singleton.1 hx]
    exact .flush
  · rcases List.mem_append.1 hx with hx | hx
    · exact remove_markReset_mourns hx
    · rw [List.mem_singleton.1 hx]
      exact .flush

theorem reset_mourns {version : Version} {id : UInt32} {status : StreamStatus}
    (hx : x ∈ (s.reset enc version id status).todo) : s.Mourns x := by
  rw [reset_eq] at hx
  split at hx
  · cases hx
  · split at hx
    · cases giveUp_mourns hx with
      | flush => exact .flush
      | closed r => exact .closed r
    · exact giveUp_mourns hx

end Mourns

/-! ## Tasks -/

/-- A task that another one leaves. -/
inductive Begets (s : Session) : Task → Task → Prop
  | mourns {task x : Task} (h : s.Mourns x) : s.Begets task x
  | write {bytes : Bytes} {h : Handler} (free : s.outbox.busy = false) : s.Begets .flush (.call (.write bytes h))
  | endWrite {seq : Nat} (free : s.outbox.busy = false) : s.Begets .flush (.endWrite seq)
  | first {l : Listener} {rest : List Listener} {n : Notice} : s.Begets (.tell (l :: rest) n) (.call (.tell l n))
  | others {l : Listener} {rest : List Listener} {n : Notice} : s.Begets (.tell (l :: rest) n) (.tell rest n)
  | primary {l : Listener} {n : Notice} (primary : s.primary = some l) : s.Begets (.announce n) (.call (.tell l n))
  | registered {n : Notice} : s.Begets (.announce n) (.tellRegistered n)
  | round {n : Notice} : s.Begets (.tellRegistered n) (.tell s.controlListeners n)
  | opened {r : StreamRef} {opening : Opening} {l : Listener} (primary : s.primary = some l) :
      s.Begets (.accept r opening) (.call (.tell l (.opened r opening)))
  | reset {r : StreamRef} {e : Error} :
      s.Begets (.overflow r e) (.reset (s.stream r).version (s.stream r).id .flowControlError)

theorem perform_begets {cap : Nat} {s : Session} {task x : Task} (notCall : task.isCall = false)
    (hx : x ∈ (s.perform (.standard cap) task).todo) : s.Begets task x := by
  have hflush : ∀ {go : Bool}, x ∈ (if go then [Task.flush] else []) → s.Begets task x := by
    intro go hx
    split at hx
    · rw [List.mem_singleton.1 hx]
      exact .mourns .flush
    · cases hx
  cases task with
  | call c => cases notCall
  | flush =>
    have h := flush_cases cap s
    rw [perform] at hx
    generalize s.flush (.standard cap) = p at h hx
    cases h with
    | idle => cases hx
    | drop =>
      rw [List.mem_singleton.1 hx]
      exact .mourns .flush
    | hand free =>
      simp only [List.mem_cons, List.not_mem_nil, or_false] at hx
      rcases hx with rfl | rfl
      · exact .write free
      · exact .endWrite free
  | endWrite seq => exact hflush hx
  | release => exact hflush hx
  | tell listeners n =>
    cases listeners with
    | nil => cases hx
    | cons l rest =>
      simp only [perform, List.mem_cons, List.not_mem_nil, or_false] at hx
      rcases hx with rfl | rfl
      · exact .first
      · exact .others
  | announce n =>
    simp only [perform, List.mem_append, List.mem_map, Option.mem_toList, List.mem_singleton] at hx
    rcases hx with ⟨l, hl, rfl⟩ | rfl
    · exact .primary hl
    · exact .registered
  | tellRegistered n =>
    rw [List.mem_singleton.1 hx]
    exact .round
  | reset version id status => exact .mourns (reset_mourns hx)
  | lose id =>
    simp only [perform] at hx
    split at hx
    · cases hx
    · exact .mourns (remove_markReset_mourns hx)
  | overflow r e =>
    rw [List.mem_singleton.1 hx]
    exact .reset
  | reclaim r =>
    simp only [perform] at hx
    split at hx
    · exact .mourns (remove_mourns hx)
    · cases hx
  | accept r opening =>
    obtain ⟨l, hl, rfl⟩ := List.mem_map.1 hx
    exact .opened (Option.mem_toList.1 hl)

/-! ## Reports of writes -/

/-- A task that the report of a write leaves. -/
inductive Ensues (s : Session) : Parcel → Task → Prop
  | close {bytes : Bytes} {r : Option StreamRef} : s.Ensues (.control .goAway bytes r) (.call (.close false))
  | release {q : Parcel} : s.Ensues q .release
  | reclaim {q : Parcel} {r : StreamRef} (speaks : q.stream? = some r) : s.Ensues q (.reclaim r)
  | overflow {r : StreamRef} {payload : Payload} {written : Nat} {e : Error}
      (refused : (s.stream r).credit (debit written) = .error e) : s.Ensues (.data r payload written) (.overflow r e)

theorem wrote_ensues {s : Session} {q : Parcel} {x : Task} (hx : x ∈ (s.wrote q).todo) : s.Ensues q x := by
  cases q with
  | control type bytes r =>
    simp only [wrote, List.mem_append, List.mem_map, Option.mem_toList, List.mem_singleton] at hx
    rcases hx with (hx | ⟨r', hr', rfl⟩) | rfl
    · split at hx
      · next htype =>
        subst htype
        rw [List.mem_singleton.1 hx]
        exact .close
      · cases hx
    · exact .reclaim hr'
    · exact .release
  | data r payload written =>
    have h := wrote_cases s (.data r payload written)
    generalize s.wrote (.data r payload written) = p at h hx
    cases h with
    | stuck credit =>
      simp only [List.mem_cons, List.not_mem_nil, or_false] at hx
      rcases hx with rfl | rfl
      · exact .overflow credit
      · exact .release
    | done =>
      simp only [List.mem_cons, List.not_mem_nil, or_false] at hx
      rcases hx with rfl | rfl
      · exact .reclaim rfl
      · exact .release
    | more =>
      rw [List.mem_singleton.1 hx]
      exact .release

/-! ## Operations -/

/-- A task that an operation leaves. -/
inductive Leaves (s : Session) : Operation → Task → Prop
  | mourns {op : Operation} {x : Task} (h : s.Mourns x) : s.Leaves op x
  | close {op : Operation} {graceful : Bool} : s.Leaves op (.call (.close graceful))
  | created {op : Operation} : s.Leaves op (.tell s.streamListeners (.created s.nextRef))
  | accept {version : Version} {flags : UInt8} {id associatedId : UInt32} {priority : UInt8} {headers : Headers}
      {opening : Opening} (sent : s.goAwaySent = false) (valid : ¬(id = 0 ∨ s.config.isLocal id))
      (absent : s.find? id = none) :
      s.Leaves (.receive (.control ⟨version, .synStream flags id associatedId priority headers⟩))
        (.accept s.nextRef opening)
  | fresh {got : Received} : s.Leaves (.receive got) (.reclaim s.nextRef)
  | known {got : Received} {r : StreamRef} (mem : r ∈ s.table) : s.Leaves (.receive got) (.reclaim r)
  | reply {version : Version} {flags : UInt8} {id : UInt32} {headers : Headers} {l : Listener} {r : StreamRef}
      {head : Head} : s.Leaves (.receive (.control ⟨version, .synReply flags id headers⟩)) (.call (.tell l (.reply r head)))
  | headers {version : Version} {flags : UInt8} {id : UInt32} {headers : Headers} {l : Listener} {r : StreamRef}
      {head : Head} :
      s.Leaves (.receive (.control ⟨version, .headers flags id headers⟩)) (.call (.tell l (.headers r head)))
  | data {f : DataFrame} {l : Listener} {r : StreamRef} (sent : s.goAwaySent = false)
      (found : s.find? f.streamId = some r) (listener : (s.stream r).listener = some l) :
      s.Leaves (.receive (.data f)) (.call (.tell l (.data r ⟨f.payload, f.closes⟩)))
  | reset {version : Version} {id code : UInt32} {status : StreamStatus} :
      s.Leaves (.receive (.control ⟨version, .rstStream id code⟩)) (.announce (.reset id status))
  | lose {version : Version} {id code : UInt32} : s.Leaves (.receive (.control ⟨version, .rstStream id code⟩)) (.lose id)
  | settings {version : Version} {flags : UInt8} {entries : List Setting} {message : SettingsMessage} :
      s.Leaves (.receive (.control ⟨version, .settings flags entries⟩)) (.announce (.settings message))
  | ping {version : Version} {id : UInt32} :
      s.Leaves (.receive (.control ⟨version, .ping id⟩)) (.announce (.ping id))
  | goAway {version : Version} {last code : UInt32} {status : SessionStatus} :
      s.Leaves (.receive (.control ⟨version, .goAway last code⟩)) (.announce (.goAway last status))
  | resized {version : Version} {flags : UInt8} {entries : List Setting} {r : StreamRef} {e : Error} {n : UInt32}
      (sent : s.goAwaySent = false) (size : Setting.lookup entries .initialWindowSize = some n)
      (refused : (r, e) ∈ (({ s with initialWindow := min (n.toNat : Int) Stream.maxWindow } : Session).shiftWindows
        (min (n.toNat : Int) Stream.maxWindow - s.initialWindow)).2) :
      s.Leaves (.receive (.control ⟨version, .settings flags entries⟩)) (.overflow r e)
  | widened {version : Version} {id delta : UInt32} {r : StreamRef} {e : Error} (sent : s.goAwaySent = false)
      (found : s.find? id = some r)
      (refused : (s.stream r).credit (min (delta.toNat : Int) Stream.maxWindow) = .error e) :
      s.Leaves (.receive (.control ⟨version, .windowUpdate id delta⟩)) (.overflow r e)
  | wrote {seq : Nat} {q : Parcel} {x : Task} (mem : ⟨seq, q⟩ ∈ s.outstanding)
      (h : (s.dropHandler seq).Ensues q x) : s.Leaves (.complete seq) x

section Leaves

variable {enc : Encoder} {s : Session} {op : Operation} {x : Task}

theorem Leaves.flush (hx : x ∈ [Task.flush]) : s.Leaves op x := by
  rw [List.mem_singleton.1 hx]
  exact .mourns .flush

theorem announceEnd_leaves {version : Version} {status : SessionStatus}
    (hx : x ∈ (s.announceEnd enc version status).1.todo) : s.Leaves op x := by
  unfold announceEnd at hx
  dsimp only at hx
  repeat' split at hx
  all_goals first | cases hx; done | exact .flush hx

theorem receiveOn_leaves {got : Received} {r : StreamRef} (mem : r ∈ s.table) {close : Bool} {notice : Notice}
    (told : ∀ l, (s.stream r).listener = some l → s.Leaves (.receive got) (.call (.tell l notice)))
    (hx : x ∈ (s.receiveOn r close notice).todo) : s.Leaves (.receive got) x := by
  have hsame : ((if close then s.closeRemote r else s).stream r).listener = (s.stream r).listener := by
    split
    · exact s.map_stream_update (·.listener) r r rfl
    · rfl
  simp only [receiveOn, tellListener, hsame, List.mem_append, List.mem_map, Option.mem_toList, List.mem_cons,
    List.not_mem_nil, or_false] at hx
  rcases hx with ⟨l, hl, rfl⟩ | rfl | rfl
  · exact told l hl
  · exact .mourns .flush
  · exact .known mem

theorem receiveHead_leaves {got : Received} {version : Version} {id : UInt32} {head : Head}
    {notice : StreamRef → Head → Notice}
    (told : ∀ r l, s.Leaves (.receive got) (.call (.tell l (notice r head))))
    (hx : x ∈ (s.receiveHead enc version id head notice).todo) : s.Leaves (.receive got) x := by
  unfold receiveHead at hx
  split at hx
  · exact .mourns (reset_mourns hx)
  · next r found => exact receiveOn_leaves (List.mem_of_find?_eq_some found) (fun l _ => told r l) hx

theorem receiveControl_leaves {f : ControlFrame} (sent : s.goAwaySent = false)
    (hx : x ∈ (s.receiveControl enc f).todo) : s.Leaves (.receive (.control f)) x := by
  obtain ⟨version, body⟩ := f
  cases body with
  | synStream flags id associatedId priority headers =>
    simp only [receiveControl, receiveSyn] at hx
    split at hx
    · exact .mourns (reset_mourns hx)
    · next valid =>
      split at hx
      · exact .mourns (reset_mourns hx)
      · next absent =>
        simp only [List.mem_cons, List.not_mem_nil, or_false] at hx
        rcases hx with rfl | rfl | rfl | rfl
        · exact .created
        · exact .accept sent valid absent
        · exact .mourns .flush
        · exact .fresh
  | synReply => exact receiveHead_leaves (fun _ _ => .reply) hx
  | headers => exact receiveHead_leaves (fun _ _ => .headers) hx
  | rstStream id code =>
    simp only [receiveControl, receiveReset, List.mem_cons, List.not_mem_nil, or_false] at hx
    rcases hx with rfl | rfl
    · exact .reset
    · exact .lose
  | noop => cases hx
  | settings flags entries =>
    have hafter : ∀ {message}, x ∈ [Task.announce (.settings message), .flush] →
        s.Leaves (.receive (.control ⟨version, .settings flags entries⟩)) x := by
      intro message hx
      rcases List.mem_cons.1 hx with rfl | hx
      · exact .settings
      · exact .flush hx
    simp only [receiveControl, receiveSettings] at hx
    split at hx
    · exact hafter hx
    · next n size =>
      split at hx
      · exact hafter hx
      · rcases List.mem_append.1 hx with hx | hx
        · obtain ⟨⟨r, e⟩, refused, rfl⟩ := List.mem_map.1 hx
          exact .resized sent size refused
        · exact hafter hx
  | windowUpdate id delta =>
    simp only [receiveControl, receiveWindow] at hx
    split at hx
    · exact .flush hx
    · next found =>
      split at hx
      · exact .flush hx
      · next refused =>
        rw [List.mem_singleton.1 hx]
        exact .widened sent found refused
  | ping id =>
    simp only [receiveControl, receivePing] at hx
    split at hx
    · rcases List.mem_cons.1 hx with rfl | hx
      · exact .ping
      · exact .flush hx
    · split at hx <;> exact .flush hx
  | goAway last code =>
    simp only [receiveControl, receiveGoAway] at hx
    split at hx
    · cases hx
    · simp only [List.mem_cons, List.not_mem_nil, or_false] at hx
      rcases hx with rfl | rfl | rfl
      · exact .goAway
      · exact .mourns .flush
      · exact .close

theorem receive_leaves {got : Received} (hx : x ∈ (s.receive enc got).todo) : s.Leaves (.receive got) x := by
  cases got with
  | control f =>
    simp only [receive] at hx
    split at hx
    · cases hx
    · next sent => exact receiveControl_leaves (by simpa using sent) hx
  | data f =>
    simp only [receive, receiveData] at hx
    split at hx
    · cases hx
    · next sent =>
      split at hx
      · exact .mourns (reset_mourns hx)
      · next r found =>
        exact receiveOn_leaves (List.mem_of_find?_eq_some found) (fun l => .data (by simpa using sent) found) hx
  | streamException e => exact .mourns (reset_mourns hx)
  | sessionException e =>
    simp only [receive, receiveSessionException] at hx
    split at hx
    · rw [List.mem_singleton.1 hx]
      exact .close
    · split at hx
      · next heq =>
        have h : ∀ y ∈ (s.announceEnd enc s.config.version e.status).1.todo, s.Leaves (.receive (.sessionException e)) y :=
          fun _ => announceEnd_leaves
        rw [heq] at h
        exact h x hx
      · rw [List.mem_singleton.1 hx]
        exact .close

theorem begin_leaves {alive : Bool} (hx : x ∈ (s.begin enc alive op).todo) : s.Leaves op x := by
  cases op with
  | syn version opening listener =>
    simp only [begin, beginSyn] at hx
    repeat' split at hx
    all_goals try cases hx; done
    rcases List.mem_cons.1 hx with rfl | hx
    · exact .created
    · exact .flush hx
  | reset version id status => exact .mourns (reset_mourns hx)
  | goAway version => exact announceEnd_leaves hx
  | receive got => exact receive_leaves hx
  | complete seq =>
    simp only [begin, report] at hx
    split at hx
    · cases hx
    · next y found =>
      have hseq : y.seq = seq := by simpa using List.find?_some found
      exact .wrote (hseq ▸ List.mem_of_find?_eq_some found) (wrote_ensues hx)
  | fail seq fault =>
    simp only [begin, report] at hx
    split at hx
    · cases hx
    · rw [List.mem_singleton.1 hx]
      exact .close
  | _ =>
    simp only [begin, beginPing, beginFrame, beginOnStream, beginData] at hx
    repeat' split at hx
    all_goals first | cases hx; done | exact .flush hx

end Leaves

end Session

end Spdy
