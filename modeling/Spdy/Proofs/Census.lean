import Spdy.Proofs.Turn

/-!
# Streams that come and go

* `Operation.opens?` : the id that an operation uses for a new stream;
* `Task.isLife`, `Mute` : the tasks that tell of streams that came or went, and work that leaves none;
* `Task.reclaims?` : the stream that a task takes out of the table once it is closed;
* `Census` : what work does to the table: nothing, or a stream comes, or one goes and the listeners are to be
  told;
* `begin_census`, `perform_census` : what operations and tasks do to it.
-/

namespace Spdy

/-- The id that an operation uses for a new stream, even if none comes of it. -/
def Operation.opens? (s : Session) : Operation → Option UInt32
  | .syn _ opening _ => if opening.unidirectional || s.goAwaySent then none else some s.nextStreamId
  | .receive (.control ⟨_, .synStream _ id ..⟩) =>
    if s.goAwaySent || id == 0 || s.config.isLocal id || (s.find? id).isSome then none else some id
  | _ => none

def Notice.isLife : Notice → Bool
  | .created _ | .closed _ => true
  | _ => false

def Task.isLife : Task → Bool
  | .tell _ n | .call (.tell _ n) | .announce n | .tellRegistered n => n.isLife
  | _ => false

abbrev Mute (todo : List Task) : Prop := Without Task.isLife todo

/-- The stream that a task takes out of the table once it is closed. -/
def Task.reclaims? : Task → Option StreamRef
  | .reclaim r => some r
  | _ => none

/-- What work does to the table, and what it tells of it. The stream that goes is an open one, or the one
that the work is for. -/
inductive Census (s : Session) (op : Option Operation) (own? : Option StreamRef) (p : Progress) : Prop
  | same (table : p.session.table = s.table) (size : p.session.streams.size = s.streams.size)
      (mute : Mute p.todo)
  | born {id : UInt32} {rest : List Task} (opens : op.bind (·.opens? s) = some id)
      (table : p.session.table = s.table.filter (s.idOf · != id) ++ [s.nextRef])
      (size : p.session.streams.size = s.streams.size + 1) (id : p.session.idOf s.nextRef = id)
      (todo : p.todo = .tell s.streamListeners (.created s.nextRef) :: rest) (mute : Mute rest)
  | gone {q : StreamRef} {rest : List Task} (known : q.serial < s.streams.size)
      (cause : q ∈ s.table ∨ own? = some q ∧ (s.stream q).isClosed)
      (mem : ∃ x ∈ s.table, s.idOf x = s.idOf q)
      (ended : (p.session.stream q).isClosed ∨ (p.session.stream q).reset)
      (table : p.session.table = s.table.filter (s.idOf · != s.idOf q))
      (size : p.session.streams.size = s.streams.size)
      (todo : p.todo = .tell s.streamListeners (.closed q) :: rest) (mute : Mute rest)
  | lost {id : UInt32} (opens : op.bind (·.opens? s) = some id)
      (table : p.session.table = s.table.filter (s.idOf · != id))
      (size : p.session.streams.size = s.streams.size) (mute : Mute p.todo)

namespace Census

variable {s t : Session} {op : Option Operation} {own? : Option StreamRef} {p : Progress}

theorem append (h : Census s none own? p) {more : List Task} (hm : Mute more) (notes : List Note) :
    Census s op own? { p with todo := p.todo ++ more, notes } := by
  cases h with
  | same table size mute => exact .same table size (without_append.2 ⟨mute, hm⟩)
  | born opens => cases opens
  | gone known cause mem ended table size todo mute =>
    exact .gone known cause mem ended table size (by rw [todo]; rfl) (without_append.2 ⟨mute, hm⟩)
  | lost opens => cases opens

theorem of_base (h : Census t none none p) (htable : t.table = s.table) (hid : t.idOf = s.idOf)
    (hsize : t.streams.size = s.streams.size) (hlisteners : t.streamListeners = s.streamListeners) :
    Census s op own? p := by
  cases h with
  | same table size mute => exact .same (table.trans htable) (size.trans hsize) mute
  | born opens => cases opens
  | gone known cause mem ended table size todo mute =>
    refine .gone (hsize ▸ known) (.inl ?_) ?_ ended ?_ (size.trans hsize) (hlisteners ▸ todo) mute
    · rw [← htable]
      exact cause.resolve_right (by simp)
    · rw [← hid, ← htable]
      exact mem
    · rw [table, htable, hid]
  | lost opens => cases opens

theorem of_eq (h : Census s none own? p) {q : Progress} (hs : q.session = p.session)
    (ht : q.todo = p.todo) : Census s op own? q := by
  cases h with
  | same table size mute => exact .same (by rw [hs, table]) (by rw [hs, size]) (by rw [ht]; exact mute)
  | born opens => cases opens
  | gone known cause mem ended table size todo mute =>
    exact .gone known cause mem (by rw [hs]; exact ended) (by rw [hs, table]) (by rw [hs, size])
      (by rw [ht, todo]) mute
  | lost opens => cases opens

end Census

namespace Session

variable (enc : Encoder) (s : Session) {own? : Option StreamRef}

/-! ## The ends of a stream -/

theorem idOf_markReset (q : StreamRef) : (s.markReset q).idOf = s.idOf := s.idOf_update q rfl

theorem remove_census {q : StreamRef} (known : q.serial < s.streams.size)
    (cause : q ∈ s.table ∨ own? = some q ∧ (s.stream q).isClosed)
    (ended : (s.stream q).isClosed ∨ (s.stream q).reset) : Census s none own? (s.remove q) := by
  have h := s.remove_cases q
  generalize s.remove q = p at h
  cases h with
  | gone found =>
    obtain ⟨x, hx, hid⟩ := List.find?_isSome.1 found
    exact .gone known cause ⟨x, hx, by simpa using hid⟩ ended rfl rfl rfl without_nil
  | absent => exact .same rfl rfl without_nil

theorem remove_markReset_census (tidy : s.Tidy) {q : StreamRef} (hq : q ∈ s.table) :
    Census s none own? ((s.markReset q).remove q) := by
  have hreset : ((s.markReset q).stream q).reset := by
    rw [markReset, stream_update_self _ (tidy.known q hq)]
  have hknown : q.serial < (s.markReset q).streams.size := by
    rw [markReset, size_update]
    exact tidy.known q hq
  exact ((s.markReset q).remove_census hknown (.inl hq) (.inr hreset)).of_base rfl
    (s.idOf_markReset q) (size_update s q _) rfl

theorem giveUp_census (tidy : s.Tidy) (id : UInt32) (notes : List Note) :
    Census s none own? (s.giveUp id notes) := by
  unfold giveUp
  split
  · exact .same rfl rfl (by simp [Task.isLife])
  · rename_i q hfind
    exact (s.remove_markReset_census tidy (List.mem_of_find?_eq_some hfind)).append
      (show Mute [.flush] by simp [Task.isLife]) notes

theorem reset_census (tidy : s.Tidy) (version : Version) (id : UInt32) (status : StreamStatus) :
    Census s none own? (s.reset enc version id status) := by
  rw [reset_eq]
  split
  · exact .same rfl rfl without_nil
  · split
    · exact (giveUp_census (s.post _) ⟨tidy.known, tidy.nodup⟩ id []).of_base rfl rfl rfl rfl
    · exact s.giveUp_census tidy id _

/-! ## Tasks -/

theorem perform_census {cap : Nat} (tidy : s.Tidy) {task : Task} (hcall : task.isCall = false)
    (hmute : task.isLife = false) : Census s none task.reclaims? (s.perform (.standard cap) task) := by
  cases task with
  | call c => cases hcall
  | flush =>
    have h := flush_cases cap s
    rw [perform]
    generalize s.flush (.standard cap) = p at h
    cases h <;> exact .same rfl rfl (by simp [Task.isLife])
  | endWrite seq =>
    refine .same rfl rfl ?_
    simp only [perform]
    split <;> simp [Task.isLife]
  | release =>
    refine .same rfl rfl ?_
    simp only [perform]
    split <;> simp [Task.isLife]
  | tell listeners notice =>
    have hnotice : notice.isLife = false := hmute
    cases listeners with
    | nil => exact .same rfl rfl without_nil
    | cons l rest => exact .same rfl rfl (by simp [perform, Task.isLife, hnotice])
  | announce notice =>
    have hnotice : notice.isLife = false := hmute
    refine .same rfl rfl ?_
    cases h : s.primary <;> simp [perform, h, Task.isLife, hnotice]
  | tellRegistered notice =>
    have hnotice : notice.isLife = false := hmute
    exact .same rfl rfl (by simp [perform, Task.isLife, hnotice])
  | reset version id status => exact s.reset_census _ tidy version id status
  | lose id =>
    simp only [perform]
    split
    · exact .same rfl rfl without_nil
    · rename_i q hfind
      exact s.remove_markReset_census tidy (List.mem_of_find?_eq_some hfind)
  | overflow r error => exact .same rfl rfl (by simp [perform, Task.isLife])
  | reclaim r =>
    simp only [perform]
    split
    · rename_i hclosed
      refine s.remove_census (Nat.lt_of_not_le fun hle => ?_) (.inr ⟨rfl, hclosed⟩) (.inl hclosed)
      rw [stream_of_size_le hle] at hclosed
      cases hclosed
    · exact .same rfl rfl without_nil
  | accept r opening =>
    refine .same rfl rfl ?_
    cases h : s.primary <;> simp [perform, h, Task.isLife, Notice.isLife]

/-! ## Operations -/

theorem beginSyn_census (version : Version) (opening : Opening) (listener : Option Listener) :
    Census s (some (.syn version opening listener)) own?
      (s.beginSyn enc version opening listener).toProgress := by
  unfold beginSyn
  by_cases huni : opening.unidirectional
  · rw [if_pos huni]
    exact .same rfl rfl without_nil
  · rw [if_neg huni]
    by_cases hsent : s.goAwaySent
    · rw [if_pos hsent]
      exact .same rfl rfl without_nil
    · rw [if_neg hsent]
      have hopens : (some (Operation.syn version opening listener)).bind (·.opens? s) =
          some s.nextStreamId := by
        simp [Operation.opens?, huni, hsent]
      dsimp only
      split
      · exact .lost hopens rfl rfl without_nil
      · refine .born hopens rfl (by simp) ?_ rfl (by simp [Task.isLife])
        exact congrArg Stream.id (stream_register_nextRef _ _)

theorem beginFrame_census {op : Option Operation} (f : ControlFrame) (outcome : Outcome) :
    Census s op own? (s.beginFrame enc f outcome).toProgress := by
  unfold beginFrame
  split
  · exact .same rfl rfl without_nil
  · exact .same rfl rfl (by simp [Task.isLife])

theorem announceEnd_table (version : Version) (status : SessionStatus) :
    (s.announceEnd enc version status).1.session.table = s.table ∧
      (s.announceEnd enc version status).1.session.streams.size = s.streams.size ∧
      Mute (s.announceEnd enc version status).1.todo := by
  unfold announceEnd
  dsimp only
  repeat' split
  all_goals exact ⟨rfl, rfl, by simp [Task.isLife]⟩

theorem beginOnStream_census {op : Option Operation} (alive : Bool) (r : StreamRef) (body : Body) :
    Census s op own? (s.beginOnStream enc alive r body).toProgress := by
  unfold beginOnStream
  dsimp only
  repeat' split
  all_goals first
    | exact .same rfl rfl (by simp [Task.isLife])
    | exact .same rfl (size_update s r _) (by simp [Task.isLife])

theorem beginData_census {op : Option Operation} (alive : Bool) (r : StreamRef) (payload : Payload) :
    Census s op own? (s.beginData alive r payload).toProgress := by
  unfold beginData
  dsimp only
  repeat' split
  all_goals exact .same rfl rfl (by simp [Task.isLife])

theorem receiveOn_census {op : Option Operation} (r : StreamRef) (close : Bool) {notice : Notice}
    (hnotice : notice.isLife = false) : Census s op own? (s.receiveOn r close notice) := by
  have htell : ∀ t : Session, Mute (t.tellListener r notice) := by
    intro t x hx
    obtain ⟨l, -, rfl⟩ := List.mem_map.1 hx
    exact hnotice
  unfold receiveOn
  cases close with
  | false => exact .same rfl rfl (by simp [htell, Task.isLife])
  | true => exact .same rfl (size_update s r _) (by simp [htell, Task.isLife])

theorem receiveHead_census {op : Option Operation} (tidy : s.Tidy) (version : Version) (id : UInt32)
    (head : Head) {notice : StreamRef → Head → Notice}
    (hnotice : ∀ r head, (notice r head).isLife = false) :
    Census s op own? (s.receiveHead enc version id head notice) := by
  unfold receiveHead
  split
  · exact (s.reset_census enc tidy _ _ _).of_eq rfl rfl
  · exact s.receiveOn_census _ _ (hnotice _ _)

theorem receiveSyn_census (tidy : s.Tidy) (sent : s.goAwaySent = false) {version : Version}
    {flags : UInt8} {id associatedId : UInt32} {priority : UInt8} {headers : Headers}
    (opening : Opening) :
    Census s (some (.receive (.control ⟨version, .synStream flags id associatedId priority headers⟩))) own?
      (s.receiveSyn enc version id opening) := by
  unfold receiveSyn
  by_cases hid : id = 0 ∨ s.config.isLocal id
  · rw [if_pos hid]
    exact (s.reset_census enc tidy _ _ _).of_eq rfl rfl
  · rw [if_neg hid]
    split
    · exact (s.reset_census enc tidy _ _ _).of_eq rfl rfl
    · rename_i hfind
      rw [not_or] at hid
      refine .born ?_ rfl (by simp) (congrArg Stream.id (stream_register_nextRef _ _)) rfl
        (by simp [Task.isLife])
      simp [Operation.opens?, sent, hid, hfind]

theorem receiveSettings_census (message : SettingsMessage) {op : Option Operation} :
    Census s op own? (s.receiveSettings message) := by
  unfold receiveSettings
  dsimp only
  split
  · exact .same rfl rfl (by simp [Task.isLife, Notice.isLife])
  · split
    · exact .same rfl rfl (by simp [Task.isLife, Notice.isLife])
    · refine .same (shiftWindows_unchanged Session.table (fun _ _ _ => rfl) { s with initialWindow := _ } _)
        (shiftWindows_unchanged (·.streams.size) size_update { s with initialWindow := _ } _) ?_
      refine without_append.2 ⟨fun x hx => ?_, by simp [Task.isLife, Notice.isLife]⟩
      obtain ⟨y, -, rfl⟩ := List.mem_map.1 hx
      rfl

theorem receiveWindow_census (id delta : UInt32) {op : Option Operation} :
    Census s op own? (s.receiveWindow id delta) := by
  unfold receiveWindow
  repeat' split
  all_goals first
    | exact .same rfl rfl (by simp [Task.isLife])
    | exact .same rfl (size_update s _ _) (by simp [Task.isLife])

theorem receive_census (tidy : s.Tidy) (received : Received) :
    Census s (some (.receive received)) own? (s.receive enc received) := by
  cases received with
  | control f =>
    simp only [receive]
    split
    · exact .same rfl rfl without_nil
    · rename_i hsent
      have hsent : s.goAwaySent = false := by simpa using hsent
      obtain ⟨version, body⟩ := f
      cases body with
      | synStream => exact s.receiveSyn_census enc tidy hsent _
      | synReply => exact s.receiveHead_census enc tidy _ _ _ fun _ _ => rfl
      | headers => exact s.receiveHead_census enc tidy _ _ _ fun _ _ => rfl
      | rstStream =>
        exact .same rfl rfl (by simp [receiveControl, receiveReset, Task.isLife, Notice.isLife])
      | settings => exact s.receiveSettings_census _
      | windowUpdate => exact s.receiveWindow_census _ _
      | noop => exact .same rfl rfl without_nil
      | ping =>
        simp only [receiveControl, receivePing]
        repeat' split
        all_goals exact .same rfl rfl (by simp [Task.isLife, Notice.isLife])
      | goAway =>
        simp only [receiveControl, receiveGoAway]
        split <;> exact .same rfl rfl (by simp [Task.isLife, Notice.isLife])
  | data f =>
    simp only [receive, receiveData]
    split
    · exact .same rfl rfl without_nil
    · split
      · exact (s.reset_census enc tidy _ _ _).of_eq rfl rfl
      · exact s.receiveOn_census _ _ rfl
  | streamException e => exact (s.reset_census enc tidy _ _ _).of_eq rfl rfl
  | sessionException e =>
    simp only [receive, receiveSessionException]
    split
    · exact .same rfl rfl (by simp [Task.isLife])
    · obtain ⟨htable, hsize, hmute⟩ := s.announceEnd_table enc s.config.version e.status
      split
      · rename_i heq
        rw [heq] at htable hsize hmute
        exact .same htable hsize hmute
      · rename_i heq
        rw [heq] at htable hsize
        exact .same htable hsize (by simp [Task.isLife])

/-- Reports of writes do not concern the table at once. -/
theorem wrote_table (p : Parcel) : (s.wrote p).session.table = s.table ∧
    (s.wrote p).session.streams.size = s.streams.size ∧ Mute (s.wrote p).todo := by
  cases p with
  | control type bytes r =>
    refine ⟨rfl, rfl, ?_⟩
    simp only [wrote]
    split <;> cases r <;> simp [Task.isLife]
  | data r payload written =>
    simp only [wrote]
    split
    · exact ⟨rfl, rfl, by simp [Task.isLife]⟩
    · split
      · split
        · exact ⟨rfl, (size_update _ r _).trans (size_update s r _), by simp [Task.isLife]⟩
        · exact ⟨rfl, size_update s r _, by simp [Task.isLife]⟩
      · exact ⟨rfl, size_update s r _, by simp [Task.isLife]⟩

theorem begin_census (tidy : s.Tidy) (alive : Bool) (op : Operation) :
    Census s (some op) own? (s.begin enc alive op).toProgress := by
  cases op with
  | syn => exact s.beginSyn_census enc _ _ _
  | reset => exact (s.reset_census enc tidy _ _ _).of_eq rfl rfl
  | settings => exact s.beginFrame_census enc _ _
  | ping => exact (beginFrame_census enc _ _ _).of_base rfl rfl rfl rfl
  | goAway =>
    obtain ⟨htable, hsize, hmute⟩ := s.announceEnd_table enc _ .ok
    exact .same htable hsize hmute
  | reply => exact s.beginOnStream_census enc _ _ _
  | headers => exact s.beginOnStream_census enc _ _ _
  | data => exact s.beginData_census _ _ _
  | sessionData => exact s.beginData_census _ _ _
  | receive received => exact s.receive_census enc tidy received
  | complete seq =>
    simp only [begin, report]
    split
    · exact .same rfl rfl without_nil
    · obtain ⟨htable, hsize, hmute⟩ := wrote_table _ _
      exact .same htable hsize hmute
  | fail seq fault =>
    simp only [begin, report]
    split
    · exact .same rfl rfl without_nil
    · exact .same rfl rfl (by simp [notWritten, Task.isLife])

end Session

end Spdy
