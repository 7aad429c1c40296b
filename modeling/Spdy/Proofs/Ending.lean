import Spdy.Proofs.Agenda
import Spdy.Proofs.Passage

/-!
# What has to do with the end of a session

The end of a session is announced by the application or because of an exception, and the other side announces it by a
frame. All other work leaves alone what the session knows of it.

* `Session.ending`, `Session.goAways` : who announced the end, and the announcements that wait;
* `Session.Stays`, `Session.Ends` : work that has nothing to do with the end of the session, and work that announces it;
* `Session.perform_stays`, `Session.begin_parts` : what tasks and operations are to the end of the session;
* `Moment.Parts`, `parts_of_agenda` : what a moment is to it, whatever the encoder;
* `goAwaySent_of_not_announces` : the mark that the end was announced is set by an announcement only.
-/

namespace Spdy

/-! ## What has to do with the end of a session -/

/-- A frame that announces the end of the session. -/
def Parcel.isGoAway : Parcel → Bool
  | .control .goAway _ _ => true
  | _ => false

/-- The notice that the peer announced the end of the session. -/
def Notice.isGoAway : Notice → Bool
  | .goAway .. => true
  | _ => false

/-- A task that passes on that the peer announced the end of the session, or closes the connection for that. -/
def Task.isParting : Task → Bool
  | .call (.tell _ notice) | .tell _ notice | .announce notice | .tellRegistered notice => notice.isGoAway
  | .call (.close graceful) => graceful
  | _ => false

def Operation.announces : Operation → Bool
  | .goAway _ | .receive (.sessionException _) => true
  | _ => false

theorem Parcel.isGoAway_of_ne {type : FrameType} (h : type ≠ .goAway) (bytes : Bytes) (r : Option StreamRef) :
    (Parcel.control type bytes r).isGoAway = false := by
  cases type <;> first | rfl | exact absurd rfl h

namespace Session

/-- Whether this side and the other side announced the end of the session, and who is told of it first. -/
def ending (s : Session) : Bool × Bool × Option Listener := (s.goAwaySent, s.goAwayReceived, s.primary)

def goAways (s : Session) : Nat := s.outbox.parcels.countP (·.isGoAway)

/-- A session later on, if nothing has happened to its end. -/
structure Keeps (s t : Session) : Prop where
  ending : t.ending = s.ending
  goAways : t.goAways ≤ s.goAways

/-- Work that has nothing to do with the end of the session. -/
structure Stays (s : Session) (p : Progress) : Prop extends Keeps s p.session where
  parting : Without Task.isParting p.todo

/-- Work that announces the end of the session, though not if the other side did. -/
structure Ends (s : Session) (p : Progress) : Prop where
  sent : s.goAwaySent = false
  ending : p.session.ending = (true, s.goAwayReceived, s.primary)
  goAways : p.session.goAways ≤ s.goAways + (!s.goAwayReceived).toNat
  parting : Without Task.isParting p.todo

namespace Keeps

variable {s t u : Session}

theorem refl (s : Session) : Keeps s s := ⟨rfl, Nat.le_refl _⟩

theorem trans (h : Keeps s t) (h' : Keeps t u) : Keeps s u where
  ending := h'.ending.trans h.ending
  goAways := Nat.le_trans h'.goAways h.goAways

theorem goAwaySent (h : Keeps s t) : t.goAwaySent = s.goAwaySent := congrArg Prod.fst h.ending

theorem of_parcels (ending : t.ending = s.ending) (parcels : t.outbox.parcels = s.outbox.parcels) : Keeps s t where
  ending := ending
  goAways := Nat.le_of_eq (by rw [Session.goAways, parcels, ← Session.goAways])

theorem enqueue (s : Session) {q : Parcel} (h : q.isGoAway = false) : Keeps s (s.enqueue q) where
  ending := rfl
  goAways := Nat.le_of_eq <| by
    show (s.outbox.parcels ++ [q]).countP (·.isGoAway) = _
    rw [List.countP_append, List.countP_singleton, h]
    rfl

theorem putBack (s : Session) (r q : StreamRef) (payload : Payload) (written : Nat) :
    Keeps s (s.putBack r (.data q payload written)) where
  ending := rfl
  goAways := Nat.le_of_eq <| by
    obtain ⟨before, after, hparcels, -, hput⟩ := Outbox.putBack_parcels s.outbox (s.idOf · == s.idOf r)
      (.data q payload written)
    show (s.outbox.putBack _ _).parcels.countP (·.isGoAway) = s.outbox.parcels.countP (·.isGoAway)
    rw [hput, hparcels, List.countP_append, List.countP_append, List.countP_cons]
    rfl

theorem take? {q : Parcel} (h : s.take? = some (q, t)) : Keeps s t := by
  obtain ⟨⟨q', o⟩, htake, heq⟩ := Option.map_eq_some_iff.1 h
  obtain ⟨rfl, rfl⟩ := Prod.mk.inj heq
  obtain ⟨-, before, after, hparcels, -, -, rfl⟩ := Outbox.take?_eq_some htake
  refine ⟨rfl, ?_⟩
  show (before ++ after).countP (·.isGoAway) ≤ s.outbox.parcels.countP (·.isGoAway)
  rw [hparcels]
  exact (List.Sublist.append_left (List.sublist_cons_self _ _) _).countP_le

end Keeps

namespace Stays

variable {s t : Session} {p q : Progress}

theorem idle (s : Session) (notes : List Note) : Stays s { session := s, notes } := ⟨.refl s, without_nil⟩

theorem after (h : Keeps s t) (hp : Stays t p) : Stays s p := ⟨h.trans hp.toKeeps, hp.parting⟩

theorem of_eq (hp : Stays s p) (hs : q.session = p.session) (ht : q.todo = p.todo) : Stays s q :=
  ⟨by rw [hs]; exact hp.toKeeps, by rw [ht]; exact hp.parting⟩

end Stays

/-! ## Tasks -/

section Tasks

variable (enc : Encoder) (s : Session)

theorem remove_stays (r : StreamRef) : s.Stays (s.remove r) := by
  have h := s.remove_cases r
  generalize s.remove r = p at h
  cases h with
  | gone => exact ⟨.of_parcels rfl rfl, by simp [Task.isParting, Notice.isGoAway]⟩
  | absent => exact .idle s []

theorem giveUp_stays (id : UInt32) (notes : List Note) : s.Stays (s.giveUp id notes) := by
  unfold giveUp
  split
  · exact ⟨.refl s, by simp [Task.isParting]⟩
  · next r _ =>
    have hremove := (s.markReset r).remove_stays r
    have hmark : s.Keeps (s.markReset r) := .of_parcels rfl rfl
    exact ⟨hmark.trans hremove.toKeeps, by simp [hremove.parting, Task.isParting]⟩

theorem reset_stays (version : Version) (id : UInt32) (status : StreamStatus) :
    s.Stays (s.reset enc version id status) := by
  rw [reset_eq]
  split
  · exact .idle s []
  · split
    · exact .after (.enqueue s rfl) (giveUp_stays _ id [])
    · exact s.giveUp_stays id _

theorem flush_stays : s.Stays (s.flush enc) := by
  unfold flush
  cases htake : s.take? with
  | none => exact .idle s []
  | some taken =>
    obtain ⟨q, t⟩ := taken
    have hwrite : ∀ (bytes : Bytes) (p : Parcel), s.Stays (t.write bytes p) := fun bytes p =>
      ⟨(Keeps.take? htake).trans (.of_parcels rfl rfl), by simp [write, Task.isParting]⟩
    have hfinish : s.Keeps t.finish := (Keeps.take? htake).trans (.of_parcels rfl rfl)
    cases q with
    | control type bytes r => exact hwrite _ _
    | data r payload written =>
      dsimp only
      split
      · exact ⟨hfinish, by simp [Task.isParting]⟩
      · split
        · exact hwrite _ _
        · exact ⟨hfinish, by simp [Task.isParting]⟩

theorem perform_stays {task : Task} (h : task.isParting = false) : s.Stays (s.perform enc task) := by
  cases task with
  | call c => exact ⟨.refl s, by simpa [perform] using h⟩
  | flush => exact s.flush_stays enc
  | endWrite seq =>
    refine ⟨.of_parcels rfl (Outbox.parcels_endWrite _ seq), ?_⟩
    simp only [perform]
    split <;> simp [Task.isParting]
  | release =>
    refine ⟨.of_parcels rfl (Outbox.parcels_complete _), ?_⟩
    simp only [perform]
    split <;> simp [Task.isParting]
  | tell listeners notice =>
    cases listeners with
    | nil => exact .idle s []
    | cons l rest =>
      have hnotice : notice.isGoAway = false := h
      exact ⟨.refl s, by simp [perform, Task.isParting, hnotice]⟩
  | announce notice =>
    refine ⟨.refl s, fun x hx => ?_⟩
    simp only [perform, List.mem_append, List.mem_map, List.mem_singleton] at hx
    rcases hx with ⟨l, -, rfl⟩ | rfl <;> exact h
  | tellRegistered notice =>
    have hnotice : notice.isGoAway = false := h
    exact ⟨.refl s, by simp [perform, Task.isParting, hnotice]⟩
  | reset version id status => exact s.reset_stays enc version id status
  | lose id =>
    simp only [perform]
    split
    · exact .idle s []
    · next r _ =>
      have hmark : s.Keeps (s.markReset r) := .of_parcels rfl rfl
      exact .after hmark ((s.markReset r).remove_stays r)
  | overflow r error => exact ⟨.refl s, by simp [perform, Task.isParting]⟩
  | reclaim r =>
    simp only [perform]
    split
    · exact s.remove_stays r
    · exact .idle s []
  | accept r opening => exact ⟨.refl s, by simp [perform, Without, Task.isParting, Notice.isGoAway]⟩

theorem perform_keeps (task : Task) : s.Keeps (s.perform enc task).session := by
  cases h : task.isParting with
  | false => exact (s.perform_stays enc h).toKeeps
  | true =>
    cases task with
    | call => exact .refl s
    | tell listeners notice => cases listeners <;> exact .refl s
    | announce => exact .refl s
    | tellRegistered => exact .refl s
    | _ => cases h

end Tasks

/-! ## Operations -/

section Operations

variable (enc : Encoder) (s : Session)

theorem beginSyn_stays (version : Version) (opening : Opening) (listener : Option Listener) :
    s.Stays (s.beginSyn enc version opening listener).toProgress := by
  have hnext : ∀ (id : UInt32) (t : Stream), s.Keeps ({ s with nextStreamId := id }.register t) :=
    fun _ _ => .of_parcels rfl rfl
  unfold beginSyn
  split
  · exact .idle s []
  · split
    · exact .idle s []
    · dsimp only
      split
      · exact ⟨.of_parcels rfl rfl, without_nil⟩
      · exact ⟨(hnext _ _).trans (.enqueue _ rfl), by simp [Task.isParting, Notice.isGoAway]⟩

theorem beginFrame_stays (f : ControlFrame) (outcome : Outcome) (hf : f.type ≠ .goAway) :
    s.Stays (s.beginFrame enc f outcome).toProgress := by
  unfold beginFrame
  split
  · exact .idle s []
  · exact ⟨.enqueue s (Parcel.isGoAway_of_ne hf _ _), by simp [Task.isParting]⟩

theorem beginPing_stays (version : Version) : s.Stays (s.beginPing enc version).toProgress := by
  have hnext : s.Keeps { s with nextPingId := s.nextPingId + 2 } := .of_parcels rfl rfl
  exact .after hnext (beginFrame_stays enc _ _ _ nofun)

theorem beginOnStream_stays (alive : Bool) (r : StreamRef) {body : Body} (hbody : body.type ≠ .goAway) :
    s.Stays (s.beginOnStream enc alive r body).toProgress := by
  have hclose : s.Keeps (if body.closes then s.closeLocal r else s) := by
    split <;> exact .of_parcels rfl rfl
  unfold beginOnStream
  dsimp only
  split
  · exact .idle s []
  · split
    · exact .idle s []
    · split
      · exact .idle s []
      · exact ⟨hclose.trans (.enqueue _ (Parcel.isGoAway_of_ne hbody _ _)), by simp [Task.isParting]⟩

theorem beginData_stays (alive : Bool) (r : StreamRef) (payload : Payload) :
    s.Stays (s.beginData alive r payload).toProgress := by
  unfold beginData
  dsimp only
  split
  · exact .idle s []
  · split
    · exact .idle s []
    · exact ⟨.enqueue s rfl, by simp [Task.isParting]⟩

theorem receiveOn_stays (r : StreamRef) (close : Bool) {notice : Notice} (hnotice : notice.isGoAway = false) :
    s.Stays (s.receiveOn r close notice) := by
  have hclose : s.Keeps (if close then s.closeRemote r else s) := by
    split <;> exact .of_parcels rfl rfl
  refine ⟨hclose, ?_⟩
  simp only [receiveOn, without_append, without_cons, without_nil, and_true, Task.isParting]
  intro x hx
  obtain ⟨l, -, rfl⟩ := List.mem_map.1 hx
  exact hnotice

theorem receiveSyn_stays (version : Version) (id : UInt32) (opening : Opening) :
    s.Stays (s.receiveSyn enc version id opening) := by
  unfold receiveSyn
  split
  · exact s.reset_stays enc _ _ _
  · split
    · exact s.reset_stays enc _ _ _
    · exact ⟨.of_parcels rfl rfl, by simp [Task.isParting, Notice.isGoAway]⟩

theorem receiveHead_stays (version : Version) (id : UInt32) (head : Head) {notice : StreamRef → Head → Notice}
    (hnotice : ∀ r, (notice r head).isGoAway = false) : s.Stays (s.receiveHead enc version id head notice) := by
  unfold receiveHead
  split
  · exact s.reset_stays enc _ _ _
  · exact s.receiveOn_stays _ _ (hnotice _)

theorem receiveSettings_stays (message : SettingsMessage) : s.Stays (s.receiveSettings message) := by
  have hshift : ∀ (t : Session) (delta : Int), t.Keeps (t.shiftWindows delta).1 := by
    intro t delta
    have h := shiftWindows_unchanged (fun u => (u.ending, u.outbox.parcels)) (fun _ _ _ => rfl) t delta
    exact .of_parcels (Prod.mk.inj h).1 (Prod.mk.inj h).2
  have hresize : ∀ size : Int, s.Keeps { s with initialWindow := size } := fun _ => .of_parcels rfl rfl
  have hafter : Without Task.isParting [.announce (.settings message), .flush] := by
    simp [Task.isParting, Notice.isGoAway]
  unfold receiveSettings
  dsimp only
  split
  · exact ⟨.refl s, hafter⟩
  · refine ⟨?_, without_append.2 ⟨?_, hafter⟩⟩
    · split
      · exact hresize _
      · exact (hresize _).trans (hshift _ _)
    · intro x hx
      obtain ⟨y, -, rfl⟩ := List.mem_map.1 hx
      rfl

theorem receivePing_stays (version : Version) (id : UInt32) : s.Stays (s.receivePing enc version id) := by
  unfold receivePing
  split
  · exact ⟨.refl s, by simp [Task.isParting, Notice.isGoAway]⟩
  · split
    · exact ⟨.enqueue s rfl, by simp [Task.isParting]⟩
    · exact ⟨.refl s, by simp [Task.isParting]⟩

theorem receiveWindow_stays (id delta : UInt32) : s.Stays (s.receiveWindow id delta) := by
  unfold receiveWindow
  split
  · exact ⟨.refl s, by simp [Task.isParting]⟩
  · split
    · exact ⟨.of_parcels rfl rfl, by simp [Task.isParting]⟩
    · exact ⟨.refl s, by simp [Task.isParting]⟩

theorem wrote_stays (q : Parcel) : s.Stays (s.wrote q) := by
  cases q with
  | control type bytes r =>
    refine ⟨.refl s, ?_⟩
    simp only [wrote]
    cases r <;> split <;> simp [Task.isParting]
  | data r payload written =>
    unfold wrote
    dsimp only
    split
    · exact ⟨.refl s, by simp [Task.isParting]⟩
    · next x _ =>
      have hupdate : s.Keeps (s.update r fun _ => x) := .of_parcels rfl rfl
      split
      · refine ⟨?_, by simp [Task.isParting]⟩
        split
        · exact hupdate.trans (.of_parcels rfl rfl)
        · exact hupdate
      · exact ⟨hupdate.trans (.putBack _ _ _ _ _), by simp [Task.isParting]⟩

theorem notWritten_stays (q : Parcel) (fault : SocketFault) : s.Stays (s.notWritten q fault) :=
  ⟨⟨rfl, Nat.zero_le _⟩, by simp [notWritten, Task.isParting]⟩

theorem report_stays (seq : Nat) {f : Session → Parcel → Progress}
    (hf : ∀ (t : Session) (q : Parcel), t.Stays (f t q)) :
    s.Stays (s.report seq f) := by
  have hdrop : s.Keeps (s.dropHandler seq) := .of_parcels rfl rfl
  unfold report
  split
  · exact .idle s []
  · exact .after hdrop (hf _ _)

/-- The end of the session is announced once, and only if the other side did not. -/
theorem announceEnd_ends (version : Version) (status : SessionStatus) (sent : s.goAwaySent = false) :
    s.Ends (s.announceEnd enc version status).1 := by
  unfold announceEnd
  rw [sent, if_neg Bool.false_ne_true]
  dsimp only
  split
  · exact ⟨sent, rfl, Nat.le_add_right _ _, without_nil⟩
  · next received =>
    have hreceived : s.goAwayReceived = false := by simpa using received
    split
    · exact ⟨sent, rfl, Nat.le_add_right _ _, without_nil⟩
    · refine ⟨sent, rfl, Nat.le_of_eq ?_, by simp [Task.isParting]⟩
      rw [hreceived]
      exact List.countP_append

theorem announceEnd_stays (version : Version) (status : SessionStatus) (sent : s.goAwaySent) :
    (s.announceEnd enc version status).1 = { session := s } := by
  rw [announceEnd, sent, if_pos rfl]

/-- The announcement of the other side, as it is passed on, if it counts: only the first one does, and none once this
side announced the end. -/
def parting? (s : Session) : Operation → Option Notice
  | .receive (.control ⟨_, .goAway last code⟩) =>
    if s.goAwaySent || s.goAwayReceived then none
    else some (.goAway last ((SessionStatus.ofCode? code.toNat).getD .protocolError))
  | _ => none

/-- What an operation is to the end of the session. -/
inductive Parts (s : Session) (op : Operation) (p : Progress) : Prop
  | stays (deaf : s.parting? op = none) (h : s.Stays p)
  | ends (asks : op.announces) (h : s.Ends p)
  | hears {last : UInt32} {status : SessionStatus} (asks : s.parting? op = some (.goAway last status))
      (session : p.session = { s with goAwayReceived := true })
      (todo : p.todo = [.announce (.goAway last status), .flush, .call (.close true)])

variable {s} in
theorem parting?_eq_some {op : Operation} {n : Notice} (h : s.parting? op = some n) :
    s.goAwaySent = false ∧ s.goAwayReceived = false := by
  unfold parting? at h
  split at h
  · split at h
    · cases h
    · next hneither => simpa using hneither
  · cases h

variable {s} in
theorem parting?_of_announces {op : Operation} (h : op.announces) : s.parting? op = none := by
  cases op with
  | receive got =>
    cases got with
    | sessionException => rfl
    | _ => cases h
  | _ => rfl

theorem receiveControl_parts (f : ControlFrame) (sent : s.goAwaySent = false) :
    s.Parts (.receive (.control f)) (s.receiveControl enc f) := by
  obtain ⟨version, body⟩ := f
  cases body with
  | synStream => exact .stays rfl (s.receiveSyn_stays enc _ _ _)
  | synReply => exact .stays rfl (s.receiveHead_stays enc _ _ _ fun _ => rfl)
  | rstStream => exact .stays rfl ⟨.refl s, by simp [receiveControl, receiveReset, Task.isParting, Notice.isGoAway]⟩
  | settings => exact .stays rfl (s.receiveSettings_stays _)
  | noop => exact .stays rfl (.idle s [])
  | ping => exact .stays rfl (s.receivePing_stays enc _ _)
  | goAway last code =>
    rw [receiveControl]
    dsimp only
    unfold receiveGoAway
    split
    · next received => exact .stays (by rw [parting?, sent, received]; rfl) (.idle s [])
    · next received => exact .hears (by rw [parting?, sent, if_neg (by simpa using received)]) rfl rfl
  | headers => exact .stays rfl (s.receiveHead_stays enc _ _ _ fun _ => rfl)
  | windowUpdate => exact .stays rfl (s.receiveWindow_stays _ _)

theorem receive_parts (got : Received) : s.Parts (.receive got) (s.receive enc got) := by
  cases got with
  | control f =>
    rw [receive]
    split
    · next sent =>
      refine .stays ?_ (.idle s [])
      unfold parting?
      split
      · rw [sent]
        rfl
      · rfl
    · next sent => exact s.receiveControl_parts enc f (by simpa using sent)
  | data f =>
    rw [receive]
    split
    · exact .stays rfl (.idle s [])
    · unfold receiveData
      split
      · exact .stays rfl (s.reset_stays enc _ _ _)
      · exact .stays rfl (s.receiveOn_stays _ _ rfl)
  | streamException e => exact .stays rfl ((s.reset_stays enc _ _ _).of_eq rfl rfl)
  | sessionException e =>
    rw [receive]
    unfold receiveSessionException
    split
    · exact .stays rfl ⟨.refl s, by simp [Task.isParting]⟩
    · next hneither =>
      have sent : s.goAwaySent = false := by
        simp only [not_or, Bool.not_eq_true] at hneither
        exact hneither.1
      have hends := s.announceEnd_ends enc s.config.version e.status sent
      split
      · next heq =>
        rw [heq] at hends
        exact .ends rfl ⟨sent, hends.ending, hends.goAways, hends.parting⟩
      · next heq =>
        rw [heq] at hends
        exact .ends rfl ⟨sent, hends.ending, hends.goAways, by simp [Task.isParting]⟩

/-- What an operation is to the end of the session, whatever it asks for. -/
theorem begin_parts (alive : Bool) (op : Operation) : s.Parts op (s.begin enc alive op).toProgress := by
  cases op with
  | syn version opening listener => exact .stays rfl (s.beginSyn_stays enc _ _ _)
  | reset version id status => exact .stays rfl (s.reset_stays enc _ _ _)
  | settings version message => exact .stays rfl (s.beginFrame_stays enc _ _ nofun)
  | ping version => exact .stays rfl (s.beginPing_stays enc _)
  | goAway version =>
    cases sent : s.goAwaySent with
    | true =>
      refine .stays rfl ?_
      show s.Stays (s.announceEnd enc version .ok).1
      rw [s.announceEnd_stays enc version .ok sent]
      exact .idle s []
    | false => exact .ends rfl (s.announceEnd_ends enc version .ok sent)
  | reply r head => exact .stays rfl (s.beginOnStream_stays enc _ _ nofun)
  | headers r head => exact .stays rfl (s.beginOnStream_stays enc _ _ nofun)
  | data r payload => exact .stays rfl (s.beginData_stays _ _ _)
  | sessionData r payload => exact .stays rfl (s.beginData_stays _ _ _)
  | receive got => exact s.receive_parts enc got
  | complete seq => exact .stays rfl (s.report_stays seq wrote_stays)
  | fail seq fault => exact .stays rfl (s.report_stays seq fun t q => t.notWritten_stays q fault)

/-- The end of the session is announced only on request, or because of an exception. -/
theorem begin_goAwaySent (alive : Bool) {op : Operation} (hop : op.announces = false) :
    (s.begin enc alive op).session.goAwaySent = s.goAwaySent := by
  cases s.begin_parts enc alive op with
  | stays deaf h => exact h.goAwaySent
  | ends asks => cases hop.symm.trans asks
  | hears asks session => rw [session]

end Operations

end Session

/-! ## What a moment is to the end of the session -/

namespace Moment

/-- The announcement of the other side that counts, as it is passed on. -/
def parting? (mo : Moment) : Option Notice := mo.op?.bind mo.before.session.parting?

/-- What a moment is to the end of the session. -/
inductive Parts (mo : Moment) : Prop
  | keeps (deaf : mo.parting? = none) (keeps : mo.before.session.Keeps mo.after.session)
  | ends (asks : mo.op?.any Operation.announces) (deaf : mo.parting? = none)
      (sent : mo.before.session.goAwaySent = false)
      (ending : mo.after.session.ending = (true, mo.before.session.goAwayReceived, mo.before.session.primary))
      (goAways : mo.after.session.goAways ≤ mo.before.session.goAways + (!mo.before.session.goAwayReceived).toNat)
  | hears {n : Notice} (asks : mo.parting? = some n) (received : mo.before.session.goAwayReceived = false)
      (session : mo.after.session = { mo.before.session with goAwayReceived := true })

theorem parting?_of_unasked {mo : Moment} (h : mo.op? = none) : mo.parting? = none := by
  rw [parting?, h]
  rfl

end Moment

theorem parts_of_agenda {enc : Encoder} {mo : Moment} (agenda : Agenda enc mo) : mo.Parts := by
  cases agenda with
  | @begins op asks session ahead =>
    have hparting : mo.parting? = mo.before.session.parting? op := by rw [Moment.parting?, asks]; rfl
    cases mo.before.session.begin_parts enc mo.before.isAlive op with
    | stays deaf h => exact .keeps (hparting.trans deaf) (session ▸ h.toKeeps)
    | ends announces h =>
      refine .ends ?_ (hparting.trans (Session.parting?_of_announces announces)) h.sent (session ▸ h.ending)
        (session ▸ h.goAways)
      rw [asks]
      exact announces
    | hears asks' session' todo =>
      exact .hears (hparting.trans asks') (Session.parting?_eq_some asks').2 (session.trans session')
  | performs unasked notCall session before ahead =>
    exact .keeps (Moment.parting?_of_unasked unasked) (session ▸ Session.perform_keeps enc _ _)
  | returns unasked calm control ahead =>
    refine .keeps (Moment.parting?_of_unasked unasked) (.of_parcels ?_ (congrArg Outbox.parcels calm.outbox))
    rw [Session.ending, control.1, control.2.1, control.2.2, ← Session.ending]
  | breaks unasked broken session made before =>
    exact .keeps (Moment.parting?_of_unasked unasked) (session ▸ .refl _)
  | drops unasked dropped session made ahead =>
    exact .keeps (Moment.parting?_of_unasked unasked) (session ▸ .of_parcels rfl rfl)

/-- Only an announcement sets the mark that the end of the session was announced. -/
theorem goAwaySent_of_not_announces {enc : Encoder} {m m' : Machine} {e : Event} (h : m.next? enc e = some m')
    (hop : (Moment.op? ⟨m, e, m'⟩).any Operation.announces = false) :
    m'.session.goAwaySent = m.session.goAwaySent := by
  cases parts_of_agenda (agenda_of_next? h) with
  | keeps deaf keeps => exact keeps.goAwaySent
  | ends asks => cases hop.symm.trans asks
  | hears asks received session => exact (congrArg Session.goAwaySent session).trans rfl

end Spdy
