import Spdy.Proofs.Census
import Spdy.Proofs.Course

/-!
# Who is told

What concerns one stream only is told to the listener of the stream. What concerns all is told in rounds: that streams come
and go to those who are registered for it, session frames to the primary listener and to those who are registered for them.
They are looked up when their turn comes.

* `Notice.isShared`, `Notice.registry?` : what is told in rounds, and who is registered for it;
* `Task.isOutOfTurn` : what is never left to be done later;
* `Convenes` : what work leaves: a round begins with it, or none does;
* `Session.Notifies`, `begin_notifies`, `perform_notifies` : operations and tasks leave that, and note no panic;
* `Convened`, `convened_of_course` : what is left to do by operations in progress;
* `registry_of_next?` : whose turn it is when a round begins.
-/

namespace Spdy

def Notice.isControl : Notice → Bool
  | reset .. | settings _ | ping _ | goAway .. => true
  | _ => false

def Notice.isShared (notice : Notice) : Bool := notice.isLife || notice.isControl

def Notice.registry? (s : Session) : Notice → Option (List Listener)
  | created _ | closed _ => some s.streamListeners
  | reset .. | settings _ | ping _ | goAway .. => some s.controlListeners
  | opened .. | reply .. | headers .. | data .. => none

theorem Notice.registry?_of_isControl {notice : Notice} (h : notice.isControl) (s : Session) :
    notice.registry? s = some s.controlListeners := by
  cases notice <;> first | rfl | cases h

def Note.isLapse : Note → Bool
  | listenerPanicked .. => true
  | _ => false

/-- A task that would tell of something out of turn: a round that has begun already, a notice that is told in rounds but
in none, or one that is announced without being about a session frame. -/
def Task.isOutOfTurn : Task → Bool
  | tell .. => true
  | call (.tell _ notice) => notice.isShared
  | announce notice | tellRegistered notice => !notice.isControl
  | _ => false

abbrev InTurn (todo : List Task) : Prop := Without Task.isOutOfTurn todo

/-- What work leaves to be done. If a round begins with it, those who are registered have just been looked up, or the
primary listener comes first. -/
inductive Convenes (s : Session) : List Task → Prop
  | plain {todo : List Task} (h : InTurn todo) : Convenes s todo
  | round {ls : List Listener} {notice : Notice} {rest : List Task} (registered : notice.registry? s = some ls)
      (h : InTurn rest) : Convenes s (.tell ls notice :: rest)
  | first {l : Listener} {notice : Notice} {rest : List Task} (control : notice.isControl) (h : InTurn rest) :
      Convenes s (.call (.tell l notice) :: .tellRegistered notice :: rest)

theorem Convenes.append {s : Session} {todo more : List Task} (h : Convenes s todo) (hmore : InTurn more) :
    Convenes s (todo ++ more) := by
  cases h with
  | plain h => exact .plain (without_append.2 ⟨h, hmore⟩)
  | round registered h => exact .round registered (without_append.2 ⟨h, hmore⟩)
  | first control h => exact .first control (without_append.2 ⟨h, hmore⟩)

theorem Convenes.of_registry {s t : Session} {todo : List Task} (h : Convenes t todo)
    (hsame : ∀ notice : Notice, notice.registry? s = notice.registry? t) : Convenes s todo := by
  cases h with
  | plain h => exact .plain h
  | round registered h => exact .round ((hsame _).trans registered) h
  | first control h => exact .first control h

/-- A round as work leaves it, and no line of the log about a listener. -/
structure Session.Notifies (s : Session) (p : Progress) : Prop where
  todo : Convenes s p.todo
  notes : ∀ note ∈ p.notes, note.isLapse = false

namespace Session

variable {enc : Encoder} {s t : Session} {p : Progress}

namespace Notifies

theorem plain (htodo : InTurn p.todo) (hnotes : ∀ note ∈ p.notes, note.isLapse = false) : s.Notifies p :=
  ⟨.plain htodo, hnotes⟩

theorem of_same (h : t.Notifies p) (hstreams : t.streamListeners = s.streamListeners)
    (hcontrols : t.controlListeners = s.controlListeners) : s.Notifies p := by
  have hsame : ∀ notice : Notice, notice.registry? s = notice.registry? t := by
    intro notice
    cases notice <;> simp [Notice.registry?, hstreams, hcontrols]
  exact ⟨h.todo.of_registry hsame, h.notes⟩

end Notifies

/-! ## Streams that go -/

theorem remove_notifies (r : StreamRef) : s.Notifies (s.remove r) := by
  have h := s.remove_cases r
  generalize s.remove r = p at h
  cases h with
  | gone => exact ⟨.round rfl without_nil, by simp⟩
  | absent => exact .plain without_nil (by simp)

theorem giveUp_notifies (id : UInt32) {notes : List Note} (hnotes : ∀ note ∈ notes, note.isLapse = false) :
    s.Notifies (s.giveUp id notes) := by
  unfold giveUp
  split
  · exact .plain (by simp [Task.isOutOfTurn]) hnotes
  · next r _ =>
    have hremove : s.Notifies ((s.markReset r).remove r) := (remove_notifies r).of_same rfl rfl
    exact ⟨hremove.todo.append (by simp [Task.isOutOfTurn]), hnotes⟩

theorem reset_notifies (version : Version) (id : UInt32) (status : StreamStatus) :
    s.Notifies (s.reset enc version id status) := by
  rw [reset_eq]
  split
  · exact .plain without_nil (by simp)
  · split
    · exact (giveUp_notifies id (by simp)).of_same rfl rfl
    · exact giveUp_notifies id (by simp [Note.isLapse])

/-! ## Tasks -/

theorem flush_notifies : s.Notifies (s.flush enc) := by
  unfold flush
  split
  · exact .plain without_nil (by simp)
  · exact .plain (by simp [write, Task.isOutOfTurn]) (by simp [write])
  · dsimp only
    repeat' split
    all_goals exact .plain (by simp [write, Task.isOutOfTurn]) (by simp [write, Note.isLapse])

theorem perform_notifies {x : Task} (h : x.isOutOfTurn = false) : s.Notifies (s.perform enc x) := by
  cases x with
  | call c => exact .plain (without_cons.2 ⟨h, without_nil⟩) (by simp [perform])
  | flush => exact flush_notifies
  | endWrite seq =>
    refine .plain ?_ (by simp [perform])
    simp only [perform]
    split <;> simp [Task.isOutOfTurn]
  | release =>
    refine .plain ?_ (by simp [perform])
    simp only [perform]
    split <;> simp [Task.isOutOfTurn]
  | tell => cases h
  | announce notice =>
    have hcontrol : notice.isControl := by simpa [Task.isOutOfTurn] using h
    refine ⟨?_, by simp [perform]⟩
    simp only [perform]
    cases s.primary with
    | none => exact .plain (without_cons.2 ⟨h, without_nil⟩)
    | some l => exact .first hcontrol without_nil
  | tellRegistered notice =>
    have hcontrol : notice.isControl := by simpa [Task.isOutOfTurn] using h
    exact ⟨.round (Notice.registry?_of_isControl hcontrol s) without_nil, by simp [perform]⟩
  | reset version id status => exact reset_notifies version id status
  | lose id =>
    simp only [perform]
    split
    · exact .plain without_nil (by simp)
    · exact (remove_notifies _).of_same rfl rfl
  | overflow r error => exact .plain (by simp [perform, Task.isOutOfTurn]) (by simp [perform, Note.isLapse])
  | reclaim r =>
    simp only [perform]
    split
    · exact remove_notifies r
    · exact .plain without_nil (by simp)
  | accept r opening =>
    refine .plain ?_ (by simp [perform])
    simp [perform, Task.isOutOfTurn, Notice.isShared, Notice.isLife, Notice.isControl]

/-! ## Operations -/

theorem announceEnd_notifies (version : Version) (status : SessionStatus) :
    s.Notifies (s.announceEnd enc version status).1 := by
  unfold announceEnd
  dsimp only
  repeat' split
  all_goals exact .plain (by simp [Task.isOutOfTurn]) (by simp)

theorem receiveOn_notifies (r : StreamRef) (close : Bool) {notice : Notice} (h : notice.isShared = false) :
    s.Notifies (s.receiveOn r close notice) := by
  refine .plain ?_ (by simp [receiveOn])
  simp [receiveOn, tellListener, Task.isOutOfTurn, h]

theorem receiveHead_notifies (version : Version) (id : UInt32) (head : Head) {notice : StreamRef → Head → Notice}
    (h : ∀ r, (notice r head).isShared = false) : s.Notifies (s.receiveHead enc version id head notice) := by
  unfold receiveHead
  split
  · exact reset_notifies _ _ _
  · exact receiveOn_notifies _ _ (h _)

theorem receiveSyn_notifies (version : Version) (id : UInt32) (opening : Opening) :
    s.Notifies (s.receiveSyn enc version id opening) := by
  unfold receiveSyn
  split
  · exact reset_notifies _ _ _
  · split
    · exact reset_notifies _ _ _
    · exact ⟨.round rfl (by simp [Task.isOutOfTurn]), by simp⟩

theorem receiveSettings_notifies (message : SettingsMessage) : s.Notifies (s.receiveSettings message) := by
  unfold receiveSettings
  dsimp only
  split
  · exact .plain (by simp [Task.isOutOfTurn, Notice.isControl]) (by simp)
  · exact .plain (by simp [Task.isOutOfTurn, Notice.isControl]) (by simp)

theorem receiveControl_notifies (f : ControlFrame) : s.Notifies (s.receiveControl enc f) := by
  obtain ⟨version, body⟩ := f
  cases body with
  | synStream => exact receiveSyn_notifies _ _ _
  | synReply => exact receiveHead_notifies _ _ _ fun _ => rfl
  | headers => exact receiveHead_notifies _ _ _ fun _ => rfl
  | rstStream =>
    exact .plain (by simp [receiveControl, receiveReset, Task.isOutOfTurn, Notice.isControl])
      (by simp [receiveControl, receiveReset])
  | settings => exact receiveSettings_notifies _
  | noop => exact .plain without_nil (by simp [receiveControl])
  | ping =>
    simp only [receiveControl, receivePing]
    repeat' split
    all_goals exact .plain (by simp [Task.isOutOfTurn, Notice.isControl]) (by simp [Note.isLapse])
  | goAway =>
    simp only [receiveControl, receiveGoAway]
    split
    all_goals exact .plain (by simp [Task.isOutOfTurn, Notice.isControl]) (by simp)
  | windowUpdate =>
    simp only [receiveControl, receiveWindow]
    repeat' split
    all_goals exact .plain (by simp [Task.isOutOfTurn]) (by simp)

theorem receive_notifies (received : Received) : s.Notifies (s.receive enc received) := by
  cases received with
  | control f =>
    simp only [receive]
    split
    · exact .plain without_nil (by simp)
    · exact receiveControl_notifies f
  | data f =>
    simp only [receive, receiveData]
    split
    · exact .plain without_nil (by simp)
    · split
      · exact reset_notifies _ _ _
      · exact receiveOn_notifies _ _ rfl
  | streamException e =>
    have h : ∀ version, s.Notifies (s.reset enc version e.streamId e.status) := fun version => reset_notifies version _ _
    exact ⟨(h _).todo, List.forall_mem_cons.2 ⟨rfl, (h _).notes⟩⟩
  | sessionException e =>
    simp only [receive, receiveSessionException]
    split
    · exact .plain (by simp [Task.isOutOfTurn]) (by simp [Note.isLapse])
    · have h : s.Notifies (s.announceEnd enc s.config.version e.status).1 := announceEnd_notifies _ _
      split
      · next heq =>
        rw [heq] at h
        exact ⟨h.todo, by simp [Note.isLapse]⟩
      · exact .plain (by simp [Task.isOutOfTurn]) (by simp [Note.isLapse])

theorem wrote_notifies (q : Parcel) : s.Notifies (s.wrote q) := by
  cases q with
  | control type bytes r =>
    refine .plain ?_ (by simp [wrote])
    simp only [wrote]
    cases r <;> split <;> simp [Task.isOutOfTurn]
  | data r payload written =>
    simp only [wrote]
    repeat' split
    all_goals exact .plain (by simp [Task.isOutOfTurn]) (by simp)

theorem notWritten_notifies (q : Parcel) (fault : SocketFault) : s.Notifies (s.notWritten q fault) :=
  .plain (by simp [notWritten, Task.isOutOfTurn]) (by simp [notWritten, Note.isLapse])

theorem beginSyn_notifies (version : Version) (opening : Opening) (listener : Option Listener) :
    s.Notifies (s.beginSyn enc version opening listener).toProgress := by
  unfold beginSyn
  dsimp only
  repeat' split
  · exact .plain without_nil (by simp)
  · exact .plain without_nil (by simp)
  · exact .plain without_nil (by simp)
  · exact ⟨.round rfl (by simp [Task.isOutOfTurn]), by simp⟩

theorem beginFrame_notifies (f : ControlFrame) (outcome : Outcome) :
    s.Notifies (s.beginFrame enc f outcome).toProgress := by
  unfold beginFrame
  split
  all_goals exact .plain (by simp [Task.isOutOfTurn]) (by simp)

theorem beginOnStream_notifies (alive : Bool) (r : StreamRef) (body : Body) :
    s.Notifies (s.beginOnStream enc alive r body).toProgress := by
  unfold beginOnStream
  dsimp only
  repeat' split
  all_goals exact .plain (by simp [Task.isOutOfTurn]) (by simp)

theorem beginData_notifies (alive : Bool) (r : StreamRef) (payload : Payload) :
    s.Notifies (s.beginData alive r payload).toProgress := by
  unfold beginData
  dsimp only
  repeat' split
  all_goals exact .plain (by simp [Task.isOutOfTurn]) (by simp)

theorem report_notifies (seq : Nat) {f : Session → Parcel → Progress}
    (h : ∀ q, (s.dropHandler seq).Notifies (f (s.dropHandler seq) q)) : s.Notifies (s.report seq f) := by
  unfold report
  split
  · exact .plain without_nil (by simp)
  · exact (h _).of_same rfl rfl

theorem begin_notifies (alive : Bool) (op : Operation) : s.Notifies (s.begin enc alive op).toProgress := by
  cases op with
  | syn version opening listener => exact beginSyn_notifies _ _ _
  | reset version id status => exact reset_notifies version id status
  | settings version message => exact beginFrame_notifies _ _
  | ping version => exact (beginFrame_notifies _ _).of_same rfl rfl
  | goAway version => exact announceEnd_notifies _ _
  | reply r h => exact beginOnStream_notifies _ _ _
  | headers r h => exact beginOnStream_notifies _ _ _
  | data r payload => exact beginData_notifies _ _ _
  | sessionData r payload => exact beginData_notifies _ _ _
  | receive received => exact receive_notifies received
  | complete seq => exact report_notifies seq fun q => wrote_notifies q
  | fail seq fault =>
    show s.Notifies (s.report seq (·.notWritten · fault))
    exact report_notifies seq fun q => notWritten_notifies q fault

end Session

/-! ## What is left to do -/

/-- What is left to do by an operation: if it has begun a round, it goes on with it first. -/
inductive Convened : List Task → Prop
  | plain {todo : List Task} (h : InTurn todo) : Convened todo
  | round {ls : List Listener} {notice : Notice} {rest : List Task} (h : InTurn rest) : Convened (.tell ls notice :: rest)
  | told {l : Listener} {ls : List Listener} {notice : Notice} {rest : List Task} (h : InTurn rest) :
      Convened (.call (.tell l notice) :: .tell ls notice :: rest)
  | first {l : Listener} {notice : Notice} {rest : List Task} (control : notice.isControl) (h : InTurn rest) :
      Convened (.call (.tell l notice) :: .tellRegistered notice :: rest)

theorem Convenes.convened {s : Session} {todo : List Task} (h : Convenes s todo) : Convened todo := by
  cases h with
  | plain h => exact .plain h
  | round registered h => exact .round h
  | first control h => exact .first control h

/-- A round that is first is one for which those who are registered have just been looked up. -/
theorem Convenes.registry {s : Session} {ls : List Listener} {notice : Notice} {rest : List Task}
    (h : Convenes s (.tell ls notice :: rest)) : notice.registry? s = some ls := by
  cases h with
  | plain h => cases (without_cons.1 h).1
  | round registered h => exact registered

theorem Convened.of_call {c : Call} {rest : List Task} (h : Convened (.call c :: rest)) : Convened rest := by
  cases h with
  | plain h => exact .plain (without_cons.1 h).2
  | told h => exact .round h
  | first control h => exact .plain (without_cons.2 ⟨by simp [Task.isOutOfTurn, control], h⟩)

theorem Convened.inRound {l : Listener} {notice : Notice} {rest : List Task} (h : Convened (.call (.tell l notice) :: rest))
    (shared : notice.isShared) :
    (∃ ls more, rest = .tell ls notice :: more) ∨ ∃ more, rest = .tellRegistered notice :: more := by
  cases h with
  | plain h =>
    have hturn : notice.isShared = false := (without_cons.1 h).1
    rw [shared] at hturn
    cases hturn
  | told h => exact .inl ⟨_, _, rfl⟩
  | first control h => exact .inr ⟨_, rfl⟩

theorem Convened.announced {notice : Notice} {rest : List Task} (h : Convened (.announce notice :: rest)) :
    notice.isControl := by
  cases h with
  | plain h => simpa [Task.isOutOfTurn] using (without_cons.1 h).1

section Stack

variable {ok : Encoder → Prop} {enc : Encoder} {s : Session} {m m' : Machine} {e : Event} {past : List Moment}
  {x : Task} {todo rest : List Task} {outcome : Outcome} {below : List Activation}

def Machine.Convened (m : Machine) : Prop := ∀ a ∈ m.stack, Spdy.Convened a.todo

def Moment.isWork (mo : Moment) : Bool := mo.event matches .tick | .invoke _

/-- What a task leaves with what comes after it. A round that is first has just begun. -/
theorem convened_of_perform (h : Convened (x :: rest)) (notCall : x.isCall = false) :
    Convened ((m.session.perform enc x).todo ++ rest) ∧ ∀ ls notice more,
      (m.session.perform enc x).todo ++ rest = .tell ls notice :: more → notice.registry? m.session = some ls := by
  cases h with
  | plain h =>
    obtain ⟨hx, hrest⟩ := without_cons.1 h
    have hconvenes : Convenes m.session ((m.session.perform enc x).todo ++ rest) :=
      (Session.perform_notifies hx).todo.append hrest
    exact ⟨hconvenes.convened, fun ls notice more heq => (heq ▸ hconvenes).registry⟩
  | @round ls notice rest h =>
    cases ls with
    | nil =>
      refine ⟨.plain h, fun ls' notice' more heq => ?_⟩
      obtain rfl : rest = .tell ls' notice' :: more := heq
      cases (without_cons.1 h).1
    | cons l ls =>
      refine ⟨.told h, fun ls' notice' more heq => ?_⟩
      cases heq
  | told h => cases notCall
  | first control h => cases notCall

theorem Machine.Convened.head (h : m.Convened) {a : Activation} (hstack : m.stack = a :: below) :
    Spdy.Convened a.todo := h a (by rw [hstack]; exact List.mem_cons_self)

theorem Machine.Convened.beneath (h : m.Convened) {a : Activation} (hstack : m.stack = a :: below) :
    ∀ b ∈ below, Spdy.Convened b.todo := fun b hb => h b (by rw [hstack]; exact List.mem_cons_of_mem _ hb)

/-- Operations in progress go on with their rounds first, whatever happens. -/
theorem convened_of_next? (h : m.Convened) (next : m.next? enc e = some m') : m'.Convened := by
  cases Machine.happens_of_next? next with
  | invoke op yields possible =>
    exact List.forall_mem_cons.2 ⟨(Session.begin_notifies m.isAlive op).todo.convened, h⟩
  | tick stack notCall =>
    exact List.forall_mem_cons.2 ⟨(convened_of_perform (h.head stack) notCall).1, h.beneath stack⟩
  | answer reply stack => exact List.forall_mem_cons.2 ⟨(h.head stack).of_call, h.beneath stack⟩
  | caught p stack tell => exact List.forall_mem_cons.2 ⟨(h.head stack).of_call, h.beneath stack⟩
  | broken p stack notTell => exact List.forall_mem_cons.2 ⟨.plain without_nil, h.beneath stack⟩
  | leave stack => exact h.beneath stack
  | edit change yields => exact h
  | drop seq yields => exact h

/-- Whenever the session itself comes to tell registered listeners, they have just been looked up. -/
theorem registry_of_next? {ls : List Listener} {notice : Notice} (h : m.Convened) (next : m.next? enc e = some m')
    (work : Moment.isWork ⟨m, e, m'⟩) (stack' : m'.stack = ⟨.tell ls notice :: rest, outcome⟩ :: below) :
    notice.registry? m.session = some ls := by
  cases Machine.happens_of_next? next with
  | invoke op yields possible =>
    have hbegin : Convenes m.session (m.session.begin enc m.isAlive op).todo := (Session.begin_notifies _ _).todo
    have htodo : (m.session.begin enc m.isAlive op).todo = .tell ls notice :: rest :=
      congrArg Activation.todo (List.cons.inj stack').1
    rw [htodo] at hbegin
    exact hbegin.registry
  | tick stack notCall =>
    exact (convened_of_perform (h.head stack) notCall).2 ls notice rest (congrArg Activation.todo (List.cons.inj stack').1)
  | answer => cases work
  | caught => cases work
  | broken => cases work
  | leave => cases work
  | edit => cases work
  | drop => cases work

theorem convened_of_course (course : Course ok { session := s } past m) : m.Convened := by
  induction course with
  | start => simp [Machine.Convened]
  | next course may next ih => exact convened_of_next? ih next

end Stack

end Spdy
