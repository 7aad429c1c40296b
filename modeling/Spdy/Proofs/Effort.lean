import Spdy.Proofs.Pings
import Spdy.Proofs.Tariff

/-!
# Answers, and how much effort they take

A session answers much of what it receives, but it answers no answer: nothing is enqueued because a stream or the
session was given up, or because a ping came back. So it can be said beforehand how much effort everything takes, once
it is known how many listeners there are and how many streams may be open.

* `Body.isAnswer`, `Retorts` : frames that end a chain of answers, and work that enqueues one of them at most;
* `perform_retorts`, `answers_retorts` : all that a session enqueues of its own accord are such frames;
* `Tariff.crowd`, `Tariff.covers_crowd` : the streams that are open or are going to be opened do not become more;
* `Scale`, `Scale.tariff` : how much effort everything takes, the size of a session being known;
* `Scale.expense_perform`, `Scale.flush_effort`, `Scale.wrote_effort`, `Scale.receive_effort` : what comes of a task,
  of a write that is reported and of a frame that is received takes less effort than it did itself
  (`Scale.covers_effort`).
-/

namespace Spdy

/-! ## Answers -/

/-- Whether a control frame ends a chain of answers, where `own` has the parity of the receiver's pings: it gives a
stream or the session up, or it is a ping that comes back. -/
def Body.isAnswer (own : UInt32) : Body → Bool
  | .rstStream .. | .goAway .. => true
  | .ping id => id % 2 == own % 2
  | _ => false

/-- Whether what is received is such a frame. -/
def Received.isAnswer (own : UInt32) : Received → Bool
  | control f => f.body.isAnswer own
  | _ => false

def Parcel.isAnswer (own : UInt32) : Parcel → Bool
  | control _ bytes _ => ((Received.ofBytes? bytes).map (·.isAnswer own)).getD false
  | data .. => false

def Retorts (own : UInt32) (new : List Parcel) : Prop :=
  new = [] ∨ ∃ type bytes, new = [.control type bytes none] ∧ (Parcel.control type bytes none).isAnswer own ∧
    bytes.length ≤ 16

def Task.isReset : Task → Bool
  | .reset .. => true
  | _ => false

section Retorts

variable {cap : Nat} {own : UInt32} {s : Session}

theorem retorts_of_encode {f : ControlFrame} {bytes : Bytes} (h : (Encoder.standard cap).control f = .ok bytes)
    (answer : f.body.isAnswer own) (type : FrameType) : Retorts own [.control type bytes none] := by
  obtain ⟨version, body⟩ := f
  refine .inr ⟨type, bytes, rfl, ?_⟩
  have hreads := (ControlFrame.accepted_of_encode h).readsAs.ofBytes?
  rw [Parcel.isAnswer, hreads, Option.map_some, Option.getD_some]
  cases body with
  | rstStream id status =>
    cases h
    rw [ControlFrame.reading_of_pairs_eq_nil rfl]
    exact ⟨rfl, by simp [ControlFrame.header, Body.layout, layoutId]⟩
  | goAway last status =>
    cases version <;> cases h <;> exact ⟨rfl, by simp [ControlFrame.header, Body.layout, layoutId]⟩
  | ping id =>
    cases h
    exact ⟨answer, by simp [ControlFrame.header, Body.layout]⟩
  | _ => cases answer

theorem retorts_of_reset {new : List Parcel} {version : Version} {id : UInt32} {status : StreamStatus}
    (h : new = [] ∨
      ∃ bytes, Session.encodeReset (.standard cap) version id status = .ok bytes ∧
        new = [.control .rstStream bytes none]) :
    Retorts own new := by
  rcases h with rfl | ⟨bytes, hbytes, rfl⟩
  · exact .inl rfl
  · obtain ⟨n, hn⟩ := encodeReset_eq_ok hbytes
    have hcontrol : (Encoder.standard cap).control ⟨version, .rstStream id n⟩ = .ok bytes := hn
    exact retorts_of_encode hcontrol rfl _

theorem perform_retorts (cap : Nat) (own : UInt32) (s : Session) {task : Task} (notFlush : task ≠ .flush) :
    ∃ new, s.Issues (s.perform (.standard cap) task).session new 0 ∧ Retorts own new ∧
      (new = [] ∨ task.isReset) := by
  obtain ⟨new, issues, rfl | ⟨version, id, status, bytes, rfl, hbytes, rfl⟩⟩ :=
    s.perform_issues (.standard cap) notFlush
  · exact ⟨[], issues, .inl rfl, .inl rfl⟩
  · exact ⟨_, issues, retorts_of_reset (.inr ⟨bytes, hbytes, rfl⟩), .inr rfl⟩

def Received.opens (got : Received) : Bool := got.opening?.isSome

def Parcel.opens : Parcel → Bool
  | control _ bytes _ => ((Received.ofBytes? bytes).map Received.opens).getD false
  | data .. => false

theorem Received.isAnswer_of_matter {got : Received} (matter : got.isMatter) : got.isAnswer own = false := by
  unfold isMatter at matter
  split at matter <;> first | rfl | cases matter

/-- What is enqueued because of something that is received is an answer, unless it was one itself. -/
theorem answers_retorts {got : Received} {p : Progress} (foreign : ∀ id, id % 2 ≠ s.nextPingId % 2 → id % 2 = own % 2)
    (h : Answers (.standard cap) s got p) :
    ∃ new born, s.Issues p.session new born ∧ Retorts own new ∧ born ≤ got.opens.toNat ∧
      (new = [] ∨ got.isAnswer s.nextPingId = false) := by
  have silent : ∀ {t : Session}, s.Issues t [] 0 → ∃ new born, s.Issues t new born ∧ Retorts own new ∧
      born ≤ got.opens.toNat ∧ (new = [] ∨ got.isAnswer s.nextPingId = false) := fun issues =>
    ⟨[], 0, issues, .inl rfl, Nat.zero_le _, .inl rfl⟩
  cases h with
  | nothing session todo =>
    rw [session]
    exact silent (.refl s)
  | resets matter issues posted todo =>
    exact ⟨_, 0, issues, retorts_of_reset posted, Nat.zero_le _, .inr (Received.isAnswer_of_matter matter)⟩
  | opens matter opens issues todo =>
    refine ⟨[], 1, issues, .inl rfl, ?_, .inl rfl⟩
    rw [Received.opens, opens]
    rfl
  | hears matter about issues todo => exact silent issues
  | loses session todo =>
    rw [session]
    exact silent (.refl s)
  | settles issues few todo => exact silent issues
  | returns sent own session todo =>
    rw [session]
    exact silent (.refl s)
  | echoes sent hforeign issues posted todo =>
    refine ⟨_, 0, issues, ?_, Nat.zero_le _, .inr (beq_false_of_ne hforeign)⟩
    rcases posted with ⟨cause, -, rfl⟩ | ⟨bytes, hbytes, rfl⟩
    · exact .inl rfl
    · exact retorts_of_encode hbytes (beq_iff_eq.2 (foreign _ hforeign)) _
  | parts issues todo => exact silent issues
  | widens issues todo => exact silent issues
  | closes issues todo => exact silent issues
  | ends encoded issues todo => exact ⟨_, 0, issues, retorts_of_encode encoded rfl _, Nat.zero_le _, .inr rfl⟩

end Retorts

/-! ## Streams that are open or are going to be opened -/

section Crowd

variable {cap : Nat} {own : UInt32} {s : Session} {p : Progress}

theorem Received.opens_of_isAnswer {got : Received} (h : got.isAnswer own) : got.opens = false := by
  cases got with
  | control f =>
    obtain ⟨version, body⟩ := f
    cases body <;> first | rfl | cases h
  | _ => rfl

theorem Parcel.opens_of_isAnswer {q : Parcel} (h : q.isAnswer own) : q.opens = false := by
  cases q with
  | control type bytes r =>
    rw [isAnswer] at h
    rw [opens]
    cases hgot : Received.ofBytes? bytes with
    | none => rfl
    | some got =>
      rw [hgot] at h
      exact Received.opens_of_isAnswer h
  | data => rfl

namespace Tariff

/-- A frame that opens a stream counts for one, until it is received and the stream is open. -/
def crowd : Tariff where
  step := 0
  byte := 0
  place := 1
  task _ := 0
  written _ := 0
  parcel q := q.opens.toNat
  letter got := got.opens.toNat

theorem crowd_frame {p q : Parcel} {bytes : Bytes} (h : Framed cap s p bytes q) :
    crowd.frame bytes = p.opens.toNat := by
  rw [frame, show crowd.byte = 0 from rfl, Nat.zero_mul, Nat.zero_add]
  cases h with
  | control type bytes r =>
    rw [Parcel.opens]
    cases Received.ofBytes? bytes <;> rfl
  | data r payload written alive window chunk =>
    obtain ⟨got, hreads, hwording⟩ := wording_of_framed (.data r payload written alive window chunk) trivial
    rw [hreads.ofBytes?]
    cases hwording with
    | data encoded =>
      unfold DataFrame.reading
      split <;> rfl

theorem crowd_progress (p : Progress) : crowd.progress p = crowd.session p.session := by
  have htasks : expense crowd.task p.todo = 0 := expense_eq_zero fun _ _ => rfl
  rw [progress, htasks, Nat.zero_add]

theorem crowd_flush (s : Session) : crowd.progress (s.flush (.standard cap)) +
    crowd.handed (s.flush (.standard cap)).handed? ≤ crowd.session s := by
  have hcases := flush_cases cap s
  generalize s.flush (.standard cap) = p at hcases
  rw [crowd_progress]
  cases hcases with
  | idle h => exact Nat.le_refl _
  | @drop before after r payload written free parcels reset blocked =>
    have hsession := session_holding (c := crowd) s (before ++ after)
    rw [parcels, List.map_append, List.sum_append, List.map_cons, List.sum_cons, List.map_append, List.sum_append]
      at hsession
    show crowd.session (s.holding _) + 0 ≤ _
    omega
  | @hand before after p q bytes free parcels blocked framed =>
    have hsession := session_handing (c := crowd) s (before ++ after) q
    have hframe : crowd.frame bytes = crowd.parcel p := crowd_frame framed
    have hwritten : crowd.written q = 0 := rfl
    rw [parcels, List.map_append, List.sum_append, List.map_cons, List.sum_cons, List.map_append, List.sum_append]
      at hsession
    show crowd.session (s.handing _ _) + crowd.frame bytes ≤ _
    omega

theorem crowd_issues {t : Session} {new : List Parcel} {born : Nat} (issues : s.Issues t new born)
    (retorts : Retorts own new) : crowd.session t ≤ crowd.session s + born := by
  have hsession := session_of_issues (c := crowd) issues
  have hplace : crowd.place = 1 := rfl
  have hnew : (new.map crowd.parcel).sum = 0 := by
    rcases retorts with rfl | ⟨type, bytes, rfl, answer, -⟩
    · rfl
    · show (Parcel.opens _).toNat + 0 = 0
      rw [Parcel.opens_of_isAnswer answer]
      rfl
  rw [hnew, hplace, Nat.one_mul] at hsession
  exact hsession

theorem crowd_wrote (s : Session) (q : Parcel) : crowd.session (s.wrote q).session ≤ crowd.session s := by
  have hcases := wrote_cases s q
  generalize s.wrote q = p at hcases
  cases hcases with
  | control plain => exact Nat.le_refl _
  | stuck credit => exact Nat.le_refl _
  | done credit empty =>
    dsimp only
    split <;> exact Nat.le_refl _
  | @more r payload written x before after credit left parcels clear =>
    have hsession := session_holding (c := crowd) (s.update r fun _ => x) (before ++ .data r payload written :: after)
    have hparcels : (s.update r fun _ => x).outbox.parcels = before ++ after := parcels
    have hdata : crowd.parcel (.data r payload written) = 0 := rfl
    have hsame : crowd.session (s.update r fun _ => x) = crowd.session s := rfl
    rw [hparcels, List.map_append, List.sum_append, List.map_append, List.sum_append, List.map_cons, List.sum_cons]
      at hsession
    dsimp only
    omega

/-- No stream is opened without a frame that opens it. -/
theorem covers_crowd (foreign : ∀ id, id % 2 ≠ s.nextPingId % 2 → id % 2 = own % 2) :
    crowd.Covers cap crowd.letter s where
  calls _ := Nat.le_refl _
  drops _ := Nat.le_refl _
  performs := by
    intro task notCall
    by_cases hflush : task = .flush
    · rw [hflush]
      exact Nat.le_trans (crowd_flush s) (Nat.le_add_left _ _)
    · obtain ⟨new, issues, retorts, -⟩ := perform_retorts cap own s hflush
      rw [crowd_progress, s.handed?_of_perform _ hflush notCall]
      exact Nat.le_trans (crowd_issues issues retorts) (Nat.le_add_left _ _)
  receives got := by
    obtain ⟨new, born, issues, retorts, hborn, -⟩ := answers_retorts foreign (s.receive_answers (.standard cap) got)
    rw [crowd_progress]
    exact Nat.le_trans (crowd_issues issues retorts) (Nat.add_le_add_left hborn _)
  completes h hh := by
    rw [crowd_progress]
    exact Nat.le_trans (crowd_wrote _ _) (Nat.le_of_add_right_le (session_dropHandler hh))
  fails h hh fault := by
    rw [crowd_progress]
    exact Nat.le_trans (session_notWritten _ _ _) (Nat.le_of_add_right_le (session_dropHandler hh))

end Tariff

end Crowd

/-! ## Effort -/

/-- What is known beforehand of a session: no more listeners are registered than this, for streams or for session
frames, and no more streams are open. -/
structure Scale where
  listeners : Nat
  streams : Nat

namespace Scale

variable (k : Scale)

def telling : Nat := 2 * k.listeners + 1

/-- Receiving an answer: everyone is told, and a stream is taken out of the table. -/
def hearing : Nat := 2 * k.telling + 6

/-- The report of a control frame: it may take a stream out of the table. -/
def reporting : Nat := k.telling + 6

def answering : Nat := 16 + k.hearing + k.reporting + 3

/-- Receiving a frame that is no answer: all streams may be given up because of it, and the one that it is about. -/
def dealing : Nat := k.streams * (k.answering + k.telling + 3) + k.answering + 2 * k.telling + 6

/-- Sending data, byte by byte at worst, each byte in a frame with a header. -/
def sending (bytes : Bytes) : Nat := (bytes.length + 1) * (k.dealing + k.answering + k.telling + 18) + bytes.length

def task : Task → Nat
  | .call _ | .flush => 1
  | .endWrite _ | .release | .accept .. => 2
  | .tell listeners _ => 2 * listeners.length + 1
  | .tellRegistered _ | .lose _ | .reclaim _ => k.telling + 1
  | .announce _ => k.telling + 3
  | .reset .. => k.answering + k.telling + 2
  | .overflow .. => k.answering + k.telling + 3

/-- The effort that a frame takes that is received, where `own` has the parity of the receiver's pings. -/
def letter (own : UInt32) (got : Received) : Nat := if got.isAnswer own then k.hearing else k.dealing

/-- The effort that the report of a parcel takes. The rest of data goes back to the outbox. -/
def written : Parcel → Nat
  | .control .. => k.reporting
  | .data _ payload _ =>
    k.answering + k.telling + 7 + if payload.bytes = [] then 0 else k.sending payload.bytes

/-- The effort that a parcel takes that waits. -/
def parcel (own : UInt32) : Parcel → Nat
  | .control _ bytes _ =>
    bytes.length + ((Received.ofBytes? bytes).map (k.letter own)).getD 0 + k.reporting + 3
  | .data _ payload _ => k.sending payload.bytes

/-- The effort that everything takes. The parity is that of the other side's pings. -/
def tariff (own : UInt32) : Tariff where
  step := 1
  byte := 1
  place := 0
  task := k.task
  written := k.written
  parcel := k.parcel own
  letter := k.letter own

end Scale

/-- A session that is not larger than was known beforehand. -/
structure Session.Within (s : Session) (k : Scale) : Prop where
  streamListeners : s.streamListeners.length ≤ k.listeners
  controlListeners : s.controlListeners.length ≤ k.listeners
  table : s.table.length ≤ k.streams

namespace Scale

section Bounds

variable {k : Scale} {own me : UInt32} {cap : Nat} {s : Session}

theorem letter_le (got : Received) : k.letter own got ≤ k.dealing := by
  unfold letter
  split
  · simp only [hearing, dealing]
    omega
  · exact Nat.le_refl _

theorem hearing_le_letter (k : Scale) (own : UInt32) (got : Received) : k.hearing ≤ k.letter own got := by
  unfold letter
  split
  · exact Nat.le_refl _
  · simp only [hearing, dealing]
    omega

theorem letter_of_isAnswer_eq_false {got : Received} (h : got.isAnswer own = false) : k.letter own got = k.dealing :=
  if_neg (Bool.eq_false_iff.1 h)

theorem retorts_effort {new : List Parcel} (h : Retorts own new) : (new.map (k.parcel own)).sum ≤ k.answering := by
  rcases h with rfl | ⟨type, bytes, rfl, answer, short⟩
  · exact Nat.zero_le _
  · rw [Parcel.isAnswer] at answer
    rw [List.map_singleton, List.sum_singleton, parcel, answering]
    cases hgot : Received.ofBytes? bytes with
    | none =>
      rw [Option.map_none, Option.getD_none]
      omega
    | some got =>
      rw [hgot, Option.map_some, Option.getD_some] at answer
      rw [Option.map_some, Option.getD_some, letter, if_pos answer]
      omega

theorem expense_closed (within : s.Within k) {todo rest : List Task} {r : StreamRef}
    (h : todo.Sublist (.tell s.streamListeners (.closed r) :: rest)) :
    expense k.task todo ≤ k.telling + expense k.task rest := by
  have hle : expense k.task todo ≤ expense k.task (.tell s.streamListeners (.closed r) :: rest) :=
    (h.map k.task).sum_le_sum fun _ _ => Nat.zero_le _
  have htell : k.task (.tell s.streamListeners (.closed r)) ≤ k.telling := by
    have := within.streamListeners
    simp only [task, telling]
    omega
  rw [expense_cons] at hle
  omega

theorem expense_remove (within : s.Within k) (r : StreamRef) : expense k.task (s.remove r).todo ≤ k.telling :=
  expense_closed within (s.remove_issues r).2

/-- A task takes more effort than what it leaves and what it enqueues. -/
theorem expense_perform (cap : Nat) (within : s.Within k) {task : Task} (notFlush : task ≠ .flush)
    (notCall : task.isCall = false) :
    expense k.task (s.perform (.standard cap) task).todo + (if task.isReset then k.answering else 0) + 1 ≤
      k.task task := by
  have hcontrol := within.controlListeners
  cases task with
  | flush => exact absurd rfl notFlush
  | call => cases notCall
  | endWrite seq =>
    simp only [Session.perform]
    split <;> simp [task, Task.isReset]
  | release =>
    simp only [Session.perform]
    split <;> simp [task, Task.isReset]
  | tell listeners notice =>
    cases listeners with
    | nil => simp [Session.perform, task, Task.isReset]
    | cons l rest =>
      simp [Session.perform, task, Task.isReset]
      omega
  | announce notice =>
    simp only [Session.perform]
    cases s.primary with
    | none => simp [task, Task.isReset]
    | some l =>
      simp [task, Task.isReset]
      omega
  | tellRegistered notice =>
    simp [Session.perform, task, telling, Task.isReset]
    omega
  | reset version id status =>
    obtain ⟨new, -, -, r, todo⟩ := s.reset_issues (.standard cap) version id status
    have hclosed := expense_closed within todo
    simp only [expense_cons, expense_nil, task] at hclosed
    simp only [Session.perform, task, Task.isReset, if_true]
    omega
  | lose id =>
    simp only [Session.perform]
    split
    · simp [task, Task.isReset]
    · next r _ =>
      have hwithin : (s.markReset r).Within k := ⟨within.1, within.2, within.3⟩
      exact Nat.succ_le_succ (expense_remove hwithin r)
  | overflow r error => simp [Session.perform, task, Task.isReset]
  | reclaim r =>
    simp only [Session.perform]
    split
    · exact Nat.succ_le_succ (expense_remove within r)
    · simp [task, Task.isReset]
  | accept r opening =>
    simp only [Session.perform]
    cases s.primary <;> simp [task, Task.isReset]

/-- The rest of data takes less effort than the data did, by more than one frame takes. -/
theorem sending_rest (bytes rest : Bytes) (h : rest.length < bytes.length) :
    k.sending rest + (k.dealing + k.answering + k.telling + 18) + (bytes.length - rest.length) ≤ k.sending bytes := by
  obtain ⟨n, hn⟩ := Nat.exists_eq_add_of_lt h
  have hmul : (rest.length + 1) * (k.dealing + k.answering + k.telling + 18) ≤
      (rest.length + n + 1) * (k.dealing + k.answering + k.telling + 18) := Nat.mul_le_mul_right _ (by omega)
  simp only [sending, hn, Nat.succ_mul (rest.length + n + 1)]
  omega

/-- What a parcel counts for pays for its frame, for the report and for what remains of it. -/
theorem framed_effort {p q : Parcel} {bytes : Bytes} (h : Framed cap s p bytes q) :
    (k.tariff own).frame bytes + k.written q + 3 ≤ k.parcel own p := by
  have hbyte : (k.tariff own).frame bytes =
      bytes.length + ((Received.ofBytes? bytes).map (k.letter own)).getD 0 := by
    rw [Tariff.frame, show (k.tariff own).byte = 1 from rfl, Nat.one_mul]
    rfl
  rw [hbyte]
  cases h with
  | control type bytes r =>
    simp only [written, parcel]
    omega
  | @data r payload written frame rest alive window chunk =>
    have hletter : ((Received.ofBytes? frame.encode).map (k.letter own)).getD 0 ≤ k.dealing := by
      cases Received.ofBytes? frame.encode with
      | none => exact Nat.zero_le _
      | some got => exact letter_le got
    have hlength : frame.payload.length + rest.bytes.length = payload.bytes.length := by
      rw [← drop_encode_append_rest chunk, List.length_append, frame.drop_encode]
    have hencode : frame.encode.length = 8 + frame.payload.length := frame.length_encode
    simp only [Scale.written, parcel]
    by_cases hrest : rest.bytes = []
    · rw [if_pos hrest, hencode, sending, Nat.succ_mul]
      have hmul := Nat.zero_le (payload.bytes.length * (k.dealing + k.answering + k.telling + 18))
      omega
    · have hpos : frame.payload.length ≠ 0 := (Framed.data r payload written alive window chunk).written_ne_zero hrest
      have hless := sending_rest (k := k) payload.bytes rest.bytes (by omega)
      rw [if_neg hrest, hencode]
      omega

/-- A flush pays for a frame from what its parcel counted for. -/
theorem flush_effort (cap : Nat) (own : UInt32) (s : Session) : (k.tariff own).progress (s.flush (.standard cap)) +
    (k.tariff own).handed (s.flush (.standard cap)).handed? ≤ (k.tariff own).session s := by
  have hcases := flush_cases cap s
  generalize s.flush (.standard cap) = p at hcases
  cases hcases with
  | idle h =>
    show 0 + (k.tariff own).session s + 0 ≤ _
    omega
  | @drop before after r payload written free parcels reset blocked =>
    have hsession := Tariff.session_holding (c := k.tariff own) s (before ++ after)
    rw [parcels, List.map_append, List.sum_append, List.map_cons, List.sum_cons, List.map_append, List.sum_append]
      at hsession
    have hparcel : 1 ≤ (k.tariff own).parcel (.data r payload written) := by
      show 1 ≤ k.sending payload.bytes
      rw [sending, dealing, Nat.succ_mul]
      omega
    show 1 + 0 + (k.tariff own).session (s.holding _) + 0 ≤ _
    omega
  | @hand before after p q bytes free parcels blocked framed =>
    have hsession := Tariff.session_handing (c := k.tariff own) s (before ++ after) q
    rw [parcels, List.map_append, List.sum_append, List.map_cons, List.sum_cons, List.map_append, List.sum_append]
      at hsession
    have hframe : (k.tariff own).frame bytes + (k.tariff own).written q + 3 ≤ (k.tariff own).parcel p :=
      framed_effort framed
    show 1 + (2 + 0) + (k.tariff own).session (s.handing _ _) + (k.tariff own).frame bytes ≤ _
    omega

/-- The report of a write takes no more effort than was set aside for it. -/
theorem wrote_effort (s : Session) (q : Parcel) :
    (k.tariff own).progress (s.wrote q) + 2 ≤ (k.tariff own).session s + k.written q := by
  cases q with
  | control type bytes r =>
    show expense k.task
        ((if type = .goAway then [.call (.close false)] else []) ++ r.toList.map .reclaim ++ [.release]) +
      (k.tariff own).session s + 2 ≤ _
    have hclose : expense k.task (if type = .goAway then [.call (.close false)] else []) ≤ 1 := by
      split <;> simp [task]
    have hreclaim : expense k.task (r.toList.map .reclaim) ≤ k.telling + 1 := by
      cases r <;> simp [task]
    rw [expense_append, expense_append, expense_cons, expense_nil]
    simp only [task, written, reporting]
    omega
  | data r payload written =>
    have hcases := wrote_cases s (.data r payload written)
    generalize s.wrote (.data r payload written) = p at hcases
    cases hcases with
    | stuck credit =>
      show k.answering + k.telling + 3 + (2 + 0) + (k.tariff own).session s + 2 ≤ _
      rw [Scale.written]
      omega
    | @done _ _ _ x credit empty =>
      have hsame : (k.tariff own).session
          (if payload.close then (s.update r fun _ => x).closeLocal r else s.update r fun _ => x) =
          (k.tariff own).session s := by
        split <;> rfl
      show k.telling + 1 + (2 + 0) + (k.tariff own).session _ + 2 ≤ _
      rw [hsame, Scale.written]
      omega
    | @more _ _ _ x before after credit left parcels clear =>
      have hsession := Tariff.session_holding (c := k.tariff own) (s.update r fun _ => x)
        (before ++ .data r payload written :: after)
      have hparcels : (s.update r fun _ => x).outbox.parcels = before ++ after := parcels
      have hdata : (k.tariff own).parcel (.data r payload written) = k.sending payload.bytes := rfl
      have hsame : (k.tariff own).session (s.update r fun _ => x) = (k.tariff own).session s := rfl
      rw [hparcels, List.map_append, List.sum_append, List.map_append, List.sum_append, List.map_cons, List.sum_cons]
        at hsession
      show 2 + 0 +
          (k.tariff own).session ((s.update r fun _ => x).holding (before ++ .data r payload written :: after)) +
        2 ≤ _
      rw [Scale.written, if_neg left]
      omega

theorem session_effort (k : Scale) (own : UInt32) {t : Session} {new : List Parcel} {born : Nat}
    (issues : s.Issues t new born) :
    (k.tariff own).session t ≤ (k.tariff own).session s + (new.map (k.parcel own)).sum := by
  have hsession := Tariff.session_of_issues (c := k.tariff own) issues
  rwa [show (k.tariff own).place = 0 from rfl, Nat.zero_mul] at hsession

/-- All streams may be given up because their windows left their range. -/
theorem expense_overflows (within : s.Within k) {failed : List (StreamRef × Error)}
    (few : failed.length ≤ s.table.length) :
    expense k.task (failed.map fun f => .overflow f.1 f.2) ≤ k.streams * (k.answering + k.telling + 3) := by
  refine Nat.le_trans (List.sum_le_card_nsmul _ (k.answering + k.telling + 3) ?_) ?_
  · simp only [List.map_map, List.mem_map, Function.comp_apply]
    rintro n ⟨f, -, rfl⟩
    exact Nat.le_refl _
  · rw [Nat.nsmul_eq_mul, List.length_map, List.length_map]
    exact Nat.mul_le_mul_right _ (Nat.le_trans few within.table)

/-- What is received takes no more effort than was set aside for it. -/
theorem receive_effort (within : s.Within k) (parity : me % 2 = s.nextPingId % 2)
    (foreign : ∀ id, id % 2 ≠ s.nextPingId % 2 → id % 2 = own % 2) {got : Received} {p : Progress}
    (h : Answers (.standard cap) s got p) :
    (k.tariff own).progress p + 2 ≤ (k.tariff own).session s + k.letter me got := by
  have hstreams := within.streamListeners
  have hanswer := k.hearing_le_letter me got
  simp only [hearing, telling] at hanswer
  show expense k.task p.todo + _ + 2 ≤ _
  cases h with
  | nothing session todo =>
    rw [session, todo, expense_nil]
    omega
  | @resets _ _ new _ _ _ _ matter issues posted todo =>
    have hsession := k.session_effort own issues
    have hnew : (new.map (k.parcel own)).sum ≤ k.answering := retorts_effort (retorts_of_reset posted)
    have htodo := expense_closed within todo
    rw [letter_of_isAnswer_eq_false (Received.isAnswer_of_matter matter), dealing]
    simp only [expense_cons, expense_nil, task] at htodo
    omega
  | opens matter opens issues todo =>
    have hsession := k.session_effort own issues
    rw [letter_of_isAnswer_eq_false (Received.isAnswer_of_matter matter), dealing, todo]
    simp only [expense_cons, expense_nil, task, telling, List.map_nil, List.sum_nil] at hsession ⊢
    omega
  | @hears _ _ r l? notice matter about issues todo =>
    have hsession := k.session_effort own issues
    have htell : expense k.task (l?.toList.map fun l => .call (.tell l notice)) ≤ 1 := by
      cases l? <;> simp [task]
    rw [letter_of_isAnswer_eq_false (Received.isAnswer_of_matter matter), dealing, todo, expense_append]
    simp only [expense_cons, expense_nil, task, telling, List.map_nil, List.sum_nil] at hsession ⊢
    omega
  | loses session todo =>
    rw [session, todo]
    simp only [expense_cons, expense_nil, task, telling]
    omega
  | @settles _ _ _ _ failed _ issues few todo =>
    have hsession := k.session_effort own issues
    have hfailed := expense_overflows within few
    rw [letter_of_isAnswer_eq_false rfl, dealing, todo, expense_append]
    simp only [expense_cons, expense_nil, task, List.map_nil, List.sum_nil] at hsession ⊢
    omega
  | returns sent own session todo =>
    rw [session, todo]
    simp only [expense_cons, expense_nil, task, telling]
    omega
  | @echoes version id new _ sent hforeign issues posted todo =>
    have hsession := k.session_effort own issues
    have hnew : Retorts own new := by
      rcases posted with ⟨cause, -, rfl⟩ | ⟨bytes, hbytes, rfl⟩
      · exact .inl rfl
      · exact retorts_of_encode hbytes (beq_iff_eq.2 (foreign _ hforeign)) _
    have hnew := retorts_effort (k := k) hnew
    rw [letter_of_isAnswer_eq_false (beq_false_of_ne (parity ▸ hforeign)), dealing, todo]
    simp only [expense_cons, expense_nil, task]
    omega
  | parts issues todo =>
    have hsession := k.session_effort own issues
    rw [todo]
    simp only [expense_cons, expense_nil, task, telling, List.map_nil, List.sum_nil] at hsession ⊢
    omega
  | widens issues todo =>
    have hsession := k.session_effort own issues
    rw [letter_of_isAnswer_eq_false rfl, dealing]
    rcases todo with todo | ⟨r, e, todo⟩ <;> rw [todo] <;>
      simp only [expense_cons, expense_nil, task, List.map_nil, List.sum_nil] at hsession ⊢ <;> omega
  | @closes e _ issues todo =>
    have hsession := k.session_effort own issues
    have htodo : expense k.task p.todo ≤ 1 := (todo.map k.task).sum_le_sum fun _ _ => Nat.zero_le _
    simp only [List.map_nil, List.sum_nil] at hsession
    omega
  | @ends _ _ _ _ bytes _ encoded issues todo =>
    have hsession := k.session_effort own issues
    have hnew : (List.map (k.parcel own) [.control .goAway bytes none]).sum ≤ k.answering :=
      retorts_effort (retorts_of_encode encoded rfl .goAway)
    rw [letter_of_isAnswer_eq_false rfl, dealing, todo]
    simp only [expense_cons, expense_nil, task]
    omega

/-- The effort that everything takes is enough. -/
theorem covers_effort (within : s.Within k) (parity : me % 2 = s.nextPingId % 2)
    (foreign : ∀ id, id % 2 ≠ s.nextPingId % 2 → id % 2 = own % 2) :
    (k.tariff own).Covers cap (k.tariff me).letter s where
  calls _ := Nat.le_refl _
  drops q := by
    show 1 ≤ k.written q
    cases q <;> simp only [written, reporting] <;> omega
  performs := by
    intro task notCall
    by_cases hflush : task = .flush
    · rw [hflush]
      show _ + _ + 1 ≤ 1 + _
      have := flush_effort (k := k) cap own s
      rw [Nat.add_comm 1]
      exact Nat.succ_le_succ this
    · obtain ⟨new, issues, retorts, hreset⟩ := perform_retorts cap own s hflush
      have hsession := Tariff.session_of_issues (c := k.tariff own) issues
      have hexpense := expense_perform cap within hflush notCall
      have hnew : (new.map (k.parcel own)).sum ≤ if task.isReset then k.answering else 0 := by
        rcases hreset with rfl | hreset
        · exact Nat.zero_le _
        · rw [if_pos hreset]
          exact retorts_effort retorts
      rw [s.handed?_of_perform _ hflush notCall]
      show expense k.task _ + _ + 0 + 1 ≤ k.task task + _
      have : (k.tariff own).session (s.perform (.standard cap) task).session ≤
        (k.tariff own).session s + (new.map (k.parcel own)).sum := hsession
      omega
  receives got := receive_effort within parity foreign (s.receive_answers (.standard cap) got)
  completes h hh := Nat.le_trans (wrote_effort _ _) (Tariff.session_dropHandler hh)
  fails h hh fault := by
    have hdrop := Tariff.session_dropHandler (c := k.tariff own) hh
    have hfail := Tariff.session_notWritten (c := k.tariff own) (s.dropHandler h.seq) h.parcel fault
    have hwritten : 3 ≤ (k.tariff own).written h.parcel := by
      show 3 ≤ k.written h.parcel
      cases h.parcel <;> simp only [written, reporting] <;> omega
    show 1 + 0 + _ + 2 ≤ _
    omega

end Bounds

end Scale

end Spdy
