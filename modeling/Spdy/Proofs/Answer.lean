import Spdy.Proofs.Terminal

/-!
# What a session answers

A session answers some of what it receives: it sends pings of the other side back, gives streams up, and announces its
end when nothing more can be read. To everything else it has nothing to say, though it may have listeners to tell.

* `Session.Issues` : a session later on that has enqueued some parcels, and in which all but streams is as it was;
* `Session.remove_issues`, `Session.reset_issues` : streams that go, with or without a frame that says so;
* `Received.isMatter`, `Answers`, `receive_answers` : all that may come of a frame or an exception that is received;
* `Session.perform_issues` : what tasks enqueue.
-/

namespace Spdy

/-! ## What is enqueued -/

namespace Session

/-- What only the application changes: the id of the next ping, and who is told. -/
def standing (s : Session) : UInt32 × Option Listener × List Listener × List Listener :=
  (s.nextPingId, s.primary, s.streamListeners, s.controlListeners)

/-- A session later on that has enqueued some parcels, with the same writes in progress and so many new streams at
most. -/
structure Issues (s t : Session) (new : List Parcel) (born : Nat) : Prop where
  parcels : t.outbox.parcels = s.outbox.parcels ++ new
  outstanding : t.outstanding = s.outstanding
  standing : t.standing = s.standing
  table : t.table.length ≤ s.table.length + born

namespace Issues

variable {s t u : Session} {new new' : List Parcel} {born born' : Nat}

theorem of_eq (outbox : t.outbox.parcels = s.outbox.parcels) (outstanding : t.outstanding = s.outstanding)
    (standing : t.standing = s.standing) (table : t.table = s.table) : Issues s t [] 0 where
  parcels := outbox.trans (List.append_nil _).symm
  outstanding := outstanding
  standing := standing
  table := Nat.le_of_eq (congrArg List.length table)

theorem refl (s : Session) : Issues s s [] 0 := of_eq rfl rfl rfl rfl

theorem trans (h : Issues s t new born) (h' : Issues t u new' born') : Issues s u (new ++ new') (born + born') where
  parcels := by rw [h'.parcels, h.parcels, List.append_assoc]
  outstanding := h'.outstanding.trans h.outstanding
  standing := h'.standing.trans h.standing
  table := by
    have h₁ := h.table
    have h₂ := h'.table
    omega

theorem after (h : Issues s t [] 0) (h' : Issues t u new born) : Issues s u new born := by
  have hall := h.trans h'
  rwa [List.nil_append, Nat.zero_add] at hall

theorem enqueue (s : Session) (q : Parcel) : Issues s (s.enqueue q) [q] 0 := ⟨rfl, rfl, rfl, Nat.le_refl _⟩

theorem forget (s : Session) (id : UInt32) : Issues s (s.forget id) [] 0 where
  parcels := (List.append_nil _).symm
  outstanding := rfl
  standing := rfl
  table := List.length_filter_le _ _

theorem register (s : Session) (x : Stream) : Issues s (s.register x) [] 1 where
  parcels := (List.append_nil _).symm
  outstanding := rfl
  standing := rfl
  table := by
    show (_ ++ [s.nextRef]).length ≤ _
    rw [List.length_append]
    exact Nat.add_le_add_right (List.length_filter_le _ _) 1

end Issues

variable (enc : Encoder) (s : Session)

/-! ## Streams that go -/

theorem remove_issues (r : StreamRef) : Issues s (s.remove r).session [] 0 ∧
    (s.remove r).todo.Sublist [.tell s.streamListeners (.closed r)] := by
  have h := s.remove_cases r
  generalize s.remove r = p at h
  cases h with
  | gone => exact ⟨(Issues.forget s _).after (.of_eq rfl rfl rfl rfl), List.Sublist.refl _⟩
  | absent => exact ⟨.refl s, List.nil_sublist _⟩

theorem giveUp_issues (id : UInt32) (notes : List Note) : Issues s (s.giveUp id notes).session [] 0 ∧
    ∃ r, (s.giveUp id notes).todo.Sublist [.tell s.streamListeners (.closed r), .flush] := by
  unfold giveUp
  split
  · exact ⟨.refl s, default, List.sublist_cons_self _ _⟩
  · next r _ =>
    obtain ⟨issues, todo⟩ := (s.markReset r).remove_issues r
    have hmark : Issues s (s.markReset r) [] 0 := .of_eq rfl rfl rfl rfl
    exact ⟨hmark.after issues, r, todo.append_right [.flush]⟩

theorem reset_issues (version : Version) (id : UInt32) (status : StreamStatus) :
    ∃ new, Issues s (s.reset enc version id status).session new 0 ∧
      (new = [] ∨ ∃ bytes, encodeReset enc version id status = .ok bytes ∧ new = [.control .rstStream bytes none]) ∧
      ∃ r, (s.reset enc version id status).todo.Sublist [.tell s.streamListeners (.closed r), .flush] := by
  rw [reset_eq]
  split
  · exact ⟨[], .refl s, .inl rfl, default, List.nil_sublist _⟩
  · split
    · next bytes hbytes =>
      obtain ⟨issues, r, todo⟩ := (s.post [.control .rstStream bytes none]).giveUp_issues id []
      have hpost : Issues s (s.post [.control .rstStream bytes none]) [.control .rstStream bytes none] 0 :=
        ⟨rfl, rfl, rfl, Nat.le_refl _⟩
      exact ⟨_, hpost.trans issues, .inr ⟨bytes, hbytes, rfl⟩, r, todo⟩
    · obtain ⟨issues, todo⟩ := s.giveUp_issues id [.resetRefused id ‹_›]
      exact ⟨[], issues, .inl rfl, todo⟩

/-! ## Tasks -/

/-- Of the tasks only those that give a stream up enqueue anything. -/
theorem perform_issues {task : Task} (notFlush : task ≠ .flush) :
    ∃ new, Issues s (s.perform enc task).session new 0 ∧
      (new = [] ∨ ∃ version id status bytes, task = .reset version id status ∧
        encodeReset enc version id status = .ok bytes ∧ new = [.control .rstStream bytes none]) := by
  cases task with
  | flush => exact absurd rfl notFlush
  | endWrite seq => exact ⟨[], .of_eq (Outbox.parcels_endWrite _ seq) rfl rfl rfl, .inl rfl⟩
  | release => exact ⟨[], .of_eq (Outbox.parcels_complete _) rfl rfl rfl, .inl rfl⟩
  | tell listeners notice => cases listeners <;> exact ⟨[], .refl s, .inl rfl⟩
  | reset version id status =>
    obtain ⟨new, issues, hnew, -⟩ := s.reset_issues enc version id status
    refine ⟨new, issues, hnew.imp_right ?_⟩
    rintro ⟨bytes, hbytes, rfl⟩
    exact ⟨version, id, status, bytes, rfl, hbytes, rfl⟩
  | lose id =>
    refine ⟨[], ?_, .inl rfl⟩
    simp only [perform]
    split
    · exact .refl s
    · next r _ =>
      have hmark : Issues s (s.markReset r) [] 0 := .of_eq rfl rfl rfl rfl
      exact hmark.after ((s.markReset r).remove_issues r).1
  | reclaim r =>
    refine ⟨[], ?_, .inl rfl⟩
    simp only [perform]
    split
    · exact (s.remove_issues r).1
    · exact .refl s
  | _ => exact ⟨[], .refl s, .inl rfl⟩

end Session

/-! ## What is received -/

/-- Whether a frame or an exception is about a stream in a way that may be answered by giving the stream up. -/
def Received.isMatter : Received → Bool
  | control ⟨_, .synStream ..⟩ | control ⟨_, .synReply ..⟩ | control ⟨_, .headers ..⟩
  | data _ | streamException _ => true
  | _ => false

/-- All that may come of what is received. -/
inductive Answers (enc : Encoder) (s : Session) : Received → Progress → Prop
  | nothing {got : Received} {p : Progress} (session : p.session = s) (todo : p.todo = []) : Answers enc s got p
  | resets {got : Received} {p : Progress} {new : List Parcel} {version : Version} {id : UInt32}
      {status : StreamStatus} {r : StreamRef} (matter : got.isMatter) (issues : s.Issues p.session new 0)
      (posted : new = [] ∨
        ∃ bytes, Session.encodeReset enc version id status = .ok bytes ∧ new = [.control .rstStream bytes none])
      (todo : p.todo.Sublist [.tell s.streamListeners (.closed r), .flush]) : Answers enc s got p
  | opens {got : Received} {p : Progress} {id : UInt32} {opening : Opening} (matter : got.isMatter)
      (opens : got.opening? = some id) (issues : s.Issues p.session [] 1)
      (todo : p.todo =
        [.tell s.streamListeners (.created s.nextRef), .accept s.nextRef opening, .flush, .reclaim s.nextRef]) :
      Answers enc s got p
  | hears {got : Received} {p : Progress} {r : StreamRef} {l? : Option Listener} {notice : Notice}
      (matter : got.isMatter) (about : notice.stream? = some r) (issues : s.Issues p.session [] 0)
      (todo : p.todo = (l?.toList.map fun l => .call (.tell l notice)) ++ [.flush, .reclaim r]) : Answers enc s got p
  | loses {version : Version} {id code : UInt32} {status : StreamStatus} {p : Progress} (session : p.session = s)
      (todo : p.todo = [.announce (.reset id status), .lose id]) :
      Answers enc s (.control ⟨version, .rstStream id code⟩) p
  | settles {version : Version} {flags : UInt8} {entries : List Setting} {message : SettingsMessage}
      {failed : List (StreamRef × Error)} {p : Progress} (issues : s.Issues p.session [] 0)
      (few : failed.length ≤ s.table.length)
      (todo : p.todo = failed.map (fun f => .overflow f.1 f.2) ++ [.announce (.settings message), .flush]) :
      Answers enc s (.control ⟨version, .settings flags entries⟩) p
  | returns {version : Version} {id : UInt32} {p : Progress} (sent : s.goAwaySent = false)
      (own : id % 2 = s.nextPingId % 2) (session : p.session = s) (todo : p.todo = [.announce (.ping id), .flush]) :
      Answers enc s (.control ⟨version, .ping id⟩) p
  | echoes {version : Version} {id : UInt32} {new : List Parcel} {p : Progress} (sent : s.goAwaySent = false)
      (foreign : id % 2 ≠ s.nextPingId % 2) (issues : s.Issues p.session new 0)
      (posted : (∃ cause, enc.control ⟨version, .ping id⟩ = .error cause ∧ new = []) ∨
        ∃ bytes, enc.control ⟨version, .ping id⟩ = .ok bytes ∧ new = [.control .ping bytes none])
      (todo : p.todo = [.flush]) : Answers enc s (.control ⟨version, .ping id⟩) p
  | parts {version : Version} {last code : UInt32} {status : SessionStatus} {p : Progress}
      (issues : s.Issues p.session [] 0)
      (todo : p.todo = [.announce (.goAway last status), .flush, .call (.close true)]) :
      Answers enc s (.control ⟨version, .goAway last code⟩) p
  | widens {version : Version} {id delta : UInt32} {p : Progress} (issues : s.Issues p.session [] 0)
      (todo : p.todo = [.flush] ∨ ∃ r e, p.todo = [.overflow r e]) :
      Answers enc s (.control ⟨version, .windowUpdate id delta⟩) p
  | closes {e : SessionException} {p : Progress} (issues : s.Issues p.session [] 0)
      (todo : p.todo.Sublist [.call (.close false)]) : Answers enc s (.sessionException e) p
  | ends {e : SessionException} {version : Version} {last code : UInt32} {bytes : Bytes} {p : Progress}
      (encoded : enc.control ⟨version, .goAway last code⟩ = .ok bytes)
      (issues : s.Issues p.session [.control .goAway bytes none] 0) (todo : p.todo = [.flush]) :
      Answers enc s (.sessionException e) p

namespace Session

variable (enc : Encoder) (s : Session)

theorem answers_of_reset {got : Received} (matter : got.isMatter) (version : Version) (id : UInt32)
    (status : StreamStatus) : Answers enc s got (s.reset enc version id status) := by
  obtain ⟨new, issues, posted, r, todo⟩ := s.reset_issues enc version id status
  exact .resets matter issues posted todo

theorem receiveOn_answers {got : Received} (matter : got.isMatter) {r : StreamRef} (close : Bool) {notice : Notice}
    (about : notice.stream? = some r) : Answers enc s got (s.receiveOn r close notice) := by
  refine .hears matter about ?_ rfl
  show Issues s (if close then s.closeRemote r else s) [] 0
  split
  · exact .of_eq rfl rfl rfl rfl
  · exact .refl s

theorem receiveHead_answers {got : Received} (matter : got.isMatter) (version : Version) (id : UInt32) (head : Head)
    {notice : StreamRef → Head → Notice} (about : ∀ r, (notice r head).stream? = some r) :
    Answers enc s got (s.receiveHead enc version id head notice) := by
  unfold receiveHead
  split
  · exact s.answers_of_reset enc matter _ _ _
  · exact s.receiveOn_answers enc matter _ (about _)

theorem receiveSyn_answers {got : Received} (matter : got.isMatter) (version : Version) (id : UInt32)
    (opens : got.opening? = some id) (opening : Opening) :
    Answers enc s got (s.receiveSyn enc version id opening) := by
  unfold receiveSyn
  split
  · exact s.answers_of_reset enc matter _ _ _
  · split
    · exact s.answers_of_reset enc matter _ _ _
    · exact .opens matter opens (.register s _) rfl

theorem length_shiftWindows_le (delta : Int) : (s.shiftWindows delta).2.length ≤ s.table.length := by
  have hstep : ∀ (p : Session × List (StreamRef × Error)) (r : StreamRef),
      (shiftWindow delta p r).2.length ≤ p.2.length + 1 := by
    intro p r
    unfold shiftWindow
    split <;> simp
  have hfold : ∀ (l : List StreamRef) (p : Session × List (StreamRef × Error)),
      (l.foldl (shiftWindow delta) p).2.length ≤ p.2.length + l.length := by
    intro l
    induction l with
    | nil => exact fun _ => Nat.le_refl _
    | cons r l ih =>
      intro p
      have hrest := ih (shiftWindow delta p r)
      have hfirst := hstep p r
      rw [List.foldl_cons, List.length_cons]
      omega
  rw [shiftWindows_eq]
  simpa using hfold s.table (s, [])

theorem shiftWindows_issues (delta : Int) : Issues s (s.shiftWindows delta).1 [] 0 := by
  have hsame := shiftWindows_unchanged (fun u => (u.outbox, u.outstanding, u.standing, u.table)) (fun _ _ _ => rfl) s
    delta
  simp only [Prod.mk.injEq] at hsame
  obtain ⟨houtbox, hout, hstanding, htable⟩ := hsame
  exact .of_eq (congrArg Outbox.parcels houtbox) hout hstanding htable

theorem receiveSettings_issues (message : SettingsMessage) :
    Issues s (s.receiveSettings message).session [] 0 ∧ ∃ failed : List (StreamRef × Error),
      failed.length ≤ s.table.length ∧ (s.receiveSettings message).todo =
        failed.map (fun f => .overflow f.1 f.2) ++ [.announce (.settings message), .flush] := by
  unfold receiveSettings
  dsimp only
  split
  · exact ⟨.refl s, [], Nat.zero_le _, rfl⟩
  · next n _ =>
    have hresize : ∀ size : Int, Issues s { s with initialWindow := size } [] 0 := fun _ => .of_eq rfl rfl rfl rfl
    split
    · exact ⟨hresize _, [], Nat.zero_le _, rfl⟩
    · have hfew := length_shiftWindows_le { s with initialWindow := min (n.toNat : Int) Stream.maxWindow }
      exact ⟨(hresize _).after (shiftWindows_issues _ _), _, hfew _, rfl⟩

theorem receiveControl_answers (hsent : s.goAwaySent = false) (f : ControlFrame) :
    Answers enc s (.control f) (s.receiveControl enc f) := by
  obtain ⟨version, body⟩ := f
  cases body with
  | synStream flags id associatedId priority headers => exact s.receiveSyn_answers enc rfl _ _ rfl _
  | synReply flags id headers => exact s.receiveHead_answers enc rfl _ _ _ fun _ => rfl
  | headers flags id headers => exact s.receiveHead_answers enc rfl _ _ _ fun _ => rfl
  | rstStream id code => exact .loses rfl rfl
  | settings flags entries =>
    obtain ⟨issues, failed, few, todo⟩ := s.receiveSettings_issues ⟨entries, Flag.has flags Flag.clearSettings⟩
    exact .settles issues few todo
  | noop => exact .nothing rfl rfl
  | ping id =>
    simp only [receiveControl, receivePing]
    split
    · next own => exact .returns hsent own rfl rfl
    · next foreign =>
      split
      · next bytes hbytes => exact .echoes hsent foreign (.enqueue s _) (.inr ⟨bytes, hbytes, rfl⟩) rfl
      · next cause hcause => exact .echoes hsent foreign (.refl s) (.inl ⟨cause, hcause, rfl⟩) rfl
  | goAway last code =>
    simp only [receiveControl, receiveGoAway]
    split
    · exact .nothing rfl rfl
    · exact .parts (.of_eq rfl rfl rfl rfl) rfl
  | windowUpdate id delta =>
    simp only [receiveControl, receiveWindow]
    split
    · exact .widens (.refl s) (.inl rfl)
    · split
      · exact .widens (.of_eq rfl rfl rfl rfl) (.inl rfl)
      · exact .widens (.refl s) (.inr ⟨_, _, rfl⟩)

theorem receiveSessionException_answers (e : SessionException) :
    Answers enc s (.sessionException e) (s.receiveSessionException enc e) := by
  unfold receiveSessionException
  split
  · exact .closes (.refl s) (List.Sublist.refl _)
  · next hopen =>
    rw [not_or, Bool.not_eq_true, Bool.not_eq_true] at hopen
    obtain ⟨hsent, hreceived⟩ := hopen
    have hmark : Issues s { s with goAwaySent := true, goAwayReceived := false } [] 0 := .of_eq rfl rfl rfl rfl
    simp only [announceEnd, hsent, hreceived, Bool.false_eq_true, if_false]
    cases hbytes : enc.control ⟨s.config.version, .goAway s.lastStreamId (UInt32.ofNat e.status.code)⟩ with
    | ok bytes =>
      dsimp only
      exact .ends hbytes (hmark.after (.enqueue _ _)) rfl
    | error cause =>
      dsimp only
      exact .closes hmark (List.Sublist.refl _)

theorem receive_answers (got : Received) : Answers enc s got (s.receive enc got) := by
  cases got with
  | control f =>
    rw [receive]
    split
    · exact .nothing rfl rfl
    · next hsent => exact s.receiveControl_answers enc (Bool.eq_false_iff.2 hsent) f
  | data f =>
    rw [receive]
    split
    · exact .nothing rfl rfl
    · unfold receiveData
      split
      · exact s.answers_of_reset enc rfl _ _ _
      · exact s.receiveOn_answers enc rfl _ rfl
  | streamException e =>
    obtain ⟨new, issues, posted, r, todo⟩ := s.reset_issues enc
      (((s.find? e.streamId).map fun r => (s.stream r).version).getD s.config.version) e.streamId e.status
    exact .resets rfl issues posted todo
  | sessionException e => exact s.receiveSessionException_answers enc e

end Session

end Spdy
