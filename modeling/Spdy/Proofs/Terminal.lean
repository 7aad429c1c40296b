import Spdy.Proofs.Closure

/-!
# What a session says after its end

From its own announcement on a session has nothing to say of its own accord: it answers nothing and gives up nothing,
and only what the application asks to be sent is enqueued. A closed connection is another matter. What waits behind the
announcement, or was begun before it, is still handed over, unless nothing is left to be sent.

* `Operation.sendsControl`, `Operation.sendsData` : what the application may ask to be sent even then;
* `Subsides`, `Session.begin_subsides`, `Session.perform_subsides` : work that enqueues nothing;
* `Session.Spent`, `spent_of_next?` : nothing is left to be sent, and so it stays until something is enqueued;
* `silent_after_end` : a run after its end, whatever the encoder.
-/

namespace Spdy

/-- A request for a control frame that is granted even after this side announced the end of the session. -/
def Operation.sendsControl : Operation → Bool
  | .settings .. | .ping _ | .reply .. | .headers .. => true
  | _ => false

def Operation.sendsData : Operation → Bool
  | .data .. | .sessionData .. => true
  | _ => false

/-- Whether something of a parcel is left once its frame was written. -/
def Parcel.leavesRest : Parcel → Bool
  | .control .. => false
  | .data _ payload _ => !payload.isEmpty

/-! ## Work that enqueues nothing -/

/-- What may become of the parcels where nothing is enqueued. -/
inductive Subsides (s t : Session) : Prop
  | same (parcels : t.outbox.parcels = s.outbox.parcels)
  | taken {before after : List Parcel} {q : Parcel} (parcels : s.outbox.parcels = before ++ q :: after)
      (left : t.outbox.parcels = before ++ after)
  | rest {before after : List Parcel} {h : Handler} (mem : h ∈ s.outstanding) (leaves : h.parcel.leavesRest)
      (parcels : s.outbox.parcels = before ++ after) (put : t.outbox.parcels = before ++ h.parcel :: after)
  | cleared (parcels : t.outbox.parcels = [])

theorem Parcel.isControl_of_leavesRest {q : Parcel} (h : q.leavesRest) : q.isControl = false := by
  cases q with
  | control => cases h
  | data => rfl

theorem Subsides.length_le {s t : Session} (h : Subsides s t) : t.queuedControls.length ≤ s.queuedControls.length := by
  unfold Session.queuedControls
  cases h with
  | same parcels => rw [parcels]
  | taken parcels left =>
    rw [parcels, left]
    apply List.Sublist.length_le
    exact (List.Sublist.append_left (List.sublist_cons_self _ _) _).filter _
  | rest mem leaves parcels put =>
    have hdata := Parcel.isControl_of_leavesRest leaves
    rw [parcels, put, List.filter_append, List.filter_append, List.filter_cons_of_neg (by simp [hdata])]
  | cleared parcels =>
    rw [parcels]
    exact Nat.zero_le _

namespace Session

variable (enc : Encoder) (s : Session)

theorem flush_subsides : Subsides s (s.flush enc).session := by
  unfold flush
  cases htake : s.take? with
  | none => exact .same rfl
  | some taken =>
    obtain ⟨q, t⟩ := taken
    obtain ⟨⟨q', o⟩, hout, heq⟩ := Option.map_eq_some_iff.1 htake
    obtain ⟨rfl, rfl⟩ := Prod.mk.inj heq
    obtain ⟨-, before, after, hparcels, -, -, rfl⟩ := Outbox.take?_eq_some hout
    cases q' with
    | control => exact .taken hparcels rfl
    | data r payload written =>
      dsimp only
      split
      · exact .taken hparcels rfl
      · split <;> exact .taken hparcels rfl

theorem perform_subsides (sent : s.goAwaySent) (task : Task) : Subsides s (s.perform enc task).session := by
  cases task with
  | flush => exact s.flush_subsides enc
  | endWrite seq => exact .same (Outbox.parcels_endWrite _ seq)
  | release => exact .same (Outbox.parcels_complete _)
  | tell listeners notice => cases listeners <;> exact .same rfl
  | reset version id status =>
    simp only [perform, reset, sent, if_true]
    exact .same rfl
  | lose id =>
    simp only [perform]
    split
    · exact .same rfl
    · exact .same (congrArg Outbox.parcels ((s.markReset _).remove_outbox _))
  | reclaim r =>
    simp only [perform]
    split
    · exact .same (congrArg Outbox.parcels (s.remove_outbox r))
    · exact .same rfl
  | _ => exact .same rfl

/-- A report enqueues nothing, but the rest of what was written goes back. -/
theorem report_subsides {seq : Nat} (hout : s.outstanding.any (·.seq == seq)) {f : Session → Parcel → Progress}
    (hf : ∀ h ∈ s.outstanding, Subsides s (f (s.dropHandler seq) h.parcel).session) :
    Subsides s (s.report seq f).session := by
  obtain ⟨h, hmem, -, heq⟩ := report_of_possible f hout
  rw [heq]
  exact hf h hmem

theorem wrote_subsides {seq : Nat} {h : Handler} (hmem : h ∈ s.outstanding) {q : Parcel} (hq : h.parcel = q)
    {p : Progress} (hwrote : Wrote (s.dropHandler seq) q p) : Subsides s p.session := by
  cases hwrote with
  | control => exact .same rfl
  | stuck => exact .same rfl
  | done =>
    apply Subsides.same
    dsimp only
    split <;> rfl
  | more credit left parcels =>
    refine .rest hmem ?_ parcels (hq ▸ rfl)
    rw [hq]
    simpa [Parcel.leavesRest, Payload.isEmpty] using left

theorem begin_subsides (sent : s.goAwaySent) (alive : Bool) {op : Operation} (possible : op.isPossible s)
    (control : op.sendsControl = false) (data : op.sendsData = false) : Subsides s (s.begin enc alive op).session := by
  have of_lapses : op.lapses → Subsides s (s.begin enc alive op).session := fun lapses =>
    .same (by rw [(begin_lapsed enc sent alive lapses).1])
  cases op with
  | goAway version =>
    apply Subsides.same
    show (s.announceEnd enc version .ok).1.session.outbox.parcels = _
    rw [s.announceEnd_stays enc version .ok sent]
  | receive got =>
    cases got with
    | sessionException e =>
      rw [begin, receive, receiveSessionException, if_pos (.inl sent)]
      exact .same rfl
    | _ => exact of_lapses rfl
  | complete seq => exact s.report_subsides possible fun h hmem => s.wrote_subsides hmem rfl (wrote_cases _ _)
  | fail seq fault => exact s.report_subsides possible fun h hmem => .cleared rfl
  | settings => cases control
  | ping => cases control
  | reply => cases control
  | headers => cases control
  | data => cases data
  | sessionData => cases data
  | _ => exact of_lapses rfl

theorem queuedControls_beginData (alive : Bool) (r : StreamRef) (payload : Payload) :
    (s.beginData alive r payload).session.queuedControls = s.queuedControls := by
  unfold beginData
  dsimp only
  split
  · rfl
  · split
    · rfl
    · show (s.outbox.parcels ++ [_]).filter _ = _
      rw [List.filter_append]
      exact List.append_nil _

theorem begin_controls (sent : s.goAwaySent) (alive : Bool) {op : Operation} (possible : op.isPossible s)
    (control : op.sendsControl = false) :
    (s.begin enc alive op).session.queuedControls.length ≤ s.queuedControls.length := by
  cases data : op.sendsData with
  | false => exact (s.begin_subsides enc sent alive possible control data).length_le
  | true =>
    cases op with
    | data r payload => exact Nat.le_of_eq (congrArg _ (s.queuedControls_beginData alive r payload))
    | sessionData r payload => exact Nat.le_of_eq (congrArg _ (s.queuedControls_beginData true r payload))
    | _ => cases data

end Session

/-! ## What is enqueued after the announcement -/

section Moment

variable {enc : Encoder} {m m' : Machine} {e : Event}

theorem possible_of_next? {op : Operation} (h : m.next? enc e = some m')
    (asks : Moment.op? ⟨m, e, m'⟩ = some op) : op.isPossible m.session := by
  cases Machine.happens_of_next? h with
  | invoke op' yields possible =>
    obtain rfl : op' = op := Option.some.inj asks
    exact possible
  | _ => cases asks

/-- A session that announced its end enqueues no control frame, unless the application asks for one. -/
theorem controls_of_next? (h : m.next? enc e = some m') (sent : m.session.goAwaySent)
    (control : ∀ op, Moment.op? ⟨m, e, m'⟩ = some op → op.sendsControl = false) :
    (Moment.posted ⟨m, e, m'⟩).filter (·.isControl) = [] := by
  apply Moment.posted_of_length_le
  have of_outbox : m'.session.outbox.parcels = m.session.outbox.parcels →
      m'.session.queuedControls.length ≤ m.session.queuedControls.length := fun hparcels => by
    rw [Session.queuedControls, hparcels, ← Session.queuedControls]
  cases agenda_of_next? h with
  | begins asks session =>
    rw [session]
    exact m.session.begin_controls enc sent _ (possible_of_next? h asks) (control _ asks)
  | performs unasked notCall session =>
    rw [session]
    exact (m.session.perform_subsides enc sent _).length_le
  | returns unasked calm => exact of_outbox (congrArg Outbox.parcels calm.outbox)
  | breaks unasked broken session => exact of_outbox (by rw [session])
  | drops unasked dropped session => exact of_outbox (by rw [session]; rfl)

end Moment

/-! ## Nothing is left -/

/-- Nothing is left to be sent: nothing waits, and no write that is not reported yet leaves a rest. -/
structure Session.Spent (s : Session) : Prop where
  parcels : s.outbox.parcels = []
  whole : ∀ h ∈ s.outstanding, h.parcel.leavesRest = false

namespace Session

variable (enc : Encoder) {s : Session}

theorem Subsides.parcels_eq_nil {t : Session} (h : Subsides s t) (spent : s.Spent) : t.outbox.parcels = [] := by
  cases h with
  | same parcels => exact parcels.trans spent.parcels
  | taken parcels => simp [spent.parcels] at parcels
  | rest mem leaves => cases (spent.whole _ mem).symm.trans leaves
  | cleared parcels => exact parcels

/-- A session with nothing left to be sent hands nothing over, whatever it does. -/
theorem perform_of_spent (spent : s.Spent) {task : Task} (notCall : task.isCall = false) :
    (s.perform enc task).session.outstanding = s.outstanding ∧
      ∀ x ∈ (s.perform enc task).todo, x.isWrite = false := by
  cases task with
  | flush =>
    have hnone : s.take? = none := by
      rw [take?, Outbox.take?_eq_none_iff.2 (.inr (by simp [spent.parcels])), Option.map_none]
    rw [perform, flush, hnone]
    exact ⟨rfl, by simp⟩
  | endWrite seq =>
    refine ⟨rfl, ?_⟩
    simp only [perform]
    split <;> simp [Task.isWrite]
  | release =>
    refine ⟨rfl, ?_⟩
    simp only [perform]
    split <;> simp [Task.isWrite]
  | call => cases notCall
  | _ =>
    obtain ⟨new, -, h⟩ := s.perform_posts enc rfl (by simp) notCall
    exact ⟨h.adds.outstanding, fun x hx => Task.not_write_of_plain (h.plain x hx)⟩

theorem outstanding_begin (alive : Bool) {op : Operation} (possible : op.isPossible s) :
    ∀ h ∈ (s.begin enc alive op).session.outstanding, h ∈ s.outstanding := by
  cases hreport : op.isReport with
  | false =>
    obtain ⟨new, -, h⟩ := s.begin_work enc alive hreport possible
    rw [h.adds.outstanding]
    exact fun _ hx => hx
  | true =>
    have hdrop : ∀ seq, ∀ h ∈ (s.dropHandler seq).outstanding, h ∈ s.outstanding := fun _ _ hx =>
      (List.mem_filter.1 hx).1
    cases op with
    | complete seq =>
      obtain ⟨x, -, -, heq⟩ := report_of_possible wrote possible
      rw [begin, heq, (wrote_cases (s.dropHandler seq) x.parcel).outstanding]
      exact hdrop seq
    | fail seq fault =>
      obtain ⟨x, -, -, heq⟩ := report_of_possible (fun s p => s.notWritten p fault) possible
      rw [begin, heq]
      exact hdrop seq
    | _ => cases hreport

end Session

section Moment

variable {enc : Encoder} {m m' : Machine} {e : Event}

theorem Moment.parcels_eq_nil {mo : Moment} (posted : mo.posted = [])
    (before : mo.before.session.outbox.parcels = []) : mo.after.session.outbox.parcels = [] := by
  rw [Moment.posted, before, if_pos (List.nil_prefix)] at posted
  exact posted

/-- A moment in which nothing comes to be sent: nothing is enqueued, or this side announced the end of the session and
the application asks for nothing. -/
def Moment.AsksNothing (mo : Moment) : Prop :=
  mo.posted = [] ∨ mo.before.session.goAwaySent ∧
    ∀ op, mo.op? = some op → op.sendsControl = false ∧ op.sendsData = false

/-- Nothing comes to wait in a session that has nothing left to be sent, if nothing is asked for. -/
theorem parcels_of_spent (h : m.next? enc e = some m') (spent : m.session.Spent)
    (asks : Moment.AsksNothing ⟨m, e, m'⟩) : m'.session.outbox.parcels = [] := by
  rcases asks with posted | ⟨sent, asks⟩
  · exact Moment.parcels_eq_nil posted spent.parcels
  · apply Session.Subsides.parcels_eq_nil _ spent
    cases agenda_of_next? h with
    | begins asked session =>
      rw [session]
      obtain ⟨control, data⟩ := asks _ asked
      exact m.session.begin_subsides enc sent _ (possible_of_next? h asked) control data
    | performs unasked notCall session =>
      rw [session]
      exact m.session.perform_subsides enc sent _
    | returns unasked calm => exact .same (congrArg Outbox.parcels calm.outbox)
    | breaks unasked broken session => exact .same (congrArg (fun s => s.outbox.parcels) session)
    | drops unasked dropped session => exact .same (congrArg (fun s => s.outbox.parcels) session)

/-- A session with nothing left to be sent stays so and hands nothing over, until something is asked for. -/
theorem spent_of_next? (h : m.next? enc e = some m') (spent : m.session.Spent)
    (ahead : ∀ x ∈ m.ahead, x.isWrite = false) (asks : Moment.AsksNothing ⟨m, e, m'⟩) :
    m'.session.Spent ∧ ∀ x ∈ Moment.made ⟨m, e, m'⟩ ++ m'.ahead, x.isWrite = false := by
  have hparcels := parcels_of_spent h spent asks
  have of_outstanding : (∀ x ∈ m'.session.outstanding, x ∈ m.session.outstanding) → m'.session.Spent := fun hout =>
    ⟨hparcels, fun x hx => spent.whole x (hout x hx)⟩
  cases agenda_of_next? h with
  | begins asked session ahead' =>
    have possible := possible_of_next? h asked
    refine ⟨of_outstanding ?_, ?_⟩
    · rw [session]
      exact Session.outstanding_begin enc _ possible
    · rw [ahead']
      intro x hx
      rcases List.mem_append.1 hx with hx | hx
      · exact m.session.begin_not_write enc _ _ x hx
      · exact ahead x hx
  | performs unasked notCall session before ahead' =>
    obtain ⟨hout, htodo⟩ := Session.perform_of_spent enc spent notCall
    refine ⟨of_outstanding ?_, ?_⟩
    · rw [session, hout]
      exact fun _ hx => hx
    · rw [ahead']
      intro x hx
      rcases List.mem_append.1 hx with hx | hx
      · exact htodo x hx
      · exact ahead x (before ▸ List.mem_cons_of_mem _ hx)
  | returns unasked calm control ahead' =>
    refine ⟨of_outstanding ?_, ?_⟩
    · rw [calm.outstanding]
      exact fun _ hx => hx
    · rw [ahead']
      exact ahead
  | breaks unasked broken session made before =>
    refine ⟨of_outstanding ?_, ?_⟩
    · rw [session]
      exact fun _ hx => hx
    · rw [made, List.nil_append]
      exact fun x hx => ahead x (before ▸ List.mem_append_right _ hx)
  | drops unasked dropped session made ahead' =>
    refine ⟨of_outstanding ?_, ?_⟩
    · rw [session]
      exact fun _ hx => (List.mem_filter.1 hx).1
    · rw [made, List.nil_append, ahead']
      exact ahead

/-- Only the first task of an operation hands a frame over, and it is begun as soon as it is there. -/
theorem Machine.Placed.ahead_not_write (placed : m.Placed) : ∀ x ∈ m.ahead, x.isWrite = false := by
  intro x hx
  obtain ⟨a, ha, hx⟩ := List.mem_flatMap.1 hx
  obtain ⟨todo, outcome⟩ := a
  have htail := placed _ ha
  cases todo with
  | nil => cases hx
  | cons task rest =>
    cases hcall : task.isCall with
    | false =>
      rw [Activation.ahead_of_not_call hcall] at hx
      rcases List.mem_cons.1 hx with rfl | hx
      · cases x with
        | call => cases hcall
        | _ => rfl
      · exact htail x hx
    | true =>
      cases task with
      | call => exact htail x hx
      | _ => cases hcall

theorem Moment.handed?_of_made {mo : Moment} (h : ∀ x ∈ mo.made, x.isWrite = false) : mo.handed? = none := by
  rw [Moment.handed?]
  split
  · next bytes handler hcalled =>
    have hmade : .call (.write bytes handler) ∈ mo.made := by
      rw [Moment.made, hcalled]
      exact List.mem_singleton_self _
    cases h _ hmade
  · rfl

end Moment

section Run

variable {enc : Encoder} {s : Session} {m : Machine}

/-- Once nothing is left to be sent nothing is handed over any more, unless something is asked for. -/
theorem silent_since {pre post : List Moment} {mo : Moment} (run : Run enc { session := s } (pre ++ mo :: post) m)
    (spent : mo.after.session.Spent) (asks : ∀ x ∈ post, x.AsksNothing) : ∀ x ∈ post, x.handed? = none := by
  have hsilent := run.since
    (P := fun post m => (∀ x ∈ post, x.AsksNothing) →
      m.session.Spent ∧ (∀ x ∈ m.ahead, x.isWrite = false) ∧ ∀ x ∈ post, x.handed? = none) ?_ ?_
  · exact (hsilent asks).2.2
  · intro hpre hnext _
    exact ⟨spent, (placed_of_run (hpre.next hnext)).ahead_not_write, by simp⟩
  · intro post m m' e _ hnext ih asks
    obtain ⟨hspent, hahead, hpost⟩ := ih fun x hx => asks x (List.mem_append_left _ hx)
    obtain ⟨hspent', hwrites⟩ :=
      spent_of_next? hnext hspent hahead (asks _ (List.mem_append_right _ List.mem_cons_self))
    refine ⟨hspent', fun x hx => hwrites x (List.mem_append_right _ hx), fun x hx => ?_⟩
    rcases List.mem_append.1 hx with hx | hx
    · exact hpost x hx
    · rw [List.mem_singleton.1 hx]
      exact Moment.handed?_of_made fun y hy => hwrites y (List.mem_append_left _ hy)

end Run

/-- A session is silent after its end, as far as it is left alone, in every run and whatever the encoder. From its own
announcement on it enqueues no control frame unless the application asks for settings, a ping, a reply or headers: what
is received, the reports of writes, requests to open streams or to give them up, and a second announcement enqueue none.
And once it told the controller to close the connection at once, while nothing was waiting and no write was to leave a
rest, it hands nothing over any more, as long as nothing is enqueued; after its own announcement that is so as long as
the application asks for nothing to be sent. -/
theorem silent_after_end {enc : Encoder} {s : Session} {past : List Moment} {m : Machine}
    (run : Run enc { session := s } past m) :
    (∀ mo ∈ past, mo.before.session.goAwaySent → (∀ op, mo.op? = some op → op.sendsControl = false) →
      mo.posted.filter (·.isControl) = []) ∧
      ∀ pre mo post, past = pre ++ mo :: post → mo.called? = some (.close false) →
        mo.after.session.outbox.parcels = [] → (∀ h ∈ mo.after.session.outstanding, h.parcel.leavesRest = false) →
        (∀ x ∈ post, x.AsksNothing) → ∀ x ∈ post, x.handed? = none := by
  refine ⟨fun mo hmo sent control => ?_, ?_⟩
  · obtain ⟨pre, -, -, hnext⟩ := run.of_mem hmo
    exact controls_of_next? hnext sent control
  · rintro pre mo post rfl - parcels whole asks
    exact silent_since run ⟨parcels, whole⟩ asks

/-- The connection is closed once the announcement was written, and a ping of the other side and a request to give up a
stream come after that. -/
theorem silent_after_end_with_ping : ∃ s past m, Session.new .client none = .ok s ∧
    Run (.standard 16384) { session := s } past m ∧ past[5]?.bind Moment.called? = some (.close false) ∧
      (past.drop 6).filterMap Moment.op? =
        [.receive (.control ⟨.v3, .ping 2⟩), .reset .v3 1 .cancel] ∧
      (∀ x ∈ past.drop 6, x.posted.filter (·.isControl) = []) ∧ ∀ x ∈ past.drop 6, x.handed? = none := by
  have hnew : Session.new .client none = .ok (.fresh .client none) := rfl
  have hrun := Machine.run_of_replay? (.standard 16384) { session := .fresh .client none }
    [.invoke (.goAway .v3), .tick, .answer none, .tick, .leave, .invoke (.complete 1), .answer none, .tick, .tick,
      .leave, .invoke (.receive (.control ⟨.v3, .ping 2⟩)), .leave, .invoke (.reset .v3 1 .cancel), .leave] rfl
  have hsilent := silent_after_end hrun
  refine ⟨_, _, _, hnew, hrun, by decide, by decide, ?_, ?_⟩
  · exact fun x hx => hsilent.1 x (List.mem_of_mem_drop hx) (by revert x; decide) (by revert x; decide)
  · exact hsilent.2 _ _ _ (List.take_append_drop 5 _).symm rfl rfl (by decide)
      fun x hx => .inr ⟨by revert x; decide, by revert x; decide⟩

/-- Data is begun before the end is announced. Its rest is handed over after the connection was closed, and so is a ping
that is asked for then. -/
theorem frames_after_end : ∃ s past m, Session.new .client none = .ok s ∧
    Run (.standard 1) { session := s } past m ∧ (∀ mo ∈ past, mo.isOrderly) ∧
      (∃ mo ∈ past, mo.before.session.goAwaySent ∧ mo.posted.filter (·.isControl) ≠ []) ∧
      ∃ i j : Nat, i < j ∧ (past[i]?.bind Moment.called?) = some (.close false) ∧
        (past[j]?.bind Moment.handed?).isSome := by
  have hnew : Session.new .client none = .ok (.fresh .client none) := rfl
  have hrun := Machine.run_of_replay? (.standard 1) { session := .fresh .client none }
    [.invoke (.syn .v3 default none), .tick, .tick, .answer none, .tick, .leave, .invoke (.complete 1), .tick, .tick,
      .tick, .leave, .invoke (.data ⟨0⟩ ⟨[1, 2], false⟩), .tick, .answer none, .tick, .leave, .invoke (.goAway .v3),
      .tick, .leave, .invoke (.complete 2), .tick, .tick, .answer none, .tick, .leave, .invoke (.complete 3),
      .answer none, .tick, .tick, .answer none, .tick, .leave, .invoke (.ping .v3), .tick, .leave] rfl
  exact ⟨_, _, _, hnew, hrun, by decide, by decide, 25, 28, by decide, by decide, by decide⟩

end Spdy
