import Spdy.Proofs.Agreement
import Spdy.Proofs.Effort

/-!
# No storm of messages

If the application asks for nothing more, a client and a server come to rest, however fast or slowly things happen and
in whatever order: each step takes some of an effort that is known beforehand. Nor is anything said for ever, since no
answer is answered.

* `Task.resets`, `Machine.resetsAhead` : tasks that are going to enqueue a frame, all of which give a stream up;
* `resetsAhead_of_next?` : work and answers that are received enqueue no more than such tasks were going to;
* `isAnswer_of_posted` : what is enqueued without a request of the application are answers;
* `standing_of_next?` : nobody is registered or taken off;
* `Pair.scale`, `Pair.effort` : what is known of a pair, and the effort that everything still takes;
* `Pair.length_le_of_scale`, `Pair.storms_subside` : no more happens than that.
-/

namespace Spdy

/-! ## Frames that tasks are going to enqueue -/

/-- A task that is going to enqueue a frame: it gives a stream up. -/
def Task.resets : Task → Bool
  | .reset .. | .overflow .. => true
  | _ => false

/-- The frames that tasks are going to enqueue. -/
def Machine.resetsAhead (m : Machine) : Nat := m.ahead.countP Task.resets

section Ahead

variable {cap : Nat} {own : UInt32} {s : Session} {m m' : Machine} {e : Event}

/-- A task enqueues what it owes, or leaves that to a task that takes its place. -/
theorem perform_resets (cap : Nat) (s : Session) {task : Task} (notFlush : task ≠ .flush)
    (notCall : task.isCall = false) :
    (s.perform (.standard cap) task).todo.countP Task.resets + task.isReset.toNat ≤ task.resets.toNat := by
  have hgone : ∀ {todo rest : List Task} {listeners : List Listener} {r : StreamRef},
      todo.Sublist (.tell listeners (.closed r) :: rest) → todo.countP Task.resets ≤ rest.countP Task.resets := by
    intro todo rest listeners r h
    have hle := h.countP_le (p := Task.resets)
    rwa [List.countP_cons_of_neg (by simp [Task.resets])] at hle
  cases task with
  | flush => exact absurd rfl notFlush
  | call => cases notCall
  | endWrite seq =>
    simp only [Session.perform]
    split <;> simp [Task.resets, Task.isReset]
  | release =>
    simp only [Session.perform]
    split <;> simp [Task.resets, Task.isReset]
  | tell listeners notice => cases listeners <;> simp [Session.perform, Task.resets, Task.isReset]
  | announce notice =>
    simp only [Session.perform]
    cases s.primary <;> simp [Task.resets, Task.isReset]
  | tellRegistered notice => simp [Session.perform, Task.resets, Task.isReset]
  | reset version id status =>
    obtain ⟨new, -, -, r, todo⟩ := s.reset_issues (.standard cap) version id status
    exact Nat.succ_le_succ (hgone todo)
  | lose id =>
    simp only [Session.perform]
    split
    · exact Nat.le_refl _
    · next r _ => exact hgone ((s.markReset r).remove_issues r).2
  | overflow r error => exact Nat.le_refl _
  | reclaim r =>
    simp only [Session.perform]
    split
    · exact hgone (s.remove_issues r).2
    · exact Nat.le_refl _
  | accept r opening =>
    simp only [Session.perform]
    cases s.primary <;> simp [Task.resets, Task.isReset]

theorem Received.isAnswer_congr {me : UInt32} (h : me % 2 = own % 2) (got : Received) :
    got.isAnswer me = got.isAnswer own := by
  cases got with
  | control f =>
    obtain ⟨version, body⟩ := f
    cases body with
    | ping id => exact congrArg (id % 2 == ·) h
    | _ => rfl
  | _ => rfl

/-- An answer that is received leaves nothing to be enqueued. -/
theorem answers_without_resets {got : Received} {p : Progress} (answer : got.isAnswer s.nextPingId)
    (h : Answers (.standard cap) s got p) :
    p.session.outbox.parcels = s.outbox.parcels ∧ p.todo.countP Task.resets = 0 := by
  have hsame : ∀ {t : Session}, s.Issues t [] 0 → t.outbox.parcels = s.outbox.parcels := fun issues =>
    issues.parcels.trans (List.append_nil _)
  have contrary : got.isAnswer s.nextPingId = false → p.session.outbox.parcels = s.outbox.parcels ∧
      p.todo.countP Task.resets = 0 := fun h => by cases h.symm.trans answer
  cases h with
  | nothing session todo =>
    rw [session, todo]
    exact ⟨rfl, rfl⟩
  | resets matter => exact contrary (Received.isAnswer_of_matter matter)
  | opens matter => exact contrary (Received.isAnswer_of_matter matter)
  | hears matter => exact contrary (Received.isAnswer_of_matter matter)
  | loses session todo =>
    rw [session, todo]
    exact ⟨rfl, rfl⟩
  | settles => exact contrary rfl
  | returns sent own session todo =>
    rw [session, todo]
    exact ⟨rfl, rfl⟩
  | echoes sent foreign => exact contrary (beq_false_of_ne foreign)
  | parts issues todo =>
    rw [todo]
    exact ⟨hsame issues, rfl⟩
  | widens => exact contrary rfl
  | closes => exact contrary rfl
  | ends => exact contrary rfl

theorem resetsAhead_of_made {mo : Moment} {todo : List Task} (h : mo.made ++ mo.after.ahead = todo) :
    mo.after.resetsAhead = todo.countP Task.resets := by
  have hmade : mo.made.countP Task.resets = 0 := by
    rw [Moment.made]
    cases mo.called? <;> simp [Task.resets]
  rw [← h, List.countP_append, hmade, Nat.zero_add, Machine.resetsAhead]

/-- Work enqueues only what it was going to enqueue, and so does an answer that is received. -/
theorem resetsAhead_of_next? (h : m.next? (.standard cap) e = some m')
    (quiet : ∀ op, Moment.op? ⟨m, e, m'⟩ = some op → ∃ got, op = .receive got ∧ got.isAnswer m.session.nextPingId) :
    ((Moment.posted ⟨m, e, m'⟩).filter (·.isControl)).length + m'.resetsAhead ≤ m.resetsAhead := by
  have hsame : m'.session.outbox.parcels = m.session.outbox.parcels → Moment.posted ⟨m, e, m'⟩ = [] := fun heq =>
    Moment.posted_of_append (heq.trans (List.append_nil _).symm)
  cases agenda_of_next? h with
  | @begins op asks session ahead =>
    obtain ⟨got, rfl, answer⟩ := quiet op asks
    obtain ⟨parcels, todo⟩ := answers_without_resets answer (m.session.receive_answers (.standard cap) got)
    have hahead : m'.resetsAhead = _ := resetsAhead_of_made ahead
    rw [hsame ((congrArg (·.outbox.parcels) session).trans parcels), hahead, List.countP_append]
    show 0 + (List.countP _ (m.session.receive (.standard cap) got).todo + _) ≤ _
    rw [todo, Nat.zero_add, Nat.zero_add]
    exact Nat.le_refl _
  | @performs task common unasked notCall session before ahead =>
    have hahead : m'.resetsAhead = _ := resetsAhead_of_made ahead
    have hbefore : m.resetsAhead = task.resets.toNat + common.countP Task.resets := by
      rw [Machine.resetsAhead, show m.ahead = _ from before, List.countP_cons, Nat.add_comm]
      cases task.resets <;> rfl
    rw [hahead, hbefore, List.countP_append]
    by_cases hflush : task = .flush
    · subst hflush
      have hposted : (Moment.posted ⟨m, e, m'⟩).filter (·.isControl) = [] := by
        apply Moment.posted_of_length_le
        rw [session]
        exact (m.session.flush_subsides _).length_le
      have htodo : (m.session.flush (.standard cap)).todo.countP Task.resets = 0 := by
        have hcases := flush_cases cap m.session
        generalize m.session.flush (.standard cap) = p at hcases
        cases hcases <;> rfl
      rw [hposted]
      show 0 + (List.countP _ (m.session.flush (.standard cap)).todo + _) ≤ _
      omega
    · obtain ⟨new, issues, retorts, hreset⟩ := perform_retorts cap 0 m.session hflush
      have hperform := perform_resets cap m.session hflush notCall
      have hposted : Moment.posted ⟨m, e, m'⟩ = new :=
        Moment.posted_of_append ((congrArg (·.outbox.parcels) session).trans issues.parcels)
      have hnew : (new.filter (·.isControl)).length ≤ task.isReset.toNat := by
        rcases hreset with rfl | hreset
        · exact Nat.zero_le _
        · rw [hreset]
          rcases retorts with rfl | ⟨type, bytes, rfl, -⟩
          · exact Nat.zero_le _
          · exact Nat.le_refl _
      rw [hposted]
      show _ + (List.countP _ (m.session.perform (.standard cap) task).todo + _) ≤ _
      omega
  | returns unasked calm control ahead =>
    rw [hsame (congrArg Outbox.parcels calm.outbox), show m'.resetsAhead = _ from resetsAhead_of_made ahead]
    exact Nat.le_of_eq (Nat.zero_add _)
  | @breaks gone unasked broken session made before =>
    have hbefore : m.resetsAhead = gone.countP Task.resets + m'.resetsAhead := by
      rw [Machine.resetsAhead, show m.ahead = _ from before, List.countP_append]
      rfl
    rw [hsame (congrArg (·.outbox.parcels) session), hbefore]
    show 0 + _ ≤ _
    omega
  | drops unasked dropped session made ahead =>
    rw [hsame (congrArg (·.outbox.parcels) session), Machine.resetsAhead, show m'.ahead = _ from ahead]
    exact Nat.le_of_eq (Nat.zero_add _)

/-- What is enqueued without a request of the application are answers. -/
theorem isAnswer_of_posted (h : m.next? (.standard cap) e = some m')
    (foreign : ∀ id, id % 2 ≠ m.session.nextPingId % 2 → id % 2 = own % 2)
    (unprompted : ∀ op, Moment.op? ⟨m, e, m'⟩ = some op → op.isReceive ∨ op.isReport) :
    ∀ q ∈ (Moment.posted ⟨m, e, m'⟩).filter (·.isControl), q.isAnswer own := by
  have hretorts : ∀ {new : List Parcel}, m'.session.outbox.parcels = m.session.outbox.parcels ++ new → Retorts own new →
      ∀ q ∈ (Moment.posted ⟨m, e, m'⟩).filter (·.isControl), q.isAnswer own := by
    intro new parcels retorts q hq
    rw [Moment.posted_of_append parcels] at hq
    replace hq := List.mem_of_mem_filter hq
    rcases retorts with rfl | ⟨type, bytes, rfl, answer, -⟩
    · cases hq
    · rw [List.mem_singleton.1 hq]
      exact answer
  have hnone : m'.session.queuedControls.length ≤ m.session.queuedControls.length →
      ∀ q ∈ (Moment.posted ⟨m, e, m'⟩).filter (·.isControl), q.isAnswer own := by
    intro hle q hq
    rw [Moment.posted_of_length_le hle] at hq
    cases hq
  have hsame : m'.session.outbox.parcels = m.session.outbox.parcels →
      ∀ q ∈ (Moment.posted ⟨m, e, m'⟩).filter (·.isControl), q.isAnswer own := fun heq =>
    hretorts (heq.trans (List.append_nil _).symm) (.inl rfl)
  cases agenda_of_next? h with
  | @begins op asks session ahead =>
    have possible := possible_of_next? h asks
    have hreport : Subsides m.session m'.session →
        ∀ q ∈ (Moment.posted ⟨m, e, m'⟩).filter (·.isControl), q.isAnswer own :=
      fun subsides => hnone subsides.length_le
    cases op with
    | receive got =>
      obtain ⟨new, born, issues, retorts, -, -⟩ :=
        answers_retorts foreign (m.session.receive_answers (.standard cap) got)
      exact hretorts ((congrArg (·.outbox.parcels) session).trans issues.parcels) retorts
    | complete seq =>
      apply hreport
      rw [session]
      exact m.session.report_subsides possible fun x hx => m.session.wrote_subsides hx rfl (wrote_cases _ _)
    | fail seq fault =>
      apply hreport
      rw [session]
      exact m.session.report_subsides possible fun x hx => .cleared rfl
    | _ => rcases unprompted _ asks with hreceive | hreport <;> contradiction
  | @performs task common unasked notCall session before ahead =>
    by_cases hflush : task = .flush
    · subst hflush
      apply hnone
      rw [session]
      exact (m.session.flush_subsides _).length_le
    · obtain ⟨new, issues, retorts, -⟩ := perform_retorts cap own m.session hflush
      exact hretorts ((congrArg (·.outbox.parcels) session).trans issues.parcels) retorts
  | returns unasked calm control ahead => exact hsame (congrArg Outbox.parcels calm.outbox)
  | breaks unasked broken session => exact hsame (congrArg (·.outbox.parcels) session)
  | drops unasked dropped session => exact hsame (congrArg (·.outbox.parcels) session)

/-- Nobody else is told, and pings keep their parity, unless the application asks for something. -/
theorem standing_of_next? (h : m.next? (.standard cap) e = some m')
    (foreign : ∀ id, id % 2 ≠ m.session.nextPingId % 2 → id % 2 = own % 2) (he : e.isUnprompted m ∨ e.isReceive) :
    m'.session.standing = m.session.standing := by
  have haccept : ∀ (call : Call) (reply : Option Listener),
      (Machine.accept m.session call reply).standing = m.session.standing := by
    intro call reply
    unfold Machine.accept
    split <;> rfl
  cases Machine.happens_of_next? h with
  | invoke op yields possible =>
    cases op with
    | receive got =>
      obtain ⟨new, born, issues, -⟩ :=
        answers_retorts foreign (m.session.receive_answers (.standard cap) got)
      exact issues.standing
    | complete seq =>
      obtain ⟨x, hx, rfl, heq⟩ := Session.report_of_possible Session.wrote possible
      show ((m.session.report x.seq Session.wrote).session).standing = _
      rw [heq]
      have hcases := wrote_cases (m.session.dropHandler x.seq) x.parcel
      generalize x.parcel = q at hcases ⊢
      generalize (m.session.dropHandler x.seq).wrote q = p at hcases
      cases hcases with
      | done =>
        dsimp only
        split <;> rfl
      | _ => rfl
    | fail seq fault =>
      obtain ⟨x, hx, rfl, heq⟩ := Session.report_of_possible (fun s p => s.notWritten p fault) possible
      show ((m.session.report x.seq (·.notWritten · fault)).session).standing = _
      rw [heq]
      rfl
    | _ => rcases he with he | he <;> cases he
  | @tick task rest outcome below stack notCall =>
    by_cases hflush : task = .flush
    · subst hflush
      have hcases := flush_cases cap m.session
      show (m.session.flush (.standard cap)).session.standing = _
      generalize m.session.flush (.standard cap) = p at hcases
      cases hcases <;> rfl
    · obtain ⟨new, issues, -⟩ := m.session.perform_issues (.standard cap) hflush
      exact issues.standing
  | answer reply stack => exact haccept _ _
  | caught p stack tell => exact haccept _ _
  | edit => rcases he with he | he <;> cases he
  | _ => rfl

end Ahead

/-! ## Pairs -/

def Session.audience (s : Session) : Nat := s.streamListeners.length + s.controlListeners.length

namespace Pair

variable {cap : Side → Nat} {config : Side → Config} {primary : Side → Option Listener} {s : Side → Session}
  {p p' : Pair}
  {a : Act}

/-- What is known beforehand of a pair: the listeners of both sides, and the streams that are open or going to be opened
by frames that wait or are on their way. -/
def scale (p : Pair) : Scale where
  listeners := (p .client).machine.session.audience + (p .server).machine.session.audience
  streams := p.outlay fun _ => .crowd

/-- The effort that a pair still takes if the application asks for nothing more. -/
def effort (p : Pair) : Nat := p.outlay fun x => p.scale.tariff x.other.firstId

/-- An id has the parity of one side's pings or of the other's. -/
theorem foreign_of_ne (x : Side) {n : UInt32} (h : x.firstId % 2 = n % 2) (id : UInt32) (hid : id % 2 ≠ n % 2) :
    id % 2 = x.other.firstId % 2 := by
  rw [← h, Ne, ← UInt32.toNat_inj, UInt32.toNat_mod, UInt32.toNat_mod] at hid
  rw [← UInt32.toNat_inj, UInt32.toNat_mod, UInt32.toNat_mod]
  have htwo : (2 : UInt32).toNat = 2 := rfl
  have hparity : x.other.firstId.toNat % 2 = 1 - x.firstId.toNat % 2 := by
    cases x <;> rfl
  rw [htwo] at hid ⊢
  omega

theorem table_le_outlay (p : Pair) (x : Side) :
    (p x).machine.session.table.length ≤ p.outlay fun _ => .crowd := by
  rw [outlay_eq _ p x, share, Tariff.machine, Tariff.session, show Tariff.crowd.place = 1 from rfl, Nat.one_mul]
  omega

section Coast

variable (hnew : ∀ x, Session.new (config x) (primary x) = .ok (s x))
  (hfirst : ∀ x, (config x).initialStreamId = x.firstId)

include hnew hfirst

theorem parity_of_side (run : Run cap (new s) p) (x : Side) :
    x.firstId % 2 = (p x).machine.session.nextPingId % 2 := by
  rw [parity_of_run (hnew x) (run.session x), hfirst]

/-- The streams that are open or going to be opened do not become more. -/
theorem crowd_step (run : Run cap (new s) p) (h : p.next? cap a = some p') (unprompted : p.isUnprompted a) :
    p'.outlay (fun _ => .crowd) ≤ p.outlay fun _ => .crowd := by
  have hstep : p'.outlay (fun _ => .crowd) + 0 ≤ p.outlay fun _ => .crowd :=
    outlay_step (fun _ => .crowd) hnew run
      (fun x => Tariff.covers_crowd (foreign_of_ne x (parity_of_side hnew hfirst run x)))
      (fun _ => rfl) (fun _ => Nat.le_refl _) h unprompted
  rwa [Nat.add_zero] at hstep

theorem audience_step (run : Run cap (new s) p) (h : p.next? cap a = some p') (unprompted : p.isUnprompted a)
    (x : Side) : (p' x).machine.session.audience = (p x).machine.session.audience := by
  have foreign := foreign_of_ne x (parity_of_side hnew hfirst run x)
  suffices hstanding : (p' x).machine.session.standing = (p x).machine.session.standing by
    rw [Session.standing, Session.standing, Prod.mk.injEq, Prod.mk.injEq, Prod.mk.injEq] at hstanding
    rw [Session.audience, Session.audience, hstanding.2.2.1, hstanding.2.2.2]
  cases moves_of_next? h with
  | @happens z e m hother hm =>
    by_cases hx : x = z
    · subst hx
      rw [Function.update_self]
      exact standing_of_next? hm foreign (.inl unprompted)
    · rw [Function.update_of_ne hx]
  | arrives z n =>
    by_cases hx : x = z.other
    · subst hx
      rw [Function.update_self]
      rfl
    · obtain rfl : z = x := by
        rw [Side.eq_other_of_ne hx, Side.other_other]
      rw [Function.update_of_ne hx, Function.update_self]
  | @reads z got rest m inbox free hm =>
    by_cases hx : x = z
    · subst hx
      rw [Function.update_self]
      exact standing_of_next? hm foreign (.inr rfl)
    · rw [Function.update_of_ne hx]

/-- What a session does takes no more effort than is known beforehand. -/
theorem covers_of_scale {k : Scale} (run : Run cap (new s) p) (listeners : p.scale.listeners ≤ k.listeners)
    (streams : p.scale.streams ≤ k.streams) (x : Side) :
    (k.tariff x.other.firstId).Covers (cap x) (k.tariff x.other.other.firstId).letter (p x).machine.session := by
  have hparity := parity_of_side hnew hfirst run x
  have haudience : (p x).machine.session.audience ≤ k.listeners := by
    refine Nat.le_trans ?_ listeners
    cases x
    · exact Nat.le_add_right _ _
    · exact Nat.le_add_left _ _
  rw [Side.other_other]
  refine Scale.covers_effort ⟨?_, ?_, Nat.le_trans (table_le_outlay p x) streams⟩ hparity (foreign_of_ne x hparity)
  · exact Nat.le_trans (Nat.le_add_right _ _) haudience
  · exact Nat.le_trans (Nat.le_add_left _ _) haudience

/-- Each thing that happens takes some of the effort that was known beforehand. -/
theorem length_le_of_scale {k : Scale} (run : Run cap (new s) p) (listeners : p.scale.listeners ≤ k.listeners)
    (streams : p.scale.streams ≤ k.streams) {acts : List Act} {last : Pair} (h : p.coast? cap acts = some last) :
    acts.length + (last.outlay fun x => k.tariff x.other.firstId) ≤ p.outlay fun x => k.tariff x.other.firstId := by
  induction acts generalizing p with
  | nil =>
    cases h
    exact Nat.le_of_eq (Nat.zero_add _)
  | cons a acts ih =>
    rw [coast?] at h
    split at h
    · next unprompted =>
      obtain ⟨q, hq, hrest⟩ := Option.bind_eq_some_iff.1 h
      have hstep : (q.outlay fun x => k.tariff x.other.firstId) + 1 ≤ p.outlay fun x => k.tariff x.other.firstId :=
        outlay_step _ hnew run (covers_of_scale hnew hfirst run listeners streams) (fun _ => rfl)
          (fun _ => Nat.le_refl _) hq unprompted
      have hlisteners : q.scale.listeners = p.scale.listeners := by
        simp only [scale, audience_step hnew hfirst run hq unprompted]
      have hrest := ih (run.next hq) (hlisteners ▸ listeners)
        (Nat.le_trans (crowd_step hnew hfirst run hq unprompted) streams) hrest
      rw [List.length_cons]
      omega
    · cases h

/-- No storm of messages. From every state that a client and a server may come to, what happens without a request of
the application comes to an end, after no more steps than the effort that everything takes which waits, is being
written or is on its way. What a session enqueues without a request are answers: frames that give a stream or the
session up, and pings that are sent back. To an answer it enqueues nothing, neither when it receives one nor later. -/
theorem storms_subside (run : Run cap (new s) p) :
    (∀ acts last, p.coast? cap acts = some last → acts.length ≤ p.effort) ∧
    ∀ x, ∀ mo ∈ (p x).past,
      ((∀ op, mo.op? = some op → op.isReceive ∨ op.isReport) →
        ∀ q ∈ mo.posted.filter (·.isControl), q.isAnswer x.other.firstId) ∧
      ((∀ op, mo.op? = some op → ∃ got, op = .receive got ∧ got.isAnswer x.firstId) →
        (mo.posted.filter (·.isControl)).length + mo.after.resetsAhead ≤ mo.before.resetsAhead) := by
  refine ⟨fun acts last h => ?_, fun x mo hmo => ?_⟩
  · have hlength := length_le_of_scale hnew hfirst run (Nat.le_refl _) (Nat.le_refl _) h
    exact Nat.le_of_add_right_le hlength
  · obtain ⟨pre, -, hpre, hnext⟩ := (run.session x).of_mem hmo
    have hparity : x.firstId % 2 = mo.before.session.nextPingId % 2 := by
      rw [parity_of_run (hnew x) hpre, hfirst]
    refine ⟨fun unprompted => isAnswer_of_posted hnext (foreign_of_ne x hparity) unprompted, fun quiet => ?_⟩
    refine resetsAhead_of_next? hnext fun op hop => ?_
    obtain ⟨got, rfl, answer⟩ := quiet op hop
    exact ⟨got, rfl, (Received.isAnswer_congr hparity got).symm.trans answer⟩

end Coast

/-- The server gives a stream up while data for it is on its way: it gives the stream up once more when the data
arrives, and the client, to which both frames say nothing new, sends back no more than a ping. -/
theorem storms_subside_after_reset : ∃ p last : Pair, ∃ acts : List Act,
    Run (fun _ => 16384) (new fun x => .fresh x.config (some ⟨"app"⟩)) p ∧ p.coast? (fun _ => 16384) acts = some last ∧
    (∀ x, last.AtRest x) ∧ (enqueuedControls (last .server).past).length = 3 ∧
    (enqueuedControls (last .client).past).length = 2 ∧ acts.length = 60 ∧ p.effort = 266 ∧ acts.length ≤ p.effort := by
  have hrun := @run_of_replay? (fun _ => 16384) (new fun x => .fresh x.config (some ⟨"app"⟩))
    (List.flatten [
      Act.happensAll .client [.invoke (.syn .v3 (.plain .empty false) none), .tick, .tick, .answer none, .tick,
        .leave],
      [.arrives .client 100], Act.happensAll .client [.invoke (.complete 1), .tick, .tick, .tick, .leave],
      [.reads .server], Act.happensAll .server [.tick, .tick, .answer none, .tick, .tick, .leave],
      Act.happensAll .client [.invoke (.data ⟨0⟩ ⟨[1, 2, 3], false⟩), .tick, .answer none, .tick, .leave],
      Act.happensAll .server [.invoke (.reset .v3 1 .cancel), .tick, .tick, .answer none, .tick, .leave,
        .invoke (.ping .v3), .tick, .leave]]) (by decide +kernel)
  generalize hp : Option.get _ _ = p at hrun
  obtain ⟨acts, hacts⟩ : ∃ acts : List Act, acts = List.flatten [
      [.arrives .client 7], Act.happensAll .server [.invoke (.complete 1), .tick, .tick, .answer none, .tick, .leave],
      [.arrives .client 4, .reads .server],
      Act.happensAll .server [.tick, .leave, .invoke (.complete 2), .tick, .tick, .answer none, .tick, .leave],
      [.arrives .server 28, .reads .client],
      Act.happensAll .client [.tick, .answer none, .tick, .tick, .tick, .tick, .leave], [.reads .client],
      Act.happensAll .client [.tick, .leave, .invoke (.complete 2), .tick, .tick, .tick, .answer none, .tick, .leave,
        .invoke (.complete 3), .tick, .tick, .leave],
      Act.happensAll .server [.invoke (.complete 3), .tick, .tick, .leave], [.arrives .client 12, .reads .server],
      Act.happensAll .server [.tick, .answer none, .tick, .tick, .tick, .leave], [.arrives .server 16, .reads .client],
      Act.happensAll .client [.tick, .answer none, .tick, .tick, .tick, .leave]] := ⟨_, rfl⟩
  obtain ⟨hcoast, heffort⟩ : (p.coast? (fun _ => 16384) acts).any (fun last : Pair =>
      decide ((∀ x, last.AtRest x) ∧ (enqueuedControls (last .server).past).length = 3 ∧
        (enqueuedControls (last .client).past).length = 2)) ∧ p.effort = 266 := by
    subst hp hacts
    decide +kernel
  obtain ⟨last, hlast, hdecided⟩ := (Option.any_eq_true _ _).1 hcoast
  obtain ⟨hrest, hserver, hclient⟩ := of_decide_eq_true hdecided
  have hbound := (storms_subside (Session.new_config · (some ⟨"app"⟩)) (by decide) hrun).1 acts last hlast
  exact ⟨p, last, acts, hrun, hlast, hrest, hserver, hclient, by rw [hacts]; rfl, heffort, hbound⟩

end Pair

end Spdy
