import Mathlib.Algebra.Order.BigOperators.Group.List
import Mathlib.Algebra.Order.Group.Nat
import Spdy.Proofs.Ending
import Spdy.Proofs.Precedence
import Spdy.Proofs.Response

/-!
# The end of a session is announced once

Each side may announce the end of the session. This side does so once at most, and not at all if the other side was
first; what the other side announces counts once, is passed on once and closes the connection once. From its own
announcement on a session passes over all frames and opens and gives up no streams.

* `announcements`, `partings` : the announcements of this side, and those of the other side that count;
* `Parted`, `parted_of_run`, `announcements_of_received` : a run up to the end of the session, whatever the encoder;
* `Task.partingCost`, `told_of_run`, `closings_of_run` : how often the other side's announcement is passed on;
* `Operation.lapses`, `Session.begin_lapsed` : what a session does no more after its own announcement;
* `end_announced_once` : all this in every run.
-/

namespace Spdy

theorem Parcel.isControl_of_isGoAway {q : Parcel} (h : q.isGoAway) : q.isControl := by
  cases q with
  | control => rfl
  | data => cases h

/-! ## Announcements that are posted -/

namespace Moment

theorem countP_posted_le (mo : Moment) :
    mo.posted.countP (·.isGoAway) ≤ mo.after.session.goAways - mo.before.session.goAways := by
  unfold posted
  split
  · next hprefix =>
    obtain ⟨new, hnew⟩ := hprefix
    rw [← hnew, List.drop_left, Session.goAways, ← hnew, List.countP_append, ← Session.goAways]
    omega
  · exact Nat.zero_le _

theorem countP_posted_eq_zero {mo : Moment} (h : mo.after.session.goAways ≤ mo.before.session.goAways) :
    mo.posted.countP (·.isGoAway) = 0 := by
  have := mo.countP_posted_le
  omega

end Moment

/-! ## Runs -/

/-- The announcements of this side that were enqueued, first the first. -/
def announcements (past : List Moment) : List Parcel := past.flatMap fun mo => mo.posted.filter (·.isGoAway)

/-- The announcements of the other side that counted, as they are passed on. -/
def partings (past : List Moment) : List Notice := past.filterMap Moment.parting?

theorem length_announcements_append (past : List Moment) (mo : Moment) :
    (announcements (past ++ [mo])).length = (announcements past).length + mo.posted.countP (·.isGoAway) := by
  rw [announcements, List.flatMap_append, List.flatMap_singleton, List.length_append, ← announcements,
    List.countP_eq_length_filter]

theorem partings_append (past : List Moment) (mo : Moment) :
    partings (past ++ [mo]) = partings past ++ mo.parting?.toList := by
  rw [partings, List.filterMap_append, ← partings]
  cases h : mo.parting? <;> simp [h]

/-- No announcement was enqueued if this side announced nothing, and one at most otherwise; nor did one of the other
side count before the session knew of it. -/
structure Parted (past : List Moment) (s : Session) : Prop where
  sent : (announcements past).length ≤ s.goAwaySent.toNat
  received : (partings past).length ≤ s.goAwayReceived.toNat
  asked : s.goAwaySent → ∃ mo ∈ past, mo.op?.any Operation.announces

section Run

variable {enc : Encoder} {config : Config} {primary : Option Listener} {s : Session} {past : List Moment} {m : Machine}

theorem Session.ending_eq_iff {s : Session} {sent received : Bool} {first : Option Listener} :
    s.ending = (sent, received, first) ↔ s.goAwaySent = sent ∧ s.goAwayReceived = received ∧ s.primary = first := by
  simp [ending]

theorem Parted.step {mo : Moment} (h : Parted past mo.before.session) (parts : mo.Parts) :
    Parted (past ++ [mo]) mo.after.session := by
  have hold : mo.before.session.goAwaySent → ∃ x ∈ past ++ [mo], x.op?.any Operation.announces := fun hsent =>
    (h.asked hsent).imp fun x hx => ⟨List.mem_append_left _ hx.1, hx.2⟩
  cases parts with
  | keeps deaf keeps =>
    obtain ⟨hsent, hreceived, -⟩ := Session.ending_eq_iff.1 keeps.ending
    constructor
    · rw [length_announcements_append, Moment.countP_posted_eq_zero keeps.goAways, hsent]
      exact h.sent
    · rw [partings_append, deaf, hreceived, Option.toList_none, List.append_nil]
      exact h.received
    · rw [hsent]
      exact hold
  | ends asks deaf sent ending goAways =>
    obtain ⟨hsent, hreceived, -⟩ := Session.ending_eq_iff.1 ending
    have hnone : (announcements past).length ≤ 0 := by
      have := h.sent
      rwa [sent] at this
    constructor
    · have hposted := mo.countP_posted_le
      have hle := Bool.toNat_le (!mo.before.session.goAwayReceived)
      rw [length_announcements_append, hsent, Bool.toNat_true]
      omega
    · rw [partings_append, deaf, hreceived, Option.toList_none, List.append_nil]
      exact h.received
    · exact fun _ => ⟨mo, List.mem_append_right _ List.mem_cons_self, asks⟩
  | hears asks received session =>
    have hkept : mo.after.session.goAways = mo.before.session.goAways :=
      (congrArg Session.goAways session).trans rfl
    have hnone : (partings past).length ≤ 0 := by
      have := h.received
      rwa [received] at this
    constructor
    · rw [length_announcements_append, Moment.countP_posted_eq_zero (Nat.le_of_eq hkept), session]
      exact h.sent
    · rw [partings_append, asks, session, List.length_append]
      exact Nat.add_le_add_right hnone 1
    · rw [session]
      exact hold

theorem parted_of_run (hnew : Session.new config primary = .ok s) (run : Run enc { session := s } past m) :
    Parted past m.session := by
  induction run with
  | start => exact ⟨Nat.zero_le _, Nat.zero_le _, by obtain ⟨-, rfl⟩ := Session.new_eq_ok hnew; nofun⟩
  | next run h ih => exact ih.step (parts_of_agenda (agenda_of_next? h))

/-! ## The other side is first -/

/-- A session that knows of the other side's announcement makes none. -/
theorem unannounced_of_parts {mo : Moment} (parts : mo.Parts) (received : mo.before.session.goAwayReceived) :
    mo.after.session.goAwayReceived ∧ mo.posted.countP (·.isGoAway) = 0 := by
  cases parts with
  | keeps deaf keeps =>
    obtain ⟨-, hreceived, -⟩ := Session.ending_eq_iff.1 keeps.ending
    exact ⟨hreceived.trans received, Moment.countP_posted_eq_zero keeps.goAways⟩
  | ends asks deaf sent ending goAways =>
    obtain ⟨-, hreceived, -⟩ := Session.ending_eq_iff.1 ending
    rw [received] at goAways
    exact ⟨hreceived.trans received, Moment.countP_posted_eq_zero goAways⟩
  | hears asks unknown => cases received.symm.trans unknown

/-- The session knows of it from the moment in which it is received, unless this side announced the end before. -/
theorem unannounced_of_received {mo : Moment} (parts : mo.Parts) (sent : mo.before.session.goAwaySent = false)
    {version : Version} {last code : UInt32}
    (asks : mo.op? = some (.receive (.control ⟨version, .goAway last code⟩))) :
    mo.after.session.goAwayReceived ∧ mo.posted.countP (·.isGoAway) = 0 := by
  by_cases received : mo.before.session.goAwayReceived
  · exact unannounced_of_parts parts received
  · have hears : mo.parting? = some (.goAway last ((SessionStatus.ofCode? code.toNat).getD .protocolError)) := by
      rw [Moment.parting?, asks]
      show (if _ then _ else _) = _
      rw [sent, Bool.false_or, if_neg received]
    cases parts with
    | keeps deaf => cases deaf.symm.trans hears
    | ends asks' deaf => cases deaf.symm.trans hears
    | hears asks' unknown session =>
      have hkept : mo.after.session.goAways = mo.before.session.goAways :=
        (congrArg Session.goAways session).trans rfl
      exact ⟨congrArg Session.goAwayReceived session, Moment.countP_posted_eq_zero (Nat.le_of_eq hkept)⟩

theorem announcements_append_eq_nil {mo : Moment} (h : announcements past = [])
    (posted : mo.posted.countP (·.isGoAway) = 0) : announcements (past ++ [mo]) = [] := by
  apply List.length_eq_zero_iff.1
  rw [length_announcements_append, h, posted]
  rfl

/-- This side announces nothing if it receives an announcement before it is asked for one. -/
theorem announcements_of_received (hnew : Session.new config primary = .ok s) {pre post : List Moment} {mo : Moment}
    (run : Run enc { session := s } (pre ++ mo :: post) m) {version : Version} {last code : UInt32}
    (asks : mo.op? = some (.receive (.control ⟨version, .goAway last code⟩)))
    (first : ∀ x ∈ pre, x.op?.any Operation.announces = false) : announcements (pre ++ mo :: post) = [] := by
  refine (run.since (P := fun post m => m.session.goAwayReceived ∧ announcements (pre ++ mo :: post) = []) ?_ ?_).2
  · intro hpre hnext
    have hparted := parted_of_run hnew hpre
    have hsent : mo.before.session.goAwaySent = false := by
      refine Bool.eq_false_iff.2 fun hsent => ?_
      obtain ⟨x, hx, hannounces⟩ := hparted.asked hsent
      cases (first x hx).symm.trans hannounces
    have hnone : announcements pre = [] := by
      have := hparted.sent
      rw [hsent] at this
      exact List.length_eq_zero_iff.1 (Nat.le_zero.1 this)
    obtain ⟨hreceived, hposted⟩ := unannounced_of_received (parts_of_agenda (agenda_of_next? hnext)) hsent asks
    exact ⟨hreceived, announcements_append_eq_nil hnone hposted⟩
  · intro post m m' e run h ih
    obtain ⟨hreceived, hposted⟩ := unannounced_of_parts (parts_of_agenda (agenda_of_next? h)) ih.1
    rw [← List.cons_append, ← List.append_assoc]
    exact ⟨hreceived, announcements_append_eq_nil ih.2 hposted⟩

theorem goAwaySent_of_parts {mo : Moment} (parts : mo.Parts) (h : mo.before.session.goAwaySent) :
    mo.after.session.goAwaySent := by
  cases parts with
  | keeps deaf keeps => exact (Session.ending_eq_iff.1 keeps.ending).1.trans h
  | ends asks deaf sent => cases h.symm.trans sent
  | hears asks received session =>
    rw [session]
    exact h

theorem goAwaySent_since {pre post : List Moment} {mo : Moment}
    (run : Run enc { session := s } (pre ++ mo :: post) m) (h : mo.after.session.goAwaySent) :
    m.session.goAwaySent :=
  run.since (P := fun _ m => m.session.goAwaySent) (fun _ _ => h)
    fun _ hnext ih => goAwaySent_of_parts (parts_of_agenda (agenda_of_next? hnext)) ih

theorem primary_of_run (hnew : Session.new config primary = .ok s) (run : Run enc { session := s } past m) :
    m.session.primary = primary := by
  induction run with
  | start =>
    obtain ⟨-, rfl⟩ := Session.new_eq_ok hnew
    rfl
  | @next past m m' e run h ih =>
    cases parts_of_agenda (agenda_of_next? h) with
    | keeps deaf keeps => exact (Session.ending_eq_iff.1 keeps.ending).2.2.trans ih
    | ends asks deaf sent ending => exact (Session.ending_eq_iff.1 ending).2.2.trans ih
    | hears asks received session => exact (congrArg Session.primary session).trans ih

/-! ## How often the end of the session is passed on -/

/-- The notice that a call passes on to a listener, if the notice is that the other side announced the end. -/
def Call.parting? (l : Listener) : Call → Option Notice
  | .tell l' n => if n.isGoAway && l' == l then some n else none
  | _ => none

/-- What a listener was told of announcements of the other side, first the first. -/
def toldPartings (l : Listener) (past : List Moment) : List Notice := (calls past).filterMap (Call.parting? l)

/-- How often a task passes on to a listener notices of a kind that the other side announced the end: the primary
listener is told `first` times, and those that are registered are told `later` times. -/
def Task.partingCost (l : Listener) (kind : Notice → Bool) (first later : Nat) : Task → Nat
  | .call c => (c.parting? l).toList.countP kind
  | .tell listeners n => if n.isGoAway && kind n then listeners.count l else 0
  | .announce n => if n.isGoAway && kind n then first + later else 0
  | .tellRegistered n => if n.isGoAway && kind n then later else 0
  | _ => 0

/-- How often a task closes the connection because the other side announced the end. -/
def Task.closingCost : Task → Nat
  | .call (.close true) => 1
  | _ => 0

section Cost

variable {l : Listener} {kind : Notice → Bool} {first later : Nat}

theorem Task.partingCost_of_not_parting {task : Task} (h : task.isParting = false) :
    task.partingCost l kind first later = 0 := by
  cases task with
  | call c =>
    cases c with
    | tell l' n =>
      have hn : n.isGoAway = false := h
      simp [partingCost, Call.parting?, hn]
    | _ => rfl
  | tell listeners n =>
    have hn : n.isGoAway = false := h
    simp [partingCost, hn]
  | announce n =>
    have hn : n.isGoAway = false := h
    simp [partingCost, hn]
  | tellRegistered n =>
    have hn : n.isGoAway = false := h
    simp [partingCost, hn]
  | _ => rfl

theorem Task.closingCost_of_not_parting {task : Task} (h : task.isParting = false) : task.closingCost = 0 := by
  unfold closingCost
  split
  · cases h
  · rfl

/-- Listeners that are told one after another cost what the task of telling them costs. -/
theorem expense_tells (l : Listener) (kind : Notice → Bool) (first later : Nat) (listeners : List Listener)
    (n : Notice) :
    expense (Task.partingCost l kind first later) (listeners.map fun l' => .call (.tell l' n)) =
      Task.partingCost l kind first later (.tell listeners n) := by
  have htell : ∀ l', Task.partingCost l kind first later (.call (.tell l' n)) =
      if n.isGoAway && kind n then if l' = l then 1 else 0 else 0 := by
    intro l'
    by_cases hl : l' = l
    · cases hgoAway : n.isGoAway <;> cases hkind : kind n <;> simp [Task.partingCost, Call.parting?, hgoAway, hkind, hl]
    · simp [Task.partingCost, Call.parting?, hl]
  induction listeners with
  | nil => simp [Task.partingCost]
  | cons l' listeners ih =>
    rw [List.map_cons, expense_cons, htell, ih, Task.partingCost, Task.partingCost]
    split
    · rw [List.count_cons, Nat.add_comm]
      simp only [beq_iff_eq]
    · rfl

variable (enc : Encoder) (s : Session)

/-- What is done for a task passes no more on than the task stands for. -/
theorem Session.perform_partingCost (hfirst : s.primary.toList.count l ≤ first)
    (hlater : s.controlListeners.count l ≤ later) {task : Task} (notCall : task.isCall = false) :
    expense (Task.partingCost l kind first later) (s.perform enc task).todo ≤
      task.partingCost l kind first later := by
  cases hparting : task.isParting with
  | false =>
    rw [expense_eq_zero fun x hx => Task.partingCost_of_not_parting ((s.perform_stays enc hparting).parting x hx)]
    exact Nat.zero_le _
  | true =>
    cases task with
    | call => cases notCall
    | tell listeners n =>
      cases listeners with
      | nil => exact Nat.zero_le _
      | cons l' rest =>
        have htells := expense_tells l kind first later (l' :: rest) n
        rw [List.map_cons, expense_cons, expense_tells] at htells
        exact Nat.le_of_eq htells
    | announce n =>
      rw [perform, expense_append, expense_tells, expense_cons, expense_nil]
      simp only [Task.partingCost]
      split
      · exact Nat.add_le_add_right hfirst later
      · exact Nat.le_refl _
    | tellRegistered n =>
      rw [perform, expense_cons, expense_nil]
      simp only [Task.partingCost]
      split
      · exact hlater
      · exact Nat.le_refl _
    | _ => cases hparting

/-- An operation brings in what the announcement that it takes for the first time stands for. -/
theorem Session.begin_partingCost (alive : Bool) (op : Operation) :
    expense (Task.partingCost l kind first later) (s.begin enc alive op).todo ≤
      (first + later) * (s.parting? op).toList.countP kind := by
  have hnone : Without Task.isParting (s.begin enc alive op).todo →
      expense (Task.partingCost l kind first later) (s.begin enc alive op).todo = 0 := fun h =>
    expense_eq_zero fun x hx => Task.partingCost_of_not_parting (h x hx)
  cases s.begin_parts enc alive op with
  | stays deaf h => rw [hnone h.parting]; exact Nat.zero_le _
  | ends asks h => rw [hnone h.parting]; exact Nat.zero_le _
  | @hears last status asks session todo =>
    rw [todo, asks]
    cases hkind : kind (.goAway last status) <;>
      simp [Task.partingCost, Notice.isGoAway, Call.parting?, hkind]

theorem Session.perform_closingCost {task : Task} (notCall : task.isCall = false) :
    expense Task.closingCost (s.perform enc task).todo ≤ task.closingCost := by
  cases hparting : task.isParting with
  | false =>
    rw [expense_eq_zero fun x hx => Task.closingCost_of_not_parting ((s.perform_stays enc hparting).parting x hx)]
    exact Nat.zero_le _
  | true =>
    cases task with
    | call => cases notCall
    | tell listeners n => cases listeners <;> exact Nat.zero_le _
    | announce n => cases hprimary : s.primary <;> simp [perform, hprimary, Task.closingCost]
    | tellRegistered n => exact Nat.zero_le _
    | _ => cases hparting

theorem Session.begin_closingCost (alive : Bool) (op : Operation) :
    expense Task.closingCost (s.begin enc alive op).todo ≤ (s.parting? op).toList.length := by
  have hnone : Without Task.isParting (s.begin enc alive op).todo →
      expense Task.closingCost (s.begin enc alive op).todo = 0 := fun h =>
    expense_eq_zero fun x hx => Task.closingCost_of_not_parting (h x hx)
  cases s.begin_parts enc alive op with
  | stays deaf h => rw [hnone h.parting]; exact Nat.zero_le _
  | ends asks h => rw [hnone h.parting]; exact Nat.zero_le _
  | hears asks session todo =>
    rw [todo, asks]
    exact Nat.le_refl 1

end Cost

theorem expense_partings (l : Listener) (kind : Notice → Bool) (first later : Nat) (made : List Call) :
    expense (Task.partingCost l kind first later) (made.map .call) =
      (made.filterMap (Call.parting? l)).countP kind := by
  induction made with
  | nil => rfl
  | cons c made ih =>
    rw [List.map_cons, expense_cons, ih, Task.partingCost]
    cases h : c.parting? l <;> simp [h, Nat.add_comm, List.countP_cons]

theorem expense_closings (made : List Call) :
    expense Task.closingCost (made.map .call) = made.count (.close true) := by
  induction made with
  | nil => rfl
  | cons c made ih =>
    rw [List.map_cons, expense_cons, ih, List.count_cons, Nat.add_comm]
    congr 1
    cases c with
    | close graceful => cases graceful <;> rfl
    | write => simp [Task.closingCost]
    | tell => simp [Task.closingCost]

theorem sum_partings (kind : Notice → Bool) (k : Nat) (past : List Moment) :
    (past.map fun mo => k * mo.parting?.toList.countP kind).sum = k * (partings past).countP kind := by
  induction past with
  | nil => rfl
  | cons mo past ih =>
    rw [List.map_cons, List.sum_cons, ih, ← Nat.mul_add, ← List.countP_append]
    congr 2
    cases h : mo.parting? <;> simp [partings, h]

/-- A listener is told of an announcement of the other side as often as it is there to be told. -/
theorem told_of_run (hnew : Session.new config primary = .ok s) (run : Run enc { session := s } past m) (l : Listener)
    {later : Nat} (hlater : ∀ mo ∈ past, mo.before.session.controlListeners.count l ≤ later)
    (kind : Notice → Bool) :
    (toldPartings l past).countP kind ≤ (primary.toList.count l + later) * (partings past).countP kind := by
  have hspent := expense_of_run (Task.partingCost l kind (primary.toList.count l) later)
    (fun mo => (primary.toList.count l + later) * mo.parting?.toList.countP kind) run ?_ ?_
  · rw [expense_partings, sum_partings] at hspent
    exact Nat.le_trans (Nat.le_add_right _ _) hspent
  · intro mo hmo task notCall
    obtain ⟨pre, -, hpre, -⟩ := run.of_mem hmo
    refine mo.before.session.perform_partingCost enc ?_ (hlater mo hmo) notCall
    rw [primary_of_run hnew hpre]
  · intro mo hmo op asks
    rw [Moment.parting?, asks]
    exact mo.before.session.begin_partingCost enc _ op

/-- The connection is closed for each announcement of the other side that counts. -/
theorem closings_of_run (run : Run enc { session := s } past m) :
    (calls past).count (.close true) ≤ (partings past).length := by
  have hspent := expense_of_run Task.closingCost (fun mo => 1 * mo.parting?.toList.countP fun _ => true) run ?_ ?_
  · rw [expense_closings, sum_partings, Nat.one_mul, List.countP_true] at hspent
    exact Nat.le_trans (Nat.le_add_right _ _) hspent
  · exact fun mo _ task notCall => mo.before.session.perform_closingCost enc notCall
  · intro mo _ op asks
    rw [Moment.parting?, asks, Nat.one_mul, List.countP_true]
    exact mo.before.session.begin_closingCost enc _ op

/-- What a listener is told of was announced by the other side, and counted. -/
theorem mem_partings_of_told (hnew : Session.new config primary = .ok s) (run : Run enc { session := s } past m)
    {l : Listener} {n : Notice} (h : n ∈ toldPartings l past) : n ∈ partings past := by
  have hlater : ∀ mo ∈ past, mo.before.session.controlListeners.count l ≤
      (past.map fun mo => mo.before.session.controlListeners.count l).sum := fun mo hmo =>
    List.le_sum_of_mem (List.mem_map_of_mem hmo)
  by_contra hn
  -- of the notices that the other side did not give none is counted, so none is told
  have htold := told_of_run hnew run l hlater fun x => decide (x ∉ partings past)
  have hnone : (partings past).countP (fun x => decide (x ∉ partings past)) = 0 :=
    List.countP_eq_zero.2 fun x hx => by simp [hx]
  rw [hnone, Nat.mul_zero, Nat.le_zero, List.countP_eq_zero] at htold
  exact htold n h (decide_eq_true hn)

end Run

/-! ## After the end was announced -/

/-- What is passed over, or refused, once this side announced the end of the session. -/
def Operation.lapses : Operation → Bool
  | .syn .. | .reset .. | .receive (.control _) | .receive (.data _) | .receive (.streamException _) => true
  | _ => false

/-- Such an operation changes nothing and leaves nothing to do. -/
theorem Session.begin_lapsed (enc : Encoder) {s : Session} (sent : s.goAwaySent) (alive : Bool) {op : Operation}
    (hop : op.lapses) : (s.begin enc alive op).session = s ∧ (s.begin enc alive op).todo = [] := by
  cases op with
  | syn version opening listener =>
    simp only [begin, beginSyn, sent, if_true]
    split <;> exact ⟨rfl, rfl⟩
  | reset version id status => simp [begin, reset, sent]
  | receive got =>
    cases got with
    | control f => simp [begin, receive, sent]
    | data f => simp [begin, receive, sent]
    | streamException e => simp [begin, receive, receiveStreamException, reset, sent]
    | sessionException e => cases hop
  | _ => cases hop

/-- The end of a session is announced once, in every run: operations may begin anywhere, calls break off, writes fail
and handlers be given up. This side enqueues one announcement at most, and none if one of the other side was received
before the application or a session exception asked for it. One announcement of the other side counts at most: what
listeners are told is that one, the primary listener once and the others as often as they are registered, and the
connection is closed gracefully once at most. From its own announcement on, which is not taken back, a session leaves
everything as it is when frames or stream exceptions are received and when streams are to be opened or given up: it
changes nothing and has nothing to do then. -/
theorem end_announced_once {enc : Encoder} {config : Config} {primary : Option Listener} {s : Session}
    {past : List Moment} {m : Machine} (hnew : Session.new config primary = .ok s)
    (run : Run enc { session := s } past m) :
    (announcements past).length ≤ 1 ∧
      (∀ pre mo post version last code, past = pre ++ mo :: post →
        mo.op? = some (.receive (.control ⟨version, .goAway last code⟩)) →
        (∀ x ∈ pre, x.op?.any Operation.announces = false) → announcements past = []) ∧
      (partings past).length ≤ 1 ∧ (∀ l, ∀ n ∈ toldPartings l past, n ∈ partings past) ∧
      (∀ l k, (∀ mo ∈ past, mo.before.session.controlListeners.count l ≤ k) →
        (toldPartings l past).length ≤ primary.toList.count l + k) ∧
      (calls past).count (.close true) ≤ 1 ∧
      (∀ mo ∈ past, mo.before.session.goAwaySent → m.session.goAwaySent) ∧
      ∀ (x : Machine) op, x.session.goAwaySent → op.lapses →
        ∃ outcome, (x.invoke enc op).1 = ⟨x.session, ⟨[], outcome⟩ :: x.stack⟩ := by
  have hparted := parted_of_run hnew run
  have hone : (partings past).length ≤ 1 := Nat.le_trans hparted.received (Bool.toNat_le _)
  refine ⟨Nat.le_trans hparted.sent (Bool.toNat_le _), ?_, hone, fun l n => mem_partings_of_told hnew run, ?_,
    Nat.le_trans (closings_of_run run) hone, ?_, ?_⟩
  · rintro pre mo post version last code rfl asks first
    exact announcements_of_received hnew run asks first
  · intro l k hk
    have htold := told_of_run hnew run l hk fun _ => true
    rw [List.countP_true] at htold
    calc (toldPartings l past).length
        ≤ (primary.toList.count l + k) * (partings past).length := htold
      _ ≤ (primary.toList.count l + k) * 1 := Nat.mul_le_mul_left _ hone
      _ = _ := Nat.mul_one _
  · intro mo hmo hsent
    obtain ⟨pre, post, rfl⟩ := List.append_of_mem hmo
    obtain ⟨-, hnext⟩ := run.of_append
    exact goAwaySent_since run (goAwaySent_of_parts (parts_of_agenda (agenda_of_next? hnext)) hsent)
  · intro x op hsent hop
    obtain ⟨hsession, htodo⟩ := Session.begin_lapsed enc hsent x.isAlive hop
    refine ⟨(x.session.begin enc x.isAlive op).outcome, ?_⟩
    rw [Machine.invoke, hsession, htodo]

/-- The other side announces the end, and the listener that is told of it first asks for an announcement of this side;
the next one of the other side and a frame that opens a stream are passed over. -/
theorem end_announced_once_within_notice : ∃ s past m, Session.new .client (some ⟨"app"⟩) = .ok s ∧
    Run (.standard 16384) { session := s } past m ∧ m.session.goAwaySent ∧ m.session.table = [] ∧
      partings past = [.goAway 5 .ok] ∧ toldPartings ⟨"log"⟩ past = [.goAway 5 .ok] ∧
      (announcements past).length ≤ 1 ∧ (calls past).count (.close true) ≤ 1 := by
  have hnew : Session.new .client (some ⟨"app"⟩) = .ok (.fresh .client (some ⟨"app"⟩)) := rfl
  have hrun := Machine.run_of_replay? (.standard 16384) { session := .fresh .client (some ⟨"app"⟩) }
    [.edit (.addControlListener ⟨"log"⟩), .invoke (.receive (.control ⟨.v3, .goAway 5 0⟩)), .tick,
      .invoke (.goAway .v3), .leave, .answer none, .tick, .tick, .answer none, .tick, .tick, .answer none, .leave,
      .invoke (.receive (.control ⟨.v3, .goAway 5 0⟩)), .leave,
      .invoke (.receive (.control ⟨.v3, .synStream 1 2 0 0 default⟩)), .leave] rfl
  have honce := end_announced_once hnew hrun
  exact ⟨_, _, _, hnew, hrun, rfl, rfl, rfl, by decide, honce.1, honce.2.2.2.2.2.1⟩

end Spdy
