import Spdy.Proofs.Agreement
import Spdy.Proofs.Pings

/-!
# Pings come back

Two sides are wired back to back. A ping that one side sends is heard by the other side, sent back, and heard again, and
there it ends: its id is not one that this side would send back. Control frames keep their order all the way, so pings
come back in the order in which they were sent.

* `Pair.spokenPings_isPrefix`, `Pair.returning_isPrefix` : where pings can be on their way there and back;
* `Attends`, `Pair.attended_of_attends` : a listener that is there once from the first ping of its side on;
* `goAway_of_spoken`, `Pair.taken_eq_spoken` : unless one of the sides announces the end, all is received in the end;
* `Pair.pings_come_back` : what listeners are told of at any time, and once nothing is left to do.
-/

namespace Spdy

/-! ## The end of a session -/

/-- The announcement that the session ends. -/
def Received.isGoAway : Received → Bool
  | control ⟨_, .goAway ..⟩ => true
  | _ => false

theorem ControlFrame.type_of_reading {f : ControlFrame} (h : f.reading.isGoAway) : f.type = .goAway := by
  obtain ⟨version, body⟩ := f
  unfold reading at h
  split at h
  · cases body <;> first | rfl | cases h
  · unfold emptyNameException at h
    split at h <;> cases h

theorem DataFrame.isGoAway_reading (f : DataFrame) : f.reading.isGoAway = false := by
  unfold reading
  split <;> rfl

section Run

variable {cap : Nat} {config : Config} {primary : Option Listener} {s : Session} {past : List Moment} {m : Machine}

/-- Whoever says that the session ends has announced it. -/
theorem goAway_of_spoken (hnew : Session.new config primary = .ok s)
    (run : Run (.standard cap) { session := s } past m) (hwritten : ∀ mo ∈ past, mo.isFailure = false)
    {got : Received} (hgot : got ∈ spoken past) (goAway : got.isGoAway) : m.session.goAwaySent := by
  obtain ⟨mo, hmo, hspoken⟩ := List.mem_filterMap.1 hgot
  obtain ⟨pre, -, hpre, hnext⟩ := run.of_mem hmo
  cases hhanded : mo.handed? with
  | none => cases (Moment.spoken?_of_none hhanded).symm.trans hspoken
  | some f =>
    obtain ⟨bytes, seq, q⟩ := f
    obtain ⟨got', reads, wording⟩ := wording_of_handed hnew hpre hnext hhanded
    obtain rfl : got' = got := Option.some.inj ((Moment.spoken?_of_handed hhanded reads).symm.trans hspoken)
    cases wording with
    | data encoded => cases (DataFrame.isGoAway_reading _).symm.trans goAway
    | @control f r accepted =>
      have hsent : .control f.type bytes r ∈ sentControls past := by
        refine List.mem_filterMap.2 ⟨mo, hmo, ?_⟩
        rw [Moment.sentControl?, hhanded]
      have henqueued : .control f.type bytes r ∈ enqueuedControls past := by
        rw [controls_of_run hnew run hwritten]
        exact List.mem_append_left _ hsent
      obtain ⟨mo', hmo', hposted⟩ := List.mem_flatMap.1 henqueued
      have hannounced : .control f.type bytes r ∈ announcements past := by
        refine List.mem_flatMap.2 ⟨mo', hmo', List.mem_filter.2 ⟨(List.mem_filter.1 hposted).1, ?_⟩⟩
        rw [ControlFrame.type_of_reading goAway]
        rfl
      have hlength := (parted_of_run hnew run).sent
      have hpos := List.length_pos_of_mem hannounced
      cases h : m.session.goAwaySent with
      | true => rfl
      | false =>
        rw [h, Bool.toNat_false] at hlength
        omega

/-- A session that knows that the other side announced the end has received the announcement. -/
theorem taken_of_goAwayReceived (hnew : Session.new config primary = .ok s)
    (run : Run (.standard cap) { session := s } past m) (received : m.session.goAwayReceived) :
    ∃ got ∈ taken past, got.isGoAway := by
  induction run with
  | start =>
    obtain ⟨-, rfl⟩ := Session.new_eq_ok hnew
    cases received
  | @next past m m' e run h ih =>
    have hold : m.session.goAwayReceived → ∃ got ∈ taken (past ++ [⟨m, e, m'⟩]), got.isGoAway := fun hbefore =>
      (ih hbefore).imp fun got hgot => ⟨by
        rw [taken_append]
        exact List.mem_append_left _ hgot.1, hgot.2⟩
    cases parts_of_agenda (agenda_of_next? h) with
    | keeps deaf keeps =>
      have hsame := (Session.ending_eq_iff.1 keeps.ending).2.1
      exact hold (hsame ▸ received)
    | ends asks deaf sent ending =>
      have hsame := (Session.ending_eq_iff.1 ending).2.1
      exact hold (hsame ▸ received)
    | hears asks =>
      obtain ⟨op, hop, hparting⟩ := Option.bind_eq_some_iff.1 asks
      unfold Session.parting? at hparting
      split at hparting
      · next version last code =>
        refine ⟨.control ⟨version, .goAway last code⟩, ?_, rfl⟩
        rw [taken_append, Moment.taken?, hop]
        exact List.mem_append_right _ List.mem_cons_self
      · cases hparting

/-- A session that received an exception of the session has announced the end, or received the announcement. -/
theorem ended_of_fatal (hnew : Session.new config primary = .ok s)
    (run : Run (.standard cap) { session := s } past m) {got : Received} (hgot : got ∈ taken past)
    (fatal : got.isFatal) : m.session.goAwaySent ∨ ∃ got' ∈ taken past, got'.isGoAway := by
  obtain ⟨mo, hmo, htaken⟩ := List.mem_filterMap.1 hgot
  obtain ⟨pre, post, rfl⟩ := List.append_of_mem hmo
  obtain ⟨hpre, hnext⟩ := run.of_append
  by_cases hended : mo.before.session.goAwaySent ∨ mo.before.session.goAwayReceived
  · rcases hended with hsent | hreceived
    · exact .inl (goAwaySent_since run (goAwaySent_of_parts (parts_of_agenda (agenda_of_next? hnext)) hsent))
    · right
      obtain ⟨got', hgot', goAway⟩ := taken_of_goAwayReceived hnew hpre hreceived
      refine ⟨got', ?_, goAway⟩
      rw [taken, List.filterMap_append]
      exact List.mem_append_left _ hgot'
  · left
    cases got with
    | sessionException x =>
      have hevent : mo.event = .invoke (.receive (.sessionException x)) := by
        unfold Moment.taken? Moment.op? at htaken
        cases hev : mo.event with
        | invoke op =>
          rw [hev] at htaken
          cases op <;> first | (cases htaken; rfl) | cases htaken
        | _ => rw [hev] at htaken; cases htaken
      rw [hevent] at hnext
      exact goAwaySent_since run (sent_of_exception hnext hended)
    | _ => cases fatal

end Run

/-- A listener is there once for session frames, from the first ping of its side on. -/
def Attends (l : Listener) (past : List Moment) : Prop :=
  ∀ i, ∀ h : i < past.length, pinged (past.take i) ≠ [] →
    (past[i].before.session.primary.toList ++ past[i].before.session.controlListeners).count l = 1

instance (l : Listener) (past : List Moment) : Decidable (Attends l past) :=
  inferInstanceAs (Decidable (∀ i, ∀ h : i < past.length, pinged (past.take i) ≠ [] →
    (past[i].before.session.primary.toList ++ past[i].before.session.controlListeners).count l = 1))

namespace Pair

variable {cap : Side → Nat} {config : Side → Config} {primary : Side → Option Listener} {s : Side → Session} {p : Pair}

section Way

variable (hnew : ∀ x, Session.new (config x) (primary x) = .ok (s x))
  (hfirst : ∀ x, (config x).initialStreamId = x.firstId) (run : Run cap (new s) p)
  (hwritten : ∀ x, ∀ mo ∈ (p x).past, mo.isFailure = false)

/-! ## There and back -/

include hnew run hwritten

/-- The pings that a side has handed over are the first that it enqueued. -/
theorem spokenPings_isPrefix (x : Side) :
    (spoken (p x).past).filterMap Received.ping? <+: enqueuedPings (p x).past := by
  rw [spokenPings_of_run (hnew x) (run.session x), enqueuedPings,
    controls_of_run (hnew x) (run.session x) (hwritten x), List.filterMap_append]
  exact List.prefix_append _ _

/-- The pings that have reached a side are the first that the other side enqueued. -/
theorem reachedPings_isPrefix (x : Side) :
    (taken (p x).past ++ (p x).inbox).filterMap Received.ping? <+: enqueuedPings (p x.other).past := by
  have hreceived := received_prefix_of_run hnew run x.other
  rw [Side.other_other] at hreceived
  exact (hreceived.filterMap Received.ping?).trans (spokenPings_isPrefix hnew run hwritten x.other)

/-- The pings that a session heard of are the first that the other side enqueued. -/
theorem heardPings_isPrefix (x : Side) : heardPings (p x).past <+: enqueuedPings (p x.other).past := by
  refine (heardPings_of_run (run.session x)).1.trans ((List.IsPrefix.filterMap Received.ping? ?_).trans
    (reachedPings_isPrefix hnew run hwritten x))
  exact List.prefix_append _ _

include hfirst

/-- What a side enqueues with ids of the other side are the first pings of the other side. -/
theorem echoed_isPrefix (x : Side) :
    (enqueuedPings (p x).past).filter (fun id => !(config x).isLocal id) <+: pinged (p x.other).past := by
  rw [(enqueuedPings_of_run (hnew x) (run.session x)).2,
    ← (enqueuedPings_of_run (hnew x.other) (run.session x.other)).1]
  have hids : (fun id => !(config x).isLocal id) = (config x.other).isLocal := by
    funext id
    exact (isLocal_other hfirst x id).symm
  rw [hids]
  exact (heardPings_isPrefix hnew run hwritten x).filter _

/-- The pings of a side that have reached it again are the first that it sent. -/
theorem returning_isPrefix (x : Side) :
    ((taken (p x).past ++ (p x).inbox).filterMap Received.ping?).filter (config x).isLocal <+:
      pinged (p x).past := by
  have hechoed := echoed_isPrefix hnew hfirst run hwritten x.other
  rw [Side.other_other] at hechoed
  have hids : (fun id => !(config x.other).isLocal id) = (config x).isLocal := by
    funext id
    rw [isLocal_other hfirst x id, Bool.not_not]
  rw [hids] at hechoed
  exact ((reachedPings_isPrefix hnew run hwritten x).filter _).trans hechoed

theorem returnedPings_isPrefix (x : Side) : returnedPings (config x) (p x).past <+: pinged (p x).past := by
  refine ((heardPings_of_run (run.session x)).1.filter _).trans
    (List.IsPrefix.trans ?_ (returning_isPrefix hnew hfirst run hwritten x))
  rw [List.filterMap_append, List.filter_append]
  exact List.prefix_append _ _

end Way

/-! ## Listeners that are there -/

/-- No ping of a side comes back before there is one. -/
theorem pinged_of_returned (hnew : ∀ x, Session.new (config x) (primary x) = .ok (s x))
    (hfirst : ∀ x, (config x).initialStreamId = x.firstId) (run : Run cap (new s) p)
    (hwritten : ∀ x, ∀ mo ∈ (p x).past, mo.isFailure = false) :
    ∀ x, ∀ i < (p x).past.length, returnedPings (config x) ((p x).past.take (i + 1)) ≠ [] →
      pinged ((p x).past.take i) ≠ [] := by
  induction run with
  | start => exact fun x i hi => absurd hi (Nat.not_lt_zero i)
  | @next p p' a run h ih =>
    have moves := moves_of_next? h
    have hbefore : ∀ x, ∀ mo ∈ (p x).past, mo.isFailure = false := by
      intro x mo hmo
      apply hwritten x mo
      cases moves.aside x with
      | still machine past => exact past ▸ hmo
      | moved hm past => exact past ▸ List.mem_append_left _ hmo
    intro x
    cases moves.aside x with
    | still machine past => exact past ▸ ih hbefore x
    | @moved e hm past free first =>
      intro i hi hreturned
      rw [past] at hi hreturned ⊢
      by_cases hlt : i < (p x).past.length
      · rw [List.take_append_of_le_length (Nat.le_of_lt hlt)]
        rw [List.take_append_of_le_length hlt] at hreturned
        exact ih hbefore x i hlt hreturned
      · obtain rfl : i = (p x).past.length := by
          rw [List.length_append, List.length_singleton] at hi
          omega
        rw [List.take_left]
        rw [List.take_of_length_le (by simp), returnedPings_append] at hreturned
        obtain ⟨id, hid⟩ := List.exists_mem_of_ne_nil _ hreturned
        refine List.ne_nil_of_mem (a := id) ?_
        rcases List.mem_append.1 hid with hid | hid
        · exact (returnedPings_isPrefix hnew hfirst run hbefore x).subset hid
        · apply (returning_isPrefix hnew hfirst run hbefore x).subset
          obtain ⟨hheard, hlocal⟩ := List.mem_filter.1 hid
          refine List.mem_filter.2 ⟨?_, hlocal⟩
          obtain ⟨op, hop, hping⟩ := Option.bind_eq_some_iff.1 (Option.mem_toList.1 hheard)
          cases e with
          | invoke op' =>
            obtain rfl : op' = op := Option.some.inj hop
            cases op' with
            | receive got =>
              obtain ⟨rest, hinbox⟩ := first got rfl
              refine List.mem_filterMap.2 ⟨got, ?_, ?_⟩
              · rw [hinbox]
                exact List.mem_append_right _ List.mem_cons_self
              · replace hping : (if (p x).machine.session.goAwaySent then none else got.ping?) = some id := hping
                split at hping
                · cases hping
                · exact hping
            | _ => cases hping
          | _ => cases hop

theorem attended_of_attends (hnew : ∀ x, Session.new (config x) (primary x) = .ok (s x))
    (hfirst : ∀ x, (config x).initialStreamId = x.firstId) (run : Run cap (new s) p)
    (hwritten : ∀ x, ∀ mo ∈ (p x).past, mo.isFailure = false) {x : Side} {l : Listener}
    (attends : Attends l (p x).past) : Attended (config x) l (p x).past := fun i hi hreturned =>
  attends i hi (pinged_of_returned hnew hfirst run hwritten x i hi hreturned)

/-! ## In the end -/

/-- Once nothing is left to do and none of the sides has announced the end, a session has received all that the other
one has handed over. -/
theorem taken_eq_spoken (hnew : ∀ x, Session.new (config x) (primary x) = .ok (s x)) (run : Run cap (new s) p)
    (hwritten : ∀ x, ∀ mo ∈ (p x).past, mo.isFailure = false)
    (hsent : ∀ x, (p x).machine.session.goAwaySent = false) (hrest : ∀ x, p.AtRest x) (x : Side) :
    taken (p x.other).past = spoken (p x).past := by
  obtain ⟨front, more, hspoken, htaken, hmore⟩ := received_of_run hnew run x
  rw [hmore (hrest x).wire, List.append_nil] at hspoken
  rw [(hrest x.other).inbox, List.append_nil, ← hspoken] at htaken
  rw [htaken]
  apply Received.upToFatal_of_calm
  intro got hgot
  rw [Bool.eq_false_iff]
  intro fatal
  -- an exception would have made this side announce the end, or be told that the other side did
  obtain ⟨e, he, hfatal⟩ := Received.mem_upToFatal hgot fatal
  rw [← htaken] at he
  rcases ended_of_fatal (hnew x.other) (run.session x.other) he hfatal with hended | ⟨got', hgot', goAway⟩
  · cases (hsent x.other).symm.trans hended
  · rw [htaken] at hgot'
    have hended := goAway_of_spoken (hnew x) (run.session x) (hwritten x) ((Received.upToFatal_prefix _).subset hgot')
      goAway
    cases (hsent x).symm.trans hended

/-- Then all pings of a side have come back. -/
theorem returnedPings_eq (hnew : ∀ x, Session.new (config x) (primary x) = .ok (s x))
    (hfirst : ∀ x, (config x).initialStreamId = x.firstId) (run : Run cap (new s) p)
    (hwritten : ∀ x, ∀ mo ∈ (p x).past, mo.isFailure = false)
    (hsent : ∀ x, (p x).machine.session.goAwaySent = false) (hrest : ∀ x, p.AtRest x) (x : Side) :
    returnedPings (config x) (p x).past = pinged (p x).past := by
  -- what a session hears of is what the other one has enqueued
  have hheard : ∀ y, heardPings (p y).past = enqueuedPings (p y.other).past := by
    intro y
    have htaken := taken_eq_spoken hnew run hwritten hsent hrest y.other
    rw [Side.other_other] at htaken
    have hqueue : (p y.other).machine.session.queuedControls = [] := by
      rw [Session.queuedControls, (hrest y.other).queue]
      rfl
    rw [(heardPings_of_run (run.session y)).2 (hsent y), htaken,
      spokenPings_of_run (hnew y.other) (run.session y.other),
      enqueuedPings, controls_of_run (hnew y.other) (run.session y.other) (hwritten y.other), hqueue, List.append_nil]
  have hids : (config x).isLocal = fun id => !(config x.other).isLocal id := by
    funext id
    rw [isLocal_other hfirst x id, Bool.not_not]
  have hback := hheard x.other
  rw [Side.other_other] at hback
  calc returnedPings (config x) (p x).past
      = (enqueuedPings (p x.other).past).filter fun id => !(config x.other).isLocal id := by
        rw [returnedPings, hheard x, hids]
    _ = (heardPings (p x.other).past).filter fun id => !(config x.other).isLocal id :=
        (enqueuedPings_of_run (hnew x.other) (run.session x.other)).2
    _ = (enqueuedPings (p x).past).filter (config x).isLocal := by rw [hback, hids]
    _ = pinged (p x).past := (enqueuedPings_of_run (hnew x) (run.session x)).1

/-! ## Pings come back -/

/-- Two sides are wired back to back, and whatever happens to them, writes do not fail and controllers do not break
off. A listener that is there once, from the first ping of its side on, is told of the pings of its side in the order
in which they were asked for, and of each once: what it was told of are the first of them at any time, and all of them
once nothing is left to do and none of the sides has announced the end. No listener, wherever it is registered, is told
of a ping of the other side. And no side sends an answer back: of all pings that it enqueues those with ids of its own
are the ones it was asked for, and the others are the first pings of the other side, each once and in order. -/
theorem pings_come_back (hnew : ∀ x, Session.new (config x) (primary x) = .ok (s x))
    (hfirst : ∀ x, (config x).initialStreamId = x.firstId) (run : Run cap (new s) p)
    (hwritten : ∀ x, ∀ mo ∈ (p x).past, mo.isFailure = false ∧ mo.isBreak = false) :
    (∀ x l, Attends l (p x).past → toldPings l (p x).past <+: pinged (p x).past) ∧
      (∀ x l, ∀ id ∈ toldPings l (p x).past, id ∈ pinged (p x).past ∧ id ∉ pinged (p x.other).past) ∧
      (∀ x, (enqueuedPings (p x).past).filter (config x).isLocal = pinged (p x).past ∧
        (enqueuedPings (p x).past).filter (fun id => !(config x).isLocal id) <+: pinged (p x.other).past) ∧
      ((∀ x, (p x).machine.session.goAwaySent = false) → (∀ x, p.AtRest x) →
        ∀ x l, Attends l (p x).past → toldPings l (p x).past = pinged (p x).past) := by
  have hunfailed : ∀ x, ∀ mo ∈ (p x).past, mo.isFailure = false := fun x mo hmo => (hwritten x mo hmo).1
  have htold : ∀ x l, Attends l (p x).past → toldPings l (p x).past ++ (p x).machine.ahead.flatMap
      (Task.pingsTo l ((primary x).toList.count l) (1 - (primary x).toList.count l)) =
        returnedPings (config x) (p x).past := fun x l attends =>
    told_of_attended (hnew x) (run.session x) (run.readsInTurn x) (fun mo hmo => (hwritten x mo hmo).2)
      (attended_of_attends hnew hfirst run hunfailed attends)
  have henqueued := fun x => enqueuedPings_of_run (hnew x) (run.session x)
  refine ⟨fun x l attends => ?_, fun x l id hid => ?_, fun x => ?_, fun hsent hrest x l attends => ?_⟩
  · refine List.IsPrefix.trans ?_ (returnedPings_isPrefix hnew hfirst run hunfailed x)
    rw [← htold x l attends]
    exact List.prefix_append _ _
  · obtain ⟨c, hc, hping⟩ := List.mem_filterMap.1 hid
    have hreturned : id ∈ returnedPings (config x) (p x).past := by
      refine mem_returnedPings (hnew x) (run.session x) (List.mem_append_left _ (List.mem_map_of_mem hc)) ?_
      exact Call.ping?_of_pingTo? hping
    refine ⟨(returnedPings_isPrefix hnew hfirst run hunfailed x).subset hreturned, fun hother => ?_⟩
    rw [← (henqueued x.other).1] at hother
    have hlocal := (List.mem_filter.1 hreturned).2
    have hlocal' := (List.mem_filter.1 hother).2
    rw [isLocal_other hfirst, hlocal] at hlocal'
    cases hlocal'
  · exact ⟨(henqueued x).1, echoed_isPrefix hnew hfirst run hunfailed x⟩
  · have hnothing : (p x).machine.ahead = [] := by
      rw [Machine.ahead, (hrest x).idle]
      rfl
    have htold := htold x l attends
    rw [hnothing, List.flatMap_nil, List.append_nil] at htold
    rw [htold, returnedPings_eq hnew hfirst run hunfailed hsent hrest]

/-- The pings of both sides cross on their way, and the client asks for another one while it is told of the first. -/
theorem pings_come_back_crossing : ∃ p, Run (fun _ => 16384) (new fun x => .fresh x.config (some ⟨"app"⟩)) p ∧
    (∀ x, ∀ mo ∈ (p x).past, mo.isFailure = false ∧ mo.isBreak = false) ∧
    (∀ x, Attends ⟨"app"⟩ (p x).past) ∧ (∀ x, (p x).machine.session.goAwaySent = false) ∧ (∀ x, p.AtRest x) ∧
    pinged (p .client).past = [1, 3] ∧ enqueuedPings (p .server).past = [2, 1, 3] ∧
    toldPings ⟨"app"⟩ (p .client).past <+: pinged (p .client).past ∧
    (∀ id ∈ toldPings ⟨"app"⟩ (p .client).past, id ∉ pinged (p .server).past) ∧
    ∀ x, toldPings ⟨"app"⟩ (p x).past = pinged (p x).past := by
  have hrun := @run_of_replay? (fun _ => 16384) (new fun x => .fresh x.config (some ⟨"app"⟩))
    (List.flatten [
      Act.happensAll .client [.invoke (.ping .v3), .tick, .answer none, .tick, .leave],
      Act.happensAll .server [.invoke (.ping .v3), .tick, .answer none, .tick, .leave],
      [.arrives .client 12, .arrives .server 5, .arrives .server 7, .reads .server],
      Act.happensAll .server [.tick, .leave, .invoke (.complete 1), .tick, .tick, .answer none, .tick, .leave],
      [.reads .client],
      Act.happensAll .client [.tick, .leave, .invoke (.complete 1), .tick, .tick, .answer none, .tick, .leave],
      [.arrives .server 12, .reads .client],
      Act.happensAll .client [.tick, .invoke (.ping .v3), .tick, .leave, .answer none, .tick, .tick, .tick, .leave],
      [.arrives .client 12, .reads .server],
      Act.happensAll .server [.tick, .answer none, .tick, .tick, .tick, .leave, .invoke (.complete 2), .tick, .tick,
        .leave],
      Act.happensAll .client [.invoke (.complete 2), .tick, .tick, .answer none, .tick, .leave],
      [.arrives .client 12, .reads .server], Act.happensAll .server [.tick, .answer none, .tick, .leave],
      [.arrives .server 12, .reads .client], Act.happensAll .client [.tick, .answer none, .tick, .tick, .tick, .leave],
      Act.happensAll .server [.invoke (.complete 3), .tick, .tick, .leave],
      Act.happensAll .client [.invoke (.complete 3), .tick, .tick, .leave]]) (by decide +kernel)
  generalize hp : Option.get _ _ = p at hrun
  obtain ⟨hwritten, hattends, hsent, hrest⟩ :
      (∀ x, ∀ mo ∈ (p x).past, mo.isFailure = false ∧ mo.isBreak = false) ∧
      (∀ x, Attends ⟨"app"⟩ (p x).past) ∧ (∀ x, (p x).machine.session.goAwaySent = false) ∧ ∀ x, p.AtRest x := by
    subst hp
    decide +kernel
  obtain ⟨hpinged, henqueued⟩ : pinged (p .client).past = [1, 3] ∧ enqueuedPings (p .server).past = [2, 1, 3] := by
    subst hp
    decide +kernel
  obtain ⟨hfirst, hforeign, -, hall⟩ := pings_come_back (Session.new_config · (some ⟨"app"⟩)) (by decide) hrun hwritten
  exact ⟨p, hrun, hwritten, hattends, hsent, hrest, hpinged, henqueued, hfirst _ _ (hattends _),
    fun id hid => (hforeign .client _ id hid).2, fun x => hall hsent hrest x _ (hattends x)⟩

end Pair

end Spdy
