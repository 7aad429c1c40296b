import Spdy.Proofs.Hearing

/-!
# Data arrives

The data that one side accepts on a stream is what the listener of the stream is told of at the other side: the first
of it at any time, and all of it once nothing of the stream is left on the way.

* `sentData_prefix_of_run` : what is handed over of the data of a stream is the first of what was accepted;
* `dataOn_spoken_of_run` : what is handed over is read as data of the stream;
* `Pair.Settled` : nothing of a stream is queued, being written or on its way;
* `Pair.heard_of_run` : what is heard at one side is what was accepted at the other.
-/

namespace Spdy

/-! ## Data that is handed over -/

section Sent

variable {cap : Nat} {config : Config} {primary : Option Listener} {s : Session} {past : List Moment}
  {m m' : Machine} {e : Event} {r : StreamRef}

/-- Whether or not the stream has been reset since, what was handed over of its data is the first of what was
accepted. -/
theorem sentData_prefix_of_run (hnew : Session.new config primary = .ok s)
    (hconfig : config.initialWindow ≤ Stream.maxWindow) (run : Run (.standard cap) { session := s } past m)
    (hturn : SettingsInTurn past) (hwritten : ∀ mo ∈ past, mo.isFailure = false ∧ mo.isDrop = false)
    (r : StreamRef) : sentData r past <+: acceptedData r past := by
  induction run with
  | start => exact List.prefix_rfl
  | @next past m m' e run h ih =>
    obtain ⟨hpast, -⟩ := settingsInTurn_append.1 hturn
    have hbefore : ∀ mo ∈ past, mo.isFailure = false ∧ mo.isDrop = false :=
      fun mo hmo => hwritten mo (List.mem_append_left _ hmo)
    have grow : sentData r (past ++ [⟨m, e, m'⟩]) = sentData r past →
        sentData r (past ++ [⟨m, e, m'⟩]) <+: acceptedData r (past ++ [⟨m, e, m'⟩]) := by
      intro hsame
      rw [hsame, acceptedData_append]
      exact (ih hpast hbefore).trans (List.prefix_append _ _)
    by_cases hnone : Moment.handed? ⟨m, e, m'⟩ = none
    · exact grow (sentData_append_of_none hnone)
    cases passage_of_next? hnew run h with
    | @hand before after p bytes x parcels parcels' outstanding outstanding' blocked framed said handed =>
      have hand : (m.session.stream r).reset = false →
          sentData r (past ++ [⟨m, e, m'⟩]) <+: acceptedData r (past ++ [⟨m, e, m'⟩]) := by
        intro hreset
        have delivered : Delivered r past m.session := data_conserved hnew hconfig run hpast hbefore hreset
        have delivered' : Delivered r (past ++ [⟨m, e, m'⟩]) m'.session :=
          Delivered.hand delivered parcels parcels' outstanding outstanding' blocked framed said handed
        exact ⟨_, delivered'⟩
      generalize hparcel : x.parcel = q at framed
      cases framed with
      | control type bytes r' => exact grow (sentData_append_of_control handed hparcel)
      | data r' payload written alive =>
        by_cases hr : r' = r
        · exact hand (hr ▸ alive)
        · refine grow ?_
          rw [sentData_append_of_data handed hparcel, if_neg hr, List.append_nil]
    | post _ _ _ handed => exact absurd handed hnone
    | drop _ _ _ _ silent => exact absurd silent.handed hnone
    | written _ _ _ _ silent => exact absurd silent.handed hnone
    | stuck _ _ _ _ _ silent => exact absurd silent.handed hnone
    | more _ _ _ _ _ _ _ silent => exact absurd silent.handed hnone
    | failed _ _ _ silent => exact absurd silent.handed hnone
    | dropped _ _ _ silent => exact absurd silent.handed hnone

/-! ## Data as it is read -/

theorem Session.Onward.trans {s t u : Session} (h : s.Onward t) (h' : t.Onward u) : s.Onward u where
  size := Nat.le_trans h.size h'.size
  later := fun r hr => (h.later r hr).trans (h'.later r (Nat.lt_of_lt_of_le hr h.size))

theorem Received.dataOn_of_isData_eq_false {got : Received} (h : got.isData = false) (id : UInt32) :
    got.dataOn id = [] := by
  cases got with
  | data f => cases h
  | _ => rfl

/-- What is handed over of the data of a stream is read as data of the stream. The ids of streams are those of a later
time, when they still belong to one stream each. -/
theorem dataOn_spoken_of_run (hnew : Session.new config primary = .ok s)
    (run : Run (.standard cap) { session := s } past m) (hfew : Few past) (hread : ∀ got ∈ taken past, got.IsRead)
    {t : Session} (onward : m.session.Onward t) (distinct : t.Distinct) (hr : r.serial < t.streams.size) :
    dataOn (t.idOf r) (spoken past) = sentData r past := by
  induction run with
  | start => rfl
  | @next past m m' e run h ih =>
    have later : m.session.Onward t := (onward_of_next? run h).trans onward
    have hread' : ∀ got ∈ taken past, got.IsRead := fun got hgot => hread got (by
      rw [taken_append]
      exact List.mem_append_left _ hgot)
    rw [spoken_append, dataOn_append, ih hfew.of_append hread' later]
    have known := known_of_run hnew run
    rcases handed : Moment.handed? ⟨m, e, m'⟩ with _ | ⟨bytes, x⟩
    · rw [Moment.spoken?_of_none handed, sentData_append_of_none handed]
      exact List.append_nil _
    obtain ⟨p, hp, framed⟩ : ∃ p ∈ m.session.outbox.parcels, Framed cap m.session p bytes x.parcel :=
      (handing_of_turn (turn_of_next? h (placed_of_run run)) handed).framed
    have hspoken : Moment.spoken? ⟨m, e, m'⟩ = Received.ofBytes? bytes := by
      rw [Moment.spoken?, handed]
      rfl
    rw [hspoken]
    generalize hparcel : x.parcel = q at framed
    cases framed with
    | control type bytes r' =>
      obtain ⟨f, haccepted, -⟩ := (spelled_of_run hnew run _ hp).accepted
      rw [sentData_append_of_control handed hparcel, haccepted.readsAs.ofBytes?, dataOn, Option.toList_some,
        List.flatMap_singleton, Received.dataOn_of_isData_eq_false f.isData_reading, List.append_nil]
    | @data r' payload written frame rest alive window chunk =>
      have known' : r'.serial < m.session.streams.size := known.waiting _ hp r' rfl
      have sound := (numbered_of_run hnew run hfew.of_append).sound (Session.new_eq_ok hnew).1 hfew.of_append hread'
      obtain ⟨hne, hlow⟩ := sound r' known'
      obtain ⟨habout, hreads⟩ := readsAs_of_chunk chunk hne hlow
      have hid : t.idOf r' = frame.streamId := by
        rw [habout]
        exact (later.later r' known').id
      rw [sentData_append_of_data handed hparcel, hreads.ofBytes?, DataFrame.drop_encode]
      congr 1
      rw [dataOn, Option.toList_some, List.flatMap_singleton, Received.dataOn]
      refine if_congr ⟨fun heq => ?_, fun heq => ?_⟩ rfl rfl
      · exact distinct r' r (Nat.lt_of_lt_of_le known' later.size) hr (hid.trans heq)
      · rw [← hid, heq]

end Sent

/-! ## Data from one side to the other -/

namespace Pair

/-- Nothing of a stream is queued, being written or on its way to the other side. -/
structure Settled (p : Pair) (x : Side) (r : StreamRef) : Prop where
  queued : (p x).machine.session.queuedData r = []
  unsent : (p x).machine.session.unsentData r = []
  underway : dataOn ((p x).machine.session.idOf r) (p.underway x) = []

theorem settled_iff {p : Pair} {x : Side} {r : StreamRef} : p.Settled x r ↔
    (p x).machine.session.queuedData r = [] ∧ (p x).machine.session.unsentData r = [] ∧
      dataOn ((p x).machine.session.idOf r) (p.underway x) = [] :=
  ⟨fun h => ⟨h.queued, h.unsent, h.underway⟩, fun ⟨queued, unsent, underway⟩ => ⟨queued, unsent, underway⟩⟩

instance (p : Pair) (x : Side) (r : StreamRef) : Decidable (p.Settled x r) := decidable_of_iff _ settled_iff.symm

variable {cap : Side → Nat} {config : Side → Config} {primary : Side → Option Listener} {s : Side → Session} {p : Pair}

/-- Two sides are wired back to back, and whatever happens to them: what the listener of a stream is told of at one side
is the first of the data that was accepted on the stream at the other side. It is all of it once nothing of the stream
is left on the way, unless the stream was given up at the side where the data was accepted, or the other side has
removed it from its table, has no listener for it or goes away. There are not too many streams, no write fails and no
handler is given up. -/
theorem heard_of_run (hnew : ∀ x, Session.new (config x) (primary x) = .ok (s x))
    (hfirst : ∀ x, (config x).initialStreamId = x.firstId)
    (hwindow : ∀ x, (config x).initialWindow ≤ Stream.maxWindow) (run : Run cap (new s) p)
    (hfew : ∀ x, Few (p x).past) (hwritten : ∀ x, ∀ mo ∈ (p x).past, mo.isFailure = false ∧ mo.isDrop = false)
    (x : Side) {r q : StreamRef} (hr : r.serial < (p x).machine.session.streams.size)
    (hq : q.serial < (p x.other).machine.session.streams.size)
    (hid : (p x.other).machine.session.idOf q = (p x).machine.session.idOf r) :
    heardData q (p x.other).past <+: acceptedData r (p x).past ∧
      (p.Settled x r → ((p x).machine.session.stream r).reset = false → q ∈ (p x.other).machine.session.table →
        ((p x.other).machine.session.stream q).listener.isSome → (p x.other).machine.session.goAwaySent = false →
        heardData q (p x.other).past = acceptedData r (p x).past) := by
  have heeds : ∀ y, Heeds false (config y) (p y).past := heeds_of_run hnew hfirst run hfew nofun
  have hturn := run.readsInTurn
  have sender := run.session x
  have hearing := hearing_of_run (hnew x.other) (run.session x.other) (hfew x.other) (heeds x.other) (hturn x.other) q
  have distinct := distinct_of_run Received.mention?_of_opening? (hnew x) sender (hfew x) (heeds x).first
  have hspoken : dataOn ((p x).machine.session.idOf r) (spoken (p x).past) = sentData r (p x).past :=
    dataOn_spoken_of_run (hnew x) sender (hfew x) (heeds x).read (.of_streams rfl) distinct hr
  have htaken : dataOn ((p x).machine.session.idOf r) (taken (p x.other).past) ++
      dataOn ((p x).machine.session.idOf r) (p.underway x) = sentData r (p x).past := by
    obtain ⟨⟨more, hmore, -⟩, -⟩ := spoken_eq_of_carries (carries_of_run run x) (hnew x) run (hfew x) (heeds x)
    rw [← dataOn_append, ← hspoken, underway, hmore, List.drop_left]
  have heard := hearing.heard hq
  rw [hid] at heard
  refine ⟨?_, fun settled hreset hmem hlistener hsent => ?_⟩
  · have hsent := sentData_prefix_of_run (hnew x) (hwindow x) sender (hturn x).settings (hwritten x) r
    exact (heard.trans ⟨_, htaken⟩).trans hsent
  · have hwhole := hearing.whole hq hmem hsent hlistener
    have hconserved := data_conserved (hnew x) (hwindow x) sender (hturn x).settings (hwritten x) hreset
    rw [settled.unsent, settled.queued, List.append_nil, List.append_nil] at hconserved
    rw [settled.underway, List.append_nil] at htaken
    rw [hwhole, hid, htaken, hconserved]

/-- Data is cut on its way from the client, and the listener of the server is told of all of it. -/
theorem heard_of_cut_data : ∃ p, Run (fun _ => 16384) (new fun x => .fresh x.config (some ⟨"app"⟩)) p ∧
    (∀ x, Few (p x).past) ∧ (∀ x, ∀ mo ∈ (p x).past, mo.isFailure = false ∧ mo.isDrop = false) ∧
    p.Settled .client ⟨0⟩ ∧ acceptedData ⟨0⟩ (p .client).past = [1, 2, 3] ∧
    heardData ⟨0⟩ (p .server).past <+: acceptedData ⟨0⟩ (p .client).past ∧
    heardData ⟨0⟩ (p .server).past = acceptedData ⟨0⟩ (p .client).past := by
  have hrun := @run_of_replay? (fun _ => 16384) (new fun x => .fresh x.config (some ⟨"app"⟩))
    (List.flatten [
      Act.happensAll .client [.invoke (.syn .v3 (.plain default false) none), .tick, .tick, .answer none, .tick,
        .leave, .invoke (.data ⟨0⟩ ⟨[1, 2, 3], false⟩), .tick, .leave],
      [.arrives .client 22, .reads .server],
      Act.happensAll .server [.tick, .tick, .answer (some ⟨"echo"⟩), .tick, .tick, .leave],
      Act.happensAll .client [.invoke (.complete 1), .tick, .tick, .tick, .answer none, .tick, .leave],
      [.arrives .client 5, .arrives .client 6, .reads .server],
      Act.happensAll .server [.answer none, .tick, .tick, .leave],
      Act.happensAll .client [.invoke (.complete 2), .tick, .tick, .tick, .leave]]) (by decide +kernel)
  generalize hp : Option.get _ _ = p at hrun
  obtain ⟨hfew, hwritten, hsettled, haccepted⟩ : (∀ x, Few (p x).past) ∧
      (∀ x, ∀ mo ∈ (p x).past, mo.isFailure = false ∧ mo.isDrop = false) ∧
      p.Settled .client ⟨0⟩ ∧ acceptedData ⟨0⟩ (p .client).past = [1, 2, 3] := by
    subst hp
    decide +kernel
  obtain ⟨hr, hq, hid, hreset, hmem, hlistener, hsent⟩ : 0 < (p .client).machine.session.streams.size ∧
      0 < (p .server).machine.session.streams.size ∧
      (p .server).machine.session.idOf ⟨0⟩ = (p .client).machine.session.idOf ⟨0⟩ ∧
      ((p .client).machine.session.stream ⟨0⟩).reset = false ∧ ⟨0⟩ ∈ (p .server).machine.session.table ∧
      ((p .server).machine.session.stream ⟨0⟩).listener.isSome ∧ (p .server).machine.session.goAwaySent = false := by
    subst hp
    decide +kernel
  obtain ⟨hfirst, hwhole⟩ := heard_of_run (Session.new_config · (some ⟨"app"⟩)) (by decide) (by decide) hrun hfew
    hwritten .client hr hq hid
  exact ⟨p, hrun, hfew, hwritten, hsettled, haccepted, hfirst, hwhole hsettled hreset hmem hlistener hsent⟩

/-- The server gives a stream up that the client has not opened yet. The client opens the stream, and drops the data
that it accepted on it. The server learns of the stream and keeps it, and its listener is told of no data: nothing is
left on the way, and the client never gave a stream up. -/
theorem unheard_of_reset_ahead : ∃ p, Run (fun _ => 16384) (new fun x => .fresh x.config (some ⟨"app"⟩)) p ∧
    (∀ x, Few (p x).past) ∧ (∀ x, ∀ mo ∈ (p x).past, mo.isFailure = false ∧ mo.isDrop = false) ∧
    (p .server).machine.session.idOf ⟨0⟩ = (p .client).machine.session.idOf ⟨0⟩ ∧
    (∀ x, p.Settled x ⟨0⟩ ∧ (p x).wire = [] ∧ (p x).inbox = [] ∧ (p x).machine.session.outbox.parcels = [] ∧
      (p x).machine.session.outstanding = []) ∧
    (∀ mo ∈ (p .client).past, (mo.op? matches some (.reset ..)) = false) ∧
    (∀ got ∈ spoken (p .client).past, got.reset? = none) ∧
    ⟨0⟩ ∈ (p .server).machine.session.table ∧
    ((p .server).machine.session.stream ⟨0⟩).listener = some ⟨"echo"⟩ ∧
    (∀ x, (p x).machine.session.goAwaySent = false) ∧
    acceptedData ⟨0⟩ (p .client).past = [1, 2, 3] ∧ heardData ⟨0⟩ (p .server).past = [] := by
  refine ⟨_, @run_of_replay? (fun _ => 16384) (new fun x => .fresh x.config (some ⟨"app"⟩))
    (List.flatten [
      Act.happensAll .server [.invoke (.reset .v3 1 .cancel), .tick, .answer none, .tick, .leave,
        .invoke (.complete 1), .tick, .tick, .leave],
      Act.happensAll .client [.invoke (.syn .v3 (.plain default false) none), .tick, .tick, .answer none, .tick,
        .leave, .invoke (.data ⟨0⟩ ⟨[1, 2, 3], false⟩), .tick, .leave],
      [.arrives .server 16, .reads .client],
      Act.happensAll .client [.tick, .answer none, .tick, .tick, .tick, .tick, .leave, .invoke (.complete 1), .tick,
        .tick, .tick, .tick, .leave],
      [.arrives .client 22, .reads .server],
      Act.happensAll .server [.tick, .tick, .answer (some ⟨"echo"⟩), .tick, .tick, .leave]]) (by decide +kernel), ?_⟩
  decide +kernel

end Pair

end Spdy
