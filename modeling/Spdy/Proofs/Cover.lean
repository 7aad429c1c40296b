import Spdy.Proofs.Windows

/-!
# The window can make up for every write

When data was written, the window of its stream shrinks. That this never fails is not obvious: the peer may
have changed the size of windows in the meantime, more than once. But a stream whose window did not move
with the others is given up before the next SETTINGS arrive.

* `inProgress`, `SettingsInTurn` : SETTINGS are not received while others are being dealt with
  (`settingsInTurn_of_outermost`);
* `Pursues`, `pursues_of_happens` : what becomes of the operations in progress;
* `Doomed` : a stream that SETTINGS are going to give up;
* `Backed`, `Covered` : the window of a stream makes up for what is being written;
* `never_stuck` : so it is in every run.
-/

namespace Spdy

/-! ## Operations in progress -/

def Operation.isSettings : Operation → Bool
  | .receive (.control ⟨_, .settings ..⟩) => true
  | _ => false

def Event.track (ops : List Operation) : Event → List Operation
  | .invoke op => op :: ops
  | .leave => ops.tail
  | _ => ops

/-- The operations in progress after all that happened, innermost first. -/
def inProgress (past : List Moment) : List Operation := past.foldl (fun ops mo => mo.event.track ops) []

/-- SETTINGS are not received while others are being dealt with: a reader reads one frame after
another. -/
def SettingsInTurn (past : List Moment) : Prop :=
  ∀ i, ∀ h : i < past.length, past[i].op?.any Operation.isSettings →
    (inProgress (past.take i)).any Operation.isSettings = false

instance (past : List Moment) : Decidable (SettingsInTurn past) :=
  inferInstanceAs (Decidable (∀ i, ∀ h : i < past.length, past[i].op?.any Operation.isSettings →
    (inProgress (past.take i)).any Operation.isSettings = false))

theorem inProgress_append (past : List Moment) (mo : Moment) :
    inProgress (past ++ [mo]) = mo.event.track (inProgress past) := by
  rw [inProgress, List.foldl_append, ← inProgress]
  rfl

/-- Operations of a kind go on being begun in turn if none of them is in progress when the next one is begun. -/
theorem inTurn_append (kind : Operation → Bool) (past : List Moment) (mo : Moment) :
    (∀ i, ∀ h : i < (past ++ [mo]).length, (past ++ [mo])[i].op?.any kind →
        (inProgress ((past ++ [mo]).take i)).any kind = false) ↔
      (∀ i, ∀ h : i < past.length, past[i].op?.any kind → (inProgress (past.take i)).any kind = false) ∧
        (mo.op?.any kind → (inProgress past).any kind = false) := by
  have hlength : (past ++ [mo]).length = past.length + 1 := List.length_append
  constructor
  · intro h
    constructor
    · intro i hi hop
      have := h i (by omega)
      rw [List.getElem_append_left hi, List.take_append_of_le_length (Nat.le_of_lt hi)] at this
      exact this hop
    · intro hop
      have := h past.length (by omega)
      rw [List.getElem_concat_length rfl, List.take_left] at this
      exact this hop
  · rintro ⟨hpast, hmo⟩ i hlt hop
    by_cases hi : i < past.length
    · rw [List.getElem_append_left hi] at hop
      rw [List.take_append_of_le_length (Nat.le_of_lt hi)]
      exact hpast i hi hop
    · obtain rfl : i = past.length := by omega
      rw [List.getElem_concat_length rfl] at hop
      rw [List.take_left]
      exact hmo hop

theorem settingsInTurn_append {past : List Moment} {mo : Moment} :
    SettingsInTurn (past ++ [mo]) ↔ SettingsInTurn past ∧
      (mo.op?.any Operation.isSettings → (inProgress past).any Operation.isSettings = false) :=
  inTurn_append Operation.isSettings past mo

theorem length_track {cap : Nat} {m m' : Machine} {e : Event} {ops : List Operation}
    (h : Happens (.standard cap) m e m') (hlen : ops.length = m.stack.length) :
    (e.track ops).length = m'.stack.length := by
  cases h with
  | invoke => simp [Event.track, hlen]
  | tick stack => simp [Event.track, hlen, stack]
  | answer reply stack => simp [Event.track, hlen, stack]
  | caught p stack => simp [Event.track, hlen, stack]
  | broken p stack => simp [Event.track, hlen, stack]
  | leave stack => simp [Event.track, hlen, stack]
  | edit => exact hlen
  | drop => exact hlen

theorem length_inProgress {cap : Nat} {s : Session} {past : List Moment} {m : Machine}
    (run : Run (.standard cap) { session := s } past m) :
    (inProgress past).length = m.stack.length := by
  induction run with
  | start => rfl
  | next run h ih =>
    rw [inProgress_append]
    exact length_track (Machine.happens_of_next? h) ih

/-- What becomes of the operations in progress, each with what is left of it to do. -/
inductive Pursues (enc : Encoder) (m m' : Machine) : List (Activation × Operation) → List (Activation × Operation) → Prop
  | begins {op : Operation} {outcome : Outcome} {jobs : List (Activation × Operation)} :
      Pursues enc m m' jobs ((⟨(m.session.begin enc m.isAlive op).todo, outcome⟩, op) :: jobs)
  | performs {task : Task} {rest : List Task} {outcome : Outcome} {op : Operation}
      {jobs : List (Activation × Operation)} (notCall : task.isCall = false)
      (session : m'.session = (m.session.perform enc task).session) :
      Pursues enc m m' ((⟨task :: rest, outcome⟩, op) :: jobs)
        ((⟨(m.session.perform enc task).todo ++ rest, outcome⟩, op) :: jobs)
  | returns {c : Call} {rest : List Task} {outcome : Outcome} {op : Operation}
      {jobs : List (Activation × Operation)} :
      Pursues enc m m' ((⟨.call c :: rest, outcome⟩, op) :: jobs) ((⟨rest, outcome⟩, op) :: jobs)
  | breaks {c : Call} {rest : List Task} {outcome outcome' : Outcome} {op : Operation}
      {jobs : List (Activation × Operation)} (notTell : c.isTell = false) :
      Pursues enc m m' ((⟨.call c :: rest, outcome⟩, op) :: jobs) ((⟨[], outcome'⟩, op) :: jobs)
  | leaves {outcome : Outcome} {op : Operation} {jobs : List (Activation × Operation)} :
      Pursues enc m m' ((⟨[], outcome⟩, op) :: jobs) jobs
  | stays {jobs : List (Activation × Operation)} : Pursues enc m m' jobs jobs

theorem pursues_of_happens {enc : Encoder} {m m' : Machine} {e : Event} {ops : List Operation} (h : Happens enc m e m')
    (hlen : ops.length = m.stack.length) : Pursues enc m m' (m.stack.zip ops) (m'.stack.zip (e.track ops)) := by
  have hops : ∀ {a below}, m.stack = a :: below → ∃ o os, ops = o :: os := by
    intro a below hstack
    refine List.exists_cons_of_length_eq_add_one (n := below.length) ?_
    rw [hlen, hstack, List.length_cons]
  cases h with
  | invoke op => exact .begins
  | tick stack notCall =>
    obtain ⟨o, os, rfl⟩ := hops stack
    rw [stack]
    exact .performs notCall rfl
  | answer reply stack =>
    obtain ⟨o, os, rfl⟩ := hops stack
    rw [stack]
    exact .returns
  | caught p stack tell =>
    obtain ⟨o, os, rfl⟩ := hops stack
    rw [stack]
    exact .returns
  | broken p stack notTell =>
    obtain ⟨o, os, rfl⟩ := hops stack
    rw [stack]
    exact .breaks notTell
  | leave stack =>
    obtain ⟨o, os, rfl⟩ := hops stack
    rw [stack]
    exact .leaves
  | edit => exact .stays
  | drop => exact .stays

/-- SETTINGS come in turn if the reader hands frames over while the session does nothing else. -/
theorem settingsInTurn_of_outermost {cap : Nat} {s : Session} {past : List Moment} {m : Machine}
    (run : Run (.standard cap) { session := s } past m)
    (h : ∀ mo ∈ past, mo.op?.any Operation.isSettings → mo.before.stack = []) :
    SettingsInTurn past := by
  induction run with
  | start => exact fun i hi => (nomatch hi)
  | @next past m e m' run hnext ih =>
    refine settingsInTurn_append.2 ⟨ih fun mo hmo => h mo (List.mem_append_left _ hmo), fun hop => ?_⟩
    have hstack : m.stack = [] := h _ (List.mem_append_right _ List.mem_cons_self) hop
    have hlen := length_inProgress run
    rw [hstack, List.length_nil, List.length_eq_zero_iff] at hlen
    rw [hlen]
    rfl

/-! ## Streams that SETTINGS give up -/

/-- SETTINGS that are being dealt with are going to give a stream up. -/
def Doomed (ops : List Operation) (m : Machine) (r : StreamRef) : Prop :=
  ∃ a op, (a, op) ∈ m.stack.zip ops ∧ op.isSettings ∧ GivesUp m.session r a.todo

theorem doomed_of_happens {cap : Nat} {m m' : Machine} {e : Event} {ops : List Operation}
    {r : StreamRef} (h : Happens (.standard cap) m e m') (hlen : ops.length = m.stack.length)
    (hbusy : m.session.outbox.busy = true) (hid : m'.session.idOf r = m.session.idOf r)
    (hd : Doomed ops m r) :
    Doomed (e.track ops) m' r ∨ m'.session.goAwaySent ∨ r ∉ m'.session.table := by
  have hpursues := pursues_of_happens h hlen
  unfold Doomed at hd ⊢
  generalize m.stack.zip ops = jobs at hpursues hd
  generalize m'.stack.zip (e.track ops) = jobs' at hpursues ⊢
  obtain ⟨a, op, hmem, hop, hgives⟩ := hd
  -- an operation that is not the innermost one goes on as it was
  have hstays : (a, op) ∈ jobs' → ∃ a op, (a, op) ∈ jobs' ∧ op.isSettings ∧ GivesUp m'.session r a.todo := fun hin =>
    ⟨a, op, hin, hop, hgives.of_idOf hid⟩
  cases hpursues with
  | begins => exact .inl (hstays (List.mem_cons_of_mem _ hmem))
  | performs notCall session =>
    rcases List.mem_cons.1 hmem with heq | hin
    · obtain ⟨rfl, rfl⟩ := Prod.mk.inj heq
      rw [session] at hid ⊢
      exact (Session.givesUp_of_perform hgives hbusy notCall hid).imp_left fun hgives =>
        ⟨_, op, List.mem_cons_self, hop, hgives⟩
    · exact .inl (hstays (List.mem_cons_of_mem _ hin))
  | returns =>
    rcases List.mem_cons.1 hmem with heq | hin
    · obtain ⟨rfl, rfl⟩ := Prod.mk.inj heq
      exact .inl ⟨_, op, List.mem_cons_self, hop, (Session.givesUp_of_call hgives).2.of_idOf hid⟩
    · exact .inl (hstays (List.mem_cons_of_mem _ hin))
  | breaks notTell =>
    rcases List.mem_cons.1 hmem with heq | hin
    · obtain ⟨rfl, rfl⟩ := Prod.mk.inj heq
      cases (Session.givesUp_of_call hgives).1.symm.trans notTell
    · exact .inl (hstays (List.mem_cons_of_mem _ hin))
  | leaves =>
    rcases List.mem_cons.1 hmem with heq | hin
    · obtain ⟨rfl, rfl⟩ := Prod.mk.inj heq
      obtain ⟨pre, x, post, htodo, -⟩ := hgives
      simp at htodo
    · exact .inl (hstays hin)
  | stays => exact .inl (hstays hmem)

/-! ## Windows make up for writes -/

/-- The window of a stream can make up for bytes that are being written, and could so after SETTINGS too
if the stream is open, the session goes on and the stream is not going to be given up. -/
structure Backed (ops : List Operation) (m : Machine) (r : StreamRef) (written : Nat) : Prop where
  small : (written : Int) ≤ Stream.maxWindow
  deep : -Stream.maxWindow ≤ (m.session.stream r).window - written
  high : r ∈ m.session.table →
    m.session.initialWindow - Stream.maxWindow ≤ (m.session.stream r).window - written ∨
      m.session.goAwaySent ∨ Doomed ops m r

/-- Windows are in their range, and make up for what is being written. -/
structure Covered (ops : List Operation) (m : Machine) : Prop where
  initial : 0 ≤ m.session.initialWindow ∧ m.session.initialWindow ≤ Stream.maxWindow
  window : ∀ r, (m.session.stream r).window ≤ Stream.maxWindow
  tidy : m.session.Tidy
  backed : ∀ h ∈ m.session.outstanding, ∀ r payload written, h.parcel = .data r payload written →
    Backed ops m r written

section Moment

variable {cap : Nat} {m m' : Machine} {e : Event} {ops ops' : List Operation}

theorem Backed.keep {r : StreamRef} {written : Nat} (hb : Backed ops m r written)
    (hk : Keeps m.session m'.session) (hr : r.serial < m.session.streams.size)
    (hd : Doomed ops m r → Doomed ops' m' r ∨ m'.session.goAwaySent ∨ r ∉ m'.session.table) :
    Backed ops' m' r written := by
  have hgrows := hk.grows r hr
  have hdeep := hb.deep
  refine ⟨hb.small, by omega, fun hin => ?_⟩
  have hin' : r ∈ m.session.table := by
    rcases hk.table r hin with h | h
    · exact h
    · omega
  rw [hk.initialWindow]
  rcases hb.high hin' with h | h | h
  · exact .inl (by omega)
  · exact .inr (.inl (hk.goAwaySent h))
  · rcases hd h with h | h | h
    · exact .inr (.inr h)
    · exact .inr (.inl h)
    · exact absurd hin h

theorem Covered.keep (hc : Covered ops m) (hknown : m.session.Known)
    (hk : Keeps m.session m'.session)
    (hout : ∀ h ∈ m'.session.outstanding, h ∈ m.session.outstanding)
    (hd : ∀ r, r.serial < m.session.streams.size → m.session.outstanding ≠ [] → Doomed ops m r →
      Doomed ops' m' r ∨ m'.session.goAwaySent ∨ r ∉ m'.session.table) : Covered ops' m' := by
  refine ⟨?_, hk.window hc.window hc.initial.2, hk.tidy hc.tidy, ?_⟩
  · rw [hk.initialWindow]
    exact hc.initial
  · intro h hh r payload written hparcel
    have hmem := hout h hh
    have hr : r.serial < m.session.streams.size := hknown.leaving h hmem r (by rw [hparcel]; rfl)
    exact (hc.backed h hmem r payload written hparcel).keep hk hr
      (hd r hr (List.ne_nil_of_mem hmem))

/-- SETTINGS move windows and the size of new ones alike, or give streams up. -/
theorem Covered.resize (hc : Covered ops m) (hknown : m.session.Known)
    (hquiet : ops.any Operation.isSettings = false) {op : Operation} (hop : op.isSettings)
    (hsent : m.session.goAwaySent = false) {p : Progress} (hp : Session.Resized m.session p)
    (hsession : m'.session = p.session) {outcome : Outcome} {below : List Activation}
    (hstack : m'.stack = ⟨p.todo, outcome⟩ :: below) : Covered (op :: ops) m' := by
  have hnot : ∀ r, ¬Doomed ops m r := by
    rintro r ⟨a, op', hmem, hop', -⟩
    have := List.any_eq_false.1 hquiet op' (List.of_mem_zip hmem).2
    exact this hop'
  have hinit : 0 ≤ m'.session.initialWindow ∧ m'.session.initialWindow ≤ Stream.maxWindow := by
    rw [hsession]
    exact hp.initial hc.initial
  refine ⟨hinit, ?_, ?_, ?_⟩
  · rw [hsession]
    exact hp.bounded hc.window
  · rw [hsession]
    exact hp.steady.tidy hc.tidy
  · intro h hh r payload written hparcel
    rw [hsession, hp.steady.outstanding] at hh
    have hr : r.serial < m.session.streams.size := hknown.leaving h hh r (by rw [hparcel]; rfl)
    have hb := hc.backed h hh r payload written hparcel
    have hdeep := hb.deep
    have htable : r ∈ m'.session.table → r ∈ m.session.table := by
      intro hin
      rw [hsession] at hin
      rcases hp.steady.table r hin with h | h
      · exact h
      · omega
    by_cases hin : r ∈ m.session.table
    · have hhigh : m.session.initialWindow - Stream.maxWindow ≤
          (m.session.stream r).window - written := by
        rcases hb.high hin with h | h | h
        · exact h
        · rw [hsent] at h
          cases h
        · exact absurd h (hnot r)
      rcases hp.moved r hin with hm | ⟨hm, hgives⟩
      · rw [← hsession] at hm
        exact ⟨hb.small, by omega, fun _ => .inl (by omega)⟩
      · refine ⟨hb.small, ?_, fun _ => .inr (.inr ⟨⟨p.todo, outcome⟩, op, ?_, hop, ?_⟩)⟩
        · rw [hsession, hm]
          exact hdeep
        · rw [hstack, List.zip_cons_cons]
          exact List.mem_cons_self
        · rw [hsession]
          exact hgives
    · refine ⟨hb.small, ?_, fun h => absurd (htable h) hin⟩
      rw [hsession, hp.others r hin]
      exact hdeep

theorem Covered.settings (hc : Covered ops m) (hknown : m.session.Known)
    (hquiet : ops.any Operation.isSettings = false) (hsent : m.session.goAwaySent = false)
    {version : Version} {flags : UInt8} {entries : List Setting}
    (h : Happens (.standard cap) m
      (.invoke (.receive (.control ⟨version, .settings flags entries⟩))) m') :
    Covered (.receive (.control ⟨version, .settings flags entries⟩) :: ops) m' := by
  have hbegin : (m.session.begin (.standard cap) m.isAlive
      (.receive (.control ⟨version, .settings flags entries⟩))).toProgress =
        m.session.receiveSettings ⟨entries, Flag.has flags Flag.clearSettings⟩ :=
    Session.receive_control _ hsent ⟨version, .settings flags entries⟩
  cases h with
  | invoke =>
    exact hc.resize hknown hquiet rfl hsent (Session.receiveSettings_resized hc.tidy _)
      (congrArg Progress.session hbegin)
      (congrArg (fun p : Progress => Activation.mk p.todo _ :: m.stack) hbegin)

theorem Framed.written_le {s : Session} {q : Parcel} {bytes : Bytes} {r : StreamRef}
    {payload : Payload} {written : Nat} (h : Framed cap s q bytes (.data r payload written)) :
    (written : Int) ≤ (s.stream r).window := by
  cases h with
  | data r payload _ alive window chunk =>
    have hlength := Payload.length_of_chunk chunk
    omega

theorem Covered.flush (hc : Covered ops m) (hknown : m.session.Known) {p : Progress}
    (work : Flushed cap m.session p) (hsession : m'.session = p.session)
    (howed : m.owed ≤ m.session.outbox.busy.toNat)
    (hd : ∀ r, r.serial < m.session.streams.size → m.session.outstanding ≠ [] → Doomed ops m r →
      Doomed ops' m' r ∨ m'.session.goAwaySent ∨ r ∉ m'.session.table) : Covered ops' m' := by
  have hk : Keeps m.session m'.session := by
    rw [hsession]
    exact .of_flush work
  cases work with
  | idle => exact hc.keep hknown hk (fun h hh => by rw [hsession] at hh; exact hh) hd
  | drop => exact hc.keep hknown hk (fun h hh => by rw [hsession] at hh; exact hh) hd
  | @hand before after q q' bytes free parcels blocked framed =>
    have hnone := (nothing_owed howed free).1
    refine ⟨?_, hk.window hc.window hc.initial.2, hk.tidy hc.tidy, ?_⟩
    · rw [hk.initialWindow]
      exact hc.initial
    · intro h hh r payload written hparcel
      have hq : h.parcel = q' := by
        rw [hsession, Session.handing, hnone] at hh
        rw [List.mem_singleton.1 hh]
      rw [← hq, hparcel] at framed
      have hle := framed.written_le
      have hmax := hc.window r
      have hinit := hc.initial
      have hstream : m'.session.stream r = m.session.stream r := by
        rw [hsession]
        rfl
      have hsize : m'.session.initialWindow = m.session.initialWindow := hk.initialWindow
      refine ⟨by omega, ?_, fun _ => .inl ?_⟩
      · rw [hstream]
        omega
      · rw [hstream, hsize]
        omega

theorem covered_of_next? (h : m.next? (.standard cap) e = some m') (placed : m.Placed)
    (hlen : ops.length = m.stack.length) (hknown : m.session.Known)
    (howed : m.owed ≤ m.session.outbox.busy.toNat)
    (hturn : (Moment.op? ⟨m, e, m'⟩).any Operation.isSettings →
      ops.any Operation.isSettings = false) (hc : Covered ops m) : Covered (e.track ops) m' := by
  have turn := turn_of_next? h placed
  have happens := Machine.happens_of_next? h
  have honward := later_of_turn turn
  have hd : ∀ r, r.serial < m.session.streams.size → m.session.outstanding ≠ [] → Doomed ops m r →
      Doomed (e.track ops) m' r ∨ m'.session.goAwaySent ∨ r ∉ m'.session.table := by
    intro r hr hne hdoomed
    obtain ⟨x, hx⟩ := List.exists_mem_of_ne_nil _ hne
    exact doomed_of_happens happens hlen (one_owed howed hx).1 (honward.later r hr).id hdoomed
  have hsame : ∀ {s' : Session}, m'.session = s' → s'.streams = m.session.streams →
      s'.table = m.session.table → s'.initialWindow = m.session.initialWindow →
      s'.goAwaySent = m.session.goAwaySent → (∀ x ∈ s'.outstanding, x ∈ m.session.outstanding) →
      Covered (e.track ops) m' := by
    rintro s' rfl hstreams htable hwindow hsent hout
    exact hc.keep hknown (.of_same hstreams htable hwindow hsent) hout hd
  cases turn with
  | @plain p new gone common work session before after hgone said handed =>
    cases work with
    | posts hp =>
      refine hc.keep hknown ?_ (fun x hx => ?_) hd
      · rw [show m'.session = p.session from session]
        exact .of_posts hp
      · rw [show m'.session = p.session from session, hp.adds.outstanding] at hx
        exact hx
    | lifts nil hop hp =>
      refine hc.keep hknown ?_ (fun x hx => ?_) hd
      · rw [show m'.session = p.session from session]
        exact .of_lifts hp
      · rw [show m'.session = p.session from session, hp.session.outstanding] at hx
        exact hx
    | @resizes version flags entries nil hop sent eq =>
      have hevent : e = .invoke (.receive (.control ⟨version, .settings flags entries⟩)) := by
        cases e <;> simp_all [Moment.op?]
      subst hevent
      exact hc.settings hknown (hturn rfl) sent happens
  | flush work session => exact hc.flush hknown work session howed hd
  | endWrite session => exact hsame session rfl rfl rfl rfl fun _ hx => hx
  | release session => exact hsame session rfl rfl rfl rfl fun _ hx => hx
  | @wrote x p mem work session after silent =>
    have hb := Bounded.of_wrote work
    have hs : m'.session = p.session := session
    have hout : m'.session.outstanding = [] := by
      rw [hs, work.outstanding]
      exact (one_owed howed mem).2.1
    rw [← hs] at hb
    refine ⟨?_, hb.window hc.window hc.initial.2, ?_, ?_⟩
    · rw [hb.initialWindow]
      exact hc.initial
    · exact hb.tidy ⟨hc.tidy.known, hc.tidy.nodup⟩
    · intro y hy
      rw [hout] at hy
      cases hy
  | failed fails mem session =>
    exact hsame session rfl rfl rfl rfl fun _ hx => (List.mem_filter.1 hx).1
  | broken breaks session => exact hsame session rfl rfl rfl rfl fun _ hx => hx
  | dropped drops session =>
    exact hsame session rfl rfl rfl rfl fun _ hx => (List.mem_filter.1 hx).1

end Moment

theorem covered_of_run {cap : Nat} {config : Config} {primary : Option Listener} {s : Session}
    {past : List Moment} {m : Machine} (hnew : Session.new config primary = .ok s)
    (hconfig : config.initialWindow ≤ Stream.maxWindow)
    (run : Run (.standard cap) { session := s } past m) (hturn : SettingsInTurn past) :
    Covered (inProgress past) m := by
  induction run with
  | start =>
    obtain ⟨hfault, rfl⟩ := Session.new_eq_ok hnew
    have hpos : 0 < config.initialWindow := by
      unfold Config.fault? at hfault
      split at hfault
      · cases hfault
      · split at hfault
        · cases hfault
        · omega
    refine ⟨⟨Int.le_of_lt hpos, hconfig⟩, fun r => ?_, ⟨fun r hr => (nomatch hr), .nil⟩,
      fun h hh => (nomatch hh)⟩
    rw [Session.stream_of_size_le (Nat.zero_le _)]
    decide
  | next run h ih =>
    obtain ⟨hpast, hnow⟩ := settingsInTurn_append.1 hturn
    rw [inProgress_append]
    exact covered_of_next? h (placed_of_run run) (length_inProgress run) (known_of_run hnew run)
      (owed_le_of_new hnew run) hnow (ih hpast)

/-- When data was written, the window of its stream makes up for it. -/
theorem never_stuck {ops : List Operation} {m : Machine} {h : Handler} {r : StreamRef}
    {payload : Payload} {written : Nat} {e : Error} (hc : Covered ops m)
    (hmem : h ∈ m.session.outstanding) (hparcel : h.parcel = .data r payload written) :
    (m.session.stream r).credit (debit written) ≠ .error e := by
  intro hcredit
  have hb := hc.backed h hmem r payload written hparcel
  have hsmall := hb.small
  have hdeep := hb.deep
  have hmax := hc.window r
  have hpos := Stream.maxWindow_pos
  have hmin : Stream.minWindow = -Stream.maxWindow - 1 := by decide
  have hdebit : debit written = -(written : Int) := by
    unfold debit
    omega
  have := Stream.credit_eq_error hcredit
  omega

end Spdy
