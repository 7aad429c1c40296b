import Spdy.Proofs.Channel

/-!
# Letters that are certain

Data that waits is dropped if its stream is given up. What was handed over stays handed over, and a control frame that
waits is handed over in the end: these letters are certain. What is being written and what is left to do is certain
too, as long as every write is reported as done and the controller does not break off.

* `assured` : what was handed over, and the control frames that wait; `Utters.assured_mono`, `Utters.of_assured`;
* `Hands`, `hands_of_next?` : what a moment does to the write in progress, and what is read of it;
* `event_of_gone`, `report_of_gone` : a write in progress stays until it is reported, with all that its report leaves;
* `session_of_task?`, `session_of_taken?` : what a task and a frame that is received do, at once;
* `task?_of_gone` : a task that is left stays until it is done.
-/

namespace Spdy

/-! ## Letters -/

def assured (past : List Moment) (s : Session) : List Received := spoken past ++ s.letters.filter (!·.isData)

section Assured

variable {past : List Moment} {s : Session} {mo : Moment} {got : Received} {cap : Nat}

theorem mem_assured : got ∈ assured past s ↔ got ∈ spoken past ∨ got ∈ s.letters ∧ got.isData = false := by
  rw [assured, List.mem_append, List.mem_filter, Bool.not_eq_true']

theorem Utters.assured_mono (h : Utters cap mo) (hwritten : mo.isFailure = false ∧ mo.isDrop = false)
    (hgot : got ∈ assured past mo.before.session) : got ∈ assured (past ++ [mo]) mo.after.session := by
  rw [mem_assured, spoken_append, List.mem_append]
  rcases mem_assured.1 hgot with hgot | ⟨hgot, hdata⟩
  · exact .inl (.inl hgot)
  have hne : ∀ {x : Received}, x.isData → got ≠ x := by
    rintro x hx rfl
    rw [hx] at hdata
    cases hdata
  cases h with
  | post deed session silent letters =>
    rw [letters]
    exact .inr ⟨List.mem_append_left _ hgot, hdata⟩
  | less silent sublist kept => exact .inr ⟨kept got hgot hdata, hdata⟩
  | control spoken letters letters' =>
    rw [letters, List.mem_append, List.mem_cons] at hgot
    rw [letters', List.mem_append, spoken]
    rcases hgot with hgot | rfl | hgot
    · exact .inr ⟨.inl hgot, hdata⟩
    · exact .inl (.inr List.mem_cons_self)
    · exact .inr ⟨.inr hgot, hdata⟩
  | cut spoken letters letters' =>
    rw [letters, List.mem_append, List.mem_cons] at hgot
    rw [letters']
    rcases hgot with hgot | hgot | hgot
    · exact .inr ⟨List.mem_append_right _ (List.mem_append_left _ hgot), hdata⟩
    · exact absurd hgot (hne rfl)
    · exact .inr ⟨List.mem_append_right _ (List.mem_append_right _ hgot), hdata⟩
  | more silent isData letters letters' =>
    rw [letters, List.mem_cons, List.mem_append] at hgot
    rw [letters', List.mem_append, List.mem_cons]
    rcases hgot with hgot | hgot | hgot
    · exact absurd hgot (hne isData)
    · exact .inr ⟨.inl hgot, hdata⟩
    · exact .inr ⟨.inr (.inr hgot), hdata⟩
  | lost loses =>
    rw [hwritten.1, hwritten.2] at loses
    exact loses.elim nofun nofun

/-- What is newly certain is data that is handed over, or it is posted. -/
theorem Utters.of_assured (h : Utters cap mo) (hgot : got ∈ assured (past ++ [mo]) mo.after.session) :
    got ∈ assured past mo.before.session ∨ got.isData ∧ mo.spoken? = some got ∨
      got.isData = false ∧ ∃ p new, Deed (.standard cap) mo.before.session mo.op? mo.task? p new ∧
        mo.after.session = p.session ∧ got ∈ new.filterMap (·.letter? p.session.idOf) := by
  rw [mem_assured, spoken_append, List.mem_append, Option.mem_toList] at hgot
  rw [mem_assured]
  rcases hgot with (hgot | hgot) | ⟨hgot, hdata⟩
  · exact .inl (.inl hgot)
  · cases hdata : got.isData with
    | true => exact .inr (.inl ⟨rfl, hgot⟩)
    | false =>
      refine .inl (.inr ⟨?_, rfl⟩)
      cases h with
      | post deed session silent => cases silent.symm.trans hgot
      | less silent => cases silent.symm.trans hgot
      | control spoken letters =>
        obtain rfl := Option.some.inj (spoken.symm.trans hgot)
        rw [letters]
        exact List.mem_append_right _ List.mem_cons_self
      | cut spoken =>
        obtain rfl := Option.some.inj (spoken.symm.trans hgot)
        cases hdata
      | more silent => cases silent.symm.trans hgot
      | lost loses silent => cases silent.symm.trans hgot
  · have hne : ∀ {x : Received}, x.isData → got ≠ x := by
      rintro x hx rfl
      rw [hx] at hdata
      cases hdata
    cases h with
    | @post p new deed session silent letters =>
      rw [letters, List.mem_append] at hgot
      rcases hgot with hgot | hgot
      · exact .inl (.inr ⟨hgot, hdata⟩)
      · exact .inr (.inr ⟨hdata, p, new, deed, session, session ▸ hgot⟩)
    | less silent sublist => exact .inl (.inr ⟨sublist.subset hgot, hdata⟩)
    | control spoken letters letters' =>
      rw [letters', List.mem_append] at hgot
      rw [letters, List.mem_append, List.mem_cons]
      exact .inl (.inr ⟨hgot.imp_right .inr, hdata⟩)
    | @cut r frame payload rest before after spoken letters letters' =>
      rw [letters', List.mem_append, List.mem_append] at hgot
      rw [letters, List.mem_append, List.mem_cons]
      rcases hgot with hgot | hgot
      · split at hgot
        · cases hgot
        · exact absurd (List.mem_singleton.1 hgot) (hne rfl)
      · exact .inl (.inr ⟨hgot.imp_right .inr, hdata⟩)
    | more silent isData letters letters' =>
      rw [letters', List.mem_append, List.mem_cons] at hgot
      rw [letters, List.mem_cons, List.mem_append]
      rcases hgot with hgot | hgot | hgot
      · exact .inl (.inr ⟨.inr (.inl hgot), hdata⟩)
      · exact absurd hgot (hne isData)
      · exact .inl (.inr ⟨.inr (.inr hgot), hdata⟩)
    | lost loses silent sublist => exact .inl (.inr ⟨sublist.subset hgot, hdata⟩)

end Assured

/-! ## The write in progress -/

/-- What a moment does to the write in progress, and what is read of a frame that is handed over. -/
inductive Hands (mo : Moment) : Prop
  | nothing (silent : mo.spoken? = none)
      (sublist : mo.after.session.outstanding.Sublist mo.before.session.outstanding)
  | control {x : Handler} {type : FrameType} {bytes : Bytes} {r : Option StreamRef} {got : Received}
      (spoken : mo.spoken? = some got) (isData : got.isData = false) (outstanding : mo.after.session.outstanding = [x])
      (parcel : x.parcel = .control type bytes r)
  | data {x : Handler} {r : StreamRef} {rest : Payload} {written : Nat} {frame : DataFrame}
      (spoken : mo.spoken? = some (.data frame)) (outstanding : mo.after.session.outstanding = [x])
      (parcel : x.parcel = .data r rest written) (known : r.serial < mo.before.session.streams.size)
      (about : frame.streamId = mo.before.session.idOf r) (closes : frame.closes = (rest.isEmpty && rest.close))

section Hands

variable {cap : Nat} {config : Config} {primary : Option Listener} {s : Session} {past : List Moment}
  {m m' : Machine} {e : Event}

/-- A write in progress stays in progress until it is reported or given up. -/
theorem event_of_gone (hnew : Session.new config primary = .ok s)
    (run : Run (.standard cap) { session := s } past m) (h : m.next? (.standard cap) e = some m') {x : Handler}
    (hx : x ∈ m.session.outstanding) :
    x ∈ m'.session.outstanding ∨ e = .invoke (.complete x.seq) ∨ (∃ fault, e = .invoke (.fail x.seq fault)) ∨
      Moment.isDrop ⟨m, e, m'⟩ := by
  have kept : m'.session.outstanding = m.session.outstanding → x ∈ m'.session.outstanding := fun heq => heq ▸ hx
  -- there is only one write at a time
  have hone := only_outstanding (owed_le_of_new hnew run) hx
  cases Machine.happens_of_next? h with
  | invoke op yields possible =>
    cases hr : op.isReport with
    | false =>
      obtain ⟨new, -, work⟩ := m.session.begin_work (.standard cap) m.isAlive hr possible
      exact .inl (kept work.adds.outstanding)
    | true =>
      cases op with
      | complete seq =>
        obtain ⟨y, hy, rfl, -⟩ := Session.report_of_possible Session.wrote possible
        rw [hone, List.mem_singleton] at hy
        exact .inr (.inl (by rw [hy]))
      | fail seq fault =>
        obtain ⟨y, hy, rfl, -⟩ := Session.report_of_possible (fun s p => s.notWritten p fault) possible
        rw [hone, List.mem_singleton] at hy
        exact .inr (.inr (.inl ⟨fault, by rw [hy]⟩))
      | _ => cases hr
  | @tick task rest outcome below stack notCall =>
    refine .inl ?_
    have hplain : task.isPlain → task ≠ .flush →
        x ∈ (m.session.perform (.standard cap) task).session.outstanding := by
      intro hplain hflush
      obtain ⟨new, -, posts⟩ := m.session.perform_posts (.standard cap) hplain hflush notCall
      exact kept posts.adds.outstanding
    cases task with
    | call c => cases notCall
    | flush =>
      have hflush := flush_cases cap m.session
      show x ∈ (m.session.flush (.standard cap)).session.outstanding
      generalize m.session.flush (.standard cap) = p at hflush
      cases hflush with
      | idle => exact hx
      | drop => exact hx
      | hand => exact List.mem_append_left _ hx
    | endWrite seq => exact hx
    | release => exact hx
    | _ => exact hplain rfl nofun
  | answer reply stack => exact .inl (kept (Calm.accept _ _ _).outstanding)
  | caught p stack tell => exact .inl (kept (Calm.accept _ _ _).outstanding)
  | broken p stack notTell => exact .inl hx
  | leave stack => exact .inl hx
  | edit e yields => exact .inl (kept (Calm.edit _ _).outstanding)
  | drop seq yields => exact .inr (.inr (.inr rfl))

/-- A write in progress is reported to the work that its parcel stands for. -/
theorem report_of_outstanding (hnew : Session.new config primary = .ok s)
    (run : Run (.standard cap) { session := s } past m) {x : Handler} (hx : x ∈ m.session.outstanding)
    (f : Session → Parcel → Progress) :
    m.session.report x.seq f = f (m.session.dropHandler x.seq) x.parcel := by
  have hone := only_outstanding (owed_le_of_new hnew run) hx
  simp [Session.report, hone]

/-- Unless a write fails or a handler is given up, all that a report leaves comes with it. -/
theorem report_of_gone (hnew : Session.new config primary = .ok s)
    (run : Run (.standard cap) { session := s } past m) (h : m.next? (.standard cap) e = some m')
    (hwritten : Moment.isFailure ⟨m, e, m'⟩ = false ∧ Moment.isDrop ⟨m, e, m'⟩ = false) {x : Handler}
    (hx : x ∈ m.session.outstanding) :
    x ∈ m'.session.outstanding ∨
      m'.session = ((m.session.dropHandler x.seq).wrote x.parcel).session ∧
        m'.tasks = ((m.session.dropHandler x.seq).wrote x.parcel).todo ++ m.tasks := by
  rcases event_of_gone hnew run h hx with hx' | rfl | ⟨fault, rfl⟩ | hdrop
  · exact .inl hx'
  · have hreport := report_of_outstanding hnew run hx Session.wrote
    cases Machine.happens_of_next? h with
    | invoke op yields possible =>
      refine .inr ⟨congrArg Progress.session hreport, ?_⟩
      exact (m.tasks_invoke _ _).trans (congrArg (fun p : Progress => p.todo ++ m.tasks) hreport)
  · cases hwritten.1
  · cases hwritten.2.symm.trans hdrop

end Hands

/-! ## Tasks that are left -/

section Tasks

variable {cap : Nat} {m m' : Machine} {e : Event}

/-- What the session is after a task is what the task makes of it. -/
theorem session_of_task? (h : m.next? (.standard cap) e = some m') {task : Task}
    (htask : Moment.task? ⟨m, e, m'⟩ = some task) :
    m'.session = (m.session.perform (.standard cap) task).session ∧
      ∀ x ∈ (m.session.perform (.standard cap) task).todo, x ∈ m'.tasks := by
  cases Machine.happens_of_next? h with
  | @tick task' rest outcome below stack notCall =>
    have heq : Moment.task? ⟨m, .tick, ⟨(m.session.perform (.standard cap) task').session,
        ⟨(m.session.perform (.standard cap) task').todo ++ rest, outcome⟩ :: below⟩⟩ = some task' := by
      simp [Moment.task?, stack]
    obtain rfl := Option.some.inj (heq.symm.trans htask)
    refine ⟨rfl, fun x hx => ?_⟩
    rw [Machine.tasks_of_stack rfl]
    exact List.mem_append_left _ (List.mem_append_left _ hx)
  | _ => cases htask

/-- What the session is after it received something is what it makes of it. -/
theorem session_of_taken? (h : m.next? (.standard cap) e = some m') {got : Received}
    (htaken : Moment.taken? ⟨m, e, m'⟩ = some got) :
    m'.session = (m.session.receive (.standard cap) got).session ∧
      ∀ x ∈ (m.session.receive (.standard cap) got).todo, x ∈ m'.tasks := by
  cases Machine.happens_of_next? h with
  | invoke op yields possible =>
    cases op with
    | receive got' =>
      obtain rfl : got' = got := Option.some.inj htaken
      refine ⟨rfl, fun x hx => ?_⟩
      rw [Machine.tasks_of_stack rfl]
      exact List.mem_append_left _ hx
    | _ => cases htaken
  | _ => cases htaken

/-- A task stays until it is done, unless the controller breaks off. -/
theorem task?_of_gone (h : m.next? (.standard cap) e = some m') (hbreak : Moment.isBreak ⟨m, e, m'⟩ = false) {x : Task}
    (hx : x ∈ m.tasks) (notCall : x.isCall = false) : x ∈ m'.tasks ∨ Moment.task? ⟨m, e, m'⟩ = some x := by
  have below_of_ne : ∀ {task : Task} {rest : List Task} {outcome : Outcome} {below : List Activation},
      m.stack = ⟨task :: rest, outcome⟩ :: below → x ≠ task →
      x ∈ rest ++ below.flatMap Activation.todo := by
    intro task rest outcome below stack hne
    rw [Machine.tasks_of_stack stack] at hx
    exact (List.mem_cons.1 hx).resolve_left hne
  have ne_call : ∀ c, x ≠ .call c := by
    rintro c rfl
    cases notCall
  cases Machine.happens_of_next? h with
  | invoke op yields possible =>
    refine .inl ?_
    rw [Machine.tasks_of_stack rfl]
    exact List.mem_append_right _ hx
  | @tick task rest outcome below stack notCall' =>
    by_cases heq : x = task
    · subst heq
      exact .inr (by simp [Moment.task?, stack])
    · refine .inl ?_
      rw [Machine.tasks_of_stack rfl, List.append_assoc]
      exact List.mem_append_right _ (below_of_ne stack heq)
  | answer reply stack =>
    refine .inl ?_
    rw [Machine.tasks_of_stack rfl]
    exact below_of_ne stack (ne_call _)
  | caught p stack tell =>
    refine .inl ?_
    rw [Machine.tasks_of_stack rfl]
    exact below_of_ne stack (ne_call _)
  | @broken p c rest outcome below stack notTell =>
    have hwaits := Machine.awaited?_of_stack stack
    rw [Moment.isBreak] at hbreak
    cases c with
    | tell => cases notTell
    | _ => simp [hwaits] at hbreak
  | leave stack =>
    refine .inl ?_
    rw [Machine.tasks_of_stack stack] at hx
    exact hx
  | edit e yields => exact .inl hx
  | drop seq yields => exact .inl hx

end Tasks

end Spdy
