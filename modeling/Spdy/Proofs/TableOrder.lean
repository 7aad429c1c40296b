import Mathlib.Data.List.Perm.Basic
import Spdy.Proofs.Lockstep
import Spdy.Proofs.Meanwhile

/-!
# The order of the table does not matter

A session that receives SETTINGS gives streams up one after another, in the order of its table. Two machines whose
tables are in different orders do the same all the while, up to which of these streams has its turn.

* `Stacks`, `Machine.Shielded`, `Paired` : two machines that give up the same streams, each in its own order;
* `Paired.tick`, `Paired.returned`, `Paired.leave`, `Paired.complete`, `Paired.next` : one step of both;
* `Paired.run` : all that happens to them, moment by moment;
* `paired_of_settings` : SETTINGS that are received at rest make two such machines;
* `Session.PartsWith`, `Session.Mirrors`, `Session.Honours` : what has become of them in the end
  (`honours_of_settings`);
* `settings_in_any_table_order` : what SETTINGS do, and that the order of the table does not matter.
-/

namespace Spdy

/-! ## Two machines -/

/-- What two machines have left to do, with the streams that each is to give up. -/
inductive Stacks (b : Session) (lost : List StreamRef) :
    List StreamRef → List StreamRef → List Activation → List Activation → Prop
  | nil : Stacks b lost [] [] [] []
  | cons {due due' more more' : List StreamRef} {todo todo' : List Task} {outcome : Outcome}
      {below below' : List Activation} (chores : Chores b lost due due' todo todo')
      (rest : Stacks b lost more more' below below') :
      Stacks b lost (due ++ more) (due' ++ more') (⟨todo, outcome⟩ :: below) (⟨todo', outcome⟩ :: below')

/-- The outbox is busy and nobody is to free it, or nothing leaves that has to do with streams that are given up. -/
def Machine.Shielded (m : Machine) (b : Session) (lost : List StreamRef) : Prop :=
  (m.session.outbox.busy ∧ ∀ x ∈ m.tasks, x.frees = false) ∨ Docile b lost m.session

/-- Two machines that give up the same streams, each in its own order. -/
structure Paired (b : Session) (lost lost' gone gone' due due' : List StreamRef) (m m' : Machine) : Prop where
  left : gone ++ due = lost
  right : gone' ++ due' = lost'
  sessions : Abreast b lost gone gone' m.session m'.session
  work : Stacks b lost due due' m.stack m'.stack
  shielded : m.Shielded b lost

section Stacks

variable {b : Session} {lost due due' : List StreamRef} {m m' : Machine}

/-- Two machines wait for calls that mirror each other, or for none. -/
theorem Stacks.awaited? (h : Stacks b lost due due' m.stack m'.stack) :
    Option.Rel (Call.Mirrors b lost) m.awaited? m'.awaited? := by
  unfold Machine.awaited?
  generalize m.stack = l at h
  generalize m'.stack = l' at h
  cases h with
  | nil => exact .none
  | cons chores rest =>
    cases chores with
    | call mirrors mere rest => exact .some mirrors
    | @mere _ _ _ _ x mere rest =>
      cases x with
      | call c => exact mere.elim
      | _ => exact .none
    | nil => exact .none
    | told => exact .none
    | overflow => exact .none
    | reset => exact .none

theorem Stacks.called? (h : Stacks b lost due due' m.stack m'.stack) {n n' : Machine} (e : Event) :
    Option.Rel (Call.Mirrors b lost) (Moment.called? ⟨n, e, m⟩) (Moment.called? ⟨n', e, m'⟩) := by
  unfold Moment.called?
  cases e with
  | invoke op => exact h.awaited?
  | tick => exact h.awaited?
  | answer reply => exact h.awaited?
  | panic p => exact h.awaited?
  | leave => exact .none
  | edit e => exact .none
  | drop seq => exact .none

end Stacks

/-! ## One step of two machines -/

theorem Moment.enqueues_nothing {mo : Moment}
    (h : mo.after.session.outbox.parcels.Sublist mo.before.session.outbox.parcels) :
    mo.posted.filter (·.isControl) = [] :=
  posted_of_length_le (h.filter _).length_le

section Tasks

variable {b s : Session} {lost : List StreamRef} {x : Task} {cap : Nat}

/-- Tasks that have nothing to do with streams that are given up enqueue nothing. -/
theorem perform_sublist (mere : x.IsMere b lost) :
    (s.perform (.standard cap) x).session.outbox.parcels.Sublist s.outbox.parcels := by
  cases x with
  | flush => exact s.flush_sublist cap
  | endWrite seq => exact (Outbox.parcels_endWrite s.outbox seq) ▸ .refl _
  | release => exact (Outbox.parcels_complete s.outbox) ▸ .refl _
  | tell listeners notice => cases listeners <;> exact .refl _
  | announce notice => exact .refl _
  | tellRegistered notice => exact .refl _
  | reclaim r =>
    simp only [Session.perform]
    split
    · rw [Session.remove_outbox]
    · exact .refl _
  | call c => exact mere.elim
  | reset version id status => exact mere.elim
  | lose id => exact mere.elim
  | overflow r e => exact mere.elim
  | accept r opening => exact mere.elim

/-- Nor do they free the outbox, unless they are there for it. -/
theorem perform_busy_of_mere (mere : x.IsMere b lost) (busy : s.outbox.busy) (frees : x.frees = false) :
    (s.perform (.standard cap) x).session.outbox.busy ∧
      ∀ y ∈ (s.perform (.standard cap) x).todo, y.frees = false := by
  by_cases hflush : x = .flush
  · subst hflush
    have h := flush_cases cap s
    rw [Session.perform]
    generalize s.flush (.standard cap) = p at h
    cases h with
    | idle => exact ⟨busy, without_nil⟩
    | drop free | hand free => cases free.symm.trans busy
  · exact s.perform_busy _ hflush (by cases x <;> first | rfl | exact mere.elim) frees busy

end Tasks

section Step

variable {b : Session} {lost lost' gone gone' due due' : List StreamRef} {m m' n : Machine} {cap : Nat} {e : Event}

theorem Machine.Shielded.tick (h : m.Shielded b lost) {x : Task} {rest : List Task} {outcome : Outcome}
    {below : List Activation} (stack : m.stack = ⟨x :: rest, outcome⟩ :: below) {p : Progress}
    (busy : m.session.outbox.busy → x.frees = false → p.session.outbox.busy ∧ ∀ y ∈ p.todo, y.frees = false)
    (docile : Docile b lost m.session → Docile b lost p.session) :
    Machine.Shielded ⟨p.session, ⟨p.todo ++ rest, outcome⟩ :: below⟩ b lost := by
  rcases h with ⟨hbusy, htasks⟩ | hdocile
  · rw [Machine.tasks_of_stack stack] at htasks
    obtain ⟨hbusy, htodo⟩ := busy hbusy (htasks x List.mem_cons_self)
    refine .inl ⟨hbusy, fun y hy => ?_⟩
    rw [Machine.tasks_of_stack rfl, List.append_assoc] at hy
    rcases List.mem_append.1 hy with hy | hy
    · exact htodo y hy
    · exact htasks y (List.mem_cons_of_mem _ hy)
  · exact .inr (docile hdocile)

/-- The other machine does the same, and each tells the peer of the streams that it has come to give up. -/
def Follows (cap : Nat) (b : Session) (lost lost' gone gone' : List StreamRef) (m m' : Machine) (e : Event)
    (n : Machine) : Prop :=
  ∃ n' now now' due due', m'.next? (.standard cap) e = some n' ∧
    Paired b lost lost' (gone ++ now) (gone' ++ now') due due' n n' ∧
    List.Forall₂ b.Tells now ((Moment.posted ⟨m, e, n⟩).filter (·.isControl)) ∧
    List.Forall₂ b.Tells now' ((Moment.posted ⟨m', e, n'⟩).filter (·.isControl))

theorem follows_of_quiet {n' : Machine} (next : m'.next? (.standard cap) e = some n')
    (paired : Paired b lost lost' gone gone' due due' n n')
    (quiet : (Moment.posted ⟨m, e, n⟩).filter (·.isControl) = [])
    (quiet' : (Moment.posted ⟨m', e, n'⟩).filter (·.isControl) = []) :
    Follows cap b lost lost' gone gone' m m' e n := by
  refine ⟨n', [], [], due, due', next, ?_, ?_, ?_⟩
  · rw [List.append_nil, List.append_nil]
    exact paired
  · rw [quiet]
    exact .nil
  · rw [quiet']
    exact .nil

theorem Stacks.of_stack {todo : List Task} {outcome : Outcome} {below : List Activation}
    (h : Stacks b lost due due' m.stack m'.stack) (stack : m.stack = ⟨todo, outcome⟩ :: below) :
    ∃ d d' more more' todo' below', due = d ++ more ∧ due' = d' ++ more' ∧ m'.stack = ⟨todo', outcome⟩ :: below' ∧
      Chores b lost d d' todo todo' ∧ Stacks b lost more more' below below' := by
  rw [stack] at h
  generalize m'.stack = l' at h
  cases h with
  | cons chores rest => exact ⟨_, _, _, _, _, _, rfl, rfl, rfl, chores, rest⟩

theorem Abreast.names {s s' : Session} (h : Abreast b lost gone gone' s s') (hgone : gone ⊆ lost)
    (hgone' : gone' ⊆ lost) {r : StreamRef} (hr : r ∈ lost) :
    ((s.stream r).version = (b.stream r).version ∧ (s.stream r).id = b.idOf r) ∧
      (s'.stream r).version = (b.stream r).version ∧ (s'.stream r).id = b.idOf r := by
  cases h with
  | @intro c table parcels outstanding spared perm waiting leaving =>
  have hname : ∀ (t : Session) (l : List StreamRef), (∀ q ∈ l, q.serial < t.streams.size) → t.stream = c.stream →
      ((t.renounce l).stream r).version = (b.stream r).version ∧ ((t.renounce l).stream r).id = b.idOf r := by
    intro t l hknown hstream
    rw [Session.stream_renounce hknown, hstream, spared.same r (.inl hr)]
    split <;> exact ⟨rfl, rfl⟩
  exact ⟨hname c gone (spared.known hgone) rfl,
    hname (c.recast table parcels outstanding) gone' (spared.known hgone') rfl⟩

theorem Docile.tell {s t : Session} {r : StreamRef} {q : Parcel} (h : Docile b lost s)
    (outbox : t.outbox = s.outbox.enqueue q) (outstanding : t.outstanding = s.outstanding)
    (tells : b.Tells r q) : Docile b lost t := by
  obtain ⟨bytes, -, rfl⟩ := tells
  refine ⟨fun z hz => ?_, by rw [outstanding]; exact h.leaving⟩
  rw [outbox] at hz
  rcases List.mem_append.1 hz with hz | hz
  · exact h.waiting z hz
  · rw [List.mem_singleton.1 hz]
    exact .inl ⟨rfl, rfl⟩

theorem forall₂_tells {mo : Moment} {r : StreamRef} {q : Parcel} (tells : b.Tells r q)
    (outbox : mo.after.session.outbox = mo.before.session.outbox.enqueue q) :
    List.Forall₂ b.Tells [r] (mo.posted.filter (·.isControl)) := by
  rw [show mo.posted = [q] from Moment.posted_of_append (congrArg Outbox.parcels outbox)]
  obtain ⟨bytes, -, rfl⟩ := id tells
  exact .cons tells .nil

/-- Streams that a machine has given up or is to give up are among those that both are to. -/
theorem Paired.subsets (h : Paired b lost lost' gone gone' due due' m m') (perm : lost'.Perm lost) :
    (gone ⊆ lost ∧ due ⊆ lost) ∧ gone' ⊆ lost ∧ due' ⊆ lost :=
  ⟨⟨fun _ hr => h.left ▸ List.mem_append_left _ hr, fun _ hr => h.left ▸ List.mem_append_right _ hr⟩,
    fun _ hr => perm.subset (h.right ▸ List.mem_append_left _ hr),
    fun _ hr => perm.subset (h.right ▸ List.mem_append_right _ hr)⟩

theorem not_mem_of_nodup {l k : List StreamRef} {r : StreamRef} (h : (l ++ r :: k).Nodup) : r ∉ l :=
  fun hr => (List.nodup_append.1 h).2.2 _ hr _ List.mem_cons_self rfl

section Tick

variable {r r' : StreamRef} {more more' : List StreamRef} {rest rest' : List Task} {outcome : Outcome}
  {below below' : List Activation}

/-- That a stream was given up is told to one listener after another. -/
theorem Paired.told (h : Paired b lost lost' gone gone' (due ++ more) (due' ++ more') m m') {listeners : List Listener}
    (stack : m.stack = ⟨.tell listeners (.closed r) :: rest, outcome⟩ :: below)
    (stack' : m'.stack = ⟨.tell listeners (.closed r') :: rest', outcome⟩ :: below') (hr : r ∈ lost) (hr' : r' ∈ lost)
    (chores : Chores b lost due due' rest rest') (hbelow : Stacks b lost more more' below below') :
    Follows cap b lost lost' gone gone' m m' .tick
      ⟨(m.session.perform (.standard cap) (.tell listeners (.closed r))).session,
        ⟨(m.session.perform (.standard cap) (.tell listeners (.closed r))).todo ++ rest, outcome⟩ :: below⟩ := by
  cases listeners with
  | nil =>
    exact follows_of_quiet (Machine.next?_tick stack' rfl)
      ⟨h.left, h.right, h.sessions, .cons chores hbelow,
        h.shielded.tick (p := { session := m.session }) stack (fun busy _ => ⟨busy, by simp⟩) id⟩
      (Moment.enqueues_nothing (.refl _)) (Moment.enqueues_nothing (.refl _))
  | cons l listeners =>
    exact follows_of_quiet (Machine.next?_tick stack' rfl)
      ⟨h.left, h.right, h.sessions, .cons (.call (.told l hr hr') rfl (.told listeners hr hr' chores)) hbelow,
        h.shielded.tick
          (p := { session := m.session, todo := [.call (.tell l (.closed r)), .tell listeners (.closed r)] }) stack
          (fun busy _ => ⟨busy, by simp [Task.frees]⟩) id⟩
      (Moment.enqueues_nothing (.refl _)) (Moment.enqueues_nothing (.refl _))

/-- Each machine comes to the next stream that it is to give up. -/
theorem Paired.overflow (h : Paired b lost lost' gone gone' (r :: due ++ more) (r' :: due' ++ more') m m')
    (perm : lost'.Perm lost) {err err' : Error} (stack : m.stack = ⟨.overflow r err :: rest, outcome⟩ :: below)
    (stack' : m'.stack = ⟨.overflow r' err' :: rest', outcome⟩ :: below')
    (chores : Chores b lost due due' rest rest') (hbelow : Stacks b lost more more' below below') :
    Follows cap b lost lost' gone gone' m m' .tick
      ⟨m.session, ⟨(m.session.perform (.standard cap) (.overflow r err)).todo ++ rest, outcome⟩ :: below⟩ := by
  obtain ⟨⟨hgone, hdue⟩, hgone', hdue'⟩ := h.subsets perm
  have hnames := (h.sessions.names hgone hgone' (hdue List.mem_cons_self)).1
  have hnames' := (h.sessions.names hgone hgone' (hdue' List.mem_cons_self)).2
  refine follows_of_quiet (Machine.next?_tick stack' rfl) ⟨h.left, h.right, h.sessions, ?_, ?_⟩
    (Moment.enqueues_nothing (.refl _)) (Moment.enqueues_nothing (.refl _))
  · simp only [Session.perform, hnames.1, hnames.2, hnames'.1, hnames'.2]
    exact .cons (.reset r r' chores) hbelow
  · exact h.shielded.tick (p := m.session.perform (.standard cap) (.overflow r err)) stack
      (fun busy _ => ⟨busy, by simp [Session.perform, Task.frees]⟩) id

/-- Each machine gives up the next one of its streams. -/
theorem Paired.reset (h : Paired b lost lost' gone gone' (r :: due ++ more) (r' :: due' ++ more') m m')
    (perm : lost'.Perm lost) (nodup : lost.Nodup)
    (stack : m.stack = ⟨.reset (b.stream r).version (b.idOf r) .flowControlError :: rest, outcome⟩ :: below)
    (stack' : m'.stack = ⟨.reset (b.stream r').version (b.idOf r') .flowControlError :: rest', outcome⟩ :: below')
    (chores : Chores b lost due due' rest rest') (hbelow : Stacks b lost more more' below below') :
    Follows cap b lost lost' gone gone' m m' .tick
      ⟨(m.session.reset (.standard cap) (b.stream r).version (b.idOf r) .flowControlError).session,
        ⟨(m.session.reset (.standard cap) (b.stream r).version (b.idOf r) .flowControlError).todo ++ rest, outcome⟩ ::
          below⟩ := by
  obtain ⟨⟨hgone, hdue⟩, hgone', hdue'⟩ := h.subsets perm
  have hr : r ∈ lost := hdue List.mem_cons_self
  have hr' : r' ∈ lost := hdue' List.mem_cons_self
  have hnew : r ∉ gone := not_mem_of_nodup (h.left ▸ nodup)
  have hnew' : r' ∉ gone' := not_mem_of_nodup (h.right ▸ perm.nodup_iff.2 nodup)
  obtain ⟨q, q', htells, htells', turn⟩ := h.sessions.reset cap hgone hgone' hr hnew hr' hnew'
  refine ⟨_, [r], [r'], due ++ more, due' ++ more', Machine.next?_tick stack' rfl,
    ⟨?_, ?_, turn.abreast, ?_, ?_⟩, forall₂_tells htells turn.outbox, forall₂_tells htells' turn.outbox'⟩
  · rw [List.append_assoc]
    exact h.left
  · rw [List.append_assoc]
    exact h.right
  · simp only [Session.perform, turn.todo, turn.todo']
    exact .cons (.told _ hr hr' (.mere trivial chores)) hbelow
  · refine h.shielded.tick stack (fun busy _ => ?_) fun docile => docile.tell turn.outbox turn.outstanding htells
    rw [turn.todo, turn.outbox]
    exact ⟨busy, by simp [Task.frees]⟩

end Tick

theorem Paired.tick (h : Paired b lost lost' gone gone' due due' m m') (tidy : b.Tidy) (perm : lost'.Perm lost)
    (nodup : lost.Nodup) {x : Task} {rest : List Task} {outcome : Outcome} {below : List Activation}
    (stack : m.stack = ⟨x :: rest, outcome⟩ :: below) (notCall : x.isCall = false) :
    Follows cap b lost lost' gone gone' m m' .tick
      ⟨(m.session.perform (.standard cap) x).session,
        ⟨(m.session.perform (.standard cap) x).todo ++ rest, outcome⟩ :: below⟩ := by
  obtain ⟨d, d', more, more', todo', below', rfl, rfl, stack', chores, hbelow⟩ := h.work.of_stack stack
  cases chores with
  | mere mere hrest =>
    obtain ⟨⟨hgone, -⟩, hgone', -⟩ := h.subsets perm
    have alike := h.sessions.perform cap tidy hgone hgone' (h.shielded.imp_left And.left) mere
    exact follows_of_quiet (Machine.next?_tick stack' notCall)
      ⟨h.left, h.right, alike.abreast, .cons (alike.todo.append hrest) hbelow,
        h.shielded.tick stack (perform_busy_of_mere mere) alike.docile⟩
      (Moment.enqueues_nothing (perform_sublist mere)) (Moment.enqueues_nothing (perform_sublist mere))
  | call => cases notCall
  | told listeners hr hr' hrest => exact h.told stack stack' hr hr' hrest hbelow
  | overflow err err' hrest => exact h.overflow perm stack stack' hrest hbelow
  | reset r r' hrest => exact h.reset perm nodup stack stack' hrest hbelow

theorem Machine.accept_of_isMere {c : Call} (h : c.isMere) (s : Session) (reply : Option Listener) :
    Machine.accept s c reply = s := by
  cases c with
  | tell l notice =>
    cases notice with
    | opened r opening => cases h
    | _ => rfl
  | _ => rfl

theorem Call.Mirrors.isMere {c c' : Call} (h : c.Mirrors b lost c') : c'.isMere = c.isMere ∧ c'.isTell = c.isTell := by
  cases h <;> exact ⟨rfl, rfl⟩

theorem Paired.returned (h : Paired b lost lost' gone gone' due due' m m') {c : Call} {rest : List Task}
    {outcome : Outcome} {below : List Activation} (stack : m.stack = ⟨.call c :: rest, outcome⟩ :: below)
    (reply : Option Listener)
    (next : ∀ {c' : Call} {rest' : List Task} {below' : List Activation}, c'.isTell = c.isTell →
      m'.stack = ⟨.call c' :: rest', outcome⟩ :: below' →
      m'.next? (.standard cap) e = some ⟨Machine.accept m'.session c' reply, ⟨rest', outcome⟩ :: below'⟩) :
    Follows cap b lost lost' gone gone' m m' e ⟨Machine.accept m.session c reply, ⟨rest, outcome⟩ :: below⟩ := by
  obtain ⟨d, d', more, more', todo', below', rfl, rfl, stack', chores, hbelow⟩ := h.work.of_stack stack
  cases chores with
  | mere mere => exact mere.elim
  | call mirrors mere hrest =>
    obtain ⟨hmere, htell⟩ := mirrors.isMere
    have hnext := next htell stack'
    rw [Machine.accept_of_isMere (hmere.trans mere)] at hnext
    rw [Machine.accept_of_isMere mere]
    exact follows_of_quiet hnext
      ⟨h.left, h.right, h.sessions, .cons hrest hbelow,
        h.shielded.tick (p := { session := m.session }) stack (fun busy _ => ⟨busy, by simp⟩) id⟩
      (Moment.enqueues_nothing (.refl _)) (Moment.enqueues_nothing (.refl _))

theorem Paired.leave (h : Paired b lost lost' gone gone' due due' m m') {outcome : Outcome} {below : List Activation}
    (stack : m.stack = ⟨[], outcome⟩ :: below) :
    Follows cap b lost lost' gone gone' m m' .leave ⟨m.session, below⟩ := by
  obtain ⟨d, d', more, more', todo', below', rfl, rfl, stack', chores, hbelow⟩ := h.work.of_stack stack
  cases chores with
  | nil =>
    refine follows_of_quiet (Machine.next?_leave stack') ⟨h.left, h.right, h.sessions, hbelow, ?_⟩
      (Moment.enqueues_nothing (.refl _)) (Moment.enqueues_nothing (.refl _))
    refine h.shielded.imp_left fun ⟨busy, htasks⟩ => ⟨busy, fun x hx => htasks x ?_⟩
    rw [Machine.tasks_of_stack stack]
    exact hx

/-! ## Reports of writes -/

theorem Wrote.queuedControls {s : Session} {q : Parcel} {p : Progress} (h : Wrote s q p) :
    p.session.queuedControls = s.queuedControls := by
  cases h with
  | control => rfl
  | stuck => rfl
  | @done r payload written x => cases payload.close <;> rfl
  | more credit left parcels =>
    rw [Session.queuedControls, Session.queuedControls, parcels, List.filter_append]
    exact List.filter_append _ _

theorem Abreast.dropHandler {s s' : Session} (h : Abreast b lost gone gone' s s') (seq : Nat) :
    Abreast b lost gone gone' (s.dropHandler seq) (s'.dropHandler seq) := by
  cases h with
  | @intro c table parcels outstanding spared perm waiting leaving =>
  have h : Abreast b lost gone gone' ((c.dropHandler seq).renounce gone)
      (((c.dropHandler seq).recast table parcels (outstanding.filter (·.seq != seq))).renounce gone') := by
    refine .intro (spared.of_streams rfl rfl rfl) perm waiting (List.rel_filter (fun x y hxy => ?_) leaving)
    show x.seq != seq ↔ y.seq != seq
    rw [hxy.1]
  exact h

/-- Of a write that is reported both sessions have a handler. -/
theorem Abreast.find? {s s' : Session} (h : Abreast b lost gone gone' s s') {seq : Nat} {x : Handler}
    (hx : s.outstanding.find? (·.seq == seq) = some x) :
    ∃ x', s'.outstanding.find? (·.seq == seq) = some x' ∧ x.Mirrors b lost x' := by
  cases h with
  | @intro c table parcels outstanding spared perm waiting leaving =>
  have hfind : ∀ {l l' : List Handler}, List.Forall₂ (Handler.Mirrors b lost) l l' →
      l.find? (·.seq == seq) = some x → ∃ x', l'.find? (·.seq == seq) = some x' ∧ x.Mirrors b lost x' := by
    intro l l' hl hx
    induction hl with
    | nil => cases hx
    | @cons y y' l l' hy _ ih =>
      by_cases hseq : y.seq = seq
      · rw [List.find?_cons_of_pos (by simpa using hseq)] at hx
        cases hx
        exact ⟨y', List.find?_cons_of_pos (by simpa using hy.1.symm.trans hseq), hy⟩
      · rw [List.find?_cons_of_neg (by simpa using hseq)] at hx
        rw [List.find?_cons_of_neg (by simpa using fun h => hseq (hy.1.trans h))]
        exact ih hx
  exact hfind leaving hx

theorem report_of_find? {s : Session} {seq : Nat} {x : Handler} (h : s.outstanding.find? (·.seq == seq) = some x) :
    s.report seq Session.wrote = (s.dropHandler seq).wrote x.parcel := by
  rw [Session.report, h]

theorem quiet_of_complete {seq : Nat} {x : Handler} (h : m.session.outstanding.find? (·.seq == seq) = some x) :
    (Moment.posted ⟨m, .invoke (.complete seq), (m.invoke (.standard cap) (.complete seq)).1⟩).filter (·.isControl) =
      [] := by
  have hsession : (m.invoke (.standard cap) (.complete seq)).1.session =
      ((m.session.dropHandler seq).wrote x.parcel).session := congrArg Progress.session (report_of_find? h)
  refine Moment.posted_of_length_le (Nat.le_of_eq (congrArg List.length ?_))
  rw [hsession, (wrote_cases _ _).queuedControls]
  rfl

theorem Machine.next?_complete {seq : Nat} {x : Handler} (waits : m.awaited?.isSome)
    (h : m.session.outstanding.find? (·.seq == seq) = some x) :
    m.next? (.standard cap) (.invoke (.complete seq)) = some (m.invoke (.standard cap) (.complete seq)).1 := by
  have hpossible : (Operation.complete seq).isPossible m.session :=
    List.any_eq_true.2 ⟨x, List.mem_of_find?_eq_some h, List.find?_some (p := fun y : Handler => y.seq == seq) h⟩
  rw [next?, yields, waits, hpossible, Bool.or_true]
  rfl

theorem Paired.awaited?_isSome (h : Paired b lost lost' gone gone' due due' m m') (waits : m.awaited?.isSome) :
    m'.awaited?.isSome := by
  have hcalls := h.work.awaited?
  generalize m.awaited? = c at hcalls waits
  generalize m'.awaited? = c' at hcalls
  cases hcalls with
  | some => rfl
  | none => cases waits

/-- While a write is asked for, it is reported. -/
theorem Paired.complete (h : Paired b lost lost' gone gone' due due' m m') (perm : lost'.Perm lost) {seq : Nat}
    (possible : (Operation.complete seq).isPossible m.session) {bytes : Bytes} {z : Handler}
    (writes : m.awaited? = some (.write bytes z)) (makesUp : m.session.MakesUp) :
    Follows cap b lost lost' gone gone' m m' (.invoke (.complete seq))
      (m.invoke (.standard cap) (.complete seq)).1 := by
  obtain ⟨⟨hgone, -⟩, hgone', -⟩ := h.subsets perm
  -- somebody is to free the outbox
  have hdocile : Docile b lost m.session := by
    obtain ⟨rest, outcome, below, stack⟩ := Machine.stack_of_awaited? writes
    refine h.shielded.resolve_left fun ⟨_, hfrees⟩ => ?_
    rw [Machine.tasks_of_stack stack] at hfrees
    cases hfrees _ List.mem_cons_self
  have hwaits := h.awaited?_isSome (by rw [writes]; rfl)
  obtain ⟨x, hx⟩ : ∃ x, m.session.outstanding.find? (·.seq == seq) = some x := by
    obtain ⟨x, hmem, hseq⟩ := List.any_eq_true.1 possible
    exact Option.isSome_iff_exists.1 (List.find?_isSome.2 ⟨x, hmem, hseq⟩)
  obtain ⟨x', hx', -, htwins⟩ := h.sessions.find? hx
  have hmem := List.mem_of_find?_eq_some hx
  have alike := (h.sessions.dropHandler seq).wrote hgone hgone' htwins (hdocile.leaving x hmem) (makesUp x hmem)
  rw [← report_of_find? hx, ← report_of_find? hx'] at alike
  exact follows_of_quiet (Machine.next?_complete hwaits hx')
    ⟨h.left, h.right, alike.abreast, .cons alike.todo h.work,
      .inr (alike.docile ⟨hdocile.waiting, fun y hy => hdocile.leaving y (List.mem_of_mem_filter hy)⟩)⟩
    (quiet_of_complete hx) (quiet_of_complete hx')

theorem Paired.drop (h : Paired b lost lost' gone gone' due due' m m') (waits : m.awaited?.isSome) (seq : Nat) :
    Follows cap b lost lost' gone gone' m m' (.drop seq) ⟨m.session.dropHandler seq, m.stack⟩ := by
  have hnext : m'.next? (.standard cap) (.drop seq) = some ⟨m'.session.dropHandler seq, m'.stack⟩ := by
    rw [Machine.next?, Machine.yields, h.awaited?_isSome waits, Bool.or_true, if_pos rfl]
  have hshielded : Machine.Shielded ⟨m.session.dropHandler seq, m.stack⟩ b lost := h.shielded.imp_right fun docile =>
    ⟨docile.waiting, fun x hx => docile.leaving x (List.mem_of_mem_filter hx)⟩
  exact follows_of_quiet hnext ⟨h.left, h.right, h.sessions.dropHandler seq, h.work, hshielded⟩
    (Moment.enqueues_nothing (.refl _)) (Moment.enqueues_nothing (.refl _))

/-- Whatever happens to one machine meanwhile can happen to the other, and comes to the same. -/
theorem Paired.next (h : Paired b lost lost' gone gone' due due' m m') (tidy : b.Tidy) (perm : lost'.Perm lost)
    (nodup : lost.Nodup) (next : m.next? (.standard cap) e = some n) (within : Moment.isWithin ⟨m, e, n⟩)
    (unbroken : Moment.isBreak ⟨m, e, n⟩ = false) (makesUp : m.session.MakesUp) :
    Follows cap b lost lost' gone gone' m m' e n := by
  cases Machine.happens_of_next? next with
  | invoke op yields possible =>
    cases op with
    | complete seq =>
      obtain ⟨bytes, z, hwrites⟩ := Moment.awaits_of_isWithin within
      exact h.complete perm possible hwrites makesUp
    | _ => cases (Bool.and_eq_true_iff.1 within).2
  | tick stack notCall => exact h.tick tidy perm nodup stack notCall
  | answer reply stack => exact h.returned stack reply fun _ stack' => Machine.next?_answer stack' reply
  | caught p stack tell =>
    exact h.returned stack none fun same stack' => Machine.next?_panic stack' p (same.trans tell)
  | @broken p c rest outcome below stack notTell =>
    rw [Moment.isBreak, Machine.awaited?_of_stack stack] at unbroken
    cases c with
    | tell => cases notTell
    | _ => cases unbroken
  | leave stack => exact h.leave stack
  | edit e => cases (Bool.and_eq_true_iff.1 within).2
  | drop seq yields =>
    have hbusy := (Bool.and_eq_true_iff.1 within).1
    exact h.drop ((Bool.or_eq_true_iff.1 yields).resolve_left (by simpa using hbusy)) seq

end Step

/-! ## Runs of two machines -/

/-- The same happens to two machines, and the calls that they come to wait for mirror each other. -/
def Moment.Mirrors (b : Session) (lost : List StreamRef) (x y : Moment) : Prop :=
  x.event = y.event ∧ Option.Rel (Call.Mirrors b lost) x.called? y.called?

/-- Whatever happens to one machine while streams are given up can happen to the other, moment by moment. -/
theorem Paired.run {b : Session} {lost lost' gone gone' due due' : List StreamRef} {m m' last : Machine} {cap : Nat}
    {later : List Moment} (h : Paired b lost lost' gone gone' due due' m m') (tidy : b.Tidy) (perm : lost'.Perm lost)
    (nodup : lost.Nodup) (run : Run (.standard cap) m later last)
    (within : ∀ x ∈ later, x.isWithin ∧ x.isBreak = false) (makesUp : ∀ x ∈ later, x.before.session.MakesUp) :
    ∃ later' last' now now' left left', Run (.standard cap) m' later' last' ∧
      Paired b lost lost' (gone ++ now) (gone' ++ now') left left' last last' ∧
      List.Forall₂ b.Tells now (enqueuedControls later) ∧ List.Forall₂ b.Tells now' (enqueuedControls later') ∧
      List.Forall₂ (Moment.Mirrors b lost) later later' := by
  induction run with
  | start =>
    refine ⟨[], m', [], [], due, due', .start, ?_, .nil, .nil, .nil⟩
    rw [List.append_nil, List.append_nil]
    exact h
  | @next later n n₁ e run hnext ih =>
    obtain ⟨later', n', now, now', left, left', hrun', hpair, htells, htells', hmirrors⟩ :=
      ih (fun x hx => within x (List.mem_append_left _ hx)) fun x hx => makesUp x (List.mem_append_left _ hx)
    have hmem : ⟨n, e, n₁⟩ ∈ later ++ [⟨n, e, n₁⟩] := List.mem_append_right _ List.mem_cons_self
    obtain ⟨n₁', next, next', left, left', hnext', hpair, hposted, hposted'⟩ :=
      hpair.next tidy perm nodup hnext (within _ hmem).1 (within _ hmem).2 (makesUp _ hmem)
    refine ⟨later' ++ [⟨n', e, n₁'⟩], n₁', now ++ next, now' ++ next', left, left', hrun'.next hnext', ?_, ?_, ?_,
      List.rel_append hmirrors (.cons ⟨rfl, hpair.work.called? e⟩ .nil)⟩
    · rw [← List.append_assoc, ← List.append_assoc]
      exact hpair
    · rw [enqueuedControls_append]
      exact List.rel_append htells hposted
    · rw [enqueuedControls_append]
      exact List.rel_append htells' hposted'

/-! ## SETTINGS at rest -/

section Settings

variable {cap : Nat} {s t : Session} {size : Int} {table : List StreamRef}

namespace Session

theorem Spared.refl {b : Session} {lost : List StreamRef} (tidy : b.Tidy) (sent : b.goAwaySent = false)
    (hlost : lost ⊆ b.table) : b.Spared lost b where
  tidy := tidy
  sent := sent
  size := rfl
  ids := rfl
  reset := fun _ => rfl
  same := fun _ _ => rfl
  held := fun _ hr => hlost hr
  table := fun _ hr => hr
  left := fun _ hr => .inl hr

/-- If nothing is being written, nothing of streams that are to be given up can be. -/
theorem AtRest.docile (h : s.AtRest cap) (resizes : s.Resizes size t) (hsize : size ≤ Stream.maxWindow)
    (free : s.outbox.busy = false) : Docile t (s.overrun size) t := by
  obtain ⟨hidle, hblocked⟩ := h.idle.resolve_left (by rw [free]; exact Bool.false_ne_true)
  refine ⟨fun q hq => ?_, fun x hx => ?_⟩
  · rw [resizes.outbox] at hq
    obtain ⟨r, payload, written, rfl, hstop⟩ := data_of_canSend (hblocked q hq)
    by_cases hr : r ∈ s.table
    · -- the window of an open stream is used up, and cannot become too large
      have hwindow := hstop.resolve_left (by rw [h.unreset r hr]; exact Bool.false_ne_true)
      refine .inl ⟨resizes.table ▸ hr, fun hlost => ?_⟩
      have hinitial := h.level.initial
      have htoo := (mem_overrun.1 hlost).2
      omega
    · refine .inr ⟨r, payload, written, rfl, fun hlost => hr (mem_overrun.1 hlost).1, resizes.table ▸ hr, ?_⟩
      rw [resizes.moved, if_neg fun h => hr h.1]
      exact hstop
  · rw [resizes.outstanding, hidle] at hx
    cases hx

end Session

theorem Session.Resizes.tells (h : s.Resizes size t) : t.Tells = s.Tells := by
  funext r q
  obtain ⟨window, hstream⟩ := h.stream r
  rw [Session.Tells, hstream, h.idOf, Session.Tells]

/-- Streams are to be given up in one order and in another. -/
theorem chores_of_failed {b : Session} {lost : List StreamRef} {notice : Notice} (asks : notice.asks = false)
    {failed failed' : List (StreamRef × Error)} (h : failed.length = failed'.length) :
    Chores b lost (failed.map Prod.fst) (failed'.map Prod.fst)
      (failed.map (fun x => .overflow x.1 x.2) ++ [.announce notice, .flush])
      (failed'.map (fun x => .overflow x.1 x.2) ++ [.announce notice, .flush]) := by
  induction failed generalizing failed' with
  | nil =>
    obtain rfl := List.length_eq_zero_iff.1 h.symm
    exact .mere asks (.mere trivial .nil)
  | cons x failed ih =>
    cases failed' with
    | nil => cases h
    | cons x' failed' => exact .overflow x.2 x'.2 (ih (Nat.succ.inj h))

theorem next?_settings (cap : Nat) (sent : s.goAwaySent = false) (version : Version) (flags : UInt8)
    (entries : List Setting) :
    Machine.next? (.standard cap) { session := s } (.invoke (.receive (.control ⟨version, .settings flags entries⟩))) =
      some ⟨(s.receiveSettings ⟨entries, Flag.has flags Flag.clearSettings⟩).session,
        [⟨(s.receiveSettings ⟨entries, Flag.has flags Flag.clearSettings⟩).todo, .done⟩]⟩ := by
  have hreceive : s.receive (.standard cap) (.control ⟨version, .settings flags entries⟩) =
      s.receiveSettings ⟨entries, Flag.has flags Flag.clearSettings⟩ :=
    Session.receive_control _ sent ⟨version, .settings flags entries⟩
  rw [← hreceive]
  rfl

/-- Before streams are given up, two sessions differ in the order of their tables only. -/
theorem abreast_ordered {b : Session} {lost : List StreamRef} (tidy : b.Tidy) (sent : b.goAwaySent = false)
    (hlost : lost ⊆ b.table) (perm : table.Perm b.table) : Abreast b lost [] [] b (b.ordered table) := by
  have h : Abreast b lost [] [] (b.renounce []) ((b.recast table b.outbox.parcels b.outstanding).renounce []) :=
    .intro (.refl tidy sent hlost) perm (List.forall₂_same.2 fun q _ => .refl _ q)
      (List.forall₂_same.2 fun x _ => ⟨rfl, .refl _ _⟩)
  rw [Session.renounce_nil, Session.renounce_nil] at h
  exact h

theorem shielded_of_settings (h : s.AtRest cap) (resizes : s.Resizes size t) (hsize : size ≤ Stream.maxWindow)
    {failed : List (StreamRef × Error)} {notice : Notice} {outcome : Outcome} :
    Machine.Shielded
      ⟨t, [⟨failed.map (fun x => .overflow x.1 x.2) ++ [.announce notice, .flush], outcome⟩]⟩ t (s.overrun size) := by
  cases hbusy : s.outbox.busy with
  | true =>
    refine .inl ⟨by rw [resizes.outbox]; exact hbusy, fun x hx => ?_⟩
    rw [Machine.tasks_of_stack rfl, List.flatMap_nil, List.append_nil, List.mem_append, List.mem_map] at hx
    rcases hx with ⟨y, -, rfl⟩ | hx
    · rfl
    · rcases List.mem_cons.1 hx with rfl | hx
      · rfl
      · rw [List.mem_singleton.1 hx]
        rfl
  | false => exact .inr (h.docile resizes hsize hbusy)

/-- SETTINGS that are received with the table in one order or another: windows move in the same way, and the same
streams are to be given up. -/
theorem paired_of_settings (h : s.AtRest cap) (sent : s.goAwaySent = false) (perm : table.Perm s.table) {n : Machine}
    {version : Version} {flags : UInt8} {entries : List Setting}
    (next : Machine.next? (.standard cap) { session := s }
      (.invoke (.receive (.control ⟨version, .settings flags entries⟩))) = some n) :
    s.Resizes (s.newSize entries) n.session ∧ n.awaited? = none ∧
      ∃ n', Machine.next? (.standard cap) { session := s.ordered table }
          (.invoke (.receive (.control ⟨version, .settings flags entries⟩))) = some n' ∧
        n'.session = n.session.ordered table ∧
        Paired n.session (s.overrun (s.newSize entries)) ((s.ordered table).overrun (s.newSize entries)) [] []
          (s.overrun (s.newSize entries)) ((s.ordered table).overrun (s.newSize entries)) n n' := by
  obtain ⟨p, hp⟩ : ∃ p, s.receiveSettings ⟨entries, Flag.has flags Flag.clearSettings⟩ = p := ⟨_, rfl⟩
  obtain ⟨p', hp'⟩ : ∃ p', (s.ordered table).receiveSettings ⟨entries, Flag.has flags Flag.clearSettings⟩ = p' :=
    ⟨_, rfl⟩
  have next' := next?_settings (s := s.ordered table) cap sent version flags entries
  rw [next?_settings cap sent, hp] at next
  rw [hp'] at next'
  cases next
  have hsize := Session.newSize_range h.level.initial entries
  obtain ⟨hresizes, failed, hfailed, htodo⟩ :=
    Session.receiveSettings_resizes h.level entries (Flag.has flags Flag.clearSettings)
  obtain ⟨hresizes', failed', hfailed', htodo'⟩ :=
    Session.receiveSettings_resizes (h.level.ordered perm) entries (Flag.has flags Flag.clearSettings)
  have hsame : (s.ordered table).newSize entries = s.newSize entries := rfl
  rw [hsame] at hresizes' hfailed'
  rw [hp] at hresizes htodo
  rw [hp'] at hresizes' htodo'
  generalize s.newSize entries = size at *
  have hsession := hresizes.ordered perm hresizes'
  have hsub : s.overrun size ⊆ s.table := fun r hr => (Session.mem_overrun.1 hr).1
  refine ⟨hresizes, ?_, _, next', hsession, rfl, rfl, ?_, ?_, ?_⟩
  · show Machine.awaited? ⟨p.session, [⟨p.todo, .done⟩]⟩ = none
    rw [htodo]
    cases failed <;> rfl
  · rw [hsession]
    exact abreast_ordered (hresizes.tidy h.level.tidy) (hresizes.goAwaySent.trans sent) (hresizes.table ▸ hsub)
      (hresizes.table ▸ perm)
  · have hlength : failed.length = failed'.length := by
      rw [← List.length_map Prod.fst, hfailed, ← (Session.overrun_ordered perm size).length_eq, ← hfailed',
        List.length_map]
    have h : Stacks p.session (s.overrun size) (failed.map Prod.fst ++ []) (failed'.map Prod.fst ++ [])
        [⟨_, .done⟩] [⟨_, .done⟩] :=
      .cons (chores_of_failed
        (show (Notice.settings ⟨entries, Flag.has flags Flag.clearSettings⟩).asks = false from rfl) hlength) .nil
    rw [hfailed, hfailed', ← htodo, ← htodo', List.append_nil, List.append_nil] at h
    exact h
  · rw [htodo]
    exact shielded_of_settings h hresizes hsize.2

/-! ## At the end -/

/-- A session has given up some of its streams, and none of the others. -/
structure Session.PartsWith (s : Session) (lost : List StreamRef) (t : Session) : Prop where
  reset : ∀ r, (t.stream r).reset = ((s.stream r).reset || decide (r ∈ lost))
  removed : ∀ r ∈ t.table, r ∈ s.table ∧ r ∉ lost
  kept : ∀ r ∈ s.table, r ∉ lost → r ∈ t.table ∨ (t.stream r).isClosed

/-- The same session, up to the order of the table and to which of some streams a frame tells of. -/
inductive Session.Mirrors (b : Session) (lost : List StreamRef) (s : Session) : Session → Prop
  | intro {table : List StreamRef} {parcels : List Parcel} {outstanding : List Handler} (perm : table.Perm s.table)
      (waiting : List.Forall₂ (Twins (b.TellsAny lost)) s.outbox.parcels parcels)
      (leaving : List.Forall₂ (Handler.Mirrors b lost) s.outstanding outstanding) :
      Session.Mirrors b lost s (s.recast table parcels outstanding)

section End

variable {b : Session} {lost lost' gone gone' due due' : List StreamRef} {m m' : Machine}

/-- When one machine is done, the other is, and both have given up all streams that they were to. -/
theorem Paired.finished (h : Paired b lost lost' gone gone' due due' m m') (stack : m.stack = []) :
    m'.stack = [] ∧ gone = lost ∧ gone' = lost' := by
  obtain ⟨hleft, hright, -, hwork, -⟩ := h
  rw [stack] at hwork
  generalize hstack' : m'.stack = l at hwork
  cases hwork
  rw [List.append_nil] at hleft hright
  exact ⟨rfl, hleft, hright⟩

/-- When all streams are given up, the order in which that was done can no longer be told. -/
theorem Abreast.mirrors {s s' : Session} (h : Abreast b lost lost lost' s s') (perm : lost'.Perm lost) :
    Session.Mirrors b lost s s' := by
  cases h with
  | @intro c table parcels outstanding spared hperm waiting leaving =>
  rw [Session.renounce_perm perm]
  exact .intro (hperm.filter _) waiting leaving

/-- When all streams are given up, each of them is reset and no longer open, and the others are as they were. -/
theorem Abreast.partsWith {s s' : Session} (h : Abreast b lost lost lost' s s') (tidy : b.Tidy) :
    b.PartsWith lost s := by
  cases h with
  | @intro c table parcels outstanding spared hperm waiting leaving =>
  have hknown := spared.known (List.Subset.refl lost)
  refine ⟨fun r => ?_, fun r hr => ?_, fun r hr hlost => ?_⟩
  · rw [Session.stream_renounce hknown]
    by_cases hr : r ∈ lost
    · rw [if_pos hr, decide_eq_true hr, Bool.or_true]
    · rw [if_neg hr, decide_eq_false hr, Bool.or_false, spared.reset]
  · obtain ⟨hmem, hne⟩ := Session.mem_renounce.1 hr
    exact ⟨spared.table r hmem, fun hlost => hne r hlost rfl⟩
  · rw [Session.isClosed_renounce hknown]
    exact (spared.left r hr).imp_left fun hmem => Session.mem_renounce.2
      ⟨hmem, fun q hq => (spared.idOf_ne tidy (List.Subset.refl lost) hr hlost q hq).symm⟩

theorem Session.PartsWith.resized {t u : Session} {size : Int} (h : t.PartsWith lost u) (resizes : s.Resizes size t) :
    s.PartsWith lost u where
  reset := fun r => by
    obtain ⟨window, hstream⟩ := resizes.stream r
    rw [h.reset, hstream]
  removed := fun r hr => resizes.table ▸ h.removed r hr
  kept := fun r hr => h.kept r (resizes.table ▸ hr)

end End

/-! ## In any order -/

/-- What SETTINGS come to that tell a size of windows: the windows of open streams have moved before anything is handed
over, the streams whose windows would be too large are given up and the peer is told so, other windows get smaller by
what is written for them, and new streams start with the size. -/
structure Session.Honours (cap : Nat) (s : Session) (size : Int) (n : Machine) (later : List Moment) (last : Machine) :
    Prop where
  resizes : s.Resizes size n.session
  first : n.awaited? = none
  partsWith : s.PartsWith (s.overrun size) last.session
  told : List.Forall₂ s.Tells (s.overrun size) (enqueuedControls later)
  window : ∀ r ∈ s.table, r ∉ s.overrun size → (last.session.stream r).window =
    (s.stream r).window + (size - s.initialWindow) - total (·.paid r) later
  initial : last.session.initialWindow = size
  born : ∀ {past : List Moment} {final : Machine}, Run (.standard cap) last past final →
    (∀ x ∈ past, x.size? = none) → ∀ x ∈ past, ∀ r, x.bears r → (x.after.session.stream r).window = size

theorem tells_rightUnique (s : Session) : Relator.RightUnique s.Tells := by
  rintro r q q' ⟨bytes, hbytes, rfl⟩ ⟨bytes', hbytes', rfl⟩
  cases hbytes.symm.trans hbytes'
  rfl

theorem Session.Resizes.of_lookup (h : s.Level) {entries : List Setting}
    (hnone : Setting.lookup entries .initialWindowSize = none) (resizes : s.Resizes (s.newSize entries) t) :
    s.overrun (s.newSize entries) = [] ∧ t = s := by
  have hsize : s.newSize entries = s.initialWindow := by rw [Session.newSize, hnone, Option.map_none, Option.getD_none]
  rw [hsize] at resizes ⊢
  obtain ⟨hlost, hself⟩ := h.resizes_self
  exact ⟨hlost, hself.ordered (.refl _) resizes⟩

/-- SETTINGS that are received at rest, with the table in one order and another. -/
theorem honours_of_settings (h : s.AtRest cap) (sent : s.goAwaySent = false) (perm : table.Perm s.table)
    {version : Version} {flags : UInt8} {entries : List Setting} {n last : Machine} {later : List Moment}
    (next : Machine.next? (.standard cap) { session := s }
      (.invoke (.receive (.control ⟨version, .settings flags entries⟩))) = some n)
    (more : Run (.standard cap) n later last)
    (within : ∀ x ∈ later, x.isWithin ∧ x.isBreak = false) (hlast : last.stack = []) :
    s.Honours cap (s.newSize entries) n later last ∧
      ∃ n' later' last', Machine.next? (.standard cap) { session := s.ordered table }
          (.invoke (.receive (.control ⟨version, .settings flags entries⟩))) = some n' ∧
        Run (.standard cap) n' later' last' ∧ last'.stack = [] ∧
        n'.session = n.session.ordered table ∧
        List.Forall₂ (Moment.Mirrors n.session (s.overrun (s.newSize entries))) later later' ∧
        Session.Mirrors n.session (s.overrun (s.newSize entries)) last.session last'.session ∧
        (enqueuedControls later').Perm (enqueuedControls later) := by
  obtain ⟨hresizes, hfirst, n', next', hsession, hpair⟩ := paired_of_settings h sent perm next
  have hlost := Session.overrun_ordered perm (s.newSize entries)
  have hnodup : (s.overrun (s.newSize entries)).Nodup := (List.Nodup.of_map s.idOf h.level.tidy.nodup).filter _
  have htidy := hresizes.tidy h.level.tidy
  have hwithin : ∀ x ∈ later, x.isWithin := fun x hx => (within x hx).1
  obtain ⟨later', last', now, now', left, left', run', hpaired, htold, htold', hmirrors⟩ :=
    hpair.run htidy hlost hnodup more within (makesUp_meanwhile h next more hwithin)
  rw [List.nil_append, List.nil_append] at hpaired
  obtain ⟨hlast', rfl, rfl⟩ := hpaired.finished hlast
  have hend := hpaired.sessions
  rw [hresizes.tells] at htold htold'
  obtain ⟨hinitial, -, hwindow⟩ := window_meanwhile h next more hwithin
  refine ⟨?_, n', later', last', next', run', hlast', hsession, hmirrors, hend.mirrors hlost,
    List.rel_perm_imp (tells_rightUnique s) htold' htold hlost⟩
  have hinitial : last.session.initialWindow = s.newSize entries := hinitial.trans (by rw [hresizes.rest])
  refine
    { resizes := hresizes
      first := hfirst
      partsWith := (hend.partsWith htidy).resized hresizes
      told := htold
      window := fun r hr hnot => ?_
      initial := hinitial
      born := fun run still x hx r bears => ?_ }
  · rw [hwindow r (htidy.known r (hresizes.table ▸ hr)), hresizes.moved, if_pos ⟨hr, hnot⟩]
  · obtain ⟨t, work⟩ := last
    obtain rfl : work = [] := hlast
    have hregular : t.Regular cap := (h.regular.run (settingsInTurn_meanwhile next more hwithin).1)
    rw [(windows_start_at hregular run still).2 x hx r bears]
    exact hinitial

end Settings

/-- SETTINGS that a session receives at rest act on the right streams in whatever order its table is, and come to the
same. The operation comes to its end. By then the streams whose windows would be too large are given up, with one frame
for each; all other windows have moved by as much as the size changes, before anything was written, and new streams
start with it. In another order all happens in the same way, moment by moment, up to which of these streams has its
turn. -/
theorem settings_in_any_table_order {cap : Nat} {config : Config} {primary : Option Listener} {s : Session}
    {past : List Moment} {m : Machine} {table table' : List StreamRef} (hnew : Session.new config primary = .ok s)
    (hconfig : config.initialWindow ≤ Stream.maxWindow) (run : Run (.standard cap) { session := s } past m)
    (houter : ∀ mo ∈ past, mo.reenters = false) (hunbroken : ∀ mo ∈ past, mo.isBreak = false)
    (hstack : m.stack = []) (hsent : m.session.goAwaySent = false)
    (perm : table.Perm m.session.table) (perm' : table'.Perm m.session.table) (version : Version) (flags : UInt8)
    (entries : List Setting) :
    let size := m.session.newSize entries
    let lost := (m.session.ordered table).overrun size
    (lost.Nodup ∧ ∀ r, r ∈ lost ↔ r ∈ m.session.table ∧
      Stream.maxWindow < (m.session.stream r).window + (size - m.session.initialWindow)) ∧
    ∃ n, Machine.next? (.standard cap) { session := m.session.ordered table }
        (.invoke (.receive (.control ⟨version, .settings flags entries⟩))) = some n ∧
      (Setting.lookup entries .initialWindowSize = none → lost = [] ∧ n.session = m.session.ordered table) ∧
      n.Settles cap ∧
      ∀ later last, Run (.standard cap) n later last → (∀ x ∈ later, x.isWithin ∧ x.isBreak = false) → last.stack = [] →
        (m.session.ordered table).Honours cap size n later last ∧
        ∃ n' later' last', Machine.next? (.standard cap) { session := m.session.ordered table' }
            (.invoke (.receive (.control ⟨version, .settings flags entries⟩))) = some n' ∧
          Run (.standard cap) n' later' last' ∧ last'.stack = [] ∧
          n'.session = n.session.ordered table' ∧ List.Forall₂ (Moment.Mirrors n.session lost) later later' ∧
          Session.Mirrors n.session lost last.session last'.session ∧
          (enqueuedControls later').Perm (enqueuedControls later) := by
  intro size lost
  have hrest := (atRest_of_run hnew hconfig run houter hunbroken hstack hsent).ordered perm
  have hnext := next?_settings (s := m.session.ordered table) cap hsent version flags entries
  obtain ⟨hresizes, -⟩ := paired_of_settings hrest hsent (.refl _) hnext
  refine ⟨⟨(List.Nodup.of_map _ hrest.level.tidy.nodup).filter _, fun r => ?_⟩, _, hnext,
    fun hnone => hresizes.of_lookup hrest.level hnone, settles_of_run (Run.start.next hnext),
    fun later last more within hlast =>
      honours_of_settings hrest hsent (perm'.trans perm.symm) hnext more within hlast⟩
  rw [Session.mem_overrun]
  exact and_congr_left fun _ => perm.mem_iff

/-- SETTINGS raise the windows of three streams by one, but two of them are as large as a window can be: whether the
older or the newer one comes first, both are given up, each in its own version. -/
theorem settings_in_any_table_order_of_two : ∃ s past m n later last,
    Session.new { Config.client with initialWindow := 5 } none = .ok s ∧
      Run (.standard 16384) { session := s } past m ∧ (∀ mo ∈ past, mo.reenters = false) ∧
      (∀ mo ∈ past, mo.isBreak = false) ∧ m.stack = [] ∧ m.session.goAwaySent = false ∧ m.session.table = [⟨0⟩, ⟨1⟩, ⟨2⟩] ∧
      Machine.next? (.standard 16384) { session := m.session.ordered [⟨1⟩, ⟨0⟩, ⟨2⟩] }
        (.invoke (.receive (.control ⟨.v3, .settings 0 [⟨.initialWindowSize, 0, 6⟩]⟩))) = some n ∧
      Run (.standard 16384) n later last ∧ (∀ x ∈ later, x.isWithin ∧ x.isBreak = false) ∧
      last.stack = [] ∧ last.session.table = [⟨2⟩] ∧ (last.session.stream ⟨2⟩).window = 6 ∧
      enqueuedControls later =
        [.control .rstStream [128, 2, 0, 3, 0, 0, 0, 8, 0, 0, 0, 3, 0, 0, 0, 7] none,
          .control .rstStream [128, 3, 0, 3, 0, 0, 0, 8, 0, 0, 0, 1, 0, 0, 0, 7] none] ∧
      (m.session.ordered [⟨1⟩, ⟨0⟩, ⟨2⟩]).Honours 16384 6 n later last ∧
      ∃ n' later' last', Machine.next? (.standard 16384) { session := m.session.ordered [⟨2⟩, ⟨0⟩, ⟨1⟩] }
          (.invoke (.receive (.control ⟨.v3, .settings 0 [⟨.initialWindowSize, 0, 6⟩]⟩))) = some n' ∧
        Run (.standard 16384) n' later' last' ∧ last'.stack = [] ∧
        Session.Mirrors n.session [⟨1⟩, ⟨0⟩] last.session last'.session ∧
        (enqueuedControls later').Perm (enqueuedControls later) := by
  have hnew : Session.new { Config.client with initialWindow := 5 } none =
      .ok (.fresh { Config.client with initialWindow := 5 } none) := rfl
  have hrun := Machine.run_of_replay? (.standard 16384)
    { session := .fresh { Config.client with initialWindow := 5 } none }
    [.invoke (.syn .v3 (.plain default false) none), .tick, .tick, .answer none, .tick, .leave,
      .invoke (.complete 1), .tick, .tick, .tick, .leave,
      .invoke (.syn .v2 (.plain default false) none), .tick, .tick, .answer none, .tick, .leave,
      .invoke (.complete 2), .tick, .tick, .tick, .leave,
      .invoke (.syn .v3 (.plain default false) none), .tick, .tick, .answer none, .tick, .leave,
      .invoke (.complete 3), .tick, .tick, .tick, .leave,
      .invoke (.receive (.control ⟨.v3, .windowUpdate 1 2147483642⟩)), .tick, .leave,
      .invoke (.receive (.control ⟨.v3, .windowUpdate 3 2147483642⟩)), .tick, .leave] rfl
  have hany := settings_in_any_table_order hnew (by decide) hrun (by decide) (by decide) (by decide) (by decide)
    (show [⟨1⟩, ⟨0⟩, ⟨2⟩].Perm _ from by decide) (show [⟨2⟩, ⟨0⟩, ⟨1⟩].Perm _ from by decide) .v3 0
    [⟨.initialWindowSize, 0, 6⟩]
  obtain ⟨-, n, hnext, -, -, hall⟩ := hany
  have hmore : ∃ later last, Run (.standard 16384) n later last ∧ (∀ x ∈ later, x.isWithin ∧ x.isBreak = false) ∧
      last.stack = [] ∧ last.session.table = [⟨2⟩] ∧ (last.session.stream ⟨2⟩).window = 6 ∧ enqueuedControls later =
        [.control .rstStream [128, 2, 0, 3, 0, 0, 0, 8, 0, 0, 0, 3, 0, 0, 0, 7] none,
          .control .rstStream [128, 3, 0, 3, 0, 0, 0, 8, 0, 0, 0, 1, 0, 0, 0, 7] none] := by
    cases hnext
    exact ⟨_, _, Machine.run_of_replay? (.standard 16384) _
      [.tick, .tick, .tick, .tick, .invoke (.complete 4), .tick, .leave, .answer none, .tick, .tick, .tick, .tick,
        .tick, .tick, .invoke (.complete 5), .tick, .leave, .answer none, .tick, .tick, .tick, .tick, .tick, .tick,
        .leave] rfl,
      by decide, by decide, by decide, by decide, by decide⟩
  obtain ⟨later, last, hrest, hwithin, hlast, htable, hwindow, hqueue⟩ := hmore
  obtain ⟨hhonours, n', later', last', hnext', hrun', hlast', -, -, hmirrors, hperm⟩ :=
    hall later last hrest hwithin hlast
  exact ⟨_, _, _, n, later, last, hnew, hrun, by decide, by decide, by decide, by decide, by decide, hnext,
    hrest, hwithin, hlast, htable, hwindow, hqueue, hhonours, n', later', last', hnext', hrun', hlast', hmirrors, hperm⟩

/-- Where the controller has broken off, data waits that could be sent when SETTINGS come, and the order of the table
can be told: of two streams that are given up, the data of the second one is written before it is its turn. Where it
breaks off while they are dealt with, a stream stays whose window would be too large, and the peer is not told. -/
theorem settings_go_astray_after_break :
    (∃ s past m n later last n' later' last',
      Session.new { Config.client with initialWindow := 5 } none = .ok s ∧
      Run (.standard 16384) { session := s } past m ∧
      (∀ mo ∈ past, mo.reenters = false ∧ mo.isFailure = false ∧ mo.isDrop = false) ∧ m.stack = [] ∧
      m.session.goAwaySent = false ∧ m.session.table = [⟨0⟩, ⟨1⟩] ∧
      Machine.next? (.standard 16384) { session := m.session.ordered [⟨0⟩, ⟨1⟩] }
        (.invoke (.receive (.control ⟨.v3, .settings 0 [⟨.initialWindowSize, 0, 6⟩]⟩))) = some n ∧
      Run (.standard 16384) n later last ∧ (∀ x ∈ later, x.isWithin ∧ x.isOrderly) ∧ last.stack = [] ∧
      (later.filterMap Moment.handed?).map (·.1) = [[0, 0, 0, 3, 0, 0, 0, 1, 8],
        [128, 3, 0, 3, 0, 0, 0, 8, 0, 0, 0, 1, 0, 0, 0, 7], [128, 3, 0, 3, 0, 0, 0, 8, 0, 0, 0, 3, 0, 0, 0, 7]] ∧
      Machine.next? (.standard 16384) { session := m.session.ordered [⟨1⟩, ⟨0⟩] }
        (.invoke (.receive (.control ⟨.v3, .settings 0 [⟨.initialWindowSize, 0, 6⟩]⟩))) = some n' ∧
      Run (.standard 16384) n' later' last' ∧ (∀ x ∈ later', x.isWithin ∧ x.isOrderly) ∧ last'.stack = [] ∧
      (later'.filterMap Moment.handed?).map (·.1) = [[0, 0, 0, 1, 0, 0, 0, 1, 7],
        [128, 3, 0, 3, 0, 0, 0, 8, 0, 0, 0, 3, 0, 0, 0, 7], [128, 3, 0, 3, 0, 0, 0, 8, 0, 0, 0, 1, 0, 0, 0, 7]]) ∧
    ∃ s past m n later last, Session.new { Config.client with initialWindow := 5 } none = .ok s ∧
      Run (.standard 16384) { session := s } past m ∧ (∀ mo ∈ past, mo.reenters = false ∧ mo.isOrderly) ∧ m.stack = [] ∧
      m.session.goAwaySent = false ∧
      m.next? (.standard 16384) (.invoke (.receive (.control ⟨.v3, .settings 0 [⟨.initialWindowSize, 0, 6⟩]⟩))) =
        some n ∧
      Run (.standard 16384) n later last ∧ (∀ x ∈ later, x.isWithin ∧ x.isDrop = false) ∧ last.stack = [] ∧
      m.session.overrun 6 = [⟨0⟩, ⟨1⟩] ∧ last.session.table = [⟨1⟩] ∧
      enqueuedControls later = [.control .rstStream [128, 3, 0, 3, 0, 0, 0, 8, 0, 0, 0, 1, 0, 0, 0, 7] none] := by
  have hrun := Machine.run_of_replay? (.standard 16384)
    { session := .fresh { Config.client with initialWindow := 5 } none }
    [.invoke (.syn .v3 (.plain default false) none), .tick, .tick, .answer none, .tick, .leave,
      .invoke (.complete 1), .tick, .tick, .tick, .leave,
      .invoke (.syn .v3 (.plain default false) none), .tick, .tick, .answer none, .tick, .leave,
      .invoke (.complete 2), .tick, .tick, .tick, .leave,
      .invoke (.receive (.control ⟨.v3, .windowUpdate 1 2147483642⟩)), .tick, .leave,
      .invoke (.receive (.control ⟨.v3, .windowUpdate 3 2147483642⟩)), .tick, .leave] rfl
  have hbroken := hrun.append (hrun.continue_of_replay?
    [.invoke (.ping .v3), .tick, .panic (.raised none), .leave, .invoke (.data ⟨0⟩ ⟨[7], false⟩), .tick, .leave,
      .invoke (.data ⟨1⟩ ⟨[8], false⟩), .tick, .leave, .invoke (.complete 3), .tick, .leave] rfl)
  refine ⟨⟨_, _, _, _, _, _, _, _, _, rfl, hbroken, by decide, rfl, rfl, by decide, rfl,
    Machine.run_of_replay? (.standard 16384) _
      [.tick, .tick, .tick, .tick, .tick, .invoke (.complete 4), .tick, .tick, .leave, .answer none, .tick, .tick,
        .invoke (.complete 5), .tick, .leave, .answer none, .tick, .tick, .tick, .tick, .tick, .tick,
        .invoke (.complete 6), .tick, .leave, .answer none, .tick, .tick, .tick, .tick, .tick, .tick, .leave] rfl,
    by decide, rfl, by decide, rfl,
    Machine.run_of_replay? (.standard 16384) _
      [.tick, .tick, .tick, .tick, .invoke (.complete 4), .tick, .tick, .leave, .answer none, .tick, .tick, .tick,
        .invoke (.complete 5), .tick, .leave, .answer none, .tick, .tick, .tick, .tick, .tick, .tick,
        .invoke (.complete 6), .tick, .leave, .answer none, .tick, .tick, .tick, .tick, .tick, .tick, .leave] rfl,
    by decide, rfl, by decide⟩, ?_⟩
  exact ⟨_, _, _, _, _, _, rfl, hrun, by decide, rfl, rfl, rfl,
    Machine.run_of_replay? (.standard 16384) _ [.tick, .tick, .tick, .tick, .panic (.raised none), .leave] rfl,
    by decide, rfl, by decide, by decide, by decide⟩

end Spdy
