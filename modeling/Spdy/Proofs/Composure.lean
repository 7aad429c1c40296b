import Spdy.Proofs.Roster
import Spdy.Proofs.Rounds

/-!
# Listeners that break off

Nobody but the log learns that a listener breaks off instead of returning. So a run in which listeners break off is compared
with one in which some of their calls, or all of them, return at that point, and nothing else differs.

* `Machine.notes`, `Chronicle` : what is written to the log, and a run with its log;
* `Event.Stands`, `Companions` : what may happen instead of a listener's panic, and two runs that differ only in that;
* `Moment.Matches`, `agree_of_companions` : all else is the same in both;
* `companion_of_chronicle` : there always is a run in which no listener breaks off;
* `Moment.KeepsRounds`, `listeners_panic_alone` : and rounds of notices go on as they should.
-/

namespace Spdy

/-! ## The log -/

/-- The lines that are written to the log when something happens to a machine. -/
def Machine.notes (enc : Encoder) (m : Machine) : Event → List Note
  | .invoke op => (m.invoke enc op).2
  | .tick => ((m.tick enc).map (·.2)).getD []
  | .panic p => (m.panic p).2
  | .answer _ | .leave | .edit _ | .drop _ => []

def Moment.isLapse (mo : Moment) : Bool :=
  match mo.event, mo.before.awaited? with
  | .panic _, some (.tell ..) => true
  | _, _ => false

/-- The run of a machine whose encoder may be another one at each moment, with all that is written to the log. -/
inductive Chronicle (ok : Encoder → Prop) (start : Machine) : List Moment → List Note → Machine → Prop
  | start : Chronicle ok start [] [] start
  | next {past : List Moment} {log : List Note} {m m' : Machine} {e : Event} {enc : Encoder}
      (chronicle : Chronicle ok start past log m) (may : ok enc) (h : m.next? enc e = some m') :
      Chronicle ok start (past ++ [⟨m, e, m'⟩]) (log ++ m.notes enc e) m'

theorem Run.chronicle {ok : Encoder → Prop} {enc : Encoder} {start m : Machine} {past : List Moment}
    (run : Run enc start past m) (may : ok enc) :
    Chronicle ok start past (past.flatMap fun mo => mo.before.notes enc mo.event) m := by
  induction run with
  | start => exact .start
  | next _ h ih =>
    rw [List.flatMap_append, List.flatMap_singleton]
    exact ih.next may h

/-! ## Two runs -/

/-- What may happen instead: the same, or a listener returns that breaks off, and names nobody. -/
inductive Event.Stands (m : Machine) : Event → Event → Prop
  | same (e : Event) : Stands m e e
  | returns {l : Listener} {notice : Notice} (p : Panic) (told : m.awaited? = some (.tell l notice)) :
      Stands m (.panic p) (.answer none)

/-- Two runs with their logs. They differ only in that listeners may return in the second one that break off in the
first one. -/
inductive Companions (ok : Encoder → Prop) (start : Machine) :
    List Moment → List Note → Machine → List Moment → List Note → Machine → Prop
  | start : Companions ok start [] [] start [] [] start
  | next {past past' : List Moment} {log log' : List Note} {m m' n n' : Machine} {e e' : Event} {enc : Encoder}
      (companions : Companions ok start past log m past' log' m') (may : ok enc) (stands : e.Stands m e')
      (h : m.next? enc e = some n) (h' : m'.next? enc e' = some n') :
      Companions ok start (past ++ [⟨m, e, n⟩]) (log ++ m.notes enc e) n (past' ++ [⟨m', e', n'⟩])
        (log' ++ m'.notes enc e') n'

/-- Two moments that are the same to everyone: the machine, the call that is made, the frame that is handed over and
what an operation is going to return. -/
structure Moment.Matches (mo mo' : Moment) : Prop where
  before : mo'.before = mo.before
  after : mo'.after = mo.after
  called? : mo'.called? = mo.called?
  handed? : mo'.handed? = mo.handed?
  outcome? : mo'.outcome? = mo.outcome?

section Composure

variable {ok : Encoder → Prop} {enc : Encoder} {s : Session} {start m m' n n' : Machine} {e e' : Event}
  {past past' : List Moment} {log log' : List Note}

theorem Chronicle.course (chronicle : Chronicle ok start past log m) : Course ok start past m := by
  induction chronicle with
  | start => exact .start
  | next _ may h ih => exact ih.next may h

theorem Companions.other (companions : Companions ok start past log m past' log' m') : Chronicle ok start past' log' m' := by
  induction companions with
  | start => exact .start
  | next _ may stands h h' ih => exact ih.next may h'

/-- A listener that breaks off leaves what it leaves when it returns. -/
theorem panic_of_told (enc : Encoder) {l : Listener} {notice : Notice} (told : m.awaited? = some (.tell l notice))
    (p : Panic) :
    m.next? enc (.panic p) = m.next? enc (.answer none) ∧ m.notes enc (.panic p) = [.listenerPanicked notice p] := by
  simp only [Machine.next?, Machine.notes, Machine.panic, told, and_self]

/-- What happens instead is the same to everyone but the log. -/
theorem matches_of_stands (stands : e.Stands m e') (h : m.next? enc e = some n) (h' : m.next? enc e' = some n') :
    n' = n ∧ Moment.Matches ⟨m, e, n⟩ ⟨m, e', n'⟩ ∧
      (m.notes enc e').filter (!·.isLapse) = (m.notes enc e).filter (!·.isLapse) := by
  cases stands with
  | same =>
    obtain rfl := Option.some.inj (h.symm.trans h')
    exact ⟨rfl, ⟨rfl, rfl, rfl, rfl, rfl⟩, rfl⟩
  | returns p told =>
    obtain ⟨hnext, hnotes⟩ := panic_of_told enc told p
    obtain rfl := Option.some.inj ((hnext.symm.trans h).symm.trans h')
    refine ⟨rfl, ⟨rfl, rfl, rfl, rfl, rfl⟩, ?_⟩
    rw [hnotes]
    rfl

theorem agree_of_companions (companions : Companions ok start past log m past' log' m') :
    m' = m ∧ List.Forall₂ Moment.Matches past past' ∧ log'.filter (!·.isLapse) = log.filter (!·.isLapse) := by
  induction companions with
  | start => exact ⟨rfl, .nil, rfl⟩
  | next _ may stands h h' ih =>
    obtain ⟨rfl, hmatches, hlog⟩ := ih
    obtain ⟨rfl, hmatch, hnotes⟩ := matches_of_stands stands h h'
    refine ⟨rfl, List.rel_append hmatches (.cons hmatch .nil), ?_⟩
    rw [List.filter_append, List.filter_append, hlog, hnotes]

/-! ## A run without panics of listeners -/

theorem notes_of_perform (x : Task) : ∀ note ∈ (m.session.perform enc x).notes, note.isLapse = false := by
  cases hx : x.isOutOfTurn with
  | false => exact (Session.perform_notifies hx).notes
  | true =>
    cases x with
    | tell ls notice => cases ls <;> simp [Session.perform]
    | call | announce | tellRegistered => simp [Session.perform]
    | _ => cases hx

/-- Only a listener that breaks off is noted as one. -/
theorem notes_of_next? (h : m.next? enc e = some n) (composed : Moment.isLapse ⟨m, e, n⟩ = false) :
    ∀ note ∈ m.notes enc e, note.isLapse = false := by
  cases Machine.happens_of_next? h with
  | invoke op yields possible => exact (Session.begin_notifies m.isAlive op).notes
  | @tick x rest outcome below stack notCall =>
    have htick : m.notes enc .tick = (m.session.perform enc x).notes := by
      cases x with
      | call => cases notCall
      | _ => simp only [Machine.notes, Machine.tick, stack, Option.map_some, Option.getD_some]
    rw [htick]
    exact notes_of_perform x
  | @caught p c rest outcome below stack tell =>
    rw [Moment.isLapse, Machine.awaited?_of_stack stack] at composed
    cases c with
    | tell => cases composed
    | _ => cases tell
  | @broken p c rest outcome below stack notTell =>
    have hnotes : m.notes enc (.panic p) = [] := by
      rw [Machine.notes, Machine.panic, Machine.awaited?_of_stack stack]
      cases c with
      | tell => cases notTell
      | _ => rfl
    rw [hnotes]
    simp
  | answer => simp [Machine.notes]
  | leave => simp [Machine.notes]
  | edit => simp [Machine.notes]
  | drop => simp [Machine.notes]

/-- Whatever happens, something may happen instead that no listener breaks off in. -/
theorem stands_of_next? (h : m.next? enc e = some n) :
    ∃ e', e.Stands m e' ∧ m.next? enc e' = some n ∧ Moment.isLapse ⟨m, e', n⟩ = false ∧
      m.notes enc e' = (m.notes enc e).filter (!·.isLapse) := by
  cases hlapse : Moment.isLapse ⟨m, e, n⟩ with
  | false =>
    refine ⟨e, .same e, h, hlapse, (List.filter_eq_self.2 fun note hnote => ?_).symm⟩
    rw [notes_of_next? h hlapse note hnote]
    rfl
  | true =>
    unfold Moment.isLapse at hlapse
    split at hlapse
    · next p l notice he told =>
      obtain rfl : e = .panic p := he
      obtain ⟨hnext, hnotes⟩ := panic_of_told enc told p
      refine ⟨.answer none, .returns p told, hnext.symm.trans h, rfl, ?_⟩
      rw [hnotes]
      rfl
    · cases hlapse

/-- For every run there is one in which the same happens, but no listener breaks off. -/
theorem companion_of_chronicle (chronicle : Chronicle ok start past log m) :
    ∃ past', Companions ok start past log m past' (log.filter (!·.isLapse)) m ∧ ∀ mo ∈ past', mo.isLapse = false := by
  induction chronicle with
  | start => exact ⟨[], .start, by simp⟩
  | @next past log m n e enc chronicle may h ih =>
    obtain ⟨past', companions, composed⟩ := ih
    obtain ⟨e', stands, h', hlapse, hnotes⟩ := stands_of_next? h
    refine ⟨past' ++ [⟨m, e', n⟩], ?_, ?_⟩
    · rw [List.filter_append, ← hnotes]
      exact companions.next may stands h h'
    · exact List.forall_mem_append.2 ⟨composed, List.forall_mem_singleton.2 hlapse⟩

/-! ## Rounds go on -/

/-- What is told in rounds is told in one, and rounds that begin here go as they should, as far as they have come,
whatever listeners do meanwhile: the primary listener is told first of session frames, and then each of those who are
registered when their turn begins, in order and once for each time that they are. -/
structure Moment.KeepsRounds (mo : Moment) (later : List Moment) (last : Machine) : Prop where
  inRound : ∀ {l : Listener} {notice : Notice}, mo.called? = some (.tell l notice) → notice.isShared →
    ∃ x rest outcome below, mo.after.stack = ⟨.call (.tell l notice) :: x :: rest, outcome⟩ :: below ∧
      ((∃ ls, x = .tell ls notice) ∨ x = .tellRegistered notice)
  registered : ∀ {ls : List Listener} {notice : Notice} {rest : List Task} {outcome : Outcome} {below : List Activation},
    mo.isWork → mo.after.stack = ⟨.tell ls notice :: rest, outcome⟩ :: below →
    (∀ x ∈ later, x.after.stack ≠ ⟨rest, outcome⟩ :: below) →
    notice.registry? mo.before.session = some ls ∧ Proceeds notice rest outcome below ls later last
  announced : ∀ {notice : Notice} {rest : List Task} {outcome : Outcome} {below : List Activation},
    mo.after.stack = ⟨.announce notice :: rest, outcome⟩ :: below →
    (∀ x ∈ later, x.after.stack ≠ ⟨rest, outcome⟩ :: below) →
    notice.isControl ∧ Proclaims notice rest outcome below mo.after.session.primary later last

theorem keepsRounds_of_course {pre later : List Moment} {mo : Moment}
    (course : Course ok { session := s } (pre ++ mo :: later) m) : mo.KeepsRounds later m := by
  obtain ⟨hpre, enc, -, hnext⟩ := course.of_append
  have hmore := course.after
  have hbefore := convened_of_course hpre
  have hafter := convened_of_next? hbefore hnext
  refine ⟨fun {l notice} hcalled hshared => ?_, fun {ls notice rest outcome below} work stack going => ?_,
    fun {notice rest outcome below} stack going => ?_⟩
  · have hawaited : mo.after.awaited? = some (.tell l notice) := by
      unfold Moment.called? at hcalled
      split at hcalled <;> first | exact hcalled | cases hcalled
    obtain ⟨rest, outcome, below, stack⟩ := Machine.stack_of_awaited? hawaited
    rcases (hafter.head stack).inRound hshared with ⟨ls, more, rfl⟩ | ⟨more, rfl⟩
    · exact ⟨_, more, outcome, below, stack, .inl ⟨ls, rfl⟩⟩
    · exact ⟨_, more, outcome, below, stack, .inr rfl⟩
  · exact ⟨registry_of_next? hbefore hnext work stack, proceeds_of_tell stack hmore going⟩
  · exact ⟨(hafter.head stack).announced, proclaims_of_announce stack hmore going⟩

/-- Only the log learns that listeners break off. For every run there is one that differs only in that they return at
that point, and the same happens in it to everyone else: the session is the same throughout, the same calls are made in
the same order, the same frames are handed over and the same is returned. So it is if only some of them return, and what
is written to the log is the same but for the lines that note the panics. Rounds of notices go on whoever breaks off,
with those who were registered when their turn began, whoever is registered or taken off meanwhile. -/
theorem listeners_panic_alone (chronicle : Chronicle ok { session := s } past log m) :
    (∃ past', Companions ok { session := s } past log m past' (log.filter (!·.isLapse)) m ∧
      Chronicle ok { session := s } past' (log.filter (!·.isLapse)) m ∧ ∀ mo ∈ past', mo.isLapse = false) ∧
    (∀ past' log' m', Companions ok { session := s } past log m past' log' m' →
      m' = m ∧ List.Forall₂ Moment.Matches past past' ∧ log'.filter (!·.isLapse) = log.filter (!·.isLapse)) ∧
    ∀ pre mo later post, past = (pre ++ mo :: later) ++ post →
      ∃ n, Course ok mo.after later n ∧ Course ok n post m ∧ mo.KeepsRounds later n := by
  refine ⟨?_, fun past' log' m' => agree_of_companions, ?_⟩
  · obtain ⟨past', companions, composed⟩ := companion_of_chronicle chronicle
    exact ⟨past', companions, companions.other, composed⟩
  · rintro pre mo later post rfl
    obtain ⟨n, hbegun, hpost⟩ := chronicle.course.split
    exact ⟨n, hbegun.after, hpost, keepsRounds_of_course hbegun⟩

end Composure

/-- Settings arrive while two listeners are registered. The primary listener and the first of the others break off, and
the latter has a third one registered and the second one taken off before. The second one, which is told all the same,
sends a ping and breaks off too. -/
theorem listeners_panic_alone_amid_changes : ∃ s past log m, Session.new .client (some ⟨"p"⟩) = .ok s ∧
    Chronicle (fun _ => True) { session := s } past log m ∧ m.stack = [] ∧
      m.session.controlListeners = [⟨"a"⟩, ⟨"c"⟩] ∧ (past.filter (·.isLapse)).length = 3 ∧
      log = [.listenerPanicked (.settings ⟨[], false⟩) (.raised none),
        .listenerPanicked (.settings ⟨[], false⟩) (.raised (some "a")),
        .listenerPanicked (.settings ⟨[], false⟩) (.raised (some "b"))] ∧
      callsAt 1 past = [.tell ⟨"p"⟩ (.settings ⟨[], false⟩), .tell ⟨"a"⟩ (.settings ⟨[], false⟩),
        .tell ⟨"b"⟩ (.settings ⟨[], false⟩)] ∧
      (∃ past', Companions (fun _ => True) { session := s } past log m past' [] m ∧
        (∀ mo ∈ past', mo.isLapse = false) ∧ List.Forall₂ Moment.Matches past past') ∧
      ∃ later n, later <+: past.drop 3 ∧ later.length = 14 ∧
        Proclaims (.settings ⟨[], false⟩) [.flush] .done [] (some ⟨"p"⟩) later n := by
  have hnew : Session.new .client (some ⟨"p"⟩) = .ok (.fresh .client (some ⟨"p"⟩)) := rfl
  have hrun := Machine.run_of_replay? (.standard 16384) { session := .fresh .client (some ⟨"p"⟩) }
    [.edit (.addControlListener ⟨"a"⟩), .edit (.addControlListener ⟨"b"⟩),
      .invoke (.receive (.control ⟨.v3, .settings 0 []⟩)), .tick, .panic (.raised none), .tick, .tick,
      .edit (.addControlListener ⟨"c"⟩), .edit (.removeControlListener ⟨"b"⟩), .panic (.raised (some "a")), .tick,
      .invoke (.ping .v3), .tick, .answer none, .tick, .leave, .panic (.raised (some "b")), .tick, .tick, .leave] rfl
  have hchronicle : Chronicle (fun _ => True) _ _ _ _ := hrun.chronicle trivial
  obtain ⟨⟨past', companions, -, composed⟩, agree, rounds⟩ := listeners_panic_alone hchronicle
  obtain ⟨n, -, -, keeps⟩ := rounds [_, _] _ [_, _, _, _, _, _, _, _, _, _, _, _, _, _] _ rfl
  have hproclaims := keeps.announced rfl fun x hx hstack => by
    have hlast : x.after.tasks.length = 1 := by rw [Machine.tasks, hstack]; rfl
    clear hstack
    revert x
    decide
  exact ⟨_, _, _, _, hnew, hchronicle, rfl, rfl, rfl, rfl, rfl,
    ⟨past', companions, composed, (agree _ _ _ companions).2.1⟩, _, n, ⟨_, rfl⟩, rfl, hproclaims.2⟩

end Spdy
