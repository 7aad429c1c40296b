import Spdy.Proofs.Allotment

/-!
# Calls that fail

A call of the application that returns an error has done nothing, but for an id that is used up if no stream could be
opened with it. When the encoder has no frame for a new stream, its id is taken out of the table again; as no open stream
has the next id, nothing else is taken out with it.

* `Fails` : which calls fail, and with which error;
* `fails_of_begin`, `begin_of_fails` : these calls fail and no others, and what they leave;
* `Tally.idOf_ne_next` : no stream has the next id;
* `failed_call_changes_nothing` : so it is in every run, whatever the encoders.
-/

namespace Spdy

/-! ## Which calls fail -/

def Operation.stream? : Operation → Option StreamRef
  | .reply r _ | .headers r _ | .data r _ | .sessionData r _ => some r
  | _ => none

def Operation.body? (s : Session) : Operation → Option Body
  | .reply r head => some (.synReply head.flags (s.idOf r) head.headers)
  | .headers r head => some (.headers head.flags (s.idOf r) head.headers)
  | _ => none

/-- Whether a call is asked of a stream, which may be there without its session. -/
def Operation.isOfStream : Operation → Bool
  | .reply .. | .headers .. | .data .. => true
  | _ => false

/-- Which calls fail, and with which error. `alive` tells whether the session is still there for those who only know one
of its streams. -/
inductive Fails (enc : Encoder) (s : Session) (alive : Bool) : Operation → Error → Prop
  | unidirectional {version : Version} {opening : Opening} {listener : Option Listener}
      (unidirectional : opening.unidirectional) : Fails enc s alive (.syn version opening listener) .unidirectional
  | ended {version : Version} {opening : Opening} {listener : Option Listener}
      (bidirectional : opening.unidirectional = false) (sent : s.goAwaySent) :
      Fails enc s alive (.syn version opening listener) .sessionClosed
  | unopened {version : Version} {opening : Opening} {listener : Option Listener} {cause : Refusal}
      (bidirectional : opening.unidirectional = false) (unsent : s.goAwaySent = false)
      (refused : enc.control ⟨version, .synStream opening.flags s.nextStreamId opening.associatedId opening.priority
        opening.headers⟩ = .error cause) :
      Fails enc s alive (.syn version opening listener) (.streamCreation s.nextStreamId cause)
  | closed {op : Operation} {r : StreamRef} (stream : op.stream? = some r) (closed : (s.stream r).localClosed) :
      Fails enc s alive op (.streamClosed (s.idOf r))
  | gone {op : Operation} {r : StreamRef} (stream : op.stream? = some r) (unclosed : (s.stream r).localClosed = false)
      (ofStream : op.isOfStream) (gone : alive = false) : Fails enc s alive op .sessionClosed
  | refused {op : Operation} {r : StreamRef} {body : Body} {cause : Refusal} (stream : op.stream? = some r)
      (sends : op.body? s = some body) (unclosed : (s.stream r).localClosed = false) (there : alive = true)
      (refused : enc.control ⟨(s.stream r).version, body⟩ = .error cause) : Fails enc s alive op (.generation cause)

/-- By how much a call that fails moves the counter of ids on. -/
def Error.idStep : Error → UInt32
  | .streamCreation .. => 2
  | _ => 0

namespace Session

/-- The session with its counter of ids moved on. -/
def advance (s : Session) (step : UInt32) : Session := { s with nextStreamId := s.nextStreamId + step }

theorem advance_zero (s : Session) : s.advance 0 = s := by rw [advance, UInt32.add_zero]

variable {enc : Encoder} {s : Session} {alive : Bool} {op : Operation} {err : Error}

theorem fails_of_beginOnStream {r : StreamRef} {body : Body} (stream : op.stream? = some r) (sends : op.body? s = some body)
    (ofStream : op.isOfStream) (h : (s.beginOnStream enc alive r body).outcome = .failed err) : Fails enc s alive op err := by
  unfold beginOnStream at h
  dsimp only at h
  split at h
  · next closed =>
    cases h
    exact .closed stream closed
  · next unclosed =>
    rw [Bool.not_eq_true] at unclosed
    split at h
    · next gone =>
      cases h
      exact .gone stream unclosed ofStream (by simpa using gone)
    · next there =>
      split at h
      · next cause refused =>
        cases h
        exact .refused stream sends unclosed (by simpa using there) refused
      · cases h

theorem fails_of_beginData {r : StreamRef} {payload : Payload} {there : Bool} (stream : op.stream? = some r)
    (known : there = false → alive = false ∧ op.isOfStream) (h : (s.beginData there r payload).outcome = .failed err) :
    Fails enc s alive op err := by
  unfold beginData at h
  dsimp only at h
  split at h
  · next closed =>
    cases h
    exact .closed stream closed
  · next unclosed =>
    rw [Bool.not_eq_true] at unclosed
    split at h
    · next gone =>
      cases h
      obtain ⟨gone, ofStream⟩ := known (by simpa using gone)
      exact .gone stream unclosed ofStream gone
    · cases h

/-- A call that returns an error is one of those that fail. -/
theorem fails_of_begin (h : (s.begin enc alive op).outcome = .failed err) : Fails enc s alive op err := by
  cases op with
  | syn version opening listener =>
    simp only [Session.begin, beginSyn] at h
    split at h
    · next unidirectional =>
      cases h
      exact .unidirectional unidirectional
    · next bidirectional =>
      rw [Bool.not_eq_true] at bidirectional
      split at h
      · next sent =>
        cases h
        exact .ended bidirectional sent
      · next unsent =>
        rw [Bool.not_eq_true] at unsent
        split at h
        · next cause refused =>
          cases h
          exact .unopened bidirectional unsent refused
        · cases h
  | reply r head => exact @fails_of_beginOnStream enc s alive (.reply r head) err r _ rfl rfl rfl h
  | headers r head => exact @fails_of_beginOnStream enc s alive (.headers r head) err r _ rfl rfl rfl h
  | data r payload =>
    exact @fails_of_beginData enc s alive (.data r payload) err r payload alive rfl (fun gone => ⟨gone, rfl⟩) h
  | sessionData r payload =>
    exact @fails_of_beginData enc s alive (.sessionData r payload) err r payload true rfl (fun gone => by cases gone) h
  | settings version message =>
    simp only [Session.begin, beginFrame] at h
    split at h <;> cases h
  | ping version =>
    simp only [Session.begin, beginPing, beginFrame] at h
    split at h <;> cases h
  | goAway version =>
    simp only [Session.begin, beginGoAway] at h
    cases hrefusal : (s.announceEnd enc version .ok).2 with
    | none => simp [hrefusal] at h
    | some cause => simp [hrefusal] at h
  | reset | receive | complete | fail => cases h

/-- A call that fails leaves nothing but its error and, if it was to open a stream, an id that is used up. -/
theorem begin_of_fails (h : Fails enc s alive op err) (unused : ∀ r ∈ s.table, s.idOf r ≠ s.nextStreamId) :
    s.begin enc alive op = { session := s.advance err.idStep, outcome := .failed err } := by
  cases h with
  | unidirectional unidirectional =>
    simp only [Session.begin, beginSyn, unidirectional, if_true, Error.idStep, advance_zero]
  | ended bidirectional sent =>
    simp only [Session.begin, beginSyn, bidirectional, sent, Bool.false_eq_true, if_false, if_true, Error.idStep, advance_zero]
  | unopened bidirectional unsent refused =>
    have htable : s.table.filter (s.idOf · != s.nextStreamId) = s.table :=
      List.filter_eq_self.2 fun r hr => bne_iff_ne.2 (unused r hr)
    have hforget : (s.advance 2).forget s.nextStreamId = s.advance 2 :=
      congrArg (fun table => ({ s.advance 2 with table } : Session)) htable
    rw [Session.begin, beginSyn, if_neg (Bool.not_eq_true _ ▸ bidirectional), if_neg (Bool.not_eq_true _ ▸ unsent)]
    dsimp only
    rw [refused]
    exact congrArg (fun t => ({ session := t, outcome := .failed (.streamCreation s.nextStreamId _) } : Begun)) hforget
  | @closed op r stream closed =>
    cases op <;> cases stream <;>
      simp only [Session.begin, beginOnStream, beginData, closed, if_true, Error.idStep, advance_zero] <;> rfl
  | @gone op r stream unclosed ofStream gone =>
    subst gone
    cases op <;> cases stream <;> cases ofStream <;>
      simp only [Session.begin, beginOnStream, beginData, unclosed, Bool.not_false, Bool.false_eq_true, if_true, if_false,
        Error.idStep, advance_zero]
  | @refused op r body cause stream sends unclosed there refused =>
    subst there
    cases op <;> cases stream <;> cases sends <;>
      simp only [Session.begin, beginOnStream, unclosed, Bool.not_true, Bool.false_eq_true, if_false, refused,
        Error.idStep, advance_zero]

end Session

/-! ## The next id -/

section Next

variable {ok : Encoder → Prop} {config : Config} {past : List Moment} {m : Machine}

/-- As long as not all ids of this side are used up, no stream has the next one. -/
theorem Tally.idOf_ne_next (h : Tally ok config past m) (few : (usedIds past).length < 2 ^ 31) {r : StreamRef}
    (hr : r.serial < m.session.streams.size) : m.session.idOf r ≠ m.session.nextStreamId := by
  intro hid
  have hnext := h.next
  have hlocal : config.isLocal (m.session.idOf r) := by
    rw [Config.isLocal_iff, hid, hnext]
    omega
  obtain ⟨k, hk⟩ := List.mem_iff_getElem?.1 (h.own r hr hlocal)
  have hlt := (List.getElem?_eq_some_iff.1 hk).1
  have hused := h.used k _ hk
  rw [hid, hnext] at hused
  omega

end Next

/-! ## Calls that fail in a run -/

/-- A call that returns an error is one of those that fail, and has done nothing: streams, table, outbox, flags,
counters and listeners are as they were, but for the next id if a stream could not be opened. It calls nobody, and all
that can happen next is that it returns. This holds as long as fewer than 2 ^ 31 ids were used up, whatever the encoders
refuse. -/
theorem failed_call_changes_nothing {ok : Encoder → Prop} {enc : Encoder} {config : Config} {primary : Option Listener}
    {s : Session} {past : List Moment} {m m' : Machine} {op : Operation} {err : Error}
    (hnew : Session.new config primary = .ok s) (course : Course ok { session := s } past m)
    (few : (usedIds past).length < 2 ^ 31) (next : m.next? enc (.invoke op) = some m')
    (failed : Moment.outcome? ⟨m, .invoke op, m'⟩ = some (.failed err)) :
    Fails enc m.session m.isAlive op err ∧
      m'.session = m.session.advance err.idStep ∧
      Moment.called? ⟨m, .invoke op, m'⟩ = none ∧ m'.finished? = some (.failed err) ∧
      ∀ enc' e n, m'.next? enc' e = some n → e = .leave ∧ n = ⟨m'.session, m.stack⟩ := by
  obtain ⟨tally, tidy⟩ := tally_of_course hnew course
  cases Machine.happens_of_next? next with
  | invoke op yields possible =>
    have hfails : Fails enc m.session m.isAlive op err := Session.fails_of_begin (Option.some.inj failed)
    have hbegin := Session.begin_of_fails hfails fun r hr => tally.idOf_ne_next few (tidy.known r hr)
    rw [hbegin]
    refine ⟨hfails, rfl, rfl, rfl, fun enc' e n hnext => ?_⟩
    cases Machine.happens_of_next? hnext with
    | leave stack =>
      cases stack
      exact ⟨rfl, rfl⟩
    | invoke op yields => cases yields
    | edit e yields => cases yields
    | drop seq yields => cases yields
    | tick stack => cases stack
    | answer reply stack => cases stack
    | caught p stack => cases stack
    | broken p stack => cases stack

/-- An encoder that has no frame any more refuses a stream of this side, while one of each side is open, and then the
last headers of a stream, which stays open. -/
theorem failed_call_changes_nothing_when_refused : ∃ s past m n k, Session.new .client none = .ok s ∧
    Course (fun _ => True) { session := s } past m ∧ (usedIds past).length < 2 ^ 31 ∧
      m.next? (.mute 16384 (.declined "no frame")) (.invoke (.syn .v3 (.plain default false) none)) = some n ∧
      Moment.outcome? ⟨m, .invoke (.syn .v3 (.plain default false) none), n⟩ =
        some (.failed (.streamCreation 3 (.declined "no frame"))) ∧
      n.session = m.session.advance 2 ∧ n.session.table.map n.session.idOf = [1, 2] ∧
      n.finished? = some (.failed (.streamCreation 3 (.declined "no frame"))) ∧
      m.next? (.mute 16384 (.declined "no frame")) (.invoke (.headers ⟨0⟩ ⟨default, true⟩)) = some k ∧
      Moment.outcome? ⟨m, .invoke (.headers ⟨0⟩ ⟨default, true⟩), k⟩ =
        some (.failed (.generation (.declined "no frame"))) ∧
      k.session = m.session ∧ (k.session.stream ⟨0⟩).localClosed = false := by
  have hnew : Session.new .client none = .ok (.fresh .client none) := rfl
  have hrun := Machine.run_of_replay? (.standard 16384) { session := .fresh .client none }
    [.invoke (.syn .v3 (.plain default false) none), .tick, .tick, .answer none, .tick, .leave,
      .invoke (.receive (.control ⟨.v3, .synStream 0 2 0 0 default⟩)), .tick, .tick, .tick, .tick, .leave] rfl
  have hcourse : Course (fun _ => True) _ _ _ := hrun.course trivial
  have hsyn := failed_call_changes_nothing hnew hcourse (by decide)
    (show Machine.next? (.mute 16384 (.declined "no frame")) _ (.invoke (.syn .v3 (.plain default false) none)) = some _
      from rfl) rfl
  have hheaders := failed_call_changes_nothing hnew hcourse (by decide)
    (show Machine.next? (.mute 16384 (.declined "no frame")) _ (.invoke (.headers ⟨0⟩ ⟨default, true⟩)) = some _
      from rfl) rfl
  exact ⟨_, _, _, _, _, hnew, hcourse, by decide, rfl, rfl, hsyn.2.1, rfl, hsyn.2.2.2.1, rfl, rfl,
    hheaders.2.1.trans (Session.advance_zero _), rfl⟩

end Spdy
