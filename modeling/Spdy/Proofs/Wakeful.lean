import Spdy.Proofs.Known
import Spdy.Proofs.SingleWrite

/-!
# No parcel is forgotten

A parcel that could be sent is never left to wait for nothing: a write is in progress, or a flush is still
to be done, or a write was reported early and the call that makes it is going to flush.

* `Session.canSend` : control frames, and data of a stream that is there and has window left;
* `Machine.Heeds` : someone is going to flush as long as a parcel of some kind waits (`heeds_of_turn`);
* `Machine.Wakeful` : someone is going to flush as long as something can be sent (`wakeful_of_turn`, `wakeful_of_run`);
* `nothing_sendable_waits` : what remains in the outbox once everything is settled.
-/

namespace Spdy

/-- Whether a parcel can be sent: control frames always can, data needs a stream that was not given up
and window. -/
def Session.canSend (s : Session) : Parcel → Bool
  | .control .. => true
  | .data r _ _ => !(s.stream r).reset && decide (0 < (s.stream r).window)

/-- Someone is going to flush as long as a parcel of some kind waits, and an early report of a write is
seen when the call that makes it returns. -/
structure Machine.Heeds (m : Machine) (kind : Parcel → Prop) : Prop where
  returns : ∀ seq, m.session.outbox.inWrite = some seq → .endWrite seq ∈ m.tasks
  noticed : (∃ q ∈ m.session.outbox.parcels, kind q) →
    m.session.outbox.busy ∨ .flush ∈ m.tasks ∨
      m.session.outbox.inWrite.isSome ∧ m.session.outbox.reported

/-- Someone is going to flush as long as something can be sent, and an early report of a write is
seen when the call that makes it returns. -/
structure Machine.Wakeful (m : Machine) : Prop where
  returns : ∀ seq, m.session.outbox.inWrite = some seq → .endWrite seq ∈ m.tasks
  noticed : (∃ q ∈ m.session.outbox.parcels, m.session.canSend q) →
    m.session.outbox.busy ∨ .flush ∈ m.tasks ∨
      m.session.outbox.inWrite.isSome ∧ m.session.outbox.reported

namespace Session

theorem isReady_of_canSend {s : Session} {q : Parcel} (h : s.canSend q) : s.isReady q := by
  cases q with
  | control => rfl
  | data r payload written =>
    have hpos : 0 < (s.stream r).window := by
      have := (Bool.and_eq_true_iff.1 h).2
      simpa using this
    simp [isReady, Parcel.isReady, Stream.isReady, hpos]

theorem canSend_of_calm {s t : Session} (h : Calm s t) {q : Parcel}
    (hq : ∀ r, q.stream? = some r → r.serial < s.streams.size) (ht : t.canSend q) : s.canSend q := by
  cases q with
  | control => rfl
  | data r payload written =>
    have hr : r.serial < s.streams.size := hq r rfl
    simp only [canSend, Bool.and_eq_true, Bool.not_eq_true', decide_eq_true_eq] at ht ⊢
    obtain ⟨hreset, hwindow⟩ := ht
    refine ⟨?_, by rw [← h.window r hr]; exact hwindow⟩
    cases hb : (s.stream r).reset with
    | false => rfl
    | true => rw [(h.later r hr).reset hb] at hreset; cases hreset

end Session

section Moment

variable {cap : Nat} {mo : Moment}

theorem not_mem_of_settles {x : Task} {gone : List Task} (hgone : ∀ y ∈ gone, y.settles = false)
    (hx : x.settles) : x ∉ gone := by
  intro h
  rw [hgone x h] at hx
  cases hx

theorem mem_of_not_gone {x : Task} (gone : List Task) {common come : List Task} (hx : x ∉ gone)
    (h : x ∈ gone ++ common) : x ∈ come ++ common := by
  rcases List.mem_append.1 h with h | h
  · exact absurd h hx
  · exact List.mem_append_right _ h

section Heeds

variable {kind kind' : Parcel → Prop} {m m' : Machine}

/-- Work that leaves the writes in progress alone, and the tasks that settle who starts the next one. -/
theorem Machine.Heeds.returns_of_plain {p : Progress} {gone common : List Task} (hm : m.Heeds kind)
    (inWrite : m'.session.outbox.inWrite = m.session.outbox.inWrite) (before : m.tasks = gone ++ common)
    (after : m'.tasks = p.todo ++ common) (hgone : ∀ x ∈ gone, x.settles = false) :
    ∀ seq, m'.session.outbox.inWrite = some seq → .endWrite seq ∈ m'.tasks := by
  intro seq hseq
  rw [inWrite] at hseq
  rw [after]
  exact mem_of_not_gone _ (not_mem_of_settles hgone rfl) (before ▸ hm.returns seq hseq)

theorem heeds_of_posts {p : Progress} {new : List Parcel} {gone common : List Task}
    (hm : m.Heeds kind) (work : Posts m.session p new)
    (calm : ∀ q ∈ m.session.outbox.parcels, Calm m.session m'.session → kind' q → kind q)
    (session : m'.session = p.session) (before : m.tasks = gone ++ common)
    (after : m'.tasks = p.todo ++ common) (hgone : ∀ x ∈ gone, x.settles = false) : m'.Heeds kind' := by
  have houtbox := work.adds.outbox
  rw [← session] at houtbox
  refine ⟨hm.returns_of_plain (by rw [houtbox]) before after hgone, ?_⟩
  rintro ⟨q, hq, hkind⟩
  rw [after]
  by_cases hnew : new = []
  · subst hnew
    obtain ⟨t, ht, heq⟩ := work.session
    rw [Session.post_nil, ← session] at heq
    rw [houtbox, List.append_nil] at hq
    have hbefore := hm.noticed ⟨q, hq, calm q hq (heq ▸ ht) hkind⟩
    rw [houtbox]
    rcases hbefore with h | h | h
    · exact .inl h
    · exact .inr (.inl (mem_of_not_gone _ (not_mem_of_settles hgone rfl) (before ▸ h)))
    · exact .inr (.inr h)
  · exact .inr (.inl (List.mem_append_left _ (work.flush hnew)))

theorem heeds_of_moves {p : Progress} {gone common : List Task}
    (hm : m.Heeds kind) (work : Moves m.session p) (session : m'.session = p.session)
    (before : m.tasks = gone ++ common) (after : m'.tasks = p.todo ++ common)
    (hgone : ∀ x ∈ gone, x.settles = false) : m'.Heeds kind' := by
  refine ⟨hm.returns_of_plain (by rw [session, work.session.outbox]) before after hgone, fun _ => ?_⟩
  rw [after]
  exact .inr (.inl (List.mem_append_left _ work.flush))

/-- After a flush someone else is going to flush, or nothing of the kind waits. -/
theorem heeds_of_flush {p : Progress} {common : List Task}
    (returns : ∀ seq, m.session.outbox.inWrite = some seq → .endWrite seq ∈ m.tasks)
    (ready : ∀ q ∈ m.session.outbox.parcels, kind q → m.session.isReady q)
    (work : Flushed cap m.session p) (session : m'.session = p.session)
    (before : m.tasks = .flush :: common) (after : m'.tasks = p.todo ++ common) : m'.Heeds kind := by
  have hreturns : ∀ seq, m.session.outbox.inWrite = some seq → .endWrite seq ∈ p.todo ++ common := by
    intro seq hseq
    have h := returns seq hseq
    rw [before] at h
    exact mem_of_not_gone [.flush] (by simp) h
  cases work with
  | idle h =>
    constructor
    · rw [session, after]
      exact hreturns
    · rintro ⟨q, hq, hkind⟩
      rw [session] at hq ⊢
      rcases h with h | h
      · exact .inl h
      · have := ready q hq hkind
        rw [h q hq] at this
        cases this
  | drop =>
    constructor
    · rw [session, after]
      exact hreturns
    · intro _
      rw [after]
      exact .inr (.inl List.mem_cons_self)
  | hand =>
    constructor
    · intro seq hseq
      rw [session] at hseq
      cases hseq
      rw [after]
      exact List.mem_append_left _ (by simp)
    · intro _
      rw [session]
      exact .inl rfl

theorem heeds_of_endWrite {seq : Nat} {common : List Task} (hm : m.Heeds kind)
    (session : m'.session = { m.session with outbox := (m.session.outbox.endWrite seq).2 })
    (before : m.tasks = .endWrite seq :: common)
    (after : m'.tasks = (if (m.session.outbox.endWrite seq).1 then [.flush] else []) ++ common) :
    m'.Heeds kind := by
  by_cases hin : m.session.outbox.inWrite = some seq
  · have hend : m.session.outbox.endWrite seq =
        (m.session.outbox.reported,
          { m.session.outbox with inWrite := none, reported := false }) := by
      rw [Outbox.endWrite, if_pos hin]
    rw [hend] at session after
    constructor
    · intro w hw
      rw [session] at hw
      cases hw
    · rintro ⟨q, hq, hkind⟩
      rw [session] at hq
      rw [session, after]
      rcases hm.noticed ⟨q, hq, hkind⟩ with h | h | ⟨-, h⟩
      · exact .inl h
      · rw [before] at h
        exact .inr (.inl (mem_of_not_gone [.endWrite seq] (by simp) h))
      · refine .inr (.inl (List.mem_append_left _ ?_))
        rw [if_pos h]
        exact List.mem_cons_self
  · have hend : m.session.outbox.endWrite seq = (false, m.session.outbox) := by
      rw [Outbox.endWrite, if_neg hin]
    rw [hend] at session after
    constructor
    · intro w hw
      rw [session] at hw
      have h := hm.returns w hw
      rw [before] at h
      rw [after]
      refine mem_of_not_gone [.endWrite seq] (fun hmem => hin ?_) h
      cases List.mem_singleton.1 hmem
      exact hw
    · rintro ⟨q, hq, hkind⟩
      rw [session] at hq
      rw [session, after]
      rcases hm.noticed ⟨q, hq, hkind⟩ with h | h | h
      · exact .inl h
      · rw [before] at h
        exact .inr (.inl (mem_of_not_gone [.endWrite seq] (by simp) h))
      · exact .inr (.inr h)

/-- Who frees the outbox flushes, or reports to the call that made the write. -/
theorem heeds_of_release {common : List Task} (hm : m.Heeds kind)
    (session : m'.session = { m.session with outbox := m.session.outbox.complete.2 })
    (before : m.tasks = .release :: common)
    (after : m'.tasks = (if m.session.outbox.complete.1 then [.flush] else []) ++ common) :
    m'.Heeds kind' := by
  have hreturns : ∀ seq, m.session.outbox.inWrite = some seq → .endWrite seq ∈ m'.tasks := by
    intro seq hseq
    have h := hm.returns seq hseq
    rw [before] at h
    rw [after]
    exact mem_of_not_gone [.release] (by simp) h
  by_cases hin : m.session.outbox.inWrite.isSome
  · have hcomplete : m.session.outbox.complete =
        (false, { m.session.outbox with busy := false, reported := true }) := by
      rw [Outbox.complete, if_pos hin]
    rw [hcomplete] at session
    constructor
    · rw [session]
      exact hreturns
    · intro _
      rw [session]
      exact .inr (.inr ⟨hin, rfl⟩)
  · have hcomplete : m.session.outbox.complete =
        (true, { m.session.outbox with busy := false }) := by
      rw [Outbox.complete, if_neg hin]
    rw [hcomplete] at session after
    constructor
    · rw [session]
      exact hreturns
    · intro _
      rw [after]
      exact .inr (.inl List.mem_cons_self)

end Heeds

theorem Wrote.inWrite {s : Session} {p : Parcel} {q : Progress} (h : Wrote s p q) :
    q.session.outbox.inWrite = s.outbox.inWrite := by
  cases h with
  | control => rfl
  | stuck => rfl
  | @done r payload written x => cases payload.close <;> rfl
  | more => rfl

/-- Someone goes on going to flush. What counts as of the kind depends on the streams, calm work makes nothing one that
was not, and all of the kind is ready to be sent or dropped. -/
theorem heeds_of_turn (kind : Session → Parcel → Prop) (turn : Turn cap mo) (unbroken : mo.isBreak = false)
    (howed : mo.before.owed ≤ mo.before.session.outbox.busy.toNat)
    (streams : ∀ (t : Session) q, t.streams = mo.before.session.streams → kind t q → kind mo.before.session q)
    (calm : ∀ (t : Session), ∀ q ∈ mo.before.session.outbox.parcels, Calm mo.before.session t → kind t q →
      kind mo.before.session q)
    (ready : ∀ q ∈ mo.before.session.outbox.parcels, kind mo.before.session q → mo.before.session.isReady q)
    (hm : mo.before.Heeds (kind mo.before.session)) : mo.after.Heeds (kind mo.after.session) := by
  have hstreams : ∀ {m : Machine} {t : Session}, t.streams = mo.before.session.streams →
      m.Heeds (kind mo.before.session) → m.Heeds (kind t) := fun ht h =>
    ⟨h.returns, fun ⟨q, hq, hkind⟩ => h.noticed ⟨q, hq, streams _ q ht hkind⟩⟩
  cases turn with
  | plain work session before after hgone said handed =>
    rcases work.posts_or_moves with work | ⟨-, work⟩
    · exact heeds_of_posts hm work (fun q hq ht => calm _ q hq ht) session before after hgone
    · exact heeds_of_moves hm work session before after hgone
  | flush work session before after said handed =>
    have hkept : mo.after.session.streams = mo.before.session.streams := by
      rw [session]
      cases work <;> rfl
    exact hstreams hkept (heeds_of_flush hm.returns ready work session before after)
  | endWrite session before after silent =>
    exact hstreams (by rw [session]) (heeds_of_endWrite hm session before after)
  | release session before after silent => exact heeds_of_release hm session before after
  | @wrote h p mem work session after silent =>
    -- a report does not free the outbox, its `release` does
    constructor
    · intro seq hseq
      rw [session, work.inWrite] at hseq
      rw [after]
      exact List.mem_append_right _ (hm.returns seq hseq)
    · intro _
      rw [session, work.busy]
      exact .inl (one_owed howed mem).1
  | @failed h fails mem session after silent =>
    constructor
    · intro seq hseq
      rw [session] at hseq
      rw [after]
      exact List.mem_cons_of_mem _ (hm.returns seq hseq)
    · rintro ⟨q, hq, -⟩
      rw [session] at hq
      cases hq
  | @broken gone common breaks session before after silent => cases unbroken.symm.trans breaks
  | @dropped seq drops session after silent =>
    refine hstreams (by rw [session]; rfl) ⟨fun seq hseq => ?_, ?_⟩
    · rw [session] at hseq
      rw [after]
      exact hm.returns seq hseq
    · rw [session, after]
      exact hm.noticed

theorem wakeful_of_turn (turn : Turn cap mo) (unbroken : mo.isBreak = false)
    (hknown : mo.before.session.Known)
    (howed : mo.before.owed ≤ mo.before.session.outbox.busy.toNat) (hm : mo.before.Wakeful) :
    mo.after.Wakeful := by
  have h : mo.after.Heeds fun q => mo.after.session.canSend q :=
    heeds_of_turn (fun s q => s.canSend q) turn unbroken howed
      (fun t q ht hsend => by
        have hstream : ∀ r, t.stream r = mo.before.session.stream r := fun r => by rw [Session.stream, ht]; rfl
        cases q with
        | control => rfl
        | data r payload written => simpa [Session.canSend, hstream] using hsend)
      (fun t q hq ht hsend => Session.canSend_of_calm ht (hknown.waiting q hq) hsend)
      (fun q _ hsend => Session.isReady_of_canSend hsend) ⟨hm.returns, hm.noticed⟩
  exact ⟨h.returns, h.noticed⟩

end Moment

/-- As long as the controller never broke off, someone is going to flush as long as something can be sent, even if
handlers were given up. -/
theorem wakeful_of_run {cap : Nat} {config : Config} {primary : Option Listener} {s : Session}
    {past : List Moment} {m : Machine} (hnew : Session.new config primary = .ok s)
    (run : Run (.standard cap) { session := s } past m) (unbroken : ∀ mo ∈ past, mo.isBreak = false) :
    m.Wakeful := by
  induction run with
  | start =>
    obtain ⟨-, rfl⟩ := Session.new_eq_ok hnew
    refine ⟨fun seq hseq => (nomatch hseq), fun ⟨q, hq, _⟩ => (nomatch hq)⟩
  | next run h ih =>
    have hout : s.outstanding = [] := by
      obtain ⟨-, rfl⟩ := Session.new_eq_ok hnew
      rfl
    exact wakeful_of_turn (turn_of_next? h (placed_of_run run)) (unbroken _ (by simp))
      (known_of_run hnew run) (owed_le_of_run hout run) (ih fun mo hmo => unbroken mo (by simp [hmo]))

/-- While nobody settles who starts the next write and nothing is outstanding, nothing of the kind waits. -/
theorem Machine.Heeds.unsettling {m : Machine} {kind : Parcel → Prop} (hm : m.Heeds kind)
    (howed : m.owed = m.session.outbox.busy.toNat) (htasks : ∀ x ∈ m.tasks, x.settles = false)
    (hout : m.session.outstanding = []) : ∀ q ∈ m.session.outbox.parcels, ¬kind q := by
  intro q hq hkind
  -- someone would have to flush
  rcases hm.noticed ⟨q, hq, hkind⟩ with hbusy | hflush | ⟨hin, -⟩
  · rw [Machine.owed, count_release_of_not_settles htasks, hout, hbusy] at howed
    cases howed
  · cases htasks _ hflush
  · obtain ⟨seq, hseq⟩ := Option.isSome_iff_exists.1 hin
    cases htasks _ (hm.returns seq hseq)

/-- While nothing is in progress and nothing is outstanding, nothing of the kind waits. -/
theorem Machine.Heeds.settled {m : Machine} {kind : Parcel → Prop} (hm : m.Heeds kind)
    (howed : m.owed = m.session.outbox.busy.toNat) (hstack : m.stack = []) (hout : m.session.outstanding = []) :
    ∀ q ∈ m.session.outbox.parcels, ¬kind q := by
  have htasks : m.tasks = [] := by rw [Machine.tasks, hstack]; rfl
  exact hm.unsettling howed (by simp [htasks]) hout

/-- While nothing is in progress and nothing is outstanding, nothing waits that could be sent. -/
theorem Machine.Wakeful.settled {m : Machine} (hwake : m.Wakeful) (howed : m.owed = m.session.outbox.busy.toNat)
    (hstack : m.stack = []) (hout : m.session.outstanding = []) :
    ∀ q ∈ m.session.outbox.parcels, m.session.canSend q = false := by
  have hheeds : m.Heeds fun q => m.session.canSend q := ⟨hwake.returns, hwake.noticed⟩
  exact fun q hq => Bool.eq_false_iff.2 (hheeds.settled howed hstack hout q hq)

/-- Between operations a write is in progress, or nothing can leave. -/
theorem Machine.Wakeful.idle {m : Machine} (hwake : m.Wakeful) (howed : m.owed ≤ m.session.outbox.busy.toNat)
    (hstack : m.stack = []) : m.session.outbox.busy = true ∨
      m.session.outstanding = [] ∧ ∀ q ∈ m.session.outbox.parcels, m.session.canSend q = false := by
  cases hbusy : m.session.outbox.busy with
  | true => exact .inl rfl
  | false =>
    have hout := (nothing_owed howed hbusy).1
    rw [hbusy] at howed
    have hnothing : m.owed = m.session.outbox.busy.toNat := by rw [hbusy]; exact Nat.le_zero.1 howed
    exact .inr ⟨hout, hwake.settled hnothing hstack hout⟩

/-- What cannot be sent is data of a stream that was given up or has no window left. -/
theorem Session.data_of_canSend {s : Session} {q : Parcel} (h : s.canSend q = false) :
    ∃ r payload written, q = .data r payload written ∧ ((s.stream r).reset ∨ (s.stream r).window ≤ 0) := by
  cases q with
  | control => cases h
  | data r payload written =>
    refine ⟨r, payload, written, rfl, ?_⟩
    rw [canSend, Bool.and_eq_false_iff, Bool.not_eq_false', decide_eq_false_iff_not, Int.not_lt] at h
    exact h

/-- Once no operation is in progress and no write is outstanding, nothing waits that could be sent:
there is no control frame, and all data is of streams that were given up or have no window left. -/
theorem nothing_sendable_waits {cap : Nat} {config : Config} {primary : Option Listener} {s : Session}
    {past : List Moment} {m : Machine} (hnew : Session.new config primary = .ok s)
    (run : Run (.standard cap) { session := s } past m) (horderly : ∀ mo ∈ past, mo.isOrderly)
    (hstack : m.stack = []) (hout : m.session.outstanding = []) :
    ∀ q ∈ m.session.outbox.parcels, ∃ r payload written, q = .data r payload written ∧
      ((m.session.stream r).reset ∨ (m.session.stream r).window ≤ 0) := by
  have hwake := wakeful_of_run hnew run fun mo hmo => Moment.isBreak_of_isOrderly (horderly mo hmo)
  obtain ⟨-, rfl⟩ := Session.new_eq_ok hnew
  have howed := owed_eq_of_run rfl rfl run horderly
  exact fun q hq => Session.data_of_canSend (hwake.settled howed hstack hout q hq)

/-- Two of three bytes fit in the window; the write of these is reported while it is made. -/
theorem nothing_sendable_waits_blocked : ∃ s past m,
    Session.new { Config.client with initialWindow := 2 } none = .ok s ∧
      Run (.standard 16384) { session := s } past m ∧ (∀ mo ∈ past, mo.isOrderly) ∧
      m.stack = [] ∧ m.session.outstanding = [] ∧
      m.session.outbox.parcels = [.data ⟨0⟩ ⟨[3], true⟩ 2] ∧
      (∀ q ∈ m.session.outbox.parcels, ∃ r payload written, q = .data r payload written ∧
        ((m.session.stream r).reset ∨ (m.session.stream r).window ≤ 0)) := by
  have hnew : Session.new { Config.client with initialWindow := 2 } none =
      .ok (.fresh { Config.client with initialWindow := 2 } none) := rfl
  have hrun := Machine.run_of_replay? (.standard 16384)
    { session := .fresh { Config.client with initialWindow := 2 } none }
    [.invoke (.syn .v3 (.plain default false) none), .tick, .tick, .answer none, .tick, .leave,
      .invoke (.complete 1), .tick, .tick, .tick, .leave,
      .invoke (.data ⟨0⟩ ⟨[1, 2, 3], true⟩), .tick, .invoke (.complete 2), .tick, .leave, .answer none,
      .tick, .tick, .leave] rfl
  exact ⟨_, _, _, hnew, hrun, by decide, rfl, rfl, rfl,
    nothing_sendable_waits hnew hrun (by decide) rfl rfl⟩

end Spdy
