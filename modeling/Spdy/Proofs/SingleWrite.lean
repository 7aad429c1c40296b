import Spdy.Proofs.Turn

/-!
# At most one write at a time

A write is owed a release from the moment it is handed to the controller until the task that lets the
next one start: by its handler first, then by the `release` that the report leaves.

* `Machine.owed` : how many releases are owed;
* `owed_le_of_turn` : no more than one, and one only while the outbox is busy;
* `owed_eq_of_turn` : exactly one then, as long as the controller behaves;
* `Machine.IsStalled` : none although the outbox is busy; it stays so (`stalled_of_turn`);
* `write_alone` : what that means for the controller.
-/

namespace Spdy

/-- The releases that are owed: to writes that are not reported, and by reports. -/
def Machine.owed (m : Machine) : Nat := m.session.outstanding.length + m.tasks.count .release

/-! ## Counting releases -/

theorem count_release_of_plain {l : List Task} (h : ∀ x ∈ l, x.isPlain) : l.count .release = 0 := by
  refine List.count_eq_zero.2 fun hmem => ?_
  have := h _ hmem
  cases this

theorem count_release_of_not_settles {l : List Task} (h : ∀ x ∈ l, x.settles = false) :
    l.count .release = 0 := by
  refine List.count_eq_zero.2 fun hmem => ?_
  have := h _ hmem
  cases this

theorem count_release_flush (go : Bool) : (if go then [Task.flush] else []).count .release = 0 := by
  cases go <;> decide

namespace Wrote

variable {s : Session} {p : Parcel} {q : Progress}

theorem count_release (h : Wrote s p q) : q.todo.count .release = 1 := by
  cases h with
  | control plain =>
    rw [List.count_append, count_release_of_plain plain]
    decide
  | stuck => rw [List.count_cons_of_ne (by simp)]; decide
  | done => rw [List.count_cons_of_ne (by simp)]; decide
  | more => rfl

theorem outstanding (h : Wrote s p q) : q.session.outstanding = s.outstanding := by
  cases h with
  | control => rfl
  | stuck => rfl
  | @done r payload written x => cases payload.close <;> rfl
  | more => rfl

theorem busy (h : Wrote s p q) : q.session.outbox.busy = s.outbox.busy := by
  cases h with
  | control => rfl
  | stuck => rfl
  | @done r payload written x => cases payload.close <;> rfl
  | more => rfl

end Wrote

theorem Outbox.busy_endWrite (o : Outbox) (seq : Nat) : (o.endWrite seq).2.busy = o.busy := by
  unfold endWrite
  split <;> rfl

theorem Outbox.busy_complete (o : Outbox) : o.complete.2.busy = false := by
  unfold complete
  split <;> rfl

/-! ## What a moment does to what is owed -/

section Moment

variable {cap : Nat} {mo : Moment}

/-- Nothing is owed while the outbox is free, and nothing is outstanding then. -/
theorem nothing_owed {m : Machine} (hm : m.owed ≤ m.session.outbox.busy.toNat)
    (hfree : m.session.outbox.busy = false) :
    m.session.outstanding = [] ∧ m.tasks.count .release = 0 := by
  rw [hfree, Machine.owed, Bool.toNat_false] at hm
  exact ⟨List.length_eq_zero_iff.1 (by omega), by omega⟩

theorem owed_pos {m : Machine} {h : Handler} (hmem : h ∈ m.session.outstanding) : 0 < m.owed :=
  Nat.lt_of_lt_of_le (List.length_pos_of_mem hmem) (Nat.le_add_right _ _)

theorem only_outstanding {m : Machine} {h : Handler} (hm : m.owed ≤ m.session.outbox.busy.toNat)
    (hmem : h ∈ m.session.outstanding) : m.session.outstanding = [h] := by
  have hle := m.session.outbox.busy.toNat_le
  rw [Machine.owed] at hm
  match hs : m.session.outstanding with
  | [] => rw [hs] at hmem; cases hmem
  | [x] => rw [hs, List.mem_singleton] at hmem; rw [hmem]
  | _ :: _ :: _ =>
    rw [hs, List.length_cons, List.length_cons] at hm
    omega

theorem one_owed {m : Machine} {h : Handler} (hm : m.owed ≤ m.session.outbox.busy.toNat)
    (hmem : h ∈ m.session.outstanding) :
    m.session.outbox.busy = true ∧ (m.session.dropHandler h.seq).outstanding = [] ∧
      m.tasks.count .release = 0 := by
  have hone := only_outstanding hm hmem
  have hle := m.session.outbox.busy.toNat_le
  rw [Machine.owed, hone, List.length_singleton] at hm
  refine ⟨?_, by simp [Session.dropHandler, hone], by omega⟩
  cases hb : m.session.outbox.busy with
  | true => rfl
  | false => rw [hb, Bool.toNat_false] at hm; omega

/-- What is owed changes with the outbox, where it is free or something is owed, or the controller misbehaves. -/
theorem owed_of_turn (turn : Turn cap mo)
    (hm : mo.before.owed ≤ mo.before.session.outbox.busy.toNat) :
    (mo.before.session.outbox.busy = false ∨ 0 < mo.before.owed) ∧
        mo.after.owed = mo.after.session.outbox.busy.toNat ∨
      mo.after.owed = mo.before.owed ∧
        mo.after.session.outbox.busy = mo.before.session.outbox.busy ∨
      mo.isOrderly = false ∧ mo.after.owed ≤ mo.before.owed ∧
        mo.after.session.outbox.busy = mo.before.session.outbox.busy := by
  cases turn with
  | @plain p new gone common work session before after hgone said handed =>
    have hadds := work.adds
    refine .inr (.inl ⟨?_, ?_⟩)
    · rw [Machine.owed, Machine.owed, after, before, session, hadds.outstanding, List.count_append,
        List.count_append, count_release_of_plain hadds.plain, count_release_of_not_settles hgone]
    · rw [session, hadds.outbox]
  | @flush p common work session before after said handed =>
    have hcount : mo.before.tasks.count .release = common.count .release := by
      rw [before, List.count_cons_of_ne (by simp)]
    cases work with
    | idle =>
      refine .inr (.inl ⟨?_, by rw [session]⟩)
      rw [Machine.owed, Machine.owed, hcount, after, session, List.nil_append]
    | drop free =>
      obtain ⟨hout, hzero⟩ := nothing_owed hm free
      have hfree : mo.after.session.outbox.busy = false := by rw [session]; exact free
      refine .inl ⟨.inl free, ?_⟩
      rw [Machine.owed, after, hfree, session, List.singleton_append,
        List.count_cons_of_ne (by simp), ← hcount, hzero]
      exact congrArg List.length hout
    | hand free =>
      obtain ⟨hout, hzero⟩ := nothing_owed hm free
      have hbusy : mo.after.session.outbox.busy = true := by rw [session]; rfl
      have hone : mo.after.session.outstanding.length = 1 := by
        rw [session]
        exact congrArg (fun l => (l ++ [_]).length) hout
      refine .inl ⟨.inl free, ?_⟩
      rw [Machine.owed, hone, hbusy, after, List.count_append, ← hcount, hzero,
        List.count_cons_of_ne (by simp), List.count_cons_of_ne (by simp)]
      rfl
  | @endWrite seq common session before after silent =>
    refine .inr (.inl ⟨?_, ?_⟩)
    · rw [Machine.owed, Machine.owed, after, before, session, List.count_append,
        count_release_flush, List.count_cons_of_ne (by simp), Nat.zero_add]
    · rw [session]
      exact Outbox.busy_endWrite _ seq
  | @release common session before after silent =>
    have hfree : mo.after.session.outbox.busy = false := by
      rw [session]
      exact Outbox.busy_complete _
    have hout : mo.after.session.outstanding = mo.before.session.outstanding := by rw [session]
    have hle := mo.before.session.outbox.busy.toNat_le
    rw [Machine.owed, before, List.count_cons_self] at hm
    refine .inl ⟨.inr ?_, ?_⟩
    · rw [Machine.owed, before, List.count_cons_self]
      omega
    · rw [Machine.owed, hfree, hout, after, List.count_append, count_release_flush, Bool.toNat_false]
      omega
  | @wrote h p mem work session after silent =>
    obtain ⟨hbusy, hout, hzero⟩ := one_owed hm mem
    refine .inl ⟨.inr (owed_pos mem), ?_⟩
    have hbusy' : mo.after.session.outbox.busy = true := by
      rw [session, work.busy]
      exact hbusy
    rw [Machine.owed, hbusy', after, session, work.outstanding, hout, List.count_append,
      work.count_release, hzero]
    rfl
  | @failed h fails mem session after silent =>
    obtain ⟨-, hout, hzero⟩ := one_owed hm mem
    refine .inl ⟨.inr (owed_pos mem), ?_⟩
    have hfree : mo.after.session.outbox.busy = false := by rw [session]; rfl
    have hout' : mo.after.session.outstanding = [] := by rw [session]; exact hout
    rw [Machine.owed, hfree, hout', after, List.count_cons_of_ne (by simp), hzero]
    rfl
  | @broken gone common breaks session before after silent =>
    refine .inr (.inr ⟨?_, ?_, by rw [session]⟩)
    · rw [Moment.isOrderly, breaks, Bool.not_true, Bool.and_false]
    · rw [Machine.owed, Machine.owed, after, before, session, List.count_append]
      omega
  | @dropped seq drops session after silent =>
    refine .inr (.inr ⟨?_, ?_, by rw [session]; rfl⟩)
    · rw [Moment.isOrderly, drops, Bool.not_true, Bool.false_and]
    · rw [Machine.owed, Machine.owed, after, session]
      exact Nat.add_le_add_right (List.length_filter_le _ _) _

theorem owed_le_of_turn (turn : Turn cap mo)
    (hm : mo.before.owed ≤ mo.before.session.outbox.busy.toNat) :
    mo.after.owed ≤ mo.after.session.outbox.busy.toNat := by
  rcases owed_of_turn turn hm with ⟨-, h⟩ | ⟨h, hb⟩ | ⟨-, h, hb⟩
  · exact Nat.le_of_eq h
  · rw [h, hb]
    exact hm
  · rw [hb]
    exact Nat.le_trans h hm

theorem owed_eq_of_turn (turn : Turn cap mo) (horderly : mo.isOrderly)
    (hm : mo.before.owed = mo.before.session.outbox.busy.toNat) :
    mo.after.owed = mo.after.session.outbox.busy.toNat := by
  rcases owed_of_turn turn (Nat.le_of_eq hm) with ⟨-, h⟩ | ⟨h, hb⟩ | ⟨h, -⟩
  · exact h
  · rw [h, hb, hm]
  · rw [h] at horderly
    cases horderly

/-- The outbox is busy with a write that nobody is going to report. -/
def Machine.IsStalled (m : Machine) : Prop := m.session.outbox.busy ∧ m.owed = 0

/-- Nothing happens to a session any more that would set its outbox free. -/
theorem stalled_of_turn (turn : Turn cap mo) (h : mo.before.IsStalled) : mo.after.IsStalled := by
  obtain ⟨hbusy, hzero⟩ := h
  have hm : mo.before.owed ≤ mo.before.session.outbox.busy.toNat := by
    rw [hzero]
    exact Nat.zero_le _
  rcases owed_of_turn turn hm with ⟨hfree | hpos, -⟩ | ⟨howed, hb⟩ | ⟨-, howed, hb⟩
  · exact absurd hbusy (Bool.eq_false_iff.1 hfree)
  · omega
  · exact ⟨hb.trans hbusy, howed.trans hzero⟩
  · exact ⟨hb.trans hbusy, by omega⟩

theorem stalled_of_dropHandler {m : Machine} {h : Handler} (hm : m.owed ≤ m.session.outbox.busy.toNat)
    (hmem : h ∈ m.session.outstanding) :
    Machine.IsStalled ⟨m.session.dropHandler h.seq, m.stack⟩ := by
  obtain ⟨hbusy, hout, hzero⟩ := one_owed hm hmem
  refine ⟨hbusy, ?_⟩
  rw [Machine.owed, hout]
  exact (Nat.zero_add _).trans hzero

/-- A frame is handed over only if no other write is outstanding. -/
theorem outstanding_of_handed (turn : Turn cap mo)
    (hm : mo.before.owed ≤ mo.before.session.outbox.busy.toNat) (hh : mo.handed?.isSome) :
    mo.before.session.outstanding = [] := by
  obtain ⟨⟨bytes, x⟩, hx⟩ := Option.isSome_iff_exists.1 hh
  exact (nothing_owed hm (handing_of_turn turn hx).free).1

end Moment

/-! ## Over a run -/

section Run

variable {cap : Nat} {s : Session} {past : List Moment} {m : Machine}

theorem owed_start (hout : s.outstanding = []) : ({ session := s } : Machine).owed = 0 := by
  rw [Machine.owed, hout]
  rfl

theorem owed_le_of_run (hout : s.outstanding = []) (run : Run (.standard cap) { session := s } past m) :
    m.owed ≤ m.session.outbox.busy.toNat := by
  induction run with
  | start =>
    rw [owed_start hout]
    exact Nat.zero_le _
  | next run h ih => exact owed_le_of_turn (turn_of_next? h (placed_of_run run)) ih

theorem owed_le_of_new {config : Config} {primary : Option Listener}
    (hnew : Session.new config primary = .ok s) (run : Run (.standard cap) { session := s } past m) :
    m.owed ≤ m.session.outbox.busy.toNat := by
  obtain ⟨-, rfl⟩ := Session.new_eq_ok hnew
  exact owed_le_of_run rfl run

theorem owed_eq_of_run (hout : s.outstanding = []) (hfree : s.outbox.busy = false)
    (run : Run (.standard cap) { session := s } past m) (horderly : ∀ mo ∈ past, mo.isOrderly) :
    m.owed = m.session.outbox.busy.toNat := by
  induction run with
  | start =>
    rw [owed_start hout, hfree]
    rfl
  | next run h ih =>
    refine owed_eq_of_turn (turn_of_next? h (placed_of_run run)) ?_ (ih fun mo hmo => ?_)
    · exact horderly _ (by simp)
    · exact horderly mo (by simp [hmo])

end Run

/-- The controller is asked to write only when every earlier write was reported, the outbox is busy
as long as a write is outstanding, and once no operation is in progress it is busy exactly if one is.
Writes may be reported at any time, by any callback. -/
theorem write_alone {cap : Nat} {config : Config} {primary : Option Listener} {s : Session}
    {past : List Moment} {m : Machine} (hnew : Session.new config primary = .ok s)
    (run : Run (.standard cap) { session := s } past m) (horderly : ∀ mo ∈ past, mo.isOrderly) :
    (∀ mo ∈ past, mo.handed?.isSome → mo.before.session.outstanding = []) ∧
      (m.session.outstanding ≠ [] → m.session.outbox.busy) ∧
      (m.stack = [] → (m.session.outbox.busy ↔ m.session.outstanding.length = 1)) := by
  obtain ⟨-, rfl⟩ := Session.new_eq_ok hnew
  refine ⟨?_, ?_, ?_⟩
  · intro mo hmo hh
    obtain ⟨pre, -, hrun, hnext⟩ := run.of_mem hmo
    have turn := turn_of_next? hnext (placed_of_run hrun)
    exact outstanding_of_handed turn (owed_le_of_run rfl hrun) hh
  · intro hne
    obtain ⟨h, hmem⟩ := List.exists_mem_of_ne_nil _ hne
    exact (one_owed (owed_le_of_run rfl run) hmem).1
  · intro hstack
    have howed := owed_eq_of_run rfl rfl run horderly
    have htasks : m.tasks = [] := by rw [Machine.tasks, hstack]; rfl
    rw [Machine.owed, htasks, List.count_nil, Nat.add_zero] at howed
    rw [howed]
    cases m.session.outbox.busy <;> simp

/-- The first ping is reported while the controller writes it, and the second is asked for there too. -/
theorem write_alone_nested : ∃ s past m, Session.new .client none = .ok s ∧
    Run (.standard 16384) { session := s } past m ∧ (∀ mo ∈ past, mo.isOrderly) ∧
      (past.filter fun mo => mo.handed?.isSome).length = 2 ∧ m.stack = [] ∧
      (m.session.outbox.busy ↔ m.session.outstanding.length = 1) := by
  have hnew : Session.new .client none = .ok (.fresh .client none) := rfl
  have hrun := Machine.run_of_replay? (.standard 16384) { session := .fresh .client none }
    [.invoke (.ping .v3), .tick, .invoke (.complete 1), .tick, .leave, .invoke (.ping .v3), .tick,
      .answer none, .tick, .leave, .answer none, .tick, .leave] rfl
  exact ⟨_, _, _, hnew, hrun, by decide, rfl, rfl, (write_alone hnew hrun (by decide)).2.2 rfl⟩

end Spdy
