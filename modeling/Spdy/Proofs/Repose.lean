import Spdy.Proofs.Reclaim
import Spdy.Proofs.Resize
import Spdy.Proofs.Wakeful

/-!
# Sessions at rest

What is known of a session when nothing is being done does not depend on the order of its table.

* `Session.Regular`, `Session.Regular.run` : ranges of windows, and whose data waits or is being written;
* `windows_start_at` : new streams start with the size of new windows;
* `Session.AtRest`, `atRest_of_run` : all that is known of a session at rest;
* `Session.AtRest.ordered`, `Session.AtRest.run` : in another order too, and what follows for all that happens next.
-/

namespace Spdy

section Regular

variable {cap : Nat} {config : Config} {primary : Option Listener} {s : Session} {past : List Moment} {m : Machine}

/-- Windows are in their range, and what waits or is being written is for streams of the session, in frames that are not
too long. -/
structure Session.Regular (cap : Nat) (s : Session) : Prop where
  range : s.InRange
  known : s.Known
  slim : s.Slim cap

theorem regular_of_new (hnew : Session.new config primary = .ok s) (hconfig : config.initialWindow ≤ Stream.maxWindow)
    (run : Run (.standard cap) { session := s } past m) : m.session.Regular cap :=
  ⟨inRange_of_run hnew hconfig run, known_of_run hnew run, slim_of_run hnew run⟩

theorem regular_of_turn {mo : Moment} (turn : Turn cap mo) (h : mo.before.session.Regular cap) :
    mo.after.session.Regular cap where
  range := inRange_of_turn turn h.range
  known := concerns_of_turn turn (h.known.mono fun _ hr => Nat.lt_of_lt_of_le hr (later_of_turn turn).size)
    fun _ _ hx => hx.known
  slim := slim_of_turn turn h.slim

theorem Session.Regular.run (h : s.Regular cap) (run : Run (.standard cap) { session := s } past m) :
    m.session.Regular cap := by
  induction run with
  | start => exact h
  | next run hnext ih => exact regular_of_turn (turn_of_next? hnext (placed_of_run run)) ih

/-! ## New streams -/

/-- A new stream starts with the size of new windows. -/
theorem window_of_bears {m' : Machine} {e : Event} {r : StreamRef} (h : m.next? (.standard cap) e = some m')
    (regular : m.session.Regular cap) (bears : Moment.bears r ⟨m, e, m'⟩) :
    (m'.session.stream r).window = m.session.initialWindow := by
  have hnew : m.session.streams.size ≤ r.serial := by
    rw [Moment.bears, Bool.and_eq_true, decide_eq_true_eq] at bears
    exact bears.1
  have hclosed : r ∉ m.session.table := fun hr => Nat.not_lt.2 hnew (regular.range.tidy.known r hr)
  have hunwritten := @Moment.written?_of_new ⟨m, e, m'⟩ regular.known r hnew
  cases booked_of_next? h regular.range regular.known regular.slim r with
  | moved window =>
    rw [Moment.opening, if_pos bears, Moment.lift_of_closed (.inr (.inl hclosed)),
      Moment.shift_of_closed (.inr (.inl hclosed)), Moment.paid_of_written? hunwritten,
      Session.stream_of_size_le hnew] at window
    rw [window]
    show (0 : Int) + m.session.initialWindow + 0 + 0 - 0 = m.session.initialWindow
    omega
  | stuck parcel => exact absurd parcel (hunwritten _ _)

/-- Until SETTINGS tell another size, it stays and all new streams start with it. -/
theorem windows_start_at (regular : s.Regular cap) (run : Run (.standard cap) { session := s } past m)
    (still : ∀ x ∈ past, x.size? = none) :
    m.session.initialWindow = s.initialWindow ∧
      ∀ x ∈ past, ∀ r, x.bears r → (x.after.session.stream r).window = s.initialWindow := by
  induction run with
  | start => exact ⟨rfl, fun x hx => absurd hx List.not_mem_nil⟩
  | @next past m m' e run h ih =>
    obtain ⟨hinit, hall⟩ := ih fun x hx => still x (List.mem_append_left _ hx)
    have hregular := regular.run run
    refine ⟨?_, fun x hx r bears => ?_⟩
    · rw [initialWindow_of_next? h (placed_of_run run) hregular.range.tidy,
        still _ (List.mem_append_right _ List.mem_cons_self)]
      exact hinit
    · rcases List.mem_append.1 hx with hx | hx
      · exact hall x hx r bears
      · obtain rfl := List.mem_singleton.1 hx
        rw [← hinit]
        exact window_of_bears h hregular bears

end Regular

/-! ## At rest -/

namespace Session

/-- What is known of a session when nothing is being done, as long as it did not announce its end. -/
structure AtRest (cap : Nat) (s : Session) : Prop where
  regular : s.Regular cap
  level : s.Level
  covered : Covered [] { session := s }
  owed : s.outstanding.length ≤ s.outbox.busy.toNat
  unreset : ∀ r ∈ s.table, (s.stream r).reset = false
  idle : s.outbox.busy ∨ s.outstanding = [] ∧ ∀ q ∈ s.outbox.parcels, s.canSend q = false

variable {cap : Nat} {s : Session} {table : List StreamRef}

theorem Regular.ordered (h : s.Regular cap) (perm : table.Perm s.table) : (s.ordered table).Regular cap where
  range := ⟨h.range.initial, h.range.window, h.range.tidy.ordered perm⟩
  known := ⟨h.known.waiting, h.known.leaving⟩
  slim := h.slim

theorem AtRest.ordered (h : s.AtRest cap) (perm : table.Perm s.table) : (s.ordered table).AtRest cap where
  regular := h.regular.ordered perm
  level := h.level.ordered perm
  covered :=
    { initial := h.covered.initial
      window := h.covered.window
      tidy := h.covered.tidy.ordered perm
      backed := fun x hx r payload written hparcel => by
        have hback := h.covered.backed x hx r payload written hparcel
        refine ⟨hback.small, hback.deep, fun hr => (hback.high (perm.mem_iff.1 hr)).imp_right (Or.imp_right ?_)⟩
        rintro ⟨a, op, hmem, -⟩
        cases hmem }
  owed := h.owed
  unreset := fun r hr => h.unreset r (perm.mem_iff.1 hr)
  idle := h.idle

/-- While SETTINGS come in turn, windows make up for all that is being written. -/
theorem AtRest.run {past : List Moment} {m : Machine} (h : s.AtRest cap)
    (run : Run (.standard cap) { session := s } past m) (turn : SettingsInTurn past) :
    Covered (inProgress past) m ∧ m.owed ≤ m.session.outbox.busy.toNat := by
  induction run with
  | start =>
    refine ⟨h.covered, ?_⟩
    show s.outstanding.length + 0 ≤ s.outbox.busy.toNat
    exact h.owed
  | next run hnext ih =>
    obtain ⟨hpast, hnow⟩ := settingsInTurn_append.1 turn
    obtain ⟨hcovered, howed⟩ := ih hpast
    rw [inProgress_append]
    have hknown := (h.regular.run run).known
    exact ⟨covered_of_next? hnext (placed_of_run run) (length_inProgress run) hknown howed hnow hcovered,
      owed_le_of_turn (turn_of_next? hnext (placed_of_run run)) howed⟩

end Session

section Run

variable {cap : Nat} {config : Config} {primary : Option Listener} {s : Session} {past : List Moment} {m : Machine}

/-- When nothing is being done, windows are where they may be. -/
theorem level_of_run (hnew : Session.new config primary = .ok s)
    (hconfig : config.initialWindow ≤ Stream.maxWindow) (run : Run (.standard cap) { session := s } past m)
    (houter : ∀ mo ∈ past, mo.reenters = false) (hkept : ∀ mo ∈ past, mo.forsakes = false) (hstack : m.stack = [])
    (sent : m.session.goAwaySent = false) : m.session.Level := by
  have hrange := inRange_of_run hnew hconfig run
  have hidle : m.tasks = [] := by rw [Machine.tasks, hstack]; rfl
  refine ⟨hrange.tidy, hrange.initial, fun r hr => ?_, fun r _ => hrange.window r⟩
  have hnot := not_overflown_of_run hnew hconfig run houter hkept hidle hr
  exact (((settled_of_run hnew hconfig run houter).steady r hnot).high hr).resolve_right (by simp [sent])

/-- A session to which callbacks do not come back, and whose controller does not break off, is at rest when nothing is
being done. -/
theorem atRest_of_run (hnew : Session.new config primary = .ok s) (hconfig : config.initialWindow ≤ Stream.maxWindow)
    (run : Run (.standard cap) { session := s } past m) (houter : ∀ mo ∈ past, mo.reenters = false)
    (hunbroken : ∀ mo ∈ past, mo.isBreak = false) (hstack : m.stack = []) (sent : m.session.goAwaySent = false) :
    m.session.AtRest cap := by
  have hkept : ∀ mo ∈ past, mo.forsakes = false := fun mo hmo => by
    rw [Moment.forsakes, hunbroken mo hmo, Bool.false_and]
  obtain ⟨t, work⟩ := m
  obtain rfl : work = [] := hstack
  have howed : t.outstanding.length ≤ t.outbox.busy.toNat := owed_le_of_new hnew run
  have hcovered := covered_of_run hnew hconfig run (settingsInTurn_of_outer run houter)
  rw [List.eq_nil_of_length_eq_zero (length_inProgress run)] at hcovered
  exact
    { regular := regular_of_new hnew hconfig run
      level := level_of_run hnew hconfig run houter hkept rfl sent
      covered := hcovered
      owed := howed
      unreset := unreset_of_run hnew run
      idle := (wakeful_of_run hnew run hunbroken).idle howed rfl }

end Run

end Spdy
