import Spdy.Proofs.Overflow

/-!
# Windows do not drift

When callbacks do not come back to the session, the windows of all open streams are what the size of new
windows, WINDOW_UPDATE and the data that was written make them, whenever the streams were opened.

* `InStep`, `InStep.next` : what windows come to;
* `Accounted`, `settled_of_run` : all that is known of windows, over a run;
* `givenUp_of_run` : a stream whose window left its range is given up, unless the controller breaks that off;
* `windows_never_drift` : all of this together.
-/

namespace Spdy

/-! ## What windows come to -/

/-- The window of an open stream is what the size of new windows, WINDOW_UPDATE and the data that was
written come to. -/
def InStep (past : List Moment) (m : Machine) (r : StreamRef) : Prop :=
  r ∈ m.session.table → (m.session.stream r).window =
    m.session.initialWindow + total (·.lift r) past - total (·.paid r) past

/-- The account of a stream that is not there yet has no entries. -/
def Blank (past : List Moment) (m : Machine) (r : StreamRef) : Prop :=
  m.session.streams.size ≤ r.serial → total (·.lift r) past = 0 ∧ total (·.paid r) past = 0

section Moment

variable {cap : Nat} {past : List Moment} {m m' : Machine} {e : Event} {ops : List Operation}
  {r : StreamRef}

theorem Blank.next (h : m.next? (.standard cap) e = some m') (placed : m.Placed)
    (tidy : m.session.Tidy) (known : m.session.Known) (hb : Blank past m r) :
    Blank (past ++ [⟨m, e, m'⟩]) m' r := by
  intro hsize
  have hold : m.session.streams.size ≤ r.serial :=
    Nat.le_trans (later_of_turn (turn_of_next? h placed)).size hsize
  obtain ⟨hlift, hpaid⟩ := hb hold
  have hclosed : r ∉ m.session.table := fun hr => by
    have := tidy.known r hr
    omega
  have hunpaid := Moment.paid_of_written? (@Moment.written?_of_new ⟨m, e, m'⟩ known r hold)
  simp only [total_append, total_singleton, hlift, hpaid, hunpaid]
  rw [Moment.lift_of_closed (.inr (.inl hclosed))]
  exact ⟨rfl, rfl⟩

theorem InStep.next (h : m.next? (.standard cap) e = some m') (placed : m.Placed)
    (hc : Covered ops m) (known : m.session.Known) (slim : m.session.Slim cap)
    (hafter : m'.session.Tidy) (hover : Moment.overflows ⟨m, e, m'⟩ r = false) (hhigh : High m r)
    (hb : Blank past m r) (hi : InStep past m r) : InStep (past ++ [⟨m, e, m'⟩]) m' r := by
  intro hin
  rw [initialWindow_of_next? h placed hc.tidy]
  simp only [total_append, total_singleton]
  cases hsize : Moment.size? ⟨m, e, m'⟩ with
  | some size =>
    have hold := mem_table_of_size? h placed hc.tidy hafter hsize hin
    obtain ⟨-, hsent, -⟩ := Moment.size?_eq_some hsize
    obtain ⟨hgrant, hwritten⟩ := Moment.written?_of_size? hsize
    have hlow := (hhigh hold).resolve_right (by simp [show m.session.goAwaySent = false from hsent])
    have hlift : Moment.lift r ⟨m, e, m'⟩ = 0 := by rw [Moment.lift, hgrant]
    have hpaid : Moment.paid r ⟨m, e, m'⟩ = 0 := by rw [Moment.paid, hwritten]
    rw [window_of_size? h hc known slim hsize hold hover hlow, hi hold, hlift, hpaid, Option.getD_some]
    omega
  | none =>
    have hwindow := window_of_next? h hc known slim r
    rw [Moment.shift_of_size? hsize] at hwindow
    rw [Option.getD_none]
    rcases mem_table_of_next? h placed hin with hold | hnew
    · rw [Moment.opening_of_known (hc.tidy.known r hold), hi hold] at hwindow
      omega
    · obtain ⟨hlift, hpaid⟩ := hb hnew
      have hzero : (m.session.stream r).window = 0 := by
        rw [Session.stream_of_size_le hnew]
        rfl
      have hopening : Moment.opening r ⟨m, e, m'⟩ = m.session.initialWindow := by
        rw [Moment.opening, Moment.bears, if_pos]
        simp [hnew, hafter.known r hin]
      omega

end Moment

/-! ## Over a run -/

section Run

variable {cap : Nat} {config : Config} {primary : Option Listener} {s : Session} {past : List Moment}
  {m : Machine}

theorem settingsInTurn_of_outer (run : Run (.standard cap) { session := s } past m)
    (houter : ∀ mo ∈ past, mo.reenters = false) : SettingsInTurn past := by
  refine settingsInTurn_of_outermost run fun mo hmo hop => ?_
  have h := houter mo hmo
  cases hmo : mo.op? with
  | none => rw [hmo] at hop; cases hop
  | some op =>
    rw [hmo, Option.any_some] at hop
    have hreport : op.isReport = false := by
      cases op <;> first | rfl | cases hop
    simpa [Moment.reenters, hmo, hreport] using h

/-- The window of a stream is where it may be, and is what it comes to. -/
structure Accounted (past : List Moment) (m : Machine) (r : StreamRef) : Prop where
  deep : -Stream.maxWindow ≤ (m.session.stream r).window
  high : High m r
  inStep : InStep past m r

/-- What is known of a machine whose callbacks do not come back to the session. -/
structure Settled (past : List Moment) (m : Machine) : Prop where
  blank : ∀ r, Blank past m r
  steady : ∀ r, Overflown past r = false → Accounted past m r
  warranted : Warranted past m
  refused : ∀ r e, .overflow r e ∈ m.tasks → ∃ pre mo post, past = pre ++ mo :: post ∧ mo.Refuses r e ∧
    (Overflown pre r ∨ mo.overflows r)

theorem settled_of_run (hnew : Session.new config primary = .ok s)
    (hconfig : config.initialWindow ≤ Stream.maxWindow)
    (run : Run (.standard cap) { session := s } past m) (houter : ∀ mo ∈ past, mo.reenters = false) :
    Settled past m := by
  induction run with
  | start =>
    obtain ⟨-, rfl⟩ := Session.new_eq_ok hnew
    refine ⟨fun r _ => ⟨rfl, rfl⟩, fun r _ => ⟨?_, fun hr => (nomatch hr), fun hr => (nomatch hr)⟩,
      fun x hx => (nomatch hx), fun r e hx => (nomatch hx)⟩
    rw [Session.stream_of_size_le (Nat.zero_le _)]
    decide
  | @next past m m' e run h ih =>
    have hold := ih fun mo hmo => houter mo (List.mem_append_left _ hmo)
    have hout := houter _ (List.mem_append_right _ List.mem_cons_self)
    have placed := placed_of_run run
    have hc := covered_of_run hnew hconfig run
      (settingsInTurn_of_outer run fun mo hmo => houter mo (List.mem_append_left _ hmo))
    have known := known_of_run hnew run
    have slim := slim_of_run hnew run
    have hafter := tidy_of_run hnew (run.next h)
    have hrefuses : ∀ {r err}, Moment.Refuses ⟨m, e, m'⟩ r err →
        Overflown past r ∨ Moment.overflows ⟨m, e, m'⟩ r := fun {r} _ hr => by
      cases hpast : Overflown past r with
      | true => exact .inl rfl
      | false => exact .inr (overflows_of_refuses (hold.steady r hpast).deep (hold.steady r hpast).high hr)
    refine ⟨fun r => (hold.blank r).next h placed hc.tidy known, fun r hnot => ?_,
      hold.warranted.next h placed hc (voiced_of_run hnew run) hafter hout fun r err hr => ?_, fun r err hx => ?_⟩
    · obtain ⟨hpast, hnow⟩ := overflown_concat.1 hnot
      obtain ⟨hdeep, hhigh, hstep⟩ := hold.steady r hpast
      have hdoomed : r ∈ m.session.table → ¬Doomed (inProgress past) m r := fun hin hdoom =>
        Bool.eq_false_iff.1 hpast (hold.warranted.overflown hdoom.pending hin)
      exact ⟨deep_of_next? h hc known slim (fun _ _ _ => hhigh) hdeep,
        hhigh.next h placed hc known slim hafter hnow hdoomed,
        hstep.next h placed hc known slim hafter hnow hhigh (hold.blank r)⟩
    · rw [overflown_append, Bool.or_eq_true]
      exact (hrefuses hr).imp_right fun hnow => by rw [Overflown, List.any_cons, hnow, Bool.true_or]
    · rcases givesUp_of_next? h hc hx rfl with hx | ⟨⟨q, err', heq, hr⟩, -⟩ | ⟨q, err', version, id, status, -, heq⟩
      · obtain ⟨pre, mo, post, rfl, hmo⟩ := hold.refused r err hx
        exact ⟨pre, mo, post ++ [⟨m, e, m'⟩], by rw [List.append_assoc, List.cons_append], hmo⟩
      · cases heq
        exact ⟨past, _, [], rfl, hr, hrefuses hr⟩
      · cases heq

theorem unannounced_of_run (hnew : Session.new config primary = .ok s)
    (hconfig : config.initialWindow ≤ Stream.maxWindow)
    (run : Run (.standard cap) { session := s } past m) (houter : ∀ mo ∈ past, mo.reenters = false) :
    m.Unannounced := by
  induction run with
  | start => exact fun x hx => (nomatch hx)
  | next run h ih =>
    have hbefore := fun mo hmo => houter mo (List.mem_append_left _ hmo)
    exact unannounced_of_next? h (covered_of_run hnew hconfig run (settingsInTurn_of_outer run hbefore))
      (houter _ (List.mem_append_right _ List.mem_cons_self)) (ih hbefore)

/-- As long as the controller does not break off what is to give streams up, a stream whose window left its range is
given up before anything else. -/
theorem givenUp_of_run (hnew : Session.new config primary = .ok s)
    (hconfig : config.initialWindow ≤ Stream.maxWindow)
    (run : Run (.standard cap) { session := s } past m) (houter : ∀ mo ∈ past, mo.reenters = false)
    (hkept : ∀ mo ∈ past, mo.forsakes = false) {r : StreamRef} (hover : Overflown past r) :
    r.serial < m.session.streams.size ∧ (r ∈ m.session.table → m.Pending r) := by
  induction run with
  | start => cases hover
  | @next past m m' e run h ih =>
    have hbefore := fun mo hmo => houter mo (List.mem_append_left _ hmo)
    have hc := covered_of_run hnew hconfig run (settingsInTurn_of_outer run hbefore)
    have placed := placed_of_run run
    have onward : m.session.Onward m'.session := later_of_turn (turn_of_next? h placed)
    cases hnow : Moment.overflows ⟨m, e, m'⟩ r with
    | true =>
      obtain ⟨delta, hoffer, -⟩ := Moment.overflows_iff.1 hnow
      have hknown := hc.tidy.known r (Moment.mem_of_offer? hoffer).1
      exact ⟨Nat.lt_of_lt_of_le hknown onward.size, fun _ => pending_of_overflows h hc hnow⟩
    | false =>
      have hpast : Overflown past r := by
        rw [overflown_append, Overflown, Overflown, List.any_cons, hnow, List.any_nil, Bool.false_or, Bool.or_false]
          at hover
        exact hover
      obtain ⟨hknown, hpending⟩ := ih hbefore (fun mo hmo => hkept mo (List.mem_append_left _ hmo)) hpast
      refine ⟨Nat.lt_of_lt_of_le hknown onward.size, fun hin => ?_⟩
      have hold := (mem_table_of_next? h placed hin).resolve_right (Nat.not_le.2 hknown)
      exact (pending_of_next? h (onward.later r hknown).id (hkept _ (List.mem_append_right _ List.mem_cons_self))
        (unannounced_of_run hnew hconfig run hbefore) (hpending hold)).resolve_right fun hout => hout hin

/-- When nothing else is being done, no open stream has left its range. -/
theorem not_overflown_of_run (hnew : Session.new config primary = .ok s)
    (hconfig : config.initialWindow ≤ Stream.maxWindow)
    (run : Run (.standard cap) { session := s } past m) (houter : ∀ mo ∈ past, mo.reenters = false)
    (hkept : ∀ mo ∈ past, mo.forsakes = false) {r : StreamRef} (hidle : m.tasks = [])
    (hr : r ∈ m.session.table) : Overflown past r = false :=
  Bool.eq_false_iff.2 fun hover =>
    not_pending_of_nil hidle ((givenUp_of_run hnew hconfig run houter hkept hover).2 hr)

end Run

theorem Stream.credit_of_range {x : Stream} {delta : Int} (hmin : -maxWindow ≤ x.window + delta)
    (hmax : x.window + delta ≤ maxWindow) : ∃ y, x.credit delta = .ok y := by
  have hpos : minWindow = -maxWindow - 1 := by decide
  exact ⟨_, if_pos ⟨by omega, hmax⟩⟩

end Spdy
