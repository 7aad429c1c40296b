import Spdy.Proofs.Quiescence
import Spdy.Proofs.Repose

/-!
# While an operation is being done

* `Moment.isWithin` : what may happen while nothing else begins;
* `Machine.leave_of_stack`, `Machine.answer_of_stack` : what can happen then;
* `Machine.proceeds`, `Machine.goes_on` : as long as something is being done, it can go on;
* `Run.comes_to` : what takes so many steps at most and can go on can be brought to its end;
* `length_le_of_unprompted`, `settles_of_run` : it comes to an end, whatever happens;
* `settingsInTurn_meanwhile`, `makesUp_meanwhile` : windows make up for all that is written meanwhile;
* `window_meanwhile` : and nothing else moves them.
-/

namespace Spdy

/-- An operation goes on and nothing else begins: listeners do not come back to the session, and the controller does
nothing but report a write, while it is asked for one, or give a handler up. Both may break off. -/
def Moment.isWithin (mo : Moment) : Bool :=
  !mo.before.stack.isEmpty &&
    match mo.event with
    | .tick | .answer _ | .panic _ | .leave => true
    | .drop seq => mo.before.session.outstanding.any (·.seq == seq)
    | .invoke (.complete _) => (mo.before.awaited? matches some (.write ..))
    | .invoke _ | .edit _ => false

theorem Moment.op?_of_isWithin {mo : Moment} (h : mo.isWithin) :
    mo.op? = none ∨ ∃ seq, mo.op? = some (.complete seq) := by
  rw [Moment.isWithin, Bool.and_eq_true] at h
  obtain ⟨-, h⟩ := h
  unfold Moment.op?
  cases hevent : mo.event with
  | invoke op =>
    rw [hevent] at h
    cases op with
    | complete seq => exact .inr ⟨seq, rfl⟩
    | _ => cases h
  | _ => exact .inl rfl

/-- While nothing else begins, writes are reported while the controller is asked for one. -/
theorem Moment.awaits_of_isWithin {m m' : Machine} {seq : Nat}
    (h : Moment.isWithin ⟨m, .invoke (.complete seq), m'⟩) : ∃ bytes x, m.awaited? = some (.write bytes x) := by
  replace h := (Bool.and_eq_true_iff.1 h).2
  dsimp only at h
  split at h
  · next bytes x hwrites => exact ⟨bytes, x, hwrites⟩
  · cases h

/-! ## One step -/

namespace Machine

variable {enc : Encoder} {m : Machine} {rest : List Task} {outcome : Outcome} {below : List Activation}

theorem next?_tick {x : Task} (stack : m.stack = ⟨x :: rest, outcome⟩ :: below) (notCall : x.isCall = false) :
    m.next? enc .tick = some ⟨(m.session.perform enc x).session,
      ⟨(m.session.perform enc x).todo ++ rest, outcome⟩ :: below⟩ := by
  cases x with
  | call c => cases notCall
  | _ => simp only [next?, tick, stack, Option.map_some]

theorem next?_answer {c : Call} (stack : m.stack = ⟨.call c :: rest, outcome⟩ :: below) (reply : Option Listener) :
    m.next? enc (.answer reply) = some ⟨accept m.session c reply, ⟨rest, outcome⟩ :: below⟩ := by
  simp only [next?, awaited?_of_stack stack, Option.isSome_some, if_true, answer, stack]

theorem next?_panic {c : Call} (stack : m.stack = ⟨.call c :: rest, outcome⟩ :: below) (p : Panic) (tell : c.isTell) :
    m.next? enc (.panic p) = some ⟨accept m.session c none, ⟨rest, outcome⟩ :: below⟩ := by
  cases c with
  | tell l notice =>
    simp only [next?, awaited?_of_stack stack, Option.isSome_some, if_true, panic, answer, stack]
  | _ => cases tell

theorem next?_leave (stack : m.stack = ⟨[], outcome⟩ :: below) : m.next? enc .leave = some ⟨m.session, below⟩ := by
  simp only [next?, finished?, stack, Option.isSome_some, if_true, leave, List.tail_cons]

theorem leave_of_stack {m' : Machine} {e : Event} (stack : m.stack = ⟨[], outcome⟩ :: below)
    (h : m.next? enc e = some m') : e = .leave ∧ m' = ⟨m.session, below⟩ := by
  have hbusy : m.yields = false := by simp [yields, awaited?, stack]
  cases happens_of_next? h with
  | leave stack' =>
    rw [stack] at stack'
    cases stack'
    exact ⟨rfl, rfl⟩
  | invoke op yields => rw [hbusy] at yields; cases yields
  | edit e yields => rw [hbusy] at yields; cases yields
  | drop seq yields => rw [hbusy] at yields; cases yields
  | tick stack' => rw [stack] at stack'; cases stack'
  | answer reply stack' => rw [stack] at stack'; cases stack'
  | caught p stack' => rw [stack] at stack'; cases stack'
  | broken p stack' => rw [stack] at stack'; cases stack'

/-- While nothing else begins and the controller behaves, a call that is waited for returns, or the write that it is to
make is reported. -/
theorem answer_of_stack {m' : Machine} {e : Event} {c : Call} (stack : m.stack = ⟨.call c :: rest, outcome⟩ :: below)
    (h : m.next? enc e = some m') (within : Moment.isWithin ⟨m, e, m'⟩) (orderly : Moment.isOrderly ⟨m, e, m'⟩) :
    (∃ reply, m' = ⟨accept m.session c reply, ⟨rest, outcome⟩ :: below⟩ ∧ (c.isTell ∨ e = .answer reply)) ∨
      ∃ bytes x seq, c = .write bytes x ∧ e = .invoke (.complete seq) ∧ m.session.outstanding.any (·.seq == seq) ∧
        m' = (m.invoke enc (.complete seq)).1 := by
  rw [Moment.isWithin, Bool.and_eq_true] at within
  obtain ⟨-, within⟩ := within
  cases happens_of_next? h with
  | invoke op yields possible =>
    cases op with
    | complete seq =>
      dsimp only at within
      rw [awaited?_of_stack stack] at within
      cases c with
      | write bytes x => exact .inr ⟨bytes, x, seq, rfl, rfl, possible, rfl⟩
      | _ => cases within
    | _ => cases within
  | tick stack' notCall =>
    rw [stack] at stack'
    cases stack'
    cases notCall
  | answer reply stack' =>
    rw [stack] at stack'
    cases stack'
    exact .inl ⟨reply, rfl, .inr rfl⟩
  | caught p stack' tell =>
    rw [stack] at stack'
    cases stack'
    exact .inl ⟨none, rfl, .inl tell⟩
  | @broken p c' _ _ _ stack' notTell =>
    have unbroken := Moment.isBreak_of_isOrderly orderly
    rw [Moment.isBreak, awaited?_of_stack stack] at unbroken
    rw [stack] at stack'
    cases stack'
    cases c with
    | tell => cases notTell
    | _ => cases unbroken
  | leave stack' =>
    rw [stack] at stack'
    cases stack'
  | edit => cases within
  | drop => cases orderly

end Machine

/-! ## An end -/

section Ends

variable {cap : Nat} {s : Session} {past later : List Moment} {m n last : Machine}

theorem Moment.isUnprompted_of_isWithin {mo : Moment} (h : mo.isWithin) : mo.event.isUnprompted mo.before := by
  rw [isWithin, Bool.and_eq_true] at h
  obtain ⟨-, h⟩ := h
  cases hevent : mo.event with
  | invoke op =>
    rw [hevent] at h
    cases op with
    | complete => rfl
    | _ => cases h
  | edit e =>
    rw [hevent] at h
    cases h
  | drop seq =>
    rw [hevent] at h
    exact h
  | _ => rfl

/-- What is known beforehand of one machine: its listeners, and the streams that are open or going to be opened. -/
def Machine.scale (m : Machine) : Scale where
  listeners := m.session.audience
  streams := Tariff.crowd.machine m

theorem foreign_succ (n id : UInt32) (h : id % 2 ≠ n % 2) : id % 2 = (n + 1) % 2 := by
  rw [Ne, ← UInt32.toNat_inj, UInt32.toNat_mod, UInt32.toNat_mod] at h
  rw [← UInt32.toNat_inj, UInt32.toNat_mod, UInt32.toNat_mod, UInt32.toNat_add]
  have htwo : (2 : UInt32).toNat = 2 := rfl
  have hone : (1 : UInt32).toNat = 1 := rfl
  rw [htwo] at h ⊢
  rw [hone]
  omega

/-- Each thing that happens of its own accord takes some of the effort that was known beforehand. -/
theorem length_le_of_unprompted (run : Run (.standard cap) { session := s } past n)
    (more : Run (.standard cap) n later last) (unprompted : ∀ x ∈ later, x.event.isUnprompted x.before) :
    last.session.standing = n.session.standing ∧ Tariff.crowd.machine last ≤ Tariff.crowd.machine n ∧
      later.length + (n.scale.tariff (n.session.nextPingId + 1)).machine last ≤
        (n.scale.tariff (n.session.nextPingId + 1)).machine n := by
  induction more with
  | start => exact ⟨rfl, Nat.le_refl _, Nat.le_of_eq (Nat.zero_add _)⟩
  | @next later m m' e more h ih =>
    obtain ⟨hstanding, hcrowd, heffort⟩ := ih fun x hx => unprompted x (List.mem_append_left _ hx)
    have he : e.isUnprompted m := unprompted ⟨m, e, m'⟩ (List.mem_append_right _ List.mem_cons_self)
    have hplaced := placed_of_run (run.append more)
    have hparts := hstanding
    rw [Session.standing, Session.standing, Prod.mk.injEq, Prod.mk.injEq, Prod.mk.injEq] at hparts
    obtain ⟨hpings, -, hlisteners, hcontrols⟩ := hparts
    have hforeign : ∀ id, id % 2 ≠ m.session.nextPingId % 2 → id % 2 = (n.session.nextPingId + 1) % 2 := fun id hid =>
      foreign_succ _ id (hpings ▸ hid)
    have hwithin : m.session.Within n.scale :=
      { streamListeners := by rw [hlisteners]; exact Nat.le_add_right _ _
        controlListeners := by rw [hcontrols]; exact Nat.le_add_left _ _
        table := by
          refine Nat.le_trans ?_ hcrowd
          rw [Tariff.machine, Tariff.session, show Tariff.crowd.place = 1 from rfl, Nat.one_mul]
          omega }
    have hless := Tariff.Covers.unprompted (Tariff.covers_crowd hforeign) hplaced h he
    have hstep := Tariff.Covers.unprompted
      (Scale.covers_effort hwithin (congrArg (· % 2) hpings.symm) hforeign) hplaced h he
    refine ⟨(standing_of_next? h hforeign (.inl he)).trans hstanding, by omega, ?_⟩
    rw [List.length_append, List.length_singleton]
    have hone : (n.scale.tariff (n.session.nextPingId + 1)).step = 1 := rfl
    omega

/-- As long as something is being done, its next task can be done, it can get an empty answer, or it returns. -/
theorem Machine.proceeds (enc : Encoder) (busy : m.stack ≠ []) :
    ∃ e m', m.next? enc e = some m' ∧ (e = .tick ∨ e = .answer none ∨ e = .leave) := by
  obtain ⟨⟨todo, outcome⟩, below, hstack⟩ := List.exists_cons_of_ne_nil busy
  cases todo with
  | nil => exact ⟨.leave, _, next?_leave hstack, .inr (.inr rfl)⟩
  | cons x rest =>
    cases x with
    | call c => exact ⟨.answer none, _, next?_answer hstack none, .inr (.inl rfl)⟩
    | _ => exact ⟨.tick, _, next?_tick hstack rfl, .inl rfl⟩

theorem Machine.goes_on (enc : Encoder) (busy : m.stack ≠ []) :
    ∃ e m', m.next? enc e = some m' ∧ Moment.isWithin ⟨m, e, m'⟩ ∧ Moment.isOrderly ⟨m, e, m'⟩ := by
  obtain ⟨e, m', hnext, he⟩ := m.proceeds enc busy
  have hempty : m.stack.isEmpty = false := List.isEmpty_eq_false_iff.2 busy
  refine ⟨e, m', hnext, ?_⟩
  rw [Moment.isWithin, hempty]
  rcases he with rfl | rfl | rfl <;> exact ⟨rfl, rfl⟩

theorem Run.continue_of_replay? {enc : Encoder} {start : Machine} (_run : Run enc start past m) (es : List Event)
    (h : m.replay? enc es = some (later, last)) : Run enc m later last := Machine.run_of_replay? enc m es h

/-- What takes so many steps at most, and can go on until it has come to its end, can be brought to its end. -/
theorem Run.comes_to {enc : Encoder} {good : Moment → Prop} {goal : Machine → Prop} {bound : Nat}
    (more : Run enc n later m) (all : ∀ x ∈ later, good x)
    (short : ∀ later m, Run enc n later m → (∀ x ∈ later, good x) → later.length ≤ bound)
    (goes_on : ∀ later m, Run enc n later m → (∀ x ∈ later, good x) → ¬goal m →
      ∃ e m', m.next? enc e = some m' ∧ good ⟨m, e, m'⟩) :
    ∃ rest last, Run enc m rest last ∧ (∀ x ∈ rest, good x) ∧ goal last := by
  -- the induction is on the steps that are left
  generalize hleft : bound - later.length = left
  induction left using Nat.strong_induction_on generalizing later m with
  | _ left ih =>
    by_cases hgoal : goal m
    · exact ⟨[], m, .start, fun x hx => absurd hx List.not_mem_nil, hgoal⟩
    · obtain ⟨e, m', hnext, hgood⟩ := goes_on later m more all hgoal
      have hall : ∀ x ∈ later ++ [⟨m, e, m'⟩], good x := fun x hx =>
        (List.mem_append.1 hx).elim (all x) fun hx => List.mem_singleton.1 hx ▸ hgood
      have hlength := short _ m' (more.next hnext) hall
      rw [List.length_append, List.length_singleton] at hlength
      have hless : bound - (later ++ [(⟨m, e, m'⟩ : Moment)]).length < left := by
        rw [List.length_append, List.length_singleton]
        omega
      obtain ⟨rest, last, hrun, hrest, hlast⟩ := ih _ hless (more.next hnext) hall rfl
      refine ⟨⟨m, e, m'⟩ :: rest, last, .cons hnext hrun, fun x hx => ?_, hlast⟩
      rcases List.mem_cons.1 hx with rfl | hx
      · exact hgood
      · exact hrest x hx

/-- Whatever happens while nothing else begins, the operation comes to its end: it takes so many steps at most, and it
can be brought to its end at any time. -/
def Machine.Settles (cap : Nat) (n : Machine) : Prop :=
  ∃ bound, ∀ later m, Run (.standard cap) n later m → (∀ x ∈ later, x.isWithin) → later.length ≤ bound ∧
    ∃ more last, Run (.standard cap) m more last ∧ (∀ x ∈ more, x.isWithin ∧ x.isOrderly) ∧ last.stack = []

/-- How many steps it takes at most until an operation comes to its end. -/
theorem length_le_of_within (run : Run (.standard cap) { session := s } past n) (more : Run (.standard cap) n later last)
    (within : ∀ x ∈ later, x.isWithin) :
    later.length ≤ (n.scale.tariff (n.session.nextPingId + 1)).machine n :=
  Nat.le_of_add_right_le
    (length_le_of_unprompted run more fun x hx => Moment.isUnprompted_of_isWithin (within x hx)).2.2

theorem settles_of_run (run : Run (.standard cap) { session := s } past n) : n.Settles cap := by
  refine ⟨_, fun later m more within => ⟨length_le_of_within run more within, ?_⟩⟩
  exact Run.start.comes_to (fun x hx => absurd hx List.not_mem_nil)
    (fun later m' more' all => length_le_of_within (run.append more) more' fun x hx => (all x hx).1)
    fun later m' _ _ hbusy => m'.goes_on (.standard cap) hbusy

end Ends

/-! ## Windows -/

section Meanwhile

variable {cap : Nat} {s : Session} {op : Operation} {n last : Machine} {later : List Moment}

def Session.MakesUp (s : Session) : Prop :=
  ∀ x ∈ s.outstanding, ∀ r payload written, x.parcel = .data r payload written →
    ∃ y, (s.stream r).credit (debit written) = .ok y

/-- An operation and what happens meanwhile are a run in which SETTINGS come in turn. -/
theorem settingsInTurn_meanwhile (next : Machine.next? (.standard cap) { session := s } (.invoke op) = some n)
    (more : Run (.standard cap) n later last) (within : ∀ x ∈ later, x.isWithin) :
    Run (.standard cap) { session := s } (⟨{ session := s }, .invoke op, n⟩ :: later) last ∧
      SettingsInTurn (⟨{ session := s }, .invoke op, n⟩ :: later) := by
  have hrun := Run.cons next more
  refine ⟨hrun, settingsInTurn_of_outermost hrun fun mo hmo hop => ?_⟩
  rcases List.mem_cons.1 hmo with rfl | hmo
  · rfl
  · rcases Moment.op?_of_isWithin (within mo hmo) with hnone | ⟨seq, hseq⟩
    · rw [hnone] at hop
      cases hop
    · rw [hseq] at hop
      cases hop

/-- Meanwhile, windows make up for the data that is being written. -/
theorem makesUp_meanwhile (h : s.AtRest cap)
    (next : Machine.next? (.standard cap) { session := s } (.invoke op) = some n)
    (more : Run (.standard cap) n later last) (within : ∀ x ∈ later, x.isWithin) :
    ∀ x ∈ later, x.before.session.MakesUp := by
  intro x hx y hy r payload written hparcel
  obtain ⟨pre, hpre, hrun, -⟩ := more.of_mem hx
  obtain ⟨hrun, hturn⟩ := settingsInTurn_meanwhile next hrun fun z hz => within z (hpre.subset hz)
  cases hcredit : (x.before.session.stream r).credit (debit written) with
  | ok t => exact ⟨t, rfl⟩
  | error e => exact absurd hcredit (never_stuck (h.run hrun hturn).1 hy hparcel)

/-- Meanwhile, windows get smaller by the data that is written, and by nothing else. -/
theorem window_meanwhile (h : s.AtRest cap)
    (next : Machine.next? (.standard cap) { session := s } (.invoke op) = some n)
    (more : Run (.standard cap) n later last) (within : ∀ x ∈ later, x.isWithin) :
    last.session.initialWindow = n.session.initialWindow ∧ n.session.streams.size ≤ last.session.streams.size ∧
      ∀ r, r.serial < n.session.streams.size →
        (last.session.stream r).window = (n.session.stream r).window - total (·.paid r) later := by
  induction more with
  | start => exact ⟨rfl, Nat.le_refl _, fun r _ => by rw [total_nil, Int.sub_zero]⟩
  | @next later m m' e more hnext ih =>
    have hbefore : ∀ x ∈ later, x.isWithin := fun x hx => within x (List.mem_append_left _ hx)
    obtain ⟨hinitial, hcount, hwindow⟩ := ih hbefore
    obtain ⟨hrun, hturn⟩ := settingsInTurn_meanwhile next more hbefore
    have hregular := h.regular.run hrun
    have hop := Moment.op?_of_isWithin (within ⟨m, e, m'⟩ (List.mem_append_right _ List.mem_cons_self))
    have hsize : Moment.size? ⟨m, e, m'⟩ = none := by
      rcases hop with hop | ⟨seq, hop⟩ <;> rw [Moment.size?, hop]
    refine ⟨?_, Nat.le_trans hcount (later_of_turn (turn_of_next? hnext (placed_of_run hrun))).size, fun r hr => ?_⟩
    · rw [initialWindow_of_next? hnext (placed_of_run hrun) hregular.range.tidy, hsize, Option.getD_none, hinitial]
    have hstep := window_of_next? hnext (h.run hrun hturn).1 hregular.known hregular.slim r
    have hopening : Moment.opening r ⟨m, e, m'⟩ = 0 := by
      rw [Moment.opening, Moment.bears, if_neg]
      rw [decide_eq_false (Nat.not_le.2 (Nat.lt_of_lt_of_le hr hcount)), Bool.false_and]
      exact Bool.false_ne_true
    have hgrant : Moment.grant? ⟨m, e, m'⟩ = none := by
      rcases hop with hop | ⟨seq, hop⟩ <;> rw [Moment.grant?, hop]
    rw [hopening, Moment.lift, hgrant, Moment.shift, hsize, hwindow r hr] at hstep
    rw [total_append, total_singleton, hstep]
    dsimp only
    omega

end Meanwhile

end Spdy
