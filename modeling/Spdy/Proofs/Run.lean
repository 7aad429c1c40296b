import Spdy.Session.Event

/-!
# Runs of a session

A session works when it is asked to, and waits whenever it calls the outside. A run is what happens
to it from its beginning on, one thing after another, in whatever order the outside chooses.

* `Run` : all that happened since a machine began;
* `Machine.replay?` : a run from its events (`Machine.run_of_replay?`);
* `Moment.handed?` : the frame that the session hands to the controller;
* `Moment.isOrderly` : the controller neither breaks off nor gives a handler up;
* `Happens` : all that can happen to a machine, case by case (`Machine.happens_of_next?`).
-/

namespace Spdy

/-- What is left to do for all operations in progress, innermost first. -/
def Machine.tasks (m : Machine) : List Task := m.stack.flatMap Activation.todo

/-! ## Runs -/

/-- The run of a machine: what happened since it began as `start`, and what has become of it. -/
inductive Run (enc : Encoder) (start : Machine) : List Moment → Machine → Prop
  | start : Run enc start [] start
  | next {past : List Moment} {m m' : Machine} {e : Event} (run : Run enc start past m)
      (h : m.next? enc e = some m') : Run enc start (past ++ [⟨m, e, m'⟩]) m'

namespace Moment

/-- The frame that the controller is asked to write, with the handler that reports it. -/
def handed? (mo : Moment) : Option (Bytes × Handler) :=
  match mo.called? with
  | some (.write bytes h) => some (bytes, h)
  | _ => none

/-- What an operation that is asked for is going to return, as far as that is known at once. -/
def outcome? (mo : Moment) : Option Outcome :=
  match mo.event with
  | .invoke _ => mo.after.stack.head?.map (·.outcome)
  | _ => none

def isFailure (mo : Moment) : Bool := mo.event matches .invoke (.fail ..)

/-- A handler is given up without a report. -/
def isDrop (mo : Moment) : Bool := mo.event matches .drop _

/-- The controller breaks off. A listener may. -/
def isBreak (mo : Moment) : Bool :=
  match mo.event, mo.before.awaited? with
  | .panic _, some (.write ..) | .panic _, some (.close _) => true
  | _, _ => false

/-- The controller behaves: it does not break off, and no handler is given up. -/
def isOrderly (mo : Moment) : Bool := !mo.isDrop && !mo.isBreak

theorem isBreak_of_isOrderly {mo : Moment} (h : mo.isOrderly) : mo.isBreak = false := by
  rw [isOrderly, Bool.and_eq_true, Bool.not_eq_true', Bool.not_eq_true'] at h
  exact h.2

end Moment

namespace Machine

def replay? (enc : Encoder) (m : Machine) : List Event → Option (List Moment × Machine)
  | [] => some ([], m)
  | e :: rest =>
    match m.next? enc e with
    | none => none
    | some m' => (m'.replay? enc rest).map fun (past, last) => (⟨m, e, m'⟩ :: past, last)

end Machine

theorem Run.append {enc : Encoder} {start m last : Machine} {past rest : List Moment} (run : Run enc start past m)
    (more : Run enc m rest last) : Run enc start (past ++ rest) last := by
  induction more with
  | start => rwa [List.append_nil]
  | next _ h ih =>
    rw [← List.append_assoc]
    exact ih.next h

theorem Run.cons {enc : Encoder} {m m' last : Machine} {e : Event} {past : List Moment}
    (h : m.next? enc e = some m') (run : Run enc m' past last) :
    Run enc m (⟨m, e, m'⟩ :: past) last := by
  induction run with
  | start => exact Run.start.next h
  | next _ h' ih => exact ih.next h'

/-- Whatever happened, happened to a machine that the run came to before. -/
theorem Run.of_mem {enc : Encoder} {start m : Machine} {past : List Moment}
    (run : Run enc start past m) {mo : Moment} (h : mo ∈ past) :
    ∃ pre, pre <+: past ∧ Run enc start pre mo.before ∧
      mo.before.next? enc mo.event = some mo.after := by
  induction run with
  | start => cases h
  | @next past m m' e run hnext ih =>
    rcases List.mem_append.1 h with h | h
    · obtain ⟨pre, hpre, hrun, hmo⟩ := ih h
      exact ⟨pre, hpre.trans (List.prefix_append _ _), hrun, hmo⟩
    · rw [List.mem_singleton.1 h]
      exact ⟨past, List.prefix_append _ _, run, hnext⟩

/-- Something in a list with one more at the end is this one, or comes before it. -/
theorem split_of_concat {α : Type} {pre post past : List α} {a x : α} (h : pre ++ a :: post = past ++ [x]) :
    (post = [] ∧ pre = past ∧ a = x) ∨ ∃ rest, post = rest ++ [x] ∧ pre ++ a :: rest = past := by
  rcases List.eq_nil_or_concat post with rfl | ⟨rest, y, rfl⟩
  · obtain ⟨rfl, hx⟩ := List.append_inj' h rfl
    exact .inl ⟨rfl, rfl, List.singleton_inj.1 hx⟩
  · rw [List.concat_eq_append, ← List.cons_append, ← List.append_assoc] at h
    obtain ⟨rfl, hx⟩ := List.append_inj' h rfl
    obtain rfl := List.singleton_inj.1 hx
    exact .inr ⟨rest, List.concat_eq_append, rfl⟩

/-- What happens since some moment: an induction over the rest of a run. -/
theorem Run.since {enc : Encoder} {start m : Machine} {pre post : List Moment} {mo : Moment}
    {P : List Moment → Machine → Prop} (run : Run enc start (pre ++ mo :: post) m)
    (base : Run enc start pre mo.before → mo.before.next? enc mo.event = some mo.after → P [] mo.after)
    (step : ∀ {post : List Moment} {m m' : Machine} {e : Event},
      Run enc start (pre ++ mo :: post) m → m.next? enc e = some m' → P post m →
      P (post ++ [⟨m, e, m'⟩]) m') : P post m := by
  generalize hpast : pre ++ mo :: post = past at run
  induction run generalizing post with
  | start => simp at hpast
  | next run h ih =>
    rcases split_of_concat hpast with ⟨rfl, rfl, rfl⟩ | ⟨rest, rfl, rfl⟩
    · exact base run h
    · exact step run h (ih rfl)

theorem Run.of_append {enc : Encoder} {start m : Machine} {pre post : List Moment} {mo : Moment}
    (run : Run enc start (pre ++ mo :: post) m) :
    Run enc start pre mo.before ∧ mo.before.next? enc mo.event = some mo.after :=
  run.since (P := fun _ _ => Run enc start pre mo.before ∧ mo.before.next? enc mo.event = some mo.after)
    (fun hpre hnext => ⟨hpre, hnext⟩) fun _ _ ih => ih

theorem Machine.run_of_replay? (enc : Encoder) (m : Machine) (es : List Event) {last : Machine}
    {past : List Moment} (h : m.replay? enc es = some (past, last)) : Run enc m past last := by
  induction es generalizing m past with
  | nil =>
    obtain ⟨rfl, rfl⟩ : [] = past ∧ m = last := by simpa [replay?] using h
    exact .start
  | cons e es ih =>
    unfold replay? at h
    split at h
    · cases h
    · rename_i m' hm
      obtain ⟨⟨past', last'⟩, hr, heq⟩ := Option.map_eq_some_iff.1 h
      obtain ⟨rfl, rfl⟩ := Prod.mk.inj heq
      exact .cons hm (ih _ hr)

/-! ## All that can happen -/

def Task.isCall : Task → Bool
  | .call _ => true
  | _ => false

def Task.isWrite : Task → Bool
  | .call (.write ..) => true
  | _ => false

/-- The cases of `Machine.next?`, with what each leaves on the stack. -/
inductive Happens (enc : Encoder) (m : Machine) : Event → Machine → Prop
  | invoke (op : Operation) (yields : m.yields) (possible : op.isPossible m.session) :
      Happens enc m (.invoke op)
        ⟨(m.session.begin enc m.isAlive op).session,
          ⟨(m.session.begin enc m.isAlive op).todo, (m.session.begin enc m.isAlive op).outcome⟩ ::
            m.stack⟩
  | tick {task : Task} {rest : List Task} {outcome : Outcome} {below : List Activation}
      (stack : m.stack = ⟨task :: rest, outcome⟩ :: below) (notCall : task.isCall = false) :
      Happens enc m .tick
        ⟨(m.session.perform enc task).session,
          ⟨(m.session.perform enc task).todo ++ rest, outcome⟩ :: below⟩
  | answer (reply : Option Listener) {c : Call} {rest : List Task} {outcome : Outcome}
      {below : List Activation} (stack : m.stack = ⟨.call c :: rest, outcome⟩ :: below) :
      Happens enc m (.answer reply)
        ⟨Machine.accept m.session c reply, ⟨rest, outcome⟩ :: below⟩
  | caught (p : Panic) {c : Call} {rest : List Task} {outcome : Outcome}
      {below : List Activation} (stack : m.stack = ⟨.call c :: rest, outcome⟩ :: below)
      (tell : c.isTell) :
      Happens enc m (.panic p) ⟨Machine.accept m.session c none, ⟨rest, outcome⟩ :: below⟩
  | broken (p : Panic) {c : Call} {rest : List Task} {outcome : Outcome}
      {below : List Activation} (stack : m.stack = ⟨.call c :: rest, outcome⟩ :: below)
      (notTell : c.isTell = false) :
      Happens enc m (.panic p) ⟨m.session, ⟨[], .panicked p⟩ :: below⟩
  | leave {outcome : Outcome} {below : List Activation}
      (stack : m.stack = ⟨[], outcome⟩ :: below) : Happens enc m .leave ⟨m.session, below⟩
  | edit (e : Edit) (yields : m.yields) :
      Happens enc m (.edit e) ⟨e.apply m.session, m.stack⟩
  | drop (seq : Nat) (yields : m.yields) :
      Happens enc m (.drop seq) ⟨m.session.dropHandler seq, m.stack⟩

namespace Machine

theorem stack_of_awaited? {m : Machine} {c : Call} (h : m.awaited? = some c) :
    ∃ rest outcome below, m.stack = ⟨.call c :: rest, outcome⟩ :: below := by
  unfold awaited? at h
  split at h
  · rename_i hs
    cases h
    exact ⟨_, _, _, hs⟩
  · cases h

theorem awaited?_of_stack {m : Machine} {c : Call} {rest : List Task} {outcome : Outcome}
    {below : List Activation} (h : m.stack = ⟨.call c :: rest, outcome⟩ :: below) :
    m.awaited? = some c := by
  simp [awaited?, h]

theorem happens_of_next? {enc : Encoder} {m m' : Machine} {e : Event}
    (h : m.next? enc e = some m') : Happens enc m e m' := by
  cases e with
  | invoke op =>
    simp only [next?, Option.ite_none_right_eq_some, Bool.and_eq_true, Option.some.injEq] at h
    obtain ⟨⟨hy, hp⟩, rfl⟩ := h
    exact .invoke op hy hp
  | tick =>
    obtain ⟨⟨m'', notes⟩, ht, rfl⟩ := Option.map_eq_some_iff.1 h
    unfold tick at ht
    split at ht
    · cases ht
    · cases ht
    · cases ht
    · rename_i task rest outcome below hcall hs
      cases ht
      refine .tick hs ?_
      cases task with
      | call c => exact absurd rfl (hcall c)
      | _ => rfl
  | answer reply =>
    simp only [next?, Option.ite_none_right_eq_some, Option.some.injEq] at h
    obtain ⟨ha, rfl⟩ := h
    obtain ⟨c, hc⟩ := Option.isSome_iff_exists.1 ha
    obtain ⟨rest, outcome, below, hs⟩ := stack_of_awaited? hc
    simp only [Machine.answer, hs]
    exact .answer reply hs
  | panic p =>
    simp only [next?, Option.ite_none_right_eq_some, Option.some.injEq] at h
    obtain ⟨ha, rfl⟩ := h
    obtain ⟨c, hc⟩ := Option.isSome_iff_exists.1 ha
    obtain ⟨rest, outcome, below, hs⟩ := stack_of_awaited? hc
    cases c with
    | tell l notice =>
      simp only [Machine.panic, hc, Machine.answer, hs]
      exact .caught p hs rfl
    | write bytes handler =>
      simp only [Machine.panic, hc, hs, List.tail_cons]
      exact .broken p hs rfl
    | close graceful =>
      simp only [Machine.panic, hc, hs, List.tail_cons]
      exact .broken p hs rfl
  | leave =>
    simp only [next?, Option.ite_none_right_eq_some, Option.some.injEq] at h
    obtain ⟨hf, rfl⟩ := h
    unfold finished? at hf
    split at hf
    · rename_i hs
      simp only [Machine.leave, hs, List.tail_cons]
      exact .leave hs
    · cases hf
  | edit e =>
    simp only [next?, Option.ite_none_right_eq_some, Option.some.injEq] at h
    obtain ⟨hy, rfl⟩ := h
    exact .edit e hy
  | drop seq =>
    simp only [next?, Option.ite_none_right_eq_some, Option.some.injEq] at h
    obtain ⟨hy, rfl⟩ := h
    exact .drop seq hy

end Machine

end Spdy
