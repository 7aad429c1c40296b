import Mathlib.Algebra.Ring.Nat
import Spdy.Proofs.Turn

/-!
# What is still to be done

A call in front of the tasks of an operation was made and is waited for. All else is not begun: whatever a session is
going to do, and every call that it is going to make, is among these tasks or comes from one of them.

* `Machine.ahead` : the tasks that are not begun; `Moment.made`, `calls` : the calls that are made;
* `Agenda`, `agenda_of_next?` : what a moment does to the tasks that are not begun, whatever the encoder;
* `called?_of_begin`, `call_of_agenda` : calls that are made at once, and those that stay ahead;
* `expense_of_run` : no more is spent on calls than the operations brought in.
-/

namespace Spdy

/-- What an operation in progress has not begun: a call in front was made already. -/
def Activation.ahead (a : Activation) : List Task :=
  match a.todo with
  | .call _ :: rest => rest
  | todo => todo

def Machine.ahead (m : Machine) : List Task := m.stack.flatMap Activation.ahead

def Moment.made (mo : Moment) : List Task := mo.called?.toList.map .call

/-- The calls that were made, first the first. -/
def calls (past : List Moment) : List Call := past.filterMap Moment.called?

theorem calls_append (past : List Moment) (mo : Moment) :
    (calls (past ++ [mo])).map Task.call = (calls past).map .call ++ mo.made := by
  rw [calls, List.filterMap_append, List.map_append, ← calls, Moment.made]
  cases h : mo.called? <;> simp [h]

theorem Activation.ahead_of_not_call {task : Task} (h : task.isCall = false) (rest : List Task) (outcome : Outcome) :
    ahead ⟨task :: rest, outcome⟩ = task :: rest := by
  cases task with
  | call => cases h
  | _ => rfl

theorem Machine.ahead_of_stack {m : Machine} {a : Activation} {below : List Activation} (h : m.stack = a :: below) :
    m.ahead = a.ahead ++ below.flatMap Activation.ahead := by
  rw [ahead, h, List.flatMap_cons]

theorem Machine.mem_tasks_of_ahead {m : Machine} {x : Task} (h : x ∈ m.ahead) : x ∈ m.tasks := by
  obtain ⟨a, ha, hx⟩ := List.mem_flatMap.1 h
  refine List.mem_flatMap.2 ⟨a, ha, ?_⟩
  unfold Activation.ahead at hx
  split at hx
  · next c rest htodo =>
    rw [htodo]
    exact List.mem_cons_of_mem _ hx
  · exact hx

/-- What is made and what is ahead are all the tasks of the innermost operation. -/
theorem Moment.made_append_ahead {mo : Moment} {todo : List Task} {outcome : Outcome} {below : List Activation}
    (called : mo.called? = mo.after.awaited?) (stack : mo.after.stack = ⟨todo, outcome⟩ :: below) :
    mo.made ++ mo.after.ahead = todo ++ below.flatMap Activation.ahead := by
  rw [made, called, Machine.awaited?, Machine.ahead, stack, List.flatMap_cons]
  cases todo with
  | nil => rfl
  | cons task rest => cases task <;> rfl

theorem Moment.called?_of_made {mo : Moment} {c : Call} (h : .call c ∈ mo.made) : mo.called? = some c := by
  obtain ⟨c', hc, heq⟩ := List.mem_map.1 h
  rw [← Task.call.inj heq]
  exact Option.mem_toList.1 hc

/-! ## What a moment does to the agenda -/

/-- What a moment does to the tasks that are not begun. -/
inductive Agenda (enc : Encoder) (mo : Moment) : Prop
  | begins {op : Operation} (asks : mo.op? = some op)
      (session : mo.after.session = (mo.before.session.begin enc mo.before.isAlive op).session)
      (ahead : mo.made ++ mo.after.ahead =
        (mo.before.session.begin enc mo.before.isAlive op).todo ++ mo.before.ahead)
  | performs {task : Task} {common : List Task} (unasked : mo.op? = none) (notCall : task.isCall = false)
      (session : mo.after.session = (mo.before.session.perform enc task).session)
      (before : mo.before.ahead = task :: common)
      (ahead : mo.made ++ mo.after.ahead = (mo.before.session.perform enc task).todo ++ common)
  | returns (unasked : mo.op? = none) (calm : Calm mo.before.session mo.after.session)
      (control : mo.after.session.goAwaySent = mo.before.session.goAwaySent ∧
        mo.after.session.goAwayReceived = mo.before.session.goAwayReceived ∧
        mo.after.session.primary = mo.before.session.primary)
      (ahead : mo.made ++ mo.after.ahead = mo.before.ahead)
  | breaks {gone : List Task} (unasked : mo.op? = none) (broken : mo.isBreak)
      (session : mo.after.session = mo.before.session) (made : mo.made = [])
      (before : mo.before.ahead = gone ++ mo.after.ahead)
  | drops {seq : Nat} (unasked : mo.op? = none) (dropped : mo.isDrop)
      (session : mo.after.session = mo.before.session.dropHandler seq) (made : mo.made = [])
      (ahead : mo.after.ahead = mo.before.ahead)

theorem agenda_of_next? {enc : Encoder} {m m' : Machine} {e : Event} (h : m.next? enc e = some m') :
    Agenda enc ⟨m, e, m'⟩ := by
  have haccept : ∀ (c : Call) (reply : Option Listener),
      (Machine.accept m.session c reply).goAwaySent = m.session.goAwaySent ∧
        (Machine.accept m.session c reply).goAwayReceived = m.session.goAwayReceived ∧
        (Machine.accept m.session c reply).primary = m.session.primary := by
    intro c reply
    unfold Machine.accept
    split <;> exact ⟨rfl, rfl, rfl⟩
  cases Machine.happens_of_next? h with
  | invoke op yields possible => exact .begins rfl rfl (Moment.made_append_ahead rfl rfl)
  | @tick task rest outcome below stack notCall =>
    have hbefore : m.ahead = task :: (rest ++ below.flatMap Activation.ahead) := by
      rw [Machine.ahead_of_stack stack, Activation.ahead_of_not_call notCall]
      rfl
    refine .performs rfl notCall rfl hbefore ?_
    rw [Moment.made_append_ahead rfl rfl, List.append_assoc]
  | answer reply stack =>
    refine .returns rfl (.accept _ _ _) (haccept _ _) ?_
    rw [Moment.made_append_ahead rfl rfl]
    exact (Machine.ahead_of_stack stack).symm
  | caught p stack tell =>
    refine .returns rfl (.accept _ _ _) (haccept _ _) ?_
    rw [Moment.made_append_ahead rfl rfl]
    exact (Machine.ahead_of_stack stack).symm
  | @broken p c rest outcome below stack notTell =>
    refine .breaks rfl ?_ rfl rfl (show m.ahead = rest ++ _ from Machine.ahead_of_stack stack)
    simp only [Moment.isBreak, Machine.awaited?_of_stack stack]
    cases c with
    | tell => cases notTell
    | _ => rfl
  | leave stack => exact .returns rfl (.refl _) ⟨rfl, rfl, rfl⟩ (Machine.ahead_of_stack stack).symm
  | edit e yields => exact .returns rfl (.edit m.session e) (by cases e <;> exact ⟨rfl, rfl, rfl⟩) rfl
  | drop seq yields => exact .drops rfl rfl rfl rfl rfl

section Calls

variable {enc : Encoder} {m m' : Machine}

/-- A call that comes first of an operation is made when it begins. -/
theorem called?_of_begin {op : Operation} (h : m.next? enc (.invoke op) = some m') {c : Call}
    (htodo : (m.session.begin enc m.isAlive op).todo.head? = some (.call c)) :
    Moment.called? ⟨m, .invoke op, m'⟩ = some c := by
  cases Machine.happens_of_next? h with
  | invoke op yields possible =>
    obtain ⟨rest, hrest⟩ := List.head?_eq_some_iff.1 htodo
    show Machine.awaited? _ = some c
    rw [hrest]
    rfl

/-- A call that is ahead stays so until it is made, unless the controller breaks off. -/
theorem call_of_agenda {mo : Moment} (agenda : Agenda enc mo) (unbroken : mo.isBreak = false) {c : Call}
    (hc : .call c ∈ mo.before.ahead) : mo.called? = some c ∨ .call c ∈ mo.after.ahead := by
  suffices hmem : .call c ∈ mo.made ++ mo.after.ahead from
    (List.mem_append.1 hmem).imp_left Moment.called?_of_made
  cases agenda with
  | begins asks session ahead =>
    rw [ahead]
    exact List.mem_append_right _ hc
  | performs unasked notCall session before ahead =>
    rw [before, List.mem_cons] at hc
    rw [ahead]
    refine List.mem_append_right _ (hc.resolve_left fun heq => ?_)
    rw [← heq] at notCall
    cases notCall
  | returns unasked calm control ahead =>
    rw [ahead]
    exact hc
  | breaks unasked broken => cases unbroken.symm.trans broken
  | drops unasked dropped session made ahead =>
    rw [ahead]
    exact List.mem_append_right _ hc

end Calls

/-! ## What calls cost -/

def expense (cost : Task → Nat) (tasks : List Task) : Nat := (tasks.map cost).sum

section Expense

variable {cost : Task → Nat}

@[simp] theorem expense_nil : expense cost [] = 0 := rfl

@[simp] theorem expense_cons (task : Task) (tasks : List Task) :
    expense cost (task :: tasks) = cost task + expense cost tasks := rfl

@[simp] theorem expense_append (tasks tasks' : List Task) :
    expense cost (tasks ++ tasks') = expense cost tasks + expense cost tasks' := by
  rw [expense, List.map_append, List.sum_append, ← expense, ← expense]

theorem expense_eq_zero {tasks : List Task} (h : ∀ x ∈ tasks, cost x = 0) : expense cost tasks = 0 := by
  induction tasks with
  | nil => rfl
  | cons x tasks ih =>
    rw [expense_cons, h x List.mem_cons_self, ih fun y hy => h y (List.mem_cons_of_mem _ hy)]

theorem expense_of_agenda {enc : Encoder} {mo : Moment} {income : Nat} (agenda : Agenda enc mo)
    (spread : ∀ task, task.isCall = false →
      expense cost (mo.before.session.perform enc task).todo ≤ cost task)
    (pays : ∀ op, mo.op? = some op →
      expense cost (mo.before.session.begin enc mo.before.isAlive op).todo ≤ income) :
    expense cost mo.made + expense cost mo.after.ahead ≤ expense cost mo.before.ahead + income := by
  rw [← expense_append]
  cases agenda with
  | begins asks session ahead =>
    rw [ahead, expense_append, Nat.add_comm]
    exact Nat.add_le_add_left (pays _ asks) _
  | @performs task common unasked notCall session before ahead =>
    rw [ahead, before, expense_append, expense_cons]
    exact Nat.le_add_right_of_le (Nat.add_le_add_right (spread task notCall) _)
  | returns unasked calm control ahead =>
    rw [ahead]
    exact Nat.le_add_right _ _
  | breaks unasked broken session made before =>
    rw [made, List.nil_append, before, expense_append]
    exact Nat.le_add_right_of_le (Nat.le_add_left _ _)
  | drops unasked dropped session made ahead =>
    rw [made, ahead]
    exact Nat.le_add_right _ _

/-- The calls that were made, and those that are going to be made, cost no more than the operations bring in. -/
theorem expense_of_run (cost : Task → Nat) (income : Moment → Nat) {enc : Encoder} {s : Session}
    {past : List Moment} {m : Machine} (run : Run enc { session := s } past m)
    (spread : ∀ mo ∈ past, ∀ task, task.isCall = false →
      expense cost (mo.before.session.perform enc task).todo ≤ cost task)
    (pays : ∀ mo ∈ past, ∀ op, mo.op? = some op →
      expense cost (mo.before.session.begin enc mo.before.isAlive op).todo ≤ income mo) :
    expense cost ((calls past).map .call) + expense cost m.ahead ≤ (past.map income).sum := by
  induction run with
  | start => exact Nat.le_refl _
  | @next past m m' e run h ih =>
    have hold := ih (fun mo hmo => spread mo (List.mem_append_left _ hmo))
      fun mo hmo => pays mo (List.mem_append_left _ hmo)
    have hstep : expense cost (Moment.made ⟨m, e, m'⟩) + expense cost m'.ahead ≤
        expense cost m.ahead + income ⟨m, e, m'⟩ :=
      expense_of_agenda (agenda_of_next? h) (spread _ (List.mem_append_right _ List.mem_cons_self))
        (pays _ (List.mem_append_right _ List.mem_cons_self))
    rw [calls_append, expense_append, List.map_append, List.sum_append, List.map_singleton, List.sum_singleton]
    omega

end Expense

end Spdy
