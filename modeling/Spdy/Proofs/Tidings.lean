import Mathlib.Algebra.Ring.Nat
import Spdy.Proofs.Census

/-!
# Telling of streams that come and go

Listeners are told one after another, and while one of them is told anything may happen. So there is an
account of who was told and who is still to be told.

* `Hushed`, `Voiced` : what is left of an operation that tells of a stream, between two calls and in a call;
* `Machine.due` : how often a listener is still to be told something; `Moment.tells` : it is told;
* `Moment.Creates` : a stream comes; `Change` : what a moment does to the table;
* `Reported`, `reported_of_next?` : and the account that is kept of it.
-/

namespace Spdy

/-! ## Accounts -/

def Task.due (l : Listener) (n : Notice) : Task → Nat
  | .tell listeners notice => if notice = n then listeners.count l else 0
  | _ => 0

def dueOf (l : Listener) (n : Notice) (todo : List Task) : Nat := (todo.map (Task.due l n)).sum

/-- How often the operations in progress are to tell a listener something. -/
def Machine.due (m : Machine) (l : Listener) (n : Notice) : Nat := dueOf l n m.tasks

def Moment.tells (mo : Moment) (l : Listener) (n : Notice) : Bool := mo.called? == some (.tell l n)

section Due

variable {l : Listener} {n : Notice} {todo todo' : List Task}

@[simp] theorem dueOf_nil : dueOf l n [] = 0 := rfl

@[simp] theorem dueOf_cons (x : Task) : dueOf l n (x :: todo) = x.due l n + dueOf l n todo := by
  simp [dueOf]

@[simp] theorem dueOf_append : dueOf l n (todo ++ todo') = dueOf l n todo + dueOf l n todo' := by
  simp [dueOf]

theorem Task.due_of_not_life {x : Task} (hn : n.isLife) (h : x.isLife = false) : x.due l n = 0 := by
  cases x with
  | tell listeners notice =>
    refine if_neg ?_
    rintro rfl
    rw [isLife, hn] at h
    cases h
  | _ => rfl

theorem dueOf_mute (hn : n.isLife) (h : Mute todo) : dueOf l n todo = 0 := by
  induction todo with
  | nil => rfl
  | cons x todo ih =>
    have hmute := without_cons.1 h
    rw [dueOf_cons, Task.due_of_not_life hn hmute.1, ih hmute.2]

theorem Machine.due_of_stack {m : Machine} {a : Activation} {below : List Activation}
    (h : m.stack = a :: below) : m.due l n = dueOf l n a.todo + dueOf l n (below.flatMap Activation.todo) := by
  rw [due, tasks_of_stack h, dueOf_append]

end Due

/-! ## Operations that tell -/

/-- What is left of an operation between two calls: if it tells of a stream, it does so next. -/
inductive Hushed : List Task → Prop
  | mute {todo : List Task} (h : Mute todo) : Hushed todo
  | telling {listeners : List Listener} {notice : Notice} {rest : List Task} (h : Mute rest) :
      Hushed (.tell listeners notice :: rest)

/-- What is left of an operation: if it tells of a stream, it does so now or next. -/
inductive Voiced : List Task → Prop
  | hushed {todo : List Task} (h : Hushed todo) : Voiced todo
  | waiting {l : Listener} {listeners : List Listener} {notice : Notice} {rest : List Task}
      (h : Mute rest) : Voiced (.call (.tell l notice) :: .tell listeners notice :: rest)

def Machine.Voiced (m : Machine) : Prop := ∀ a ∈ m.stack, Spdy.Voiced a.todo

theorem Hushed.append {todo more : List Task} (h : Hushed todo) (hm : Mute more) :
    Hushed (todo ++ more) := by
  cases h with
  | mute h => exact .mute (without_append.2 ⟨h, hm⟩)
  | telling h => exact .telling (without_append.2 ⟨h, hm⟩)

theorem Voiced.tail {x : Task} {rest : List Task} (h : Voiced (x :: rest)) : Hushed rest := by
  cases h with
  | hushed h =>
    cases h with
    | mute h => exact .mute (without_cons.1 h).2
    | telling h => exact .mute h
  | waiting h => exact .telling h

/-- Nothing else is left to be told after a task that is not a call to a listener. -/
theorem Voiced.mute {x : Task} {rest : List Task} (h : Voiced (x :: rest))
    (hx : ∀ l n, x ≠ .call (.tell l n)) : Mute rest := by
  cases h with
  | hushed h =>
    cases h with
    | mute h => exact (without_cons.1 h).2
    | telling h => exact h
  | waiting h => exact absurd rfl (hx _ _)

theorem Voiced.tell_of_life {x : Task} {rest : List Task} (h : Voiced (x :: rest))
    (hcall : x.isCall = false) (hlife : x.isLife) : ∃ listeners n, x = .tell listeners n := by
  cases h with
  | hushed h =>
    cases h with
    | mute h =>
      rw [(without_cons.1 h).1] at hlife
      cases hlife
    | telling h => exact ⟨_, _, rfl⟩
  | waiting h => cases hcall

namespace Machine.Voiced

variable {m m' : Machine} {todo : List Task} {outcome : Outcome} {below : List Activation}

theorem head (h : m.Voiced) (hstack : m.stack = ⟨todo, outcome⟩ :: below) : Spdy.Voiced todo :=
  h ⟨todo, outcome⟩ (by rw [hstack]; exact List.mem_cons_self)

theorem replace {todo' : List Task} (h : m.Voiced) (hstack : m.stack = ⟨todo, outcome⟩ :: below)
    {outcome' : Outcome} (hstack' : m'.stack = ⟨todo', outcome'⟩ :: below) (htodo : Spdy.Voiced todo') :
    m'.Voiced := by
  intro a ha
  rw [hstack'] at ha
  rcases List.mem_cons.1 ha with rfl | ha
  · exact htodo
  · exact h a (by rw [hstack]; exact List.mem_cons_of_mem _ ha)

end Machine.Voiced

theorem Moment.tells_eq_false {mo : Moment} {l : Listener} {n : Notice} {todo : List Task}
    {outcome : Outcome} {below : List Activation} (hstack : mo.after.stack = ⟨todo, outcome⟩ :: below)
    (h : Hushed todo) (hn : n.isLife) : mo.tells l n = false := by
  have hawaited : mo.after.awaited? ≠ some (.tell l n) := by
    intro ha
    obtain ⟨rest, outcome', below', hs⟩ := Machine.stack_of_awaited? ha
    rw [hstack] at hs
    obtain ⟨hactivation, -⟩ := List.cons.inj hs
    cases hactivation
    cases h with
    | mute h =>
      have hlife : n.isLife = false := (without_cons.1 h).1
      rw [hn] at hlife
      cases hlife
  unfold tells called?
  split
  all_goals simp [hawaited]

/-! ## What a moment does to the table -/

/-- The id that the moment uses for a new stream, even if none comes of it. -/
def Moment.opens? (mo : Moment) : Option UInt32 := mo.op?.bind (·.opens? mo.before.session)

/-- A new stream comes into the table, in place of one of the same id. -/
structure Moment.Creates (mo : Moment) (r : StreamRef) : Prop where
  new : r = mo.before.session.nextRef
  size : mo.after.session.streams.size = mo.before.session.streams.size + 1
  opens : mo.opens? = some (mo.after.session.idOf r)
  table : mo.after.session.table =
    mo.before.session.table.filter (mo.before.session.idOf · != mo.after.session.idOf r) ++ [r]

/-- What a moment does to the table, and what the listeners are to be told of it. -/
inductive Change (mo : Moment) : Option Notice → Prop
  | same (table : mo.after.session.table = mo.before.session.table)
      (size : mo.after.session.streams.size = mo.before.session.streams.size) : Change mo none
  | born {r : StreamRef} (creates : mo.Creates r) : Change mo (some (.created r))
  | gone {q : StreamRef} (known : q.serial < mo.before.session.streams.size)
      (cause : q ∈ mo.before.session.table ∨
        .reclaim q ∈ mo.before.tasks ∧ (mo.before.session.stream q).isClosed)
      (mem : ∃ x ∈ mo.before.session.table, mo.before.session.idOf x = mo.before.session.idOf q)
      (ended : (mo.after.session.stream q).isClosed ∨ (mo.after.session.stream q).reset)
      (table : mo.after.session.table =
        mo.before.session.table.filter (mo.before.session.idOf · != mo.before.session.idOf q))
      (size : mo.after.session.streams.size = mo.before.session.streams.size) :
      Change mo (some (.closed q))
  | lost {id : UInt32} (opens : mo.opens? = some id)
      (table : mo.after.session.table = mo.before.session.table.filter (mo.before.session.idOf · != id))
      (size : mo.after.session.streams.size = mo.before.session.streams.size) : Change mo none

theorem Change.creates {mo : Moment} {news : Option Notice} {r : StreamRef} (h : Change mo news)
    (new : mo.before.session.streams.size ≤ r.serial)
    (known : r.serial < mo.after.session.streams.size) : mo.Creates r := by
  cases h with
  | same table size => omega
  | lost opens table size => omega
  | gone known cause mem ended table size => omega
  | born creates =>
    have hsize := creates.size
    have heq : r = mo.before.session.nextRef := by
      cases r
      simp only [Session.nextRef, StreamRef.mk.injEq] at new known ⊢
      omega
    rw [heq]
    exact creates.new ▸ creates

theorem Change.news_of_creates {mo : Moment} {news : Option Notice} {r : StreamRef} (h : Change mo news)
    (creates : mo.Creates r) : news = some (.created r) := by
  have hsize := creates.size
  cases h with
  | same table size => omega
  | lost opens table size => omega
  | gone known cause mem ended table size => omega
  | born creates' => rw [creates.new, creates'.new]

/-- The work of a moment leaves a task to tell what it does to the table. -/
theorem Census.change (mo : Moment) {own? : Option StreamRef} {p : Progress}
    (c : Census mo.before.session mo.op? own? p) (hsession : mo.after.session = p.session)
    (hown : ∀ q, own? = some q → .reclaim q ∈ mo.before.tasks) :
    Hushed p.todo ∧ ∃ news, Change mo news ∧ ∀ l n, n.isLife →
      dueOf l n p.todo = if news = some n then mo.before.session.streamListeners.count l else 0 := by
  cases c with
  | same table size mute =>
    refine ⟨.mute mute, none, .same (by rw [hsession, table]) (by rw [hsession, size]), fun l n hn => ?_⟩
    rw [dueOf_mute hn mute]
    rfl
  | lost opens table size mute =>
    refine ⟨.mute mute, none, .lost opens (by rw [hsession, table]) (by rw [hsession, size]),
      fun l n hn => ?_⟩
    rw [dueOf_mute hn mute]
    rfl
  | born opens table size id todo mute =>
    subst id
    rw [todo]
    refine ⟨.telling mute, _, .born ⟨rfl, by rw [hsession, size], by rw [hsession]; exact opens,
      by rw [hsession, table]⟩, fun l n hn => ?_⟩
    rw [dueOf_cons, dueOf_mute hn mute]
    simp [Task.due]
  | gone known cause mem ended table size todo mute =>
    rw [todo]
    refine ⟨.telling mute, _, .gone known (cause.imp_right fun h => ⟨hown _ h.1, h.2⟩) mem
      (by rw [hsession]; exact ended) (by rw [hsession, table]) (by rw [hsession, size]),
      fun l n hn => ?_⟩
    rw [dueOf_cons, dueOf_mute hn mute]
    simp [Task.due]

theorem Session.table_accept (s : Session) (c : Call) (reply : Option Listener) :
    (Machine.accept s c reply).table = s.table ∧
      (Machine.accept s c reply).streams.size = s.streams.size := by
  unfold Machine.accept
  split
  · exact ⟨rfl, size_update _ _ _⟩
  · exact ⟨rfl, rfl⟩

/-- What a moment does to the table is told: what the listeners are told now and are still to be told is what
they were to be told before, and the news. -/
structure Reported (mo : Moment) (news : Option Notice) : Prop where
  change : Change mo news
  voiced : mo.after.Voiced
  account : ∀ l n, n.isLife → (mo.tells l n).toNat + mo.after.due l n =
    mo.before.due l n + if news = some n then mo.before.session.streamListeners.count l else 0

theorem Reported.idle {mo : Moment} (table : mo.after.session.table = mo.before.session.table)
    (size : mo.after.session.streams.size = mo.before.session.streams.size) (voiced : mo.after.Voiced)
    (tells : ∀ l n, n.isLife → mo.tells l n = false)
    (due : ∀ l n, n.isLife → mo.after.due l n = mo.before.due l n) : Reported mo none := by
  refine ⟨.same table size, voiced, fun l n hn => ?_⟩
  rw [tells l n hn, due l n hn, if_neg (by simp)]
  exact Nat.zero_add _

section Moment

variable {cap : Nat} {m m' : Machine} {e : Event} {task : Task} {rest : List Task} {outcome : Outcome}
  {below : List Activation}

theorem reported_of_invoke (tidy : m.session.Tidy) (voiced : m.Voiced) (op : Operation) :
    ∃ news, Reported ⟨m, .invoke op, (m.invoke (.standard cap) op).1⟩ news := by
  have hcensus : Census m.session (some op) none
      (m.session.begin (.standard cap) m.isAlive op).toProgress :=
    m.session.begin_census (.standard cap) tidy m.isAlive op
  obtain ⟨hhushed, news, hchange, hdue⟩ :=
    Census.change ⟨m, .invoke op, (m.invoke (.standard cap) op).1⟩ hcensus rfl nofun
  refine ⟨news, hchange, fun a ha => ?_, fun l n hn => ?_⟩
  · rcases List.mem_cons.1 ha with rfl | ha
    · exact .hushed hhushed
    · exact voiced a ha
  · have hafter := Machine.due_of_stack (m := (m.invoke (.standard cap) op).1) (l := l) (n := n) rfl
    rw [Moment.tells_eq_false rfl hhushed hn, hafter]
    show 0 + (_ + m.due l n) = m.due l n + _
    rw [Nat.zero_add, Nat.add_comm]
    exact congrArg _ (hdue l n hn)

theorem reported_of_tick (tidy : m.session.Tidy) (voiced : m.Voiced)
    (stack : m.stack = ⟨task :: rest, outcome⟩ :: below) (notCall : task.isCall = false)
    (hm' : m' = ⟨(m.session.perform (.standard cap) task).session,
      ⟨(m.session.perform (.standard cap) task).todo ++ rest, outcome⟩ :: below⟩) :
    ∃ news, Reported ⟨m, .tick, m'⟩ news := by
  have hvoiced := voiced.head stack
  have hrest : Mute rest := hvoiced.mute (by rintro l n rfl; cases notCall)
  have hstack' : m'.stack = ⟨(m.session.perform (.standard cap) task).todo ++ rest, outcome⟩ :: below := by
    rw [hm']
  have hsession : m'.session = (m.session.perform (.standard cap) task).session := by rw [hm']
  cases hlife : task.isLife with
  | false =>
    have hown : ∀ q, task.reclaims? = some q → .reclaim q ∈ m.tasks := by
      intro q hq
      rw [Machine.tasks_of_stack stack]
      cases task <;> cases hq
      exact List.mem_cons_self
    have hcensus : Census m.session none task.reclaims? (m.session.perform (.standard cap) task) :=
      m.session.perform_census tidy notCall hlife
    obtain ⟨hhushed, news, hchange, hdue⟩ := Census.change ⟨m, .tick, m'⟩ hcensus hsession hown
    have hhushed' := hhushed.append hrest
    refine ⟨news, hchange, voiced.replace stack hstack' (.hushed hhushed'), fun l n hn => ?_⟩
    have hdue := hdue l n hn
    have htask : task.due l n = 0 := Task.due_of_not_life hn hlife
    rw [Moment.tells_eq_false hstack' hhushed' hn, Machine.due_of_stack hstack',
      Machine.due_of_stack stack, dueOf_append, dueOf_cons]
    dsimp only at hdue ⊢
    rw [hdue, htask, Bool.toNat_false]
    omega
  | true =>
    obtain ⟨listeners, notice, rfl⟩ := hvoiced.tell_of_life notCall hlife
    cases listeners with
    | nil =>
      refine ⟨none, .idle (by rw [hsession]; rfl) (by rw [hsession]; rfl)
        (voiced.replace stack hstack' (.hushed (.mute hrest)))
        (fun l n hn => Moment.tells_eq_false hstack' (.mute hrest) hn) fun l n hn => ?_⟩
      rw [Machine.due_of_stack hstack', Machine.due_of_stack stack, dueOf_cons]
      simp [Session.perform, Task.due]
    | cons l' listeners =>
      refine ⟨none, .same (by rw [hsession]; rfl) (by rw [hsession]; rfl),
        voiced.replace stack hstack' (.waiting hrest), fun l n hn => ?_⟩
      have hawaited : m'.awaited? = some (.tell l' notice) := Machine.awaited?_of_stack hstack'
      rw [Moment.tells, Moment.called?, hawaited, Machine.due_of_stack hstack',
        Machine.due_of_stack stack, dueOf_cons]
      simp only [Session.perform, List.cons_append, List.nil_append, dueOf_cons, Task.due]
      by_cases hnotice : notice = n
      · subst hnotice
        by_cases hl : l' = l
        · subst hl
          simp
          omega
        · simp [hl]
      · simp [hnotice]

theorem reported_of_returned {c : Call} {reply : Option Listener} (voiced : m.Voiced)
    (stack : m.stack = ⟨.call c :: rest, outcome⟩ :: below)
    (hm' : m' = ⟨Machine.accept m.session c reply, ⟨rest, outcome⟩ :: below⟩) :
    Reported ⟨m, e, m'⟩ none := by
  have hrest : Hushed rest := (voiced.head stack).tail
  have hstack' : m'.stack = ⟨rest, outcome⟩ :: below := by rw [hm']
  obtain ⟨htable, hsize⟩ := m.session.table_accept c reply
  refine .idle (by rw [hm']; exact htable) (by rw [hm']; exact hsize)
    (voiced.replace stack hstack' (.hushed hrest))
    (fun l n hn => Moment.tells_eq_false hstack' hrest hn) fun l n hn => ?_
  rw [Machine.due_of_stack hstack', Machine.due_of_stack stack, dueOf_cons]
  show _ = 0 + _ + _
  rw [Nat.zero_add]

theorem reported_of_next? (h : m.next? (.standard cap) e = some m') (tidy : m.session.Tidy)
    (voiced : m.Voiced) : ∃ news, Reported ⟨m, e, m'⟩ news := by
  cases Machine.happens_of_next? h with
  | invoke op yields possible => exact reported_of_invoke tidy voiced op
  | tick stack notCall => exact reported_of_tick tidy voiced stack notCall rfl
  | answer reply stack => exact ⟨none, reported_of_returned voiced stack rfl⟩
  | caught p stack tell => exact ⟨none, reported_of_returned voiced stack rfl⟩
  | @broken p c rest outcome below stack notTell =>
    -- the controller breaks off, and what is left of its operation is not done
    have hrest : Mute rest := (voiced.head stack).mute (by rintro l n heq; cases heq; cases notTell)
    refine ⟨none, .idle rfl rfl (voiced.replace stack rfl (.hushed (.mute without_nil)))
      (fun l n hn => Moment.tells_eq_false rfl (.mute without_nil) hn) fun l n hn => ?_⟩
    rw [Machine.due_of_stack stack, dueOf_cons, dueOf_mute hn hrest,
      Machine.due_of_stack (a := ⟨[], .panicked p⟩) rfl]
    rfl
  | leave stack =>
    refine ⟨none, .idle rfl rfl
      (fun a ha => voiced a (by rw [stack]; exact List.mem_cons_of_mem _ ha)) (fun _ _ _ => rfl)
      fun l n hn => ?_⟩
    rw [Machine.due_of_stack stack, dueOf_nil, Nat.zero_add]
    rfl
  | edit e =>
    exact ⟨none, .idle (by cases e <;> rfl) (by cases e <;> rfl) voiced (fun _ _ _ => rfl)
      fun _ _ _ => rfl⟩
  | drop => exact ⟨none, .idle rfl rfl voiced (fun _ _ _ => rfl) fun _ _ _ => rfl⟩

end Moment

end Spdy
