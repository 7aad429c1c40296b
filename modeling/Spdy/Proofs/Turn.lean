import Spdy.Proofs.Leavings
import Spdy.Proofs.Speech

/-!
# What one moment comes to

* `Machine.Placed` : frames are handed over by the first task of an operation only (`placed_of_run`);
* `Moment.said?` : what is said on a stream by the call that is accepted in a moment;
* `Machine.Stems`, `stems_of_next?` : where the tasks come from that there are;
* `Task.settles` : the tasks that settle who starts the next write;
* `Turn`, `turn_of_next?` : what a moment comes to for the outbox, the writes in progress and the tasks:
  parcels are posted, a flush, the end of a write, a report, or trouble with the controller;
* `Handing`, `handing_of_turn` : what is handed over.
-/

namespace Spdy

theorem Task.not_write_of_plain {x : Task} (h : x.isPlain) : x.isWrite = false := by
  cases x with
  | call c => cases c <;> first | rfl | cases h
  | _ => rfl

/-! ## Where frames are handed over -/

/-- Only the first task of an operation hands a frame to the controller. -/
def Machine.Placed (m : Machine) : Prop := ∀ a ∈ m.stack, ∀ x ∈ a.todo.tail, x.isWrite = false

namespace Session

theorem report_of_possible {s : Session} {seq : Nat} (f : Session → Parcel → Progress)
    (h : s.outstanding.any (·.seq == seq)) :
    ∃ x ∈ s.outstanding, x.seq = seq ∧ s.report seq f = f (s.dropHandler seq) x.parcel := by
  obtain ⟨y, hy, hseq⟩ := List.any_eq_true.1 h
  cases hf : s.outstanding.find? (·.seq == seq) with
  | none => exact absurd hseq (List.find?_eq_none.1 hf y hy)
  | some x =>
    refine ⟨x, List.mem_of_find?_eq_some hf, ?_, ?_⟩
    · simpa using List.find?_some hf
    · simp only [report, hf]

variable (enc : Encoder) (s : Session)

theorem begin_not_write (alive : Bool) (op : Operation) : ∀ x ∈ (s.begin enc alive op).todo, x.isWrite = false := by
  intro x hx
  cases begin_leaves hx with
  | mourns h | wrote _ h => cases h <;> rfl
  | _ => rfl

theorem perform_tail_not_write {task : Task} (hcall : task.isCall = false) :
    ∀ x ∈ (s.perform enc task).todo.tail, x.isWrite = false := by
  cases task with
  | flush =>
    intro x hx
    rw [perform] at hx
    unfold flush at hx
    split at hx
    · cases hx
    · rw [write, List.tail_cons, List.mem_singleton] at hx
      rw [hx]
      rfl
    · dsimp only at hx
      split at hx
      · cases hx
      · split at hx
        · rw [write, List.tail_cons, List.mem_singleton] at hx
          rw [hx]
          rfl
        · cases hx
  | endWrite seq =>
    simp only [perform]
    split <;> simp
  | release =>
    simp only [perform]
    split <;> simp
  | call c => cases hcall
  | _ =>
    obtain ⟨new, -, h⟩ := s.perform_posts enc rfl (by simp) hcall
    exact fun x hx => Task.not_write_of_plain (h.plain x (List.mem_of_mem_tail hx))

end Session

/-- What comes after the first task of an operation is not of a kind, if it never is where an operation begins or a task
is done. -/
theorem tails_of_happens {enc : Encoder} {m m' : Machine} {e : Event} {kind : Task → Bool} (h : Happens enc m e m')
    (hbegin : ∀ op, ∀ x ∈ (m.session.begin enc m.isAlive op).todo.tail, kind x = false)
    (hperform : ∀ task ∈ m.tasks, task.isCall = false → ∀ x ∈ (m.session.perform enc task).todo.tail, kind x = false)
    (hm : ∀ a ∈ m.stack, ∀ x ∈ a.todo.tail, kind x = false) : ∀ a ∈ m'.stack, ∀ x ∈ a.todo.tail, kind x = false := by
  have hreturned : ∀ {task rest todo outcome outcome' below}, m.stack = ⟨task :: rest, outcome⟩ :: below →
      m'.stack = ⟨todo, outcome'⟩ :: below → todo ⊆ rest → ∀ a ∈ m'.stack, ∀ x ∈ a.todo.tail, kind x = false := by
    intro task rest todo outcome outcome' below hstack hstack' hsub a ha x hx
    rw [hstack'] at ha
    rcases List.mem_cons.1 ha with rfl | ha
    · exact hm ⟨task :: rest, outcome⟩ (by simp [hstack]) x (hsub (List.mem_of_mem_tail hx))
    · exact hm a (by simp [hstack, ha]) x hx
  cases h with
  | invoke op yields possible => exact List.forall_mem_cons.2 ⟨hbegin op, hm⟩
  | @tick task rest outcome below stack notCall =>
    refine List.forall_mem_cons.2 ⟨fun x hx => ?_, fun a ha => hm a (by simp [stack, ha])⟩
    have hrest : ∀ y ∈ rest, kind y = false := hm ⟨task :: rest, outcome⟩ (by simp [stack])
    have htail := hperform task (by simp [Machine.tasks, stack]) notCall
    cases hp : (m.session.perform enc task).todo with
    | nil =>
      simp only [hp, List.nil_append] at hx
      exact hrest x (List.mem_of_mem_tail hx)
    | cons y ys =>
      simp only [hp, List.cons_append, List.tail_cons, List.mem_append] at hx
      rw [hp] at htail
      exact hx.elim (htail x) (hrest x)
  | answer reply stack => exact hreturned stack rfl (List.Subset.refl _)
  | caught p stack tell => exact hreturned stack rfl (List.Subset.refl _)
  | broken p stack notTell => exact hreturned stack rfl (List.nil_subset _)
  | leave stack => exact fun a ha => hm a (by simp only [stack, List.mem_cons]; exact .inr ha)
  | edit => exact hm
  | drop => exact hm

theorem placed_of_happens {enc : Encoder} {m m' : Machine} {e : Event}
    (h : Happens enc m e m') (hm : m.Placed) : m'.Placed :=
  tails_of_happens h (fun op x hx => m.session.begin_not_write enc m.isAlive op x (List.mem_of_mem_tail hx))
    (fun _ _ notCall => m.session.perform_tail_not_write enc notCall) hm

theorem placed_of_run {enc : Encoder} {s : Session} {past : List Moment} {m : Machine}
    (run : Run enc { session := s } past m) : m.Placed := by
  induction run with
  | start => simp [Machine.Placed]
  | next _ h ih => exact placed_of_happens (Machine.happens_of_next? h) ih

/-! ## What is said and what is handed over -/

def Moment.op? (mo : Moment) : Option Operation :=
  match mo.event with
  | .invoke op => some op
  | _ => none

/-- What the call that is accepted in a moment says, and the stream on which it does. -/
def Moment.said? (mo : Moment) : Option (StreamRef × Speech) :=
  match mo.event with
  | .invoke op => mo.outcome?.bind op.speech?
  | _ => none

/-- The frame that work hands to the controller first of all. -/
def Progress.handed? (p : Progress) : Option (Bytes × Handler) :=
  match p.todo with
  | .call (.write bytes h) :: _ => some (bytes, h)
  | _ => none

theorem Progress.handed?_eq_none {p : Progress} (h : ∀ x ∈ p.todo, x.isWrite = false) :
    p.handed? = none := by
  unfold Progress.handed?
  split
  · rename_i todo
    have := h _ (todo ▸ List.mem_cons_self)
    cases this
  · rfl

theorem Progress.handed?_of_goes {p : Progress} (goes : Bool) (h : p.todo = if goes then [.flush] else []) :
    p.handed? = none := by
  rw [Progress.handed?, h]
  cases goes <;> rfl

namespace Moment

theorem handed?_eq_none {mo : Moment} {a : Activation} {below : List Activation}
    (hstack : mo.after.stack = a :: below) (h : ∀ x ∈ a.todo.head?, x.isWrite = false) :
    mo.handed? = none := by
  unfold handed?
  split
  · rename_i bytes handler hcalled
    have hawaited : mo.after.awaited? = some (.write bytes handler) := by
      unfold called? at hcalled
      split at hcalled <;> first | exact hcalled | cases hcalled
    obtain ⟨rest, outcome, below', hs⟩ := Machine.stack_of_awaited? hawaited
    rw [hs] at hstack
    obtain ⟨rfl, -⟩ := List.cons.inj hstack
    cases h _ rfl
  · rfl

theorem handed?_of_invoke (enc : Encoder) (m : Machine) (op : Operation) :
    handed? ⟨m, .invoke op, (m.invoke enc op).1⟩ = none :=
  handed?_eq_none rfl fun x hx => m.session.begin_not_write enc m.isAlive op x (List.mem_of_mem_head? hx)

/-- A task that is done hands over what its work does, and what follows it hands over nothing. -/
theorem handed?_of_tick {m m' : Machine} {p : Progress} {rest : List Task} {outcome : Outcome}
    {below : List Activation} (hstack : m'.stack = ⟨p.todo ++ rest, outcome⟩ :: below)
    (hrest : ∀ x ∈ rest, x.isWrite = false) : Moment.handed? ⟨m, .tick, m'⟩ = p.handed? := by
  cases htodo : p.todo with
  | nil =>
    have hnone : p.handed? = none := by rw [Progress.handed?, htodo]
    rw [hnone]
    refine handed?_eq_none hstack fun x hx => hrest x ?_
    rw [htodo, List.nil_append] at hx
    exact List.mem_of_mem_head? hx
  | cons x xs =>
    rw [htodo, List.cons_append] at hstack
    cases x with
    | call c =>
      have hawaited := Machine.awaited?_of_stack hstack
      cases c <;> simp [handed?, called?, Progress.handed?, hawaited, htodo]
    | _ =>
      have hnone : p.handed? = none := by rw [Progress.handed?, htodo]
      rw [hnone]
      refine handed?_eq_none hstack fun x hx => ?_
      rw [List.head?_cons, Option.mem_some_iff] at hx
      rw [← hx]
      rfl

/-- Nothing is said and nothing is handed over. -/
structure Silent (mo : Moment) : Prop where
  said : mo.said? = none
  handed : mo.handed? = none

end Moment

/-! ## The cases -/

def Task.settles : Task → Bool
  | .flush | .release | .endWrite _ => true
  | _ => false

/-- What a moment comes to for the outbox, the writes in progress and the tasks. -/
inductive Turn (cap : Nat) (mo : Moment) : Prop
  | plain {p : Progress} {new : List Parcel} {gone common : List Task}
      (work : Work mo.before.session mo.op? p new)
      (session : mo.after.session = p.session) (before : mo.before.tasks = gone ++ common)
      (after : mo.after.tasks = p.todo ++ common) (gone : ∀ x ∈ gone, x.settles = false)
      (said : Posted (.standard cap) mo.before.session mo.after.session mo.said? new)
      (handed : mo.handed? = none)
  | flush {p : Progress} {common : List Task} (work : Flushed cap mo.before.session p)
      (session : mo.after.session = p.session) (before : mo.before.tasks = .flush :: common)
      (after : mo.after.tasks = p.todo ++ common) (said : mo.said? = none)
      (handed : mo.handed? = p.handed?)
  | endWrite {seq : Nat} {common : List Task}
      (session : mo.after.session =
        { mo.before.session with outbox := (mo.before.session.outbox.endWrite seq).2 })
      (before : mo.before.tasks = .endWrite seq :: common)
      (after : mo.after.tasks =
        (if (mo.before.session.outbox.endWrite seq).1 then [.flush] else []) ++ common)
      (silent : mo.Silent)
  | release {common : List Task}
      (session : mo.after.session =
        { mo.before.session with outbox := mo.before.session.outbox.complete.2 })
      (before : mo.before.tasks = .release :: common)
      (after : mo.after.tasks =
        (if mo.before.session.outbox.complete.1 then [.flush] else []) ++ common)
      (silent : mo.Silent)
  | wrote {h : Handler} {p : Progress} (mem : h ∈ mo.before.session.outstanding)
      (work : Wrote (mo.before.session.dropHandler h.seq) h.parcel p)
      (session : mo.after.session = p.session) (after : mo.after.tasks = p.todo ++ mo.before.tasks)
      (silent : mo.Silent)
  | failed {h : Handler} (fails : mo.isFailure) (mem : h ∈ mo.before.session.outstanding)
      (session : mo.after.session =
        { mo.before.session.dropHandler h.seq with outbox := mo.before.session.outbox.clear })
      (after : mo.after.tasks = .call (.close false) :: mo.before.tasks) (silent : mo.Silent)
  | broken {gone common : List Task} (breaks : mo.isBreak)
      (session : mo.after.session = mo.before.session) (before : mo.before.tasks = gone ++ common)
      (after : mo.after.tasks = common) (silent : mo.Silent)
  | dropped {seq : Nat} (drops : mo.isDrop)
      (session : mo.after.session = mo.before.session.dropHandler seq)
      (after : mo.after.tasks = mo.before.tasks) (silent : mo.Silent)

theorem Machine.tasks_of_stack {m : Machine} {a : Activation} {below : List Activation}
    (h : m.stack = a :: below) : m.tasks = a.todo ++ below.flatMap Activation.todo := by
  rw [Machine.tasks, h, List.flatMap_cons]

/-- Where a task comes from that there is after an event. -/
inductive Machine.Stems (enc : Encoder) (m : Machine) (x : Task) : Event → Prop
  | stays {e : Event} (mem : x ∈ m.tasks) : m.Stems enc x e
  | begins {op : Operation} (possible : op.isPossible m.session)
      (mem : x ∈ (m.session.begin enc m.isAlive op).todo) : m.Stems enc x (.invoke op)
  | performs {task : Task} (known : task ∈ m.tasks) (notCall : task.isCall = false)
      (mem : x ∈ (m.session.perform enc task).todo) : m.Stems enc x .tick

theorem stems_of_next? {enc : Encoder} {m m' : Machine} {e : Event} (h : m.next? enc e = some m') {x : Task}
    (hx : x ∈ m'.tasks) : m.Stems enc x e := by
  -- a call that returned, or was broken off, leaves what comes after it at most
  have hreturned : ∀ {task rest todo outcome outcome' below}, m.stack = ⟨task :: rest, outcome⟩ :: below →
      m'.stack = ⟨todo, outcome'⟩ :: below → todo ⊆ rest → m.Stems enc x e := by
    intro task rest todo outcome outcome' below hstack hstack' hsub
    rw [Machine.tasks_of_stack hstack', List.mem_append] at hx
    refine .stays ?_
    rw [Machine.tasks_of_stack hstack, List.mem_append]
    exact hx.imp_left fun hx => List.mem_cons_of_mem _ (hsub hx)
  cases Machine.happens_of_next? h with
  | invoke op yields possible =>
    rw [Machine.tasks_of_stack rfl, List.mem_append] at hx
    rcases hx with hx | hx
    · exact .begins possible hx
    · exact .stays hx
  | @tick task rest outcome below stack notCall =>
    rw [Machine.tasks_of_stack rfl, List.append_assoc, List.mem_append] at hx
    rcases hx with hx | hx
    · refine .performs ?_ notCall hx
      rw [Machine.tasks_of_stack stack]
      exact List.mem_cons_self
    · refine .stays ?_
      rw [Machine.tasks_of_stack stack]
      exact List.mem_cons_of_mem _ hx
  | answer reply stack => exact hreturned stack rfl (List.Subset.refl _)
  | caught p stack tell => exact hreturned stack rfl (List.Subset.refl _)
  | broken p stack notTell => exact hreturned stack rfl (List.nil_subset _)
  | leave stack =>
    refine .stays ?_
    rw [Machine.tasks_of_stack stack]
    exact hx
  | edit => exact .stays hx
  | drop => exact .stays hx

/-- An operation that has more to do is not yet where it comes to with less. -/
theorem Machine.stack_ne_of_longer {m : Machine} {todo rest : List Task} {outcome outcome' : Outcome}
    {below : List Activation} (above : List Activation) (stack : m.stack = above ++ ⟨todo, outcome⟩ :: below)
    (longer : rest.length < todo.length) : m.stack ≠ ⟨rest, outcome'⟩ :: below := by
  intro hstack
  have hlength := congrArg (fun stack => (stack.flatMap Activation.todo).length) (stack.symm.trans hstack)
  simp only [List.flatMap_append, List.flatMap_cons, List.length_append] at hlength
  omega

theorem Machine.tasks_invoke (enc : Encoder) (m : Machine) (op : Operation) :
    (m.invoke enc op).1.tasks = (m.session.begin enc m.isAlive op).todo ++ m.tasks := by
  rw [Machine.tasks, Machine.invoke, List.flatMap_cons]
  rfl

theorem turn_of_invoke {cap : Nat} {m : Machine} {op : Operation}
    (possible : op.isPossible m.session) :
    Turn cap ⟨m, .invoke op, (m.invoke (.standard cap) op).1⟩ := by
  have hhanded := Moment.handed?_of_invoke (.standard cap) m op
  cases hr : op.isReport with
  | false =>
    obtain ⟨new, hposted, hwork⟩ := m.session.begin_work (.standard cap) m.isAlive hr possible
    exact .plain hwork rfl (List.nil_append _).symm (m.tasks_invoke _ op) (by simp) hposted
      hhanded
  | true =>
    cases op with
    | complete seq =>
      obtain ⟨h, hmem, rfl, heq⟩ := Session.report_of_possible Session.wrote possible
      have hbegin : (m.session.begin (.standard cap) m.isAlive (.complete h.seq)).toProgress =
          (m.session.dropHandler h.seq).wrote h.parcel := by
        rw [Session.begin, heq]
      refine .wrote (p := (m.session.begin (.standard cap) m.isAlive (.complete h.seq)).toProgress)
        hmem ?_ rfl (m.tasks_invoke _ _) ⟨rfl, hhanded⟩
      rw [hbegin]
      exact wrote_cases _ _
    | fail seq fault =>
      obtain ⟨h, hmem, rfl, heq⟩ :=
        Session.report_of_possible (fun s p => s.notWritten p fault) possible
      have hbegin :
          (m.session.begin (.standard cap) m.isAlive (.fail h.seq fault)).toProgress =
            (m.session.dropHandler h.seq).notWritten h.parcel fault := by
        rw [Session.begin, heq]
      refine .failed rfl hmem ?_ ?_ ⟨rfl, hhanded⟩
      · exact congrArg Progress.session hbegin
      · exact (m.tasks_invoke _ _).trans (congrArg (fun p : Progress => p.todo ++ m.tasks) hbegin)
    | _ => cases hr

theorem turn_of_tick {cap : Nat} {m m' : Machine} {task : Task} {rest : List Task}
    {outcome : Outcome} {below : List Activation} (stack : m.stack = ⟨task :: rest, outcome⟩ :: below)
    (notCall : task.isCall = false) (hrest : ∀ x ∈ rest, x.isWrite = false)
    (hm' : m' = ⟨(m.session.perform (.standard cap) task).session,
      ⟨(m.session.perform (.standard cap) task).todo ++ rest, outcome⟩ :: below⟩) :
    Turn cap ⟨m, .tick, m'⟩ := by
  have hbefore : m.tasks = task :: (rest ++ below.flatMap Activation.todo) := by
    rw [Machine.tasks_of_stack stack, List.cons_append]
  have hafter : m'.tasks = (m.session.perform (.standard cap) task).todo ++
      (rest ++ below.flatMap Activation.todo) := by
    rw [hm', Machine.tasks_of_stack rfl, List.append_assoc]
  have hhanded : Moment.handed? ⟨m, .tick, m'⟩ = (m.session.perform (.standard cap) task).handed? :=
    Moment.handed?_of_tick (by rw [hm']) hrest
  have hsession : m'.session = (m.session.perform (.standard cap) task).session := by rw [hm']
  have hplain : task.isPlain → task ≠ .flush → task.settles = false →
      Turn cap ⟨m, .tick, m'⟩ := by
    intro hp hf hs
    obtain ⟨new, hown, h⟩ := m.session.perform_posts (.standard cap) hp hf notCall
    refine .plain (.posts h) hsession (show m.tasks = [task] ++ _ from hbefore) hafter ?_ (.own hown) ?_
    · simpa using hs
    · rw [hhanded]
      exact Progress.handed?_eq_none fun x hx => Task.not_write_of_plain (h.plain x hx)
  cases task with
  | flush => exact .flush (flush_cases cap m.session) hsession hbefore hafter rfl hhanded
  | endWrite seq =>
    refine .endWrite hsession hbefore hafter ⟨rfl, ?_⟩
    rw [hhanded]
    exact Progress.handed?_of_goes _ rfl
  | release =>
    refine .release hsession hbefore hafter ⟨rfl, ?_⟩
    rw [hhanded]
    exact Progress.handed?_of_goes _ rfl
  | call c => cases notCall
  | _ => exact hplain rfl (by simp) rfl

theorem turn_of_returned {cap : Nat} {m m' : Machine} {e : Event} {c : Call} {reply : Option Listener}
    {rest : List Task} {outcome : Outcome} {below : List Activation}
    (stack : m.stack = ⟨.call c :: rest, outcome⟩ :: below) (hrest : ∀ x ∈ rest, x.isWrite = false)
    (hm' : m' = ⟨Machine.accept m.session c reply, ⟨rest, outcome⟩ :: below⟩)
    (hsaid : Moment.said? ⟨m, e, m'⟩ = none) : Turn cap ⟨m, e, m'⟩ := by
  have hafter : m'.tasks = rest ++ below.flatMap Activation.todo := by
    rw [hm', Machine.tasks_of_stack rfl]
  refine .plain (p := { session := m'.session }) (.posts (.of_calm ?_ (by simp))) rfl
    (show m.tasks = [.call c] ++ _ from Machine.tasks_of_stack stack) hafter (by simp [Task.settles])
    ?_ ?_
  · rw [hm']
    exact .accept m.session c reply
  · rw [hsaid]
    exact .own own_nil
  · exact Moment.handed?_eq_none (by rw [hm']) fun x hx => hrest x (List.mem_of_mem_head? hx)

theorem turn_of_calm {cap : Nat} {mo : Moment} (hcalm : Calm mo.before.session mo.after.session)
    (htasks : mo.after.tasks = mo.before.tasks) (silent : mo.Silent) : Turn cap mo := by
  refine .plain (p := { session := mo.after.session }) (.posts (.of_calm hcalm (by simp))) rfl
    (List.nil_append _).symm htasks (by simp) ?_ silent.handed
  rw [silent.said]
  exact .own own_nil

theorem turn_of_next? {cap : Nat} {m m' : Machine} {e : Event}
    (h : m.next? (.standard cap) e = some m') (placed : m.Placed) : Turn cap ⟨m, e, m'⟩ := by
  have hrest : ∀ {x rest outcome below}, m.stack = ⟨x :: rest, outcome⟩ :: below →
      ∀ y ∈ rest, y.isWrite = false := fun hs =>
    placed ⟨_ :: _, _⟩ (by rw [hs]; exact List.mem_cons_self)
  cases Machine.happens_of_next? h with
  | invoke op yields possible => exact turn_of_invoke possible
  | tick stack notCall => exact turn_of_tick stack notCall (hrest stack) rfl
  | answer reply stack => exact turn_of_returned stack (hrest stack) rfl rfl
  | caught p stack tell => exact turn_of_returned stack (hrest stack) rfl rfl
  | @broken p c rest outcome below stack notTell =>
    refine .broken ?_ rfl (show m.tasks = (.call c :: rest) ++ _ from Machine.tasks_of_stack stack) ?_
      ⟨rfl, ?_⟩
    · simp only [Moment.isBreak, Machine.awaited?_of_stack stack]
      cases c <;> first | rfl | cases notTell
    · rw [Machine.tasks_of_stack rfl, List.nil_append]
    · exact Moment.handed?_eq_none rfl (by simp)
  | leave stack =>
    refine turn_of_calm (.refl _) ?_ ⟨rfl, rfl⟩
    rw [Machine.tasks_of_stack stack, List.nil_append]
    rfl
  | edit e yields => exact turn_of_calm (.edit m.session e) rfl ⟨rfl, rfl⟩
  | drop seq yields => exact .dropped rfl rfl rfl ⟨rfl, rfl⟩

/-- What is handed over is a frame of a parcel that waits. Its write gets the next number and is outstanding. -/
structure Handing (cap : Nat) (mo : Moment) (bytes : Bytes) (x : Handler) : Prop where
  free : mo.before.session.outbox.busy = false
  framed : ∃ p ∈ mo.before.session.outbox.parcels, Framed cap mo.before.session p bytes x.parcel
  seq : x.seq = mo.before.session.outbox.writes + 1
  outstanding : x ∈ mo.after.session.outstanding

theorem handing_of_turn {cap : Nat} {mo : Moment} (turn : Turn cap mo) {bytes : Bytes} {x : Handler}
    (h : mo.handed? = some (bytes, x)) : Handing cap mo bytes x := by
  have hquiet : mo.handed? = none → Handing cap mo bytes x := fun hnone => nomatch hnone.symm.trans h
  cases turn with
  | plain work session before after hgone said handed => exact hquiet handed
  | flush work session before after said handed =>
    cases work with
    | idle => exact hquiet handed
    | drop => exact hquiet handed
    | hand free parcels blocked framed =>
      obtain ⟨rfl, rfl⟩ := Prod.mk.inj (Option.some.inj (handed.symm.trans h))
      refine ⟨free, ⟨_, ?_, framed⟩, rfl, ?_⟩
      · rw [parcels]
        exact List.mem_append_right _ List.mem_cons_self
      · rw [session]
        exact List.mem_append_right _ (List.mem_singleton_self _)
  | endWrite session before after silent => exact hquiet silent.handed
  | release session before after silent => exact hquiet silent.handed
  | wrote mem work session after silent => exact hquiet silent.handed
  | failed fails mem session after silent => exact hquiet silent.handed
  | broken breaks session before after silent => exact hquiet silent.handed
  | dropped drops session after silent => exact hquiet silent.handed

end Spdy
