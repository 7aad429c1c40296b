import Spdy.Proofs.Channel

/-!
# What the listener of a stream is told

Data of a stream that is open goes to the listener of the stream, at once. Who that is has been settled by then: the
frame that opened the stream was dealt with before the next one is received.

* `Task.isPersonal`, `begin_personal`, `perform_personal` : where calls to the listener of a stream come from;
* `Machine.Prompt` : the listener is told of data first of all (`prompt_of_run`);
* `Task.asks`, `Confined` : the question who is to be told, which is asked while a frame is dealt with;
* `heardData`, `dataOn` : the data that a listener is told, and the data that is received;
* `Hearing`, `hearing_of_run` : how they go together.
-/

namespace Spdy

/-! ## Calls to the listener of a stream -/

def Notice.isPersonal : Notice → Bool
  | opened .. | data .. => true
  | _ => false

namespace Task

def notice? : Task → Option Notice
  | call (.tell _ n) | tell _ n | announce n | tellRegistered n => some n
  | _ => none

/-- A task that is about the listener of a stream: to name it, or to tell it of data. -/
def isPersonal : Task → Bool
  | call (.tell _ n) | tell _ n | announce n | tellRegistered n => n.isPersonal
  | accept .. => true
  | _ => false

end Task

namespace Session

variable (enc : Encoder) (s : Session)

theorem Mourns.isPersonal {x : Task} (h : s.Mourns x) : x.isPersonal = false := by cases h <;> rfl

/-- A task about the listener of a stream comes from the frame that opens the stream or from data on it. -/
theorem begin_personal (alive : Bool) {op : Operation} {x : Task} (hx : x ∈ (s.begin enc alive op).todo)
    (personal : x.isPersonal) :
    (∃ got id opening, op = .receive got ∧ got.opening? = some id ∧ x = .accept s.nextRef opening ∧
        (s.begin enc alive op).session.streams.size = s.streams.size + 1) ∨
      ∃ f r l, op = .receive (.data f) ∧ s.goAwaySent = false ∧ s.find? f.streamId = some r ∧
        (s.stream r).listener = some l ∧ x = .call (.tell l (.data r ⟨f.payload, f.closes⟩)) := by
  cases begin_leaves hx with
  | mourns h => cases h.isPersonal.symm.trans personal
  | accept sent valid absent =>
    refine .inl ⟨_, _, _, rfl, rfl, rfl, ?_⟩
    simp [begin, receive, sent, receiveControl, receiveSyn, valid, absent]
  | data sent found listener => exact .inr ⟨_, _, _, rfl, sent, found, listener, rfl⟩
  | wrote _ h => cases h <;> cases personal
  | _ => cases personal

/-- A task is about the listener of a stream as the task that leaves it was, or asks who that is to be. -/
theorem perform_personal {cap : Nat} {task x : Task} (notCall : task.isCall = false)
    (hx : x ∈ (s.perform (.standard cap) task).todo) (personal : x.isPersonal) :
    (∃ n, n.isPersonal ∧ task.notice? = some n ∧ x.notice? = some n) ∨
      ∃ r opening l, task = .accept r opening ∧ x = .call (.tell l (.opened r opening)) := by
  cases perform_begets notCall hx with
  | mourns h => cases h.isPersonal.symm.trans personal
  | write | endWrite | reset => cases personal
  | first | others | primary | registered | round => exact .inl ⟨_, personal, rfl, rfl⟩
  | opened => exact .inr ⟨_, _, _, rfl, rfl⟩

end Session

/-! ## The listener is told at once -/

def Task.repeatsData : Task → Bool
  | tell _ (.data ..) | announce (.data ..) | tellRegistered (.data ..) => true
  | _ => false

def Task.isDataCall : Task → Bool
  | call (.tell _ (.data ..)) => true
  | _ => false

structure Machine.Prompt (m : Machine) : Prop where
  single : ∀ x ∈ m.tasks, x.repeatsData = false
  first : ∀ a ∈ m.stack, ∀ x ∈ a.todo.tail, x.isDataCall = false

section Prompt

variable {cap : Nat} {m m' : Machine} {e : Event}

/-- Work that is left does not begin with a call that tells of data. -/
theorem perform_isDataCall {s : Session} {task x : Task} (notCall : task.isCall = false)
    (single : task.repeatsData = false) (hx : x ∈ (s.perform (.standard cap) task).todo) :
    x.isDataCall = false ∧ x.repeatsData = false := by
  cases Session.perform_begets notCall hx with
  | mourns h => cases h <;> exact ⟨rfl, rfl⟩
  | write | endWrite | reset | opened => exact ⟨rfl, rfl⟩
  | @first l rest n | @others l rest n | @primary l n | @registered n | @round n =>
    cases n <;> first | exact ⟨rfl, rfl⟩ | cases single

theorem begin_single {s : Session} (alive : Bool) {op : Operation} {x : Task}
    (hx : x ∈ (s.begin (.standard cap) alive op).todo) : x.repeatsData = false := by
  cases Session.begin_leaves hx with
  | mourns h | wrote _ h => cases h <;> rfl
  | _ => rfl

theorem todo_of_data {enc : Encoder} {s : Session} (alive : Bool) {f : DataFrame} {r : StreamRef} {l : Listener}
    (sent : s.goAwaySent = false) (hfind : s.find? f.streamId = some r) (hlistener : (s.stream r).listener = some l) :
    (s.begin enc alive (.receive (.data f))).todo =
      [.call (.tell l (.data r ⟨f.payload, f.closes⟩)), .flush, .reclaim r] := by
  simp only [Session.begin, Session.receive, sent, Bool.false_eq_true, if_false, Session.receiveData, hfind,
    Session.receiveOn, Session.tellListener]
  have hsame : ((if f.closes then s.closeRemote r else s).stream r).listener = some l := by
    split
    · exact (s.map_stream_update (·.listener) _ r rfl).trans hlistener
    · exact hlistener
  rw [hsame]
  rfl

theorem begin_first {s : Session} (alive : Bool) {op : Operation} {x : Task}
    (hx : x ∈ (s.begin (.standard cap) alive op).todo.tail) : x.isDataCall = false := by
  cases Session.begin_leaves (List.mem_of_mem_tail hx) with
  | mourns h | wrote _ h => cases h <;> rfl
  | data sent found listener =>
    rw [todo_of_data alive sent found listener] at hx
    simp at hx
  | _ => rfl

theorem prompt_of_next? (h : m.next? (.standard cap) e = some m') (hm : m.Prompt) : m'.Prompt where
  single := by
    intro x hx
    cases stems_of_next? h hx with
    | stays mem => exact hm.single x mem
    | begins possible mem => exact begin_single m.isAlive mem
    | performs known notCall mem => exact (perform_isDataCall notCall (hm.single _ known) mem).2
  first := tails_of_happens (Machine.happens_of_next? h) (fun op x hx => begin_first m.isAlive hx)
    (fun task known notCall x hx => (perform_isDataCall notCall (hm.single task known) (List.mem_of_mem_tail hx)).1)
    hm.first

theorem prompt_of_run {s : Session} {past : List Moment} (run : Run (.standard cap) { session := s } past m) :
    m.Prompt := by
  induction run with
  | start => exact ⟨fun x hx => absurd hx List.not_mem_nil, fun a ha => absurd ha List.not_mem_nil⟩
  | next run h ih => exact prompt_of_next? h ih

end Prompt

/-! ## Data that is told -/

def dataTold (q : StreamRef) : Option Call → Bytes
  | some (.tell _ (.data r payload)) => if r = q then payload.bytes else []
  | _ => []

/-- The data that the listener of a stream was told of. -/
def heardData (q : StreamRef) (past : List Moment) : Bytes := past.flatMap fun mo => dataTold q mo.called?

def Received.dataOn (id : UInt32) : Received → Bytes
  | data f => if f.streamId = id then f.payload else []
  | _ => []

def dataOn (id : UInt32) (letters : List Received) : Bytes := letters.flatMap (·.dataOn id)

theorem heardData_append (q : StreamRef) (past : List Moment) (mo : Moment) :
    heardData q (past ++ [mo]) = heardData q past ++ dataTold q mo.called? := by
  simp [heardData]

theorem dataOn_append (id : UInt32) (letters more : List Received) :
    dataOn id (letters ++ more) = dataOn id letters ++ dataOn id more :=
  List.flatMap_append

theorem dataOn_eq_nil {id : UInt32} {letters : List Received}
    (h : ∀ got ∈ letters, got.isData → got.streamId? ≠ some id) : dataOn id letters = [] := by
  refine List.flatMap_eq_nil_iff.2 fun got hgot => ?_
  cases got with
  | data f => exact if_neg fun he => h _ hgot rfl (congrArg some he)
  | _ => rfl

section Told

variable {cap : Nat} {m m' : Machine} {e : Event}

def Machine.Tells (m : Machine) (e : Event) (f : DataFrame) (r : StreamRef) (l : Listener) : Prop :=
  e = .invoke (.receive (.data f)) ∧ m.session.goAwaySent = false ∧ m.session.find? f.streamId = some r ∧
    (m.session.stream r).listener = some l

theorem called?_of_tells {f : DataFrame} {r : StreamRef} {l : Listener} (happens : Happens (.standard cap) m e m')
    (h : m.Tells e f r l) : Moment.called? ⟨m, e, m'⟩ = some (.tell l (.data r ⟨f.payload, f.closes⟩)) := by
  obtain ⟨rfl, sent, hfind, hlistener⟩ := h
  cases happens with
  | invoke op yields possible =>
    show Machine.awaited? ⟨_, ⟨(m.session.begin (.standard cap) m.isAlive (.receive (.data f))).todo, _⟩ :: _⟩ = _
    rw [todo_of_data m.isAlive sent hfind hlistener]
    rfl

/-- The listener is told of data only when the data is received. -/
theorem tells_of_called? {l : Listener} {r : StreamRef} {payload : Payload} (happens : Happens (.standard cap) m e m')
    (hm : m.Prompt) (h : Moment.called? ⟨m, e, m'⟩ = some (.tell l (.data r payload))) :
    ∃ f, m.Tells e f r l ∧ payload = ⟨f.payload, f.closes⟩ := by
  have hfirst : ∀ {task rest outcome below}, m.stack = ⟨task :: rest, outcome⟩ :: below →
      .call (.tell l (.data r payload)) ∉ rest := by
    intro task rest outcome below hstack hmem
    cases hm.first ⟨task :: rest, outcome⟩ (by simp [hstack]) _ hmem
  have hhead : ∀ {a : Activation} {below : List Activation}, m'.stack = a :: below → m'.awaited? =
      some (.tell l (.data r payload)) → .call (.tell l (.data r payload)) ∈ a.todo := by
    intro a below hstack hawaited
    obtain ⟨rest, outcome, below', hstack'⟩ := Machine.stack_of_awaited? hawaited
    obtain ⟨rfl, -⟩ := List.cons.inj (hstack.symm.trans hstack')
    exact List.mem_cons_self
  cases happens with
  | invoke op yields possible =>
    have hmem := hhead rfl h
    rcases m.session.begin_personal _ m.isAlive hmem rfl with
      ⟨_, _, _, -, -, heq, -⟩ | ⟨f, r', l', rfl, sent, hfind, hlistener, heq⟩
    · cases heq
    · cases heq
      exact ⟨f, ⟨rfl, sent, hfind, hlistener⟩, rfl⟩
  | @tick task rest outcome below stack notCall =>
    rcases List.mem_append.1 (hhead rfl h) with hmem | hmem
    · have hsingle : task.repeatsData = false := hm.single task (by
        rw [Machine.tasks_of_stack stack]
        exact List.mem_cons_self)
      cases (perform_isDataCall notCall hsingle hmem).1
    · exact absurd hmem (hfirst stack)
  | answer reply stack => exact absurd (hhead rfl h) (hfirst stack)
  | caught p stack tell => exact absurd (hhead rfl h) (hfirst stack)
  | broken p stack notTell => exact absurd (hhead rfl h) List.not_mem_nil
  | leave stack => cases h
  | edit => cases h
  | drop => cases h

end Told

/-! ## The question who is to be told -/

/-- A task that has to do with the question who is the listener of a stream. -/
def Task.asks (q : StreamRef) (x : Task) : Bool :=
  match x with
  | .accept r _ => r == q
  | .call (.tell _ (.opened r _)) | .tell _ (.opened r _) | .announce (.opened r _) | .tellRegistered (.opened r _) =>
    r == q
  | _ => false

theorem Task.isPersonal_of_asks {q : StreamRef} {x : Task} (h : x.asks q) : x.isPersonal := by
  unfold asks at h
  split at h <;> first | rfl | cases h

theorem Task.asks_of_notice? {q : StreamRef} {x y : Task} {n : Notice} (hx : x.notice? = some n)
    (hy : y.notice? = some n) (h : x.asks q) : y.asks q := by
  unfold notice? at hx
  split at hx <;> cases hx <;> unfold notice? at hy <;> split at hy <;> cases hy <;> cases n <;> exact h

def Confined (kind : Task → Bool) (ok : Operation → Bool) (ops : List Operation) (m : Machine) : Prop :=
  ∀ a op, (a, op) ∈ m.stack.zip ops → ∀ x ∈ a.todo, kind x → ok op

section Confined

variable {cap : Nat} {m m' : Machine} {e : Event} {kind : Task → Bool} {ok : Operation → Bool} {ops : List Operation}

/-- If operations begin with tasks of the kind only if they are right for them, and such tasks come of such tasks only,
they stay where they belong. -/
theorem Confined.next (hm : Confined kind ok ops m) (h : Happens (.standard cap) m e m')
    (hlen : ops.length = m.stack.length)
    (hbegin : ∀ {op x}, x ∈ (m.session.begin (.standard cap) m.isAlive op).todo → kind x → ok op)
    (hperform : ∀ {task x}, task.isCall = false → x ∈ (m.session.perform (.standard cap) task).todo → kind x →
      kind task) : Confined kind ok (e.track ops) m' := by
  have hpursues := pursues_of_happens h hlen
  unfold Confined at hm ⊢
  generalize m.stack.zip ops = jobs at hpursues hm
  generalize m'.stack.zip (e.track ops) = jobs' at hpursues ⊢
  have hinner : ∀ {a b op below}, jobs = (a, op) :: below → jobs' = (b, op) :: below →
      ((∀ x ∈ a.todo, kind x → ok op) → ∀ x ∈ b.todo, kind x → ok op) →
      ∀ a op, (a, op) ∈ jobs' → ∀ x ∈ a.todo, kind x → ok op := by
    rintro a b op below rfl rfl hb c op' hmem
    rcases List.mem_cons.1 hmem with heq | hmem
    · obtain ⟨rfl, rfl⟩ := Prod.mk.inj heq
      exact hb (hm a op' List.mem_cons_self)
    · exact hm c op' (List.mem_cons_of_mem _ hmem)
  cases hpursues with
  | begins =>
    intro a op hmem x hx hkind
    rcases List.mem_cons.1 hmem with heq | hmem
    · obtain ⟨rfl, rfl⟩ := Prod.mk.inj heq
      exact hbegin hx hkind
    · exact hm a op hmem x hx hkind
  | performs notCall =>
    refine hinner rfl rfl fun ha x hx hkind => ?_
    rcases List.mem_append.1 hx with hx | hx
    · exact ha _ List.mem_cons_self (hperform notCall hx hkind)
    · exact ha x (List.mem_cons_of_mem _ hx) hkind
  | returns => exact hinner rfl rfl fun ha x hx => ha x (List.mem_cons_of_mem _ hx)
  | breaks => exact hinner rfl rfl fun _ x hx => absurd hx List.not_mem_nil
  | leaves => exact fun a op hmem => hm a op (List.mem_cons_of_mem _ hmem)
  | stays => exact hm

theorem perform_asks {s : Session} {q : StreamRef} {task x : Task} (notCall : task.isCall = false)
    (hx : x ∈ (s.perform (.standard cap) task).todo) (asks : x.asks q) : task.asks q := by
  rcases s.perform_personal notCall hx (Task.isPersonal_of_asks asks) with
    ⟨n, -, htask, hn⟩ | ⟨r, opening, l, rfl, rfl⟩
  · exact Task.asks_of_notice? hn htask asks
  · exact asks

theorem begin_asks {s : Session} {q : StreamRef} {alive : Bool} {op : Operation} {x : Task}
    (hx : x ∈ (s.begin (.standard cap) alive op).todo) (asks : x.asks q) :
    ∃ got id, op = .receive got ∧ got.opening? = some id ∧ q = s.nextRef ∧
      (s.begin (.standard cap) alive op).session.streams.size = s.streams.size + 1 := by
  rcases s.begin_personal _ alive hx (Task.isPersonal_of_asks asks) with
    ⟨got, id, opening, rfl, hopening, rfl, hsize⟩ | ⟨_, _, _, -, -, -, -, rfl⟩
  · exact ⟨got, id, rfl, hopening, (by simpa [Task.asks] using asks : s.nextRef = q).symm, hsize⟩
  · cases asks

theorem confined_of_run {s : Session} {past : List Moment} (run : Run (.standard cap) { session := s } past m)
    (q : StreamRef) : Confined (Task.asks q) Operation.isReceive (inProgress past) m := by
  induction run with
  | start => exact fun a op hmem => absurd hmem List.not_mem_nil
  | next run h ih =>
    rw [inProgress_append]
    refine ih.next (Machine.happens_of_next? h) (length_inProgress run) (fun hx hasks => ?_)
      fun notCall hx hasks => perform_asks notCall hx hasks
    obtain ⟨got, id, rfl, -⟩ := begin_asks hx hasks
    rfl

/-- Where no operation of the right kind is in progress, there are no such tasks. -/
theorem Confined.not_of_free {s : Session} {past : List Moment} (run : Run (.standard cap) { session := s } past m)
    (confined : Confined kind ok (inProgress past) m) (hfree : (inProgress past).any ok = false) {x : Task}
    (hx : x ∈ m.tasks) : kind x = false := by
  cases hkind : kind x with
  | false => rfl
  | true =>
    obtain ⟨a, ha, hmem⟩ := List.mem_flatMap.1 hx
    obtain ⟨i, hi, rfl⟩ := List.getElem_of_mem ha
    have hlen := length_inProgress run
    have hpair : (m.stack[i], (inProgress past)[i]) ∈ m.stack.zip (inProgress past) := by
      rw [List.mem_iff_getElem]
      exact ⟨i, by rw [List.length_zip]; omega, List.getElem_zip⟩
    have hok := confined _ _ hpair x hmem hkind
    rw [List.any_eq_false] at hfree
    exact absurd hok (hfree _ (List.getElem_mem _))

theorem not_asks_of_free {s : Session} {past : List Moment} (run : Run (.standard cap) { session := s } past m)
    (hfree : (inProgress past).any Operation.isReceive = false) {q : StreamRef} {x : Task} (hx : x ∈ m.tasks) :
    x.asks q = false :=
  (confined_of_run run q).not_of_free run hfree hx

end Confined

/-! ## What is heard of a stream -/

/-- What the listener of a stream was told of is the first of what was received on the stream. It is all of it as long
as the stream is open, has a listener, and the end of the session was not announced. -/
structure Hearing (q : StreamRef) (past : List Moment) (m : Machine) : Prop where
  unknown : m.session.streams.size ≤ q.serial → heardData q past = []
  asked : q.serial < m.session.streams.size → ∀ x ∈ m.tasks, x.asks q → dataOn (m.session.idOf q) (taken past) = []
  heard : q.serial < m.session.streams.size → heardData q past <+: dataOn (m.session.idOf q) (taken past)
  whole : q.serial < m.session.streams.size → q ∈ m.session.table → m.session.goAwaySent = false →
    (m.session.stream q).listener.isSome → heardData q past = dataOn (m.session.idOf q) (taken past)

section Hearing

variable {cap : Nat} {config : Config} {primary : Option Listener} {s : Session} {past : List Moment}
  {m m' : Machine} {e : Event} {q : StreamRef}

theorem asks_of_next? (h : m.next? (.standard cap) e = some m') {x : Task} (hx : x ∈ m'.tasks) (asks : x.asks q) :
    (∃ y ∈ m.tasks, y.asks q) ∨
      ∃ got id, e = .invoke (.receive got) ∧ got.opening? = some id ∧ q = m.session.nextRef := by
  cases stems_of_next? h hx with
  | stays mem => exact .inl ⟨x, mem, asks⟩
  | begins possible mem =>
    obtain ⟨got, id, rfl, hopening, hq, -⟩ := begin_asks mem asks
    exact .inr ⟨got, id, rfl, hopening, hq⟩
  | performs known notCall mem => exact .inl ⟨_, known, perform_asks notCall mem asks⟩

/-- Only the answer to the question who is to be told changes the listener of a stream. -/
theorem listener_of_befalls {mo : Moment} (h : Befalls cap mo) (known : q.serial < mo.before.session.streams.size) :
    (mo.after.session.stream q).listener = (mo.before.session.stream q).listener ∨
      ∃ x ∈ mo.before.tasks, x.asks q := by
  have hsame : ∀ {s t : Session}, s.Same t → (t.stream q).listener = (s.stream q).listener :=
    fun h => h.map (·.listener) q
  have hregister : ∀ {s t : Session} {x : Stream}, (s.register x).Same t → q.serial < s.streams.size →
      (t.stream q).listener = (s.stream q).listener := by
    intro s t x h hq
    rw [hsame h, Session.stream_register_of_lt x hq]
  cases h with
  | work deed session =>
    refine .inl ?_
    rw [session]
    cases deed with
    | same same => exact hsame same
    | data known same => exact hsame same
    | said known isHead notOpening about encoded localOpen same => exact same.map_of_mark (·.listener)
    | opened asks bidirectional sent encoded hasId localClosed remoteClosed reset same =>
      exact (hregister same known).trans rfl
    | unopened asks bidirectional sent same => exact (hsame same).trans rfl
    | born asks sent valid remote absent hasId localClosed remoteClosed reset same => exact hregister same known
    | heard asks about mem same => exact same.map_of_mark (·.listener)
    | quit cause encoded abandons => exact abandons.map (·.listener) q
    | muffled cause refused abandons => exact abandons.map (·.listener) q
    | lost does abandons => exact abandons.map (·.listener) q
    | reclaimed does closed sheds still => exact Stream.map_of_still (·.listener) (still q)
  | still same => exact .inl (hsame same)
  | @answered r reply opening listener waits same unasked =>
    by_cases hr : r = q
    · exact .inr ⟨_, waits, by simp [Task.asks, hr]⟩
    · refine .inl ?_
      rw [hsame same, Session.stream_update_of_ne _ (Ne.symm hr)]
  | wrote mem same => exact .inl (hsame same)
  | closed mem parcel empty close same =>
    exact .inl (Session.Same.map_of_mark (b := true) (·.listener) same)

/-- Nothing is received on a stream before it is there. -/
theorem dataOn_of_birth (hnew : Session.new config primary = .ok s)
    (run : Run (.standard cap) { session := s } past m) (h : m.next? (.standard cap) e = some m') (hfew : Few past)
    (heeds : Heeds false config (past ++ [⟨m, e, m'⟩])) (hq : m.session.streams.size ≤ q.serial)
    (known : q.serial < m'.session.streams.size) : dataOn (m'.session.idOf q) (taken (past ++ [⟨m, e, m'⟩])) = [] := by
  have numbered := numbered_of_run hnew run hfew
  have hlast : m'.session.streams.size = m.session.streams.size + 1 → q = m.session.nextRef := by
    intro hsize
    obtain ⟨n⟩ := q
    have : n = m.session.streams.size := by
      dsimp only at hq known
      omega
    rw [this]
    rfl
  cases comes_of_befalls (befalls_of_next? h (tidy_of_run hnew run)) with
  | none size =>
    have hsize : m'.session.streams.size = m.session.streams.size := size
    omega
  | own size hasId allots next =>
    have htaken : Moment.taken? ⟨m, e, m'⟩ = none := by
      unfold Moment.allots? at allots
      split at allots
      · next hop => simp [Moment.taken?, hop]
      · cases allots
    rw [hlast size, show m'.session.idOf m.session.nextRef = _ from hasId, taken_append, htaken, Option.toList_none,
      List.append_nil]
    refine dataOn_eq_nil fun got hgot hdata hstream => ?_
    have hmention : got.mention? false = some m.session.nextStreamId := by
      rw [Received.mention?_of_isData hdata, hstream]
    exact Nat.lt_irrefl _ (lt_next_of_taken hnew run hfew heeds.of_append hgot hmention numbered.isLocal_next)
  | @others got id size hasId htaken opening valid remote =>
    rw [hlast size, show m'.session.idOf m.session.nextRef = _ from hasId]
    have hfirst := heeds.first
    rw [taken_append, htaken] at hfirst ⊢
    refine dataOn_eq_nil fun got' hgot' hdata hstream => ?_
    rcases List.mem_append.1 hgot' with hgot' | hgot'
    · refine (List.pairwise_append.1 hfirst).2.2 got' hgot' got List.mem_cons_self id opening ?_
      rw [Received.mention?_of_isData hdata, hstream]
    · rw [Option.toList_some, List.mem_singleton] at hgot'
      subst hgot'
      rw [Received.opening?_of_isData hdata] at opening
      cases opening

theorem dataOn_taken_of_data (id : UInt32) (m m' : Machine) (f : DataFrame) :
    dataOn id (Moment.taken? ⟨m, .invoke (.receive (.data f)), m'⟩).toList =
      if f.streamId = id then f.payload else [] := by
  simp [Moment.taken?, Moment.op?, dataOn, Received.dataOn]

theorem dataOn_taken_eq_nil {mo : Moment} (id : UInt32) (hdata : ∀ f, mo.event ≠ .invoke (.receive (.data f))) :
    dataOn id mo.taken?.toList = [] := by
  refine dataOn_eq_nil fun got hgot hisData _ => ?_
  rw [Option.mem_toList] at hgot
  unfold Moment.taken? Moment.op? at hgot
  cases he : mo.event with
  | invoke op =>
    rw [he] at hgot
    cases op with
    | receive got' =>
      obtain rfl := Option.some.inj hgot
      cases got' with
      | data f => exact hdata f he
      | _ => cases hisData
    | _ => cases hgot
  | _ =>
    rw [he] at hgot
    cases hgot

/-- Where there is nothing to tell the listener of a stream, it is told of no data. -/
theorem dataTold_of_not_tells (happens : Happens (.standard cap) m e m') (prompt : m.Prompt)
    (hnot : ∀ f l, ¬m.Tells e f q l) : dataTold q (Moment.called? ⟨m, e, m'⟩) = [] := by
  unfold dataTold
  split
  · next l r payload hcalled =>
    obtain ⟨f, htells, -⟩ := tells_of_called? happens prompt hcalled
    rw [if_neg]
    rintro rfl
    exact hnot f l htells
  · rfl

/-- What a moment does to what is heard of a stream that was there. -/
theorem Hearing.step (hearing : Hearing q past m) (run : Run (.standard cap) { session := s } past m)
    (h : m.next? (.standard cap) e = some m') (tidy : m.session.Tidy)
    (free : (Moment.op? ⟨m, e, m'⟩).any Operation.isReceive → (inProgress past).any Operation.isReceive = false)
    (known : q.serial < m.session.streams.size) :
    (∀ x ∈ m'.tasks, x.asks q → dataOn (m.session.idOf q) (taken (past ++ [⟨m, e, m'⟩])) = []) ∧
      heardData q (past ++ [⟨m, e, m'⟩]) <+: dataOn (m.session.idOf q) (taken (past ++ [⟨m, e, m'⟩])) ∧
      (q ∈ m.session.table → m.session.goAwaySent = false → (m'.session.stream q).listener.isSome →
        heardData q (past ++ [⟨m, e, m'⟩]) = dataOn (m.session.idOf q) (taken (past ++ [⟨m, e, m'⟩]))) := by
  have happens := Machine.happens_of_next? h
  have prompt := prompt_of_run run
  have hasked := hearing.asked known
  have hheard := hearing.heard known
  have hwhole := hearing.whole known
  have hlistener := listener_of_befalls (befalls_of_next? h tidy) known
  have hnothing : (∃ x ∈ m.tasks, x.asks q) → heardData q past = dataOn (m.session.idOf q) (taken past) := by
    rintro ⟨x, hx, hasks⟩
    have hnil := hasked x hx hasks
    rw [hnil] at hheard ⊢
    exact List.prefix_nil.1 hheard
  rw [heardData_append, taken_append, dataOn_append]
  by_cases hdata : ∃ f, e = .invoke (.receive (.data f))
  · obtain ⟨f, rfl⟩ := hdata
    have hquiet : ∀ x ∈ m.tasks, x.asks q = false := fun x hx => not_asks_of_free run (free rfl) hx
    have hsame : (m'.session.stream q).listener = (m.session.stream q).listener := by
      rcases hlistener with heq | ⟨x, hx, hasks⟩
      · exact heq
      · rw [hquiet x hx] at hasks
        cases hasks
    refine ⟨fun x hx hasks => ?_, ?_⟩
    · rcases asks_of_next? h hx hasks with ⟨y, hy, hyasks⟩ | ⟨got, id, heq, hopening, -⟩
      · rw [hquiet y hy] at hyasks
        cases hyasks
      · cases heq
        cases hopening
    · rw [dataOn_taken_of_data]
      by_cases htells : ∃ l, m.Tells (.invoke (.receive (.data f))) f q l
      · -- the listener is told of all that is received
        obtain ⟨l, htells⟩ := htells
        obtain ⟨-, sent, hfind, hl⟩ := htells
        have hid : f.streamId = m.session.idOf q := (by simpa using List.find?_some hfind : _ = f.streamId).symm
        have hcalled := called?_of_tells happens ⟨rfl, sent, hfind, hl⟩
        have htold : dataTold q (Moment.called? ⟨m, .invoke (.receive (.data f)), m'⟩) = f.payload := by
          rw [hcalled, dataTold, if_pos rfl]
        have hall := hwhole (List.mem_of_find?_eq_some hfind) sent (by rw [hl]; rfl)
        rw [if_pos hid, htold, hall]
        exact ⟨List.prefix_rfl, fun _ _ _ => rfl⟩
      · have hnot : ∀ f' l, ¬m.Tells (.invoke (.receive (.data f))) f' q l := by
          rintro f' l ⟨heq, htells'⟩
          cases heq
          exact htells ⟨l, rfl, htells'⟩
        rw [dataTold_of_not_tells happens prompt hnot, List.append_nil]
        refine ⟨hheard.trans (List.prefix_append _ _), fun hmem sent hsome => ?_⟩
        rw [hsame] at hsome
        rw [hwhole hmem sent hsome, if_neg, List.append_nil]
        intro hid
        obtain ⟨l, hl⟩ := Option.isSome_iff_exists.1 hsome
        exact htells ⟨l, rfl, sent, hid ▸ Session.find?_of_mem tidy hmem, hl⟩
  · rw [not_exists] at hdata
    rw [dataOn_taken_eq_nil _ hdata, dataTold_of_not_tells happens prompt fun f l htells => hdata f htells.1,
      List.append_nil, List.append_nil]
    refine ⟨fun x hx hasks => ?_, hheard, fun hmem sent hsome => ?_⟩
    · rcases asks_of_next? h hx hasks with ⟨y, hy, hyasks⟩ | ⟨got, id, heq, hopening, rfl⟩
      · exact hasked y hy hyasks
      · exact absurd known (Nat.lt_irrefl _)
    · rcases hlistener with heq | hasks
      · exact hwhole hmem sent (heq ▸ hsome)
      · exact hnothing hasks

theorem hearing_of_run (hnew : Session.new config primary = .ok s)
    (run : Run (.standard cap) { session := s } past m) (hfew : Few past) (heeds : Heeds false config past)
    (hturn : ReadsInTurn past) (q : StreamRef) : Hearing q past m := by
  induction run with
  | start =>
    obtain ⟨-, rfl⟩ := Session.new_eq_ok hnew
    have hunknown : ¬ q.serial < 0 := Nat.not_lt_zero _
    exact ⟨fun _ => rfl, fun h => absurd h hunknown, fun h => absurd h hunknown, fun h => absurd h hunknown⟩
  | @next past m m' e run h ih =>
    obtain ⟨hturn, hnow⟩ := readsInTurn_append.1 hturn
    have ih := ih hfew.of_append heeds.of_append hturn
    have tidy := tidy_of_run hnew run
    have onward := onward_of_next? run h
    have forward := forward_of_turn (turn_of_next? h (placed_of_run run))
    have prompt := prompt_of_run run
    have hunheard : m.session.streams.size ≤ q.serial → heardData q (past ++ [⟨m, e, m'⟩]) = [] := by
      intro hq
      rw [heardData_append, ih.unknown hq, List.nil_append]
      unfold dataTold
      split
      · next l r payload hcalled =>
        obtain ⟨f, ⟨-, -, hfind, -⟩, -⟩ := tells_of_called? (Machine.happens_of_next? h) prompt hcalled
        have hr := tidy.known r (List.mem_of_find?_eq_some hfind)
        split
        · next heq => exact absurd (heq ▸ hr) (Nat.not_lt_of_le hq)
        · rfl
      · rfl
    by_cases hq : q.serial < m.session.streams.size
    · obtain ⟨hasked, hheard, hwhole⟩ := ih.step run h tidy hnow hq
      have hid : m'.session.idOf q = m.session.idOf q := (onward.later q hq).id
      rw [← hid] at hasked hheard hwhole
      refine ⟨fun hsize => absurd (Nat.lt_of_lt_of_le hq onward.size) (Nat.not_lt_of_le hsize), fun _ => hasked,
        fun _ => hheard, fun _ hmem sent hsome => hwhole ?_ ?_ hsome⟩
      · exact (forward.table q hmem).resolve_right (Nat.not_le_of_lt hq)
      · cases hsent : m.session.goAwaySent with
        | false => rfl
        | true => exact absurd (forward.goAwaySent hsent) (by rw [sent]; exact Bool.false_ne_true)
    · have hsize := Nat.le_of_not_lt hq
      have hnothing := hunheard hsize
      have hbirth : q.serial < m'.session.streams.size →
          dataOn (m'.session.idOf q) (taken (past ++ [⟨m, e, m'⟩])) = [] :=
        dataOn_of_birth hnew run h hfew.of_append heeds hsize
      refine ⟨fun _ => hnothing, fun known x hx hasks => hbirth known, fun known => ?_, fun known _ _ _ => ?_⟩
      · rw [hnothing]
        exact List.nil_prefix
      · rw [hnothing, hbirth known]

end Hearing

end Spdy
