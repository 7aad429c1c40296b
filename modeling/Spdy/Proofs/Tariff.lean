import Spdy.Proofs.Answer
import Spdy.Proofs.Channel

/-!
# What is still to come

Everything that is left to be dealt with counts for something: operations in progress and their tasks, writes that are
not reported, parcels that wait, bytes and frames on their way, open streams. A tariff says for how much. If each task
and each frame that is received counts for at least as much as what comes of it, then the whole does not grow unless
the application asks for something.

* `Tariff`, `Tariff.machine` : what things count for on one side, and all that is there;
* `Tariff.Covers` : what comes of a task, of a report or of a frame counts for no more than it did itself;
* `Event.isUnprompted`, `Act.isUnprompted` : things that happen without a request of the application;
* `Tariff.Covers.step` : what one of them does to one side;
* `Pair.outlay`, `Pair.outlay_step` : both sides and what is between them;
* `Pair.coast?` : what a pair comes to if the application asks for nothing more.
-/

namespace Spdy

/-! ## What things count for -/

/-- What the things count for that are to be dealt with on one side: a step (as much as an operation that is to return),
a byte on its way, an open stream, a task, a parcel whose write is not reported, one that waits, and a frame to receive.
-/
structure Tariff where
  step : Nat
  byte : Nat
  place : Nat
  task : Task → Nat
  written : Parcel → Nat
  parcel : Parcel → Nat
  letter : Received → Nat

namespace Tariff

variable (c : Tariff)

/-- What waits in a session and what it has open. -/
def session (s : Session) : Nat :=
  (s.outstanding.map fun h => c.written h.parcel).sum + (s.outbox.parcels.map c.parcel).sum + c.place * s.table.length

/-- All that is to be dealt with on one side. -/
def machine (m : Machine) : Nat := c.step * m.stack.length + expense c.task m.tasks + c.session m.session

/-- A frame with its bytes and what it is read as. -/
def frame (bytes : Bytes) : Nat := c.byte * bytes.length + ((Received.ofBytes? bytes).map c.letter).getD 0

/-- The frame that is handed over, if one is. -/
def handed (f? : Option (Bytes × Handler)) : Nat := (f?.map fun f => c.frame f.1).getD 0

def progress (p : Progress) : Nat := expense c.task p.todo + c.session p.session

/-- What comes of the work of a session counts for no more than the work did, one step at least being made. What is
received counts for `toll`. -/
structure Covers (cap : Nat) (toll : Received → Nat) (s : Session) : Prop where
  calls : ∀ call, c.step ≤ c.task (.call call)
  drops : ∀ q, c.step ≤ c.written q
  performs : ∀ task, task.isCall = false →
    c.progress (s.perform (.standard cap) task) + c.handed (s.perform (.standard cap) task).handed? + c.step ≤
      c.task task + c.session s
  receives : ∀ got, c.progress (s.receive (.standard cap) got) + 2 * c.step ≤ c.session s + toll got
  completes : ∀ h ∈ s.outstanding,
    c.progress ((s.dropHandler h.seq).wrote h.parcel) + 2 * c.step ≤ c.session s
  fails : ∀ h ∈ s.outstanding, ∀ fault,
    c.progress ((s.dropHandler h.seq).notWritten h.parcel fault) + 2 * c.step ≤ c.session s

variable {c}

/-- A handler that is used up or given up counts no more. -/
theorem session_dropHandler {s : Session} {h : Handler} (hmem : h ∈ s.outstanding) :
    c.session (s.dropHandler h.seq) + c.written h.parcel ≤ c.session s := by
  have hsum : ∀ {l : List Handler}, h ∈ l →
      ((l.filter (·.seq != h.seq)).map fun x => c.written x.parcel).sum + c.written h.parcel ≤
        (l.map fun x => c.written x.parcel).sum := by
    intro l
    induction l with
    | nil => exact fun h => absurd h List.not_mem_nil
    | cons x l ih =>
      intro hx
      have hle : ((l.filter (·.seq != h.seq)).map fun x => c.written x.parcel).sum ≤
          (l.map fun x => c.written x.parcel).sum :=
        (List.filter_sublist.map _).sum_le_sum fun _ _ => Nat.zero_le _
      rcases List.mem_cons.1 hx with rfl | hx
      · rw [List.filter_cons_of_neg (by simp), List.map_cons, List.sum_cons]
        omega
      · have hrest := ih hx
        rw [List.filter_cons]
        split <;> simp only [List.map_cons, List.sum_cons] <;> omega
  have := hsum hmem
  simp only [session, Session.dropHandler]
  omega

theorem session_holding (s : Session) (parcels : List Parcel) :
    c.session (s.holding parcels) + (s.outbox.parcels.map c.parcel).sum = c.session s + (parcels.map c.parcel).sum := by
  simp only [session, Session.holding]
  omega

theorem session_handing (s : Session) (parcels : List Parcel) (q : Parcel) :
    c.session (s.handing parcels q) + (s.outbox.parcels.map c.parcel).sum =
      c.session s + (parcels.map c.parcel).sum + c.written q := by
  simp only [session, Session.handing, List.map_append, List.sum_append, List.map_singleton, List.sum_singleton]
  omega

theorem session_notWritten (s : Session) (q : Parcel) (fault : SocketFault) :
    c.session (s.notWritten q fault).session ≤ c.session s := by
  simp only [session, Session.notWritten, Outbox.clear, List.map_nil, List.sum_nil]
  omega

/-- What is enqueued counts, and so do the streams that are opened. -/
theorem session_of_issues {s t : Session} {new : List Parcel} {born : Nat} (h : s.Issues t new born) :
    c.session t ≤ c.session s + (new.map c.parcel).sum + c.place * born := by
  have hplace := Nat.mul_le_mul_left c.place h.table
  rw [Nat.mul_add] at hplace
  rw [session, session, h.outstanding, h.parcels, List.map_append, List.sum_append]
  omega

end Tariff

/-- A task hands nothing over unless it starts a write. -/
theorem Session.handed?_of_perform (enc : Encoder) (s : Session) {task : Task} (notFlush : task ≠ .flush)
    (notCall : task.isCall = false) : (s.perform enc task).handed? = none := by
  apply Progress.handed?_eq_none
  cases task with
  | flush => exact absurd rfl notFlush
  | endWrite seq =>
    simp only [perform]
    split <;> simp [Task.isWrite]
  | release =>
    simp only [perform]
    split <;> simp [Task.isWrite]
  | call => cases notCall
  | _ =>
    obtain ⟨new, -, h⟩ := s.perform_posts enc rfl notFlush notCall
    exact fun x hx => Task.not_write_of_plain (h.plain x hx)

/-! ## What happens of its own accord -/

/-- Whether a thing happens without a request of the application: work goes on, a call ends, or a write is reported or
given up. -/
def Event.isUnprompted (m : Machine) : Event → Bool
  | .tick | .answer _ | .panic _ | .leave | .invoke (.complete _) | .invoke (.fail ..) => true
  | .drop seq => m.session.outstanding.any (·.seq == seq)
  | .invoke _ | .edit _ => false

theorem Machine.Placed.of_stack {m : Machine} (placed : m.Placed) {task : Task} {rest : List Task} {outcome : Outcome}
    {below : List Activation} (stack : m.stack = ⟨task :: rest, outcome⟩ :: below) : ∀ x ∈ rest, x.isWrite = false :=
  placed ⟨task :: rest, outcome⟩ (stack ▸ List.mem_cons_self)

namespace Tariff

variable {cap : Nat} {c : Tariff} {toll : Received → Nat} {m m' : Machine} {e : Event}

theorem machine_of_stack {todo : List Task} {outcome : Outcome} {below : List Activation}
    (h : m.stack = ⟨todo, outcome⟩ :: below) :
    c.machine m = c.step * below.length + c.step + expense c.task todo +
      expense c.task (below.flatMap Activation.todo) + c.session m.session := by
  rw [machine, Machine.tasks_of_stack h, expense_append, h, List.length_cons, Nat.mul_succ, ← Nat.add_assoc]

theorem session_accept (s : Session) (call : Call) (reply : Option Listener) :
    c.session (Machine.accept s call reply) = c.session s := by
  unfold Machine.accept
  split <;> rfl

/-- An operation that begins counts for no more than what it deals with. -/
theorem begun {op : Operation} {n : Nat}
    (h : c.progress (m.session.begin (.standard cap) m.isAlive op).toProgress + 2 * c.step ≤ c.session m.session + n) :
    c.machine (m.invoke (.standard cap) op).1 +
      c.handed (Moment.handed? ⟨m, .invoke op, (m.invoke (.standard cap) op).1⟩) + c.step ≤ c.machine m + n := by
  have hnone := Moment.handed?_of_invoke (.standard cap) m op
  have hzero : c.handed none = 0 := rfl
  rw [progress] at h
  rw [hnone, machine_of_stack rfl, machine, Machine.tasks]
  show _ + expense c.task (m.session.begin (.standard cap) m.isAlive op).todo + _ +
    c.session (m.session.begin (.standard cap) m.isAlive op).session + _ + _ ≤ _
  omega

namespace Covers

variable (covers : c.Covers cap toll m.session) (placed : m.Placed)

include covers

include placed

/-- A call that ends counts for no more, and nothing is handed over. -/
theorem returned {call : Call} {rest : List Task} {outcome : Outcome} {below : List Activation}
    (stack : m.stack = ⟨.call call :: rest, outcome⟩ :: below) (hstack : m'.stack = ⟨rest, outcome⟩ :: below)
    (hsession : c.session m'.session = c.session m.session) :
    c.machine m' + c.handed (Moment.handed? ⟨m, e, m'⟩) + c.step ≤ c.machine m := by
  have hrest : ∀ x ∈ rest, x.isWrite = false := placed.of_stack stack
  have hnone : Moment.handed? ⟨m, e, m'⟩ = none :=
    Moment.handed?_eq_none hstack fun x hx => hrest x (List.mem_of_mem_head? hx)
  have hcall := covers.calls call
  have hzero : c.handed none = 0 := rfl
  rw [machine_of_stack stack, machine_of_stack hstack, expense_cons, hnone]
  omega

/-- A thing that happens of its own accord uses up one step at least. -/
theorem unprompted (h : m.next? (.standard cap) e = some m') (he : e.isUnprompted m) :
    c.machine m' + c.handed (Moment.handed? ⟨m, e, m'⟩) + c.step ≤ c.machine m := by
  have hzero : c.handed none = 0 := rfl
  cases Machine.happens_of_next? h with
  | invoke op yields possible =>
    suffices hreport : c.progress (m.session.begin (.standard cap) m.isAlive op).toProgress + 2 * c.step ≤
        c.session m.session by
      have := begun (Nat.le_add_right_of_le hreport : _ ≤ _ + 0)
      exact this
    cases op with
    | complete seq =>
      obtain ⟨x, hx, rfl, heq⟩ := Session.report_of_possible Session.wrote possible
      rw [Session.begin, heq]
      exact covers.completes x hx
    | fail seq fault =>
      obtain ⟨x, hx, rfl, heq⟩ := Session.report_of_possible (fun s p => s.notWritten p fault) possible
      rw [Session.begin, heq]
      exact covers.fails x hx fault
    | _ => cases he
  | @tick task rest outcome below stack notCall =>
    have hrest : ∀ x ∈ rest, x.isWrite = false := placed.of_stack stack
    have hwork := covers.performs task notCall
    rw [progress] at hwork
    rw [Moment.handed?_of_tick rfl hrest, machine_of_stack stack, machine_of_stack rfl, expense_cons, expense_append]
    dsimp only
    omega
  | answer reply stack => exact returned covers placed stack rfl (session_accept _ _ _)
  | caught p stack tell => exact returned covers placed stack rfl (session_accept _ _ _)
  | @broken p call rest outcome below stack notTell =>
    have hcall := covers.calls call
    rw [Moment.handed?_eq_none rfl (by simp), machine_of_stack stack, machine_of_stack rfl, expense_cons, expense_nil]
    dsimp only
    omega
  | leave stack =>
    rw [machine_of_stack stack, expense_nil]
    show c.step * _ + _ + _ + c.handed none + _ ≤ _
    simp only [Machine.tasks]
    omega
  | edit => cases he
  | drop seq yields =>
    obtain ⟨x, hx, hseq⟩ := List.any_eq_true.1 he
    obtain rfl : x.seq = seq := eq_of_beq hseq
    have hdrop := session_dropHandler (c := c) hx
    have hpaid := covers.drops x.parcel
    show c.step * _ + _ + c.session (m.session.dropHandler x.seq) + c.handed none + _ ≤ _
    rw [machine]
    simp only [Machine.tasks]
    omega

omit placed in
theorem received {got : Received} (h : m.next? (.standard cap) (.invoke (.receive got)) = some m') :
    c.machine m' + c.handed (Moment.handed? ⟨m, .invoke (.receive got), m'⟩) + c.step ≤ c.machine m + toll got := by
  cases Machine.happens_of_next? h with
  | invoke op yields possible => exact begun (covers.receives got)

end Covers

/-- What is handed over is under way as bytes and as what they are read as. -/
theorem handed_eq (mo : Moment) :
    c.handed mo.handed? = c.byte * mo.written.length + (mo.spoken?.toList.map c.letter).sum := by
  unfold handed Moment.written Moment.spoken?
  cases mo.handed? with
  | none => rfl
  | some f =>
    obtain ⟨bytes, x⟩ := f
    simp only [Option.map_some, Option.getD_some, Option.bind_some, frame]
    cases Received.ofBytes? bytes <;> simp

end Tariff

/-! ## Both sides -/

namespace Pair

variable {cap : Side → Nat} {config : Side → Config} {primary : Side → Option Listener} {s : Side → Session}
  {p p' : Pair}
  {a : Act} (c : Side → Tariff)

/-- What is to be dealt with on one side, and what it has sent and the other side has not received. -/
def share (p : Pair) (x : Side) : Nat :=
  (c x).machine (p x).machine + (c x).byte * (p x).wire.length + ((p.underway x).map (c x).letter).sum

def outlay (p : Pair) : Nat := p.share c .client + p.share c .server

theorem outlay_eq (p : Pair) (x : Side) : p.outlay c = p.share c x + p.share c x.other := by
  cases x with
  | client => rfl
  | server => exact Nat.add_comm _ _

/-- Whether a thing happens to a pair without a request of the application: to one of its sides, or that bytes arrive or
a frame is received. -/
def isUnprompted (p : Pair) : Act → Bool
  | .happens x e => e.isUnprompted (p x).machine
  | .arrives x n => !((p x).wire.take n).isEmpty
  | .reads _ => true

/-- What a pair comes to if these things happen to it, all of them without a request of the application. -/
def coast? (cap : Side → Nat) (p : Pair) : List Act → Option Pair
  | [] => some p
  | a :: rest => if p.isUnprompted a then (p.next? cap a).bind (·.coast? cap rest) else none

theorem share_of_still (x : Side) {q : Pair} (machine : (q x).machine = (p x).machine) (past : (q x).past = (p x).past)
    (other : (q x.other).past = (p x.other).past) :
    share c q x + (c x).byte * (p x).wire.length = p.share c x + (c x).byte * (q x).wire.length := by
  rw [share, share, underway, underway, machine, past, other]
  omega

section Step

variable (hnew : ∀ x, Session.new (config x) (primary x) = .ok (s x)) (run : Run cap (new s) p)

include hnew run

theorem length_taken_le (x : Side) : (taken (p x.other).past).length ≤ (spoken (p x).past).length := by
  have hprefix := (received_prefix_of_run hnew run x).length_le
  rw [List.length_append] at hprefix
  omega

theorem underway_log (x : Side) {e : Event} {m : Machine} (past : (p' x).past = (p x).past ++ [⟨(p x).machine, e, m⟩])
    (other : taken (p' x.other).past = taken (p x.other).past) :
    p'.underway x = p.underway x ++ (Moment.spoken? ⟨(p x).machine, e, m⟩).toList := by
  rw [underway, past, other, spoken_append, List.drop_append_of_le_length (length_taken_le hnew run x)]
  rfl

/-- What a side is about to receive comes first of what the other side has under way. -/
theorem underway_of_inbox (x : Side) {got : Received} {rest : List Received} (inbox : (p x).inbox = got :: rest) :
    p.underway x.other = got :: (spoken (p x.other).past).drop ((taken (p x).past).length + 1) := by
  obtain ⟨more, hmore⟩ := received_prefix_of_run hnew run x.other
  rw [Side.other_other, inbox] at hmore
  rw [underway, Side.other_other, ← hmore, List.append_assoc, List.drop_left, List.drop_append]
  simp

/-- A side on which something happens: what it hands over is under way, and no more is to be dealt with than before. -/
theorem share_log (x : Side) {q : Pair} {e : Event} {m : Machine} {n : Nat} (machine : (q x).machine = m)
    (past : (q x).past = (p x).past ++ [⟨(p x).machine, e, m⟩])
    (wire : (q x).wire = (p x).wire ++ Moment.written ⟨(p x).machine, e, m⟩)
    (other : taken (q x.other).past = taken (p x.other).past)
    (h : (c x).machine m + (c x).handed (Moment.handed? ⟨(p x).machine, e, m⟩) + (c x).step ≤
      (c x).machine (p x).machine + n) :
    share c q x + (c x).step ≤ p.share c x + n := by
  have hhanded := (c x).handed_eq ⟨(p x).machine, e, m⟩
  rw [share, share, underway_log hnew run x past other, machine, wire, List.length_append, Nat.mul_add, List.map_append,
    List.sum_append]
  omega

/-- Each thing that happens of its own accord uses up one step at least. -/
theorem outlay_step {k : Nat} (covers : ∀ x, (c x).Covers (cap x) (c x.other).letter (p x).machine.session)
    (hstep : ∀ x, (c x).step = k) (hbyte : ∀ x, k ≤ (c x).byte) (h : p.next? cap a = some p')
    (unprompted : p.isUnprompted a) : p'.outlay c + k ≤ p.outlay c := by
  have hplaced : ∀ x, (p x).machine.Placed := fun x => placed_of_run (run.session x)
  cases moves_of_next? h with
  | @happens x e m hother hm =>
    have htaken : taken ((p x).log e m).past = taken (p x).past := by
      rw [Station.log, taken_append, taken?_eq_none_of_isReceive hother, Option.toList_none, List.append_nil]
    have hx := share_log c hnew run (q := Function.update p x ((p x).log e m)) x (n := 0)
      (by rw [Function.update_self]; rfl) (by rw [Function.update_self]; rfl) (by rw [Function.update_self]; rfl)
      (by rw [Function.update_of_ne x.other_ne]) ((covers x).unprompted (hplaced x) hm unprompted)
    have hy : share c (Function.update p x ((p x).log e m)) x.other = p.share c x.other := by
      rw [share, share, underway, underway, Side.other_other, Function.update_of_ne x.other_ne, Function.update_self,
        htaken]
    rw [outlay_eq c _ x, outlay_eq c p x, hy]
    have := hstep x
    omega
  | arrives x n =>
    generalize hq : Function.update (Function.update p x { p x with wire := (p x).wire.drop n }) x.other
      ((p x.other).hear ((p x).wire.take n)) = q
    have hself : q x = { p x with wire := (p x).wire.drop n } := by
      rw [← hq, Function.update_of_ne x.other_ne.symm, Function.update_self]
    have hother : q x.other = (p x.other).hear ((p x).wire.take n) := by
      rw [← hq, Function.update_self]
    have hx := share_of_still c (p := p) (q := q) x (by rw [hself]) (by rw [hself]) (by rw [hother]; rfl)
    have hy := share_of_still c (p := p) (q := q) x.other (by rw [hother]; rfl) (by rw [hother]; rfl)
      (by rw [Side.other_other, hself])
    have hwire : (p x).wire.length = ((p x).wire.take n).length + (q x).wire.length := by
      rw [hself, ← List.length_append, List.take_append_drop]
    have hwire' : (q x.other).wire.length = (p x.other).wire.length := by
      rw [hother]
      rfl
    rw [hwire, Nat.mul_add] at hx
    rw [hwire'] at hy
    have hpos : 1 ≤ ((p x).wire.take n).length := by
      rw [isUnprompted, Bool.not_eq_true', List.isEmpty_eq_false_iff] at unprompted
      exact List.length_pos_iff.2 unprompted
    have hbytes : k ≤ (c x).byte * ((p x).wire.take n).length :=
      Nat.le_trans (hbyte x) (Nat.le_mul_of_pos_right _ hpos)
    rw [outlay_eq c q x, outlay_eq c p x]
    omega
  | @reads x got rest m inbox free hm =>
    have htaken : taken ((p x).past ++ [⟨(p x).machine, .invoke (.receive got), m⟩]) = taken (p x).past ++ [got] := by
      rw [taken_append]
      rfl
    have hx := share_log c hnew run
      (q := Function.update p x ({ p x with inbox := rest }.log (.invoke (.receive got)) m))
      x (n := (c x.other).letter got) (by rw [Function.update_self]; rfl) (by rw [Function.update_self]; rfl)
      (by rw [Function.update_self]; rfl) (by rw [Function.update_of_ne x.other_ne]) ((covers x).received hm)
    have hy : share c (Function.update p x ({ p x with inbox := rest }.log (.invoke (.receive got)) m)) x.other +
        (c x.other).letter got = p.share c x.other := by
      rw [share, share, underway_of_inbox hnew run x inbox, underway, Side.other_other,
        Function.update_of_ne x.other_ne,
        Function.update_self]
      show _ + _ + List.sum (List.map _ (List.drop (taken ((p x).past ++ [_])).length _)) + _ = _
      rw [htaken, List.length_append, List.length_singleton, List.map_cons, List.sum_cons]
      omega
    rw [outlay_eq c _ x, outlay_eq c p x]
    have := hstep x
    omega

end Step

end Pair
end Spdy
