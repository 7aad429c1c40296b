import Spdy.Proofs.Ending
import Spdy.Proofs.FlowControl

/-!
# Streams that are given up

A stream whose window would leave its range is given up. That is a task, and until it is done callbacks may
run.

* `Task.endsStream` : the tasks that end a stream;
* `Moment.Ends`, `ends_of_next?` : where such tasks come from;
* `Moment.reenters`, `Moment.forsakes` : callbacks that come back to the session, and a controller that
  breaks off when a stream is to be given up;
* `Moment.offer?`, `Moment.overflows` : by how much the peer moves a window, and whether that is too much;
* `Moment.Refuses`, `givesUp_of_next?` : a stream is given up when its window would leave its range;
* `pending_of_next?` : so it is.
-/

namespace Spdy

/-! ## Work that ends no stream -/

def Task.givesUp : Task → Bool
  | .overflow .. | .reset .. => true
  | _ => false

/-- A task that gives a stream up, or takes it out of the table once it is closed. -/
def Task.endsStream : Task → Bool
  | .overflow .. | .reset .. | .reclaim _ => true
  | _ => false

theorem Task.endsStream_of_givesUp {x : Task} (h : x.givesUp) : x.endsStream := by
  cases x <;> first | rfl | cases h

namespace Session

variable (enc : Encoder) (s : Session)

theorem Mourns.endsStream {x : Task} (h : s.Mourns x) : x.endsStream = false := by cases h <;> rfl

/-- A task leaves another one that ends a stream only if its own stream is given up. -/
theorem perform_ends {cap : Nat} {task x : Task} (hcall : task.isCall = false)
    (hx : x ∈ (s.perform (.standard cap) task).todo) (hends : x.endsStream) :
    ∃ r e, task = .overflow r e ∧
      x = .reset (s.stream r).version (s.stream r).id .flowControlError := by
  cases perform_begets hcall hx with
  | mourns h => cases h.endsStream.symm.trans hends
  | reset => exact ⟨_, _, rfl, rfl⟩
  | _ => cases hends

end Session

/-! ## Where streams are given up -/

namespace Moment

/-- A callback comes back to the session: it asks for something other than the report of a write. -/
def reenters (mo : Moment) : Bool := mo.op?.any (!·.isReport) && !mo.before.stack.isEmpty

/-- The controller breaks off the operation that is to give a stream up. -/
def forsakes (mo : Moment) : Bool :=
  mo.isBreak && mo.before.stack.head?.any fun a => a.todo.any Task.givesUp

/-- By how much the peer moves the window of a stream, by WINDOW_UPDATE or by SETTINGS. -/
def offer? (mo : Moment) (r : StreamRef) : Option Int :=
  match mo.grant?, mo.size? with
  | some (q, delta), _ => if q = r then some delta else none
  | none, some size =>
    if r ∈ mo.before.session.table then some (size - mo.before.session.initialWindow) else none
  | none, none => none

/-- The window of the stream would leave its range. -/
def Refuses (mo : Moment) (r : StreamRef) (e : Error) : Prop :=
  ∃ delta, mo.offer? r = some delta ∧ (mo.before.session.stream r).credit delta = .error e

/-- The peer takes the window of a stream beyond its range. -/
def overflows (mo : Moment) (r : StreamRef) : Bool :=
  (mo.offer? r).any fun delta => Stream.maxWindow < (mo.before.session.stream r).window + delta

variable {mo : Moment} {r : StreamRef} {delta size : Int}

theorem size?_of_grant? {x : StreamRef × Int} (h : mo.grant? = some x) : mo.size? = none ∧ mo.written? = none := by
  unfold grant? at h
  split at h
  · rename_i hop
    exact ⟨by rw [size?, hop], by rw [written?, hop]⟩
  · cases h

theorem written?_of_size? (h : mo.size? = some size) : mo.grant? = none ∧ mo.written? = none := by
  unfold size? at h
  split at h
  · rename_i hop
    exact ⟨by rw [grant?, hop], by rw [written?, hop]⟩
  · cases h

theorem offer?_of_grant? (h : mo.grant? = some (r, delta)) : mo.offer? r = some delta := by
  simp [offer?, h]

theorem offer?_of_size? (h : mo.size? = some size) (hr : r ∈ mo.before.session.table) :
    mo.offer? r = some (size - mo.before.session.initialWindow) := by
  simp [offer?, h, (written?_of_size? h).1, hr]

theorem offer?_cases (h : mo.offer? r = some delta) : mo.grant? = some (r, delta) ∨
    ∃ size, mo.size? = some size ∧ r ∈ mo.before.session.table ∧
      delta = size - mo.before.session.initialWindow := by
  unfold offer? at h
  split at h
  · rename_i q d hgrant
    split at h
    · next hq =>
      subst hq
      exact .inl (hgrant.trans (congrArg some (congrArg _ (Option.some.inj h))))
    · cases h
  · rename_i size _ hsize
    split at h
    · next hr => exact .inr ⟨size, hsize, hr, (Option.some.inj h).symm⟩
    · cases h
  · cases h

/-- The peer moves the windows of open streams, as long as the session goes on. -/
theorem mem_of_offer? (h : mo.offer? r = some delta) :
    r ∈ mo.before.session.table ∧ mo.before.session.goAwaySent = false := by
  rcases offer?_cases h with hgrant | ⟨size, hsize, hr, -⟩
  · obtain ⟨-, hsent, hr⟩ := grant?_eq_some hgrant
    exact ⟨hr, hsent⟩
  · exact ⟨hr, (size?_eq_some hsize).2.1⟩

theorem overflows_iff : mo.overflows r ↔
    ∃ delta, mo.offer? r = some delta ∧ Stream.maxWindow < (mo.before.session.stream r).window + delta := by
  rw [overflows, Option.any_eq_true]
  simp

end Moment

section Moment

variable {cap : Nat} {m m' : Machine} {e : Event}

/-- Where a task comes from that ends a stream. -/
inductive Moment.Ends (mo : Moment) : Task → Prop
  | old {x : Task} (mem : x ∈ mo.before.tasks) : mo.Ends x
  | refused {r : StreamRef} {e : Error} (refuses : mo.Refuses r e)
      (sent : mo.after.session.goAwaySent = false) : mo.Ends (.overflow r e)
  | stuck {h : Handler} {r : StreamRef} {payload : Payload} {written : Nat} {e : Error}
      (mem : h ∈ mo.before.session.outstanding) (parcel : h.parcel = .data r payload written)
      (credit : (mo.before.session.stream r).credit (debit written) = .error e) :
      mo.Ends (.overflow r e)
  | given {r : StreamRef} {e : Error} {version : Version} (mem : .overflow r e ∈ mo.before.tasks) :
      mo.Ends (.reset version (mo.before.session.idOf r) .flowControlError)
  | reclaim {r : StreamRef} (stream : r ∈ mo.before.session.table ∨
      mo.before.session.streams.size ≤ r.serial ∨
      ∃ h ∈ mo.before.session.outstanding, h.parcel.stream? = some r) : mo.Ends (.reclaim r)

/-- An operation ends a stream only if it is open or new, if its window would leave its range, or if it has said its
last. -/
theorem ends_of_begin {op : Operation} {x : Task} (tidy : m.session.Tidy)
    (hx : x ∈ (m.session.begin (.standard cap) m.isAlive op).todo) (hends : x.endsStream) :
    Moment.Ends ⟨m, .invoke op, (m.invoke (.standard cap) op).1⟩ x := by
  cases Session.begin_leaves hx with
  | mourns h => cases h.endsStream.symm.trans hends
  | fresh => exact .reclaim (.inr (.inl (Nat.le_refl _)))
  | known mem => exact .reclaim (.inl mem)
  | @resized version flags entries r err n sent size refused =>
    obtain ⟨hr, hcredit⟩ := (Session.shifted_shiftWindows
      (s := { m.session with initialWindow := min (n.toNat : Int) Stream.maxWindow })
      ⟨tidy.known, tidy.nodup⟩ _).failed _ refused
    refine .refused ⟨_, Moment.offer?_of_size? ?_ hr, hcredit⟩ ?_
    · simp only [Moment.size?, Moment.op?, sent, size]
      rfl
    · exact (m.session.begin_goAwaySent _ _ rfl).trans sent
  | widened sent found refused =>
    refine .refused ⟨_, Moment.offer?_of_grant? ?_, refused⟩ ?_
    · simp only [Moment.grant?, Moment.op?, sent, found]
      rfl
    · exact (m.session.begin_goAwaySent _ _ rfl).trans sent
  | wrote mem h =>
    cases h with
    | overflow refused => exact .stuck mem rfl refused
    | reclaim speaks => exact .reclaim (.inr (.inr ⟨_, mem, speaks⟩))
    | close | release => cases hends
  | _ => cases hends

theorem ends_of_next? (h : m.next? (.standard cap) e = some m') (tidy : m.session.Tidy) {x : Task}
    (hx : x ∈ m'.tasks) (hends : x.endsStream) : Moment.Ends ⟨m, e, m'⟩ x := by
  cases stems_of_next? h hx with
  | stays mem => exact .old mem
  | begins possible mem =>
    cases Machine.happens_of_next? h with
    | invoke op yields possible => exact ends_of_begin tidy mem hends
  | performs known notCall mem =>
    obtain ⟨r, err, rfl, rfl⟩ := m.session.perform_ends notCall mem hends
    exact .given known

/-- A stream is given up only if its window would leave its range. -/
theorem givesUp_of_next? {ops : List Operation} (h : m.next? (.standard cap) e = some m')
    (hc : Covered ops m) {x : Task} (hx : x ∈ m'.tasks) (hgives : x.givesUp) :
    x ∈ m.tasks ∨
      ((∃ r err, x = .overflow r err ∧ Moment.Refuses ⟨m, e, m'⟩ r err) ∧
        m'.session.goAwaySent = false) ∨
      ∃ r err version id status, .overflow r err ∈ m.tasks ∧ x = .reset version id status := by
  cases ends_of_next? h hc.tidy hx (Task.endsStream_of_givesUp hgives) with
  | old mem => exact .inl mem
  | refused refuses sent => exact .inr (.inl ⟨⟨_, _, rfl, refuses⟩, sent⟩)
  | stuck mem parcel credit => exact absurd credit (never_stuck hc mem parcel)
  | given mem => exact .inr (.inr ⟨_, _, _, _, _, mem, rfl⟩)
  | reclaim stream => cases hgives

/-- As long as a stream is to be given up, the end of the session was not announced. -/
def Machine.Unannounced (m : Machine) : Prop :=
  ∀ x ∈ m.tasks, x.givesUp → m.session.goAwaySent = false

theorem goAwaySent_of_next? (h : m.next? (.standard cap) e = some m')
    (houter : Moment.reenters ⟨m, e, m'⟩ = false) (hne : m.stack ≠ []) :
    m'.session.goAwaySent = m.session.goAwaySent := by
  refine goAwaySent_of_not_announces h ?_
  cases hop : Moment.op? ⟨m, e, m'⟩ with
  | none => rfl
  | some op =>
    have report : op.isReport := by simpa [Moment.reenters, hop, hne] using houter
    cases op <;> first | rfl | cases report

theorem unannounced_of_next? {ops : List Operation} (h : m.next? (.standard cap) e = some m')
    (hc : Covered ops m) (houter : Moment.reenters ⟨m, e, m'⟩ = false) (hu : m.Unannounced) :
    m'.Unannounced := by
  intro x hx hgives
  have hold : ∀ y ∈ m.tasks, y.givesUp → m'.session.goAwaySent = false := by
    intro y hy hygives
    have hne : m.stack ≠ [] := by
      rintro hnil
      rw [Machine.tasks, hnil] at hy
      cases hy
    rw [goAwaySent_of_next? h houter hne]
    exact hu y hy hygives
  rcases givesUp_of_next? h hc hx hgives with hx | ⟨-, hsent⟩ | ⟨r, err, -, -, -, hy, -⟩
  · exact hold x hx hgives
  · exact hsent
  · exact hold _ hy rfl

/-! ## Streams that are to be given up are given up -/

def Machine.Pending (m : Machine) (r : StreamRef) : Prop := ∃ x ∈ m.tasks, x.GivesUp m.session r

theorem Task.givesUp_overflow {s : Session} {r q : StreamRef} {e : Error} :
    Task.GivesUp s r (.overflow q e) ↔ q = r := by
  constructor
  · rintro (⟨e', h⟩ | ⟨version, status, h⟩) <;> cases h
    rfl
  · rintro rfl
    exact .inl ⟨e, rfl⟩

theorem Task.givesUp_reset {s : Session} {r : StreamRef} {version : Version} {id : UInt32}
    {status : StreamStatus} : Task.GivesUp s r (.reset version id status) ↔ id = s.idOf r := by
  constructor
  · rintro (⟨e', h⟩ | ⟨version, status, h⟩) <;> cases h
    rfl
  · rintro rfl
    exact .inr ⟨version, status, rfl⟩

instance (s : Session) (r : StreamRef) : (x : Task) → Decidable (x.GivesUp s r)
  | .overflow q _ => decidable_of_iff (q = r) Task.givesUp_overflow.symm
  | .reset _ id _ => decidable_of_iff (id = s.idOf r) Task.givesUp_reset.symm
  | .call _ | .flush | .endWrite _ | .release | .tell .. | .announce _ | .tellRegistered _ | .lose _
  | .reclaim _ | .accept .. =>
    .isFalse (by rintro (⟨e, h⟩ | ⟨version, status, h⟩) <;> cases h)

instance (m : Machine) (r : StreamRef) : Decidable (m.Pending r) :=
  inferInstanceAs (Decidable (∃ x ∈ m.tasks, x.GivesUp m.session r))

theorem Task.GivesUp.givesUp {s : Session} {r : StreamRef} {x : Task} (h : x.GivesUp s r) :
    x.givesUp := by
  rcases h with ⟨e, rfl⟩ | ⟨version, status, rfl⟩ <;> rfl

theorem Task.GivesUp.of_idOf {s t : Session} {r : StreamRef} {x : Task} (h : x.GivesUp s r)
    (hid : t.idOf r = s.idOf r) : x.GivesUp t r := by
  rcases h with h | ⟨version, status, rfl⟩
  · exact .inl h
  · exact .inr ⟨version, status, by rw [hid]⟩

theorem pending_of_next? {r : StreamRef} (h : m.next? (.standard cap) e = some m')
    (hid : m'.session.idOf r = m.session.idOf r) (hkept : Moment.forsakes ⟨m, e, m'⟩ = false)
    (hu : m.Unannounced) (hp : m.Pending r) : m'.Pending r ∨ r ∉ m'.session.table := by
  obtain ⟨x, hx, hgives⟩ := hp
  have hstay : x ∈ m'.tasks → m'.Pending r := fun hx' => ⟨x, hx', hgives.of_idOf hid⟩
  have hcall : ∀ c, x ≠ .call c := by
    rintro c rfl
    have := hgives.givesUp
    cases this
  have hreturned : ∀ {c rest outcome below}, m.stack = ⟨.call c :: rest, outcome⟩ :: below →
      m'.stack = ⟨rest, outcome⟩ :: below → x ∈ m'.tasks := by
    intro c rest outcome below hstack hstack'
    rw [Machine.tasks_of_stack hstack, List.cons_append] at hx
    rw [Machine.tasks_of_stack hstack']
    exact (List.mem_cons.1 hx).resolve_left (hcall c)
  cases Machine.happens_of_next? h with
  | invoke op yields possible =>
    refine .inl (hstay ?_)
    rw [Machine.tasks_of_stack rfl]
    exact List.mem_append_right _ hx
  | @tick task rest outcome below stack notCall =>
    have hsent := hu x hx hgives.givesUp
    rw [Machine.tasks_of_stack stack, List.cons_append] at hx
    rcases List.mem_cons.1 hx with rfl | hx
    · rcases hgives with ⟨err, rfl⟩ | ⟨version, status, rfl⟩
      · refine .inl ⟨.reset (m.session.stream r).version (m.session.idOf r) .flowControlError, ?_,
          .inr ⟨_, _, rfl⟩⟩
        rw [Machine.tasks_of_stack rfl]
        exact List.mem_append_left _ List.mem_cons_self
      · exact .inr (m.session.reset_table _ version r status hsent)
    · refine .inl (hstay ?_)
      rw [Machine.tasks_of_stack rfl, List.append_assoc]
      exact List.mem_append_right _ hx
  | answer reply stack => exact .inl (hstay (hreturned stack rfl))
  | caught p stack tell => exact .inl (hstay (hreturned stack rfl))
  | @broken p c rest outcome below stack notTell =>
    refine .inl (hstay ?_)
    rw [Machine.tasks_of_stack stack] at hx
    rw [Machine.tasks_of_stack rfl]
    refine (List.mem_append.1 hx).resolve_left fun hin => ?_
    have hbreak : Moment.isBreak ⟨m, .panic p, ⟨m.session, ⟨[], .panicked p⟩ :: below⟩⟩ = true := by
      simp only [Moment.isBreak, Machine.awaited?_of_stack stack]
      cases c <;> first | rfl | cases notTell
    rw [Moment.forsakes, hbreak, Bool.true_and, stack, List.head?_cons, Option.any_some,
      List.any_eq_false] at hkept
    exact hkept x hin hgives.givesUp
  | leave stack =>
    rw [Machine.tasks_of_stack stack] at hx
    exact .inl (hstay hx)
  | edit => exact .inl (hstay hx)
  | drop => exact .inl (hstay hx)

end Moment

end Spdy
