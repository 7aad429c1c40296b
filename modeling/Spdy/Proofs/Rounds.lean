import Spdy.Proofs.Course
import Spdy.Proofs.FlowControl

/-!
# Rounds of notices

Listeners are told one after another, and each of them may ask for anything before the next one is told: it may have
others registered or taken off, and it may break off. The round goes on with those who were registered when it began.

* `callsAt` : the calls of the operation at a depth of the stack;
* `waits_of_next?` : while a listener is being told, nothing but the end of its call moves the operation that tells it;
* `Proceeds` : how a round goes, as far as it has come;
* `Proclaims` : how an announcement goes, in which the primary listener comes before those who are registered;
* `proceeds_of_tell`, `proclaims_of_announce` : and so they go.
-/

namespace Spdy

/-! ## Calls of one operation -/

/-- The call that is made by the operation at a depth of the stack. -/
def Moment.callAt? (depth : Nat) (mo : Moment) : Option Call :=
  if mo.after.stack.length = depth then mo.called? else none

/-- The calls that are made by the operation at a depth of the stack. -/
def callsAt (depth : Nat) (past : List Moment) : List Call := past.filterMap (·.callAt? depth)

theorem callsAt_append (depth : Nat) (past : List Moment) (mo : Moment) :
    callsAt depth (past ++ [mo]) = callsAt depth past ++ (mo.callAt? depth).toList := by
  rw [callsAt, List.filterMap_append, ← callsAt]
  cases h : mo.callAt? depth <;> simp [h]

section Waiting

variable {enc : Encoder} {m m' : Machine} {e : Event} {above below : List Activation} {rest : List Task}
  {outcome : Outcome} {depth : Nat}

theorem callAt?_of_above {mo : Moment} {a : Activation} (h : mo.after.stack = a :: above ++ below)
    (hdepth : depth ≤ below.length) : mo.callAt? depth = none := by
  refine if_neg fun hlength => ?_
  rw [h, List.length_append, List.length_cons] at hlength
  omega

theorem callAt?_of_called? {mo : Moment} (h : mo.called? = none) : mo.callAt? depth = none := by
  unfold Moment.callAt?
  split
  · exact h
  · rfl

theorem awaited?_of_notCall {a : Activation} (stack : m.stack = a :: below)
    (head : ∀ x ∈ a.todo.head?, x.isCall = false) : m.awaited? = none := by
  cases h : m.awaited? with
  | none => rfl
  | some c =>
    obtain ⟨rest, outcome, below', hstack⟩ := Machine.stack_of_awaited? h
    rw [hstack] at stack
    obtain ⟨rfl, -⟩ := List.cons.inj stack
    cases head _ rfl

/-- No call comes to be waited for if the innermost operation has something else to do first. -/
theorem called?_of_notCall {a : Activation} (stack : m'.stack = a :: below)
    (head : ∀ x ∈ a.todo.head?, x.isCall = false) : Moment.called? ⟨m, e, m'⟩ = none := by
  have h := awaited?_of_notCall stack head
  cases e <;> first | rfl | exact h

/-- Whatever happens happens to the innermost operation, or further up. -/
theorem under_of_next? {a : Activation} (stack : m.stack = a :: below) (h : m.next? enc e = some m') :
    (∃ b top, m'.stack = b :: top ++ below) ∨ e = .leave ∧ m'.stack = below := by
  cases Machine.happens_of_next? h with
  | invoke op yields possible => exact .inl ⟨_, [a], congrArg _ stack⟩
  | tick stack' notCall =>
    rw [stack] at stack'
    cases stack'
    exact .inl ⟨_, [], rfl⟩
  | answer reply stack' =>
    rw [stack] at stack'
    cases stack'
    exact .inl ⟨_, [], rfl⟩
  | caught p stack' tell =>
    rw [stack] at stack'
    cases stack'
    exact .inl ⟨_, [], rfl⟩
  | broken p stack' notTell =>
    rw [stack] at stack'
    cases stack'
    exact .inl ⟨_, [], rfl⟩
  | leave stack' =>
    rw [stack] at stack'
    cases stack'
    exact .inr ⟨rfl, rfl⟩
  | edit change yields => exact .inl ⟨a, [], stack⟩
  | drop seq yields => exact .inl ⟨a, [], stack⟩

/-- While a listener is told by the innermost operation, something else begins further up, or its call is over, or the
operation is not concerned. -/
theorem told_of_next? {l : Listener} {notice : Notice}
    (stack : m.stack = ⟨.call (.tell l notice) :: rest, outcome⟩ :: below) (h : m.next? enc e = some m') :
    (∃ a, m'.stack = a :: m.stack) ∨ m'.stack = ⟨rest, outcome⟩ :: below ∨
      m'.stack = m.stack ∧ Moment.called? ⟨m, e, m'⟩ = none := by
  cases Machine.happens_of_next? h with
  | invoke op yields possible => exact .inl ⟨_, rfl⟩
  | tick stack' notCall =>
    rw [stack] at stack'
    cases stack'
    cases notCall
  | answer reply stack' =>
    rw [stack] at stack'
    cases stack'
    exact .inr (.inl rfl)
  | caught p stack' tell =>
    rw [stack] at stack'
    cases stack'
    exact .inr (.inl rfl)
  | broken p stack' notTell =>
    rw [stack] at stack'
    cases stack'
    cases notTell
  | leave stack' =>
    rw [stack] at stack'
    cases stack'
  | edit change yields => exact .inr (.inr ⟨rfl, rfl⟩)
  | drop seq yields => exact .inr (.inr ⟨rfl, rfl⟩)

/-- While a listener is being told, the operation that tells it makes no call. It stays where it is, under those that
are asked for meanwhile, until the listener's call is over. -/
theorem waits_of_next? {l : Listener} {notice : Notice}
    (stack : m.stack = above ++ ⟨.call (.tell l notice) :: rest, outcome⟩ :: below)
    (head : ∀ x ∈ rest.head?, x.isCall = false) (h : m.next? enc e = some m') :
    Moment.callAt? (below.length + 1) ⟨m, e, m'⟩ = none ∧
      ((∃ above', m'.stack = above' ++ ⟨.call (.tell l notice) :: rest, outcome⟩ :: below) ∨
        m'.stack = ⟨rest, outcome⟩ :: below) := by
  cases above with
  | nil =>
    rcases told_of_next? stack h with ⟨a, hstack⟩ | hstack | ⟨hstack, hcalled⟩
    · rw [stack] at hstack
      rw [← List.nil_append (_ :: below), ← List.cons_append] at hstack
      exact ⟨callAt?_of_above hstack (Nat.le_refl _), .inl ⟨[a], hstack⟩⟩
    · exact ⟨callAt?_of_called? (called?_of_notCall hstack head), .inr hstack⟩
    · exact ⟨callAt?_of_called? hcalled, .inl ⟨[], hstack.trans stack⟩⟩
  | cons a above =>
    rw [List.cons_append] at stack
    rcases under_of_next? stack h with ⟨b, top, hstack⟩ | ⟨rfl, hstack⟩
    · refine ⟨callAt?_of_above hstack ?_, .inl ⟨b :: top ++ above, by rw [hstack, List.append_assoc]⟩⟩
      rw [List.length_append, List.length_cons]
      exact Nat.le_add_left _ _
    · exact ⟨callAt?_of_called? rfl, .inl ⟨above, hstack⟩⟩

end Waiting

/-! ## How a round goes -/

/-- How a round goes that tells listeners something and is to be followed by `rest`, as far as it has come: they are
called one after another, each once, and all of them have been when it comes to its end. As soon as nobody is being told
it goes on. -/
structure Proceeds (notice : Notice) (rest : List Task) (outcome : Outcome) (below : List Activation)
    (ls : List Listener) (later : List Moment) (last : Machine) : Prop where
  inOrder : callsAt (below.length + 1) later <+: ls.map (.tell · notice)
  whole : ∀ enc e n, last.next? enc e = some n → n.stack = ⟨rest, outcome⟩ :: below →
    callsAt (below.length + 1) later = ls.map (.tell · notice)
  goesOn : ∀ enc, last.stack.length ≤ below.length + 1 → last.awaited? = none →
    ∃ n, last.next? enc .tick = some n ∧ (n.stack = ⟨rest, outcome⟩ :: below ∨ n.awaited?.isSome)

section Rounds

variable {ok : Encoder → Prop} {enc : Encoder} {notice : Notice} {rest : List Task} {outcome : Outcome}
  {below : List Activation} {m m' last : Machine} {e : Event} {later : List Moment} {ls done left : List Listener}

/-- What has become of a list of listeners: the next one is to be told, or the last of those who were is being told. -/
inductive Telling (notice : Notice) (rest : List Task) (outcome : Outcome) (below : List Activation) :
    List Listener → List Listener → Machine → Prop
  | next {m : Machine} {done left : List Listener} (stack : m.stack = ⟨.tell left notice :: rest, outcome⟩ :: below) :
      Telling notice rest outcome below done left m
  | told {m : Machine} (above : List Activation) {l : Listener} {done left : List Listener}
      (stack : m.stack = above ++ ⟨.call (.tell l notice) :: .tell left notice :: rest, outcome⟩ :: below) :
      Telling notice rest outcome below (done ++ [l]) left m

/-- A step of a round: the next listener is called, or nobody is. The round ends when nobody is left. -/
theorem Telling.step (telling : Telling notice rest outcome below done left m) (h : m.next? enc e = some m') :
    (∃ new left', left = new ++ left' ∧ Telling notice rest outcome below (done ++ new) left' m' ∧
        (Moment.callAt? (below.length + 1) ⟨m, e, m'⟩).toList = new.map (.tell · notice)) ∨
      left = [] ∧ m'.stack = ⟨rest, outcome⟩ :: below := by
  cases telling with
  | next stack =>
    obtain ⟨rfl, rfl⟩ := Machine.tick_of_stack stack rfl h
    cases left with
    | nil => exact .inr ⟨rfl, rfl⟩
    | cons l left =>
      refine .inl ⟨[l], left, rfl, .told [] rfl, ?_⟩
      simp [Moment.callAt?, Moment.called?, Machine.awaited?, Session.perform]
  | told above stack =>
    obtain ⟨hcall, ⟨above', hstack⟩ | hstack⟩ := waits_of_next? stack (by simp [Task.isCall]) h
    · exact .inl ⟨[], left, rfl, by rw [List.append_nil]; exact .told above' hstack, by rw [hcall]; rfl⟩
    · exact .inl ⟨[], left, rfl, .next hstack, by rw [hcall]; rfl⟩

theorem Telling.stack_ne (telling : Telling notice rest outcome below done left m) :
    m.stack ≠ ⟨rest, outcome⟩ :: below := by
  cases telling with
  | next stack => exact Machine.stack_ne_of_longer [] stack (Nat.lt_succ_self _)
  | told above stack => exact Machine.stack_ne_of_longer above stack (Nat.lt_add_of_pos_right Nat.two_pos)

/-- As soon as nobody is being told, the next one is, or the round is over. -/
theorem Telling.goesOn (telling : Telling notice rest outcome below done left m)
    (hlength : m.stack.length ≤ below.length + 1) (idle : m.awaited? = none) (enc : Encoder) :
    ∃ n, m.next? enc .tick = some n ∧ (n.stack = ⟨rest, outcome⟩ :: below ∨ n.awaited?.isSome) := by
  cases telling with
  | next stack =>
    refine ⟨_, by simp only [Machine.next?, Machine.tick, stack]; rfl, ?_⟩
    cases left with
    | nil => exact .inl rfl
    | cons l left => exact .inr rfl
  | told above stack =>
    obtain rfl : above = [] := by
      rw [stack, List.length_append, List.length_cons] at hlength
      exact List.eq_nil_of_length_eq_zero (by omega)
    rw [Machine.awaited?_of_stack stack] at idle
    cases idle

/-- As long as a round goes on, some listeners were told in order and the others are left. -/
theorem telling_of_course (telling : Telling notice rest outcome below done left m) (course : Course ok m later last)
    (going : ∀ x ∈ later, x.after.stack ≠ ⟨rest, outcome⟩ :: below) :
    ∃ new left', left = new ++ left' ∧ Telling notice rest outcome below (done ++ new) left' last ∧
      callsAt (below.length + 1) later = new.map (.tell · notice) := by
  induction course with
  | start => exact ⟨[], left, rfl, by rwa [List.append_nil], rfl⟩
  | @next later m' m'' e enc course may h ih =>
    obtain ⟨new, left', rfl, htelling, hcalls⟩ := ih fun x hx => going x (List.mem_append_left _ hx)
    have hgoing := going ⟨m', e, m''⟩ (List.mem_append_right _ List.mem_cons_self)
    obtain ⟨more, left'', rfl, htelling', hcall⟩ := (htelling.step h).resolve_right fun hend => hgoing hend.2
    refine ⟨new ++ more, left'', (List.append_assoc ..).symm, by rwa [← List.append_assoc], ?_⟩
    rw [callsAt_append, hcalls, hcall, List.map_append]

theorem proceeds_of_tell (stack : m.stack = ⟨.tell ls notice :: rest, outcome⟩ :: below) (course : Course ok m later last)
    (going : ∀ x ∈ later, x.after.stack ≠ ⟨rest, outcome⟩ :: below) :
    Proceeds notice rest outcome below ls later last := by
  have hbegun : Telling notice rest outcome below [] ls m := .next stack
  obtain ⟨done, left, rfl, htelling, hcalls⟩ := telling_of_course hbegun course going
  refine ⟨?_, fun enc e n h hend => ?_, fun enc hlength idle => htelling.goesOn hlength idle enc⟩
  · rw [hcalls, List.map_append]
    exact List.prefix_append _ _
  · rcases htelling.step h with ⟨_, _, _, htelling', _⟩ | ⟨rfl, -⟩
    · exact absurd hend htelling'.stack_ne
    · rw [hcalls, List.append_nil]

/-! ## The primary listener first -/

/-- The turn of those who are registered begins: they are looked up, and nobody is called yet. -/
structure Moment.TurnsTo (notice : Notice) (rest : List Task) (outcome : Outcome) (below : List Activation)
    (mo : Moment) : Prop where
  event : mo.event = .tick
  before : mo.before.stack = ⟨.tellRegistered notice :: rest, outcome⟩ :: below
  after : mo.after.stack = ⟨.tell mo.before.session.controlListeners notice :: rest, outcome⟩ :: below

/-- How an announcement goes as long as the turn of those who are registered has not come. -/
structure Leads (notice : Notice) (rest : List Task) (outcome : Outcome) (below : List Activation)
    (primary : Option Listener) (later : List Moment) (last : Machine) : Prop where
  inOrder : callsAt (below.length + 1) later <+: primary.toList.map (.tell · notice)
  unended : ∀ enc e n, last.next? enc e = some n → n.stack ≠ ⟨rest, outcome⟩ :: below
  goesOn : ∀ enc, last.stack.length ≤ below.length + 1 → last.awaited? = none → (last.next? enc .tick).isSome

/-- How an announcement goes: first the primary listener is called, and then those who are registered when their turn
begins. -/
inductive Proclaims (notice : Notice) (rest : List Task) (outcome : Outcome) (below : List Activation)
    (primary : Option Listener) (later : List Moment) (last : Machine) : Prop
  | leads (leads : Leads notice rest outcome below primary later last)
  | turned {a b : List Moment} {mo : Moment} (split : later = a ++ mo :: b)
      (led : callsAt (below.length + 1) a = primary.toList.map (.tell · notice))
      (turns : mo.TurnsTo notice rest outcome below)
      (proceeds : Proceeds notice rest outcome below (primary.toList ++ mo.before.session.controlListeners) later last)

/-- What has become of a notice that is announced: the primary listener is to be told, or is being told, or was. -/
inductive Announcing (notice : Notice) (rest : List Task) (outcome : Outcome) (below : List Activation)
    (primary : Option Listener) : List Listener → Machine → Prop
  | first {m : Machine} (stack : m.stack = ⟨.announce notice :: rest, outcome⟩ :: below)
      (same : m.session.primary = primary) : Announcing notice rest outcome below primary [] m
  | told {m : Machine} (above : List Activation) {l : Listener} (same : primary = some l)
      (stack : m.stack = above ++ ⟨.call (.tell l notice) :: .tellRegistered notice :: rest, outcome⟩ :: below) :
      Announcing notice rest outcome below primary [l] m
  | turn {m : Machine} (stack : m.stack = ⟨.tellRegistered notice :: rest, outcome⟩ :: below) :
      Announcing notice rest outcome below primary primary.toList m

variable {primary : Option Listener}

/-- A step of an announcement: the primary listener is called, or nobody is, or it is the turn of the others. -/
theorem Announcing.step (announcing : Announcing notice rest outcome below primary done m) (h : m.next? enc e = some m') :
    (∃ new, Announcing notice rest outcome below primary (done ++ new) m' ∧
        (Moment.callAt? (below.length + 1) ⟨m, e, m'⟩).toList = new.map (.tell · notice)) ∨
      done = primary.toList ∧ Moment.TurnsTo notice rest outcome below ⟨m, e, m'⟩ := by
  cases announcing with
  | first stack same =>
    obtain ⟨rfl, rfl⟩ := Machine.tick_of_stack stack rfl h
    cases primary with
    | none =>
      refine .inl ⟨[], .turn ?_, ?_⟩
      · simp [Session.perform, same]
      · simp [Moment.callAt?, Moment.called?, Machine.awaited?, Session.perform, same]
    | some l =>
      refine .inl ⟨[l], .told [] rfl ?_, ?_⟩
      · simp [Session.perform, same]
      · simp [Moment.callAt?, Moment.called?, Machine.awaited?, Session.perform, same]
  | told above same stack =>
    obtain ⟨hcall, ⟨above', hstack⟩ | hstack⟩ := waits_of_next? stack (by simp [Task.isCall]) h
    · exact .inl ⟨[], .told above' same hstack, by rw [hcall]; rfl⟩
    · refine .inl ⟨[], ?_, by rw [hcall]; rfl⟩
      rw [List.append_nil, ← Option.toList_some, ← same]
      exact .turn hstack
  | turn stack =>
    obtain ⟨rfl, rfl⟩ := Machine.tick_of_stack stack rfl h
    exact .inr ⟨rfl, rfl, stack, rfl⟩

/-- An announcement that goes on has more to do than what follows it. -/
theorem Announcing.stack_ne (announcing : Announcing notice rest outcome below primary done m) :
    m.stack ≠ ⟨rest, outcome⟩ :: below := by
  cases announcing with
  | first stack => exact Machine.stack_ne_of_longer [] stack (Nat.lt_succ_self _)
  | told above same stack => exact Machine.stack_ne_of_longer above stack (Nat.lt_add_of_pos_right Nat.two_pos)
  | turn stack => exact Machine.stack_ne_of_longer [] stack (Nat.lt_succ_self _)

theorem Announcing.prefix (announcing : Announcing notice rest outcome below primary done m) : done <+: primary.toList := by
  cases announcing with
  | first => exact List.nil_prefix
  | told above same =>
    rw [same]
    exact List.prefix_rfl
  | turn => exact List.prefix_rfl

/-- As soon as the primary listener is not being told, the announcement goes on. -/
theorem Announcing.goesOn (announcing : Announcing notice rest outcome below primary done m)
    (hlength : m.stack.length ≤ below.length + 1) (idle : m.awaited? = none) (enc : Encoder) :
    (m.next? enc .tick).isSome := by
  cases announcing with
  | first stack => simp [Machine.next?, Machine.tick, stack]
  | told above same stack =>
    obtain rfl : above = [] := by
      rw [stack, List.length_append, List.length_cons] at hlength
      exact List.eq_nil_of_length_eq_zero (by omega)
    rw [Machine.awaited?_of_stack stack] at idle
    cases idle
  | turn stack => simp [Machine.next?, Machine.tick, stack]

/-- As long as the turn of those who are registered has not begun, only the primary listener was told. -/
theorem announcing_of_course (announcing : Announcing notice rest outcome below primary done m)
    (course : Course ok m later last) :
    (∃ new, Announcing notice rest outcome below primary (done ++ new) last ∧
        callsAt (below.length + 1) later = new.map (.tell · notice)) ∨
      ∃ a mo b new, later = a ++ mo :: b ∧ done ++ new = primary.toList ∧ mo.TurnsTo notice rest outcome below ∧
        Course ok mo.after b last ∧ callsAt (below.length + 1) a = new.map (.tell · notice) := by
  induction course with
  | start => exact .inl ⟨[], by rwa [List.append_nil], rfl⟩
  | @next later m' m'' e enc course may h ih =>
    rcases ih with ⟨new, hannouncing, hcalls⟩ | ⟨a, mo, b, new, rfl, hdone, hturns, hcourse, hcalls⟩
    · rcases hannouncing.step h with ⟨more, hannouncing', hcall⟩ | ⟨hdone, hturns⟩
      · refine .inl ⟨new ++ more, by rwa [← List.append_assoc], ?_⟩
        rw [callsAt_append, hcalls, hcall, List.map_append]
      · exact .inr ⟨later, ⟨m', e, m''⟩, [], new, rfl, hdone, hturns, .start, hcalls⟩
    · exact .inr ⟨a, mo, b ++ [⟨m', e, m''⟩], new, by simp, hdone, hturns, hcourse.next may h, hcalls⟩

/-- A notice is announced to the primary listener first, and then to those who are registered when their turn begins. -/
theorem proclaims_of_announce (stack : m.stack = ⟨.announce notice :: rest, outcome⟩ :: below)
    (course : Course ok m later last) (going : ∀ x ∈ later, x.after.stack ≠ ⟨rest, outcome⟩ :: below) :
    Proclaims notice rest outcome below m.session.primary later last := by
  rcases announcing_of_course (.first stack rfl) course with
    ⟨new, hannouncing, hcalls⟩ | ⟨a, mo, b, new, rfl, hdone, hturns, hcourse, hcalls⟩
  · refine .leads ⟨?_, fun enc e n h => ?_, fun enc hlength idle => hannouncing.goesOn hlength idle enc⟩
    · rw [hcalls]
      exact hannouncing.prefix.map _
    · rcases hannouncing.step h with ⟨_, hannouncing', _⟩ | ⟨_, hturns⟩
      · exact hannouncing'.stack_ne
      · have hbegun : Telling notice rest outcome below [] _ n := .next hturns.after
        exact hbegun.stack_ne
  · have hround := proceeds_of_tell hturns.after hcourse fun x hx =>
      going x (List.mem_append_right _ (List.mem_cons_of_mem _ hx))
    rw [List.nil_append] at hdone
    rw [hdone] at hcalls
    -- nobody is called when those who are registered are looked up
    have hturn : mo.callAt? (below.length + 1) = none :=
      callAt?_of_called? (called?_of_notCall hturns.after (by simp [Task.isCall]))
    have hwhole : callsAt (below.length + 1) (a ++ mo :: b) =
        m.session.primary.toList.map (.tell · notice) ++ callsAt (below.length + 1) b := by
      rw [← hcalls, callsAt, callsAt, callsAt, List.filterMap_append, List.filterMap_cons_none hturn]
    refine .turned rfl hcalls hturns ⟨?_, fun enc e n h hend => ?_, hround.goesOn⟩
    · rw [hwhole, List.map_append]
      exact (List.prefix_append_right_inj _).2 hround.inOrder
    · rw [hwhole, List.map_append, hround.whole enc e n h hend]

end Rounds

end Spdy
