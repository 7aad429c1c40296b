import Spdy.Proofs.Meanwhile
import Spdy.Proofs.Whereabouts

/-!
# A graceful close drains the channel

Once the writer of a link has taken a graceful close it goes on until it finds the channel empty, though each write that
it reports may make the session submit the next one. If nobody else submits anything and the socket takes what it is
given, this comes to an end, and nothing that could be sent is left behind.

* `Rig.Step`, `Rig.Path` : acts one after another, of which each may be;
* `Rig.drains` : what happens while the writer drains the channel;
* `orders`, `Rig.pending`, `Rig.written` : frames that the session submits, that wait for the writer, and that it takes;
* `Rig.Emptying` : the cases of one step (`Rig.emptying_of_next?`);
* `Rig.Emptied` : what one step comes to (`Rig.Emptying.emptied`), and so a whole path (`Rig.emptied_of_path`);
* `Rig.Run.drain_goes_on`, `Rig.Emptied.at_end` : until the end there is something to do, and what is left then;
* `Rig.graceful_close_drains` : all this for every graceful close that the writer takes.
-/

namespace Spdy

/-! ## Paths -/

namespace Rig

/-- An act, and the rig before and after it. -/
structure Step where
  before : Rig
  act : Act
  after : Rig
deriving Inhabited

/-- What a rig comes to if nothing happens to it but what may be. -/
inductive Path (cap : Nat) (may : Rig → Act → Bool) (start : Rig) : List Step → Rig → Prop
  | start : Path cap may start [] start
  | next {steps : List Step} {r r' : Rig} {a : Act} (path : Path cap may start steps r) (allowed : may r a)
      (h : r.next? cap a = some r') : Path cap may start (steps ++ [⟨r, a, r'⟩]) r'

/-- What a rig comes to if these acts happen to it, with all steps, if each may be. -/
def follow? (cap : Nat) (may : Rig → Act → Bool) (r : Rig) : List Act → Option (List Step × Rig)
  | [] => some ([], r)
  | a :: rest =>
    match r.next? cap a with
    | none => none
    | some r' =>
      if may r a then (r'.follow? cap may rest).map fun (steps, last) => (⟨r, a, r'⟩ :: steps, last) else none

section Path

variable {cap : Nat} {may : Rig → Act → Bool} {begin r start last : Rig} {steps more : List Step}

theorem Path.run (path : Path cap may start steps last) (run : Run cap begin start) : Run cap begin last := by
  induction path with
  | start => exact run
  | next _ _ h ih => exact ih.next h

theorem Path.follow (path : Path cap may start steps r) :
    ∀ {acts : List Act}, r.follow? cap may acts = some (more, last) → Path cap may start (steps ++ more) last := by
  intro acts h
  induction acts generalizing steps r more with
  | nil =>
    obtain ⟨rfl, rfl⟩ := Prod.mk.inj (Option.some.inj h)
    rwa [List.append_nil]
  | cons a rest ih =>
    rw [follow?] at h
    split at h
    · cases h
    · next r' hnext =>
      split at h
      · next allowed =>
        obtain ⟨⟨steps', last'⟩, hrest, heq⟩ := Option.map_eq_some_iff.1 h
        obtain ⟨rfl, rfl⟩ := Prod.mk.inj heq
        have := ih (path.next allowed hnext) hrest
        rwa [List.append_assoc] at this
      · cases h

end Path

/-! ## While the writer drains the channel -/

/-- What happens while the writer drains the channel and nobody else asks the session for anything: operations in
progress go on, listeners and the controller return, the controller does what it was asked for, the peer hangs up, the
socket takes frames, and the writer goes on. It finds the channel empty only when nobody is about to start a write, as
it is whenever all operations have returned and the controller has done everything; then it is at its end. -/
def drains (r : Rig) (a : Act) : Bool :=
  r.chore != .closing &&
    match a with
    | .happens .tick | .happens (.answer _) | .happens (.panic _) | .happens .leave => true
    | .deals _ | .hangsUp _ | .wrote none => true
    | .works => !r.link.channel.isEmpty || r.isStill
    | _ => false

end Rig

/-! ## Frames on their way -/

def Moment.ordered? (mo : Moment) : Option Command := mo.handed?.map fun f => .write f.1 f.2

/-- The frames that were handed over, as the writer is to get them. -/
def orders (past : List Moment) : List Command := past.filterMap Moment.ordered?

theorem orders_singleton (mo : Moment) : orders [mo] = mo.ordered?.toList := by
  rw [orders, List.filterMap_cons, List.filterMap_nil]
  cases mo.ordered? <;> rfl

theorem Moment.asked_writes (mo : Moment) :
    (mo.called? >>= Call.command?).toList.filter Command.isWrite = mo.ordered?.toList := by
  rw [ordered?, handed?]
  cases hcall : mo.called? with
  | none => rfl
  | some c => cases c <;> rfl

namespace Rig

/-- The frames that the writer is still to write: those in the channel, and those that the controller has not put
there. -/
def pending (r : Rig) : List Command := (r.link.channel ++ r.asked).filter Command.isWrite

def Step.taken? (x : Step) : Option Command :=
  match x.act with
  | .works => x.before.link.channel.head?.filter Command.isWrite
  | _ => none

/-- The frames that the writer took, first the first. -/
def written (steps : List Step) : List Command := steps.filterMap Step.taken?

theorem written_singleton (x : Step) : written [x] = x.taken?.toList := by
  rw [written, List.filterMap_cons, List.filterMap_nil]
  cases x.taken? <;> rfl

theorem pending_log (r : Rig) (e : Event) (m : Machine) :
    (r.log e m).pending = r.pending ++ (Moment.ordered? ⟨r.machine, e, m⟩).toList := by
  rw [pending, pending, log, ← List.append_assoc, List.filter_append, Moment.asked_writes]

/-- Something can be taken to the front of a list without changing what is of a kind, if that is one thing at most. -/
theorem filter_erase {α : Type} [BEq α] [LawfulBEq α] {kind : α → Bool} {l : List α} {x : α} (mem : x ∈ l)
    (one : (l.filter kind).length ≤ 1) : [x].filter kind ++ (l.erase x).filter kind = l.filter kind := by
  have hperm := (List.perm_cons_erase mem).filter kind
  rw [← List.singleton_append, List.filter_append] at hperm
  match hl : l.filter kind with
  | [] =>
    rw [hl] at hperm
    exact hperm.symm.eq_nil
  | [y] =>
    rw [hl] at hperm
    exact hperm.symm.eq_singleton
  | _ :: _ :: _ =>
    rw [hl] at one
    simp at one

theorem length_writes (cs : List Command) :
    (cs.filter Command.isWrite).length = (cs.filterMap Command.handler?).length := by
  have hwrite : Command.isWrite = fun c => c.handler?.isSome := by
    funext c
    cases c <;> rfl
  rw [List.length_filterMap_eq_countP, List.countP_eq_length_filter, hwrite]

/-- The controller puts a command into the channel. There is at most one write among those that it was asked for. -/
theorem pending_deals {r : Rig} {c : Command} (mem : c ∈ r.asked) (one : r.carried.length ≤ 1) :
    (r.link.channel ++ [c] ++ r.asked.erase c).filter Command.isWrite = r.pending := by
  have hcount : (r.asked.filter Command.isWrite).length ≤ 1 := by
    rw [carried, List.length_append, List.length_append, ← length_writes] at one
    omega
  rw [pending, List.append_assoc, List.filter_append, List.filter_append, List.filter_append, filter_erase mem hcount]

/-! ## One step -/

/-- What the controller and the writer have to do if the session does nothing: a command is put into the channel and
taken from there, the peer may hang up and so ask for a close, and the writer comes to its end. -/
def burden (r : Rig) : Nat :=
  2 * r.asked.length + r.link.channel.length + (if r.link.reader = .running then 3 else 0) +
    if r.chore = .closing then 0 else 1

/-- A close is passed over: nothing becomes of it but that it is taken. -/
def Step.PassesOver (x : Step) : Prop :=
  x.act = .works → ∀ graceful rest, x.before.link.channel = .close graceful :: rest →
    x.after = { x.before with link := { x.before.link with channel := rest } }

/-- The cases of `Rig.drains`, and what each leaves. -/
inductive Emptying (cap : Nat) (r : Rig) : Act → Rig → Prop
  | goesOn {e : Event} {m : Machine} (free : e.isControllers r.machine = false) (unprompted : e.isUnprompted r.machine)
      (h : r.machine.next? (.standard cap) e = some m) : Emptying cap r (.happens e) (r.log e m)
  | hangsUp (fault : Option SocketFault) (reader : r.link.reader = .running) :
      Emptying cap r (.hangsUp fault)
        { r with link := r.link.stopReader fault, asked := r.asked ++ [.close fault.isNone] }
  | deals {c : Command} (mem : c ∈ r.asked) :
      Emptying cap r (.deals c)
        { r with
          asked := r.asked.erase c
          link := { r.link with channel := r.link.channel ++ [c] }
          submitted := r.submitted ++ [c] }
  | takes {bytes : Bytes} {x : Handler} {rest : List Command} (idle : r.chore = .idle)
      (channel : r.link.channel = .write bytes x :: rest) :
      Emptying cap r .works { r with link := { r.link with channel := rest }, chore := .writing x }
  | passes {graceful : Bool} {rest : List Command} (idle : r.chore = .idle)
      (channel : r.link.channel = .close graceful :: rest) :
      Emptying cap r .works { r with link := { r.link with channel := rest } }
  | ends (idle : r.chore = .idle) (channel : r.link.channel = []) (still : r.isStill) :
      Emptying cap r .works { r with chore := .closing }
  | reports {x : Handler} {m : Machine} (chore : r.chore = .writing x)
      (h : r.machine.next? (.standard cap) (.invoke (report x none)) = some m) :
      Emptying cap r (.wrote none) ({ r with chore := .idle }.log (.invoke (report x none)) m)

/-- The numbers of the writes among some commands. -/
def seqs (cs : List Command) : List Nat := (cs.filterMap Command.handler?).map (·.seq)

theorem seqs_append (cs ds : List Command) : seqs (cs ++ ds) = seqs cs ++ seqs ds := by
  rw [seqs, List.filterMap_append, List.map_append, ← seqs, ← seqs]

/-- What a rig comes to while the writer drains the channel. The writer takes frames in the order in which they are
submitted and reports what it takes in turn. What happens to the session makes some work for the controller and the
writer, and each step does some. -/
structure Emptied (cap : Nat) (start : Rig) (steps : List Step) (since : List Moment) (last : Rig) : Prop where
  past : last.past = start.past ++ since
  run : Spdy.Run (.standard cap) start.machine since last.machine
  calm : ∀ mo ∈ since, mo.event.isUnprompted mo.before ∧ mo.isFailure = false
  order : written steps ++ last.pending = start.pending ++ orders since
  reported : reports since ++ last.chore.handler?.toList.map (·.seq) =
    start.chore.handler?.toList.map (·.seq) ++ seqs (written steps)
  passes : ∀ x ∈ steps, x.PassesOver
  length : steps.length + last.burden ≤ 3 * since.length + start.burden
  writer : last.link.writer = .draining
  still : last.chore = .closing → last.link.channel = [] ∧ last.isStill

section Step

variable {cap : Nat} {config : Config} {primary : Option Listener} {s : Session} {r r' begin mid last : Rig} {a : Act}
  {steps more : List Step} {since later : List Moment}

theorem emptying_of_next? (writer : r.link.writer = .draining) (allowed : r.drains a) (h : r.next? cap a = some r') :
    Emptying cap r a r' := by
  unfold drains at allowed
  rw [Bool.and_eq_true, bne_iff_ne] at allowed
  obtain ⟨hchore, allowed⟩ := allowed
  cases a with
  | happens e =>
    cases moves_of_next? h with
    | happens free hm => cases e <;> first | exact .goesOn free rfl hm | cases allowed
  | hangsUp fault =>
    rw [next?] at h
    split at h
    · next reader => exact Option.some.inj h ▸ .hangsUp fault reader
    · cases h
  | deals c =>
    have hsubmit : r.link.submit? c = some { r.link with channel := r.link.channel ++ [c] } := by
      simp only [Link.submit?, writer]
    simp only [next?, hsubmit] at h
    split at h
    · next mem =>
      rw [submit_of_not_closing (r := { r with asked := r.asked.erase c }) hchore] at h
      exact Option.some.inj h ▸ .deals mem
    · cases h
  | works =>
    cases moves_of_next? h with
    | takes idle job =>
      cases job with
      | write _ channel => exact .takes idle channel
    | goesOn idle job close =>
      cases job with
      | drain running => cases writer.symm.trans running
      | skip _ channel => exact .passes idle channel
      | _ => simp at close
    | closes idle job =>
      cases job with
      | cut running => cases writer.symm.trans running
      | drained _ channel =>
        rw [channel] at allowed
        exact .ends idle channel allowed
  | wrote fault =>
    cases fault with
    | none =>
      cases moves_of_next? h with
      | wrote chore hm => exact .reports chore hm
    | some fault => cases allowed
  | _ => cases allowed

theorem Emptied.start (writer : r.link.writer = .draining) (chore : r.chore ≠ .closing) : Emptied cap r [] [] r where
  past := (List.append_nil _).symm
  run := .start
  calm _ hmo := absurd hmo List.not_mem_nil
  order := (List.append_nil _).symm
  reported := (List.append_nil _).symm
  passes _ hx := absurd hx List.not_mem_nil
  length := Nat.le_refl _
  writer := writer
  still closing := absurd closing chore

theorem Emptied.trans (h : Emptied cap begin steps since mid) (h' : Emptied cap mid more later last) :
    Emptied cap begin (steps ++ more) (since ++ later) last where
  past := by rw [h'.past, h.past, List.append_assoc]
  run := h.run.append h'.run
  calm mo hmo := (List.mem_append.1 hmo).elim (h.calm mo) (h'.calm mo)
  order := by
    rw [written, List.filterMap_append, ← written, ← written, List.append_assoc, h'.order, ← List.append_assoc, h.order,
      orders, orders, orders, List.filterMap_append, List.append_assoc]
  reported := by
    rw [reports, List.filterMap_append, ← reports, ← reports, List.append_assoc, h'.reported, ← List.append_assoc,
      h.reported, List.append_assoc, ← seqs_append, written, written, written, List.filterMap_append]
  passes x hx := (List.mem_append.1 hx).elim (h.passes x) (h'.passes x)
  length := by
    have := h.length
    have := h'.length
    rw [List.length_append, List.length_append]
    omega
  writer := h'.writer
  still := h'.still

/-- A step in which nothing happens to the session. -/
theorem Emptied.of_quiet (machine : r'.machine = r.machine) (past : r'.past = r.past)
    (order : (Step.taken? ⟨r, a, r'⟩).toList ++ r'.pending = r.pending)
    (reported : r'.chore.handler?.toList.map (·.seq) =
      r.chore.handler?.toList.map (·.seq) ++ seqs (Step.taken? ⟨r, a, r'⟩).toList)
    (passes : Step.PassesOver ⟨r, a, r'⟩) (less : r'.burden < r.burden) (writer : r'.link.writer = .draining)
    (still : r'.chore = .closing → r'.link.channel = [] ∧ r'.isStill) : Emptied cap r [⟨r, a, r'⟩] [] r' where
  past := by rw [past, List.append_nil]
  run := machine ▸ .start
  calm _ hmo := absurd hmo List.not_mem_nil
  order := by
    rw [written_singleton]
    exact order.trans (List.append_nil _).symm
  reported := by
    rw [written_singleton]
    exact reported
  passes x hx := List.mem_singleton.1 hx ▸ passes
  length := by
    rw [List.length_singleton, List.length_nil]
    omega
  writer := writer
  still := still

theorem burden_log (q : Rig) (e : Event) (m : Machine) : (q.log e m).burden ≤ q.burden + 2 := by
  have hone : (Moment.called? ⟨q.machine, e, m⟩ >>= Call.command?).toList.length ≤ 1 := by
    cases Moment.called? ⟨q.machine, e, m⟩ >>= Call.command? <;> simp
  rw [burden, burden, log, List.length_append]
  dsimp only
  omega

/-- A step in which something happens to the session. -/
theorem Emptied.of_log {q : Rig} {e : Event} {m : Machine} (same : q.machine = r.machine) (past : q.past = r.past)
    (link : q.link = r.link) (asked : q.asked = r.asked) (h : r.machine.next? (.standard cap) e = some m)
    (calm : e.isUnprompted r.machine ∧ Moment.isFailure ⟨r.machine, e, m⟩ = false) (act : a ≠ .works)
    (reported : (Moment.reported? ⟨r.machine, e, m⟩).toList ++ q.chore.handler?.toList.map (·.seq) =
      r.chore.handler?.toList.map (·.seq))
    (writer : r.link.writer = .draining) (chore : r.chore ≠ .closing) (chore' : q.chore ≠ .closing) :
    Emptied cap r [⟨r, a, q.log e m⟩] [⟨r.machine, e, m⟩] (q.log e m) := by
  have htaken : Step.taken? ⟨r, a, q.log e m⟩ = none := by
    unfold Step.taken?
    split
    · next hact => exact absurd hact act
    · rfl
  have hwritten : written [⟨r, a, q.log e m⟩] = [] := by
    rw [written_singleton, htaken]
    rfl
  have hburden : q.burden = r.burden := by rw [burden, burden, link, asked, if_neg chore, if_neg chore']
  exact {
    past := by rw [log, past, same]
    run := Spdy.Run.start.next h
    calm := fun mo hmo => List.mem_singleton.1 hmo ▸ calm
    order := by
      rw [hwritten, List.nil_append, pending_log, pending, link, asked, same, ← pending, orders_singleton]
    reported := by
      rw [hwritten, ← List.nil_append [_], reports_append]
      exact reported.trans (List.append_nil _).symm
    passes := fun x hx hworks => by
      rw [List.mem_singleton.1 hx] at hworks
      exact absurd hworks act
    length := by
      have := burden_log q e m
      rw [List.length_singleton, List.length_singleton]
      omega
    writer := link ▸ writer
    still := fun closing => absurd closing chore' }

theorem Emptying.emptied (h : Emptying cap r a r') (writer : r.link.writer = .draining) (chore : r.chore ≠ .closing)
    (one : r.carried.length ≤ 1) : ∃ since, Emptied cap r [⟨r, a, r'⟩] since r' := by
  cases h with
  | @goesOn e m free unprompted hm =>
    have hreported : Moment.reported? ⟨r.machine, e, m⟩ = none := reported?_of_not_isReport free
    have hcalm : Moment.isFailure ⟨r.machine, e, m⟩ = false := by
      cases e with
      | invoke op => cases op <;> first | rfl | cases free
      | _ => rfl
    exact ⟨_, .of_log rfl rfl rfl rfl hm ⟨unprompted, hcalm⟩ nofun (by rw [hreported]; rfl) writer chore chore⟩
  | @reports x m writing hm =>
    refine ⟨_, .of_log rfl rfl rfl rfl hm ⟨rfl, rfl⟩ nofun ?_ writer chore nofun⟩
    rw [Operation.reported?_report, writing]
    rfl
  | hangsUp fault reader =>
    refine ⟨_, .of_quiet rfl rfl ?_ (List.append_nil _).symm nofun ?_ writer fun closing => absurd closing chore⟩
    · rw [pending, pending, ← List.append_assoc, List.filter_append _ [_]]
      exact List.append_nil _
    · simp only [burden, reader, Link.stopReader, List.length_append, List.length_singleton, reduceCtorEq, if_true,
        if_false]
      omega
  | @deals c mem =>
    refine ⟨_, .of_quiet rfl rfl (pending_deals mem one) (List.append_nil _).symm nofun ?_ writer
      fun closing => absurd closing chore⟩
    have := List.length_erase_of_mem mem
    have := List.length_pos_of_mem mem
    rw [burden, burden, List.length_append, List.length_singleton]
    dsimp only
    omega
  | @takes bytes x rest idle channel =>
    have htaken : ∀ q, Step.taken? ⟨r, .works, q⟩ = some (.write bytes x) := fun q => by rw [Step.taken?, channel]; rfl
    refine ⟨_, .of_quiet rfl rfl ?_ ?_ ?_ ?_ writer nofun⟩
    · rw [htaken, pending, pending, channel]
      rfl
    · rw [htaken, idle]
      rfl
    · intro _ graceful rest' hclose
      cases channel.symm.trans hclose
    · simp only [burden, channel, idle, List.length_cons, reduceCtorEq, if_false]
      omega
  | @passes graceful rest idle channel =>
    have htaken : ∀ q, Step.taken? ⟨r, .works, q⟩ = none := fun q => by rw [Step.taken?, channel]; rfl
    refine ⟨_, .of_quiet rfl rfl ?_ ?_ ?_ ?_ writer fun closing => absurd closing chore⟩
    · rw [htaken, pending, pending, channel]
      rfl
    · rw [htaken, idle]
      rfl
    · intro _ graceful' rest' hclose
      cases channel.symm.trans hclose
      rfl
    · rw [burden, burden, channel, List.length_cons]
      dsimp only
      omega
  | ends idle channel still =>
    have htaken : ∀ q, Step.taken? ⟨r, .works, q⟩ = none := fun q => by rw [Step.taken?, channel]; rfl
    refine ⟨_, .of_quiet rfl rfl ?_ ?_ ?_ ?_ writer fun _ => ⟨channel, still⟩⟩
    · rw [htaken]
      rfl
    · rw [htaken, idle]
      rfl
    · intro _ graceful rest hclose
      cases channel.symm.trans hclose
    · simp only [burden, idle, reduceCtorEq, if_true, if_false]
      omega

/-- What holds of each step holds of all that happens while the writer drains the channel. -/
theorem emptied_of_path (hnew : Session.new config primary = .ok s) (run : Run cap (new s) begin)
    (writer : begin.link.writer = .draining) (chore : begin.chore ≠ .closing)
    (path : Path cap drains begin steps last) : ∃ since, Emptied cap begin steps since last := by
  induction path with
  | start => exact ⟨[], .start writer chore⟩
  | @next steps r r' a path allowed h ih =>
    obtain ⟨since, hsince⟩ := ih
    have hchore : r.chore ≠ .closing := by
      unfold drains at allowed
      exact bne_iff_ne.1 (Bool.and_eq_true_iff.1 allowed).1
    have hemptying := emptying_of_next? hsince.writer allowed h
    obtain ⟨later, hlater⟩ := hemptying.emptied hsince.writer hchore ((path.run run).carried_le hnew)
    exact ⟨since ++ later, hsince.trans hlater⟩

/-- Until the writer is at its end there is something to do. -/
theorem Run.drain_goes_on (hnew : Session.new config primary = .ok s) (run : Run cap (new s) r)
    (writer : r.link.writer = .draining) (chore : r.chore ≠ .closing) :
    ∃ a r', r.drains a ∧ r.next? cap a = some r' := by
  have hdrains : ∀ {b : Bool}, b = true → (r.chore != .closing && b) = true := fun hb => by
    rw [bne_iff_ne.2 chore, hb]
    rfl
  cases hasked : r.asked with
  | cons c rest =>
    have hc : c ∈ r.asked := hasked ▸ List.mem_cons_self
    exact ⟨.deals c, _, hdrains rfl, by simp only [next?, if_pos hc, Link.submit?, writer]; rfl⟩
  | nil =>
    by_cases hstack : r.machine.stack = []
    · cases hchore : r.chore with
      | closing => exact absurd hchore chore
      | writing x =>
        have hx : x ∈ r.carried := by simp [carried, hchore, Chore.handler?]
        have hyields : r.machine.yields := by rw [Machine.yields, hstack]; rfl
        obtain ⟨r', hr'⟩ := (run.accounts hnew).reportable cap hyields hx none (q := { r with chore := .idle }) rfl
        exact ⟨.wrote none, r', hdrains rfl, by simp only [next?, hchore]; exact hr'⟩
      | idle =>
        have hstill : r.isStill := by rw [isStill, Machine.tasks, hstack, hasked]; rfl
        have hworks : ∃ r', r.next? cap .works = some r' := by
          simp only [next?, hchore, Link.nextJob, writer]
          cases r.link.channel with
          | nil => exact ⟨_, rfl⟩
          | cons c more => cases c <;> exact ⟨_, rfl⟩
        obtain ⟨r', hr'⟩ := hworks
        exact ⟨.works, r', hdrains (by rw [hstill, Bool.or_true]), hr'⟩
    · obtain ⟨e, m, hnext, he⟩ := r.machine.proceeds (.standard cap) hstack
      refine ⟨.happens e, r.log e m, ?_, ?_⟩
      · rcases he with rfl | rfl | rfl <;> exact hdrains rfl
      · have hfree : e.isControllers r.machine = false := by rcases he with rfl | rfl | rfl <;> rfl
        rw [next?, hfree, happen?, hnext]
        rfl

/-- At the end the writer has nothing left to write, and everything is settled. -/
theorem Emptied.at_end (hnew : Session.new config primary = .ok s) (run : Run cap (new s) last)
    (h : Emptied cap begin steps since last) (idle : begin.chore = .idle) (closing : last.chore = .closing) :
    last.link.channel = [] ∧ written steps = begin.pending ++ orders since ∧ reports since = seqs (written steps) ∧
      (∀ seq ∈ reports since, (reports last.past).count seq = 1) ∧ last.machine.session.outstanding = [] ∧
      ∀ q ∈ last.machine.session.outbox.parcels, last.machine.session.canSend q = false := by
  obtain ⟨hchannel, hstill⟩ := h.still closing
  have hended : ∀ fault, last.link.writer ≠ .ended fault := fun fault hended => by cases h.writer.symm.trans hended
  have hhandler : last.chore.handler? = none := by rw [closing]; rfl
  have hpending : last.pending = [] := by
    rw [pending, hchannel, List.nil_append]
    exact List.filter_eq_nil_iff.2 fun c hc => by rw [(last.isStill_iff.1 hstill).2 c hc]; exact Bool.false_ne_true
  have hreported := h.reported
  rw [closing, idle] at hreported
  refine ⟨hchannel, ?_, (List.append_nil _).symm.trans hreported, fun seq hseq => ?_,
    run.settled hnew hended hhandler hchannel hstill⟩
  · rw [← h.order, hpending, List.append_nil]
  · refine List.count_eq_one_of_mem (run.nodup_reports hnew) ?_
    rw [h.past, reports, List.filterMap_append]
    exact List.mem_append_right _ hseq

end Step

/-! ## Graceful closes -/

section Close

variable {cap : Nat} {config : Config} {primary : Option Listener} {s : Session} {r start : Rig} {rest : List Command}

theorem start_of_takes (running : r.link.writer = .running) (channel : r.link.channel = .close true :: rest)
    (takes : r.next? cap .works = some start) :
    start.link.writer = .draining ∧ start.chore = .idle ∧ start.past = r.past ∧ start.pending = r.pending := by
  rw [next?, Link.nextJob, running, channel] at takes
  cases hchore : r.chore with
  | idle =>
    rw [hchore] at takes
    obtain rfl := Option.some.inj takes
    refine ⟨rfl, rfl, rfl, ?_⟩
    rw [pending, pending, channel]
    rfl
  | _ =>
    rw [hchore] at takes
    cases takes

/-- The writer takes a graceful close. If nobody but the session submits anything from now on, the socket takes what it
is given and listeners do not come back to the session, then the writer comes to its end: it takes so many steps at
most, and until then there is something to do. Closes are passed over. At the end the writer has written every frame
that was submitted before, and every frame that the session submitted meanwhile, in this order; each of these writes was
reported as done, once and for all, nothing is outstanding, and nothing waits that could be sent. -/
theorem graceful_close_drains (hnew : Session.new config primary = .ok s) (run : Run cap (new s) r)
    (running : r.link.writer = .running) (channel : r.link.channel = .close true :: rest)
    (takes : r.next? cap .works = some start) :
    ∃ bound, ∀ steps last, Path cap drains start steps last →
      steps.length ≤ bound ∧ (last.chore ≠ .closing → ∃ a r', last.drains a ∧ last.next? cap a = some r') ∧
      (∀ x ∈ steps, x.PassesOver) ∧
      ∃ since, last.past = r.past ++ since ∧ (∀ mo ∈ since, mo.isFailure = false) ∧ (last.chore = .closing →
        last.link.channel = [] ∧ written steps = r.pending ++ orders since ∧ reports since = seqs (written steps) ∧
        (∀ seq ∈ reports since, (reports last.past).count seq = 1) ∧ last.machine.session.outstanding = [] ∧
        ∀ q ∈ last.machine.session.outbox.parcels, ∃ r payload written, q = .data r payload written ∧
          ((last.machine.session.stream r).reset ∨ (last.machine.session.stream r).window ≤ 0)) := by
  obtain ⟨hwriter, hidle, hpast, hpending⟩ := start_of_takes running channel takes
  have hchore : start.chore ≠ .closing := by
    rw [hidle]
    nofun
  have hstart := run.next takes
  let effort := (start.machine.scale.tariff (start.machine.session.nextPingId + 1)).machine start.machine
  refine ⟨3 * effort + start.burden, fun steps last path => ?_⟩
  have hlast := path.run hstart
  obtain ⟨since, hemptied⟩ := emptied_of_path hnew hstart hwriter hchore path
  refine ⟨?_, hlast.drain_goes_on hnew hemptied.writer, hemptied.passes, since, hpast ▸ hemptied.past,
    fun mo hmo => (hemptied.calm mo hmo).2, fun closing => ?_⟩
  · -- the session can do only so much of its own accord
    have hsince : since.length ≤ effort := Nat.le_of_add_right_le
      (length_le_of_unprompted hstart.session hemptied.run fun mo hmo => (hemptied.calm mo hmo).1).2.2
    have := hemptied.length
    omega
  · obtain ⟨hchannel, hwritten, hreports, honce, hout, hblocked⟩ := hemptied.at_end hnew hlast hidle closing
    rw [hpending] at hwritten
    exact ⟨hchannel, hwritten, hreports, honce, hout, fun q hq => Session.data_of_canSend (hblocked q hq)⟩

/-- The peer hangs up while data is written of which the window takes two of three bytes. GOAWAY and a ping wait, so the
report of the data starts the GOAWAY behind the graceful close, and the report of the GOAWAY another close and then the
ping behind that. Both are written; the last byte is left, as the window is used up. -/
theorem graceful_close_drains_past_goAway : ∃ s r start steps last, ∃ goAway ping : Command,
    Session.new { Config.client with initialWindow := 2 } none = .ok s ∧ Run 16384 (new s) r ∧
    r.link.writer = .running ∧ r.link.channel = [.close true, goAway] ∧ r.next? 16384 .works = some start ∧
    Path 16384 drains start steps last ∧ last.chore = .closing ∧ written steps = [goAway, ping] ∧
    reports last.past = [1, 2, 3, 4] ∧ last.machine.session.outbox.parcels = [.data ⟨0⟩ ⟨[7], true⟩ 2] ∧
    (∃ since, last.past = r.past ++ since ∧ written steps = r.pending ++ orders since ∧
      reports since = seqs [goAway, ping]) ∧
    last.machine.session.outstanding = [] ∧
    ∀ q ∈ last.machine.session.outbox.parcels, ∃ r payload written, q = .data r payload written ∧
      ((last.machine.session.stream r).reset ∨ (last.machine.session.stream r).window ≤ 0) := by
  have hnew : Session.new { Config.client with initialWindow := 2 } none =
      .ok (.fresh { Config.client with initialWindow := 2 } none) := rfl
  obtain ⟨syn, data, goAway, ping, hsyn, hdata, hgoAway, hping⟩ : ∃ syn data goAway ping : Command,
      syn = .write [128, 3, 0, 1, 0, 0, 0, 14, 0, 0, 0, 1, 0, 0, 0, 0, 0, 0, 0, 0, 0, 0]
        ⟨1, .control .synStream [128, 3, 0, 1, 0, 0, 0, 14, 0, 0, 0, 1, 0, 0, 0, 0, 0, 0, 0, 0, 0, 0] (some ⟨0⟩)⟩ ∧
      data = .write [0, 0, 0, 1, 0, 0, 0, 2, 5, 6] ⟨2, .data ⟨0⟩ ⟨[7], true⟩ 2⟩ ∧
      goAway = Command.control .goAway [128, 3, 0, 7, 0, 0, 0, 8, 0, 0, 0, 0, 0, 0, 0, 0] 3 ∧
      ping = Command.control .ping [128, 3, 0, 6, 0, 0, 0, 4, 0, 0, 0, 1] 4 := ⟨_, _, _, _, rfl, rfl, rfl, rfl⟩
  have hdecided : ((new (.fresh { Config.client with initialWindow := 2 } none)).replay? 16384 (List.flatten [
      Act.happensAll [.invoke (.syn .v3 (.plain default false) none), .tick, .tick], [.deals syn],
      Act.happensAll [.answer none, .tick, .leave], [.works, .wrote none], Act.happensAll [.tick, .tick, .tick, .leave],
      Act.happensAll [.invoke (.data ⟨0⟩ ⟨[5, 6, 7], true⟩), .tick], [.deals data],
      Act.happensAll [.answer none, .tick, .leave, .invoke (.goAway .v3), .tick, .leave, .invoke (.ping .v3), .tick,
        .leave],
      [.hangsUp none, .deals (.close true), .works, .wrote none], Act.happensAll [.tick, .tick], [.deals goAway],
      Act.happensAll [.answer none, .tick, .leave]])).any fun r =>
      decide (r.link.writer = .running ∧ r.link.channel = [.close true, goAway]) &&
        (r.next? 16384 .works).any fun start => (start.follow? 16384 drains (List.flatten [
          [.works, .wrote none, .deals (.close false)], Act.happensAll [.answer none, .tick, .tick], [.deals ping],
          Act.happensAll [.answer none, .tick, .leave], [.works, .works, .wrote none],
          Act.happensAll [.tick, .tick, .leave], [.works]])).any fun (steps, last) =>
            decide (last.chore = .closing ∧ written steps = [goAway, ping] ∧ reports last.past = [1, 2, 3, 4] ∧
              last.machine.session.outbox.parcels = [.data ⟨0⟩ ⟨[7], true⟩ 2]) := by
    subst hsyn hdata hgoAway hping
    decide +kernel
  obtain ⟨r, hr, hdecided⟩ := (Option.any_eq_true _ _).1 hdecided
  obtain ⟨hbefore, hdecided⟩ := Bool.and_eq_true_iff.1 hdecided
  obtain ⟨hrunning, hchannel⟩ := of_decide_eq_true hbefore
  obtain ⟨start, hstart, hdecided⟩ := (Option.any_eq_true _ _).1 hdecided
  obtain ⟨⟨steps, last⟩, hlast, hdecided⟩ := (Option.any_eq_true _ _).1 hdecided
  obtain ⟨hclosing, hwritten, hreports, hparcels⟩ := of_decide_eq_true hdecided
  have hrun := Run.start.replay hr
  have hpath : Path 16384 drains start steps last := Path.start.follow hlast
  obtain ⟨bound, hdrains⟩ := graceful_close_drains hnew hrun hrunning hchannel hstart
  obtain ⟨-, -, -, since, hpast, -, hend⟩ := hdrains steps last hpath
  obtain ⟨-, horder, hsince, -, hout, hblocked⟩ := hend hclosing
  exact ⟨_, r, start, steps, last, goAway, ping, hnew, hrun, hrunning, hchannel, hstart, hpath, hclosing, hwritten,
    hreports, hparcels, ⟨since, hpast, horder, hwritten ▸ hsince⟩, hout, hblocked⟩

end Close

end Rig

end Spdy
