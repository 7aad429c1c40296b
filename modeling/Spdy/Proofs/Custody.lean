import Spdy.Proofs.Assured
import Spdy.Proofs.MachineWords
import Spdy.Proofs.Rig

/-!
# Handlers of writes

Each write that a session hands to its controller comes with a handler, and the session goes on once the handler is
used.

* `entrusted`, `reports` : the handlers that a session handed over, and the writes that were reported;
  `seqs_of_run` : handlers are numbered one after another;
* `Rig.carried` : the handlers that are on their way on a link;
* `Rig.Custody` : what an act means for the handlers (`Rig.Moves.custody`);
* `Rig.Run.session` : the session of a rig runs as any session does;
* `Rig.Accounts` : each handler is used, on its way or lost, and a session stalls without it (`Rig.Run.accounts`).
-/

namespace Spdy

/-! ## Handlers -/

/-- The handler of the frame that the controller is asked to write. -/
def Moment.entrusted? (mo : Moment) : Option Handler := mo.handed?.map (·.2)

/-- The handlers that the controller was given, first the first. -/
def entrusted (past : List Moment) : List Handler := past.filterMap Moment.entrusted?

def Moment.reported? (mo : Moment) : Option Nat :=
  match mo.op? with
  | some (.complete seq) | some (.fail seq _) => some seq
  | _ => none

/-- The writes that were reported, as done or as failed. -/
def reports (past : List Moment) : List Nat := past.filterMap Moment.reported?

theorem entrusted_append (past : List Moment) (mo : Moment) :
    entrusted (past ++ [mo]) = entrusted past ++ mo.entrusted?.toList := by
  rw [entrusted, List.filterMap_append, ← entrusted, List.filterMap_cons, List.filterMap_nil]
  cases mo.entrusted? <;> rfl

theorem reports_append (past : List Moment) (mo : Moment) :
    reports (past ++ [mo]) = reports past ++ mo.reported?.toList := by
  rw [reports, List.filterMap_append, ← reports, List.filterMap_cons, List.filterMap_nil]
  cases mo.reported? <;> rfl

theorem length_entrusted (past : List Moment) : (entrusted past).length = past.countP (·.handed?.isSome) := by
  simp only [entrusted, List.length_filterMap_eq_countP, Moment.entrusted?, Option.isSome_map]

theorem reported?_of_not_isReport {m m' : Machine} {e : Event} (h : e.isControllers m = false) :
    Moment.reported? ⟨m, e, m'⟩ = none := by
  cases e with
  | invoke op => cases op <;> first | rfl | cases h
  | _ => rfl

theorem Operation.reported?_report (m m' : Machine) (x : Handler) (fault : Option SocketFault) :
    Moment.reported? ⟨m, .invoke (Rig.report x fault), m'⟩ = some x.seq := by
  cases fault <;> rfl

section Turn

variable {cap : Nat} {mo : Moment} {m m' : Machine}

/-- A handler has the number of its write, and is outstanding until it is used. -/
theorem handler_of_turn (turn : Turn cap mo) {x : Handler} (h : mo.entrusted? = some x) :
    x.seq = mo.before.session.outbox.writes + 1 ∧ x ∈ mo.after.session.outstanding := by
  obtain ⟨⟨bytes, x⟩, hx, rfl⟩ := Option.map_eq_some_iff.1 h
  have handing := handing_of_turn turn hx
  exact ⟨handing.seq, handing.outstanding⟩

theorem entrusted?_of_invoke {enc : Encoder} {op : Operation} (h : m.next? enc (.invoke op) = some m') :
    Moment.entrusted? ⟨m, .invoke op, m'⟩ = none := by
  cases Machine.happens_of_next? h with
  | invoke op yields possible =>
    exact congrArg (Option.map Prod.snd) (Moment.handed?_of_invoke enc m op)

end Turn

section Run

variable {cap : Nat} {config : Config} {primary : Option Listener} {s : Session} {past : List Moment} {m m' : Machine}
  {e : Event}

theorem seqs_of_run (hnew : Session.new config primary = .ok s) (run : Run (.standard cap) { session := s } past m) :
    (entrusted past).map (·.seq) = List.range' 1 (entrusted past).length := by
  induction run with
  | start => rfl
  | @next past m m' e run h ih =>
    rw [entrusted_append]
    cases hx : Moment.entrusted? ⟨m, e, m'⟩ with
    | none => rw [Option.toList_none, List.append_nil, ih]
    | some x =>
      have hseq := (handler_of_turn (turn_of_next? h (placed_of_run run)) hx).1
      have hwrites : m.session.outbox.writes = (entrusted past).length := by
        rw [writes_of_run hnew run, length_entrusted]
      rw [Option.toList_some, List.map_append, ih, List.length_append, List.length_singleton, List.range'_1_concat,
        List.map_singleton, hseq, hwrites, Nat.add_comm 1]

theorem nodup_of_run (hnew : Session.new config primary = .ok s) (run : Run (.standard cap) { session := s } past m) :
    ((entrusted past).map (·.seq)).Nodup := by
  rw [seqs_of_run hnew run]
  exact List.nodup_range'

/-- A handler stays outstanding until it is used or given up. -/
theorem outstanding_of_next? (hnew : Session.new config primary = .ok s)
    (run : Run (.standard cap) { session := s } past m) (h : m.next? (.standard cap) e = some m') {x : Handler}
    (hx : x ∈ m.session.outstanding) (other : Moment.reported? ⟨m, e, m'⟩ ≠ some x.seq) (kept : e ≠ .drop x.seq) :
    x ∈ m'.session.outstanding := by
  rcases event_of_gone hnew run h hx with hx' | rfl | ⟨fault, rfl⟩ | hdrop
  · exact hx'
  · exact absurd rfl other
  · exact absurd rfl other
  · cases Machine.happens_of_next? h with
    | drop seq yields =>
      refine List.mem_filter.2 ⟨hx, ?_⟩
      simpa using fun hseq => kept (by rw [hseq])
    | _ => cases hdrop

end Run

/-! ## On their way -/

def Command.handler? : Command → Option Handler
  | .write _ h => some h
  | .close _ => none

def Command.control (type : FrameType) (bytes : Bytes) (seq : Nat) : Command :=
  .write bytes ⟨seq, .control type bytes none⟩

/-- The handler of the frame that is being written. -/
def Chore.handler? : Chore → Option Handler
  | .writing h => some h
  | .idle | .closing => none

/-- The handler of the write that the writer is to do. -/
def Job.handler? : Job → Option Handler
  | .write _ h => some h
  | _ => none

theorem Link.handlers_eq (l : Link) : l.handlers = l.channel.filterMap Command.handler? := by
  refine congrArg (List.filterMap · l.channel) ?_
  funext c
  cases c <;> rfl

theorem Link.Next.handlers {l l' : Link} {j : Job} (h : l.Next j l') :
    l.handlers = j.handler?.toList ++ l'.handlers := by
  cases h with
  | wait | drained => rfl
  | write writer channel | drain writer channel | skip writer channel | cut writer channel =>
    rw [Link.handlers, channel]
    rfl

theorem Moment.asked_handlers (mo : Moment) :
    (mo.called? >>= Call.command?).toList.filterMap Command.handler? = mo.entrusted?.toList := by
  rw [entrusted?, handed?]
  cases hcall : mo.called? with
  | none => rfl
  | some c => cases c <;> rfl

namespace Rig

/-- The handlers of the writes that were asked for and are neither reported nor lost. -/
def carried (r : Rig) : List Handler :=
  r.asked.filterMap Command.handler? ++ r.chore.handler?.toList ++ r.link.handlers

theorem carried_log (r : Rig) (e : Event) (m : Machine) :
    (r.log e m).carried.Perm (r.carried ++ (Moment.entrusted? ⟨r.machine, e, m⟩).toList) := by
  rw [carried, carried, log, List.filterMap_append, Moment.asked_handlers]
  refine List.perm_iff_count.2 fun x => ?_
  simp only [List.count_append]
  omega

theorem carried_log_invoke {cap : Nat} {r : Rig} {op : Operation} {m : Machine}
    (h : r.machine.next? (.standard cap) (.invoke op) = some m) : (r.log (.invoke op) m).carried.Perm r.carried := by
  have hlog := r.carried_log (.invoke op) m
  rwa [entrusted?_of_invoke h, Option.toList_none, List.append_nil] at hlog

theorem carried_erase {r : Rig} {c : Command} (mem : c ∈ r.asked) :
    r.carried.Perm (c.handler?.toList ++ ({ r with asked := r.asked.erase c } : Rig).carried) := by
  have hasked := (List.perm_cons_erase mem).filterMap Command.handler?
  rw [List.filterMap_cons] at hasked
  rw [carried, carried, ← List.append_assoc, ← List.append_assoc]
  refine (List.Perm.append_right _ (List.Perm.append_right _ ?_))
  cases hc : c.handler? with
  | none => rwa [hc] at hasked
  | some x => rwa [hc] at hasked

theorem carried_submit {r : Rig} {c : Command} {l : Link} (h : r.link.submit? c = some l) :
    (r.submit c l).carried.Perm (c.handler?.toList ++ r.carried) := by
  have hchannel : l.channel = r.link.channel ++ [c] := by
    unfold Link.submit? at h
    split at h
    · cases h
    · rw [← Option.some.inj h]
  have hlink : (r.submit c l).link = l ∧ (r.submit c l).asked = r.asked ∧ (r.submit c l).chore = r.chore := by
    unfold submit
    split <;> exact ⟨rfl, rfl, by simp⟩
  have hone : [c].filterMap Command.handler? = c.handler?.toList := by cases c <;> rfl
  rw [carried, carried, hlink.1, hlink.2.1, hlink.2.2, Link.handlers_eq, Link.handlers_eq, hchannel,
    List.filterMap_append, hone]
  refine List.perm_iff_count.2 fun x => ?_
  simp only [List.count_append]
  omega

/-- What an act means for the handlers. -/
inductive Custody (cap : Nat) (r r' : Rig) : Prop
  | kept (machine : r'.machine = r.machine) (past : r'.past = r.past) (carried : ∀ x ∈ r'.carried, x ∈ r.carried)
      (perm : (r'.carried ++ r'.lost).Perm (r.carried ++ r.lost))
  | happens {e : Event} (free : e.isControllers r.machine = false)
      (h : r.machine.next? (.standard cap) e = some r'.machine)
      (past : r'.past = r.past ++ [⟨r.machine, e, r'.machine⟩])
      (carried : r'.carried.Perm (r.carried ++ (Moment.entrusted? ⟨r.machine, e, r'.machine⟩).toList))
      (lost : r'.lost = r.lost)
  | reports {x : Handler} {fault : Option SocketFault}
      (h : r.machine.next? (.standard cap) (.invoke (report x fault)) = some r'.machine)
      (past : r'.past = r.past ++ [⟨r.machine, .invoke (report x fault), r'.machine⟩])
      (carried : r.carried.Perm (x :: r'.carried)) (lost : r'.lost = r.lost)
  | forgets {x : Handler} (mem : x ∈ r.lost) (h : r.machine.next? (.standard cap) (.drop x.seq) = some r'.machine)
      (past : r'.past = r.past ++ [⟨r.machine, .drop x.seq, r'.machine⟩]) (carried : r'.carried.Perm r.carried)
      (lost : r'.lost = r.lost)

section Moves

variable {cap : Nat} {r r' : Rig} {a : Act}

theorem Custody.of_perm (machine : r'.machine = r.machine) (past : r'.past = r.past) (lost : r'.lost = r.lost)
    (perm : r'.carried.Perm r.carried) : Custody cap r r' :=
  .kept machine past (fun _ hx => perm.mem_iff.1 hx) (by rw [lost]; exact perm.append_right _)

theorem submit_past (r : Rig) (c : Command) (l : Link) :
    (r.submit c l).machine = r.machine ∧ (r.submit c l).past = r.past ∧ (r.submit c l).lost = r.lost := by
  unfold submit
  split <;> exact ⟨rfl, rfl, rfl⟩

theorem Moves.custody (h : Moves cap r a r') : Custody cap r r' := by
  cases h with
  | happens free h => exact .happens free h rfl (r.carried_log _ _) rfl
  | @submits c l mem h =>
    obtain ⟨machine, past, lost⟩ := ({ r with asked := r.asked.erase c } : Rig).submit_past c l
    refine .of_perm machine past lost ?_
    exact (carried_submit (r := { r with asked := r.asked.erase c }) h).trans (carried_erase mem).symm
  | @refuses bytes x m mem h =>
    refine .reports h rfl ((carried_erase mem).trans ?_) rfl
    exact .cons x (carried_log_invoke (r := { r with asked := r.asked.erase (.write bytes x) }) h).symm
  | ignores mem => exact .of_perm rfl rfl rfl (carried_erase mem).symm
  | takes idle job =>
    refine .of_perm rfl rfl rfl ?_
    rw [carried, carried, idle, job.handlers]
    simp [Chore.handler?, Job.handler?]
  | goesOn idle job close =>
    refine .of_perm rfl rfl rfl ?_
    rw [carried, carried, job.handlers]
    rcases close with rfl | rfl <;> exact .refl _
  | closes idle job =>
    refine .of_perm rfl rfl rfl ?_
    rw [carried, carried, idle, job.handlers]
    exact .refl _
  | @wrote x fault m chore h =>
    refine .reports h rfl (.trans ?_ (.cons x (carried_log_invoke (r := { r with chore := .idle }) h).symm)) rfl
    rw [carried, carried, chore]
    simp [Chore.handler?]
  | shuts fault chore =>
    refine .kept rfl rfl (fun x hx => ?_) ?_
    · rw [carried, List.mem_append] at hx ⊢
      rw [chore]
      exact .inl (hx.resolve_right List.not_mem_nil)
    · rw [carried, carried, chore, List.append_assoc _ r.link.handlers r.lost]
      refine List.perm_iff_count.2 fun x => ?_
      simp only [List.count_append, Link.stopWriter, Link.handlers, Chore.handler?, List.filterMap_nil, List.count_nil,
        Option.toList_none]
      omega
  | vanishes asked chore writer channel =>
    refine .of_perm rfl rfl rfl ?_
    rw [carried, carried, r.link.handlers_eq, channel]
    exact .refl _
  | hangsUp fault =>
    refine .of_perm rfl rfl rfl ?_
    rw [carried, carried, List.filterMap_append,
      show [Command.close fault.isNone].filterMap Command.handler? = [] from rfl, List.append_nil]
    exact .refl _
  | obeys => exact .of_perm rfl rfl rfl (.refl _)
  | @forgets x m mem h =>
    refine .forgets mem h rfl ?_ rfl
    have hlog := r.carried_log (.drop x.seq) m
    rwa [show Moment.entrusted? ⟨r.machine, .drop x.seq, m⟩ = none from rfl, Option.toList_none,
      List.append_nil] at hlog

end Moves

/-! ## Where the handlers are -/

section Run

variable {cap : Nat} {config : Config} {primary : Option Listener} {s : Session} {r r' : Rig} {a : Act}

theorem Run.session (run : Run cap (new s) r) : Spdy.Run (.standard cap) { session := s } r.past r.machine := by
  induction run with
  | start => exact .start
  | next run h ih =>
    cases (moves_of_next? h).custody with
    | kept machine past =>
      rw [machine, past]
      exact ih
    | happens free h past | reports h past | forgets mem h past =>
      rw [past]
      exact ih.next h

/-- Where the handlers are that the controller was given: each was used, is on its way or is lost. Once a lost one is
given up the session stalls. -/
structure Accounts (r : Rig) : Prop where
  settled : ∃ done : List Handler, reports r.past = done.map (·.seq) ∧
    (done ++ (r.carried ++ r.lost)).Perm (entrusted r.past)
  outstanding : ∀ x ∈ r.carried, x ∈ r.machine.session.outstanding
  stalls : ∀ x ∈ r.lost, x ∈ r.machine.session.outstanding ∨ r.machine.IsStalled

theorem Accounts.nodup (h : Accounts r) (hnodup : ((entrusted r.past).map (·.seq)).Nodup) :
    ((r.carried ++ r.lost).map (·.seq)).Nodup := by
  obtain ⟨done, -, perm⟩ := h.settled
  have hall := ((perm.map (·.seq)).nodup_iff).2 hnodup
  rw [List.map_append] at hall
  exact hall.of_append_right

theorem Accounts.apart (h : Accounts r) (hnodup : ((entrusted r.past).map (·.seq)).Nodup) {x y : Handler}
    (hx : x ∈ r.carried) (hy : y ∈ r.lost) : x.seq ≠ y.seq := by
  have hall := h.nodup hnodup
  rw [List.map_append] at hall
  exact List.disjoint_of_nodup_append hall (List.mem_map_of_mem hx) ∘ fun heq => heq ▸ List.mem_map_of_mem hy

theorem Accounts.carried_eq_nil (h : Accounts r) (hnodup : ((entrusted r.past).map (·.seq)).Nodup)
    (howed : r.machine.owed ≤ r.machine.session.outbox.busy.toNat) (hlost : r.lost ≠ []) : r.carried = [] := by
  obtain ⟨y, hy⟩ := List.exists_mem_of_ne_nil _ hlost
  refine List.eq_nil_iff_forall_not_mem.2 fun x hx => ?_
  have hout := h.outstanding x hx
  rcases h.stalls y hy with hy' | ⟨-, hzero⟩
  · rw [only_outstanding howed hout, List.mem_singleton] at hy'
    exact absurd (hy' ▸ rfl) (h.apart hnodup hx hy)
  · exact absurd hzero (Nat.ne_of_gt (owed_pos hout))

theorem Accounts.step (hnew : Session.new config primary = .ok s) (run : Run cap (new s) r) (h : Accounts r)
    (custody : Custody cap r r') : Accounts r' := by
  obtain ⟨done, hdone, perm⟩ := h.settled
  have hnodup := nodup_of_run hnew run.session
  have howed := owed_le_of_new hnew run.session
  cases custody with
  | kept machine past carried hperm =>
    refine ⟨⟨done, by rw [past, hdone], ?_⟩, fun x hx => ?_, fun x hx => ?_⟩
    · rw [past]
      exact (hperm.append_left done).trans perm
    · rw [machine]
      exact h.outstanding x (carried x hx)
    · rw [machine]
      rcases List.mem_append.1 (hperm.mem_iff.1 (List.mem_append_right _ hx)) with hx | hx
      · exact .inl (h.outstanding x hx)
      · exact h.stalls x hx
  | @happens e free hnext past carried lost =>
    have hturn := turn_of_next? hnext (placed_of_run run.session)
    have hkeeps : ∀ x ∈ r.machine.session.outstanding, x ∈ r'.machine.session.outstanding := by
      intro x hx
      refine outstanding_of_next? hnew run.session hnext hx ?_ ?_
      · rw [reported?_of_not_isReport free]
        exact nofun
      · rintro rfl
        cases free
    refine ⟨⟨done, ?_, ?_⟩, fun x hx => ?_, fun x hx => ?_⟩
    · rw [past, reports_append, reported?_of_not_isReport free, hdone]
      exact List.append_nil _
    · rw [past, entrusted_append, lost]
      refine .trans (.trans ((carried.append_right r.lost).append_left done) ?_) (perm.append_right _)
      refine List.perm_iff_count.2 fun x => ?_
      simp only [List.count_append]
      omega
    · rcases List.mem_append.1 (carried.mem_iff.1 hx) with hx | hx
      · exact hkeeps x (h.outstanding x hx)
      · exact (handler_of_turn hturn (Option.mem_toList.1 hx)).2
    · exact (h.stalls x (lost ▸ hx)).imp (hkeeps x) (stalled_of_turn hturn)
  | @reports x fault hnext past carried lost =>
    have hx : x ∈ r.carried := carried.mem_iff.2 List.mem_cons_self
    refine ⟨⟨done ++ [x], ?_, ?_⟩, fun y hy => ?_, fun y hy => ?_⟩
    · rw [past, reports_append, Operation.reported?_report, hdone, List.map_append]
      rfl
    · rw [past, entrusted_append, entrusted?_of_invoke hnext, lost, Option.toList_none, List.append_nil]
      refine .trans ?_ perm
      rw [List.append_assoc]
      exact (carried.symm.append_right r.lost).append_left done
    · have hy' : y ∈ r.carried := carried.mem_iff.2 (List.mem_cons_of_mem x hy)
      refine outstanding_of_next? hnew run.session hnext (h.outstanding y hy') ?_ nofun
      have hall := h.nodup hnodup
      rw [List.map_append] at hall
      have hne := (List.nodup_cons.1 (((carried.map (·.seq)).nodup_iff).1 hall.of_append_left)).1
      rw [Operation.reported?_report]
      exact fun heq => hne (List.mem_map.2 ⟨y, hy, (Option.some.inj heq).symm⟩)
    · -- a lost handler would be the only one, but one is used
      rw [h.carried_eq_nil hnodup howed (List.ne_nil_of_mem (lost ▸ hy))] at hx
      cases hx
  | @forgets x mem hnext past carried lost =>
    have hturn := turn_of_next? hnext (placed_of_run run.session)
    have hkeeps : ∀ y ∈ r.machine.session.outstanding, y.seq ≠ x.seq → y ∈ r'.machine.session.outstanding := by
      intro y hy hne
      refine outstanding_of_next? hnew run.session hnext hy nofun fun heq => hne ?_
      injection heq with heq
      exact heq.symm
    refine ⟨⟨done, ?_, ?_⟩, fun y hy => ?_, fun y hy => ?_⟩
    · rw [past, reports_append, hdone]
      exact List.append_nil _
    · rw [past, entrusted_append, lost]
      exact .trans ((carried.append_right r.lost).append_left done) (perm.trans (.of_eq (List.append_nil _).symm))
    · have hy' := carried.mem_iff.1 hy
      exact hkeeps y (h.outstanding y hy') (h.apart hnodup hy' mem)
    · -- the lost handler that is given up takes the last release with it
      rcases h.stalls y (lost ▸ hy) with hy' | hstalled
      · by_cases hseq : y.seq = x.seq
        · refine .inr ?_
          have hstalls := stalled_of_dropHandler howed hy'
          generalize r'.machine = m at hnext
          cases Machine.happens_of_next? hnext with
          | drop seq yields => rwa [hseq] at hstalls
        · exact .inl (hkeeps y hy' hseq)
      · exact .inr (stalled_of_turn hturn hstalled)

theorem Run.accounts (hnew : Session.new config primary = .ok s) (run : Run cap (new s) r) : Accounts r := by
  induction run with
  | start => exact ⟨⟨[], rfl, .nil⟩, nofun, nofun⟩
  | next run h ih => exact ih.step hnew run (moves_of_next? h).custody

end Run

end Rig

end Spdy
