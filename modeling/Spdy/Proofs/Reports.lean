import Spdy.Proofs.Custody

/-!
# Reports of writes

The writer of a link reports a write when the socket has taken it or has a fault, and the controller reports one as
failed if the writer has ended. What is in the channel when the writer ends is not reported.

* `Command.cutOff` : the commands that the writer does not come to; `Rig.Stage` : how far it is (`Rig.Run.stage`);
* `Rig.Run.goes_on` : as long as a handler is on its way, the controller or the writer has something to do;
* `Rig.handlers_reported` : once the writer has ended, exactly the handlers that it did not come to are not reported.
-/

namespace Spdy

/-! ## What the writer comes to -/

def Command.isWrite : Command → Bool
  | .write .. => true
  | .close _ => false

/-- The commands that the writer does not come to if nothing more is submitted: it ends at the first close, and goes on
to the end of the channel before if the close is graceful. -/
def Command.cutOff : List Command → List Command
  | [] => []
  | .write .. :: rest => cutOff rest
  | .close true :: _ => []
  | .close false :: rest => rest

theorem Command.cutOff_append {before after : List Command} (h : ∀ c ∈ before, c.isWrite) :
    cutOff (before ++ after) = cutOff after := by
  induction before with
  | nil => rfl
  | cons c before ih =>
    have hrest := ih fun x hx => h x (List.mem_cons_of_mem c hx)
    have hc := h c List.mem_cons_self
    cases c with
    | write bytes x => exact hrest
    | close graceful => cases hc

namespace Rig

/-- How far the writer is: it has taken writes only, it has taken a graceful close and empties the channel, it shuts the
socket down, or it has ended. -/
inductive Stage (r : Rig) : Prop
  | running {taken : List Command} (writer : r.link.writer = .running) (chore : r.chore ≠ .closing) (late : r.late = [])
      (lost : r.lost = []) (writes : ∀ c ∈ taken, c.isWrite) (submitted : r.submitted = taken ++ r.link.channel)
  | draining {before after : List Command} (writer : r.link.writer = .draining) (chore : r.chore ≠ .closing)
      (late : r.late = []) (lost : r.lost = []) (writes : ∀ c ∈ before, c.isWrite)
      (submitted : r.submitted = before ++ .close true :: after)
  | closing (writer : ∀ fault, r.link.writer ≠ .ended fault) (chore : r.chore = .closing) (lost : r.lost = [])
      (channel : r.link.channel = Command.cutOff r.submitted ++ r.late)
  | ended {fault : Option SocketFault} (writer : r.link.writer = .ended fault) (chore : r.chore = .idle)
      (channel : r.link.channel = [])
      (lost : r.lost = (Command.cutOff r.submitted ++ r.late).filterMap Command.handler?)

section Run

variable {cap : Nat} {r r' : Rig} {a : Act}

/-- What concerns the session alone, or the reader, does not concern the writer. -/
theorem Stage.congr (h : Stage r) (writer : r'.link.writer = r.link.writer) (channel : r'.link.channel = r.link.channel)
    (chore : r'.chore = r.chore ∨ r'.chore = .idle ∧ ∃ x, r.chore = .writing x) (submitted : r'.submitted = r.submitted)
    (late : r'.late = r.late) (lost : r'.lost = r.lost) : Stage r' := by
  have hclosing : r.chore ≠ .closing → r'.chore ≠ .closing := by
    rcases chore with hchore | ⟨hchore, -⟩
    · rw [hchore]
      exact id
    · rw [hchore]
      exact fun _ => nofun
  cases h with
  | running hwriter hchore hlate hlost writes hsubmitted =>
    refine .running (writer.trans hwriter) (hclosing hchore) (late.trans hlate) (lost.trans hlost) writes ?_
    rw [submitted, channel, hsubmitted]
  | draining hwriter hchore hlate hlost writes hsubmitted =>
    exact .draining (writer.trans hwriter) (hclosing hchore) (late.trans hlate) (lost.trans hlost) writes
      (submitted.trans hsubmitted)
  | closing hwriter hchore hlost hchannel =>
    refine .closing (fun fault => writer ▸ hwriter fault) ?_ (lost.trans hlost) ?_
    · rcases chore with hchore' | ⟨-, x, hx⟩
      · exact hchore'.trans hchore
      · cases hchore.symm.trans hx
    · rw [channel, submitted, late, hchannel]
  | ended hwriter hchore hchannel hlost =>
    refine .ended (writer.trans hwriter) ?_ (channel.trans hchannel) ?_
    · exact chore.elim (fun hchore' => hchore'.trans hchore) And.left
    · rw [lost, submitted, late, hlost]

/-- A command is put at the end of the channel. -/
theorem Stage.submit (h : Stage r) {c : Command} {l : Link} (hl : r.link.submit? c = some l) :
    Stage (r.submit c l) := by
  have hlink : (∀ fault, r.link.writer ≠ .ended fault) ∧ l = { r.link with channel := r.link.channel ++ [c] } := by
    unfold Link.submit? at hl
    split at hl
    · cases hl
    · next hwriter => exact ⟨fun fault heq => hwriter fault heq, (Option.some.inj hl).symm⟩
  obtain ⟨hwriter', rfl⟩ := hlink
  cases h with
  | running writer chore late lost writes submitted =>
    rw [submit_of_not_closing chore]
    refine .running writer chore late lost writes ?_
    rw [submitted, List.append_assoc]
  | @draining before after writer chore late lost writes submitted =>
    have hsubmitted : r.submitted ++ [c] = before ++ .close true :: (after ++ [c]) := by
      rw [submitted, List.append_assoc, List.cons_append]
    rw [submit_of_not_closing chore]
    exact .draining writer chore late lost writes hsubmitted
  | closing writer chore lost channel =>
    rw [submit_of_closing chore]
    refine .closing writer chore lost ?_
    rw [channel, List.append_assoc]
  | ended writer => exact absurd writer (hwriter' _)

theorem Stage.step (h : Stage r) (moves : Moves cap r a r') : Stage r' := by
  cases moves with
  | happens | refuses | ignores | hangsUp | obeys | forgets =>
    exact h.congr rfl rfl (.inl rfl) rfl rfl rfl
  | @submits c l mem hl =>
    have hleft : Stage { r with asked := r.asked.erase c } := h.congr rfl rfl (.inl rfl) rfl rfl rfl
    exact hleft.submit hl
  | wrote chore => exact h.congr rfl rfl (.inr ⟨rfl, _, chore⟩) rfl rfl rfl
  | @takes bytes x l idle job =>
    cases job with
    | write writer channel =>
      cases h with
      | @running taken writer chore late lost writes submitted =>
        have hwrites : ∀ c ∈ taken ++ [.write bytes x], c.isWrite := by
          intro c hc
          rcases List.mem_append.1 hc with hc | hc
          · exact writes c hc
          · rw [List.mem_singleton.1 hc]
            rfl
        refine .running writer nofun late lost hwrites ?_
        rw [submitted, channel, List.append_assoc]
        rfl
      -- after a graceful close it does not matter how much was taken
      | draining writer chore late lost writes submitted => exact .draining writer nofun late lost writes submitted
      | closing writer chore => cases idle.symm.trans chore
      | ended writer' => simp [writer'] at writer
  | goesOn idle job close =>
    cases job with
    | drain writer channel =>
      cases h with
      | running _ chore late lost writes submitted =>
        exact .draining rfl chore late lost writes (channel ▸ submitted)
      | draining writer' | ended writer' => cases writer.symm.trans writer'
      | closing _ chore => cases idle.symm.trans chore
    | skip writer channel =>
      cases h with
      | running writer' | ended writer' => cases writer.symm.trans writer'
      | draining _ chore late lost writes submitted => exact .draining writer chore late lost writes submitted
      | closing _ chore => cases idle.symm.trans chore
    | _ => simp at close
  | closes idle job =>
    cases job with
    | cut writer channel =>
      cases h with
      | running _ chore late lost writes submitted =>
        refine .closing (by simp [writer]) rfl lost ?_
        rw [submitted, Command.cutOff_append writes, channel, late]
        exact (List.append_nil _).symm
      | draining writer' | ended writer' => cases writer.symm.trans writer'
      | closing _ chore => cases idle.symm.trans chore
    | drained writer channel =>
      cases h with
      | running writer' | ended writer' => cases writer.symm.trans writer'
      | draining _ chore late lost writes submitted =>
        refine .closing (by simp [writer]) rfl lost ?_
        rw [submitted, Command.cutOff_append writes, channel, late]
        rfl
      | closing _ chore => cases idle.symm.trans chore
  | shuts fault chore =>
    cases h with
    | running _ chore' | draining _ chore' => exact absurd chore chore'
    | closing writer _ lost channel =>
      refine .ended rfl rfl rfl ?_
      rw [lost, r.link.handlers_eq, channel]
      rfl
    | ended _ chore' => cases chore.symm.trans chore'
  | vanishes asked chore writer channel =>
    cases h with
    | running _ _ late lost writes submitted =>
      refine .ended rfl chore rfl ?_
      rw [lost, submitted, Command.cutOff_append writes, channel, late]
      rfl
    | draining writer' | ended writer' => cases writer.symm.trans writer'
    | closing _ chore' => cases chore.symm.trans chore'

theorem Run.stage {s : Session} (run : Run cap (new s) r) : Stage r := by
  induction run with
  | start => exact @Stage.running _ [] rfl nofun rfl rfl nofun rfl
  | next run h ih => exact ih.step (moves_of_next? h)

theorem Stage.of_ended (h : Stage r) {fault : Option SocketFault} (hended : r.link.writer = .ended fault) :
    r.chore = .idle ∧ r.link.channel = [] ∧
      r.lost = (Command.cutOff r.submitted ++ r.late).filterMap Command.handler? := by
  cases h with
  | running writer | draining writer => cases writer.symm.trans hended
  | closing writer => exact absurd hended (writer fault)
  | ended writer chore channel lost => exact ⟨chore, channel, lost⟩

end Run

/-! ## Reports -/

section Reports

variable {cap : Nat} {config : Config} {primary : Option Listener} {s : Session} {r : Rig}

theorem Accounts.reportable (h : Accounts r) (cap : Nat) (yields : r.machine.yields) {x : Handler}
    (hx : x ∈ r.carried) (fault : Option SocketFault) {q : Rig} (same : q.machine = r.machine) :
    ∃ q', q.happen? cap (.invoke (report x fault)) = some q' := by
  have hpossible : (report x fault).isPossible r.machine.session := by
    have hany : r.machine.session.outstanding.any (·.seq == x.seq) :=
      List.any_eq_true.2 ⟨x, h.outstanding x hx, beq_self_eq_true x.seq⟩
    cases fault <;> exact hany
  rw [happen?, same, Machine.next?, yields, hpossible]
  exact ⟨_, rfl⟩

/-- As long as a handler is on its way, the controller or the writer has something to do. -/
theorem Run.goes_on (hnew : Session.new config primary = .ok s) (run : Run cap (new s) r) (h : r.carried ≠ [])
    (yields : r.machine.yields) : ∃ a r', a.isProgress ∧ r.next? cap a = some r' := by
  have haccounts := run.accounts hnew
  cases hasked : r.asked with
  | cons c rest =>
    have hc : c ∈ r.asked := hasked ▸ List.mem_cons_self
    refine ⟨.deals c, ?_⟩
    cases hsubmit : r.link.submit? c with
    | some l => exact ⟨_, rfl, by simp only [next?, if_pos hc, hsubmit]; rfl⟩
    | none =>
      cases c with
      | close graceful => exact ⟨_, rfl, by simp only [next?, if_pos hc, hsubmit]; rfl⟩
      | write bytes x =>
        have hx : x ∈ r.carried := (carried_erase hc).mem_iff.2 (List.mem_append_left _ (List.mem_singleton_self x))
        obtain ⟨r', hr'⟩ := haccounts.reportable cap yields hx (some (.brokenPipe "writer task stopped"))
          (q := { r with asked := r.asked.erase (.write bytes x) }) rfl
        exact ⟨r', rfl, by simp only [next?, if_pos hc, hsubmit]; exact hr'⟩
  | nil =>
    cases hchore : r.chore with
    | writing x =>
      have hx : x ∈ r.carried := by simp [carried, hchore, Chore.handler?]
      obtain ⟨r', hr'⟩ := haccounts.reportable cap yields hx none (q := { r with chore := .idle }) rfl
      exact ⟨.wrote none, r', rfl, by simp only [next?, hchore]; exact hr'⟩
    | closing => exact ⟨.shuts none, _, rfl, by simp only [next?, hchore]; rfl⟩
    | idle =>
      have hchannel : r.link.channel ≠ [] := by
        intro hnil
        refine h ?_
        rw [carried, hasked, hchore, r.link.handlers_eq, hnil]
        rfl
      refine ⟨.works, ?_⟩
      rcases hjob : r.link.nextJob with ⟨j, l⟩
      cases Link.Next.of_eq hjob with
      | wait quiet =>
        rcases quiet with hnil | ⟨fault, hended⟩
        · exact absurd hnil hchannel
        · exact absurd (run.stage.of_ended hended).2.1 hchannel
      | _ => exact ⟨_, rfl, by simp only [next?, hchore, hjob]; rfl⟩

/-- The reports of writes on a link. A handler is used at most once, and as long as it is on its way the controller or
the writer can go on. Once the writer has ended and the controller has dealt with everything, a handler was used exactly
once, as done or as failed, unless its command was cut off by a close or came while the socket was shut down. Then it is
never used, and the session waits for it for ever. -/
theorem handlers_reported (hnew : Session.new config primary = .ok s) (run : Run cap (new s) r) :
    ((entrusted r.past).map (·.seq)).Nodup ∧
    (reports r.past ++ (r.carried ++ r.lost).map (·.seq)).Perm ((entrusted r.past).map (·.seq)) ∧
    (r.carried ≠ [] → r.machine.yields → ∃ a r', a.isProgress ∧ r.next? cap a = some r') ∧
    (∀ fault, r.link.writer = .ended fault → r.asked = [] → ∀ x ∈ entrusted r.past,
      (reports r.past).count x.seq =
        if x ∈ (Command.cutOff r.submitted ++ r.late).filterMap Command.handler? then 0 else 1) ∧
    (r.lost ≠ [] → r.machine.session.outbox.busy ∧ r.carried = []) := by
  have hnodup := nodup_of_run hnew run.session
  have howed := owed_le_of_new hnew run.session
  have haccounts := run.accounts hnew
  obtain ⟨done, hdone, perm⟩ := haccounts.settled
  refine ⟨hnodup, ?_, run.goes_on hnew, ?_, fun hlost => ⟨?_, haccounts.carried_eq_nil hnodup howed hlost⟩⟩
  · rw [hdone, ← List.map_append]
    exact perm.map _
  · intro fault hended hasked x hx
    obtain ⟨hchore, hchannel, hlost⟩ := run.stage.of_ended hended
    have hcarried : r.carried = [] := by
      rw [carried, hasked, hchore, r.link.handlers_eq, hchannel]
      rfl
    rw [hcarried, List.nil_append] at perm
    -- nothing is on its way any more: a handler was used or is lost, and not both
    have hall := ((perm.map (·.seq)).nodup_iff).2 hnodup
    rw [List.map_append] at hall
    rw [hdone, ← hlost]
    split
    · next hcut =>
      exact List.count_eq_zero.2 fun hused => List.disjoint_of_nodup_append hall hused (List.mem_map_of_mem hcut)
    · next hreached =>
      have hused := (List.mem_append.1 (perm.mem_iff.2 hx)).resolve_right hreached
      exact List.count_eq_one_of_mem hall.of_append_left (List.mem_map_of_mem hused)
  · obtain ⟨x, hx⟩ := List.exists_mem_of_ne_nil _ hlost
    exact (haccounts.stalls x hx).elim (fun hout => (one_owed howed hout).1) And.left

/-- The peer hangs up. While the writer empties the channel the session gives the connection up, and once the writer has
ended it is asked for a ping. All three writes are reported, the last as failed. -/
theorem handlers_reported_after_hangup : ∃ s r, Session.new .client none = .ok s ∧ Run 16384 (new s) r ∧
    r.link.writer = .ended none ∧ r.asked = [] ∧ (entrusted r.past).length = 3 ∧ reports r.past = [1, 2, 3] ∧
    (∀ x ∈ entrusted r.past, (reports r.past).count x.seq =
      if x ∈ (Command.cutOff r.submitted ++ r.late).filterMap Command.handler? then 0 else 1) ∧
    r.machine.session.outbox.busy = false := by
  have hnew : Session.new .client none = .ok (.fresh .client none) := rfl
  obtain ⟨first, second, third, hping, hgoAway, hlast⟩ : ∃ first second third,
      first = Command.control .ping [128, 3, 0, 6, 0, 0, 0, 4, 0, 0, 0, 1] 1 ∧
      second = Command.control .goAway [128, 3, 0, 7, 0, 0, 0, 8, 0, 0, 0, 0, 0, 0, 0, 0] 2 ∧
      third = Command.control .ping [128, 3, 0, 6, 0, 0, 0, 4, 0, 0, 0, 3] 3 := ⟨_, _, _, rfl, rfl, rfl⟩
  have hdecided : ((new (.fresh .client none)).replay? 16384 (List.flatten [
      Act.happensAll [.invoke (.ping .v3), .tick], [.deals first], Act.happensAll [.answer none, .tick, .leave],
      [.hangsUp none, .deals (.close true), .works, .wrote none], Act.happensAll [.tick, .tick, .leave], [.works],
      Act.happensAll [.invoke (.goAway .v3), .tick], [.deals second], Act.happensAll [.answer none, .tick, .leave],
      [.works, .wrote none, .deals (.close false)], Act.happensAll [.answer none, .tick, .tick, .leave],
      [.works, .works, .shuts none], Act.happensAll [.invoke (.ping .v3), .tick],
      [.deals third, .deals (.close false)],
      Act.happensAll [.answer none, .leave, .answer none, .tick, .leave]])).any fun r =>
      decide (r.link.writer = .ended none ∧ r.asked = [] ∧ (entrusted r.past).length = 3 ∧ reports r.past = [1, 2, 3] ∧
        r.machine.session.outbox.busy = false) := by
    subst hping hgoAway hlast
    decide +kernel
  obtain ⟨r, hr, hdecided⟩ := (Option.any_eq_true _ _).1 hdecided
  obtain ⟨hended, hasked, hlength, hreports, hfree⟩ := of_decide_eq_true hdecided
  have hrun := Run.start.replay hr
  have hreported := (handlers_reported hnew hrun).2.2.2.1 none hended hasked
  exact ⟨_, r, hnew, hrun, hended, hasked, hlength, hreports, hreported, hfree⟩

/-- A GOAWAY is being written when a ping is asked for. Its report makes the session close the connection and then write
the ping, which is behind the close: the writer has ended, and the ping is neither reported as done nor as failed. -/
theorem ping_unreported_behind_close : ∃ s r, Session.new .client none = .ok s ∧ Run 16384 (new s) r ∧
    r.link.writer = .ended none ∧ r.asked = [] ∧ r.machine.stack = [] ∧
    (∃ x ∈ entrusted r.past, (reports r.past).count x.seq = 0) ∧ r.machine.session.outstanding = [] ∧
    r.machine.session.outbox.busy := by
  have hnew : Session.new .client none = .ok (.fresh .client none) := rfl
  obtain ⟨first, second, hgoAway, hping⟩ : ∃ first second,
      first = Command.control .goAway [128, 3, 0, 7, 0, 0, 0, 8, 0, 0, 0, 0, 0, 0, 0, 0] 1 ∧
      second = Command.control .ping [128, 3, 0, 6, 0, 0, 0, 4, 0, 0, 0, 1] 2 := ⟨_, _, rfl, rfl⟩
  have hdecided : ((new (.fresh .client none)).replay? 16384 (List.flatten [
      Act.happensAll [.invoke (.goAway .v3), .tick], [.deals first],
      Act.happensAll [.answer none, .tick, .leave, .invoke (.ping .v3), .tick, .leave],
      [.works, .wrote none, .deals (.close false)], Act.happensAll [.answer none, .tick, .tick], [.deals second],
      Act.happensAll [.answer none, .tick, .leave], [.works, .shuts none],
      second.handler?.toList.map .forgets])).any fun r =>
      decide (r.link.writer = .ended none ∧ r.asked = [] ∧ r.machine.stack.length = 0 ∧
        (∃ x ∈ entrusted r.past, (reports r.past).count x.seq = 0) ∧ r.machine.session.outstanding = [] ∧
        r.machine.session.outbox.busy) := by
    subst hgoAway hping
    decide +kernel
  obtain ⟨r, hr, hdecided⟩ := (Option.any_eq_true _ _).1 hdecided
  obtain ⟨hended, hasked, hstack, hunreported, hnone, hbusy⟩ := of_decide_eq_true hdecided
  exact ⟨_, r, hnew, Run.start.replay hr, hended, hasked, List.length_eq_zero_iff.1 hstack, hunreported, hnone, hbusy⟩

end Reports

end Rig

end Spdy
