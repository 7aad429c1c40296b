import Mathlib.Data.List.Perm.Subperm
import Spdy.Proofs.Reports
import Spdy.Proofs.Wakeful

/-!
# Where the writes of a link are

What a session waits for is on its way on the link: nothing is outstanding that neither the controller nor the writer
has. As long as the writer has not ended, nothing is lost either.

* `outstanding_of_report` : a write that is reported is not outstanding any more;
* `Rig.Run.known` : what is outstanding is on its way or lost;
* `Rig.Stage.lost_eq_nil`, `Rig.orderly_of_run` : nothing is lost or given up before the writer has ended;
* `Rig.Run.carried_le`, `Rig.Run.nodup_reports` : at most one write is on its way, and none is reported twice;
* `Rig.isStill`, `Rig.Run.settled` : once nothing is on its way and nobody is about to start a write, nothing waits that
  could be sent.
-/

namespace Spdy

/-! ## What is outstanding -/

section Outstanding

variable {cap : Nat} {mo : Moment} {m m' : Machine}

/-- A write that is reported is not outstanding any more. -/
theorem outstanding_of_report {x y : Handler} {fault : Option SocketFault}
    (h : m.next? (.standard cap) (.invoke (Rig.report x fault)) = some m') (hy : y ∈ m'.session.outstanding) :
    y ∈ m.session.outstanding ∧ y.seq ≠ x.seq := by
  have hdropped : m'.session.outstanding = (m.session.dropHandler x.seq).outstanding := by
    cases Machine.happens_of_next? h with
    | invoke op yields possible =>
      cases fault with
      | none =>
        obtain ⟨z, -, -, heq⟩ := Session.report_of_possible Session.wrote possible
        rw [Rig.report, Session.begin, heq]
        exact (wrote_cases _ _).outstanding
      | some fault =>
        obtain ⟨z, -, -, heq⟩ := Session.report_of_possible (fun s p => s.notWritten p fault) possible
        rw [Rig.report, Session.begin, heq]
        rfl
  rw [hdropped] at hy
  exact ⟨List.mem_of_mem_filter hy, by simpa using List.of_mem_filter hy⟩

end Outstanding

namespace Rig

section Run

variable {cap : Nat} {config : Config} {primary : Option Listener} {s : Session} {r r' : Rig} {a : Act}

/-- What is outstanding is on its way or lost. -/
theorem Run.known (hnew : Session.new config primary = .ok s) (run : Run cap (new s) r) :
    ∀ x ∈ r.machine.session.outstanding, x ∈ r.carried ++ r.lost := by
  induction run with
  | start =>
    obtain ⟨-, rfl⟩ := Session.new_eq_ok hnew
    exact nofun
  | @next r r' a run h ih =>
    intro x hx
    cases (moves_of_next? h).custody with
    | kept machine past carried perm =>
      rw [machine] at hx
      exact perm.mem_iff.2 (ih x hx)
    | happens free hnext past carried lost =>
      have hturn := turn_of_next? hnext (placed_of_run run.session)
      rw [lost]
      rcases outstanding_of_turn hturn x hx with hx | ⟨bytes, hhanded⟩
      · rcases List.mem_append.1 (ih x hx) with hx | hx
        · exact List.mem_append_left _ (carried.mem_iff.2 (List.mem_append_left _ hx))
        · exact List.mem_append_right _ hx
      · have hx : x ∈ (Moment.entrusted? ⟨_, _, r'.machine⟩).toList :=
          Option.mem_toList.2 (Option.map_eq_some_iff.2 ⟨_, hhanded, rfl⟩)
        exact List.mem_append_left _ (carried.mem_iff.2 (List.mem_append_right _ hx))
    | @reports y fault hnext past carried lost =>
      obtain ⟨hx, hne⟩ := outstanding_of_report hnext hx
      rw [lost]
      rcases List.mem_append.1 (ih x hx) with hx | hx
      · rcases List.mem_cons.1 (carried.mem_iff.1 hx) with rfl | hx
        · exact absurd rfl hne
        · exact List.mem_append_left _ hx
      · exact List.mem_append_right _ hx
    | forgets mem hnext past carried lost =>
      have hturn := turn_of_next? hnext (placed_of_run run.session)
      have hx := (outstanding_of_turn hturn x hx).resolve_right nofun
      rw [lost]
      rcases List.mem_append.1 (ih x hx) with hx | hx
      · exact List.mem_append_left _ (carried.mem_iff.2 hx)
      · exact List.mem_append_right _ hx

theorem Moves.ended (moves : Moves cap r a r') {fault : Option SocketFault} (h : r.link.writer = .ended fault) :
    ∃ fault', r'.link.writer = .ended fault' := by
  cases moves with
  | happens | refuses | ignores | wrote | hangsUp | obeys | forgets => exact ⟨fault, h⟩
  | submits mem hl =>
    rw [Link.submit?, h] at hl
    cases hl
  | takes idle job =>
    cases job with
    | write writer => simp [h] at writer
  | goesOn idle job close =>
    cases job with
    | drain writer | skip writer => cases h.symm.trans writer
    | _ => simp at close
  | closes idle job =>
    cases job with
    | cut writer | drained writer => cases h.symm.trans writer
  | shuts fault' => exact ⟨fault', rfl⟩
  | vanishes asked chore writer => cases h.symm.trans writer

theorem Stage.lost_eq_nil (h : Stage r) (writer : ∀ fault, r.link.writer ≠ .ended fault) : r.lost = [] := by
  cases h with
  | running _ _ _ lost | draining _ _ _ lost | closing _ _ lost => exact lost
  | ended ended => exact absurd ended (writer _)

theorem orderly_of_free {m m' : Machine} {e : Event} (h : e.isControllers m = false) :
    Moment.isOrderly ⟨m, e, m'⟩ := by
  cases e with
  | panic p =>
    have hbreak : Moment.isBreak ⟨m, .panic p, m'⟩ = false := by
      rw [Moment.isBreak]
      rw [Event.isControllers] at h
      cases hawaited : m.awaited? with
      | none => rfl
      | some c =>
        rw [hawaited] at h
        cases c with
        | tell => rfl
        | _ => cases h
    rw [Moment.isOrderly, hbreak]
    rfl
  | drop seq => cases h
  | _ => rfl

/-- As long as the writer has not ended, the controller behaves: no handler is given up, and it does not break off. -/
theorem orderly_of_run (run : Run cap (new s) r) (writer : ∀ fault, r.link.writer ≠ .ended fault) :
    ∀ mo ∈ r.past, mo.isOrderly := by
  induction run with
  | start => exact fun mo hmo => absurd hmo List.not_mem_nil
  | @next r r' a run h ih =>
    have hmoves := moves_of_next? h
    have hwriter : ∀ fault, r.link.writer ≠ .ended fault := fun fault hended =>
      have ⟨fault', hended'⟩ := hmoves.ended hended
      writer fault' hended'
    have hconcat : ∀ {mo : Moment}, mo.isOrderly → ∀ x ∈ r.past ++ [mo], x.isOrderly := fun hmo =>
      List.forall_mem_append.2 ⟨ih hwriter, List.forall_mem_singleton.2 hmo⟩
    cases hmoves.custody with
    | kept machine past =>
      rw [past]
      exact ih hwriter
    | happens free hnext past =>
      rw [past]
      exact hconcat (orderly_of_free free)
    | @reports x fault hnext past =>
      have horderly : Moment.isOrderly ⟨r.machine, .invoke (report x fault), r'.machine⟩ := rfl
      rw [past]
      exact hconcat horderly
    | forgets mem =>
      rw [run.stage.lost_eq_nil hwriter] at mem
      cases mem

theorem Run.carried_le (hnew : Session.new config primary = .ok s) (run : Run cap (new s) r) :
    r.carried.length ≤ 1 := by
  have haccounts := run.accounts hnew
  have hone : r.machine.session.outstanding.length ≤ 1 :=
    Nat.le_trans (Nat.le_add_right _ _)
      (Nat.le_trans (owed_le_of_new hnew run.session) (Bool.toNat_le _))
  have hnodup : r.carried.Nodup := (haccounts.nodup (nodup_of_run hnew run.session)).of_map.of_append_left
  exact Nat.le_trans (hnodup.subperm haccounts.outstanding).length_le hone

theorem Run.nodup_reports (hnew : Session.new config primary = .ok s) (run : Run cap (new s) r) :
    (reports r.past).Nodup := by
  obtain ⟨done, hdone, perm⟩ := (run.accounts hnew).settled
  have hall := ((perm.map (·.seq)).nodup_iff).2 (nodup_of_run hnew run.session)
  rw [List.map_append] at hall
  rw [hdone]
  exact hall.of_append_left

/-! ## At rest -/

/-- Nobody is about to start a write: no flush is due, and what the controller was asked to write is in the channel. -/
def isStill (r : Rig) : Bool := r.machine.tasks.all (!·.settles) && r.asked.all (!·.isWrite)

theorem isStill_iff (r : Rig) :
    r.isStill ↔ (∀ x ∈ r.machine.tasks, x.settles = false) ∧ ∀ c ∈ r.asked, c.isWrite = false := by
  simp [isStill]

/-- While nobody is about to start a write and the writer, which has not ended, has none, nothing is outstanding, and
nothing waits that could be sent. -/
theorem Run.settled (hnew : Session.new config primary = .ok s) (run : Run cap (new s) r)
    (writer : ∀ fault, r.link.writer ≠ .ended fault) (chore : r.chore.handler? = none) (channel : r.link.channel = [])
    (still : r.isStill) : r.machine.session.outstanding = [] ∧
      ∀ q ∈ r.machine.session.outbox.parcels, r.machine.session.canSend q = false := by
  obtain ⟨htasks, hasked⟩ := r.isStill_iff.1 still
  have hcarried : r.carried = [] := by
    have hnone : r.asked.filterMap Command.handler? = [] := by
      refine List.filterMap_eq_nil_iff.2 fun c hc => ?_
      have := hasked c hc
      cases c with
      | write => cases this
      | close => rfl
    rw [carried, hnone, chore, r.link.handlers_eq, channel]
    rfl
  have hout : r.machine.session.outstanding = [] := by
    refine List.eq_nil_iff_forall_not_mem.2 fun x hx => ?_
    have := run.known hnew x hx
    rw [hcarried, run.stage.lost_eq_nil writer] at this
    cases this
  have horderly := orderly_of_run run writer
  have howed : r.machine.owed = r.machine.session.outbox.busy.toNat := by
    obtain ⟨-, rfl⟩ := Session.new_eq_ok hnew
    exact owed_eq_of_run rfl rfl run.session horderly
  have hwake := wakeful_of_run hnew run.session fun mo hmo => Moment.isBreak_of_isOrderly (horderly mo hmo)
  have hheeds : r.machine.Heeds fun q => r.machine.session.canSend q := ⟨hwake.returns, hwake.noticed⟩
  exact ⟨hout, fun q hq => Bool.eq_false_iff.2 (hheeds.unsettling howed htasks hout q hq)⟩

end Run

end Rig

end Spdy
